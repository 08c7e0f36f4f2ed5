import SafetyIsolation.Frames.Events
import SafetyIsolation.Frames.Widths

/-! What is shown of a trace stream, told from the bytes alone: which lines a stream has, which
event a line stands for, and what the cell of an event holds.
-/

namespace SafetyIsolation.Frames

open SafetyIsolation.Text SafetyIsolation.Monitor

-----------------------------------------------------------------------------------------
-- Trimming and compacting
-----------------------------------------------------------------------------------------

end SafetyIsolation.Frames

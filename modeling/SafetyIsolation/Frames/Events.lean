import SafetyIsolation.Monitor.EventStream
import SafetyIsolation.Text.Search
import SafetyIsolation.Text.Streams

/-! The event stream, from the trace pipe to the rows of a frame. What the streamer has done
depends on the bytes that were delivered, not on the reads that delivered them.
-/

namespace SafetyIsolation.Frames

open SafetyIsolation.Text SafetyIsolation.Monitor

/-- The result of a read that finds a chunk or nothing at all. -/
def readResult : Option Chunk → ReadResult
  | some chunk => .bytes chunk
  | none => .again

/-- The bytes that a sequence of reads has delivered. -/
def delivered (reads : List (Option Chunk)) : Bytes :=
  reads.flatMap (fun read => read.elim [] Chunk.bytes)

/-- The inner loop takes every terminated line, by induction over the cuts. -/
theorem drain_eq (pending : Bytes)
    : drain pending
      = ((terminatedLines pending).filterMap traceEvent, afterLastNewline pending) := by
  induction pending using drain.induct with
  | case1 pending uncut =>
      obtain ⟨none, own⟩ := terminatedLines_of_absent (cut_eq_none_iff.mp uncut)
      rw [drain, none, own]
      split
      case h_1 => rfl
      case h_2 isCut => rw [uncut] at isCut; cases isCut
  | case2 pending line rest isCut ih =>
      have whole : pending = line ++ newline :: rest := cut_eq_some isCut
      have absent : newline ∉ line := by
        rw [cut] at isCut
        split at isCut
        · cases isCut
        · cases isCut
          exact fun inside => absurd (List.mem_takeWhile_imp inside) (by decide)
      obtain ⟨first, last⟩ := terminatedLines_newline line rest
      rw [drain]
      split
      case h_1 uncut => rw [uncut] at isCut; cases isCut
      case h_2 line' rest' isCut' =>
        rw [isCut] at isCut'
        cases isCut'
        have own : [line].filterMap traceEvent = (traceEvent line).toList := by
          rw [List.filterMap_cons]
          cases traceEvent line with
          | none => rfl
          | some event => rfl
        rw [ih, whole, first, last, lines_line absent, lines, List.filterMap_append, own]

/-- The streamer has handled every terminated line of what it had pending and of what was
delivered since, by induction over the reads.
-/
theorem streamLoop_eq (pending : Bytes) (h : newline ∉ pending) (reads : List (Option Chunk))
    : streamLoop pending (reads.map readResult)
      = ((terminatedLines (pending ++ delivered reads)).filterMap traceEvent,
          afterLastNewline (pending ++ delivered reads)) := by
  induction reads generalizing pending with
  | nil =>
      obtain ⟨none, own⟩ := terminatedLines_of_absent h
      rw [delivered, List.flatMap_nil, List.append_nil, none, own]
      rfl
  | cons read reads ih =>
      cases read with
      | none => exact ih pending h
      | some chunk =>
          have later : delivered (some chunk :: reads) = chunk.bytes ++ delivered reads := rfl
          have absent : newline ∉ afterLastNewline (pending ++ chunk.bytes) :=
            fun inside => absurd (List.mem_rtakeWhile_imp inside) (by decide)
          obtain ⟨grown, rest⟩ := terminatedLines_append (pending ++ chunk.bytes) (delivered reads)
          rw [List.append_assoc] at grown rest
          rw [List.map_cons, readResult, streamLoop, drain_eq, later, grown, rest,
            List.filterMap_append]
          simp only [ih _ absent]

/-- What the streamer appends, from its first event on. -/
theorem eventStreamer_eq (path : Bytes) (reads : List (Option Chunk))
    : eventStreamer (.ok path) (reads.map readResult)
      = (monitorEvent (utf8 "connected to " ++ path) false
          :: (terminatedLines (delivered reads)).filterMap traceEvent,
        afterLastNewline (delivered reads)) := by
  rw [eventStreamer, streamLoop_eq [] List.not_mem_nil, List.nil_append]

/-- Searching from the front finds the first place where the needle occurs, by induction over the
text.
-/
theorem fromFirst_eq (needle text : Bytes)
    : fromFirst needle text = (afterFirst needle text).map (needle ++ ·) := by
  induction text with
  | nil =>
      rw [fromFirst, afterFirst]
      split
      · rename_i blank
        rw [blank]
        rfl
      · rfl
  | cons byte later ih =>
      rw [fromFirst, afterFirst]
      split
      · rename_i starts
        obtain ⟨rest, whole⟩ := List.isPrefixOf_iff_prefix.mp starts
        rw [← whole, List.drop_left]
        rfl
      · exact ih

theorem fromFirst_eq_some_iff {needle text found : Bytes}
    : fromFirst needle text = some found
      ↔ ∃ rest, FirstOccurrence needle text rest ∧ needle ++ rest = found := by
  simp only [fromFirst_eq, Option.map_eq_some_iff, afterFirst_eq_some_iff]

end SafetyIsolation.Frames

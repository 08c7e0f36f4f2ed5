import SafetyIsolation.Monitor.Renderer

/-! The event streamer of `monitor/main.cpp`: it cuts what the trace pipe delivers into lines
and keeps the events they stand for.
-/

namespace SafetyIsolation.Monitor

open SafetyIsolation.Text

def kTraceMessageLimit : Nat := 60
def kTraceReadBufferCapacity : Nat := 4096
def kTraceTimestamp : Bytes := utf8 "live"

/-- The text from the first place on where the needle occurs. -/
def fromFirst (needle : Bytes) : Bytes → Option Bytes
  | [] => if needle = [] then some [] else none
  | byte :: rest =>
      if needle.isPrefixOf (byte :: rest) then some (byte :: rest) else fromFirst needle rest

def kDemoEventPrefixes : List Bytes :=
  [utf8 "mutex_threads:", utf8 "rogue_thread:", utf8 "VIOLATION:"]

/-- `compact_trace_message`. -/
def compactTraceMessage (traceLine : Bytes) : Bytes :=
  (kDemoEventPrefixes.findSome? (fromFirst · traceLine)).getD traceLine

def monitorEvent (message : Bytes) (isWarning : Bool) : EventEntry where
  timestamp := kTraceTimestamp
  source := utf8 "monitor"
  message := message
  isWarning := isWarning

/-- The event of a line up to its newline, unless nothing of it is left after trimming. -/
def traceEvent (line : Bytes) : Option EventEntry :=
  let traceLine := trim line
  if traceLine = [] then none
  else some
    { timestamp := kTraceTimestamp
      source := utf8 "trace"
      message := (compactTraceMessage traceLine).take kTraceMessageLimit
      isWarning := contains traceLine (utf8 "WARN")
      isError := contains traceLine (utf8 "FAIL") || contains traceLine (utf8 "VIOLATION") }

theorem cut_length_lt {separator : UInt8} {text front rest : Bytes}
    (isCut : cut separator text = some (front, rest))
    : rest.length < text.length := by
  have whole := congrArg List.length (cut_eq_some isCut)
  simp only [List.length_append, List.length_cons] at whole
  omega

/-- The inner loop: the events of all complete lines in the buffer, and what is left of it. -/
def drain (pending : Bytes) : List EventEntry × Bytes :=
  match _isCut : cut newline pending with
  | none => ([], pending)
  | some (line, rest) =>
      let later := drain rest
      ((traceEvent line).toList ++ later.1, later.2)
  termination_by pending.length
  decreasing_by exact cut_length_lt _isCut

/-- What one successful `read` puts into the buffer. -/
structure Chunk where
  bytes : Bytes
  nonempty : bytes ≠ []
  fits : bytes.length ≤ kTraceReadBufferCapacity

inductive ReadResult where
  | bytes (chunk : Chunk)
  /-- `EAGAIN`, `EWOULDBLOCK` or `EINTR`. -/
  | again
  | endOfFile
  | failed (reason : Bytes)

/-- The outer loop, from what is pending on: the events it appends and what is pending in the
end.
-/
def streamLoop (pending : Bytes) : List ReadResult → List EventEntry × Bytes
  | [] => ([], pending)
  | .bytes chunk :: reads =>
      let (events, pending) := drain (pending ++ chunk.bytes)
      let (later, pending) := streamLoop pending reads
      (events ++ later, pending)
  | .again :: reads => streamLoop pending reads
  | .endOfFile :: reads => streamLoop pending reads
  | .failed reason :: _ =>
      ([monitorEvent (utf8 "trace_pipe read failed: " ++ reason) true], pending)

/-- The event streamer: the events it appends and what is pending in the end. Opening the pipe
gives its path or the reason of the failure.
-/
def eventStreamer (opened : Except Bytes Bytes) (reads : List ReadResult)
    : List EventEntry × Bytes :=
  match opened with
  | .error reason => ([monitorEvent (utf8 "trace_pipe unavailable: " ++ reason) true], [])
  | .ok path =>
      let (events, pending) := streamLoop [] reads
      (monitorEvent (utf8 "connected to " ++ path) false :: events, pending)

end SafetyIsolation.Monitor

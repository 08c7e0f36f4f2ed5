import Mathlib.Data.Finset.Basic
import SafetyIsolation.Interleaving.Program
import SafetyIsolation.Text.Bytes

/-! What the harness sees of the operating system: commands, files, signals and the clock.
One operation is one interaction. A signal may be recorded before any of them, which are the
only points at which the code can tell.
-/

namespace SafetyIsolation.Harness

open SafetyIsolation.Interleaving SafetyIsolation.Text

/-- `std::filesystem::path`, as its string. -/
abbrev Path : Type := String

namespace Path

/-- `path::filename`: what follows the last separator. -/
def filename (path : Path) : Path :=
  String.ofList (path.toList.reverse.takeWhile (· ≠ '/')).reverse

/-- `path::stem`: the filename up to its last dot. A leading dot starts no extension, and
`..` has none.
-/
def stem (path : Path) : String :=
  let name := (filename path).toList
  let extension := name.reverse.takeWhile (· ≠ '.')
  match name.reverse.drop extension.length with
  | [] => String.ofList name
  | _ :: front =>
      if front = [] ∨ name = ['.', '.'] then String.ofList name
      else String.ofList front.reverse

/-- `operator/`. -/
def join (directory file : Path) : Path := directory ++ "/" ++ file

end Path

example : Path.stem "modules/ctx_monitor.ko" = "ctx_monitor" := by decide

/-- The signals `setup_signal_handlers` catches. -/
inductive Signal where
  | sigint
  | sigterm
  deriving DecidableEq

def Signal.number : Signal → Int
  | .sigint => 2
  | .sigterm => 15

/-- The places of one scenario run at which a proc file is read. -/
inductive ReadPoint where
  | setup
  | before
  | action (turn : Nat)
  | after
  deriving DecidableEq

/-- How an attempt to read a file ends. -/
inductive ReadOutcome where
  | content (text : Bytes)
  | missing
  | unopened
  | bad
  deriving DecidableEq

/-- `enterRun` and `startRun` only mark the two ends of the check for signals with which a
scenario run begins.
-/
inductive SysOp where
  | fileExists (path : Path)
  | insmod (path : Path) (params : String)
  | rmmod (name : String)
  | readSignal
  | clearSignal
  | enterRun (id : String)
  | startRun (id : String)
  | readProc (point : ReadPoint) (path : Path)
  | writeProc (path : Path) (text : Bytes)
  | writeState (content : Bytes)
  | elapsedNs
  | turnsBeforeDeadline
  deriving DecidableEq

/-- The type of an operation's result. -/
abbrev SysOp.Res : SysOp → Type
  | .fileExists _ => Bool
  | .insmod _ _ => Int
  | .rmmod _ => Int
  | .readSignal => Int
  | .readProc _ _ => ReadOutcome
  | .elapsedNs => UInt64
  | .turnsBeforeDeadline => Nat
  | _ => Unit

instance (op : SysOp) : Nonempty op.Res := by
  cases op with
  | readProc point path => exact ⟨ReadOutcome.missing⟩
  | _ => infer_instance

/-- What the environment decides about one operation. -/
structure Choice where
  signal : Option Signal := none
  found : Bool := true
  insmodCode : Int := 0
  rmmodCode : Int := 0
  read : ReadOutcome := .missing
  elapsed : UInt64 := 0
  turns : Nat := 0
  deriving DecidableEq, Inhabited

/-- What an observer of the process records. -/
inductive Event where
  | insmod (path : Path) (params : String) (code : Int)
  | rmmod (name : String) (code : Int)
  | signal (signal : Signal)
  | entered (id : String)
  | started (id : String)
  | published (content : Bytes)
  deriving DecidableEq

/-- The part of the system the harness shares with the kernel and the signal handler:
`g_signal_received`, the loaded modules, and the record of events.
-/
structure Sys where
  signalReceived : Int
  loaded : Finset String
  events : List Event

namespace Sys

def record (s : Sys) (event : Event) : Sys := { s with events := s.events ++ [event] }

/-- `handle_signal`, if a signal arrives. -/
def deliver (s : Sys) : Option Signal → Sys
  | none => s
  | some signal => { s with signalReceived := signal.number }.record (.signal signal)

/-- The exit code of a command the kernel refuses. -/
def refused : Int := 256

/-- `insmod`: the kernel refuses a module that is loaded already or needs one that is not. -/
def insert (needs : String → List String) (s : Sys) (path : Path) (params : String)
    (code : Int)
    : Int × Sys :=
  if code ≠ 0 then (code, s.record (.insmod path params code))
  else if path.stem ∉ s.loaded ∧ ∀ need ∈ needs path.stem, need ∈ s.loaded then
    (0, { s with loaded := Insert.insert path.stem s.loaded }.record (.insmod path params 0))
  else (refused, s.record (.insmod path params refused))

/-- `rmmod`: the kernel refuses a module that is not loaded or is needed by a loaded one. -/
def remove (needs : String → List String) (s : Sys) (name : String) (code : Int)
    : Int × Sys :=
  if code ≠ 0 then (code, s.record (.rmmod name code))
  else if name ∈ s.loaded ∧ ∀ user ∈ s.loaded, name ∉ needs user then
    (0, { s with loaded := s.loaded.erase name }.record (.rmmod name 0))
  else (refused, s.record (.rmmod name refused))

end Sys

/-- The meaning of each operation, for a dependency relation between modules. -/
def exec (needs : String → List String) (choice : Choice)
    : (op : SysOp) → Sys → Outcome op.Res Sys
  | .fileExists _, s => .done choice.found (s.deliver choice.signal)
  | .insmod path params, s =>
      let (code, s) := (s.deliver choice.signal).insert needs path params choice.insmodCode
      .done code s
  | .rmmod name, s =>
      let (code, s) := (s.deliver choice.signal).remove needs name choice.rmmodCode
      .done code s
  | .readSignal, s =>
      let s := s.deliver choice.signal
      .done s.signalReceived s
  | .clearSignal, s => .done () { s.deliver choice.signal with signalReceived := 0 }
  | .enterRun id, s => .done () ((s.deliver choice.signal).record (.entered id))
  | .startRun id, s => .done () ((s.deliver choice.signal).record (.started id))
  | .readProc _ _, s => .done choice.read (s.deliver choice.signal)
  | .writeProc _ _, s => .done () (s.deliver choice.signal)
  | .writeState content, s =>
      let s := s.deliver choice.signal
      .done () (if choice.found then s.record (.published content) else s)
  | .elapsedNs, s => .done choice.elapsed (s.deliver choice.signal)
  | .turnsBeforeDeadline, s => .done choice.turns (s.deliver choice.signal)

end SafetyIsolation.Harness

import SafetyIsolation.Harness.ModuleLoader

/-! Whatever a process may do with its loaders: any sequence of calls on live objects, each
with its own choices of the environment.
-/

namespace SafetyIsolation.Harness

open SafetyIsolation.Interleaving

/-- The public operations of `ModuleLoader`, object lifetimes included. -/
inductive LoaderCall where
  | construct (id : LoaderId)
  | moveConstruct (id other : LoaderId)
  | moveAssign (id other : LoaderId)
  | load (id : LoaderId) (path : Path) (params : String)
  | unload (id : LoaderId) (name : String)
  | unloadAll (id : LoaderId)
  | destroy (id : LoaderId)
  deriving DecidableEq

namespace LoaderCall

/-- An object is constructed where none lives, and used while it lives. -/
def valid (heap : Heap) : LoaderCall → Bool
  | .construct id => (heap.modules id).isNone
  | .moveConstruct id other => (heap.modules id).isNone && (heap.modules other).isSome
  | .moveAssign id other => (heap.modules id).isSome && (heap.modules other).isSome
  | .load id _ _ => (heap.modules id).isSome
  | .unload id _ => (heap.modules id).isSome
  | .unloadAll id => (heap.modules id).isSome
  | .destroy id => (heap.modules id).isSome

/-- The code of a call; the result of `load` and `unload` is the caller's business. -/
def code : LoaderCall → Code Unit
  | .construct id => ModuleLoader.construct id
  | .moveConstruct id other => ModuleLoader.moveConstruct id other
  | .moveAssign id other => ModuleLoader.moveAssign id other
  | .load id path params => do let _ ← ModuleLoader.load id path params
  | .unload id name => do let _ ← ModuleLoader.unload id name
  | .unloadAll id => ModuleLoader.unloadAll id
  | .destroy id => ModuleLoader.destroy id

end LoaderCall

/-- The loaders of a process and the system around it. -/
structure Process where
  heap : Heap
  sys : Sys

namespace Process

/-- A process before its first loader. -/
def start (sys : Sys) : Process := ⟨.empty, sys⟩

/-- One call; `none` if its objects are not there. -/
def call (needs : String → List String) (p : Process) (call : LoaderCall)
    (choices : List Choice)
    : Option Process :=
  if call.valid p.heap then
    match (call.code.run p.heap).runAlone (exec needs) choices p.sys with
    | .done (_, heap) sys => some ⟨heap, sys⟩
    | .wait => none
    | .fault => none
  else none

/-- The processes that admitted calls lead to. -/
inductive Reaches (needs : String → List String)
    (admits : Process → LoaderCall → List Choice → Prop) (first : Process)
    : Process → Prop where
  | start : Reaches needs admits first first
  | call {p p' : Process} {call : LoaderCall} {choices : List Choice}
      (before : Reaches needs admits first p) (admitted : admits p call choices)
      (called : p.call needs call choices = some p')
      : Reaches needs admits first p'

end Process

end SafetyIsolation.Harness

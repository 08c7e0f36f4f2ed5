import SafetyIsolation.Harness.System

/-! `module_loader.cpp`: the loaders, their registry and the deferred signal cleanup.
The mutexes only serialize callers, so each function is one piece of sequential code.
-/

namespace SafetyIsolation.Harness

open SafetyIsolation.Interleaving SafetyIsolation.Text

/-- The address of a loader object. -/
abbrev LoaderId : Type := Nat

structure LoadedModule where
  name : String
  path : Path
  deriving DecidableEq

/-- The live loaders with their `loaded_modules_`, and `g_active_loaders`. -/
structure Heap where
  modules : LoaderId → Option (List LoadedModule)
  activeLoaders : List LoaderId

namespace Heap

/-- No loader has been constructed yet. -/
def empty : Heap := { modules := fun _ => none, activeLoaders := [] }

/-- `loaded_modules_` of a loader; nothing for an address without one. -/
def tracked (heap : Heap) (id : LoaderId) : List LoadedModule := (heap.modules id).getD []

def names (heap : Heap) (id : LoaderId) : List String := (heap.tracked id).map LoadedModule.name

/-- Change `loaded_modules_` of a live loader. -/
def modify (heap : Heap) (id : LoaderId) (f : List LoadedModule → List LoadedModule) : Heap :=
  { heap with modules := Function.update heap.modules id ((heap.modules id).map f) }

end Heap

/-- Harness code: it works on the loaders and interacts with the system. -/
abbrev Code (α : Type) : Type := StateT Heap (Prog SysOp SysOp.Res) α

def sys (op : SysOp) : Code op.Res := StateT.lift (Prog.perform op)

namespace ModuleLoader

/-- `register_instance`. -/
def registerInstance (id : LoaderId) : Code Unit :=
  modify fun heap => { heap with activeLoaders := heap.activeLoaders ++ [id] }

/-- `unregister_instance`. -/
def unregisterInstance (id : LoaderId) : Code Unit :=
  modify fun heap => { heap with activeLoaders := heap.activeLoaders.filter (· ≠ id) }

def trackedModules (id : LoaderId) : Code (List LoadedModule) := do
  return (← get).tracked id

/-- `is_loaded`. -/
def isLoaded (modules : List LoadedModule) (moduleName : String) : Bool :=
  modules.any (fun mod => mod.name = moduleName)

/-- The file `load` inserts: the given one, or its namesake under `/modules` or `modules`. -/
def resolve (modulePath : Path) : Code (Option Path) := do
  if ← sys (.fileExists modulePath) then return some modulePath
  let guestModules := Path.join "/modules" modulePath.filename
  let localModules := Path.join "modules" modulePath.filename
  if ← sys (.fileExists guestModules) then return some guestModules
  if ← sys (.fileExists localModules) then return some localModules
  return none

/-- What `load` does once it has found the file. -/
def loadFile (id : LoaderId) (targetPath : Path) (params : String)
    : Code (Except String Unit) := do
  let moduleName := targetPath.stem
  if isLoaded (← trackedModules id) moduleName then
    return .ok ()
  let ret ← sys (.insmod targetPath params)
  if ret ≠ 0 then
    return .error
      ("insmod failed for " ++ targetPath ++ " (exit code " ++ toString ret ++ ")")
  modify fun heap => heap.modify id (· ++ [⟨moduleName, targetPath⟩])
  registerInstance id
  return .ok ()

/-- `ModuleLoader::load`. -/
def load (id : LoaderId) (modulePath : Path) (params : String) : Code (Except String Unit) := do
  match ← resolve modulePath with
  | none => return .error ("Module file not found: " ++ modulePath)
  | some targetPath => loadFile id targetPath params

/-- `erase` of the element a search from the back has found. -/
def eraseLast (modules : List LoadedModule) (moduleName : String) : List LoadedModule :=
  (modules.reverse.eraseP (fun mod => mod.name = moduleName)).reverse

/-- `ModuleLoader::unload`. -/
def unload (id : LoaderId) (moduleName : String) : Code (Except String Unit) := do
  if !isLoaded (← trackedModules id) moduleName then
    return .ok ()
  let ret ← sys (.rmmod moduleName)
  if ret ≠ 0 then
    return .error
      ("rmmod failed for module " ++ moduleName ++ " (exit code " ++ toString ret ++ ")")
  modify fun heap => heap.modify id (eraseLast · moduleName)
  return .ok ()

/-- The loop of `unload_all`, over the modules from the back; the exit code is ignored. -/
def unloadEach (id : LoaderId) : List LoadedModule → Code Unit
  | [] => return ()
  | mod :: rest => do
      let _rc ← sys (.rmmod mod.name)
      modify fun heap => heap.modify id List.dropLast
      unloadEach id rest

/-- `ModuleLoader::unload_all`. -/
def unloadAll (id : LoaderId) : Code Unit := do
  unloadEach id (← trackedModules id).reverse

/-- `ModuleLoader()`. -/
def construct (id : LoaderId) : Code Unit :=
  modify fun heap => { heap with modules := Function.update heap.modules id (some []) }

/-- `~ModuleLoader()`. -/
def destroy (id : LoaderId) : Code Unit := do
  unloadAll id
  unregisterInstance id
  modify fun heap => { heap with modules := Function.update heap.modules id none }

/-- `ModuleLoader(ModuleLoader&&)`; the moved-from list is empty. -/
def moveConstruct (id other : LoaderId) : Code Unit := do
  let modules ← trackedModules other
  modify fun heap =>
    { heap with modules := Function.update heap.modules id (some modules) }.modify other
      (fun _ => [])
  registerInstance id

/-- `operator=(ModuleLoader&&)`. -/
def moveAssign (id other : LoaderId) : Code Unit := do
  if id ≠ other then
    unloadAll id
    let modules ← trackedModules other
    modify fun heap => (heap.modify id (fun _ => modules)).modify other (fun _ => [])

/-- The loop of `cleanup_on_signal`. -/
def unloadActive : List LoaderId → Code Unit
  | [] => return ()
  | loader :: rest => do
      unloadAll loader
      unloadActive rest

def kShellSignalExitBase : Int := 128

/-- `cleanup_on_signal`; an error is the argument of `_Exit`. -/
def cleanupOnSignal : Code (Except Int Unit) := do
  if (← sys .readSignal) ≠ 0 then
    let sig ← sys .readSignal
    sys .clearSignal
    unloadActive (← get).activeLoaders
    return .error (kShellSignalExitBase + sig)
  return .ok ()

end ModuleLoader

end SafetyIsolation.Harness

import SafetyIsolation.Harness.ModuleLoader

/-! The loaders under several threads: the same functions with their mutexes, one lock operation,
access or command at a time.
-/

namespace SafetyIsolation.Harness

open SafetyIsolation.Interleaving

/-- `g_loaders_mutex`, and `mutex_` of each loader. -/
inductive LoaderMutex where
  | registry
  | loader (id : LoaderId)
  deriving DecidableEq

inductive LockOp where
  | lock (mutex : LoaderMutex)
  | unlock (mutex : LoaderMutex)
  | system (op : SysOp)
  | modules (id : LoaderId)
  | setModules (id : LoaderId) (modules : List LoadedModule)
  | activeLoaders
  | setActiveLoaders (loaders : List LoaderId)
  | exit (code : Int)
  deriving DecidableEq

/-- The type of an operation's result. -/
abbrev LockOp.Res : LockOp → Type
  | .system op => op.Res
  | .modules _ => List LoadedModule
  | .activeLoaders => List LoaderId
  | _ => Unit

/-- What the threads of the harness share. -/
structure LoaderState where
  owner : LoaderMutex → Option Nat
  heap : Heap
  sys : Sys

/-- The meaning of each operation. `_Exit` does not return; the process ends there, but what the
other threads might still do is not excluded.
-/
def lockExec (needs : String → List String) (tid : Nat) (choice : Choice)
    : (op : LockOp) → LoaderState → Outcome op.Res LoaderState
  | .lock mutex, s =>
      if s.owner mutex = none then
        .done () { s with owner := Function.update s.owner mutex (some tid) }
      else .wait
  | .unlock mutex, s => .done () { s with owner := Function.update s.owner mutex none }
  | .system op, s =>
      match exec needs choice op s.sys with
      | .done result sys => .done result { s with sys }
      | .wait => .wait
      | .fault => .fault
  | .modules id, s => .done (s.heap.tracked id) s
  | .setModules id modules, s => .done () { s with heap := s.heap.modify id (fun _ => modules) }
  | .activeLoaders, s => .done s.heap.activeLoaders s
  | .setActiveLoaders loaders, s =>
      .done () { s with heap := { s.heap with activeLoaders := loaders } }
  | .exit _, _ => .wait

/-- Code of one thread. -/
abbrev Locked (α : Type) : Type := Prog LockOp LockOp.Res α

namespace Locked

def op (operation : LockOp) : Locked operation.Res := Prog.perform operation

def sys (operation : SysOp) : Locked operation.Res := op (.system operation)

/-- `std::lock_guard` around the rest of a block. -/
def lockGuard {α : Type} (mutex : LoaderMutex) (block : Locked α) : Locked α := do
  op (.lock mutex)
  let value ← block
  op (.unlock mutex)
  return value

/-- `register_instance`. -/
def registerInstance (id : LoaderId) : Locked Unit :=
  lockGuard .registry do
    let loaders ← op .activeLoaders
    op (.setActiveLoaders (loaders ++ [id]))

/-- The file `load` inserts. -/
def resolve (modulePath : Path) : Locked (Option Path) := do
  if ← sys (.fileExists modulePath) then return some modulePath
  let guestModules := Path.join "/modules" modulePath.filename
  let localModules := Path.join "modules" modulePath.filename
  if ← sys (.fileExists guestModules) then return some guestModules
  if ← sys (.fileExists localModules) then return some localModules
  return none

/-- What `load` does once it has found the file. -/
def loadFile (id : LoaderId) (targetPath : Path) (params : String)
    : Locked (Except String Unit) := do
  let moduleName := targetPath.stem
  let modules ← op (.modules id)
  if ModuleLoader.isLoaded modules moduleName then
    return .ok ()
  let ret ← sys (.insmod targetPath params)
  if ret ≠ 0 then
    return .error
      ("insmod failed for " ++ targetPath ++ " (exit code " ++ toString ret ++ ")")
  let modules ← op (.modules id)
  op (.setModules id (modules ++ [⟨moduleName, targetPath⟩]))
  registerInstance id
  return .ok ()

/-- `ModuleLoader::load`. -/
def load (id : LoaderId) (modulePath : Path) (params : String) : Locked (Except String Unit) :=
  lockGuard (.loader id) do
    match ← resolve modulePath with
    | none => return .error ("Module file not found: " ++ modulePath)
    | some targetPath => loadFile id targetPath params

/-- `ModuleLoader::unload`. -/
def unload (id : LoaderId) (moduleName : String) : Locked (Except String Unit) :=
  lockGuard (.loader id) do
    let modules ← op (.modules id)
    if !ModuleLoader.isLoaded modules moduleName then
      return .ok ()
    let ret ← sys (.rmmod moduleName)
    if ret ≠ 0 then
      return .error
        ("rmmod failed for module " ++ moduleName ++ " (exit code " ++ toString ret ++ ")")
    let modules ← op (.modules id)
    op (.setModules id (ModuleLoader.eraseLast modules moduleName))
    return .ok ()

/-- The loop of `unload_all`, over the modules from the back. -/
def unloadEach (id : LoaderId) : List LoadedModule → Locked Unit
  | [] => return ()
  | mod :: rest => do
      let _rc ← sys (.rmmod mod.name)
      let modules ← op (.modules id)
      op (.setModules id modules.dropLast)
      unloadEach id rest

/-- `ModuleLoader::unload_all`. -/
def unloadAll (id : LoaderId) : Locked Unit :=
  lockGuard (.loader id) do
    let modules ← op (.modules id)
    unloadEach id modules.reverse

/-- `operator=(ModuleLoader&&)`. -/
def moveAssign (id other : LoaderId) : Locked Unit := do
  if id ≠ other then
    unloadAll id
    lockGuard (.loader id) do
      lockGuard (.loader other) do
        let modules ← op (.modules other)
        op (.setModules id modules)
        op (.setModules other [])

/-- The loop of `cleanup_on_signal`. -/
def unloadActive : List LoaderId → Locked Unit
  | [] => return ()
  | loader :: rest => do
      unloadAll loader
      unloadActive rest

/-- `cleanup_on_signal`; the lock is held to the end. -/
def cleanupOnSignal : Locked Unit := do
  if (← sys .readSignal) ≠ 0 then
    let sig ← sys .readSignal
    sys .clearSignal
    op (.lock .registry)
    let loaders ← op .activeLoaders
    unloadActive loaders
    op (.exit (ModuleLoader.kShellSignalExitBase + sig))

end Locked

/-- The calls threads make concurrently. -/
inductive LockedCall where
  | load (id : LoaderId) (path : Path) (params : String)
  | unload (id : LoaderId) (name : String)
  | unloadAll (id : LoaderId)
  | moveAssign (id other : LoaderId)
  | cleanupOnSignal
  deriving DecidableEq

/-- The code of a call; the result of `load` and `unload` is the caller's business. -/
def LockedCall.body : LockedCall → Locked Unit
  | .load id path params => do let _ ← Locked.load id path params
  | .unload id name => do let _ ← Locked.unload id name
  | .unloadAll id => Locked.unloadAll id
  | .moveAssign id other => Locked.moveAssign id other
  | .cleanupOnSignal => Locked.cleanupOnSignal

/-- Any number of threads with any loaders. -/
def loaderThreads (needs : String → List String)
    : Machine LoaderState Nat LockedCall Unit Choice LockOp LockOp.Res where
  exec := lockExec needs
  body := LockedCall.body

abbrev LoaderConfig : Type := Config LoaderState Nat LockedCall Unit LockOp LockOp.Res

end SafetyIsolation.Harness

import SafetyIsolation.Harness.LoaderLocks

/-! A thread by itself finds every mutex free, and then its code is the sequential one.
-/

namespace SafetyIsolation.Harness

open SafetyIsolation.Interleaving

/-- The code of a thread that is alone; an error is the argument of `_Exit`. -/
def unlocked {α : Type} : Locked α → Code (Except Int α)
  | .ret value => fun heap => .ret (.ok value, heap)
  | .act (.lock _) next => unlocked (next ())
  | .act (.unlock _) next => unlocked (next ())
  | .act (.system op) next => fun heap => .act op (fun result => unlocked (next result) heap)
  | .act (.modules id) next => fun heap => unlocked (next (heap.tracked id)) heap
  | .act (.setModules id modules) next =>
      fun heap => unlocked (next ()) (heap.modify id (fun _ => modules))
  | .act .activeLoaders next => fun heap => unlocked (next heap.activeLoaders) heap
  | .act (.setActiveLoaders loaders) next =>
      fun heap => unlocked (next ()) { heap with activeLoaders := loaders }
  | .act (.exit code) _ => fun heap => .ret (.error code, heap)

/-- The locked code returns where the sequential code does, whatever follows it. -/
def Matches {α : Type} (code : Locked α) (sequential : Code α) : Prop :=
  ∀ (β : Type) (next : α → Locked β) (heap : Heap),
    unlocked (code.bind next) heap
      = (sequential heap).bind (fun out => unlocked (next out.1) out.2)

namespace Matches

variable {α β : Type}

theorem pure (value : α) : Matches (Pure.pure value) (Pure.pure value) := fun _ _ _ => rfl

theorem sys (op : SysOp) : Matches (Locked.sys op) (Harness.sys op) := fun _ _ _ => rfl

theorem modules (id : LoaderId)
    : Matches (Locked.op (.modules id)) (ModuleLoader.trackedModules id) := fun _ _ _ => rfl

theorem bind {code : Locked α} {sequential : Code α} {next : α → Locked β}
    {continued : α → Code β} (first : Matches code sequential)
    (rest : ∀ value, Matches (next value) (continued value))
    : Matches (code >>= next) (sequential >>= continued) := by
  intro γ last heap
  calc unlocked ((code.bind next).bind last) heap
      = unlocked (code.bind (fun value => (next value).bind last)) heap := by
        rw [Prog.bind_assoc]
    _ = (sequential heap).bind (fun out => unlocked ((next out.1).bind last) out.2) :=
        first γ _ heap
    _ = (sequential heap).bind (fun out =>
          (continued out.1 out.2).bind (fun later => unlocked (last later.1) later.2)) :=
        congrArg _ (funext (fun out => rest out.1 γ last out.2))
    _ = ((sequential >>= continued) heap).bind (fun out => unlocked (last out.1) out.2) :=
        (Prog.bind_assoc _ _ _).symm

theorem lockGuard {mutex : LoaderMutex} {block : Locked α} {sequential : Code α}
    (inside : Matches block sequential)
    : Matches (Locked.lockGuard mutex block) sequential := by
  intro γ next heap
  calc unlocked ((Locked.lockGuard mutex block).bind next) heap
      = unlocked ((block.bind (fun value => .act (.unlock mutex) (fun _ => .ret value))).bind
          next) heap := rfl
    _ = unlocked (block.bind (fun value => .act (.unlock mutex) (fun _ => next value))) heap := by
        rw [Prog.bind_assoc]
        rfl
    _ = (sequential heap).bind (fun out => unlocked (next out.1) out.2) := inside γ _ heap

theorem ite {condition : Prop} [Decidable condition] {code other : Locked α}
    {sequential alternative : Code α} (first : Matches code sequential)
    (second : Matches other alternative)
    : Matches (if condition then code else other)
        (if condition then sequential else alternative) := by
  split
  · exact first
  · exact second

/-- Reading a loader's modules and storing the changed list is one modification. -/
theorem update {id : LoaderId} {f : List LoadedModule → List LoadedModule} {rest : Locked α}
    {sequential : Code α} (continued : Matches rest sequential)
    : Matches
        (do
          let modules ← Locked.op (.modules id)
          Locked.op (.setModules id (f modules))
          rest)
        (do
          modify fun heap => heap.modify id f
          sequential) := by
  intro γ next heap
  have same : heap.modify id (fun _ => f (heap.tracked id)) = heap.modify id f := by
    cases found : heap.modules id with
    | none => simp [Heap.modify, found]
    | some modules => simp [Heap.modify, Heap.tracked, found]
  calc unlocked (rest.bind next) (heap.modify id (fun _ => f (heap.tracked id)))
      = unlocked (rest.bind next) (heap.modify id f) := by rw [same]
    _ = _ := continued γ next _

theorem registerInstance (id : LoaderId)
    : Matches (Locked.registerInstance id) (ModuleLoader.registerInstance id) :=
  .lockGuard (fun _ _ _ => rfl)

theorem resolve (path : Path) : Matches (Locked.resolve path) (ModuleLoader.resolve path) :=
  .bind (.sys _) (fun _ => .ite (.pure _) (.bind (.sys _) (fun _ => .ite (.pure _)
    (.bind (.sys _) (fun _ => .ite (.pure _) (.pure _))))))

theorem loadFile (id : LoaderId) (path : Path) (params : String)
    : Matches (Locked.loadFile id path params) (ModuleLoader.loadFile id path params) :=
  .bind (.modules id) (fun _ => .ite (.pure _) (.bind (.sys _) (fun _ => .ite (.pure _)
    (.update (.bind (.registerInstance id) (fun _ => .pure _))))))

theorem load (id : LoaderId) (path : Path) (params : String)
    : Matches (Locked.load id path params) (ModuleLoader.load id path params) := by
  refine .lockGuard (.bind (.resolve path) (fun found => ?_))
  cases found with
  | none => exact .pure _
  | some target => exact .loadFile id target params

theorem unload (id : LoaderId) (name : String)
    : Matches (Locked.unload id name) (ModuleLoader.unload id name) :=
  .lockGuard (.bind (.modules id) (fun _ => .ite (.pure _) (.bind (.sys _) (fun _ => .ite (.pure _)
    (.update (.pure _))))))

/-- The loop of `unload_all`, by induction over the modules. -/
theorem unloadEach (id : LoaderId) (modules : List LoadedModule)
    : Matches (Locked.unloadEach id modules) (ModuleLoader.unloadEach id modules) := by
  induction modules with
  | nil => exact .pure ()
  | cons mod rest ih => exact .bind (.sys _) (fun _ => .update ih)

theorem unloadAll (id : LoaderId) : Matches (Locked.unloadAll id) (ModuleLoader.unloadAll id) :=
  .lockGuard (.bind (.modules id) (fun _ => .unloadEach id _))

theorem moveAssign (id other : LoaderId)
    : Matches (Locked.moveAssign id other) (ModuleLoader.moveAssign id other) :=
  .ite (.bind (.unloadAll id) (fun _ => .lockGuard (.lockGuard (.bind (.modules other)
    (fun _ _ _ _ => rfl))))) (.pure ())

/-- The loop of `cleanup_on_signal`, by induction over the registered loaders. -/
theorem unloadActive (loaders : List LoaderId)
    : Matches (Locked.unloadActive loaders) (ModuleLoader.unloadActive loaders) := by
  induction loaders with
  | nil => exact .pure ()
  | cons id rest ih => exact .bind (.unloadAll id) (fun _ => ih)

end Matches

/-- The code of a call by itself, in the words of the sequential model. -/
def LockedCall.sequential : LockedCall → Code (Except Int Unit)
  | .load id path params => do
      let _ ← ModuleLoader.load id path params
      return .ok ()
  | .unload id name => do
      let _ ← ModuleLoader.unload id name
      return .ok ()
  | .unloadAll id => do
      ModuleLoader.unloadAll id
      return .ok ()
  | .moveAssign id other => do
      ModuleLoader.moveAssign id other
      return .ok ()
  | .cleanupOnSignal => ModuleLoader.cleanupOnSignal

/-- `cleanup_on_signal` leaves through `_Exit` if it finds a signal. -/
theorem unlocked_cleanupOnSignal
    : unlocked Locked.cleanupOnSignal = ModuleLoader.cleanupOnSignal := by
  funext heap
  refine congrArg (Prog.act SysOp.readSignal) (funext (fun received => ?_))
  by_cases signalled : received ≠ 0
  · simp only [Prog.monad_pure, Prog.ret_bind, if_pos signalled]
    refine congrArg (Prog.act SysOp.readSignal) (funext (fun sig => ?_))
    refine congrArg (Prog.act SysOp.clearSignal) (funext (fun _ => ?_))
    exact Matches.unloadActive heap.activeLoaders Unit _ heap
  · simp only [Prog.monad_pure, Prog.ret_bind, if_neg signalled]
    rfl

/-- What the mutexes are around is the sequential code. -/
theorem LockedCall.unlocked_body (call : LockedCall) : unlocked call.body = call.sequential := by
  funext heap
  cases call with
  | load id path params => exact Matches.load id path params Unit _ heap
  | unload id name => exact Matches.unload id name Unit _ heap
  | unloadAll id =>
      rw [body, ← Prog.bind_ret (Locked.unloadAll id)]
      exact Matches.unloadAll id Unit .ret heap
  | moveAssign id other =>
      rw [body, ← Prog.bind_ret (Locked.moveAssign id other)]
      exact Matches.moveAssign id other Unit .ret heap
  | cleanupOnSignal => exact congrFun unlocked_cleanupOnSignal heap

end SafetyIsolation.Harness

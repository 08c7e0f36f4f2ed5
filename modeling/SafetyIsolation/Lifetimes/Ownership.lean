import SafetyIsolation.Lifetimes.Calls

/-! What a module owns, and the protocol by which it is loaded, used and removed: what a task
knows inside `init` and `exit` functions, file operations and thread functions, and which
operations that permits.
-/

namespace SafetyIsolation.Lifetimes

open SafetyIsolation.Interleaving SafetyIsolation.Kernel

-----------------------------------------------------------------------------------------
-- Views
-----------------------------------------------------------------------------------------

/-- A task as the module that started it knows it. -/
inductive Spawned where
  | no
  | running
  | stopping
  deriving DecidableEq

def TaskState.spawned : TaskState → Spawned
  | .none => .no
  | .running => .running
  | .stopping => .stopping
  | .exited => .stopping

/-- What exists of the things a module can own. -/
@[ext]
structure View where
  linked : Bool := false
  notifier : Bool := false
  page : Bool := false
  bufPtr : Option Alias := none
  device : Bool := false
  domain : Bool := false
  handler : Bool := false
  attached : Bool := false
  active : Bool := false
  tasks : KThread → Spawned := fun _ => .no

/-- What exists of the things the module owns. -/
def Host.view (s : Host) (m : KernelModule) : View where
  linked := (s.entry m).linked
  notifier := m = .ctxMonitor && s.dieNotifier
  page := m = .safetyMem && s.kernel.pageAllocated
  bufPtr := if m = .safetyMem then s.kernel.safetyBufPtr else none
  device := m = .smmuGuard && s.dummyPdev
  domain := m = .smmuGuard && s.guardDomain
  handler := m = .smmuGuard && s.faultHandler
  attached := m = .smmuGuard && s.attached
  active := m = .smmuGuard && s.smmuActive
  tasks t := if t.module = m then (s.task t).spawned else .no

/-- Everything a module has when its `init` function has succeeded. -/
def Complete : KernelModule → View → Prop
  | .ctxMonitor, v => v = { linked := true, notifier := true }
  | .safetyMem, v => v = { linked := true, page := true, bufPtr := some .direct }
  | .smmuGuard, v =>
      v = { linked := true, active := true, device := v.device, domain := v.domain,
            handler := v.domain, attached := v.attached }
      ∧ (v.attached = true → v.device = true ∧ v.domain = true)
  | .badDriver, v => v = { linked := true }
  | .mutexThreads, v =>
      v = { tasks := fun t => if t.module = .mutexThreads then .running else .no }
  | .rogueThread, v =>
      v = { linked := true
            tasks := fun t => if t.module = .rogueThread then .running else .no }

/-- Nothing is left but the module's own variables. -/
def View.Released (v : View) : Prop := { v with bufPtr := none } = ({} : View)

-----------------------------------------------------------------------------------------
-- Operations and the variables they use
-----------------------------------------------------------------------------------------

def counterModule : Counter → KernelModule
  | .violation => .mutexThreads
  | .contention => .mutexThreads
  | .attack => .badDriver

/-- The module whose variables the kernel code uses. -/
def opVariables : Op → List KernelModule
  | .setProtectedRange _ _ => [.ctxMonitor]
  | .recordAttack _ => [.badDriver]
  | .readCounter counter => [counterModule counter]
  | .writeCounter counter _ => [counterModule counter]
  | .atomicInc _ => [.rogueThread]
  | .readCorruptVal => [.rogueThread]
  | .ktimeGetRealNs => []
  | _ => [.safetyMem]

/-- The modules whose variables an operation uses. -/
def HostOp.variables : HostOp → List KernelModule
  | .kernel operation => opVariables operation
  | .read _ => [.safetyMem]
  | .peek m => [m]
  | .peekSmmu => [.smmuGuard]
  | .atomicSet _ => [.rogueThread]
  | .allocSafetyPage => [.safetyMem]
  | .safetyPage => [.safetyMem]
  | .setSmmuActive _ => [.safetyMem]
  | .taskOf t => [t.module]
  | .dummyPdev => [.smmuGuard]
  | .guardDomain => [.smmuGuard]
  | _ => []

/-- The kernel code accesses the safety page or its mappings. -/
def usesPage : Op → Bool
  | .load _ => true
  | .store _ _ => true
  | .copyToKernelNofault _ _ => true
  | .setMemory _ _ => true
  | .walkPgtable _ => true
  | .vunmap => true
  | .freePages => true
  | _ => false

/-- The operation is performed by module code, which has to be there. The rest is the kernel's
own work around a call.
-/
def HostOp.inModule : HostOp → Bool
  | .loadModule _ => false
  | .moduleLive _ => false
  | .stopModule _ => false
  | .freeModule _ => false
  | .usePde _ => false
  | .unusePde _ => false
  | .schedule _ => false
  | .notifyDie _ _ => false
  | .iommuFault _ _ => false
  | _ => true

/-- The modules that are there while one of them is: its own and those it links to. -/
def KernelModule.reach : KernelModule → List KernelModule
  | .ctxMonitor => [.ctxMonitor]
  | .safetyMem => [.safetyMem, .ctxMonitor]
  | m => [m, .safetyMem, .ctxMonitor]

-----------------------------------------------------------------------------------------
-- Knowledge
-----------------------------------------------------------------------------------------

/-- Where a task is: outside of all modules, in the `init` or `exit` function of a module with
its view and whether nobody is left in its file operations, in a file operation, or in a thread
function that may have been asked to stop.
-/
inductive Stage where
  | outside
  | changing (m : KernelModule) (direction : Direction) (view : View) (drained : Bool)
  | handling (m : KernelModule)
  | turning (t : KThread) (asked : Bool)

/-- What a task knows: its stage, and whether it has taken `safety_mutex`. -/
structure Known where
  stage : Stage
  locked : Bool

def Known.rest : Known := ⟨.outside, false⟩

def Stage.module : Stage → Option KernelModule
  | .outside => none
  | .changing m _ _ _ => some m
  | .handling m => some m
  | .turning t _ => some t.module

/-- Kernel code outside of `init` and `exit` functions: it takes and releases the mutex in turn,
and leaves what `safety_mem_init` has set up.
-/
def ordinary (locked : Bool) : Op → Bool
  | .mutexLock => !locked
  | .mutexTrylock => !locked
  | .mutexUnlock => locked
  | .setSafetyBufPtr _ => false
  | .setInitialMapping _ => false
  | .procCreate => false
  | .removeProcEntry => false
  | .vunmap => false
  | .freePages => false
  | _ => true

def lockedAfter (locked : Bool) : (operation : Op) → operation.Res → Bool
  | .mutexLock, _ => true
  | .mutexTrylock, taken => taken
  | .mutexUnlock, _ => false
  | _, _ => locked

/-- Kernel code of `safety_mem_init` and `safety_mem_exit`: what others may use is given up only
when nobody is left.
-/
def setup (drained : Bool) : Op → Bool
  | .setSafetyBufPtr _ => true
  | .store _ _ => true
  | .setProtectedRange _ _ => true
  | .walkPgtable _ => true
  | .setInitialMapping _ => true
  | .readCtxProtected => true
  | .setMemory _ _ => drained
  | .vunmap => drained
  | .freePages => drained
  | _ => false

/-- What a task may do before it is in a module. -/
def Enters (tid : Nat) : HostOp → Prop
  | .loadModule _ => True
  | .stopModule _ => True
  | .usePde _ => True
  | .schedule t => tid = t.tid
  | .notifyDie _ _ => True
  | .iommuFault _ _ => True
  | _ => False

/-- The call in which a module comes or goes. -/
def Direction.call (m : KernelModule) : Direction → HostCall
  | .coming => .insmod m
  | .going => .rmmod m

@[simp] theorem Direction.call_module (direction : Direction) (m : KernelModule)
    : (direction.call m).module = some m := by
  cases direction <;> rfl

/-- What the `init` and `exit` functions of a module may do with its view. -/
def Changes (m : KernelModule) (direction : Direction) (v : View) (drained : Bool)
    : HostOp → Prop
  | .moduleLive m' =>
      m' = m ∧ direction = .coming ∧ Complete m v ∧ (v.linked = true ∨ drained = true)
  | .freeModule m' => m' = m ∧ drained = true ∧ v.Released
  | .kernel operation => m = .safetyMem ∧ v.page = true ∧ setup drained operation = true
  | .atomicSet _ => m = .rogueThread
  | .allocSafetyPage => m = .safetyMem ∧ direction = .coming ∧ v.page = false
  | .safetyPage => m = .safetyMem ∧ v.page = true
  | .setSmmuActive _ => m = .smmuGuard
  | .procCreate m' =>
      m' = m ∧ direction = .coming ∧ v.linked = false ∧ (m = .safetyMem → v.page = true)
  | .unlinkProc m' => m' = m ∧ v.linked = true
  | .drainProc m' => m' = m ∧ v.linked = false
  | .registerDieNotifier => m = .ctxMonitor ∧ v.notifier = false
  | .unregisterDieNotifier => m = .ctxMonitor ∧ v.notifier = true
  | .kthreadRun t => t.module = m ∧ v.tasks t = .no
  | .taskOf t => t.module = m
  | .requestStop t => t.module = m ∧ v.tasks t = .running
  | .awaitExit t => t.module = m ∧ v.tasks t = .stopping
  | .platformDeviceRegister => m = .smmuGuard ∧ v.device = false
  | .dummyPdev => m = .smmuGuard
  | .platformDeviceUnregister => m = .smmuGuard ∧ v.device = true ∧ v.attached = false
  | .iommuDomainAlloc => m = .smmuGuard ∧ v.domain = false ∧ v.attached = false
  | .guardDomain => m = .smmuGuard
  | .iommuSetFaultHandler => m = .smmuGuard ∧ v.domain = true
  | .iommuAttachDevice =>
      m = .smmuGuard ∧ v.device = true ∧ v.domain = true ∧ v.attached = false
  | .iommuDetachDevice => m = .smmuGuard ∧ v.device = true ∧ v.domain = true
  | .iommuDomainFree => m = .smmuGuard ∧ v.domain = true ∧ v.attached = false
  | _ => False

/-- What a file operation of a module may do. -/
def Handles (m : KernelModule) (locked : Bool) : HostOp → Prop
  | .kernel operation =>
      .safetyMem ∈ m.reach ∧ opVariables operation ⊆ m.reach ∧ ordinary locked operation = true
  | .read _ => m = .safetyMem
  | .peek m' => m' = m
  | .peekSmmu => m = .smmuGuard
  | .safetyPage => .safetyMem ∈ m.reach
  | .unusePde m' => m' = m ∧ locked = false
  | _ => False

/-- What a kernel thread may do in its function. -/
def Turns (t : KThread) (asked locked : Bool) : HostOp → Prop
  | .kernel operation => opVariables operation ⊆ t.module.reach ∧ ordinary locked operation = true
  | .kthreadShouldStop t' => t' = t
  | .msleepInterruptible t' => t' = t ∧ locked = false
  | .kthreadReturn t' => t' = t ∧ asked = true ∧ locked = false
  | _ => False

def Permits (tid : Nat) (call : HostCall) (known : Known) (operation : HostOp) : Prop :=
  (operation.inModule = true → known.stage.module = call.module)
  ∧ match known.stage with
    | .outside => Enters tid operation
    | .changing m direction v drained =>
        call = direction.call m ∧ Changes m direction v drained operation
    | .handling m => call.module = some m ∧ Handles m known.locked operation
    | .turning t asked => Turns t asked known.locked operation

/-- The results an operation of an `init` or `exit` function can have. -/
def Possible (v : View) : (operation : HostOp) → operation.Res → Prop
  | .safetyPage, page => page.isSome = true
  | .registerDieNotifier, ret => ret ≤ 0
  | .kthreadRun _, ret => ret ≤ 0
  | .taskOf t, found => found = decide (v.tasks t ≠ .no)
  | .dummyPdev, found => found = v.device
  | .guardDomain, found => found = v.domain
  | _, _ => True

/-- The view of a module after an operation of its `init` or `exit` function. -/
def View.after (v : View) : (operation : HostOp) → operation.Res → View
  | .kernel (.setSafetyBufPtr ptr), _ => { v with bufPtr := ptr }
  | .kernel .freePages, _ => { v with page := false }
  | .allocSafetyPage, page => { v with page := page.isSome }
  | .setSmmuActive active, _ => { v with active }
  | .procCreate _, created => { v with linked := created }
  | .unlinkProc _, _ => { v with linked := false }
  | .registerDieNotifier, ret => { v with notifier := ret = 0 }
  | .unregisterDieNotifier, _ => { v with notifier := false }
  | .kthreadRun t, ret =>
      if ret = 0 then { v with tasks := Function.update v.tasks t .running } else v
  | .requestStop t, _ => { v with tasks := Function.update v.tasks t .stopping }
  | .awaitExit t, _ => { v with tasks := Function.update v.tasks t .no }
  | .platformDeviceRegister, registered => { v with device := registered }
  | .platformDeviceUnregister, _ => { v with device := false }
  | .iommuDomainAlloc, allocated =>
      if allocated then { v with domain := true, handler := false } else v
  | .iommuSetFaultHandler, _ => { v with handler := true }
  | .iommuAttachDevice, ret => { v with attached := ret = 0 }
  | .iommuDetachDevice, _ => { v with attached := false }
  | .iommuDomainFree, _ => { v with domain := false, handler := false }
  | _, _ => v

/-- Whether nobody is left in the file operations of the module. -/
def drainedAfter (drained : Bool) : (operation : HostOp) → operation.Res → Bool
  | .procCreate _, created => drained && !created
  | .unlinkProc _, _ => false
  | .drainProc _, _ => true
  | _, _ => drained

/-- What a task learns outside of the modules. -/
def EntersTo (later : Known) : (operation : HostOp) → operation.Res → Prop
  | .loadModule m, ret =>
      later = if ret = 0 then ⟨.changing m .coming {} true, false⟩ else .rest
  | .stopModule m, ret =>
      if ret = 0 then ∃ v, Complete m v ∧ later = ⟨.changing m .going v (!v.linked), false⟩
      else later = .rest
  | .usePde m, entered => later = if entered then ⟨.handling m, false⟩ else .rest
  | .schedule t, _ => later = ⟨.turning t false, false⟩
  | _, _ => later = .rest

/-- What a task learns in an `init` or `exit` function. -/
def ChangesTo (m : KernelModule) (direction : Direction) (v : View) (drained : Bool)
    (later : Known)
    : (operation : HostOp) → operation.Res → Prop
  | .moduleLive _, _ => later = .rest
  | .freeModule _, _ => later = .rest
  | operation, result =>
      Possible v operation result
      ∧ later = ⟨.changing m direction (v.after operation result)
          (drainedAfter drained operation result), false⟩

/-- What a task learns in a file operation. -/
def HandlesTo (m : KernelModule) (locked : Bool) (later : Known)
    : (operation : HostOp) → operation.Res → Prop
  | .kernel operation, result => later = ⟨.handling m, lockedAfter locked operation result⟩
  | .safetyPage, page => page.isSome = true ∧ later = ⟨.handling m, locked⟩
  | .unusePde _, _ => later = .rest
  | _, _ => later = ⟨.handling m, locked⟩

/-- What a kernel thread learns in its function. -/
def TurnsTo (t : KThread) (asked locked : Bool) (later : Known)
    : (operation : HostOp) → operation.Res → Prop
  | .kernel operation, result => later = ⟨.turning t asked, lockedAfter locked operation result⟩
  | .kthreadShouldStop _, stop => later = ⟨.turning t stop, locked⟩
  | _, _ => later = .rest

/-- What a task learns from the result of an operation. -/
def Learns (known : Known) (operation : HostOp) (result : operation.Res) (later : Known) : Prop :=
  match known.stage with
  | .outside => EntersTo later operation result
  | .changing m direction v drained => ChangesTo m direction v drained later operation result
  | .handling m => HandlesTo m known.locked later operation result
  | .turning t asked => TurnsTo t asked known.locked later operation result

-----------------------------------------------------------------------------------------
-- The invariant
-----------------------------------------------------------------------------------------

/-- What holds of the system in every state. -/
structure Invariant (s : Host) : Prop where
  absent : ∀ m, s.phase m = .absent → s.view m = {} ∧ (s.entry m).users = []
  live : ∀ m, s.phase m = .live
    → Complete m (s.view m) ∧ ((s.entry m).linked = true ∨ (s.entry m).users = [])
  linked : ∀ m, ∀ used ∈ m.uses, s.phase m ≠ .absent → s.phase used = .live
  serving : (s.entry .safetyMem).linked = true ∨ (s.entry .safetyMem).users ≠ []
    → s.kernel.pageAllocated = true
  located : s.kernel.pageAllocated = true → s.safetyPage.isSome = true

/-- What the knowledge of a task says about the system. -/
structure Holds (tid : Nat) (known : Known) (s : Host) : Prop where
  phase : ∀ m direction, s.phase m = .changing direction tid
    ↔ ∃ v drained, known.stage = .changing m direction v drained
  view : ∀ m direction v drained, known.stage = .changing m direction v drained
    → s.view m = v ∧ (drained = true → v.linked = false ∧ (s.entry m).users = [])
      ∧ known.locked = false
  users : ∀ m, tid ∈ (s.entry m).users ↔ known.stage = .handling m
  task : ∀ t asked, known.stage = .turning t asked
    → tid = t.tid ∧ (s.task t = .running ∨ s.task t = .stopping)
      ∧ (asked = true → s.task t = .stopping)
  mutex : s.kernel.safetyMutex = some tid → known.locked = true
  outside : known.stage = .outside → known.locked = false

/-- How the modules are loaded, used and removed. -/
def protocol : Protocol Host Nat HostCall HostOp HostOp.Res Known where
  inv := Invariant
  rest := .rest
  holds := Holds
  permits := Permits
  learns := Learns

end SafetyIsolation.Lifetimes

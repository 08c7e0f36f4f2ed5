import SafetyIsolation.Kernel.LogText
import SafetyIsolation.Kernel.ProcRead
import SafetyIsolation.Kernel.ProcWrite

/-! What the kernel keeps for the modules: their load state, their procfs entries, kernel
threads, notifiers and IOMMU objects, and the operations that make and release them.
-/

namespace SafetyIsolation.Lifetimes

open SafetyIsolation.Interleaving SafetyIsolation.Kernel SafetyIsolation.Text

-----------------------------------------------------------------------------------------
-- Modules and what they own
-----------------------------------------------------------------------------------------

inductive KernelModule where
  | ctxMonitor
  | safetyMem
  | smmuGuard
  | badDriver
  | mutexThreads
  | rogueThread
  deriving DecidableEq

def KernelModule.all : List KernelModule :=
  [.ctxMonitor, .safetyMem, .smmuGuard, .badDriver, .mutexThreads, .rogueThread]

/-- The modules whose exported symbols a module links to. -/
def KernelModule.uses : KernelModule → List KernelModule
  | .ctxMonitor => []
  | .safetyMem => [.ctxMonitor]
  | .smmuGuard => [.safetyMem]
  | .badDriver => [.safetyMem]
  | .mutexThreads => [.safetyMem]
  | .rogueThread => [.safetyMem]

/-- The kernel threads, by the names they are started with. -/
inductive KThread where
  | safetyThread
  | coopThread
  | rogueThread
  deriving DecidableEq

def KThread.module : KThread → KernelModule
  | .safetyThread => .mutexThreads
  | .coopThread => .mutexThreads
  | .rogueThread => .rogueThread

/-- The task a kernel thread runs as. -/
def KThread.tid : KThread → Nat
  | .safetyThread => 0
  | .coopThread => 1
  | .rogueThread => 2

/-- `MODULE_STATE_COMING` and `MODULE_STATE_GOING`. -/
inductive Direction where
  | coming
  | going
  deriving DecidableEq

/-- The state of a module. While it changes, one task runs its `init` or `exit` function. -/
inductive Phase where
  | absent
  | changing (direction : Direction) (task : Nat)
  | live
  deriving DecidableEq

/-- A procfs entry: whether it can be found, and the tasks that `in_use` counts. -/
structure ProcEntry where
  linked : Bool := false
  users : List Nat := []
  deriving DecidableEq

/-- A kernel thread's task, from `kthread_run` until `kthread_stop` has returned. -/
inductive TaskState where
  | none
  | running
  | stopping
  | exited
  deriving DecidableEq

/-- The modules' variables and everything the kernel holds for them. -/
structure Host where
  phase : KernelModule → Phase
  entry : KernelModule → ProcEntry
  task : KThread → TaskState
  kernel : State
  safetyPage : Option SafetyPage
  smmu : SmmuGuard
  smmuActive : Bool
  dieNotifier : Bool
  dummyPdev : Bool
  guardDomain : Bool
  faultHandler : Bool
  attached : Bool

namespace Host

def setPhase (s : Host) (m : KernelModule) (phase : Phase) : Host :=
  { s with phase := Function.update s.phase m phase }

def setEntry (s : Host) (m : KernelModule) (entry : ProcEntry) : Host :=
  { s with entry := Function.update s.entry m entry }

def setTask (s : Host) (t : KThread) (task : TaskState) : Host :=
  { s with task := Function.update s.task t task }

/-- The variables of a module as it is loaded. -/
def freshVariables (s : Host) : KernelModule → Host
  | .ctxMonitor => { s with kernel := { s.kernel with monitor := CtxMonitor.zeroed } }
  | .safetyMem =>
      { s with
        safetyPage := none
        smmuActive := false
        kernel := { s.kernel with
          safetyMutex := none
          ctxProtected := false
          safetyBufPtr := none
          initialMapping := { virtAddr := 0 } } }
  | .smmuGuard => { s with smmu := SmmuGuard.zeroed }
  | .badDriver =>
      { s with kernel := { s.kernel with attack := ⟨0, 0, 0, .none, 0⟩ } }
  | .mutexThreads =>
      { s with kernel := { s.kernel with violationCounter := 0, contentionCounter := 0 } }
  | .rogueThread =>
      { s with kernel := { s.kernel with
          unsynchronizedWriteCounter := 0, metadataAttackCounter := 0 } }

end Host

-----------------------------------------------------------------------------------------
-- Operations
-----------------------------------------------------------------------------------------

def eIo : Int := 5
def eNOENT : Int := 2
def eAGAIN : Int := 11
def eBUSY : Int := 16
def eEXIST : Int := 17

inductive HostOp where
  | loadModule (m : KernelModule)
  | moduleLive (m : KernelModule)
  | stopModule (m : KernelModule)
  | freeModule (m : KernelModule)
  | kernel (operation : Op)
  | read (operation : ReadOp)
  | peek (m : KernelModule)
  | peekSmmu
  | atomicSet (counter : AtomicCounter)
  | allocSafetyPage
  | safetyPage
  | setSmmuActive (active : Bool)
  | procCreate (m : KernelModule)
  | unlinkProc (m : KernelModule)
  | drainProc (m : KernelModule)
  | usePde (m : KernelModule)
  | unusePde (m : KernelModule)
  | registerDieNotifier
  | unregisterDieNotifier
  | notifyDie (current : Task) (data : Option DieArgs)
  | kthreadRun (t : KThread)
  | taskOf (t : KThread)
  | requestStop (t : KThread)
  | awaitExit (t : KThread)
  | schedule (t : KThread)
  | kthreadShouldStop (t : KThread)
  | msleepInterruptible (t : KThread)
  | kthreadReturn (t : KThread)
  | platformDeviceRegister
  | dummyPdev
  | platformDeviceUnregister
  | iommuDomainAlloc
  | guardDomain
  | iommuSetFaultHandler
  | iommuAttachDevice
  | iommuDetachDevice
  | iommuDomainFree
  | iommuFault (devName : Option CString) (iova : UInt64)

/-- The type of an operation's result. -/
abbrev HostOp.Res : HostOp → Type
  | .loadModule _ => Int
  | .stopModule _ => Int
  | .kernel operation => operation.Res
  | .read operation => operation.Res
  | .peek _ => State
  | .peekSmmu => SmmuGuard
  | .allocSafetyPage => Option SafetyPage
  | .safetyPage => Option SafetyPage
  | .procCreate _ => Bool
  | .usePde _ => Bool
  | .registerDieNotifier => Int
  | .kthreadRun _ => Int
  | .taskOf _ => Bool
  | .kthreadShouldStop _ => Bool
  | .platformDeviceRegister => Bool
  | .dummyPdev => Bool
  | .iommuDomainAlloc => Bool
  | .guardDomain => Bool
  | .iommuAttachDevice => Int
  | _ => Unit

/-- What the environment decides about one operation: whether a kernel call fails, and with
what error, the page it allocates, and the clock.
-/
structure HostChoice where
  errno : Nat := 0
  kernel : Kernel.Choice := {}
  page : Option SafetyPage := none
  word : UInt32 := 0
  comm : Bytes := []

/-- `load_module`: a module is loaded once, after the modules it links to. -/
def Host.loadable (s : Host) (m : KernelModule) : Except Int Unit :=
  if s.phase m ≠ .absent then .error (-eEXIST)
  else if m.uses.all (fun used => s.phase used = .live) then .ok ()
  else .error (-eNOENT)

/-- `delete_module`: only a live module that no other one links to can go. -/
def Host.stoppable (s : Host) (m : KernelModule) : Except Int Unit :=
  if s.phase m = .absent then .error (-eNOENT)
  else if KernelModule.all.any (fun user => m ∈ user.uses && s.phase user ≠ .absent) then
    .error (-eAGAIN)
  else if s.phase m = .live then .ok ()
  else .error (-eBUSY)

/-- The meaning of each operation. Removing a procfs entry hides it at once and then waits for
the operations that are inside; `kthread_stop` waits until the thread function has returned.
-/
def exec (tid : Nat) (choice : HostChoice) : (op : HostOp) → Host → Outcome op.Res Host
  | .loadModule m, s =>
      match s.loadable m with
      | .error code => .done code s
      | .ok () =>
          if choice.errno = 0 then .done 0 (s.setPhase m (.changing .coming tid))
          else .done (-choice.errno) s
  | .moduleLive m, s => .done () (s.setPhase m .live)
  | .stopModule m, s =>
      match s.stoppable m with
      | .error code => .done code s
      | .ok () => .done 0 (s.setPhase m (.changing .going tid))
  | .freeModule m, s => .done () ((s.freshVariables m).setPhase m .absent)
  | .kernel operation, s =>
      match s.safetyPage with
      | none => .fault
      | some page =>
          match Kernel.exec page tid choice.kernel operation s.kernel with
          | .done result kernel => .done result { s with kernel }
          | .wait => .wait
          | .fault => .fault
  | .read operation, s =>
      match s.safetyPage with
      | none => .fault
      | some page => .done (observe page ⟨s.smmuActive, choice.comm⟩ s.kernel operation) s
  | .peek _, s => .done s.kernel s
  | .peekSmmu, s => .done s.smmu s
  | .atomicSet .unsynchronizedWrite, s =>
      .done () { s with kernel := { s.kernel with unsynchronizedWriteCounter := 0 } }
  | .atomicSet .metadataAttack, s =>
      .done () { s with kernel := { s.kernel with metadataAttackCounter := 0 } }
  | .allocSafetyPage, s =>
      match choice.page with
      | none => .done none s
      | some page =>
          .done (some page) { s with
            safetyPage := some page
            kernel := { s.kernel with
              word := choice.word
              direct := page.directPath
              vmalloc := page.vmallocPath
              pageAllocated := true } }
  | .safetyPage, s => .done s.safetyPage s
  | .setSmmuActive active, s => .done () { s with smmuActive := active }
  | .procCreate m, s =>
      if choice.errno = 0 then .done true (s.setEntry m { s.entry m with linked := true })
      else .done false s
  | .unlinkProc m, s => .done () (s.setEntry m { s.entry m with linked := false })
  | .drainProc m, s => if (s.entry m).users = [] then .done () s else .wait
  | .usePde m, s =>
      if (s.entry m).linked then
        .done true (s.setEntry m { s.entry m with users := tid :: (s.entry m).users })
      else .done false s
  | .unusePde m, s =>
      .done () (s.setEntry m { s.entry m with users := (s.entry m).users.filter (· ≠ tid) })
  | .registerDieNotifier, s =>
      if choice.errno = 0 then .done 0 { s with dieNotifier := true }
      else .done (-choice.errno) s
  | .unregisterDieNotifier, s => .done () { s with dieNotifier := false }
  | .notifyDie current data, s =>
      if s.dieNotifier then
        .done () { s with kernel := { s.kernel with
          monitor := (s.kernel.monitor.dieNotifierCb choice.kernel.now current data).2 } }
      else .done () s
  | .kthreadRun t, s =>
      if choice.errno = 0 then .done 0 (s.setTask t .running) else .done (-choice.errno) s
  | .taskOf t, s => .done (s.task t ≠ .none) s
  | .requestStop t, s => .done () (s.setTask t .stopping)
  | .awaitExit t, s => if s.task t = .exited then .done () (s.setTask t .none) else .wait
  | .schedule t, s =>
      if s.task t = .running ∨ s.task t = .stopping then .done () s else .wait
  | .kthreadShouldStop t, s => .done (s.task t = .stopping) s
  | .msleepInterruptible _, s => .done () s
  | .kthreadReturn t, s => .done () (s.setTask t .exited)
  | .platformDeviceRegister, s =>
      if choice.errno = 0 then .done true { s with dummyPdev := true } else .done false s
  | .dummyPdev, s => .done s.dummyPdev s
  | .platformDeviceUnregister, s => .done () { s with dummyPdev := false }
  | .iommuDomainAlloc, s =>
      if choice.errno = 0 then .done true { s with guardDomain := true, faultHandler := false }
      else .done false s
  | .guardDomain, s => .done s.guardDomain s
  | .iommuSetFaultHandler, s => .done () { s with faultHandler := true }
  | .iommuAttachDevice, s =>
      if choice.errno = 0 then .done 0 { s with attached := true } else .done (-choice.errno) s
  | .iommuDetachDevice, s => .done () { s with attached := false }
  | .iommuDomainFree, s => .done () { s with guardDomain := false, faultHandler := false }
  | .iommuFault devName iova, s =>
      if s.attached && s.faultHandler then
        .done () { s with
          smmu := (s.smmu.iommuFaultHandler choice.kernel.now devName iova).2 }
      else .done () s

/-- Code of the modules or of the kernel around them. -/
abbrev HostProg (α : Type) : Type := Prog HostOp HostOp.Res α

/-- Perform one operation. -/
def op (operation : HostOp) : HostProg operation.Res := Prog.perform operation

end SafetyIsolation.Lifetimes

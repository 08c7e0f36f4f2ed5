import SafetyIsolation.Interleaving.Knowledge
import SafetyIsolation.Lifetimes.Host

/-! The `init` and `exit` functions of the six modules, their file operations and thread
functions, and the system in which tasks load, use and remove the modules in any order.
-/

namespace SafetyIsolation.Lifetimes

open SafetyIsolation.Interleaving SafetyIsolation.Kernel SafetyIsolation.Text

/-- `remove_proc_entry` and `proc_remove`. -/
def removeProcEntry (m : KernelModule) : HostProg Unit := do
  op (.unlinkProc m)
  op (.drainProc m)

/-- `kthread_stop`. -/
def kthreadStop (t : KThread) : HostProg Unit := do
  op (.requestStop t)
  op (.awaitExit t)

-----------------------------------------------------------------------------------------
-- Load and unload
-----------------------------------------------------------------------------------------

/-- `ctx_monitor_init`. -/
def ctxMonitorInit : HostProg Int := do
  let ret ← op .registerDieNotifier
  if ret ≠ 0 then
    return ret
  if !(← op (.procCreate .ctxMonitor)) then
    op .unregisterDieNotifier
    return -eNOMEM
  return 0

/-- `ctx_monitor_exit`. -/
def ctxMonitorExit : HostProg Unit := do
  removeProcEntry .ctxMonitor
  op .unregisterDieNotifier

/-- The operations of `safety_mem.c` that are about its procfs entry are those of the kernel
around it.
-/
def implement : (operation : Op) → HostProg operation.Res
  | .procCreate => op (.procCreate .safetyMem)
  | .removeProcEntry => removeProcEntry .safetyMem
  | operation => op (.kernel operation)

/-- Code that uses the addresses `safety_mem_init` has found, which stay the same until the
module is freed.
-/
def onSafetyPage {α : Type} (otherwise : α) (body : SafetyPage → Kern α) : HostProg α := do
  match ← op .safetyPage with
  | some page => (body page).interpret implement
  | none => return otherwise

/-- `safety_mem_init`. -/
def safetyMemInit : HostProg Int := do
  match ← op .allocSafetyPage with
  | none => return -eNOMEM
  | some page => (Kernel.safetyMemInit page).interpret implement

/-- `safety_mem_exit`. -/
def safetyMemExit : HostProg Unit := onSafetyPage () Kernel.safetyMemExit

/-- `smmu_guard_init`; a device that cannot be attached is only reported. -/
def smmuGuardInit : HostProg Int := do
  let dummyPdev ← op .platformDeviceRegister
  let guardDomain ← op .iommuDomainAlloc
  if guardDomain then
    op .iommuSetFaultHandler
    if dummyPdev then
      let _ ← op .iommuAttachDevice
  if !(← op (.procCreate .smmuGuard)) then
    if guardDomain then
      if dummyPdev then
        op .iommuDetachDevice
      op .iommuDomainFree
    if dummyPdev then
      op .platformDeviceUnregister
    return -eNOMEM
  op (.setSmmuActive true)
  return 0

/-- `smmu_guard_exit`. -/
def smmuGuardExit : HostProg Unit := do
  op (.setSmmuActive false)
  removeProcEntry .smmuGuard
  if ← op .guardDomain then
    if ← op .dummyPdev then
      op .iommuDetachDevice
    op .iommuDomainFree
  if ← op .dummyPdev then
    op .platformDeviceUnregister

/-- `bad_driver_init`. -/
def badDriverInit : HostProg Int := do
  if !(← op (.procCreate .badDriver)) then
    return -eNOMEM
  return 0

/-- `bad_driver_exit`. -/
def badDriverExit : HostProg Unit := removeProcEntry .badDriver

/-- `mutex_threads_init`. -/
def mutexThreadsInit : HostProg Int := do
  let taskA ← op (.kthreadRun .safetyThread)
  if taskA ≠ 0 then
    return taskA
  let taskB ← op (.kthreadRun .coopThread)
  if taskB ≠ 0 then
    kthreadStop .safetyThread
    return taskB
  return 0

/-- `mutex_threads_exit`. -/
def mutexThreadsExit : HostProg Unit := do
  if ← op (.taskOf .safetyThread) then
    kthreadStop .safetyThread
  if ← op (.taskOf .coopThread) then
    kthreadStop .coopThread

/-- `rogue_thread_init`. -/
def rogueThreadInit : HostProg Int := do
  op (.atomicSet .unsynchronizedWrite)
  op (.atomicSet .metadataAttack)
  if !(← op (.procCreate .rogueThread)) then
    return -eNOMEM
  let taskC ← op (.kthreadRun .rogueThread)
  if taskC ≠ 0 then
    removeProcEntry .rogueThread
    return taskC
  return 0

/-- `rogue_thread_exit`. -/
def rogueThreadExit : HostProg Unit := do
  if ← op (.taskOf .rogueThread) then
    kthreadStop .rogueThread
  removeProcEntry .rogueThread

def KernelModule.init : KernelModule → HostProg Int
  | .ctxMonitor => ctxMonitorInit
  | .safetyMem => safetyMemInit
  | .smmuGuard => smmuGuardInit
  | .badDriver => badDriverInit
  | .mutexThreads => mutexThreadsInit
  | .rogueThread => rogueThreadInit

def KernelModule.exit : KernelModule → HostProg Unit
  | .ctxMonitor => ctxMonitorExit
  | .safetyMem => safetyMemExit
  | .smmuGuard => smmuGuardExit
  | .badDriver => badDriverExit
  | .mutexThreads => mutexThreadsExit
  | .rogueThread => rogueThreadExit

/-- `insmod`: a module whose `init` function fails is freed again. -/
def insmod (m : KernelModule) : HostProg Int := do
  let loaded ← op (.loadModule m)
  if loaded ≠ 0 then
    return loaded
  let ret ← m.init
  if ret < 0 then
    op (.freeModule m)
    return ret
  op (.moduleLive m)
  return 0

/-- `rmmod`. -/
def rmmod (m : KernelModule) : HostProg Int := do
  let stopped ← op (.stopModule m)
  if stopped ≠ 0 then
    return stopped
  m.exit
  op (.freeModule m)
  return 0

-----------------------------------------------------------------------------------------
-- Files and threads
-----------------------------------------------------------------------------------------

/-- What reading a module's file prints. Each line of `bad_driver_proc_show` and of
`rogue_status_show` reads its own variable. `raw` stands for `pmd_val` and `pte_val`, and
`attack_mode` is a parameter of the module.
-/
def procShow (raw : Entry → UInt64) (attackMode : UInt32) : KernelModule → HostProg Bytes
  | .ctxMonitor => do return ctxMonitorProcShow (← op (.peek .ctxMonitor)).monitor.log.snapshot
  | .safetyMem => do
      match ← op .safetyPage with
      | some page =>
          let report ← (collectStatus page raw).interpret (fun operation => op (.read operation))
          return safetyMemProcShow report
      | none => return []
  | .smmuGuard => do return smmuGuardProcShow (← op .peekSmmu).log.snapshot
  | .badDriver => do
      let ts ← op (.peek .badDriver)
      let mode ← op (.peek .badDriver)
      let target ← op (.peek .badDriver)
      let result ← op (.peek .badDriver)
      let count ← op (.peek .badDriver)
      return badDriverProcShow ts.attack.lastAttackTsNs mode.attack.lastAttackMode
        target.attack.lastTargetAddr result.attack.lastResult count.attack.attackCount
  | .mutexThreads => return []
  | .rogueThread => do
      let writes ← op (.peek .rogueThread)
      let attacks ← op (.peek .rogueThread)
      return rogueStatusShow attackMode writes.unsynchronizedWriteCounter
        attacks.metadataAttackCounter

/-- One operation on a module's procfs file: it fails when the entry is being removed. -/
def fileOperation (m : KernelModule) (handler : HostProg Int) : HostProg Int := do
  if ← op (.usePde m) then
    let ret ← handler
    op (.unusePde m)
    return ret
  else return -eIo

/-- The loop of a thread function. -/
def KThread.loop (attackMode : UInt32) : KThread → Kern Int
  | .safetyThread => safetyThreadAFn
  | .coopThread => coopThreadBFn
  | .rogueThread => rogueThreadCFn attackMode

/-- One turn of a thread function, from the wake-up to the next sleep or to its end. -/
def turn (t : KThread) (attackMode : UInt32) : HostProg Int := do
  op (.schedule t)
  if ← op (.kthreadShouldStop t) then
    op (.kthreadReturn t)
    return 0
  else
    let ret ← (t.loop attackMode).interpret implement
    op (.msleepInterruptible t)
    return ret

-----------------------------------------------------------------------------------------
-- The system
-----------------------------------------------------------------------------------------

inductive HostCall where
  | insmod (m : KernelModule)
  | rmmod (m : KernelModule)
  | readProc (m : KernelModule) (attackMode : UInt32)
  | writeSafetyMem (buf : UserMemory) (count : Nat)
  | writeBadDriver (buf : UserMemory) (count : Nat)
  | turn (t : KThread) (attackMode : UInt32)
  | die (current : Task) (data : Option DieArgs)
  | dmaFault (devName : Option CString) (iova : UInt64)

/-- The module whose code a call runs. -/
def HostCall.module : HostCall → Option KernelModule
  | .insmod m => some m
  | .rmmod m => some m
  | .readProc m _ => some m
  | .writeSafetyMem _ _ => some .safetyMem
  | .writeBadDriver _ _ => some .badDriver
  | .turn t _ => some t.module
  | .die _ _ => none
  | .dmaFault _ _ => none

def HostCall.body (raw : Entry → UInt64) : HostCall → HostProg Int
  | .insmod m => Lifetimes.insmod m
  | .rmmod m => Lifetimes.rmmod m
  | .readProc m attackMode =>
      fileOperation m (do return (← procShow raw attackMode m).length)
  | .writeSafetyMem buf count =>
      fileOperation .safetyMem
        (onSafetyPage (-eFAULT) (fun page => safetyMemProcWrite page buf count))
  | .writeBadDriver buf count =>
      fileOperation .badDriver
        (onSafetyPage (-eFAULT) (fun page => badDriverProcWrite page buf count))
  | .turn t attackMode => Lifetimes.turn t attackMode
  | .die current data => do
      op (.notifyDie current data)
      return 0
  | .dmaFault devName iova => do
      op (.iommuFault devName iova)
      return 0

abbrev HostConfig := Config Host Nat HostCall Int HostOp HostOp.Res

def system (raw : Entry → UInt64) : Machine Host Nat HostCall Int HostChoice HostOp HostOp.Res where
  exec := exec
  body := HostCall.body raw

/-- A kernel thread runs its own function and nothing else. -/
def anySchedule : Policy Host Nat HostCall HostChoice HostOp where
  calls tid call :=
    match call with
    | .turn t _ => tid = t.tid
    | _ => 2 < tid
  steps _ _ _ _ _ := true

/-- Nothing is loaded yet; the memory the safety page will be taken from is arbitrary. -/
def Host.boot (word : UInt32) (direct vmalloc : TablePath) : Host where
  phase _ := .absent
  entry _ := {}
  task _ := .none
  kernel := {
    word
    direct
    vmalloc
    safetyMutex := none
    ctxProtected := false
    safetyBufPtr := none
    initialMapping := { virtAddr := 0 }
    procStatus := false
    pageAllocated := false
    monitor := CtxMonitor.zeroed
    attack := ⟨0, 0, 0, .none, 0⟩
    violationCounter := 0
    contentionCounter := 0
    unsynchronizedWriteCounter := 0
    metadataAttackCounter := 0
  }
  safetyPage := none
  smmu := SmmuGuard.zeroed
  smmuActive := false
  dieNotifier := false
  dummyPdev := false
  guardDomain := false
  faultHandler := false
  attached := false

end SafetyIsolation.Lifetimes

import Mathlib.Data.List.DropRight
import Mathlib.Data.List.Forall2
import Mathlib.Data.List.Induction
import SafetyIsolation.Kernel.CtxMonitor
import SafetyIsolation.Kernel.SmmuGuard

/-! The logs of `ctx_monitor` and `smmu_guard` are bounded histories: whatever was called in
whatever order, a read of the proc file shows the last events, oldest first.
-/

namespace SafetyIsolation.Monitoring

open SafetyIsolation.BoundedLog SafetyIsolation.Kernel

/-- The log shows exactly the last events, in order and each as recorded, and its indices
are in bounds.
-/
structure ExactHistory {ε ι : Type} (recorded : ι → ε → Prop) (events : List ι)
    (log : Ring ε demoLogCapacity) (shown : List ε)
    : Prop where
  entries : List.Forall₂ recorded (events.rtake demoLogCapacity) shown
  length : shown.length = min events.length demoLogCapacity
  head : log.head < demoLogCapacity
  count : log.count ≤ demoLogCapacity

/-- A ring that represents the entries of the events shows exactly these. -/
theorem ExactHistory.of_represents {ε ι : Type} {recorded : ι → ε → Prop} {entry : ι → ε}
    {events : List ι} {log : Ring ε demoLogCapacity}
    (records : ∀ event, recorded event (entry event))
    (represents : log.Represents (events.map entry))
    : ExactHistory recorded events log log.snapshot := by
  have bounds := represents.bounds (by decide)
  have shown : log.snapshot = (events.rtake demoLogCapacity).map entry := by
    rw [represents.snapshot, List.rtake, List.map_drop, List.length_map]
  refine ⟨?_, ?_, bounds.1, bounds.2⟩
  · rw [shown, List.forall₂_map_right_iff, List.forall₂_same]
    exact fun event _ => records event
  · rw [shown, List.rtake, List.length_map, List.length_drop]
    omega

/-- The arguments of one `log_fault_event` call, the clock and the task it runs in. -/
structure FaultEvent where
  now : UInt64
  current : Task
  regs : Option PtRegs
  faultAddr : UInt64
  err : Int
  trapnr : Int

/-- Every field of the entry is the one of the event. -/
structure FaultEvent.Recorded (event : FaultEvent) (entry : FaultLogEntry) : Prop where
  timestampNs : entry.timestampNs = event.now
  pc : entry.pc = (event.regs.map PtRegs.pc).getD 0
  faultAddr : entry.faultAddr = event.faultAddr
  pid : entry.pid = event.current.pid
  comm : entry.comm = event.current.comm
  errCode : entry.errCode = event.err
  trapNr : entry.trapNr = event.trapnr

/-- The calls that take the log lock to write. -/
inductive MonitorCall where
  | logFaultEvent (event : FaultEvent)
  | setProtectedRange (start stop : UInt64)

def MonitorCall.event : MonitorCall → Option FaultEvent
  | .logFaultEvent event => some event
  | .setProtectedRange _ _ => none

def MonitorCall.run (monitor : CtxMonitor) : MonitorCall → CtxMonitor
  | .logFaultEvent event =>
      monitor.logFaultEvent event.now event.current event.regs event.faultAddr event.err
        event.trapnr
  | .setProtectedRange start stop => monitor.setProtectedRange start stop

/-- The entry `log_fault_event` makes of an event. -/
def FaultEvent.entry (event : FaultEvent) : FaultLogEntry :=
  CtxMonitor.faultEntry event.now event.current event.regs event.faultAddr event.err
    event.trapnr

theorem FaultEvent.recorded (event : FaultEvent) : event.Recorded event.entry := by
  refine ⟨rfl, ?_, rfl, rfl, getTaskComm_eq event.current, rfl, rfl⟩
  unfold FaultEvent.entry CtxMonitor.faultEntry
  cases event.regs <;> rfl

/-- The monitor's log represents the events logged so far, by induction from the last
call.
-/
theorem monitorLog_represents (calls : List MonitorCall)
    : (calls.foldl MonitorCall.run CtxMonitor.zeroed).log.Represents
        ((calls.filterMap MonitorCall.event).map FaultEvent.entry) := by
  induction calls using List.reverseRecOn with
  | nil => exact Ring.empty_represents default
  | append_singleton calls call ih =>
      rw [List.foldl_append, List.filterMap_append, List.map_append]
      cases call with
      | logFaultEvent event => exact ih.append (by decide) event.entry
      | setProtectedRange start stop => exact (List.append_nil _).symm ▸ ih

/-- The arguments of one `smmu_guard_log_blocked_dma` call, and the clock. -/
structure DmaEvent where
  now : UInt64
  phys : UInt64
  size : UInt64
  streamId : UInt32
  devName : Option CString

/-- Every field of the entry is the one of the event, with the device name cut to what fits
beside its terminator, or the default name.
-/
structure DmaEvent.Recorded (event : DmaEvent) (entry : SmmuFaultEntry) : Prop where
  timestampNs : entry.timestampNs = event.now
  physAddr : entry.physAddr = event.phys
  size : entry.size = event.size
  streamId : entry.streamId = event.streamId
  devName : ∀ name, event.devName = some name → entry.devName.1 = name.1.take 31
  defaultName : event.devName = none → entry.devName = CString.ofString "dummy_dma_dev"
  action : entry.action = CString.ofString "BLOCKED"

/-- The calls that log: from other modules, and from the IOMMU's fault callback. -/
inductive GuardCall where
  | logBlockedDma (event : DmaEvent)
  | iommuFault (now : UInt64) (devName : Option CString) (iova : UInt64)

def GuardCall.event : GuardCall → DmaEvent
  | .logBlockedDma event => event
  | .iommuFault now devName iova => ⟨now, iova, pageSize, smmuDemoStreamId, devName⟩

def GuardCall.run (guard : SmmuGuard) : GuardCall → SmmuGuard
  | .logBlockedDma event =>
      guard.logBlockedDma event.now event.phys event.size event.streamId event.devName
  | .iommuFault now devName iova => (guard.iommuFaultHandler now devName iova).2

/-- The entry `smmu_guard_log_blocked_dma` makes of an event. -/
def DmaEvent.entry (event : DmaEvent) : SmmuFaultEntry :=
  SmmuGuard.blockedEntry event.now event.phys event.size event.streamId event.devName

theorem DmaEvent.recorded (event : DmaEvent) : event.Recorded event.entry := by
  have blocked : strscpy demoActionNameSize (CString.ofString "BLOCKED")
      = CString.ofString "BLOCKED" := by decide
  refine ⟨rfl, rfl, rfl, rfl, ?_, ?_, blocked⟩
  · intro name named
    simp only [DmaEvent.entry, SmmuGuard.blockedEntry, named]
    rfl
  · intro unnamed
    simp only [DmaEvent.entry, SmmuGuard.blockedEntry, unnamed]
    decide

/-- The guard's log represents all calls so far, by induction from the last call. -/
theorem guardLog_represents (calls : List GuardCall)
    : (calls.foldl GuardCall.run SmmuGuard.zeroed).log.Represents
        ((calls.map GuardCall.event).map DmaEvent.entry) := by
  induction calls using List.reverseRecOn with
  | nil => exact Ring.empty_represents default
  | append_singleton calls call ih =>
      have appended := ih.append (by decide) call.event.entry
      rw [List.foldl_append, List.map_append, List.map_append]
      cases call <;> exact appended

/-- After any calls in any order, reading either proc file shows the last `min n 128` logged
events, oldest first and with all their fields, and head and count are in bounds.
-/
theorem logs_exact_histories (monitorCalls : List MonitorCall) (guardCalls : List GuardCall)
    : (∃ shown,
        (monitorCalls.foldl MonitorCall.run CtxMonitor.zeroed).procShow true = .ok shown
        ∧ ExactHistory FaultEvent.Recorded (monitorCalls.filterMap MonitorCall.event)
            (monitorCalls.foldl MonitorCall.run CtxMonitor.zeroed).log shown)
      ∧ ∃ shown,
          (guardCalls.foldl GuardCall.run SmmuGuard.zeroed).procShow true = .ok shown
          ∧ ExactHistory DmaEvent.Recorded (guardCalls.map GuardCall.event)
              (guardCalls.foldl GuardCall.run SmmuGuard.zeroed).log shown :=
  ⟨⟨_, rfl, .of_represents FaultEvent.recorded (monitorLog_represents monitorCalls)⟩,
    ⟨_, rfl, .of_represents DmaEvent.recorded (guardLog_represents guardCalls)⟩⟩

end SafetyIsolation.Monitoring

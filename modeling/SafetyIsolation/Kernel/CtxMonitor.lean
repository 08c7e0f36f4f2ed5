import SafetyIsolation.BoundedLog.Ring
import SafetyIsolation.Kernel.Constants

/-! `ctx_monitor.c`: the protected range, the die notifier and the fault log. -/

namespace SafetyIsolation.Kernel

open SafetyIsolation.BoundedLog

/-- `struct fault_log_entry`. -/
structure FaultLogEntry where
  timestampNs : UInt64
  pc : UInt64
  faultAddr : UInt64
  pid : Int
  comm : CString
  errCode : Int
  trapNr : Int
  deriving DecidableEq, Inhabited

/-- The module's statics. The log spinlock makes each function below one step. -/
structure CtxMonitor where
  log : Ring FaultLogEntry demoLogCapacity
  protectedRangeStart : UInt64
  protectedRangeEnd : UInt64

/-- `struct pt_regs`, as far as it is read. -/
structure PtRegs where
  pc : UInt64
  deriving DecidableEq

/-- `struct die_args`. -/
structure DieArgs where
  regs : Option PtRegs
  err : Int
  trapnr : Int
  deriving DecidableEq

/-- `NOTIFY_OK`. -/
def notifyOk : Int := 1

namespace CtxMonitor

/-- The statics as the module loader zeroes them. -/
def zeroed : CtxMonitor :=
  { log := Ring.empty default, protectedRangeStart := 0, protectedRangeEnd := 0 }

/-- `ctx_monitor_set_protected_range`. -/
def setProtectedRange (monitor : CtxMonitor) (start stop : UInt64) : CtxMonitor :=
  { monitor with protectedRangeStart := start, protectedRangeEnd := stop }

/-- The entry `log_fault_event` fills in. -/
def faultEntry (now : UInt64) (current : Task) (regs : Option PtRegs) (faultAddr : UInt64)
    (err trapnr : Int)
    : FaultLogEntry :=
  {
    timestampNs := now
    pc := match regs with
      | some regs => regs.pc
      | none => 0
    faultAddr
    pid := current.pid
    comm := getTaskComm current
    errCode := err
    trapNr := trapnr
  }

/-- `log_fault_event`. -/
def logFaultEvent (monitor : CtxMonitor) (now : UInt64) (current : Task)
    (regs : Option PtRegs) (faultAddr : UInt64) (err trapnr : Int)
    : CtxMonitor :=
  {
    monitor with
    log := monitor.log.append (faultEntry now current regs faultAddr err trapnr)
  }

/-- `instruction_pointer`. -/
def instructionPointer (regs : PtRegs) : UInt64 := regs.pc

/-- The test of `ctx_die_notifier_cb` that drops an event. -/
def filteredOut (monitor : CtxMonitor) (faultAddr : UInt64) : Bool :=
  monitor.protectedRangeStart ≠ 0 && monitor.protectedRangeEnd ≠ 0
    && (faultAddr < monitor.protectedRangeStart || faultAddr ≥ monitor.protectedRangeEnd)

/-- `ctx_die_notifier_cb`. -/
def dieNotifierCb (monitor : CtxMonitor) (now : UInt64) (current : Task)
    (data : Option DieArgs)
    : Int × CtxMonitor :=
  match data with
  | none => (notifyOk, monitor)
  | some args =>
      match args.regs with
      | none => (notifyOk, monitor)
      | some regs =>
          let faultAddr := instructionPointer regs
          if monitor.filteredOut faultAddr then (notifyOk, monitor)
          else
            (notifyOk, monitor.logFaultEvent now current regs faultAddr args.err args.trapnr)

/-- What the module's statics can be once it is loaded. -/
inductive Running : CtxMonitor → Prop where
  | load : Running zeroed
  | setProtectedRange {monitor : CtxMonitor} (start stop : UInt64)
      : Running monitor → Running (monitor.setProtectedRange start stop)
  | dieNotifierCb {monitor : CtxMonitor} (now : UInt64) (current : Task)
      (data : Option DieArgs)
      : Running monitor → Running (monitor.dieNotifierCb now current data).2

/-- The notifier appends at most one entry and leaves the rest alone. -/
theorem dieNotifierCb_cases (monitor : CtxMonitor) (now : UInt64) (current : Task)
    (data : Option DieArgs)
    : (monitor.dieNotifierCb now current data).2 = monitor
      ∨ ∃ entry,
          (monitor.dieNotifierCb now current data).2
            = { monitor with log := monitor.log.append entry } := by
  unfold dieNotifierCb
  split
  · exact Or.inl rfl
  · split
    · exact Or.inl rfl
    · dsimp only
      split
      · exact Or.inl rfl
      · exact Or.inr ⟨_, rfl⟩

/-- The log of a loaded monitor is a bounded history, by induction over its calls. -/
theorem Running.represents {monitor : CtxMonitor} (h : Running monitor)
    : ∃ history, monitor.log.Represents history := by
  induction h with
  | load => exact ⟨[], Ring.empty_represents default⟩
  | setProtectedRange start stop _ ih => exact ih
  | @dieNotifierCb monitor now current data _ ih =>
      obtain ⟨history, represents⟩ := ih
      rcases monitor.dieNotifierCb_cases now current data with same | ⟨entry, appended⟩
      · rw [same]
        exact ⟨history, represents⟩
      · rw [appended]
        exact ⟨history ++ [entry], represents.append (by decide) entry⟩

/-- `ctx_monitor_proc_show`: the entries it prints, oldest first, unless `kmalloc_array`
fails.
-/
def procShow (monitor : CtxMonitor) (kmallocOk : Bool) : Except Int (List FaultLogEntry) :=
  if kmallocOk then .ok monitor.log.snapshot else .error (-eNOMEM)

end CtxMonitor

end SafetyIsolation.Kernel

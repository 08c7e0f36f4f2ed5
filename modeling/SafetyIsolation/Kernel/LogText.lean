import SafetyIsolation.Kernel.CtxMonitor
import SafetyIsolation.Kernel.ProcShow
import SafetyIsolation.Kernel.SmmuGuard
import SafetyIsolation.Kernel.State

/-! The texts of `ctx_monitor_proc_show`, `smmu_guard_proc_show` and `bad_driver_proc_show`. -/

namespace SafetyIsolation.Kernel

open SafetyIsolation.Text

/-- `%lx` of a `long`. -/
def longHexText (value : Int) : Bytes := hexText (value % 2 ^ 64).toNat

/-- The line `ctx_monitor_proc_show` prints for an entry. `0x%016lx` prints as `%pa` does. -/
def FaultLogEntry.line (entry : FaultLogEntry) : Bytes :=
  utf8 "[" ++ unsignedText entry.timestampNs.toNat ++ utf8 ".000] FAULT pc="
    ++ lowerHex64 entry.pc ++ utf8 " addr=" ++ lowerHex64 entry.faultAddr ++ utf8 " pid="
    ++ signedText entry.pid ++ utf8 " comm=" ++ entry.comm.1 ++ utf8 " err=0x"
    ++ longHexText entry.errCode ++ utf8 " trap=" ++ signedText entry.trapNr ++ utf8 "\n"

/-- The text of `ctx_monitor_proc_show`, for the entries of its snapshot. -/
def ctxMonitorProcShow (entries : List FaultLogEntry) : Bytes :=
  entries.flatMap FaultLogEntry.line

/-- The line `smmu_guard_proc_show` prints for an entry. `%pa` brings its own `0x`. -/
def SmmuFaultEntry.line (entry : SmmuFaultEntry) : Bytes :=
  utf8 "[" ++ unsignedText entry.timestampNs.toNat ++ utf8 ".000] SMMU_FAULT dev="
    ++ entry.devName.1 ++ utf8 " stream_id=0x" ++ hexText entry.streamId.toNat
    ++ utf8 " phys=0x" ++ lowerHex64 entry.physAddr ++ utf8 " size="
    ++ unsignedText entry.size.toNat ++ utf8 " action=" ++ entry.action.1 ++ utf8 "\n"

/-- The text of `smmu_guard_proc_show`, for the entries of its snapshot. -/
def smmuGuardProcShow (entries : List SmmuFaultEntry) : Bytes :=
  entries.flatMap SmmuFaultEntry.line

/-- What `g_last_result` holds. -/
def AttackResult.text : AttackResult → Bytes
  | .none => utf8 "NONE"
  | .blockedEfault => utf8 "BLOCKED_EFAULT"
  | .successUnprotected => utf8 "SUCCESS_UNPROTECTED"
  | .mutexBypassRace => utf8 "MUTEX_BYPASS_RACE"
  | .successBypass => utf8 "SUCCESS_BYPASS"

/-- The text of `bad_driver_proc_show`, for the values its five lines read. -/
def badDriverProcShow (attackTsNs : UInt64) (attackMode : Nat) (targetAddr : UInt64)
    (result : AttackResult) (attackCount : UInt32)
    : Bytes :=
  utf8 "last_attack_timestamp_ns: " ++ unsignedText attackTsNs.toNat ++ utf8 "\n"
    ++ utf8 "last_attack_mode: " ++ unsignedText attackMode ++ utf8 "\n"
    ++ utf8 "target_addr: 0x" ++ hexText targetAddr.toNat ++ utf8 "\n"
    ++ utf8 "result: " ++ result.text ++ utf8 "\n"
    ++ utf8 "attack_count: " ++ unsignedText attackCount.toNat ++ utf8 "\n"

end SafetyIsolation.Kernel

import SafetyIsolation.BoundedLog.Ring
import SafetyIsolation.Kernel.Constants

/-! `smmu_guard.c`: the log of blocked DMA transactions. -/

namespace SafetyIsolation.Kernel

open SafetyIsolation.BoundedLog

/-- `struct smmu_fault_entry`. -/
structure SmmuFaultEntry where
  timestampNs : UInt64
  physAddr : UInt64
  size : UInt64
  streamId : UInt32
  devName : CString
  action : CString
  deriving DecidableEq, Inhabited

/-- The module's log statics. The log spinlock makes each function below one step. -/
structure SmmuGuard where
  log : Ring SmmuFaultEntry demoLogCapacity

namespace SmmuGuard

/-- The statics as the module loader zeroes them. -/
def zeroed : SmmuGuard := { log := Ring.empty default }

/-- The entry `smmu_guard_log_blocked_dma` fills in. -/
def blockedEntry (now phys size : UInt64) (streamId : UInt32) (devName : Option CString)
    : SmmuFaultEntry :=
  {
    timestampNs := now
    physAddr := phys
    size
    streamId
    devName := strscpy demoDeviceNameSize (devName.getD (CString.ofString "dummy_dma_dev"))
    action := strscpy demoActionNameSize (CString.ofString "BLOCKED")
  }

/-- `smmu_guard_log_blocked_dma`. -/
def logBlockedDma (guard : SmmuGuard) (now phys size : UInt64) (streamId : UInt32)
    (devName : Option CString)
    : SmmuGuard :=
  { guard with log := guard.log.append (blockedEntry now phys size streamId devName) }

/-- `smmu_iommu_fault_handler`, with `dev_name(dev)` for the device. -/
def iommuFaultHandler (guard : SmmuGuard) (now : UInt64) (devName : Option CString)
    (iova : UInt64)
    : Int × SmmuGuard :=
  (0, guard.logBlockedDma now iova pageSize smmuDemoStreamId devName)

/-- `smmu_guard_proc_show`: the entries it prints, oldest first, unless `kmalloc_array`
fails.
-/
def procShow (guard : SmmuGuard) (kmallocOk : Bool) : Except Int (List SmmuFaultEntry) :=
  if kmallocOk then .ok guard.log.snapshot else .error (-eNOMEM)

end SmmuGuard

end SafetyIsolation.Kernel

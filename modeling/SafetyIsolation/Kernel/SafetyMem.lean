import SafetyIsolation.Kernel.State

/-! `safety_mem.c`: protection changes, authorized writes, load and unload.
Log messages and the barriers between page-table writes have no effect on the modelled
state and are left out.
-/

namespace SafetyIsolation.Kernel

/-- `set_memory_ro` of the one page behind a mapping. -/
def setMemoryRo (target : Alias) : Kern Int := op (.setMemory target false)

/-- `set_memory_rw` of the one page behind a mapping. -/
def setMemoryRw (target : Alias) : Kern Int := op (.setMemory target true)

/-- `ctx_monitor_set_protected_range`. -/
def ctxMonitorSetProtectedRange (start stop : UInt64) : Kern Unit :=
  op (.setProtectedRange start stop)

/-- `safety_mem_is_protected`. -/
def safetyMemIsProtected : Kern Bool := op .readCtxProtected

/-- The value stored in `g_ctx_protected` after a protection attempt. -/
def verifiedReadOnly (retVmalloc : Int) (vmallocMapping : WalkInfo) : Bool :=
  retVmalloc == 0 && vmallocMapping.isValid && !vmallocMapping.isWritable

/-- The `enable_ro` branch of `safety_mem_set_protection`. -/
def enableRo (page : SafetyPage) : Kern (Int × Int) := do
  ctxMonitorSetProtectedRange page.virtAddr (page.virtAddr + pageSize)
  let retVirt ← setMemoryRo .direct
  let retVmalloc ← if page.hasVmalloc then setMemoryRo .vmalloc else pure 0
  let _virtMapping ← op (.walkPgtable (some .direct))
  let vmallocMapping ← op (.walkPgtable page.vmallocPtr)
  op (.setCtxProtected (verifiedReadOnly retVmalloc vmallocMapping))
  return (retVirt, retVmalloc)

/-- The other branch of `safety_mem_set_protection`. -/
def disableRo (page : SafetyPage) : Kern (Int × Int) := do
  ctxMonitorSetProtectedRange 0 0
  let retVirt ← setMemoryRw .direct
  let retVmalloc ← if page.hasVmalloc then setMemoryRw .vmalloc else pure 0
  op (.setCtxProtected false)
  return (retVirt, retVmalloc)

/-- `safety_mem_set_protection`. -/
def safetyMemSetProtection (page : SafetyPage) (enable : Bool) : Kern Int := do
  op .mutexLock
  let (retVirt, retVmalloc) ← if enable then enableRo page else disableRo page
  op .mutexUnlock
  -- The mappings are walked once more for the log message.
  let _virtMapping ← op (.walkPgtable (some .direct))
  let _vmallocMapping ← op (.walkPgtable page.vmallocPtr)
  return if retVmalloc ≠ 0 then retVmalloc else retVirt

/-- `safety_mem_safe_write`; the return codes of its permission changes are ignored. -/
def safetyMemSafeWrite (page : SafetyPage) (val : UInt32) : Kern Int := do
  op .mutexLock
  let wasRo ← safetyMemIsProtected
  if wasRo then
    let _ ← setMemoryRw .direct
    if page.hasVmalloc then
      let _ ← setMemoryRw .vmalloc
  if page.virtAddr ≠ 0 then
    op (.store .direct val)
  if wasRo then
    let _ ← setMemoryRo .direct
    if page.hasVmalloc then
      let _ ← setMemoryRo .vmalloc
  op .mutexUnlock
  return 0

/-- `safety_mem_init`, once the page is allocated and mapped. -/
def safetyMemInit (page : SafetyPage) : Kern Int := do
  op (.setSafetyBufPtr (some .direct))
  op (.store .direct safetySentinel)
  ctxMonitorSetProtectedRange page.virtAddr (page.virtAddr + pageSize)
  let info ← op (.walkPgtable (some .direct))
  op (.setInitialMapping info)
  if ← op .procCreate then
    return 0
  else
    if page.hasVmalloc then op .vunmap
    op .freePages
    return -eNOMEM

/-- `safety_mem_exit`. -/
def safetyMemExit (page : SafetyPage) : Kern Unit := do
  op .removeProcEntry
  op (.setSafetyBufPtr none)
  if ← safetyMemIsProtected then
    let _ ← setMemoryRw .direct
    if page.hasVmalloc then
      let _ ← setMemoryRw .vmalloc
  if page.hasVmalloc then op .vunmap
  op .freePages

end SafetyIsolation.Kernel

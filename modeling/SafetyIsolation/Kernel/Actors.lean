import SafetyIsolation.Kernel.SafetyMem

/-! The other users of the safety page: `bad_driver.c`, `mutex_threads.c` and
`rogue_thread.c`. A loop body of a kernel thread is one call.
-/

namespace SafetyIsolation.Kernel

open SafetyIsolation.Interleaving

/-- `counter++` on a variable that is not atomic. -/
def increment (counter : Counter) : Kern Unit := do
  let value ← op (.readCounter counter)
  op (.writeCounter counter (value + 1))

/-- `enum bad_driver_attack_mode`. -/
inductive AttackMode where
  | vmalloc
  | mutexBypass
  | linearAlias
  deriving DecidableEq

def AttackMode.code : AttackMode → Nat
  | .vmalloc => 1
  | .mutexBypass => 2
  | .linearAlias => 3

/-- The bookkeeping every attack mode starts with. -/
def recordAttempt (page : SafetyPage) (target : Option Alias) (mode : AttackMode)
    : Kern Unit := do
  op (.recordAttack (.targetAddr (page.addrOf target)))
  op (.recordAttack (.mode mode.code))
  let now ← op .ktimeGetRealNs
  op (.recordAttack (.timestampNs now))
  increment .attack

/-- `copy_to_kernel_nofault` of one word; an address outside the page is refused. -/
def copyToKernelNofault (target : Option Alias) (val : UInt32) : Kern Int :=
  match target with
  | some target => op (.copyToKernelNofault target val)
  | none => pure (-eFAULT)

/-- `execute_attack_mode_1`. -/
def executeAttackMode1 (page : SafetyPage) : Kern Int := do
  let vaddr := if page.hasVmalloc then Alias.vmalloc else Alias.direct
  recordAttempt page (some vaddr) .vmalloc
  let ret ← copyToKernelNofault (some vaddr) badDriverVmallocValue
  op (.recordAttack (.result (if ret ≠ 0 then .blockedEfault else .successUnprotected)))
  return ret

/-- `execute_attack_mode_2`. -/
def executeAttackMode2 (page : SafetyPage) : Kern Int := do
  recordAttempt page (some .direct) .mutexBypass
  let wasLocked ← op .mutexIsLocked
  let ret ← copyToKernelNofault (some .direct) badDriverMutexBypassValue
  op (.recordAttack (.result
    (if ret ≠ 0 then .blockedEfault
      else if wasLocked then .mutexBypassRace
      else .successUnprotected)))
  return ret

/-- `execute_attack_mode_3`. -/
def executeAttackMode3 (page : SafetyPage) : Kern Int := do
  let vaAlias := page.physToVirt page.physAddr
  recordAttempt page vaAlias .linearAlias
  let ret ← copyToKernelNofault vaAlias badDriverLinearAliasValue
  op (.recordAttack (.result (if ret ≠ 0 then .blockedEfault else .successBypass)))
  return ret

/-- The dispatch of `bad_driver_proc_write`. -/
def executeAttack (page : SafetyPage) : AttackMode → Kern Int
  | .vmalloc => executeAttackMode1 page
  | .mutexBypass => executeAttackMode2 page
  | .linearAlias => executeAttackMode3 page

/-- The mapping an attack mode writes through. -/
def AttackMode.target (page : SafetyPage) : AttackMode → Alias
  | .vmalloc => if page.hasVmalloc then .vmalloc else .direct
  | .mutexBypass => .direct
  | .linearAlias => .direct

/-- The value an attack mode writes. -/
def AttackMode.value : AttackMode → UInt32
  | .vmalloc => badDriverVmallocValue
  | .mutexBypass => badDriverMutexBypassValue
  | .linearAlias => badDriverLinearAliasValue

@[simp] theorem physToVirt_physAddr (page : SafetyPage)
    : page.physToVirt page.physAddr = some .direct := by
  simp [SafetyPage.physToVirt]

/-- `safety_buf_ptr ? READ_ONCE(*safety_buf_ptr) : 0`. -/
def readSafetyBuf : Kern UInt32 := do
  match ← op .readSafetyBufPtr with
  | some ptr => op (.load ptr)
  | none => return 0

/-- One turn of the loop of `safety_thread_a_fn`. -/
def safetyThreadAFn : Kern Int := do
  if !(← op .mutexTrylock) then
    increment .contention
    op .mutexLock
  let initialVal ← readSafetyBuf
  let currentVal ← readSafetyBuf
  if currentVal ≠ initialVal then
    increment .violation
  op .mutexUnlock
  return 0

/-- One turn of the loop of `coop_thread_b_fn`. -/
def coopThreadBFn : Kern Int := do
  op .mutexLock
  match ← op .readSafetyBufPtr with
  | some ptr => op (.store ptr safetySentinel)
  | none => pure ()
  op .mutexUnlock
  return 0

/-- One turn of the loop of `rogue_thread_c_fn`, for the value of `attack_mode` it reads. -/
def rogueThreadCFn (attackMode : UInt32) : Kern Int := do
  if attackMode = rogueAttackUnsynchronizedWrite then
    match ← op .readSafetyBufPtr with
    | some ptr =>
        let corruptVal ← op .readCorruptVal
        op (.store ptr corruptVal)
        op (.atomicInc .unsynchronizedWrite)
    | none => pure ()
  else if attackMode = rogueAttackMutexMetadata then
    if ← op .mutexIsLocked then
      op .clearMutexOwner
      op (.atomicInc .metadataAttack)
  return 0

/-- The entry points other code and the kernel threads run concurrently. -/
inductive Call where
  | setProtection (enable : Bool)
  | safeWrite (val : UInt32)
  | isProtected
  | attack (mode : AttackMode)
  | threadA
  | threadB
  | rogueC (attackMode : UInt32)
  deriving DecidableEq

def Call.body (page : SafetyPage) : Call → Kern Int
  | .setProtection enable => safetyMemSetProtection page enable
  | .safeWrite val => safetyMemSafeWrite page val
  | .isProtected => do return if ← safetyMemIsProtected then 1 else 0
  | .attack mode => executeAttack page mode
  | .threadA => safetyThreadAFn
  | .threadB => coopThreadBFn
  | .rogueC attackMode => rogueThreadCFn attackMode

abbrev KernelWorld := World State Nat Call Int Op Op.Res

abbrev KernelConfig := Config State Nat Call Int Op Op.Res

abbrev KernelLabel := Label Nat Call Int Op Op.Res

abbrev KernelPolicy := Policy State Nat Call Choice Op

/-- Any number of threads running these calls around one safety page. -/
def machine (page : SafetyPage) : Machine State Nat Call Int Choice Op Op.Res where
  exec := exec page
  body := Call.body page

end SafetyIsolation.Kernel

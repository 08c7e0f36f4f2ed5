import SafetyIsolation.Interleaving.Program
import SafetyIsolation.Kernel.CtxMonitor
import SafetyIsolation.Kernel.PageTable

/-! The shared kernel state of the demonstration modules and its atomic operations.
One operation is one permission change, one store or load, one lock operation or one
access to a module variable, as the C code performs them.
-/

namespace SafetyIsolation.Kernel

open SafetyIsolation.Interleaving

-----------------------------------------------------------------------------------------
-- The safety page and the modules' variables
-----------------------------------------------------------------------------------------

/-- The two virtual mappings of the safety page. -/
inductive Alias where
  | direct
  | vmalloc
  deriving DecidableEq

/-- What `alloc_pages`, `page_address`, `page_to_phys` and `vmap` gave `safety_mem_init`,
with what the kernel promises about it: both mappings are page aligned, start out writable
and lie below the top of the address space, and the null address is not mapped.
-/
structure SafetyPage where
  virtAddr : UInt64
  physAddr : UInt64
  vmallocAddr : Option UInt64
  directPath : TablePath
  vmallocPath : TablePath
  nullPath : TablePath
  virt_nonnull : virtAddr ≠ 0
  virt_below_top : virtAddr.toNat + 4096 < 2 ^ 64
  vmalloc_below_top : ∀ addr, vmallocAddr = some addr → addr.toNat + 4096 < 2 ^ 64
  direct_writable : directPath.writable = true
  vmalloc_page : vmallocPath.IsPage
  vmalloc_writable : vmallocPath.writable = true
  null_not_valid : (safetyMemWalkPgtable 0 nullPath).isValid = false

namespace SafetyPage

variable (page : SafetyPage)

/-- `g_vmalloc_addr` is not `NULL`. -/
def hasVmalloc : Bool := page.vmallocAddr.isSome

/-- `g_vmalloc_addr` as a pointer to one of the two mappings. -/
def vmallocPtr : Option Alias := if page.hasVmalloc then some .vmalloc else none

/-- The address of a pointer to a mapping. -/
def addrOf : Option Alias → UInt64
  | some .direct => page.virtAddr
  | some .vmalloc => page.vmallocAddr.getD 0
  | none => 0

/-- `phys_to_virt`: the direct-map alias of the page's physical address. -/
def physToVirt (phys : UInt64) : Option Alias :=
  if phys = page.physAddr then some .direct else none

end SafetyPage

/-- The texts `bad_driver` keeps in `g_last_result`. -/
inductive AttackResult where
  | none
  | blockedEfault
  | successUnprotected
  | mutexBypassRace
  | successBypass
  deriving DecidableEq

/-- The record of the most recent attack in `bad_driver`. -/
structure AttackRecord where
  lastAttackTsNs : UInt64
  lastAttackMode : Nat
  lastTargetAddr : UInt64
  lastResult : AttackResult
  attackCount : UInt32
  deriving DecidableEq

/-- The shared variables of the modules, and the page they are about. Both mappings show
the same `word`; `safetyMutex` is the owner field of `safety_mutex`.
-/
structure State where
  word : UInt32
  direct : TablePath
  vmalloc : TablePath
  safetyMutex : Option Nat
  ctxProtected : Bool
  safetyBufPtr : Option Alias
  initialMapping : WalkInfo
  procStatus : Bool
  pageAllocated : Bool
  monitor : CtxMonitor
  attack : AttackRecord
  violationCounter : UInt32
  contentionCounter : UInt32
  unsynchronizedWriteCounter : Int32
  metadataAttackCounter : Int32

namespace State

def path (k : State) : Alias → TablePath
  | .direct => k.direct
  | .vmalloc => k.vmalloc

/-- Whether a store through the mapping would go through. -/
def writable (k : State) (target : Alias) : Bool := (k.path target).writable

/-- The effect of a successful `set_memory_ro` or `set_memory_rw` of one page. -/
def setWrite (k : State) (target : Alias) (write : Bool) : State :=
  match target with
  | .direct => { k with direct := k.direct.setWrite write }
  | .vmalloc => { k with vmalloc := k.vmalloc.setWrite write }

/-- Zeroed module variables with a freshly allocated and mapped safety page. -/
def zeroed (page : SafetyPage) (monitor : CtxMonitor) : State :=
  {
    word := 0
    direct := page.directPath
    vmalloc := page.vmallocPath
    safetyMutex := none
    ctxProtected := false
    safetyBufPtr := none
    initialMapping := { virtAddr := 0 }
    procStatus := false
    pageAllocated := true
    monitor
    attack := {
      lastAttackTsNs := 0
      lastAttackMode := 0
      lastTargetAddr := 0
      lastResult := .none
      attackCount := 0
    }
    violationCounter := 0
    contentionCounter := 0
    unsynchronizedWriteCounter := 0
    metadataAttackCounter := 0
  }

end State

-----------------------------------------------------------------------------------------
-- Atomic operations
-----------------------------------------------------------------------------------------

/-- The counters that are incremented by a plain read and write. -/
inductive Counter where
  | violation
  | contention
  | attack
  deriving DecidableEq

/-- The counters that are incremented by `atomic_inc`. -/
inductive AtomicCounter where
  | unsynchronizedWrite
  | metadataAttack
  deriving DecidableEq

/-- One store to a field of the attack record. -/
inductive AttackField where
  | targetAddr (addr : UInt64)
  | mode (mode : Nat)
  | timestampNs (now : UInt64)
  | result (result : AttackResult)
  deriving DecidableEq

inductive Op where
  | mutexLock
  | mutexTrylock
  | mutexUnlock
  | mutexIsLocked
  | clearMutexOwner
  | setMemory (target : Alias) (write : Bool)
  | walkPgtable (ptr : Option Alias)
  | readCtxProtected
  | setCtxProtected (on : Bool)
  | setProtectedRange (start stop : UInt64)
  | readSafetyBufPtr
  | setSafetyBufPtr (ptr : Option Alias)
  | load (target : Alias)
  | store (target : Alias) (value : UInt32)
  | copyToKernelNofault (target : Alias) (value : UInt32)
  | setInitialMapping (info : WalkInfo)
  | procCreate
  | removeProcEntry
  | vunmap
  | freePages
  | ktimeGetRealNs
  | recordAttack (field : AttackField)
  | readCounter (counter : Counter)
  | writeCounter (counter : Counter) (value : UInt32)
  | atomicInc (counter : AtomicCounter)
  | readCorruptVal
  deriving DecidableEq

/-- The type of an operation's result. -/
abbrev Op.Res : Op → Type
  | .mutexTrylock => Bool
  | .mutexIsLocked => Bool
  | .setMemory _ _ => Int
  | .walkPgtable _ => WalkInfo
  | .readCtxProtected => Bool
  | .readSafetyBufPtr => Option Alias
  | .load _ => UInt32
  | .copyToKernelNofault _ _ => Int
  | .procCreate => Bool
  | .ktimeGetRealNs => UInt64
  | .readCounter _ => UInt32
  | .readCorruptVal => UInt32
  | _ => Unit

/-- What the environment decides about one operation: the return code of a kernel call,
the clock, and the current value of the `corrupt_val` parameter.
-/
structure Choice where
  err : Int := 0
  now : UInt64 := 0
  corruptVal : UInt32 := corruptSentinel
  deriving DecidableEq, Inhabited

namespace State

def counter (k : State) : Counter → UInt32
  | .violation => k.violationCounter
  | .contention => k.contentionCounter
  | .attack => k.attack.attackCount

def setCounter (k : State) (value : UInt32) : Counter → State
  | .violation => { k with violationCounter := value }
  | .contention => { k with contentionCounter := value }
  | .attack => { k with attack := { k.attack with attackCount := value } }

def atomicInc (k : State) : AtomicCounter → State
  | .unsynchronizedWrite =>
      { k with unsynchronizedWriteCounter := k.unsynchronizedWriteCounter + 1 }
  | .metadataAttack => { k with metadataAttackCounter := k.metadataAttackCounter + 1 }

def recordAttack (k : State) : AttackField → State
  | .targetAddr addr => { k with attack := { k.attack with lastTargetAddr := addr } }
  | .mode mode => { k with attack := { k.attack with lastAttackMode := mode } }
  | .timestampNs now => { k with attack := { k.attack with lastAttackTsNs := now } }
  | .result result => { k with attack := { k.attack with lastResult := result } }

end State

/-- The meaning of each operation. A plain store through a read-only mapping traps;
`copy_to_kernel_nofault` reports it instead. `mutex_unlock` clears the owner field, whoever
calls it.
-/
def exec (page : SafetyPage) (tid : Nat) (choice : Choice)
    : (op : Op) → State → Outcome op.Res State
  | .mutexLock, k =>
      if k.safetyMutex = none then .done () { k with safetyMutex := some tid } else .wait
  | .mutexTrylock, k =>
      if k.safetyMutex = none then .done true { k with safetyMutex := some tid }
      else .done false k
  | .mutexUnlock, k => .done () { k with safetyMutex := none }
  | .mutexIsLocked, k => .done k.safetyMutex.isSome k
  | .clearMutexOwner, k => .done () { k with safetyMutex := none }
  | .setMemory target write, k =>
      if choice.err = 0 then .done 0 (k.setWrite target write) else .done choice.err k
  | .walkPgtable (some target), k =>
      .done (safetyMemWalkPgtable (page.addrOf (some target)) (k.path target)) k
  | .walkPgtable none, k => .done (safetyMemWalkPgtable 0 page.nullPath) k
  | .readCtxProtected, k => .done k.ctxProtected k
  | .setCtxProtected on, k => .done () { k with ctxProtected := on }
  | .setProtectedRange start stop, k =>
      .done () { k with monitor := k.monitor.setProtectedRange start stop }
  | .readSafetyBufPtr, k => .done k.safetyBufPtr k
  | .setSafetyBufPtr ptr, k => .done () { k with safetyBufPtr := ptr }
  | .load _, k => .done k.word k
  | .store target value, k =>
      if k.writable target then .done () { k with word := value } else .fault
  | .copyToKernelNofault target value, k =>
      if k.writable target then .done 0 { k with word := value } else .done (-eFAULT) k
  | .setInitialMapping info, k => .done () { k with initialMapping := info }
  | .procCreate, k =>
      if choice.err = 0 then .done true { k with procStatus := true } else .done false k
  | .removeProcEntry, k => .done () { k with procStatus := false }
  | .vunmap, k => .done () { k with vmalloc := { k.vmalloc with pte := .none } }
  | .freePages, k => .done () { k with pageAllocated := false }
  | .ktimeGetRealNs, k => .done choice.now k
  | .recordAttack field, k => .done () (k.recordAttack field)
  | .readCounter counter, k => .done (k.counter counter) k
  | .writeCounter counter value, k => .done () (k.setCounter value counter)
  | .atomicInc counter, k => .done () (k.atomicInc counter)
  | .readCorruptVal, k => .done choice.corruptVal k

/-- Kernel code. -/
abbrev Kern (α : Type) : Type := Prog Op Op.Res α

/-- Perform one operation. -/
def op (operation : Op) : Kern operation.Res := Prog.perform operation

end SafetyIsolation.Kernel

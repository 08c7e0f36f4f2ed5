import SafetyIsolation.Kernel.Actors
import SafetyIsolation.Kernel.ProcShow

/-! How `safety_mem_proc_show` collects its values while other code runs.
The reader changes nothing and takes no lock, so each of its reads is one step at any moment
of the system around it.
-/

namespace SafetyIsolation.Kernel

open SafetyIsolation.Interleaving SafetyIsolation.Text

inductive ReadOp where
  | ctxProtected
  | smmuActive
  | copyFromKernelNofault (target : Alias)
  | mutexIsLocked
  | mutexOwner
  | getTaskComm (owner : Nat)
  | walkPgtable (ptr : Option Alias)
  | initialMapping
  deriving DecidableEq

/-- The type of what is read. -/
abbrev ReadOp.Res : ReadOp → Type
  | .ctxProtected => Bool
  | .smmuActive => Bool
  | .copyFromKernelNofault _ => UInt32
  | .mutexIsLocked => Bool
  | .mutexOwner => Option Nat
  | .getTaskComm _ => Bytes
  | .walkPgtable _ => WalkInfo
  | .initialMapping => WalkInfo

/-- What a read finds outside the modelled state: `g_smmu_active` and the name of a task. -/
structure Surroundings where
  smmuActive : Bool := false
  comm : Bytes := []

/-- The result of a read. An address that does not translate leaves the reader's zero. -/
def observe (page : SafetyPage) (around : Surroundings) (k : State)
    : (operation : ReadOp) → operation.Res
  | .ctxProtected => k.ctxProtected
  | .smmuActive => around.smmuActive
  | .copyFromKernelNofault target => if (k.path target).mapped then k.word else 0
  | .mutexIsLocked => k.safetyMutex.isSome
  | .mutexOwner => k.safetyMutex
  | .getTaskComm _ => around.comm
  | .walkPgtable (some target) =>
      safetyMemWalkPgtable (page.addrOf (some target)) (k.path target)
  | .walkPgtable none => safetyMemWalkPgtable 0 page.nullPath
  | .initialMapping => k.initialMapping

/-- Code that only reads. -/
abbrev Reader (α : Type) : Type := Prog ReadOp ReadOp.Res α

def sample (operation : ReadOp) : Reader operation.Res := Prog.perform operation

/-- What is printed about a mapping: `safety_mem_mapping_level`, `safety_mem_mapping_entry`
and the write permission. `raw` stands for `pmd_val` and `pte_val`.
-/
def MappingReport.of (raw : Entry → UInt64) (info : WalkInfo) : MappingReport where
  isBlockMapping := info.isBlockMapping
  entry := if info.isBlockMapping then raw info.pmdVal else raw info.pteVal
  isWritable := info.isWritable

/-- The name in `owner_buf`. The mutex may be released between the two reads. -/
def readOwner : Reader Bytes := do
  if ← sample .mutexIsLocked then
    match ← sample .mutexOwner with
    | some owner => sample (.getTaskComm owner)
    | none => return utf8 "unknown"
  else return utf8 "none"

/-- The reads of `safety_mem_proc_show` in their order, and the values it prints. -/
def collectStatus (page : SafetyPage) (raw : Entry → UInt64) : Reader StatusReport := do
  let protectedState ← sample .ctxProtected
  let smmuState ← sample .smmuActive
  let valVmalloc ← if page.hasVmalloc then sample (.copyFromKernelNofault .vmalloc) else pure 0
  let valPhys ← if page.virtAddr ≠ 0 then sample (.copyFromKernelNofault .direct) else pure 0
  let ownerBuf ← readOwner
  let currentMapping ← sample (.walkPgtable (some .direct))
  let vmallocMapping ← sample (.walkPgtable page.vmallocPtr)
  let initialMapping ← sample .initialMapping
  return {
    virtAddr := page.virtAddr
    physAddr := page.physAddr
    initialMapping := .of raw initialMapping
    currentMapping := .of raw currentMapping
    currentIsValid := currentMapping.isValid
    vmallocMapping := .of raw vmallocMapping
    valVmalloc
    valPhys
    protectedState
    smmuState
    ownerBuf
  }

/-- The system with one reader in it, and the reads it has made. -/
structure Reading where
  kernel : KernelConfig
  reader : Reader StatusReport
  performed : List ReadOp

inductive ReadingEvent where
  | kernel (event : Event Nat Call Choice)
  | read (around : Surroundings)

namespace Reading

def start (page : SafetyPage) (raw : Entry → UInt64) (k : State) : Reading :=
  ⟨Config.start k, collectStatus page raw, []⟩

variable (page : SafetyPage) (p : KernelPolicy)

def step (x : Reading) : ReadingEvent → Option Reading
  | .kernel event =>
      ((machine page).step p x.kernel event).map (fun kernel => { x with kernel })
  | .read around =>
      match x.reader with
      | .ret _ => none
      | .act operation next =>
          some ⟨x.kernel, next (observe page around x.kernel.world.state operation),
            x.performed ++ [operation]⟩

def run (x : Reading) : List ReadingEvent → Option Reading
  | [] => some x
  | event :: rest => (x.step page p event).bind (fun y => run y rest)

/-- What the reader prints, once it has finished. -/
def printed (x : Reading) : Option StatusReport :=
  match x.reader with
  | .ret report => some report
  | .act _ _ => none

variable {page p} {x y : Reading} {event : ReadingEvent}

theorem step_cases (h : x.step page p event = some y)
    : (∃ kernelEvent kernel, (machine page).step p x.kernel kernelEvent = some kernel
        ∧ event = .kernel kernelEvent ∧ y = { x with kernel })
      ∨ ∃ around operation next, x.reader = .act operation next ∧ event = .read around
        ∧ y = ⟨x.kernel, next (observe page around x.kernel.world.state operation),
          x.performed ++ [operation]⟩ := by
  cases event with
  | kernel kernelEvent =>
      obtain ⟨kernel, stepped, rfl⟩ := Option.map_eq_some_iff.mp h
      exact Or.inl ⟨kernelEvent, kernel, stepped, rfl, rfl⟩
  | read around =>
      rw [step] at h
      split at h
      · exact absurd h.symm (Option.some_ne_none y)
      · rename_i operation next isReader
        exact Or.inr ⟨around, operation, next, isReader, rfl, (Option.some.inj h).symm⟩

theorem reader_of_printed {report : StatusReport} (h : x.printed = some report)
    : x.reader = .ret report := by
  rw [printed] at h
  split at h
  · rename_i found reader
    rw [reader, Option.some.inj h]
  · exact absurd h.symm (Option.some_ne_none report)

end Reading

end SafetyIsolation.Kernel

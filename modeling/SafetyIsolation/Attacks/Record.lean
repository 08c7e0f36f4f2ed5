import SafetyIsolation.Interleaving.Steps
import SafetyIsolation.Kernel.Loading
import SafetyIsolation.Kernel.ProcWrite

/-! The attack record of `bad_driver` under concurrent writers of its control file. The record
is stored field by field and its counter is a plain variable, so it is one attack's record only
as long as attacks do not run into each other.
-/

namespace SafetyIsolation.Attacks

open SafetyIsolation.Interleaving SafetyIsolation.Kernel

/-- One call of `write` on the control file. -/
structure Write where
  buf : UserMemory
  count : Nat

/-- Any number of threads that write to the control file. -/
def writers (page : SafetyPage) : Machine State Nat Write Int Choice Op Op.Res where
  exec := exec page
  body write := badDriverProcWrite page write.buf write.count

/-- Nothing is excluded. -/
def anyWrites : Policy State Nat Write Choice Op where
  calls _ _ := true
  steps _ _ _ _ _ := true

abbrev WriteLabel : Type := Label Nat Write Int Op Op.Res

abbrev WriteConfig : Type := Config State Nat Write Int Op Op.Res

/-- The fields that describe the last attack. -/
inductive RecordField where
  | target
  | mode
  | timestamp
  | result
  deriving DecidableEq

def fieldOf : AttackField → RecordField
  | .targetAddr _ => .target
  | .mode _ => .mode
  | .timestampNs _ => .timestamp
  | .result _ => .result

/-- The last store to a field: the call that made it, as the thread and the number of its call,
and what it stored.
-/
structure Stored where
  call : Nat × Nat
  field : AttackField

/-- How often each thread has called, and the last store to each field. -/
structure Ledger where
  calls : Nat → Nat
  last : RecordField → Option Stored

def Ledger.note (ledger : Ledger) : WriteLabel → Ledger
  | .call tid _ =>
      { ledger with calls := Function.update ledger.calls tid (ledger.calls tid + 1) }
  | .act tid _ (.recordAttack field) _ =>
      let stored : Stored := ⟨(tid, ledger.calls tid), field⟩
      { ledger with last := Function.update ledger.last (fieldOf field) (some stored) }
  | _ => ledger

def ledger (history : List WriteLabel) : Ledger :=
  history.foldl Ledger.note ⟨fun _ => 0, fun _ => none⟩

/-- The record holds what was stored. -/
def Holds (record : AttackRecord) : AttackField → Prop
  | .targetAddr addr => record.lastTargetAddr = addr
  | .mode mode => record.lastAttackMode = mode
  | .timestampNs now => record.lastAttackTsNs = now
  | .result result => record.lastResult = result

/-- All fields hold what one and the same call has stored, or nothing was ever stored. -/
def OneAttack (record : AttackRecord) (ledger : Ledger) : Prop :=
  (∀ field, ledger.last field = none)
  ∨ ∃ call, ∀ field, ∃ stored, ledger.last field = some ⟨call, stored⟩
      ∧ fieldOf stored = field ∧ Holds record stored

/-- The thread of each call that returned `count`. -/
def acceptedCalls (history : List WriteLabel) : List Nat :=
  history.filterMap (fun label =>
    match label with
    | .ret tid write value => if value = write.count then some tid else none
    | _ => none)

/-- The record is coherent with what has happened since the given state. -/
def Coherent (k₀ : State) (c : WriteConfig) : Prop :=
  c.world.state.attack.attackCount.toNat
    = (k₀.attack.attackCount.toNat + (acceptedCalls c.world.history).length) % 2 ^ 32
  ∧ OneAttack c.world.state.attack (ledger c.world.history)

/-- A thread has stored the first field of its attack and has operations of it left. -/
def midway : Thread Write Int Op Op.Res → Bool
  | .running _ (.act (.recordAttack (.targetAddr _)) _) => false
  | .running _ (.act _ _) => true
  | _ => false

/-- No thread works on the record while another one is midway through its attack. -/
def Unmixed (c : WriteConfig) : Event Nat Write Choice → Prop
  | .step tid _ => ∀ other ≠ tid, midway (c.threads other) = false
  | _ => True

-----------------------------------------------------------------------------------------
-- The code of an attack
-----------------------------------------------------------------------------------------

/-- What an attack has done so far: the fields it has stored, the count it has read, and whether
it has written the count back.
-/
structure Progress where
  stored : RecordField → Bool
  read : Option UInt32
  counted : Bool

def Progress.start : Progress := ⟨fun _ => false, none, false⟩

def Progress.after (progress : Progress) : (op : Op) → op.Res → Progress
  | .recordAttack field, _ =>
      { progress with stored := Function.update progress.stored (fieldOf field) true }
  | .readCounter .attack, value => { progress with read := some value }
  | .writeCounter .attack _, _ => { progress with counted := true }
  | _, _ => progress

/-- An operation an attack may perform: the target is stored first and only then, and the count
written is one more than the count read.
-/
def Progress.Admits (progress : Progress) : Op → Prop
  | .recordAttack (.targetAddr _) => progress.stored .target = false ∧ progress = .start
  | .writeCounter .attack value =>
      progress.stored .target = true ∧ progress.counted = false
      ∧ ∃ read, progress.read = some read ∧ value = read + 1
  | .recordAttack _ => progress.stored .target = true
  | .ktimeGetRealNs => progress.stored .target = true
  | .readCounter .attack => progress.stored .target = true ∧ progress.counted = false
  | .mutexIsLocked => progress.stored .target = true
  | .copyToKernelNofault _ _ => progress.stored .target = true
  | _ => False

/-- The rest of an attack: it returns `count` after it has stored every field and counted
itself once.
-/
def Orderly (count : Nat) : Progress → Kern Int → Prop
  | progress, .ret value =>
      value = count ∧ progress.counted = true ∧ ∀ field, progress.stored field = true
  | progress, .act op next =>
      progress.Admits op ∧ ∀ result, Orderly count (progress.after op result) (next result)

/-- The bookkeeping of an attack stores everything but the result and counts. -/
structure Progress.Attempted (progress : Progress) : Prop where
  stored : ∀ field, field ≠ .result → progress.stored field = true
  counted : progress.counted = true

theorem orderly_recordAttempt (page : SafetyPage) (target : Option Alias) (mode : AttackMode)
    {count : Nat} {next : Unit → Kern Int}
    (rest : ∀ progress : Progress, progress.Attempted → Orderly count progress (next ()))
    : Orderly count .start ((recordAttempt page target mode).bind next) := by
  refine ⟨⟨rfl, rfl⟩, fun _ => ⟨rfl, fun _ => ⟨rfl, fun _ => ⟨rfl, fun _ => ⟨⟨rfl, rfl⟩,
    fun read => ⟨⟨rfl, rfl, read, rfl, rfl⟩, fun _ => rest _ ⟨fun field distinct => ?_, rfl⟩⟩⟩⟩⟩⟩⟩
  cases field with
  | target | mode | timestamp => rfl
  | result => exact absurd rfl distinct

/-- Storing the result completes the record. -/
theorem Progress.Attempted.finish {progress : Progress} (h : progress.Attempted)
    (result : AttackResult) (count : Nat)
    : Orderly count progress (.act (.recordAttack (.result result)) (fun _ => .ret count)) := by
  refine ⟨h.stored .target (by decide), fun _ => ⟨rfl, h.counted, fun field => ?_⟩⟩
  cases field with
  | target => exact h.stored .target (by decide)
  | mode => exact h.stored .mode (by decide)
  | timestamp => exact h.stored .timestamp (by decide)
  | result => rfl

/-- Every attack mode is orderly. -/
theorem orderly_attack (page : SafetyPage) (mode : AttackMode) (count : Nat)
    : Orderly count .start ((executeAttack page mode).bind (fun _ => .ret (count : Int))) := by
  cases mode with
  | vmalloc =>
      simp only [executeAttack, executeAttackMode1, Prog.monad_bind, Prog.bind_assoc]
      refine orderly_recordAttempt page _ .vmalloc (fun progress attempted => ?_)
      exact ⟨attempted.stored .target (by decide), fun _ => attempted.finish _ count⟩
  | mutexBypass =>
      simp only [executeAttack, executeAttackMode2, Prog.monad_bind, Prog.bind_assoc]
      refine orderly_recordAttempt page _ .mutexBypass (fun progress attempted => ?_)
      exact ⟨attempted.stored .target (by decide), fun _ => ⟨attempted.stored .target (by decide),
        fun _ => attempted.finish _ count⟩⟩
  | linearAlias =>
      simp only [executeAttack, executeAttackMode3, physToVirt_physAddr, Prog.monad_bind,
        Prog.bind_assoc]
      refine orderly_recordAttempt page _ .linearAlias (fun progress attempted => ?_)
      exact ⟨attempted.stored .target (by decide), fun _ => attempted.finish _ count⟩

/-- A write is refused at once or makes one attack. -/
theorem badDriverProcWrite_cases (page : SafetyPage) (write : Write)
    : (∃ code : Int, code < 0 ∧ badDriverProcWrite page write.buf write.count = .ret code)
      ∨ ∃ mode, badDriverProcWrite page write.buf write.count
          = (executeAttack page mode).bind (fun _ => .ret (write.count : Int)) := by
  unfold badDriverProcWrite
  split
  · exact .inl ⟨-eINVAL, by decide, rfl⟩
  split
  · exact .inl ⟨-eFAULT, by decide, rfl⟩
  split
  · exact .inl ⟨-eINVAL, by decide, rfl⟩
  split
  · exact .inl ⟨-eINVAL, by decide, rfl⟩
  · exact .inr ⟨_, rfl⟩

/-- What an operation of an attack can be: it stores a field, reads the count, writes it back, or
has nothing to do with the record.
-/
theorem Progress.Admits.cases {page : SafetyPage} {tid : Nat} {choice : Choice}
    {progress : Progress} {operation : Op} {result : operation.Res} {k k' : State}
    (admitted : progress.Admits operation)
    (done : exec page tid choice operation k = .done result k')
    : (∃ field, operation = .recordAttack field ∧ k'.attack = (k.recordAttack field).attack)
      ∨ (operation = .readCounter .attack ∧ progress.counted = false ∧ k'.attack = k.attack
        ∧ progress.after operation result
          = { progress with read := some k.attack.attackCount })
      ∨ (∃ value read, operation = .writeCounter .attack value ∧ progress.counted = false
        ∧ progress.read = some read ∧ value = read + 1
        ∧ k'.attack = { k.attack with attackCount := value })
      ∨ ((∀ field, operation ≠ .recordAttack field)
        ∧ (∀ value, operation ≠ .writeCounter .attack value)
        ∧ k'.attack = k.attack ∧ progress.after operation result = progress) := by
  cases operation with
  | recordAttack field =>
      cases done
      exact .inl ⟨field, rfl, rfl⟩
  | readCounter counter =>
      cases counter with
      | attack =>
          cases done
          exact .inr (.inl ⟨rfl, admitted.2, rfl, rfl⟩)
      | violation | contention => exact admitted.elim
  | writeCounter counter value =>
      cases counter with
      | attack =>
          cases done
          obtain ⟨_, uncounted, read, isRead, next⟩ := admitted
          exact .inr (.inr (.inl ⟨value, read, rfl, uncounted, isRead, next, rfl⟩))
      | violation | contention => exact admitted.elim
  | ktimeGetRealNs | mutexIsLocked =>
      cases done
      exact .inr (.inr (.inr ⟨fun _ => by simp, fun _ => by simp, rfl, rfl⟩))
  | copyToKernelNofault target value =>
      have same : k'.attack = k.attack := by
        simp only [exec] at done
        split at done
        · cases done
          rfl
        · cases done
          rfl
      exact .inr (.inr (.inr ⟨fun _ => by simp, fun _ => by simp, same, rfl⟩))
  | _ => exact admitted.elim

/-- No operation of an attack traps. -/
theorem Progress.Admits.not_fault {page : SafetyPage} {tid : Nat} {choice : Choice}
    {progress : Progress} {operation : Op} {k : State} (admitted : progress.Admits operation)
    : exec page tid choice operation k ≠ .fault := by
  intro trapped
  cases operation with
  | recordAttack field | readCounter _ | writeCounter _ _ | ktimeGetRealNs | mutexIsLocked =>
      cases trapped
  | copyToKernelNofault target value =>
      simp only [exec] at trapped
      split at trapped
      · cases trapped
      · cases trapped
  | _ => exact admitted.elim

-----------------------------------------------------------------------------------------
-- One step
-----------------------------------------------------------------------------------------

/-- The thread of each store to the count. -/
def countedCalls (history : List WriteLabel) : List Nat :=
  history.filterMap (fun label =>
    match label with
    | .act tid _ (.writeCounter .attack _) _ => some tid
    | _ => none)

@[simp] theorem countedCalls_append (history later : List WriteLabel)
    : countedCalls (history ++ later) = countedCalls history ++ countedCalls later :=
  List.filterMap_append

@[simp] theorem acceptedCalls_append (history later : List WriteLabel)
    : acceptedCalls (history ++ later) = acceptedCalls history ++ acceptedCalls later :=
  List.filterMap_append

@[simp] theorem ledger_push (history : List WriteLabel) (label : WriteLabel)
    : ledger (history ++ [label]) = (ledger history).note label := by
  rw [ledger, List.foldl_append]
  rfl

theorem countedCalls_other (tid : Nat) (write : Write) {operation : Op}
    (result : Option operation.Res) (h : ∀ value, operation ≠ .writeCounter .attack value)
    : countedCalls [.act tid write operation result] = [] := by
  cases operation with
  | writeCounter counter value =>
      cases counter with
      | attack => exact absurd rfl (h value)
      | violation | contention => rfl
  | _ => rfl

theorem Ledger.note_other (ledger : Ledger) (tid : Nat) (write : Write) {operation : Op}
    (result : Option operation.Res) (h : ∀ field, operation ≠ .recordAttack field)
    : ledger.note (.act tid write operation result) = ledger := by
  cases operation with
  | recordAttack field => exact absurd rfl (h field)
  | _ => rfl

/-- What an attack under way has stored is still there, under its own name, and the count it has
read is still current.
-/
structure Authored (k : State) (ledger : Ledger) (tid : Nat) (progress : Progress) : Prop where
  stored : ∀ field, progress.stored field = true
    → ∃ stored, ledger.last field = some ⟨(tid, ledger.calls tid), stored⟩
  read : ∀ read, progress.read = some read → progress.counted = false
    → k.attack.attackCount = read

theorem Authored.start (k : State) (ledger : Ledger) (tid : Nat)
    : Authored k ledger tid .start :=
  ⟨fun _ stored => (by cases stored), fun _ read => (by cases read)⟩

/-- An operation of the attack itself keeps what it has stored. -/
theorem Authored.act {page : SafetyPage} {tid : Nat} {choice : Choice} {progress : Progress}
    {operation : Op} {result : operation.Res} {k k' : State} {history : List WriteLabel}
    (write : Write) (h : Authored k (ledger history) tid progress)
    (admitted : progress.Admits operation)
    (done : exec page tid choice operation k = .done result k')
    : Authored k' (ledger (history ++ [.act tid write operation (some result)])) tid
        (progress.after operation result) := by
  rw [ledger_push]
  rcases admitted.cases done with
    ⟨field, rfl, changed⟩ | ⟨rfl, _, same, after⟩ | ⟨value, read, rfl, _, _, _, changed⟩
      | ⟨noStore, _, same, after⟩
  · refine ⟨fun other stored => ?_, fun read isRead uncounted => ?_⟩
    · by_cases own : other = fieldOf field
      · subst own
        exact ⟨field, Function.update_self _ _ _⟩
      · have earlier : progress.stored other = true :=
          (Function.update_of_ne own _ _).symm.trans stored
        obtain ⟨entry, found⟩ := h.stored other earlier
        exact ⟨entry, (Function.update_of_ne own _ _).trans found⟩
    · rw [changed]
      refine Eq.trans ?_ (h.read read isRead uncounted)
      cases field <;> rfl
  · rw [after]
    refine ⟨h.stored, fun read isRead _ => ?_⟩
    rw [same]
    exact Option.some.inj isRead
  · exact ⟨h.stored, fun _ _ uncounted => by cases uncounted⟩
  · rw [after, Ledger.note_other _ _ _ _ noStore]
    refine ⟨h.stored, fun read isRead uncounted => ?_⟩
    rw [same]
    exact h.read read isRead uncounted

/-- The count and the last stores to the record, as far as they do not depend on the threads. -/
structure Recorded (k₀ k : State) (history : List WriteLabel) : Prop where
  count : k.attack.attackCount
    = k₀.attack.attackCount + UInt32.ofNat (countedCalls history).length
  held : ∀ field stored, (ledger history).last field = some stored
    → fieldOf stored.field = field ∧ Holds k.attack stored.field

/-- A store makes its own field hold what it stores and leaves the others alone. -/
theorem holds_recordAttack (k : State) (field : AttackField)
    : Holds (k.recordAttack field).attack field
      ∧ ∀ other, fieldOf other ≠ fieldOf field → Holds k.attack other
          → Holds (k.recordAttack field).attack other := by
  refine ⟨by cases field <;> rfl, fun other distinct holds => ?_⟩
  cases field <;> cases other <;> first | exact absurd rfl distinct | exact holds

theorem Recorded.act {page : SafetyPage} {tid : Nat} {write : Write} {choice : Choice}
    {progress : Progress} {operation : Op} {result : operation.Res} {k₀ k k' : State}
    {history : List WriteLabel} (h : Recorded k₀ k history)
    (authored : Authored k (ledger history) tid progress)
    (admitted : progress.Admits operation)
    (done : exec page tid choice operation k = .done result k')
    : Recorded k₀ k' (history ++ [.act tid write operation (some result)]) := by
  rcases admitted.cases done with
    ⟨field, rfl, changed⟩ | ⟨rfl, _, same, _⟩ | ⟨value, read, rfl, uncounted, isRead, next, changed⟩
      | ⟨noStore, noCount, same, _⟩
  · constructor
    · rw [changed, countedCalls_append, countedCalls_other _ _ _ (fun _ => by simp),
        List.append_nil, ← h.count]
      cases field <;> rfl
    · intro other stored found
      rw [ledger_push] at found
      obtain ⟨own, others⟩ := holds_recordAttack k field
      rw [changed]
      by_cases same : other = fieldOf field
      · subst same
        have entry := (Function.update_self _ _ _).symm.trans found
        obtain rfl := Option.some.inj entry
        exact ⟨rfl, own⟩
      · have earlier := (Function.update_of_ne same _ _).symm.trans found
        obtain ⟨isField, holds⟩ := h.held other stored earlier
        exact ⟨isField, others _ (isField.symm ▸ same) holds⟩
  · constructor
    · rw [same, countedCalls_append, countedCalls_other _ _ _ (fun _ => by simp),
        List.append_nil, h.count]
    · intro other stored found
      rw [ledger_push, Ledger.note_other _ _ _ _ (fun _ => by simp)] at found
      rw [same]
      exact h.held other stored found
  · constructor
    · have current := authored.read read isRead uncounted
      have one : countedCalls [.act tid write (.writeCounter .attack value) (some result)]
          = [tid] := rfl
      rw [changed, countedCalls_append, one, List.length_append, List.length_singleton, next,
        ← current, h.count, UInt32.ofNat_add, UInt32.add_assoc]
      rfl
    · intro other stored found
      rw [ledger_push, Ledger.note_other _ _ _ _ (fun _ => by simp)] at found
      obtain ⟨isField, holds⟩ := h.held other stored found
      refine ⟨isField, ?_⟩
      rw [changed]
      cases field : stored.field <;> rw [field] at holds <;> exact holds
  · constructor
    · rw [same, countedCalls_append, countedCalls_other _ _ _ noCount, List.append_nil, h.count]
    · intro other stored found
      rw [ledger_push, Ledger.note_other _ _ _ _ noStore] at found
      rw [same]
      exact h.held other stored found

-----------------------------------------------------------------------------------------
-- Whole runs
-----------------------------------------------------------------------------------------

/-- A thread has counted each of its accepted calls once, and the one it is in as far as it has
come. What it has stored is only its own while it is midway.
-/
def ThreadOk (k : State) (history : List WriteLabel) (tid : Nat)
    : Thread Write Int Op Op.Res → Prop
  | .idle => (countedCalls history).count tid = (acceptedCalls history).count tid
  | .dead => False
  | .running write rest =>
      (∃ code : Int, code < 0 ∧ rest = .ret code
        ∧ (countedCalls history).count tid = (acceptedCalls history).count tid)
      ∨ ∃ progress, Orderly write.count progress rest
        ∧ (countedCalls history).count tid
          = (acceptedCalls history).count tid + progress.counted.toNat
        ∧ (progress.stored .target = false → progress = .start)
        ∧ (midway (.running write rest) = true → Authored k (ledger history) tid progress)

/-- A step of another thread, as long as it does not take away what this one relies on. -/
theorem ThreadOk.frame {k k' : State} {history : List WriteLabel} {tid : Nat}
    {thread : Thread Write Int Op Op.Res} {label : WriteLabel}
    (h : ThreadOk k history tid thread) (counts : (countedCalls [label]).count tid = 0)
    (accepts : (acceptedCalls [label]).count tid = 0)
    (kept : midway thread = true → ∀ progress, Authored k (ledger history) tid progress
      → Authored k' ((ledger history).note label) tid progress)
    : ThreadOk k' (history ++ [label]) tid thread := by
  have counted : (countedCalls (history ++ [label])).count tid
      = (countedCalls history).count tid := by
    rw [countedCalls_append, List.count_append, counts, Nat.add_zero]
  have accepted : (acceptedCalls (history ++ [label])).count tid
      = (acceptedCalls history).count tid := by
    rw [acceptedCalls_append, List.count_append, accepts, Nat.add_zero]
  cases thread with
  | idle =>
      rw [ThreadOk, counted, accepted]
      exact h
  | dead => exact h
  | running write rest =>
      rw [ThreadOk, counted, accepted, ledger_push]
      rcases h with refused | ⟨progress, orderly, counts, fresh, authored⟩
      · exact .inl refused
      · exact .inr ⟨progress, orderly, counts, fresh,
          fun inside => kept inside progress (authored inside)⟩

/-- The last stores to all fields were made by one call. -/
def Settled (ledger : Ledger) : Prop :=
  (∀ field, ledger.last field = none)
  ∨ ∃ call, ∀ field, ∃ stored, ledger.last field = some ⟨call, stored⟩

structure RecordInv (k₀ : State) (c : WriteConfig) : Prop where
  recorded : Recorded k₀ c.world.state c.world.history
  threads : ∀ tid, ThreadOk c.world.state c.world.history tid (c.threads tid)
  settled : (∀ tid, midway (c.threads tid) = false) → Settled (ledger c.world.history)

theorem RecordInv.start (k₀ : State) : RecordInv k₀ (Config.start k₀) where
  recorded := ⟨(UInt32.add_zero _).symm, fun _ _ found => by cases found⟩
  threads _ := rfl
  settled _ := .inl (fun _ => rfl)

/-- One thread moves on and the others stay where they are. -/
theorem RecordInv.push {k₀ k : State} {c : WriteConfig} {tid : Nat}
    {thread : Thread Write Int Op Op.Res} {label : WriteLabel}
    (recorded : Recorded k₀ k (c.world.history ++ [label]))
    (own : ThreadOk k (c.world.history ++ [label]) tid thread)
    (others : ∀ other ≠ tid, ThreadOk k (c.world.history ++ [label]) other (c.threads other))
    (settled : midway thread = false → (∀ other ≠ tid, midway (c.threads other) = false)
      → Settled (ledger (c.world.history ++ [label])))
    : RecordInv k₀ ⟨c.world.push k label, Function.update c.threads tid thread⟩ := by
  refine ⟨recorded, fun other => ?_, fun all => settled ?_ (fun other distinct => ?_)⟩
  · show ThreadOk k (c.world.history ++ [label]) other (Function.update c.threads tid thread other)
    by_cases same : other = tid
    · rw [same, Function.update_self]
      exact own
    · rw [Function.update_of_ne same]
      exact others other same
  · have standing : midway (Function.update c.threads tid thread tid) = false := all tid
    rwa [Function.update_self] at standing
  · have standing : midway (Function.update c.threads tid thread other) = false := all other
    rwa [Function.update_of_ne distinct] at standing

/-- No thread is midway if the one that moves was not and the others are not. -/
theorem RecordInv.settled_of_others {k₀ : State} {c : WriteConfig} {tid : Nat}
    (h : RecordInv k₀ c) (own : midway (c.threads tid) = false)
    (others : ∀ other ≠ tid, midway (c.threads other) = false)
    : Settled (ledger c.world.history) := by
  refine h.settled (fun other => ?_)
  by_cases same : other = tid
  · rw [same]
    exact own
  · exact others other same

/-- A label that is no operation changes neither the count nor the last stores. -/
theorem Recorded.label {k₀ k : State} {history : List WriteLabel} {label : WriteLabel}
    (h : Recorded k₀ k history) (counts : countedCalls [label] = [])
    (last : ((ledger history).note label).last = (ledger history).last)
    : Recorded k₀ k (history ++ [label]) := by
  refine ⟨?_, fun field stored found => ?_⟩
  · rw [countedCalls_append, counts, List.append_nil]
    exact h.count
  · rw [ledger_push, last] at found
    exact h.held field stored found

theorem RecordInv.call {page : SafetyPage} {k₀ : State} {c : WriteConfig} {tid : Nat}
    {write : Write} (h : RecordInv k₀ c) (idle : c.threads tid = .idle)
    : RecordInv k₀ ⟨c.world.push c.world.state (.call tid write),
        Function.update c.threads tid (.running write ((writers page).body write))⟩ := by
  have counts : countedCalls [.call tid write] = [] := rfl
  have accepts : acceptedCalls [.call tid write] = [] := rfl
  have last : ((ledger c.world.history).note (.call tid write)).last
      = (ledger c.world.history).last := rfl
  have before : (countedCalls c.world.history).count tid
      = (acceptedCalls c.world.history).count tid := by
    have standing := h.threads tid
    rwa [idle] at standing
  refine .push (h.recorded.label counts last) ?_ (fun other distinct => ?_) (fun _ others => ?_)
  · rw [ThreadOk, countedCalls_append, counts, acceptedCalls_append, accepts, List.append_nil,
      List.append_nil]
    rcases badDriverProcWrite_cases page write with ⟨code, negative, refused⟩ | ⟨mode, attacks⟩
    · exact .inl ⟨code, negative, refused, before⟩
    · rw [show (writers page).body write = _ from attacks]
      refine .inr ⟨.start, orderly_attack page mode write.count, before, fun _ => rfl,
        fun inside => ?_⟩
      -- The first operation of every mode stores the target.
      cases mode <;> cases inside
  · refine (h.threads other).frame (by rw [counts]; rfl) (by rw [accepts]; rfl) ?_
    intro _ progress authored
    have calls : ((ledger c.world.history).note (.call tid write)).calls other
        = (ledger c.world.history).calls other := Function.update_of_ne distinct _ _
    refine ⟨fun field stored => ?_, authored.read⟩
    rw [last, calls]
    exact authored.stored field stored
  · rw [ledger_push, Settled, last]
    exact h.settled_of_others (by rw [idle]; rfl) others

theorem RecordInv.ret {k₀ : State} {c : WriteConfig} {tid : Nat} {write : Write} {value : Int}
    (h : RecordInv k₀ c) (running : c.threads tid = .running write (.ret value))
    : RecordInv k₀ ⟨c.world.push c.world.state (.ret tid write value),
        Function.update c.threads tid .idle⟩ := by
  have counts : countedCalls [.ret tid write value] = [] := rfl
  have note : (ledger c.world.history).note (.ret tid write value) = ledger c.world.history := rfl
  have accepts : acceptedCalls [.ret tid write value]
      = if value = write.count then [tid] else [] := by
    by_cases accepted : value = write.count <;> simp [acceptedCalls, accepted]
  have standing := h.threads tid
  rw [running] at standing
  refine .push (h.recorded.label counts (congrArg Ledger.last note)) ?_ (fun other distinct => ?_)
    (fun _ others => ?_)
  · rw [ThreadOk, countedCalls_append, counts, List.append_nil, acceptedCalls_append,
      List.count_append, accepts]
    rcases standing with ⟨code, negative, same, before⟩ | ⟨progress, orderly, before, _, _⟩
    · obtain rfl : value = code := by injection same
      rw [if_neg (by omega), before]
      rfl
    · obtain ⟨same, counted, _⟩ := orderly
      rw [if_pos same, before, counted, List.count_singleton_self]
      rfl
  · refine (h.threads other).frame (by rw [counts]; rfl) ?_ (fun _ _ authored => note ▸ authored)
    rw [accepts]
    split
    · exact List.count_eq_zero.mpr (fun member => distinct (List.mem_singleton.mp member))
    · rfl
  · rw [ledger_push, note]
    exact h.settled_of_others (by rw [running]; rfl) others

/-- A thread that has operations left makes an attack. -/
theorem ThreadOk.attacking {k : State} {history : List WriteLabel} {tid : Nat} {write : Write}
    {operation : Op} {next : operation.Res → Kern Int}
    (h : ThreadOk k history tid (.running write (.act operation next)))
    : ∃ progress, Orderly write.count progress (.act operation next)
        ∧ (countedCalls history).count tid
          = (acceptedCalls history).count tid + progress.counted.toNat
        ∧ Authored k (ledger history) tid progress := by
  rcases h with ⟨_, _, isReturn, _⟩ | ⟨progress, orderly, counted, fresh, authored⟩
  · cases isReturn
  · refine ⟨progress, orderly, counted, ?_⟩
    cases begun : progress.stored .target with
    | false =>
        rw [fresh begun]
        exact .start k (ledger history) tid
    | true =>
        refine authored ?_
        have admitted := orderly.1
        unfold midway
        split
        · rename_i same
          injection same with _ same
          injection same with same _
          subst same
          exact absurd (admitted.1.symm.trans begun) (by decide)
        · rfl
        · rename_i none
          exact absurd rfl (none write operation next)

/-- Every operation of an attack comes with or after the store of its target. -/
theorem Progress.Admits.begun {progress : Progress} {operation : Op} (result : operation.Res)
    (admitted : progress.Admits operation)
    : (progress.after operation result).stored .target = true := by
  cases operation with
  | recordAttack field =>
      cases field with
      | targetAddr _ => rfl
      | mode _ | timestampNs _ | result _ => exact admitted
  | readCounter counter =>
      cases counter with
      | attack => exact admitted.1
      | violation | contention => exact admitted.elim
  | writeCounter counter value =>
      cases counter with
      | attack => exact admitted.1
      | violation | contention => exact admitted.elim
  | ktimeGetRealNs | mutexIsLocked | copyToKernelNofault _ _ => exact admitted
  | _ => exact admitted.elim

theorem Progress.Admits.counted {page : SafetyPage} {tid : Nat} {choice : Choice}
    {progress : Progress} {operation : Op} {result : operation.Res} {k k' : State}
    (write : Write) (admitted : progress.Admits operation)
    (done : exec page tid choice operation k = .done result k')
    : (countedCalls [.act tid write operation (some result)]).count tid
        + progress.counted.toNat
      = (progress.after operation result).counted.toNat := by
  rcases admitted.cases done with
    ⟨field, rfl, _⟩ | ⟨rfl, _, _, _⟩ | ⟨value, _, rfl, uncounted, _⟩ | ⟨_, noCount, _, after⟩
  · rw [countedCalls_other _ _ _ (fun _ => by simp), List.count_nil, Nat.zero_add]
    rfl
  · rw [countedCalls_other _ _ _ (fun _ => by simp), List.count_nil, Nat.zero_add]
    rfl
  · have one : countedCalls [.act tid write (.writeCounter .attack value) (some result)]
        = [tid] := rfl
    rw [one, List.count_singleton_self, uncounted]
    rfl
  · rw [countedCalls_other _ _ _ noCount, List.count_nil, Nat.zero_add, after]

theorem RecordInv.act {page : SafetyPage} {k₀ k' : State} {c : WriteConfig} {tid : Nat}
    {write : Write} {operation : Op} {next : operation.Res → Kern Int} {choice : Choice}
    {result : operation.Res} (h : RecordInv k₀ c)
    (running : c.threads tid = .running write (.act operation next))
    (done : exec page tid choice operation c.world.state = .done result k')
    (alone : ∀ other ≠ tid, midway (c.threads other) = false)
    : RecordInv k₀ ⟨c.world.push k' (.act tid write operation (some result)),
        Function.update c.threads tid (.running write (next result))⟩ := by
  have standing := h.threads tid
  rw [running] at standing
  obtain ⟨progress, ⟨admitted, orderly⟩, counted, authored⟩ := standing.attacking
  have accepts : acceptedCalls [.act tid write operation (some result)] = [] := rfl
  have authored' := authored.act write admitted done
  refine .push (h.recorded.act authored admitted done) ?_ (fun other distinct => ?_)
    (fun outside _ => ?_)
  · refine .inr ⟨_, orderly result, ?_, fun unbegun => ?_, fun _ => authored'⟩
    · rw [countedCalls_append, List.count_append, acceptedCalls_append, accepts, List.append_nil,
        counted, ← admitted.counted write done]
      omega
    · exact absurd ((admitted.begun result).symm.trans unbegun) (by decide)
  · refine (h.threads other).frame ?_ rfl (fun inside => ?_)
    · refine List.count_eq_zero.mpr (fun member => distinct ?_)
      obtain ⟨label, isLabel, found⟩ := List.mem_filterMap.mp member
      rw [List.mem_singleton.mp isLabel] at found
      split at found
      · rename_i same
        injection same with caller
        exact (Option.some.inj found).symm.trans caller.symm
      · cases found
    · rw [alone other distinct] at inside
      cases inside
  · -- The thread has come to its end, so every field was stored by this call.
    have rest := orderly result
    cases last : next result with
    | ret value =>
        rw [last] at rest
        exact .inr ⟨_, fun field => authored'.stored field (rest.2.2 field)⟩
    | act following later =>
        rw [last] at rest outside
        unfold midway at outside
        split at outside
        · rename_i same
          injection same with _ same
          injection same with same _
          subst same
          exact absurd (rest.1.1.symm.trans (admitted.begun result)) (by decide)
        · cases outside
        · rename_i none
          exact absurd rfl (none write following later)

theorem RecordInv.step {page : SafetyPage} {k₀ : State} {c c' : WriteConfig}
    {event : Event Nat Write Choice} (h : RecordInv k₀ c) (unmixed : Unmixed c event)
    (stepped : (writers page).step anyWrites c event = some c')
    : RecordInv k₀ c' := by
  cases Machine.step_taken stepped with
  | call idle _ => exact h.call idle
  | act running _ done => exact h.act running done unmixed
  | @fault tid _ _ _ _ running _ trapped =>
      have standing := h.threads tid
      rw [running] at standing
      obtain ⟨progress, ⟨admitted, _⟩, _, _⟩ := standing.attacking
      exact absurd trapped admitted.not_fault
  | ret running => exact h.ret running

/-- In every run in which no attack works on the record while another one is midway: once all
calls have returned, the count is the number of accepted calls and the fields are those of one
attack.
-/
theorem attack_record_coherent {page : SafetyPage} {k₀ : State} {c : WriteConfig}
    {events : List (Event Nat Write Choice)}
    (ran : Steps ((writers page).step anyWrites) Unmixed (Config.start k₀) events c)
    (returned : ∀ tid, c.threads tid = .idle)
    : Coherent k₀ c := by
  have inv := ran.invariant (RecordInv k₀) (fun _ _ _ h unmixed stepped => h.step unmixed stepped)
    (.start k₀)
  constructor
  · have perm : (countedCalls c.world.history).Perm (acceptedCalls c.world.history) := by
      refine List.perm_iff_count.mpr (fun tid => ?_)
      have standing := inv.threads tid
      rwa [returned tid] at standing
    rw [inv.recorded.count, perm.length_eq, UInt32.toNat_add, UInt32.toNat_ofNat']
    omega
  · have outside : ∀ tid, midway (c.threads tid) = false := by
      intro tid
      rw [returned tid]
      rfl
    rcases inv.settled outside with untouched | ⟨call, stored⟩
    · exact .inl untouched
    · refine .inr ⟨call, fun field => ?_⟩
      obtain ⟨entry, found⟩ := stored field
      obtain ⟨isField, holds⟩ := inv.recorded.held field _ found
      exact ⟨entry, found, isField, holds⟩

/-- A buffer that holds a text. -/
def writeOf (text : String) : Write := ⟨fun index => (Text.utf8 text)[index]?, text.length⟩

/-- A call with eight operations, as many as an attack through the `vmap` or linear alias has. -/
def wholeAttack (tid : Nat) (text : String) : List (Event Nat Write Choice) :=
  .call tid (writeOf text) :: List.replicate 8 (.step tid {}) ++ [.ret tid]

/-- A test for `Unmixed` when no other threads have been called. -/
def unmixedAmong (threads : List Nat) (c : WriteConfig) : Event Nat Write Choice → Bool
  | .step tid _ => threads.all (fun other => other = tid || !midway (c.threads other))
  | _ => true

theorem unmixed_of_among {threads : List Nat} {c : WriteConfig} {event : Event Nat Write Choice}
    (others : ∀ tid ∉ threads, c.threads tid = .idle)
    (tested : unmixedAmong threads c event = true)
    : Unmixed c event := by
  cases event with
  | step tid choice =>
      intro other distinct
      by_cases member : other ∈ threads
      · have calm := List.all_eq_true.mp tested other member
        simpa [distinct] using calm
      · rw [others other member]
        rfl
  | call tid write => trivial
  | ret tid => trivial

/-- The second thread enters while the first one is midway, and makes its attack when the first
one has only to return.
-/
def attacksInTurn : List (Event Nat Write Choice) :=
  [.call 0 (writeOf "1\n"), .step 0 {}, .call 1 (writeOf "0x3")]
    ++ List.replicate 7 (.step 0 {}) ++ List.replicate 8 (.step 1 {}) ++ [.ret 1, .ret 0]

theorem attack_record_coherent_in_turn
    : ∃ c, Steps ((writers (samplePage true)).step anyWrites) Unmixed
          (Config.start (freshlyLoaded (samplePage true))) attacksInTurn c
        ∧ c.world.state.attack.attackCount = 2
        ∧ Coherent (freshlyLoaded (samplePage true)) c := by
  have parties : ∀ event ∈ attacksInTurn, event.tid ∈ [0, 1] := by decide
  have shown : (attacksInTurn.foldlM (fun c event =>
      if unmixedAmong [0, 1] c event then (writers (samplePage true)).step anyWrites c event
      else none) (Config.start (freshlyLoaded (samplePage true)))).any (fun c =>
        (c.threads 0).isIdle && ((c.threads 1).isIdle && c.world.state.attack.attackCount = 2))
        = true := by
    decide +kernel
  obtain ⟨c, ran, seen⟩ := (Option.any_eq_true _ _).mp shown
  simp only [Bool.and_eq_true, decide_eq_true_eq] at seen
  obtain ⟨first, second, count⟩ := seen
  have steps : Steps ((writers (samplePage true)).step anyWrites) Unmixed _ attacksInTurn c :=
    Steps.of_tested (unmixedAmong [0, 1]) (fun c => ∀ tid ∉ [0, 1], c.threads tid = .idle) ran
      (fun c event c' member others stepped tid outside => by
        have other : tid ≠ event.tid := fun same => outside (same ▸ parties event member)
        rw [Machine.step_untouched stepped other]
        exact others tid outside)
      (fun c event others tested => unmixed_of_among others tested) (fun _ _ => rfl)
  refine ⟨c, steps, count, attack_record_coherent steps (fun tid => ?_)⟩
  by_cases outside : tid ∈ [0, 1]
  · rcases List.mem_pair.mp outside with rfl | rfl
    · exact Thread.eq_idle first
    · exact Thread.eq_idle second
  · exact Machine.run_untouched steps.run
      (fun event member same => outside (same ▸ parties event member))

/-- The first thread has read the count when the second one makes its whole attack. -/
def meetingAttacks : List (Event Nat Write Choice) :=
  .call 0 (writeOf "1") :: List.replicate 5 (.step 0 {}) ++ wholeAttack 1 "3"
    ++ List.replicate 3 (.step 0 {}) ++ [.ret 0]

/-- Two attacks whose operations meet: one of them is not counted, and the result is that of
another attack than the rest of the record.
-/
theorem attack_record_mixed
    : ∃ c, (writers (samplePage true)).Reachable anyWrites
          (Config.start (freshlyLoaded (samplePage true))) c
        ∧ (∀ tid, c.threads tid = .idle)
        ∧ c.world.state.attack.attackCount = 1 ∧ (acceptedCalls c.world.history).length = 2
        ∧ ((ledger c.world.history).last .mode).map Stored.call = some (1, 1)
        ∧ ((ledger c.world.history).last .result).map Stored.call = some (0, 1)
        ∧ ¬ Coherent (freshlyLoaded (samplePage true)) c := by
  have shown : ((writers (samplePage true)).run anyWrites
      (Config.start (freshlyLoaded (samplePage true))) meetingAttacks).any (fun c =>
        (c.threads 0).isIdle && ((c.threads 1).isIdle && (c.world.state.attack.attackCount = 1
          && ((acceptedCalls c.world.history).length = 2
          && (((ledger c.world.history).last .mode).map Stored.call = some (1, 1)
          && ((ledger c.world.history).last .result).map Stored.call = some (0, 1))))))
        = true := by
    decide +kernel
  obtain ⟨c, ran, seen⟩ := (Option.any_eq_true _ _).mp shown
  simp only [Bool.and_eq_true, decide_eq_true_eq] at seen
  obtain ⟨first, second, count, accepted, mode, result⟩ := seen
  refine ⟨c, ⟨_, ran⟩, fun tid => ?_, count, accepted, mode, result, fun coherent => ?_⟩
  · by_cases own : tid = 0 ∨ tid = 1
    · rcases own with rfl | rfl
      · exact Thread.eq_idle first
      · exact Thread.eq_idle second
    · refine Machine.run_untouched ran (fun event member => ?_)
      have party : event.tid = 0 ∨ event.tid = 1 := by
        simp only [meetingAttacks, wholeAttack, List.cons_append, List.mem_cons, List.mem_append,
          List.mem_replicate, List.not_mem_nil, or_false] at member
        rcases member with rfl | (((⟨_, rfl⟩ | rfl | ⟨_, rfl⟩ | rfl) | ⟨_, rfl⟩) | rfl) <;>
          simp [Event.tid]
      exact fun same => own (same ▸ party)
  · have counted := coherent.1
    rw [count, accepted] at counted
    exact absurd counted (by decide)

end SafetyIsolation.Attacks

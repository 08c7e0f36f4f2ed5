import Mathlib.Data.List.Count
import SafetyIsolation.Interleaving.Steps
import SafetyIsolation.Kernel.Loading

/-! The evidence of the metadata attack. The rogue thread tests the mutex, clears its owner and
counts, in three steps; the mutex may be released after the test, and the store then hits nothing.
-/

namespace SafetyIsolation.Attacks

open SafetyIsolation.Interleaving SafetyIsolation.Kernel

/-- Every user of the mutex. -/
def anyCalls : KernelPolicy where
  calls _ _ := true
  steps _ _ _ _ _ := true

/-- The owner field after one more step. -/
def ownerAfter (owner : Option Nat) : KernelLabel → Option Nat
  | .act tid _ .mutexLock (some _) => some tid
  | .act tid _ .mutexTrylock (some true) => some tid
  | .act _ _ .mutexUnlock (some _) => none
  | .act _ _ .clearMutexOwner (some _) => none
  | _ => owner

/-- The thread of a store that overwrites a non-zero owner field. -/
def corrupts (owner : Option Nat) : KernelLabel → List Nat
  | .act tid _ .clearMutexOwner (some _) => if owner.isSome then [tid] else []
  | _ => []

/-- The thread of each store that overwrote a non-zero owner field, from the given owner on. -/
def corruptions : (owner : Option Nat) → List KernelLabel → List Nat
  | _, [] => []
  | owner, label :: later => corrupts owner label ++ corruptions (ownerAfter owner label) later

/-- The thread of each `atomic_inc` of the counter. -/
def increments (history : List KernelLabel) : List Nat :=
  history.filterMap (fun label =>
    match label with
    | .act tid _ (.atomicInc .metadataAttack) (some _) => some tid
    | _ => none)

theorem corruptions_push (owner : Option Nat) (history : List KernelLabel)
    (label : KernelLabel)
    : corruptions owner (history ++ [label])
      = corruptions owner history ++ corrupts (history.foldl ownerAfter owner) label := by
  induction history generalizing owner with
  | nil => exact List.append_nil _
  | cons first later ih =>
      rw [List.cons_append, corruptions, ih, corruptions, List.append_assoc, List.foldl_cons]

theorem increments_push (history : List KernelLabel) (label : KernelLabel)
    : increments (history ++ [label]) = increments history ++ increments [label] :=
  List.filterMap_append

/-- The store comes next. -/
def poised : Kern Int → Bool
  | .act .clearMutexOwner _ => true
  | _ => false

def Poised : Thread Call Int Op Op.Res → Prop
  | .running _ rest => poised rest = true
  | _ => False

/-- Nobody empties the owner field while another thread is between its test and its store. -/
def Unraced (c : KernelConfig) : Event Nat Call Choice → Prop
  | .step tid _ =>
      (∃ call next, c.threads tid = .running call (.act .mutexUnlock next)
        ∨ c.threads tid = .running call (.act .clearMutexOwner next))
      → ∀ other ≠ tid, ¬ Poised (c.threads other)
  | _ => True

/-- Code that has, or has not, made a store it has yet to count: it makes a store only after the
test has found the mutex locked, and counts only a store it has made.
-/
def Backed : (credit : Bool) → Kern Int → Prop
  | _, .ret _ => True
  | credit, .act (.atomicInc .metadataAttack) next => credit = true ∧ Backed false (next ())
      ∧ poised (next ()) = false
  | _, .act .clearMutexOwner next => Backed true (next ()) ∧ poised (next ()) = false
  | credit, .act .mutexIsLocked next =>
      Backed credit (next false) ∧ Backed credit (next true) ∧ poised (next false) = false
  | credit, .act _ next => ∀ result, Backed credit (next result) ∧ poised (next result) = false

/-- Operations of the calls that have nothing to do with the attack. -/
def uninvolved : Op → Bool
  | .clearMutexOwner => false
  | .atomicInc .metadataAttack => false
  | _ => true

theorem not_poised_of_uninvolved {rest : Kern Int}
    (h : rest.All (fun operation => uninvolved operation = true))
    : poised rest = false := by
  cases rest with
  | ret value => rfl
  | act operation next =>
      have first := h.1
      cases operation with
      | clearMutexOwner => cases first
      | _ => rfl

/-- Code without the store and the count, by program induction. -/
theorem backed_of_uninvolved {rest : Kern Int}
    (h : rest.All (fun operation => uninvolved operation = true))
    : Backed false rest := by
  induction rest with
  | ret value => trivial
  | act operation next ih =>
      have first := h.1
      have later (result : operation.Res) := And.intro (ih result (h.2 result))
        (not_poised_of_uninvolved (h.2 result))
      cases operation with
      | clearMutexOwner => cases first
      | atomicInc counter =>
          cases counter with
          | metadataAttack => cases first
          | unsynchronizedWrite => exact later
      | mutexIsLocked => exact ⟨(later false).1, (later true).1, (later false).2⟩
      | _ => exact later

theorem uninvolved_of_performs {call : Call} {operation : Op}
    (h : ∀ attackMode, call ≠ .rogueC attackMode) (performs : call.performs operation = true)
    : uninvolved operation = true := by
  cases call with
  | rogueC attackMode => exact absurd rfl (h attackMode)
  | isProtected =>
      obtain rfl := eq_of_beq performs
      rfl
  | _ =>
      cases operation with
      | clearMutexOwner => cases performs
      | atomicInc counter => cases performs
      | _ => rfl

/-- The rogue thread makes its store right after the test and counts right after the store. -/
theorem backed_rogueC (attackMode : UInt32)
    : Backed false (rogueThreadCFn attackMode) ∧ poised (rogueThreadCFn attackMode) = false := by
  rw [rogueThreadCFn_eq]
  split
  · refine ⟨fun ptr => ?_, rfl⟩
    cases ptr with
    | none => exact ⟨trivial, rfl⟩
    | some ptr => exact ⟨fun _ => ⟨fun _ => ⟨fun _ => ⟨trivial, rfl⟩, rfl⟩, rfl⟩, rfl⟩
  · split
    · exact ⟨⟨trivial, ⟨⟨rfl, trivial, rfl⟩, rfl⟩, rfl⟩, rfl⟩
    · exact ⟨trivial, rfl⟩

theorem backed_body (page : SafetyPage) (call : Call)
    : Backed false (call.body page) ∧ poised (call.body page) = false := by
  by_cases rogue : ∃ attackMode, call = .rogueC attackMode
  · obtain ⟨attackMode, rfl⟩ := rogue
    exact backed_rogueC attackMode
  · have others := (body_performs page call).imp
      (fun _ => uninvolved_of_performs (fun attackMode same => rogue ⟨attackMode, same⟩))
    exact ⟨backed_of_uninvolved others, not_poised_of_uninvolved others⟩

theorem exec_owner {page : SafetyPage} {tid : Nat} (call : Call) {choice : Choice}
    {operation : Op} {result : operation.Res} {k k' : State}
    (done : exec page tid choice operation k = .done result k')
    : k'.safetyMutex = ownerAfter k.safetyMutex (.act tid call operation (some result)) := by
  cases operation with
  | mutexLock =>
      simp only [exec] at done
      split at done
      · cases done
        rfl
      · cases done
  | mutexTrylock =>
      simp only [exec] at done
      split at done
      · cases done
        rfl
      · cases done
        rfl
  | setMemory target write =>
      simp only [exec] at done
      split at done
      · cases done
        exact setWrite_safetyMutex k target write
      · cases done
        rfl
  | procCreate =>
      simp only [exec] at done
      split at done
      · cases done
        rfl
      · cases done
        rfl
  | mutexUnlock | clearMutexOwner | setCtxProtected _ | setSafetyBufPtr _ | setInitialMapping _
  | removeProcEntry | vunmap | freePages =>
      cases done
      rfl
  | _ => exact (exec_quiet rfl done).1

theorem toInt_succ_le (x : Int32) : (x + 1).toInt ≤ x.toInt + 1 := by
  have below := x.toInt_lt
  have above := x.le_toInt
  rw [Int32.toInt_add]
  change Int.bmod (x.toInt + 1) (2 ^ 32) ≤ x.toInt + 1
  rw [Int.bmod_def]
  split <;> omega

/-- Only the count itself changes the counter. -/
theorem exec_counter {page : SafetyPage} {tid : Nat} (call : Call) {choice : Choice}
    {operation : Op} {result : operation.Res} {k k' : State}
    (done : exec page tid choice operation k = .done result k')
    : k'.metadataAttackCounter.toInt ≤ k.metadataAttackCounter.toInt
        + (increments [.act tid call operation (some result)]).length := by
  have same (h : k'.metadataAttackCounter = k.metadataAttackCounter)
      : k'.metadataAttackCounter.toInt ≤ k.metadataAttackCounter.toInt
        + (increments [.act tid call operation (some result)]).length := by
    rw [h]
    omega
  cases operation with
  | atomicInc counter =>
      cases done
      cases counter with
      | metadataAttack => exact toInt_succ_le k.metadataAttackCounter
      | unsynchronizedWrite => exact same rfl
  | mutexLock | mutexTrylock | store _ _ | copyToKernelNofault _ _ | procCreate =>
      simp only [exec] at done
      split at done <;> first | (cases done; exact same rfl) | cases done
  | setMemory target write =>
      simp only [exec] at done
      split at done
      · cases done
        cases target <;> exact same rfl
      · cases done
        exact same rfl
  | walkPgtable ptr => cases ptr <;> (cases done; exact same rfl)
  | recordAttack field => cases field <;> (cases done; exact same rfl)
  | writeCounter counter value => cases counter <;> (cases done; exact same rfl)
  | _ =>
      cases done
      exact same rfl

/-- A step that empties the owner field. -/
def empties : Op → Bool
  | .mutexUnlock | .clearMutexOwner => true
  | _ => false

theorem held_of_not_empties {owner : Option Nat} {tid : Nat} {call : Call} {operation : Op}
    {result : operation.Res} (h : empties operation = false) (held : owner.isSome = true)
    : (ownerAfter owner (.act tid call operation (some result))).isSome = true := by
  cases operation with
  | mutexUnlock | clearMutexOwner => cases h
  | mutexTrylock => cases result <;> first | exact held | rfl
  | mutexLock => rfl
  | _ => exact held

-----------------------------------------------------------------------------------------
-- Whole runs
-----------------------------------------------------------------------------------------

/-- How often a thread has counted and how often it has hit a mutex that was held, with what its
remaining code still owes.
-/
def Supported (owner : Option Nat) (w : KernelWorld) (tid : Nat)
    : Thread Call Int Op Op.Res → Prop
  | .running _ rest =>
      ∃ credit, Backed credit rest
        ∧ (increments w.history).count tid + credit.toNat
          ≤ (corruptions owner w.history).count tid
        ∧ (poised rest = true → w.state.safetyMutex.isSome = true)
  | _ => (increments w.history).count tid ≤ (corruptions owner w.history).count tid

/-- The counter is backed by hits, thread by thread. -/
structure Evidence (owner : Option Nat) (c : KernelConfig) : Prop where
  owner_eq : c.world.state.safetyMutex = c.world.history.foldl ownerAfter owner
  counter_le : c.world.state.metadataAttackCounter.toInt ≤ (increments c.world.history).length
  supported : ∀ tid, Supported owner c.world tid (c.threads tid)

/-- What another thread's step does to the account of a thread: nothing, as long as it does not
empty the owner field under a thread that is about to make its store.
-/
theorem Supported.other {owner : Option Nat} {w w' : KernelWorld} {tid : Nat}
    {thread : Thread Call Int Op Op.Res} (h : Supported owner w tid thread)
    (incs : (increments w'.history).count tid = (increments w.history).count tid)
    (hits : (corruptions owner w'.history).count tid = (corruptions owner w.history).count tid)
    (held : Poised thread → w.state.safetyMutex.isSome = true
      → w'.state.safetyMutex.isSome = true)
    : Supported owner w' tid thread := by
  cases thread with
  | running call rest =>
      obtain ⟨credit, backed, account, locked⟩ := h
      exact ⟨credit, backed, by rw [incs, hits]; exact account,
        fun isPoised => held isPoised (locked isPoised)⟩
  | idle | dead =>
      change _ ≤ _
      rw [incs, hits]
      exact h

theorem increments_count_other {tid other : Nat} {call : Call} {operation : Op}
    (result : operation.Res) (distinct : other ≠ tid)
    : (increments [.act tid call operation (some result)]).count other = 0 := by
  cases operation with
  | atomicInc counter =>
      cases counter with
      | metadataAttack => exact List.count_eq_zero.mpr (by simpa [increments] using distinct)
      | unsynchronizedWrite => rfl
  | _ => rfl

theorem corrupts_count_other {owner : Option Nat} {tid other : Nat} {call : Call}
    {operation : Op} (result : operation.Res) (distinct : other ≠ tid)
    : (corrupts owner (.act tid call operation (some result))).count other = 0 := by
  cases operation with
  | clearMutexOwner =>
      refine List.count_eq_zero.mpr (fun member => distinct ?_)
      simp only [corrupts] at member
      split at member
      · exact List.mem_singleton.mp member
      · cases member
  | _ => rfl

/-- A label that says nothing about the attack. -/
structure Silent (label : KernelLabel) : Prop where
  increments_eq : increments [label] = []
  corrupts_eq : ∀ owner, corrupts owner label = []
  owner_eq : ∀ owner, ownerAfter owner label = owner

theorem Silent.call (tid : Nat) (call : Call) : Silent (.call tid call) :=
  ⟨rfl, fun _ => rfl, fun _ => rfl⟩

theorem Silent.ret (tid : Nat) (call : Call) (value : Int) : Silent (.ret tid call value) :=
  ⟨rfl, fun _ => rfl, fun _ => rfl⟩

theorem Silent.fault (tid : Nat) (call : Call) (target : Alias) (value : UInt32)
    : Silent (.act tid call (.store target value) none) :=
  ⟨rfl, fun _ => rfl, fun _ => rfl⟩

theorem Supported.account {owner : Option Nat} {w : KernelWorld} {tid : Nat}
    {thread : Thread Call Int Op Op.Res} (h : Supported owner w tid thread)
    : (increments w.history).count tid ≤ (corruptions owner w.history).count tid := by
  cases thread with
  | running call rest =>
      obtain ⟨credit, _, account, _⟩ := h
      omega
  | idle | dead => exact h

/-- Nothing of the evidence changes with a silent label; the thread that made the step goes on
with code that has nothing to account for.
-/
theorem Evidence.silent {owner : Option Nat} {c : KernelConfig} {label : KernelLabel}
    {tid : Nat} {thread : Thread Call Int Op Op.Res} (h : Evidence owner c) (quiet : Silent label)
    (own : (increments c.world.history).count tid
        ≤ (corruptions owner c.world.history).count tid
      → Supported owner c.world tid thread)
    : Evidence owner ⟨c.world.push c.world.state label, Function.update c.threads tid thread⟩ := by
  have incs : increments (c.world.history ++ [label]) = increments c.world.history := by
    rw [increments_push, quiet.increments_eq, List.append_nil]
  have hits : corruptions owner (c.world.history ++ [label])
      = corruptions owner c.world.history := by
    rw [corruptions_push, quiet.corrupts_eq, List.append_nil]
  refine ⟨?_, ?_, fun other => ?_⟩
  · rw [World.push_state, World.push_history, List.foldl_append, ← h.owner_eq]
    exact (quiet.owner_eq _).symm
  · rw [World.push_state, World.push_history, incs]
    exact h.counter_le
  · have kept : Supported owner c.world other (Function.update c.threads tid thread other) := by
      by_cases same : other = tid
      · subst same
        rw [Function.update_self]
        exact own (h.supported other).account
      · rw [Function.update_of_ne same]
        exact h.supported other
    exact kept.other (by rw [World.push_history, incs]) (by rw [World.push_history, hits])
      (fun _ held => held)

/-- The acting thread's own account: a store is made only on a mutex that is held, and a count
uses up the store before it.
-/
theorem Supported.own {owner : Option Nat} {page : SafetyPage} {w : KernelWorld} {tid : Nat}
    {call : Call} {operation : Op} {next : operation.Res → Kern Int} {choice : Choice}
    {result : operation.Res} {k' : State}
    (h : Supported owner w tid (.running call (.act operation next)))
    (owner_eq : w.state.safetyMutex = w.history.foldl ownerAfter owner)
    (done : exec page tid choice operation w.state = .done result k')
    : Supported owner (w.push k' (.act tid call operation (some result))) tid
        (.running call (next result)) := by
  obtain ⟨credit, backed, account, locked⟩ := h
  rw [Supported, World.push_history, increments_push, corruptions_push, List.count_append,
    List.count_append, ← owner_eq]
  cases operation with
  | clearMutexOwner =>
      have hit : corrupts w.state.safetyMutex (.act tid call .clearMutexOwner (some result))
          = [tid] := if_pos (locked rfl)
      refine ⟨true, backed.1, ?_, fun isPoised => ?_⟩
      · rw [hit, List.count_singleton_self]
        change _ + 0 + 1 ≤ _
        omega
      · rw [backed.2] at isPoised
        cases isPoised
  | atomicInc counter =>
      cases counter with
      | metadataAttack =>
          obtain ⟨rfl, later, unpoised⟩ := backed
          refine ⟨false, later, ?_, fun isPoised => ?_⟩
          · have one : increments [.act tid call (.atomicInc .metadataAttack) (some result)]
                = [tid] := rfl
            rw [one, List.count_singleton_self]
            change _ + 1 + 0 ≤ _ + 0
            exact account
          · rw [unpoised] at isPoised
            cases isPoised
      | unsynchronizedWrite =>
          refine ⟨credit, (backed result).1, account, fun isPoised => ?_⟩
          rw [(backed result).2] at isPoised
          cases isPoised
  | mutexIsLocked =>
      cases done
      cases held : w.state.safetyMutex.isSome with
      | false =>
          refine ⟨credit, backed.1, account, fun isPoised => ?_⟩
          rw [backed.2.2] at isPoised
          cases isPoised
      | true => exact ⟨credit, backed.2.1, account, fun _ => held⟩
  | _ =>
      refine ⟨credit, (backed result).1, account, fun isPoised => ?_⟩
      rw [(backed result).2] at isPoised
      cases isPoised

theorem Evidence.act {owner : Option Nat} {page : SafetyPage} {c : KernelConfig} {tid : Nat}
    {call : Call} {operation : Op} {next : operation.Res → Kern Int} {choice : Choice}
    {result : operation.Res} {k' : State} (h : Evidence owner c)
    (running : c.threads tid = .running call (.act operation next))
    (unraced : empties operation = true → ∀ other ≠ tid, ¬ Poised (c.threads other))
    (done : exec page tid choice operation c.world.state = .done result k')
    : Evidence owner ⟨c.world.push k' (.act tid call operation (some result)),
        Function.update c.threads tid (.running call (next result))⟩ := by
  refine ⟨?_, ?_, fun other => ?_⟩
  · rw [World.push_state, World.push_history, List.foldl_append, ← h.owner_eq]
    exact exec_owner call done
  · rw [World.push_state, World.push_history, increments_push, List.length_append]
    have before := h.counter_le
    have counted := exec_counter call done
    push_cast
    omega
  · dsimp only
    by_cases same : other = tid
    · subst same
      rw [Function.update_self]
      exact (running ▸ h.supported other).own h.owner_eq done
    · rw [Function.update_of_ne same]
      refine (h.supported other).other ?_ ?_ (fun isPoised held => ?_)
      · rw [World.push_history, increments_push, List.count_append,
          increments_count_other result same, Nat.add_zero]
      · rw [World.push_history, corruptions_push, List.count_append,
          corrupts_count_other result same, Nat.add_zero]
      · rw [World.push_state, exec_owner call done]
        refine held_of_not_empties ?_ held
        exact Bool.eq_false_iff.mpr (fun isEmpty => unraced isEmpty other same isPoised)

/-- What one step keeps. -/
theorem Evidence.step {owner : Option Nat} {page : SafetyPage} {p : KernelPolicy}
    {c c' : KernelConfig} {event : Event Nat Call Choice} (h : Evidence owner c)
    (unraced : Unraced c event) (stepped : (machine page).step p c event = some c')
    : Evidence owner c' := by
  cases Machine.step_taken stepped with
  | @call tid call _ _ =>
      refine h.silent (.call tid call) (fun account => ?_)
      obtain ⟨backed, unpoised⟩ := backed_body page call
      refine ⟨false, backed, account, fun isPoised => ?_⟩
      change poised (call.body page) = true at isPoised
      rw [unpoised] at isPoised
      cases isPoised
  | @act tid call operation next choice result k' running _ done =>
      refine h.act running (fun isEmpty => unraced ?_) done
      cases operation with
      | mutexUnlock => exact ⟨call, next, .inl running⟩
      | clearMutexOwner => exact ⟨call, next, .inr running⟩
      | _ => cases isEmpty
  | @fault tid call operation next choice running _ trapped =>
      obtain ⟨target, value, rfl⟩ := exec_fault trapped
      exact h.silent (.fault tid call target value) (fun account => account)
  | @ret tid call value running =>
      exact h.silent (.ret tid call value) (fun account => account)

/-- A module that is inserted starts its counters at zero. -/
theorem Evidence.restart {owner : Option Nat} {c : KernelConfig} {k : State}
    (h : Evidence owner c) (same : k.safetyMutex = c.world.state.safetyMutex)
    (zero : k.metadataAttackCounter = 0)
    : Evidence owner ⟨⟨k, c.world.history⟩, c.threads⟩ := by
  refine ⟨same.trans h.owner_eq, ?_, fun tid => ?_⟩
  · rw [zero]
    change 0 ≤ _
    omega
  · exact (h.supported tid).other rfl rfl (fun _ held => by rw [← same] at held; exact held)

theorem Evidence.start {k : State} (zero : k.metadataAttackCounter = 0)
    : Evidence k.safetyMutex (Config.start k) := by
  refine ⟨rfl, ?_, fun _ => Nat.le_refl 0⟩
  change k.metadataAttackCounter.toInt ≤ 0
  rw [zero]
  exact Int.le_refl 0

/-- The counter never exceeds the number of hits: thread by thread there are at least as many
hits as counts.
-/
theorem Evidence.sound {owner : Option Nat} {c : KernelConfig} (h : Evidence owner c)
    : c.world.state.metadataAttackCounter.toInt
        ≤ (corruptions owner c.world.history).length := by
  have fewer : (increments c.world.history).Subperm (corruptions owner c.world.history) :=
    List.subperm_ext_iff.mpr (fun tid _ => (h.supported tid).account)
  have length := fewer.length_le
  have counter := h.counter_le
  omega

end SafetyIsolation.Attacks

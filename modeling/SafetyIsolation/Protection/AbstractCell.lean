import SafetyIsolation.Interleaving.Linearization
import SafetyIsolation.Kernel.Sequential
import SafetyIsolation.Protection.Sections

/-! `safety_mem` as an abstract protected cell.
With every permission change succeeding, the interface linearizes: a protection change takes
effect where it writes the flag, an authorized write where it stores, and a query where it
reads the flag.
-/

namespace SafetyIsolation.Protection

open SafetyIsolation.Interleaving SafetyIsolation.Kernel

/-- A protected cell: whether it is protected, and its word. -/
def cell : SequentialObject (Bool × UInt32) Call Int where
  apply
    | (_, word), .setProtection enable => ((enable, word), 0)
    | (isProtected, _), .safeWrite val => ((isProtected, val), 0)
    | (isProtected, word), .isProtected =>
        ((isProtected, word), if isProtected then 1 else 0)
    | state, _ => (state, 0)

/-- Calls, returns, and the steps at which the interface takes effect. -/
def mark : KernelLabel → Option (Mark Nat Call Int)
  | .call tid call => some (.call tid call)
  | .act tid (.setProtection enable) (.setCtxProtected _) (some _) =>
      some (.effect tid (.setProtection enable) 0)
  | .act tid (.safeWrite val) (.store _ _) (some _) => some (.effect tid (.safeWrite val) 0)
  | .act tid .isProtected .readCtxProtected (some on) =>
      some (.effect tid .isProtected (if on then 1 else 0))
  | .ret tid call value => some (.ret tid call value)
  | _ => none

def marks (history : List KernelLabel) : List (Mark Nat Call Int) := history.filterMap mark

/-- The calls among these effects that take the mutex, in order. -/
def lockingEffects (done : List (Nat × Call × Int)) : List (Nat × Call) :=
  done.filterMap (fun (tid, call, _) => if call = .isProtected then none else some (tid, call))

-- The interface of the cell.
def cellCalls : Call → Bool
  | .setProtection _ => true
  | .safeWrite _ => true
  | .isProtected => true
  | _ => false

variable {page : SafetyPage} {w : KernelWorld} {k' : State} {label : KernelLabel} {tid : Nat}
  {call : Call}

theorem marks_unmarked {history : List KernelLabel} (unmarked : mark label = none)
    : marks (history ++ [label]) = marks history := by
  simp [marks, unmarked]

theorem marks_marked {history : List KernelLabel} {found : Mark Nat Call Int}
    (marked : mark label = some found)
    : marks (history ++ [label]) = marks history ++ [found] := by
  simp [marks, marked]

/-- The owner of the mutex, as long as its call has not taken effect. -/
def pending (w : KernelWorld) : List (Nat × Call) :=
  match w.state.safetyMutex with
  | none => []
  | some owner =>
      match phaseOf owner (marks w.history) with
      | some (.called call) => [(owner, call)]
      | _ => []

/-- The flag and the word are the state of the cell after the effects so far, and the calls
that take the mutex have taken effect in the order of acquisition.
-/
structure CellInv (w : KernelWorld) : Prop where
  isPage : w.state.vmalloc.IsPage
  ordered : ∀ tid, (phaseOf tid (marks w.history)).isSome
  abstract
    : cell.replay (false, safetySentinel) (effects (marks w.history))
      = some (w.state.ctxProtected, w.state.word)
  order
    : acquisitions w.history = lockingEffects (effects (marks w.history)) ++ pending w

def linearizing
    : LockDiscipline State Nat Call Int Op Op.Res TablePath (Option (Phase Call Int)) where
  owner := State.safetyMutex
  held w := w.state.vmalloc
  own tid w := phaseOf tid (marks w.history)
  inv := CellInv
  rest phase := phase = some .idle
  asserts _ _ _ _ := True

/-- An unmarked step keeps the invariant when it leaves mutex, flag and word alone. -/
theorem CellInv.unmarked (inv : CellInv w) (unmarked : mark label = none)
    (unacquired : acquired label = none) (mutex : k'.safetyMutex = w.state.safetyMutex)
    (isPage : k'.vmalloc.IsPage) (flag : k'.ctxProtected = w.state.ctxProtected)
    (word : k'.word = w.state.word)
    : CellInv (w.push k' label) := by
  have sameMarks : marks (w.history ++ [label]) = marks w.history := marks_unmarked unmarked
  refine ⟨isPage, ?_, ?_, ?_⟩
  · simpa [sameMarks] using inv.ordered
  · simpa [sameMarks, flag, word] using inv.abstract
  · have samePending : pending (w.push k' label) = pending w := by
      simp only [pending, World.push_state, World.push_history, sameMarks, mutex]
    rw [samePending, World.push_history, sameMarks, acquisitions_push, unacquired, inv.order]
    simp

/-- The phases of the other threads do not see a thread's own mark. -/
theorem ordered_push {found : Mark Nat Call Int} {phase : Phase Call Int} (inv : CellInv w)
    (marked : mark label = some found)
    (own : phaseOf found.tid (marks (w.history ++ [label])) = some phase)
    : ∀ tid, (phaseOf tid (marks (w.history ++ [label]))).isSome := by
  intro tid
  by_cases same : found.tid = tid
  · subst same
    simp [own]
  · rw [marks_marked marked, phaseOf_push_other same]
    exact inv.ordered tid

/-- A mark of a thread that does not own the mutex leaves the owner pending as it was. -/
theorem pending_push {found : Mark Nat Call Int} (marked : mark label = some found)
    (mutex : k'.safetyMutex = w.state.safetyMutex)
    (free : w.state.safetyMutex ≠ some found.tid)
    : pending (w.push k' label) = pending w := by
  unfold pending
  rw [World.push_state, World.push_history, mutex]
  cases owner : w.state.safetyMutex with
  | none => rfl
  | some holder =>
      have other : found.tid ≠ holder := by
        rintro rfl
        exact free owner
      simp only [marks_marked marked, phaseOf_push_other other]

/-- A call or return of a thread that does not own the mutex. -/
theorem CellInv.boundary {found : Mark Nat Call Int} {phase : Phase Call Int}
    (inv : CellInv w) (marked : mark label = some found)
    (unacquired : acquired label = none) (noEffect : effects [found] = [])
    (free : w.state.safetyMutex ≠ some found.tid)
    (own : phaseOf found.tid (marks (w.history ++ [label])) = some phase)
    : CellInv (w.push w.state label) := by
  have sameEffects
      : effects (marks (w.history ++ [label])) = effects (marks w.history) := by
    rw [marks_marked marked]
    unfold effects at noEffect ⊢
    rw [List.filterMap_append, noEffect, List.append_nil]
  refine ⟨inv.isPage, ordered_push inv marked own, ?_, ?_⟩
  · simpa [sameEffects] using inv.abstract
  · rw [pending_push marked rfl free, World.push_history, sameEffects, acquisitions_push,
      unacquired, inv.order]
    simp

/-- A call takes effect: the cell makes the same step, and a call that takes the mutex is no
longer pending.
-/
theorem CellInv.effect {value : Int} (inv : CellInv w)
    (marked : mark label = some (.effect tid call value))
    (unacquired : acquired label = none)
    (called : phaseOf tid (marks w.history) = some (.called call))
    (mutex : k'.safetyMutex = w.state.safetyMutex) (isPage : k'.vmalloc.IsPage)
    (steps
      : cell.apply (w.state.ctxProtected, w.state.word) call
        = ((k'.ctxProtected, k'.word), value))
    (section_
      : if call = .isProtected then w.state.safetyMutex ≠ some tid
        else w.state.safetyMutex = some tid)
    : CellInv (w.push k' label)
      ∧ phaseOf tid (marks (w.history ++ [label])) = some (.effected call value) := by
  have own : phaseOf tid (marks (w.history ++ [label])) = some (.effected call value) := by
    have isOwn : (Mark.effect tid call value).tid = tid := rfl
    rw [marks_marked marked, phaseOf_push_self isOwn called]
    simp [Phase.next]
  have moreEffects : effects (marks (w.history ++ [label]))
      = effects (marks w.history) ++ [(tid, call, value)] := by
    rw [marks_marked marked]
    simp [effects]
  refine ⟨⟨isPage, ordered_push inv marked own, ?_, ?_⟩, own⟩
  · have replayed := SequentialObject.replay_push tid call inv.abstract
    rw [steps] at replayed
    simpa [moreEffects] using replayed
  · rw [World.push_history, acquisitions_push, unacquired, moreEffects, inv.order]
    by_cases query : call = .isProtected
    · rw [if_pos query] at section_
      rw [pending_push marked mutex section_]
      simp [lockingEffects, query]
    · rw [if_neg query] at section_
      have before : pending w = [(tid, call)] := by simp [pending, section_, called]
      have after : pending (w.push k' label) = [] := by
        simp [pending, mutex, section_, own]
      rw [before, after]
      simp [lockingEffects, query]

variable {α : Type} {post : α → KernelWorld → Prop} {held : TablePath}
  {phase : Option (Phase Call Int)}

/-- A mark of one thread leaves the phases of the others alone. -/
theorem own_push {found : Mark Nat Call Int} {history : List KernelLabel}
    (marked : mark label = some found) (other : Nat) (different : other ≠ found.tid)
    : phaseOf other (marks (history ++ [label])) = phaseOf other (marks history) := by
  rw [marks_marked marked, phaseOf_push_other (Ne.symm different)]

/-- An unmarked operation inside a critical section. -/
theorem cell_op {operation : Op} {next : operation.Res → Kern α}
    (unmarked : ∀ result, mark (.act tid call operation result) = none)
    (unacquired : ∀ result, acquired (.act tid call operation result) = none)
    (step
      : ∀ k choice result k', k.vmalloc = held → k.vmalloc.IsPage → choice.err = 0
          → exec page tid choice operation k = .done result k'
          → k'.safetyMutex = k.safetyMutex
            ∧ k'.vmalloc.IsPage
            ∧ k'.ctxProtected = k.ctxProtected
            ∧ k'.word = k.word
            ∧ linearizing.Inside (machine page) (faultless cellCalls) tid call (next result)
                k'.vmalloc phase post)
    : linearizing.Inside (machine page) (faultless cellCalls) tid call (.act operation next)
        held phase post := by
  apply LockDiscipline.Inside.act
  intro w owns heldIs phaseIs inv
  refine ⟨trivial, ?_⟩
  intro choice admitted
  have succeeded : choice.err = 0 := by simpa [faultless] using admitted
  have same (result : Option operation.Res) (other : Nat)
      : phaseOf other (marks (w.history ++ [.act tid call operation result]))
        = phaseOf other (marks w.history) := by
    rw [marks_unmarked (unmarked result)]
  cases executed : exec page tid choice operation w.state with
  | done result k' =>
      obtain ⟨mutex, isPage, flag, word, continues⟩ :=
        step w.state choice result k' heldIs inv.isPage succeeded executed
      simp only [machine, executed]
      refine ⟨inv.unmarked (unmarked _) (unacquired _) mutex isPage flag word,
        fun other _ => same _ other, Or.inl ⟨mutex.trans owns, ?_⟩⟩
      have ownIs : linearizing.own tid (w.push k' (.act tid call operation (some result)))
          = phase := (same _ tid).trans phaseIs
      rw [ownIs]
      exact continues
  | wait => simp [machine, executed]
  | fault =>
      simp only [machine, executed]
      exact ⟨inv.unmarked (unmarked _) (unacquired _) rfl inv.isPage rfl rfl,
        fun other _ => same _ other⟩

/-- A silent operation inside a critical section. -/
theorem cell_silent {operation : Op} {next : operation.Res → Kern α}
    (silent : operation.silent = true)
    (unmarked : ∀ result, mark (.act tid call operation result) = none)
    (continues
      : ∀ k choice result k', k.vmalloc = held → k.vmalloc.IsPage
          → exec page tid choice operation k = .done result k'
          → linearizing.Inside (machine page) (faultless cellCalls) tid call (next result)
              held phase post)
    : linearizing.Inside (machine page) (faultless cellCalls) tid call (.act operation next)
        held phase post := by
  refine cell_op unmarked (fun _ => acquired_quiet (Op.quiet_of_silent silent)) ?_
  intro k choice result k' heldIs isPage _ executed
  obtain ⟨mutex, permissions, _⟩ := exec_quiet (Op.quiet_of_silent silent) executed
  have vmalloc : k'.vmalloc = k.vmalloc := congrArg Permissions.vmalloc permissions
  refine ⟨mutex, vmalloc ▸ isPage, congrArg Permissions.flag permissions,
    exec_silent_word silent executed, ?_⟩
  rw [vmalloc, heldIs]
  exact continues k choice result k' heldIs isPage executed

/-- A permission change inside a critical section. -/
theorem cell_setMemory {target : Alias} {write : Bool} {next : Int → Kern α}
    (continues
      : linearizing.Inside (machine page) (faultless cellCalls) tid call (next 0)
          (if target = .vmalloc then held.setWrite write else held) phase post)
    : linearizing.Inside (machine page) (faultless cellCalls) tid call
        (.act (.setMemory target write) next) held phase post := by
  refine cell_op (fun _ => by cases call <;> rfl) (fun _ => rfl) ?_
  intro k choice result k' heldIs isPage succeeded executed
  simp only [exec, succeeded, if_true] at executed
  cases executed
  subst heldIs
  refine ⟨by simp, ?_, by simp, by simp, ?_⟩
  · cases target with
    | direct => exact isPage
    | vmalloc => exact isPage.setWrite write
  · cases target <;> exact continues

/-- The operation at which a call that owns the mutex takes effect. -/
theorem cell_effect {operation : Op} {next : operation.Res → Kern α} {value : Int}
    (locking : call ≠ .isProtected)
    (marked
      : ∀ result, mark (.act tid call operation (some result))
          = some (.effect tid call value))
    (trapped : mark (.act tid call operation none) = none)
    (unacquired : ∀ result, acquired (.act tid call operation result) = none)
    (step
      : ∀ k choice result k', exec page tid choice operation k = .done result k'
          → k'.safetyMutex = k.safetyMutex
            ∧ k'.vmalloc = k.vmalloc
            ∧ cell.apply (k.ctxProtected, k.word) call = ((k'.ctxProtected, k'.word), value))
    (continues
      : ∀ result, linearizing.Inside (machine page) (faultless cellCalls) tid call
          (next result) held (some (.effected call value)) post)
    : linearizing.Inside (machine page) (faultless cellCalls) tid call (.act operation next)
        held (some (.called call)) post := by
  apply LockDiscipline.Inside.act
  intro w owns heldIs phaseIs inv
  refine ⟨trivial, ?_⟩
  intro choice _
  cases executed : exec page tid choice operation w.state with
  | done result k' =>
      obtain ⟨mutex, vmalloc, steps⟩ := step w.state choice result k' executed
      obtain ⟨inv', own⟩ := inv.effect (marked result) (unacquired _) phaseIs mutex
        (vmalloc ▸ inv.isPage) steps (by rw [if_neg locking]; exact owns)
      simp only [machine, executed]
      refine ⟨inv', fun other different => own_push (marked result) other different,
        Or.inl ⟨mutex.trans owns, ?_⟩⟩
      have ownIs : linearizing.own tid (w.push k' (.act tid call operation (some result)))
          = some (.effected call value) := own
      have heldNow : linearizing.held (w.push k' (.act tid call operation (some result)))
          = held := vmalloc.trans heldIs
      rw [ownIs, heldNow]
      exact continues result
  | wait => simp [machine, executed]
  | fault =>
      simp only [machine, executed]
      refine ⟨inv.unmarked trapped (unacquired _) rfl inv.isPage rfl rfl, ?_⟩
      intro other _
      simp only [linearizing, World.push_history, marks_unmarked trapped]

/-- Acquiring the mutex makes the call the pending one. -/
theorem cell_lock {next : Unit → Kern α}
    (continues
      : ∀ held : TablePath, held.IsPage
          → linearizing.Inside (machine page) (faultless cellCalls) tid call (next ()) held
              (some (.called call)) post)
    : linearizing.Outside (machine page) (faultless cellCalls) tid call
        (.act .mutexLock next) (some (.called call)) post := by
  apply LockDiscipline.Outside.act
  intro w _ phaseIs inv
  have called : phaseOf tid (marks w.history) = some (.called call) := phaseIs
  refine ⟨trivial, ?_⟩
  intro choice _
  simp only [machine, exec]
  by_cases unowned : w.state.safetyMutex = none
  · simp only [unowned, if_true]
    have sameMarks : marks (w.history ++ [.act tid call .mutexLock (some ())])
        = marks w.history := marks_unmarked (by cases call <;> rfl)
    refine ⟨⟨inv.isPage, ?_, ?_, ?_⟩, ?_, Or.inr ⟨unowned, rfl, ?_⟩⟩
    · simpa [sameMarks] using inv.ordered
    · simpa [sameMarks] using inv.abstract
    · have before : pending w = [] := by simp [pending, unowned]
      have after : pending (w.push { w.state with safetyMutex := some tid }
          (.act tid call .mutexLock (some ()))) = [(tid, call)] := by
        simp [pending, sameMarks, called]
      rw [after, World.push_history, sameMarks, acquisitions_push, inv.order, before]
      simp [acquired]
    · intro other _
      simp only [linearizing, World.push_history, sameMarks]
    · have ownIs : linearizing.own tid (w.push { w.state with safetyMutex := some tid }
          (.act tid call .mutexLock (some ()))) = some (.called call) := by
        simp only [linearizing, World.push_history, sameMarks, called]
      rw [ownIs]
      exact continues _ inv.isPage
  · simp [unowned]

/-- Releasing the mutex after the call has taken effect. -/
theorem cell_unlock {next : Unit → Kern α} {value : Int}
    (continues
      : linearizing.Outside (machine page) (faultless cellCalls) tid call (next ())
          (some (.effected call value)) post)
    : linearizing.Inside (machine page) (faultless cellCalls) tid call
        (.act .mutexUnlock next) held (some (.effected call value)) post := by
  apply LockDiscipline.Inside.act
  intro w owns _ phaseIs inv
  have effected : phaseOf tid (marks w.history) = some (.effected call value) := phaseIs
  have owned : w.state.safetyMutex = some tid := owns
  refine ⟨trivial, ?_⟩
  intro choice _
  have sameMarks : marks (w.history ++ [.act tid call .mutexUnlock (some ())])
      = marks w.history := marks_unmarked (by cases call <;> rfl)
  refine ⟨⟨inv.isPage, ?_, ?_, ?_⟩, ?_, Or.inr ⟨rfl, ?_⟩⟩
  · simpa [sameMarks] using inv.ordered
  · simpa [sameMarks] using inv.abstract
  · have before : pending w = [] := by simp [pending, owned, effected]
    have after : pending (w.push { w.state with safetyMutex := none }
        (.act tid call .mutexUnlock (some ()))) = [] := rfl
    rw [after, World.push_history, sameMarks, acquisitions_push, inv.order, before]
    simp [acquired]
  · intro other _
    simp only [linearizing, World.push_history, sameMarks]
  · have ownIs : linearizing.own tid (w.push { w.state with safetyMutex := none }
        (.act tid call .mutexUnlock (some ()))) = some (.effected call value) := by
      simp only [linearizing, World.push_history, sameMarks, effected]
    rw [ownIs]
    exact continues

/-- A walk after the mutex was released. -/
theorem cell_walk {ptr : Option Alias} {next : WalkInfo → Kern α}
    (continues
      : ∀ info, linearizing.Outside (machine page) (faultless cellCalls) tid call
          (next info) phase post)
    : linearizing.Outside (machine page) (faultless cellCalls) tid call
        (.act (.walkPgtable ptr) next) phase post := by
  apply LockDiscipline.Outside.act
  intro w _ phaseIs inv
  refine ⟨trivial, ?_⟩
  intro choice _
  have unmarked (result : Option WalkInfo)
      : mark (.act tid call (.walkPgtable ptr) result) = none := by
    cases call <;> rfl
  have same (info : WalkInfo) (other : Nat)
      : phaseOf other (marks (w.history ++ [.act tid call (.walkPgtable ptr) (some info)]))
        = phaseOf other (marks w.history) := by
    rw [marks_unmarked (unmarked _)]
  obtain ⟨info, walked⟩ := exec_walkPgtable page tid choice ptr w.state
  simp only [machine, walked]
  refine ⟨inv.unmarked (unmarked _) rfl rfl inv.isPage rfl rfl, fun other _ => same info other,
    Or.inl ⟨trivial, rfl, ?_⟩⟩
  have ownIs : linearizing.own tid (w.push w.state (.act tid call (.walkPgtable ptr) (some info)))
      = phase := (same info tid).trans phaseIs
  rw [ownIs]
  exact continues info

/-- Returning the value the call took effect with. -/
theorem cell_return {value : Int}
    : linearizing.Outside (machine page) (faultless cellCalls) tid call (.ret value)
        (some (.effected call value)) (linearizing.discipline.Returns tid call) := by
  apply LockDiscipline.Outside.ret
  intro w free phaseIs inv
  have effected : phaseOf tid (marks w.history) = some (.effected call value) := phaseIs
  have marked : mark (.ret tid call value) = some (.ret tid call value) := rfl
  have isOwn : (Mark.ret tid call value).tid = tid := rfl
  have own : phaseOf tid (marks (w.history ++ [.ret tid call value])) = some .idle := by
    rw [marks_marked marked, phaseOf_push_self isOwn effected]
    simp [Phase.next]
  refine ⟨LockDiscipline.moves_intro (inv.boundary marked rfl rfl free own)
    (fun other different => own_push marked other different) (Or.inl ⟨rfl, rfl⟩), free, own⟩

theorem cell_walkAndReturn {enable : Bool}
    : linearizing.Outside (machine page) (faultless cellCalls) tid (.setProtection enable)
        (walkAndReturn page 0 0) (some (.effected (.setProtection enable) 0))
        (linearizing.discipline.Returns tid (.setProtection enable)) :=
  cell_walk (fun _ => cell_walk (fun _ => cell_return))

theorem cell_setFlag {enable : Bool} {next : Unit → Kern α}
    (continues
      : linearizing.Inside (machine page) (faultless cellCalls) tid (.setProtection enable)
          (next ()) held (some (.effected (.setProtection enable) 0)) post)
    : linearizing.Inside (machine page) (faultless cellCalls) tid (.setProtection enable)
        (.act (.setCtxProtected enable) next) held (some (.called (.setProtection enable)))
        post := by
  refine cell_effect (by simp) (fun _ => rfl) rfl (fun _ => rfl) ?_ (fun _ => continues)
  intro k choice result k' executed
  cases executed
  exact ⟨rfl, rfl, rfl⟩

/-- Enabling protection takes effect where it sets the flag, which the walk of the freshly
protected alias makes true.
-/
theorem cell_protect (exists_ : page.hasVmalloc = true)
    : linearizing.Outside (machine page) (faultless cellCalls) tid (.setProtection true)
        (safetyMemSetProtection page true) (some (.called (.setProtection true)))
        (linearizing.discipline.Returns tid (.setProtection true)) := by
  rw [safetyMemSetProtection_true]
  simp only [onVmalloc, exists_, if_true]
  refine cell_lock (fun held isPage => ?_)
  refine cell_silent rfl (fun _ => rfl) (fun _ _ _ _ _ _ _ => ?_)
  refine cell_setMemory (cell_setMemory ?_)
  refine cell_silent rfl (fun _ => rfl) (fun _ _ _ _ _ _ _ => ?_)
  refine cell_silent rfl (fun _ => rfl) (fun k _ mapping _ heldIs stillPage walked => ?_)
  have verified : verifiedReadOnly 0 mapping = true := by
    have readOnly : k.writable .vmalloc = false := by
      simp only [State.writable, State.path, heldIs]
      exact TablePath.writable_setWrite false isPage.mapped
    rw [verifiedReadOnly_walk 0 stillPage walked, exists_, readOnly]
    rfl
  rw [verified]
  exact cell_setFlag (cell_unlock cell_walkAndReturn)

theorem cell_unprotect (exists_ : page.hasVmalloc = true)
    : linearizing.Outside (machine page) (faultless cellCalls) tid (.setProtection false)
        (safetyMemSetProtection page false) (some (.called (.setProtection false)))
        (linearizing.discipline.Returns tid (.setProtection false)) := by
  rw [safetyMemSetProtection_false]
  simp only [onVmalloc, exists_, if_true]
  refine cell_lock (fun held isPage => ?_)
  refine cell_silent rfl (fun _ => rfl) (fun _ _ _ _ _ _ _ => ?_)
  refine cell_setMemory (cell_setMemory ?_)
  exact cell_setFlag (cell_unlock cell_walkAndReturn)

/-- An authorized write takes effect where it stores, whether or not it lifts protection. -/
theorem cell_safeWrite (exists_ : page.hasVmalloc = true) (val : UInt32)
    : linearizing.Outside (machine page) (faultless cellCalls) tid (.safeWrite val)
        (safetyMemSafeWrite page val) (some (.called (.safeWrite val)))
        (linearizing.discipline.Returns tid (.safeWrite val)) := by
  have stores {held : TablePath} {next : Unit → Kern Int}
      (continues
        : linearizing.Inside (machine page) (faultless cellCalls) tid (.safeWrite val)
            (next ()) held (some (.effected (.safeWrite val) 0))
            (linearizing.discipline.Returns tid (.safeWrite val)))
      : linearizing.Inside (machine page) (faultless cellCalls) tid (.safeWrite val)
          (.act (.store .direct val) next) held (some (.called (.safeWrite val)))
          (linearizing.discipline.Returns tid (.safeWrite val)) := by
    refine cell_effect (by simp) (fun _ => rfl) rfl (fun _ => rfl) ?_ (fun _ => continues)
    intro k choice result k' executed
    simp only [exec] at executed
    split at executed
    · cases executed
      exact ⟨rfl, rfl, rfl⟩
    · cases executed
  rw [safetyMemSafeWrite_eq]
  simp only [onVmalloc, exists_, if_true]
  refine cell_lock (fun held isPage => ?_)
  refine cell_silent rfl (fun _ => rfl) (fun _ _ wasRo _ _ _ _ => ?_)
  cases wasRo with
  | false => exact stores (cell_unlock cell_return)
  | true =>
      refine cell_setMemory (cell_setMemory ?_)
      exact stores (cell_setMemory (cell_setMemory (cell_unlock cell_return)))

/-- A query takes effect where it reads the flag. -/
theorem cell_isProtected
    : linearizing.Outside (machine page) (faultless cellCalls) tid .isProtected
        (Call.body page .isProtected) (some (.called .isProtected))
        (linearizing.discipline.Returns tid .isProtected) := by
  apply LockDiscipline.Outside.act
  intro w free phaseIs inv
  refine ⟨trivial, ?_⟩
  intro choice _
  have marked : mark (.act tid .isProtected .readCtxProtected (some w.state.ctxProtected))
      = some (.effect tid .isProtected (if w.state.ctxProtected then 1 else 0)) := rfl
  have querying : if Call.isProtected = .isProtected then w.state.safetyMutex ≠ some tid
      else w.state.safetyMutex = some tid := by
    rw [if_pos rfl]
    exact free
  have same : w.state.safetyMutex = w.state.safetyMutex := rfl
  obtain ⟨inv', own⟩ := inv.effect marked rfl phaseIs same inv.isPage rfl querying
  refine ⟨inv', fun other different => own_push marked other different,
    Or.inl ⟨rfl, rfl, ?_⟩⟩
  have ownIs : linearizing.own tid (w.push w.state
      (.act tid .isProtected .readCtxProtected (some w.state.ctxProtected)))
      = some (.effected .isProtected (if w.state.ctxProtected then 1 else 0)) := own
  rw [ownIs]
  exact cell_return

theorem linearizing_sound (exists_ : page.hasVmalloc = true)
    : linearizing.discipline.Sound (machine page) (faultless cellCalls) := by
  intro tid call w admitted inv atRest
  obtain ⟨free, resting⟩ := atRest
  have idle : phaseOf tid (marks w.history) = some .idle := resting
  have marked : mark (.call tid call) = some (.call tid call) := rfl
  have isOwn : (Mark.call tid call : Mark Nat Call Int).tid = tid := rfl
  have own : phaseOf tid (marks (w.history ++ [.call tid call])) = some (.called call) := by
    rw [marks_marked marked, phaseOf_push_self isOwn idle]
    rfl
  refine ⟨LockDiscipline.moves_intro (CellInv.boundary inv marked rfl rfl free own)
    (fun other different => own_push marked other different) (Or.inl ⟨rfl, rfl⟩), ?_⟩
  refine (?_ : linearizing.Outside (machine page) (faultless cellCalls) tid call
    ((machine page).body call) (some (.called call)) _) _ free own
  cases call with
  | setProtection enable =>
      cases enable with
      | false => exact cell_unprotect exists_
      | true => exact cell_protect exists_
  | safeWrite val => exact cell_safeWrite exists_ val
  | isProtected => exact cell_isProtected
  | attack _ | threadA | threadB | rogueC _ => cases admitted

/-- The flag tells the permission of both aliases. -/
structure FlagExact (perms : Permissions) : Prop where
  direct : perms.direct.writable = !perms.flag
  vmalloc : perms.vmalloc.writable = !perms.flag

/-- After successful changes of both aliases, both have the new permission. -/
theorem FlagExact.changed {calls : Call → Bool} {tid : Nat} {call : Call} {write flag : Bool}
    {perms perms₁ perms₂ : Permissions} {err₁ err₂ : Int} (exists_ : page.hasVmalloc = true)
    (shaped : perms.Shaped)
    (attempt₁ : Attempt (faultless calls) tid call .direct write perms err₁ perms₁)
    (attempt₂ : VmallocAttempt page (faultless calls) tid call write perms₁ err₂ perms₂)
    (flagIs : flag = !write)
    : FlagExact { perms₂ with flag } := by
  subst flagIs
  have first := attempt₁.succeeds.2
  have second := attempt₂.succeeds.2 exists_
  subst first second
  refine ⟨?_, ?_⟩
  · simpa [Permissions.attempt] using TablePath.writable_setWrite write shaped.direct
  · simpa [Permissions.attempt] using TablePath.writable_setWrite write shaped.vmalloc.mapped

theorem cell_keeps (exists_ : page.hasVmalloc = true)
    : Keeps page (faultless cellCalls) (fun _ perms => FlagExact perms)
        (fun _ perms => perms.direct.writable = true) where
  protect := by
    intro tid order perms perms₁ perms₂ err₁ err₂ shaped _ attempt₁ attempt₂
    exact FlagExact.changed exists_ shaped attempt₁ attempt₂
      (by simp [exists_, attempt₂.succeeds.1])
  unprotect := by
    intro tid order perms perms₁ perms₂ err₁ err₂ shaped _ attempt₁ attempt₂
    exact FlagExact.changed exists_ shaped attempt₁ attempt₂ rfl
  writeUnprotected := by
    intro _ _ _ _ _ _ exact_ cleared
    exact ⟨by rw [exact_.direct, cleared]; rfl, exact_⟩
  writeProtected := by
    intro val tid order perms perms₁ perms₂ err₁ err₂ _ shaped _ isSet attempt₁ attempt₂
    refine ⟨(FlagExact.changed exists_ shaped attempt₁ attempt₂ rfl).direct, ?_⟩
    intro perms₃ perms₄ err₃ err₄ attempt₃ attempt₄
    have same : perms₄.flag = true := by
      rw [attempt₄.flag, attempt₃.flag, attempt₂.flag, attempt₁.flag, isSet]
    have shaped₂ := attempt₂.shaped (attempt₁.shaped shaped)
    exact FlagExact.changed exists_ shaped₂ attempt₃ attempt₄ same
  threads := by
    intro tid order perms call admitted _ _ isThread
    rcases isThread with rfl | rfl <;> cases admitted

/-- What one execution of the interface looks like from outside: it linearizes to the cell,
in the order of mutex acquisition, ends in the cell's state, and between critical sections
the flag tells the permission of both aliases.
-/
structure RefinesCell (w : KernelWorld) : Prop where
  linearized : Linearized cell (false, safetySentinel) (marks w.history)
  placed : Throughout Placed (marks w.history)
  abstract
    : cell.replay (false, safetySentinel) (effects (marks w.history))
      = some (w.state.ctxProtected, w.state.word)
  order
    : ∃ waiting,
        acquisitions w.history = lockingEffects (effects (marks w.history)) ++ waiting
        ∧ waiting.length ≤ 1
        ∧ (w.state.safetyMutex = none → waiting = [])
  permissions
    : w.state.safetyMutex = none
      → (w.state.ctxProtected = true
          ↔ w.state.writable .direct = false ∧ w.state.writable .vmalloc = false)
        ∧ (w.state.ctxProtected = false
          ↔ w.state.writable .direct = true ∧ w.state.writable .vmalloc = true)

theorem CellInv.initially {k : State} (loaded : Loaded page k) : CellInv ⟨k, []⟩ := by
  have facts := loaded.facts
  have flag : k.ctxProtected = false := congrArg Permissions.flag facts.permissions
  refine ⟨loaded.shaped.vmalloc, fun tid => rfl, ?_, ?_⟩
  · simp [marks, effects, SequentialObject.replay, flag, facts.word]
  · simp [acquisitions, marks, effects, lockingEffects, pending, facts.mutex]

theorem FlagExact.initially {k : State} (loaded : Loaded page k) : FlagExact (.of k) := by
  rw [loaded.facts.permissions]
  exact ⟨page.direct_writable, page.vmalloc_writable⟩

theorem cell_respects : RespectsMutex (faultless cellCalls) := by
  intro tid attackMode admitted
  cases admitted

/-- No call traps: an authorized write always finds the direct alias writable. -/
theorem cell_alive {k : State} {c : KernelConfig} (exists_ : page.hasVmalloc = true)
    (loaded : Loaded page k)
    (reachable : (machine page).Reachable (faultless cellCalls) (Config.start k) c) (tid : Nat)
    : c.threads tid ≠ .dead := by
  have keeps := cell_keeps exists_
  have alive := (keeps.sound cell_respects).alive
    (keeps.reachable cell_respects loaded (FlagExact.initially loaded) ⟨[], rfl⟩) ?_ reachable
    tid
  · intro died
    rw [died] at alive
    exact alive
  · intro caller call operation choice w admitted asserted trapped
    obtain ⟨target, value, rfl⟩ := exec_fault trapped
    have writable : target = .direct ∧ (Permissions.of w.state).direct.writable = true := by
      cases call with
      | rogueC _ => cases admitted
      | _ => exact asserted
    obtain ⟨rfl, isOpen⟩ := writable
    have opened : w.state.writable .direct = true := isOpen
    simp [machine, exec, opened] at trapped

/-- With a `vmap` alias and every permission change succeeding, every execution of the
interface, by any number of threads, refines the abstract cell, and no call traps.
-/
theorem safetyMem_refines_cell {k : State} {c : KernelConfig}
    (exists_ : page.hasVmalloc = true) (loaded : Loaded page k)
    (reachable : (machine page).Reachable (faultless cellCalls) (Config.start k) c)
    : RefinesCell c.world ∧ ∀ tid, c.threads tid ≠ .dead := by
  have facts := loaded.facts
  have inv : CellInv c.world :=
    ((linearizing_sound exists_).reachable (Discipline.ConfigOk.start
      (CellInv.initially loaded) (fun tid => ⟨by simp [linearizing, facts.mutex], rfl⟩))
      reachable).inv
  have linearized : Linearized cell (false, safetySentinel) (marks c.world.history) :=
    ⟨inv.ordered, by simp [inv.abstract]⟩
  refine ⟨⟨linearized, linearized.placed, inv.abstract, ⟨pending c.world, inv.order, ?_, ?_⟩,
    ?_⟩, cell_alive exists_ loaded reachable⟩
  · unfold pending
    split
    · simp
    · split <;> simp
  · intro free
    simp [pending, free]
  · intro free
    obtain ⟨_, exact_⟩ := (cell_keeps exists_).good_of_free cell_respects loaded
      (FlagExact.initially loaded) reachable free
    have direct : c.world.state.writable .direct = !c.world.state.ctxProtected := exact_.direct
    have vmalloc : c.world.state.writable .vmalloc = !c.world.state.ctxProtected :=
      exact_.vmalloc
    rw [direct, vmalloc]
    cases c.world.state.ctxProtected <;> simp

/-- A query runs while protection is being enabled and takes effect before it; an authorized
write follows.
-/
theorem safetyMem_refines_cell_sample
    : ∃ c,
        (machine (samplePage true)).Reachable (faultless cellCalls)
          (Config.start (freshlyLoaded (samplePage true))) c
        ∧ effects (marks c.world.history)
          = [(2, .isProtected, 0), (0, .setProtection true, 0), (1, .safeWrite 7, 0)]
        ∧ RefinesCell c.world := by
  obtain ⟨c, reachable, seen⟩ := Machine.Reachable.observed
    (.call 0 (.setProtection true) :: List.replicate 4 (.step 0 {})
      ++ wholeCall 2 .isProtected [0]
      ++ List.replicate 6 (.step 0 {}) ++ [.ret 0]
      ++ wholeCall 1 (.safeWrite 7) (List.replicate 8 0))
    (fun c : KernelConfig => effects (marks c.world.history))
    (show (Machine.run (machine (samplePage true)) (faultless cellCalls)
      (Config.start (freshlyLoaded (samplePage true))) _).map _
        = some [(2, .isProtected, 0), (0, .setProtection true, 0), (1, .safeWrite 7, 0)]
      from rfl)
  exact ⟨c, reachable, seen, (safetyMem_refines_cell rfl
    (freshlyLoaded_loaded (samplePage true)) reachable).1⟩

end SafetyIsolation.Protection

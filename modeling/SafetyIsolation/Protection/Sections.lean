import SafetyIsolation.Interleaving.Mutex
import SafetyIsolation.Kernel.Loading

/-! Critical sections of `safety_mutex` as single steps of the page permissions.
A property of the permissions that every whole section keeps, in whatever pattern its
`set_memory_*` calls succeed or fail, holds whenever the mutex is free, in every
interleaving of the system.
-/

namespace SafetyIsolation.Protection

open SafetyIsolation.Interleaving SafetyIsolation.Kernel

/-- The caller that a recorded step made the owner of the mutex. -/
def acquired : KernelLabel → Option (Nat × Call)
  | .act tid call .mutexLock (some _) => some (tid, call)
  | .act tid call .mutexTrylock (some true) => some (tid, call)
  | _ => none

/-- Everyone who acquired the mutex, in order. -/
def acquisitions (history : List KernelLabel) : List (Nat × Call) :=
  history.filterMap acquired

theorem acquisitions_push (history : List KernelLabel) (label : KernelLabel)
    : acquisitions (history ++ [label]) = acquisitions history ++ (acquired label).toList := by
  unfold acquisitions
  rw [List.filterMap_append]
  cases h : acquired label <;> simp [h]

theorem acquired_quiet {tid : Nat} {call : Call} {operation : Op}
    {result : Option operation.Res} (quiet : operation.quiet = true)
    : acquired (.act tid call operation result) = none := by
  cases operation <;> first | rfl | cases quiet

-----------------------------------------------------------------------------------------
-- What the sections may do to the permissions
-----------------------------------------------------------------------------------------

/-- One `set_memory_*` call admitted by the policy, with its return code. -/
inductive Attempt (p : KernelPolicy) (tid : Nat) (call : Call) (target : Alias)
    (write : Bool)
    : Permissions → Int → Permissions → Prop where
  | intro (k : State) (choice : Choice)
    (admitted : p.steps tid call (.setMemory target write) choice k = true)
    : Attempt p tid call target write (.of k) choice.err
        ((Permissions.of k).attempt target write choice.err)

/-- The same for the `vmap` alias, which is skipped when it does not exist. -/
inductive VmallocAttempt (page : SafetyPage) (p : KernelPolicy) (tid : Nat) (call : Call)
    (write : Bool)
    : Permissions → Int → Permissions → Prop where
  | present {perms perms' : Permissions} {err : Int} (exists_ : page.hasVmalloc = true)
    (attempt : Attempt p tid call .vmalloc write perms err perms')
    : VmallocAttempt page p tid call write perms err perms'
  | absent {perms : Permissions} (missing : page.hasVmalloc = false)
    : VmallocAttempt page p tid call write perms 0 perms

/-- A successful protection of the `vmap` alias makes it read-only. -/
theorem VmallocAttempt.readOnly {page : SafetyPage} {p : KernelPolicy} {tid : Nat}
    {call : Call} {perms perms' : Permissions} {err : Int} (shaped : perms.Shaped)
    (h : VmallocAttempt page p tid call false perms err perms')
    (exists_ : page.hasVmalloc = true) (succeeded : err = 0)
    : perms'.vmalloc.writable = false := by
  cases h with
  | absent missing => simp [missing] at exists_
  | present _ attempt =>
      obtain ⟨k, choice, _⟩ := attempt
      simp only [Permissions.attempt, succeeded, if_true]
      exact TablePath.writable_setWrite false shaped.vmalloc.mapped

/-- A permission change of one alias keeps the shape of both. -/
theorem Attempt.shaped {p : KernelPolicy} {tid : Nat} {call : Call} {target : Alias}
    {write : Bool} {perms perms' : Permissions} {err : Int}
    (h : Attempt p tid call target write perms err perms') (shaped : perms.Shaped)
    : perms'.Shaped := by
  obtain ⟨k, choice, _⟩ := h
  exact shaped.attempt target write choice.err

theorem VmallocAttempt.shaped {page : SafetyPage} {p : KernelPolicy} {tid : Nat}
    {call : Call} {write : Bool} {perms perms' : Permissions} {err : Int}
    (h : VmallocAttempt page p tid call write perms err perms') (shaped : perms.Shaped)
    : perms'.Shaped := by
  cases h with
  | absent _ => exact shaped
  | present _ attempt => exact attempt.shaped shaped

theorem Attempt.flag {p : KernelPolicy} {tid : Nat} {call : Call} {target : Alias}
    {write : Bool} {perms perms' : Permissions} {err : Int}
    (h : Attempt p tid call target write perms err perms')
    : perms'.flag = perms.flag := by
  obtain ⟨k, choice, _⟩ := h
  exact Permissions.attempt_flag _ target write choice.err

theorem VmallocAttempt.flag {page : SafetyPage} {p : KernelPolicy} {tid : Nat} {call : Call}
    {write : Bool} {perms perms' : Permissions} {err : Int}
    (h : VmallocAttempt page p tid call write perms err perms')
    : perms'.flag = perms.flag := by
  cases h with
  | absent _ => rfl
  | present _ attempt => exact attempt.flag

/-- A change of the `vmap` alias leaves the direct one alone. -/
theorem VmallocAttempt.direct {page : SafetyPage} {p : KernelPolicy} {tid : Nat}
    {call : Call} {write : Bool} {perms perms' : Permissions} {err : Int}
    (h : VmallocAttempt page p tid call write perms err perms')
    : perms'.direct = perms.direct := by
  cases h with
  | absent _ => rfl
  | present _ attempt =>
      obtain ⟨k, choice, _⟩ := attempt
      unfold Permissions.attempt
      split <;> rfl

/-- The given calls by any thread, with every kernel call succeeding. -/
def faultless (calls : Call → Bool) : KernelPolicy where
  calls _ call := calls call
  steps _ _ _ choice _ := choice.err == 0

theorem Attempt.succeeds {calls : Call → Bool} {tid : Nat} {call : Call} {target : Alias}
    {write : Bool} {perms perms' : Permissions} {err : Int}
    (h : Attempt (faultless calls) tid call target write perms err perms')
    : err = 0 ∧ perms' = perms.attempt target write 0 := by
  obtain ⟨k, choice, admitted⟩ := h
  have succeeded : choice.err = 0 := by simpa [faultless] using admitted
  exact ⟨succeeded, by rw [succeeded]⟩

theorem VmallocAttempt.succeeds {page : SafetyPage} {calls : Call → Bool} {tid : Nat}
    {call : Call} {write : Bool} {perms perms' : Permissions} {err : Int}
    (h : VmallocAttempt page (faultless calls) tid call write perms err perms')
    : err = 0 ∧ (page.hasVmalloc = true → perms' = perms.attempt .vmalloc write 0) := by
  cases h with
  | absent missing => exact ⟨rfl, fun exists_ => by simp [missing] at exists_⟩
  | present _ attempt => exact ⟨attempt.succeeds.1, fun _ => attempt.succeeds.2⟩

/-- Every whole critical section keeps `good`, and what it stores through is `storable`
when it stores. The list is the acquisition order, the section's own entry last.
-/
structure Keeps (page : SafetyPage) (p : KernelPolicy)
    (good : List (Nat × Call) → Permissions → Prop)
    (storable : List (Nat × Call) → Permissions → Prop)
    : Prop where
  protect
    : ∀ {tid order perms perms₁ perms₂ err₁ err₂}, perms.Shaped → good order perms
        → Attempt p tid (.setProtection true) .direct false perms err₁ perms₁
        → VmallocAttempt page p tid (.setProtection true) false perms₁ err₂ perms₂
        → good (order ++ [(tid, .setProtection true)])
            { perms₂ with flag := page.hasVmalloc && err₂ == 0 }
  unprotect
    : ∀ {tid order perms perms₁ perms₂ err₁ err₂}, perms.Shaped → good order perms
        → Attempt p tid (.setProtection false) .direct true perms err₁ perms₁
        → VmallocAttempt page p tid (.setProtection false) true perms₁ err₂ perms₂
        → good (order ++ [(tid, .setProtection false)]) { perms₂ with flag := false }
  writeUnprotected
    : ∀ (val : UInt32) {tid order perms}, p.calls tid (.safeWrite val) = true
        → perms.Shaped → good order perms → perms.flag = false
        → storable (order ++ [(tid, .safeWrite val)]) perms
          ∧ good (order ++ [(tid, .safeWrite val)]) perms
  writeProtected
    : ∀ (val : UInt32) {tid order perms perms₁ perms₂ err₁ err₂},
        p.calls tid (.safeWrite val) = true
        → perms.Shaped → good order perms → perms.flag = true
        → Attempt p tid (.safeWrite val) .direct true perms err₁ perms₁
        → VmallocAttempt page p tid (.safeWrite val) true perms₁ err₂ perms₂
        → storable (order ++ [(tid, .safeWrite val)]) perms₂
          ∧ ∀ {perms₃ perms₄ err₃ err₄},
              Attempt p tid (.safeWrite val) .direct false perms₂ err₃ perms₃
              → VmallocAttempt page p tid (.safeWrite val) false perms₃ err₄ perms₄
              → good (order ++ [(tid, .safeWrite val)]) perms₄
  threads
    : ∀ {tid order perms call}, p.calls tid call = true → perms.Shaped → good order perms
        → call = .threadA ∨ call = .threadB
        → storable (order ++ [(tid, call)]) perms ∧ good (order ++ [(tid, call)]) perms

-----------------------------------------------------------------------------------------
-- The discipline
-----------------------------------------------------------------------------------------

/-- Between sections the permissions are `good`; inside, the owner's stores meet
`storable`. An unsynchronized store of the rogue thread promises nothing.
-/
def sections (good storable : List (Nat × Call) → Permissions → Prop)
    : LockDiscipline State Nat Call Int Op Op.Res (List (Nat × Call) × Permissions) Unit
    where
  owner := State.safetyMutex
  held w := (acquisitions w.history, .of w.state)
  own _ _ := ()
  inv w :=
    (Permissions.of w.state).Shaped
    ∧ w.state.safetyBufPtr = some .direct
    ∧ (w.state.safetyMutex = none
      → good (acquisitions w.history) (.of w.state))
  rest _ := True
  asserts _ call operation w :=
    match call, operation with
    | .rogueC _, _ => True
    | _, .store target _ =>
        target = .direct ∧ storable (acquisitions w.history) (.of w.state)
    | _, _ => True

variable {page : SafetyPage} {p : KernelPolicy}
  {good storable : List (Nat × Call) → Permissions → Prop} {tid : Nat} {call : Call}
  {order : List (Nat × Call)} {perms : Permissions} {α : Type}
  {post : α → KernelWorld → Prop}

/-- An operation inside a section that keeps the mutex. Nothing has to be shown about the
invariant, since the section is still open.
-/
theorem inside_op {operation : Op} {next : operation.Res → Kern α}
    (unlabelled : ∀ result, acquired (.act tid call operation result) = none)
    (asserted
      : ∀ w, acquisitions w.history = order → Permissions.of w.state = perms
          → (sections good storable).asserts tid call operation w)
    (continues
      : ∀ k choice result k', Permissions.of k = perms → k.safetyBufPtr = some .direct
          → p.steps tid call operation choice k = true
          → exec page tid choice operation k = .done result k'
          → k'.safetyMutex = k.safetyMutex
            ∧ k'.safetyBufPtr = k.safetyBufPtr
            ∧ (perms.Shaped → (Permissions.of k').Shaped)
            ∧ (sections good storable).Inside (machine page) p tid call (next result)
                (order, .of k') () post)
    : (sections good storable).Inside (machine page) p tid call (.act operation next)
        (order, perms) () post := by
  apply LockDiscipline.Inside.act
  intro w owns heldIs _ inv
  obtain ⟨shaped, bufPtr, _⟩ := inv
  obtain ⟨orderIs, permsIs⟩ := Prod.mk.inj heldIs
  refine ⟨asserted w orderIs permsIs, ?_⟩
  intro choice admitted
  have owned : ∀ k : State, k.safetyMutex = some tid → k.safetyMutex ≠ none := by
    intro k mine
    simp [mine]
  cases executed : exec page tid choice operation w.state with
  | done result k =>
      obtain ⟨mutex, bufSame, shapedSame, inside⟩ :=
        continues w.state choice result k permsIs bufPtr admitted executed
      have keeps : k.safetyMutex = some tid := mutex.trans owns
      simp only [machine, executed]
      refine ⟨⟨shapedSame (permsIs ▸ shaped), bufSame.trans bufPtr,
        fun released => absurd released (owned k keeps)⟩, fun _ _ => trivial,
        Or.inl ⟨keeps, ?_⟩⟩
      have held : (sections good storable).held
          (w.push k (.act tid call operation (some result))) = (order, .of k) := by
        refine Prod.ext ?_ rfl
        simp only [sections, World.push_history, acquisitions_push, unlabelled, orderIs]
        simp
      rw [held]
      exact inside
  | wait => simp [machine, executed]
  | fault =>
      simp only [machine, executed]
      exact ⟨⟨shaped, bufPtr, fun released => absurd released (owned w.state owns)⟩,
        fun _ _ => trivial⟩

/-- A quiet operation inside a section leaves the permissions as they were. -/
theorem inside_quiet {operation : Op} {next : operation.Res → Kern α}
    (quiet : operation.quiet = true)
    (asserted
      : ∀ w, acquisitions w.history = order → Permissions.of w.state = perms
          → (sections good storable).asserts tid call operation w)
    (continues
      : ∀ k choice result k', Permissions.of k = perms → k.safetyBufPtr = some .direct
          → exec page tid choice operation k = .done result k'
          → (sections good storable).Inside (machine page) p tid call (next result)
              (order, perms) () post)
    : (sections good storable).Inside (machine page) p tid call (.act operation next)
        (order, perms) () post := by
  refine inside_op (fun _ => acquired_quiet quiet) asserted ?_
  intro k choice result k' permsIs bufPtr _ executed
  obtain ⟨mutex, permsSame, bufSame⟩ := exec_quiet quiet executed
  refine ⟨mutex, bufSame, ?_, ?_⟩
  · rw [permsSame, permsIs]
    exact id
  · rw [permsSame, permsIs]
    exact continues k choice result k' permsIs bufPtr executed

/-- A permission change inside a section, with either outcome. -/
theorem inside_setMemory {target : Alias} {write : Bool} {next : Int → Kern α}
    (continues
      : ∀ {err perms'}, Attempt p tid call target write perms err perms'
          → (sections good storable).Inside (machine page) p tid call (next err)
              (order, perms') () post)
    : (sections good storable).Inside (machine page) p tid call
        (.act (.setMemory target write) next) (order, perms) () post := by
  refine inside_op (fun _ => rfl) (fun w _ _ => by cases call <;> trivial) ?_
  intro k choice result k' permsIs _ admitted executed
  have attempt := Attempt.intro k choice admitted
  rw [permsIs] at attempt
  have inside := continues attempt
  simp only [exec] at executed
  split at executed
  · rename_i succeeded
    cases executed
    have effect : Permissions.of (k.setWrite target write)
        = perms.attempt target write choice.err := by
      rw [← permsIs]
      cases target <;> simp [Permissions.of, Permissions.attempt, State.setWrite, succeeded]
    rw [effect]
    refine ⟨by cases target <;> rfl, by cases target <;> rfl, ?_, ?_⟩
    · exact fun shaped => shaped.attempt target write choice.err
    · rw [succeeded] at inside ⊢
      exact inside
  · rename_i failed
    cases executed
    have effect : Permissions.of k = perms.attempt target write choice.err := by
      simp [permsIs, Permissions.attempt, failed]
    refine ⟨rfl, rfl, fun shaped => permsIs ▸ shaped, ?_⟩
    rw [effect]
    exact inside

/-- Publishing the flag. -/
theorem inside_setFlag {on : Bool} {next : Unit → Kern α}
    (continues
      : (sections good storable).Inside (machine page) p tid call (next ())
          (order, { perms with flag := on }) () post)
    : (sections good storable).Inside (machine page) p tid call
        (.act (.setCtxProtected on) next) (order, perms) () post := by
  refine inside_op (fun _ => rfl) (fun w _ _ => by cases call <;> trivial) ?_
  intro k choice result k' permsIs _ _ executed
  cases executed
  have effect : Permissions.of { k with ctxProtected := on } = { perms with flag := on } := by
    rw [← permsIs]
    rfl
  rw [effect]
  exact ⟨rfl, rfl, fun shaped => ⟨shaped.direct, shaped.vmalloc⟩, continues⟩

/-- Leaving a section with good permissions. -/
theorem inside_unlock {next : Unit → Kern α} (result : perms.Shaped → good order perms)
    (continues
      : (sections good storable).Outside (machine page) p tid call (next ()) () post)
    : (sections good storable).Inside (machine page) p tid call (.act .mutexUnlock next)
        (order, perms) () post := by
  apply LockDiscipline.Inside.act
  intro w _ heldIs _ inv
  obtain ⟨shaped, bufPtr, _⟩ := inv
  obtain ⟨orderIs, permsIs⟩ := Prod.mk.inj heldIs
  refine ⟨by cases call <;> trivial, ?_⟩
  intro choice _
  refine ⟨⟨shaped, bufPtr, ?_⟩, fun _ _ => rfl, Or.inr ⟨rfl, continues⟩⟩
  intro _
  have goodNow := result (permsIs ▸ shaped)
  have label : acquisitions (w.history ++ [.act tid call .mutexUnlock (some ())]) = order := by
    simp [acquisitions_push, acquired, orderIs]
  rw [← label, ← permsIs] at goodNow
  exact goodNow

/-- The held part of whoever has just acquired the mutex. -/
theorem held_acquired (w : KernelWorld) (label : KernelLabel)
    (acquires : acquired label = some (tid, call))
    : (sections good storable).held (w.push { w.state with safetyMutex := some tid } label)
      = (acquisitions w.history ++ [(tid, call)], .of w.state) := by
  refine Prod.ext ?_ rfl
  simp [sections, acquisitions_push, acquires]

/-- Entering a section. -/
theorem outside_lock {next : Unit → Kern α}
    (continues
      : ∀ {order perms}, perms.Shaped → good order perms
          → (sections good storable).Inside (machine page) p tid call (next ())
              (order ++ [(tid, call)], perms) () post)
    : (sections good storable).Outside (machine page) p tid call (.act .mutexLock next) ()
        post := by
  apply LockDiscipline.Outside.act
  intro w _ _ inv
  obtain ⟨shaped, bufPtr, free⟩ := inv
  refine ⟨by cases call <;> trivial, ?_⟩
  intro choice _
  simp only [machine, exec]
  by_cases unowned : w.state.safetyMutex = none
  · simp only [unowned, if_true]
    refine ⟨⟨shaped, bufPtr, fun released => by simp at released⟩, fun _ _ => trivial,
      Or.inr ⟨unowned, rfl, ?_⟩⟩
    rw [held_acquired w _ rfl]
    exact continues shaped (free unowned)
  · simp [unowned]

/-- Trying for the mutex: a section begins, or nothing happens. -/
theorem outside_trylock {next : Bool → Kern α}
    (acquires
      : ∀ {order perms}, perms.Shaped → good order perms
          → (sections good storable).Inside (machine page) p tid call (next true)
              (order ++ [(tid, call)], perms) () post)
    (fails : (sections good storable).Outside (machine page) p tid call (next false) () post)
    : (sections good storable).Outside (machine page) p tid call (.act .mutexTrylock next) ()
        post := by
  apply LockDiscipline.Outside.act
  intro w _ _ inv
  obtain ⟨shaped, bufPtr, free⟩ := inv
  refine ⟨by cases call <;> trivial, ?_⟩
  intro choice _
  simp only [machine, exec]
  by_cases unowned : w.state.safetyMutex = none
  · simp only [unowned, if_true]
    refine ⟨⟨shaped, bufPtr, fun released => by simp at released⟩, fun _ _ => trivial,
      Or.inr ⟨unowned, rfl, ?_⟩⟩
    rw [held_acquired w _ rfl]
    exact acquires shaped (free unowned)
  · simp only [unowned, if_false]
    have label : acquisitions (w.history ++ [.act tid call .mutexTrylock (some false)])
        = acquisitions w.history := by
      simp [acquisitions_push, acquired]
    exact ⟨⟨shaped, bufPtr, fun released => absurd released unowned⟩, fun _ _ => trivial,
      Or.inl ⟨trivial, Prod.ext label rfl, fails⟩⟩

/-- A quiet operation outside a section. -/
theorem outside_step {operation : Op} {next : operation.Res → Kern α}
    (quiet : operation.quiet = true)
    (asserted : ∀ w, (sections good storable).asserts tid call operation w)
    (continues
      : ∀ result, (sections good storable).Outside (machine page) p tid call (next result) ()
          post)
    : (sections good storable).Outside (machine page) p tid call (.act operation next) ()
        post := by
  apply LockDiscipline.Outside.act
  intro w _ _ inv
  obtain ⟨shaped, bufPtr, goodFree⟩ := inv
  refine ⟨asserted w, ?_⟩
  intro choice _
  have label {result : Option operation.Res}
      : acquisitions (w.history ++ [.act tid call operation result])
        = acquisitions w.history := by
    simp [acquisitions_push, acquired_quiet quiet]
  cases executed : exec page tid choice operation w.state with
  | done result k =>
      obtain ⟨mutex, permsSame, bufSame⟩ := exec_quiet quiet executed
      simp only [machine, executed]
      refine ⟨⟨permsSame ▸ shaped, bufSame.trans bufPtr, ?_⟩, fun _ _ => trivial,
        Or.inl ⟨mutex, Prod.ext label permsSame, continues result⟩⟩
      intro released
      rw [World.push_history, World.push_state, label, permsSame]
      exact goodFree (mutex.symm.trans released)
  | wait => simp [machine, executed]
  | fault =>
      simp only [machine, executed]
      refine ⟨⟨shaped, bufPtr, ?_⟩, fun _ _ => trivial, Prod.ext label rfl⟩
      intro released
      rw [World.push_history, World.push_state, label]
      exact goodFree released

/-- Returning from a call outside a section. -/
theorem outside_return {value : Int}
    : (sections good storable).Outside (machine page) p tid call (.ret value) ()
        ((sections good storable).discipline.Returns tid call) := by
  apply LockDiscipline.Outside.ret
  intro w free _ inv
  obtain ⟨shaped, bufPtr, goodFree⟩ := inv
  have same : acquisitions (w.history ++ [.ret tid call value]) = acquisitions w.history := by
    simp [acquisitions_push, acquired]
  refine ⟨LockDiscipline.moves_intro ⟨shaped, bufPtr, ?_⟩ (fun _ _ => rfl)
    (Or.inl ⟨rfl, Prod.ext same rfl⟩), free, trivial⟩
  intro released
  simpa only [World.push_state, World.push_history, same] using goodFree released

/-- Code that performs only quiet operations outside a section, by program induction. -/
theorem outside_quiet {prog : Kern Int}
    (all
      : prog.All (fun operation =>
          operation.quiet = true
          ∧ ∀ w, (sections good storable).asserts tid call operation w))
    : (sections good storable).Outside (machine page) p tid call prog ()
        ((sections good storable).discipline.Returns tid call) := by
  induction prog with
  | ret value => exact outside_return
  | act operation next ih =>
      obtain ⟨⟨quiet, asserted⟩, rest⟩ := all
      exact outside_step quiet asserted (fun result => ih result (rest result))

-----------------------------------------------------------------------------------------
-- Each call, against the discipline
-----------------------------------------------------------------------------------------

/-- The flag written after a protection attempt says whether the `vmap` alias exists and
its change succeeded: the walk of a page mapping sees the new permission, and the walk of
the null address sees nothing.
-/
theorem verifiedReadOnly_eq {perms₁ perms₂ : Permissions} {err : Int} {choice : Choice}
    {k k' : State} {mapping : WalkInfo} (shaped : perms₁.Shaped)
    (attempt : VmallocAttempt page p tid call false perms₁ err perms₂)
    (permsIs : Permissions.of k = perms₂)
    (walked : exec page tid choice (.walkPgtable page.vmallocPtr) k = .done mapping k')
    : verifiedReadOnly err mapping = (page.hasVmalloc && err == 0) := by
  have isPage : k.vmalloc.IsPage := by
    have shaped₂ := attempt.shaped shaped
    rw [← permsIs] at shaped₂
    exact shaped₂.vmalloc
  rw [verifiedReadOnly_walk err isPage walked]
  cases exists_ : page.hasVmalloc with
  | false => rfl
  | true =>
      by_cases succeeded : err = 0
      · have readOnly := attempt.readOnly shaped exists_ succeeded
        rw [← permsIs] at readOnly
        have readOnly' : k.writable .vmalloc = false := readOnly
        simp [readOnly']
      · have failed : (err == 0) = false := by simpa using succeeded
        simp [failed]

/-- A permission change of the `vmap` alias inside a section, or no change without one. -/
theorem inside_onVmalloc {write : Bool} {next : Int → Kern α}
    (continues
      : ∀ {err perms'}, VmallocAttempt page p tid call write perms err perms'
          → (sections good storable).Inside (machine page) p tid call (next err)
              (order, perms') () post)
    : (sections good storable).Inside (machine page) p tid call (onVmalloc page write next)
        (order, perms) () post := by
  unfold onVmalloc
  cases exists_ : page.hasVmalloc with
  | true => exact inside_setMemory (fun attempt => continues (.present exists_ attempt))
  | false => exact continues (.absent exists_)

/-- The end of `safety_mem_set_protection`. -/
theorem inside_setProtection_end {retVirt retVmalloc : Int} {enable : Bool}
    (result : perms.Shaped → good order perms)
    : (sections good storable).Inside (machine page) p tid (.setProtection enable)
        (.act .mutexUnlock (fun _ => walkAndReturn page retVirt retVmalloc))
        (order, perms) ()
        ((sections good storable).discipline.Returns tid (.setProtection enable)) := by
  refine inside_unlock result (outside_quiet ?_)
  exact ⟨⟨rfl, fun _ => trivial⟩, fun _ => ⟨⟨rfl, fun _ => trivial⟩, fun _ => trivial⟩⟩

/-- The end of a section that returns zero. -/
theorem inside_unlock_return (result : perms.Shaped → good order perms)
    : (sections good storable).Inside (machine page) p tid call
        (.act .mutexUnlock (fun _ => .ret 0)) (order, perms) ()
        ((sections good storable).discipline.Returns tid call) :=
  inside_unlock result (outside_quiet trivial)

theorem protect_outside (keeps : Keeps page p good storable)
    : (sections good storable).Outside (machine page) p tid (.setProtection true)
        (safetyMemSetProtection page true) ()
        ((sections good storable).discipline.Returns tid (.setProtection true)) := by
  rw [safetyMemSetProtection_true]
  refine outside_lock (fun {_ perms₀} shaped goodPerms => ?_)
  refine inside_quiet rfl (fun _ _ _ => trivial) (fun _ _ _ _ _ _ _ => ?_)
  refine inside_setMemory (fun {_ perms₁} attempt₁ => ?_)
  have shaped₁ : perms₁.Shaped := by
    obtain ⟨k, choice, _⟩ := attempt₁
    exact shaped.attempt _ _ _
  refine inside_onVmalloc (fun attempt₂ => ?_)
  refine inside_quiet rfl (fun _ _ _ => trivial) (fun _ _ _ _ _ _ _ => ?_)
  refine inside_quiet rfl (fun _ _ _ => trivial) (fun _ _ mapping _ permsIs _ walked => ?_)
  refine inside_setFlag (inside_setProtection_end (fun _ => ?_))
  rw [verifiedReadOnly_eq shaped₁ attempt₂ permsIs walked]
  exact keeps.protect shaped goodPerms attempt₁ attempt₂

theorem unprotect_outside (keeps : Keeps page p good storable)
    : (sections good storable).Outside (machine page) p tid (.setProtection false)
        (safetyMemSetProtection page false) ()
        ((sections good storable).discipline.Returns tid (.setProtection false)) := by
  rw [safetyMemSetProtection_false]
  refine outside_lock (fun shaped goodPerms => ?_)
  refine inside_quiet rfl (fun _ _ _ => trivial) (fun _ _ _ _ _ _ _ => ?_)
  refine inside_setMemory (fun attempt₁ => ?_)
  refine inside_onVmalloc (fun attempt₂ => ?_)
  refine inside_setFlag (inside_setProtection_end (fun _ => ?_))
  exact keeps.unprotect shaped goodPerms attempt₁ attempt₂

theorem safeWrite_outside (keeps : Keeps page p good storable) (val : UInt32)
    (admitted : p.calls tid (.safeWrite val) = true)
    : (sections good storable).Outside (machine page) p tid (.safeWrite val)
        (safetyMemSafeWrite page val) ()
        ((sections good storable).discipline.Returns tid (.safeWrite val)) := by
  rw [safetyMemSafeWrite_eq]
  refine outside_lock (fun {_ perms₀} shaped goodPerms => ?_)
  refine inside_quiet rfl (fun _ _ _ => trivial) (fun k _ wasRo _ permsIs _ read => ?_)
  have flagIs : perms₀.flag = wasRo := by
    rw [← permsIs]
    cases read
    rfl
  cases wasRo with
  | false =>
      obtain ⟨storableNow, goodAfter⟩ :=
        keeps.writeUnprotected val admitted shaped goodPerms flagIs
      refine inside_quiet rfl ?_ (fun _ _ _ _ _ _ _ => ?_)
      · intro w orderIs permsIs
        simpa only [sections, orderIs, permsIs, true_and] using storableNow
      · exact inside_unlock_return (fun _ => goodAfter)
  | true =>
      refine inside_setMemory (fun attempt₁ => ?_)
      refine inside_onVmalloc (fun attempt₂ => ?_)
      obtain ⟨storableNow, goodAfter⟩ :=
        keeps.writeProtected val admitted shaped goodPerms flagIs attempt₁ attempt₂
      refine inside_quiet rfl ?_ (fun _ _ _ _ _ _ _ => ?_)
      · intro w orderIs permsIs
        simpa only [sections, orderIs, permsIs, true_and] using storableNow
      · refine inside_setMemory (fun attempt₃ => ?_)
        refine inside_onVmalloc (fun attempt₄ => ?_)
        exact inside_unlock_return (fun _ => goodAfter attempt₃ attempt₄)

theorem threadB_outside (keeps : Keeps page p good storable)
    (admitted : p.calls tid .threadB = true)
    : (sections good storable).Outside (machine page) p tid .threadB coopThreadBFn ()
        ((sections good storable).discipline.Returns tid .threadB) := by
  rw [coopThreadBFn_eq]
  refine outside_lock (fun shaped goodPerms => ?_)
  obtain ⟨storableNow, goodAfter⟩ := keeps.threads admitted shaped goodPerms (Or.inr rfl)
  refine inside_quiet rfl (fun _ _ _ => trivial) (fun k _ ptr _ _ bufPtr read => ?_)
  have ptrIs : ptr = some .direct := by
    cases read
    exact bufPtr
  subst ptrIs
  refine inside_quiet rfl ?_ (fun _ _ _ _ _ _ _ => ?_)
  · intro w orderIs permsIs
    simpa only [sections, orderIs, permsIs, true_and] using storableNow
  · exact inside_unlock_return (fun _ => goodAfter)

/-- Thread A's section only reads and counts. -/
theorem inside_holdWindow (result : perms.Shaped → good order perms)
    : (sections good storable).Inside (machine page) p tid .threadA holdWindow
        (order, perms) ()
        ((sections good storable).discipline.Returns tid .threadA) := by
  have readWord {next : UInt32 → Kern Int}
      (continues
        : ∀ value, (sections good storable).Inside (machine page) p tid .threadA (next value)
            (order, perms) ()
            ((sections good storable).discipline.Returns tid .threadA))
      : (sections good storable).Inside (machine page) p tid .threadA (withSafetyBuf next)
          (order, perms) ()
          ((sections good storable).discipline.Returns tid .threadA) := by
    refine inside_quiet rfl (fun _ _ _ => trivial) (fun _ _ ptr _ _ _ _ => ?_)
    cases ptr with
    | none => exact continues 0
    | some ptr =>
        exact inside_quiet rfl (fun _ _ _ => trivial) (fun _ _ value _ _ _ _ => continues value)
  refine readWord (fun initialVal => readWord (fun currentVal => ?_))
  split
  · refine inside_quiet rfl (fun _ _ _ => trivial) (fun _ _ _ _ _ _ _ => ?_)
    refine inside_quiet rfl (fun _ _ _ => trivial) (fun _ _ _ _ _ _ _ => ?_)
    exact inside_unlock_return result
  · exact inside_unlock_return result

theorem threadA_outside (keeps : Keeps page p good storable)
    (admitted : p.calls tid .threadA = true)
    : (sections good storable).Outside (machine page) p tid .threadA safetyThreadAFn ()
        ((sections good storable).discipline.Returns tid .threadA) := by
  have window {order : List (Nat × Call)} {perms : Permissions} (shaped : perms.Shaped)
      (goodPerms : good order perms)
      : (sections good storable).Inside (machine page) p tid .threadA holdWindow
          (order ++ [(tid, .threadA)], perms) ()
          ((sections good storable).discipline.Returns tid .threadA) :=
    inside_holdWindow (fun _ => (keeps.threads admitted shaped goodPerms (Or.inl rfl)).2)
  rw [safetyThreadAFn_eq]
  apply outside_trylock
  · exact fun shaped goodPerms => window shaped goodPerms
  · refine outside_step rfl (fun _ => trivial) (fun value => ?_)
    refine outside_step rfl (fun _ => trivial) (fun _ => ?_)
    exact outside_lock (fun shaped goodPerms => window shaped goodPerms)

-----------------------------------------------------------------------------------------
-- Every interleaving
-----------------------------------------------------------------------------------------

/-- No admitted call tampers with the mutex itself. -/
def RespectsMutex (p : KernelPolicy) : Prop :=
  ∀ tid attackMode, p.calls tid (.rogueC attackMode) = true
    → attackMode ≠ rogueAttackMutexMetadata

/-- Sections that keep `good` make a sound discipline, one case for each entry point. -/
theorem Keeps.sound (keeps : Keeps page p good storable) (respects : RespectsMutex p)
    : (sections good storable).discipline.Sound (machine page) p := by
  intro tid call w admitted inv atRest
  obtain ⟨shaped, bufPtr, goodFree⟩ := inv
  obtain ⟨free, _⟩ := atRest
  have same : acquisitions (w.history ++ [.call tid call]) = acquisitions w.history := by
    simp [acquisitions_push, acquired]
  refine ⟨LockDiscipline.moves_intro ⟨shaped, bufPtr, ?_⟩ (fun _ _ => rfl)
    (Or.inl ⟨rfl, Prod.ext same rfl⟩), ?_⟩
  · intro released
    simpa only [World.push_state, World.push_history, same] using goodFree released
  refine (?_ : (sections good storable).Outside (machine page) p tid call
    ((machine page).body call) () _) _ free rfl
  cases call with
  | setProtection enable =>
      cases enable with
      | false => exact unprotect_outside keeps
      | true => exact protect_outside keeps
  | safeWrite val => exact safeWrite_outside keeps val admitted
  | isProtected => exact outside_quiet ⟨⟨rfl, fun _ => trivial⟩, fun _ => trivial⟩
  | attack mode =>
      refine outside_quiet ((executeAttack_ops page mode).imp ?_)
      intro operation performed
      rcases performed with silent | rfl
      · refine ⟨Op.quiet_of_silent silent, fun w => ?_⟩
        cases operation <;> trivial
      · exact ⟨rfl, fun _ => trivial⟩
  | threadA => exact threadA_outside keeps admitted
  | threadB => exact threadB_outside keeps admitted
  | rogueC attackMode =>
      refine outside_quiet ((rogueThreadCFn_ops (respects tid attackMode admitted)).imp ?_)
      intro operation performed
      rcases performed with silent | ⟨target, value, rfl⟩
      · exact ⟨Op.quiet_of_silent silent, fun _ => trivial⟩
      · exact ⟨rfl, fun _ => trivial⟩

/-- Every configuration reached after loading the module is verified. -/
theorem Keeps.reachable (keeps : Keeps page p good storable) (respects : RespectsMutex p)
    {k : State} {c : KernelConfig} (loaded : Loaded page k) (initially : good [] (.of k))
    (h : (machine page).Reachable p (Config.start k) c)
    : (sections good storable).discipline.ConfigOk (machine page) p c := by
  have facts := loaded.facts
  refine (keeps.sound respects).reachable (Discipline.ConfigOk.start ?_ ?_) h
  · exact ⟨loaded.shaped, facts.bufPtr, fun _ => initially⟩
  · intro tid
    refine ⟨?_, trivial⟩
    simp [sections, facts.mutex]

/-- Between sections the permissions are good. -/
theorem Keeps.good_of_free (keeps : Keeps page p good storable)
    (respects : RespectsMutex p) {k : State} {c : KernelConfig} (loaded : Loaded page k)
    (initially : good [] (.of k)) (h : (machine page).Reachable p (Config.start k) c)
    (free : c.world.state.safetyMutex = none)
    : (Permissions.of c.world.state).Shaped
      ∧ good (acquisitions c.world.history) (.of c.world.state) :=
  let inv := (keeps.reachable respects loaded initially h).inv
  ⟨inv.1, inv.2.2 free⟩

/-- Every call that leaves the mutex itself alone, with every outcome of kernel calls. -/
def untampered : KernelPolicy where
  calls _ call :=
    match call with
    | .rogueC attackMode => attackMode != rogueAttackMutexMetadata
    | _ => true
  steps _ _ _ _ _ := true

theorem untampered_respects : RespectsMutex untampered := by
  intro tid attackMode admitted
  simpa [untampered] using admitted

/-- Whatever happens, both mappings keep their shape. -/
theorem shaped_of_reachable {k : State} {c : KernelConfig} (loaded : Loaded page k)
    (h : (machine page).Reachable untampered (Config.start k) c)
    : (Permissions.of c.world.state).Shaped := by
  have keeps : Keeps page untampered (fun _ _ => True) (fun _ _ => True) := by
    constructor <;> intros <;> simp
  exact (keeps.reachable untampered_respects loaded trivial h).inv.1

end SafetyIsolation.Protection

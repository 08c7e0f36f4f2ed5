import SafetyIsolation.Protection.FlagTruth

/-! When code without the mutex can believe the protection flag.
A set flag means a read-only `vmap` alias at every moment, unless a call that opens the alias
is inside its critical section. Only `safety_mem_set_protection(false)` clears the flag.
-/

namespace SafetyIsolation.Protection

open SafetyIsolation.Interleaving SafetyIsolation.Kernel

/-- The calls that make the `vmap` alias writable. -/
def opens : Call → Bool
  | .setProtection enable => !enable
  | .safeWrite _ => true
  | _ => false

/-- The thread inside the critical section and its call: the owner of the mutex is the last
one to acquire it.
-/
def holder (w : KernelWorld) : Option (Nat × Call) :=
  if w.state.safetyMutex.isSome then (acquisitions w.history).getLast? else none

/-- The flag is true to the alias, or an opening call is inside. -/
def Observed (page : SafetyPage) (w : KernelWorld) : Prop :=
  (∃ tid call, holder w = some (tid, call) ∧ opens call = true)
  ∨ FlagTruthful page (.of w.state)

/-- The flag is true to the alias at every moment of a call that does not open it. -/
def Visible (page : SafetyPage) (call : Call) (perms : Permissions) : Prop :=
  opens call = true ∨ FlagTruthful page perms

def observed (page : SafetyPage)
    : LockDiscipline State Nat Call Int Op Op.Res (List (Nat × Call) × Permissions) Unit
    where
  owner := State.safetyMutex
  held w := (acquisitions w.history, .of w.state)
  own _ _ := ()
  inv w := (Permissions.of w.state).Shaped ∧ Observed page w
  rest _ := True
  asserts tid _ operation w :=
    match operation with
    | .setCtxProtected on => on = true ∨ holder w = some (tid, .setProtection false)
    | _ => True

theorem holder_inside {w : KernelWorld} {tid : Nat} {call : Call} {earlier : List (Nat × Call)}
    (owns : w.state.safetyMutex = some tid)
    (order : acquisitions w.history = earlier ++ [(tid, call)])
    : holder w = some (tid, call) := by
  simp [holder, owns, order]

theorem holder_free {w : KernelWorld} (free : w.state.safetyMutex = none) : holder w = none := by
  simp [holder, free]

/-- A step that acquires nothing and leaves the mutex alone. -/
theorem holder_push {w : KernelWorld} {k : State} {label : KernelLabel}
    (mutex : k.safetyMutex = w.state.safetyMutex) (unlabelled : acquired label = none)
    : holder (w.push k label) = holder w := by
  simp [holder, mutex, acquisitions_push, unlabelled]

theorem Observed.push {page : SafetyPage} {w : KernelWorld} {k : State} {label : KernelLabel}
    (h : Observed page w) (mutex : k.safetyMutex = w.state.safetyMutex)
    (perms : Permissions.of k = .of w.state) (unlabelled : acquired label = none)
    : Observed page (w.push k label) := by
  rw [Observed, holder_push mutex unlabelled, World.push_state, perms]
  exact h

variable {page : SafetyPage} {p : KernelPolicy} {tid : Nat} {call : Call}
  {earlier : List (Nat × Call)} {perms : Permissions} {α : Type}
  {post : α → KernelWorld → Prop}

-----------------------------------------------------------------------------------------
-- Inside
-----------------------------------------------------------------------------------------

/-- An operation inside a section that keeps the mutex. -/
theorem observed_op {operation : Op} {next : operation.Res → Kern α}
    (visible : Visible page call perms)
    (unlabelled : ∀ result, acquired (.act tid call operation result) = none)
    (asserted
      : ∀ w, holder w = some (tid, call) → (observed page).asserts tid call operation w)
    (continues
      : ∀ k choice result k', Permissions.of k = perms → perms.Shaped
          → p.steps tid call operation choice k = true
          → exec page tid choice operation k = .done result k'
          → k'.safetyMutex = k.safetyMutex
            ∧ (Permissions.of k').Shaped
            ∧ Visible page call (.of k')
            ∧ (observed page).Inside (machine page) p tid call (next result)
                (earlier ++ [(tid, call)], .of k') () post)
    : (observed page).Inside (machine page) p tid call (.act operation next)
        (earlier ++ [(tid, call)], perms) () post := by
  apply LockDiscipline.Inside.act
  intro w owns heldIs _ inv
  obtain ⟨shaped, _⟩ := inv
  obtain ⟨orderIs, permsIs⟩ := Prod.mk.inj heldIs
  have inside := holder_inside owns orderIs
  have seen {w' : KernelWorld} (isHolder : holder w' = some (tid, call))
      (visible : Visible page call (.of w'.state))
      : Observed page w' := by
    rcases visible with opening | truthful
    · exact Or.inl ⟨tid, call, isHolder, opening⟩
    · exact Or.inr truthful
  refine ⟨asserted w inside, ?_⟩
  intro choice admitted
  cases executed : exec page tid choice operation w.state with
  | done result k =>
      obtain ⟨mutex, shaped', visible', rest⟩ :=
        continues w.state choice result k permsIs (permsIs ▸ shaped) admitted executed
      have isHolder := (holder_push mutex (unlabelled (some result))).trans inside
      simp only [machine, executed]
      refine ⟨⟨shaped', seen isHolder visible'⟩, fun _ _ => trivial,
        Or.inl ⟨mutex.trans owns, ?_⟩⟩
      have held : (observed page).held (w.push k (.act tid call operation (some result)))
          = (earlier ++ [(tid, call)], .of k) := by
        refine Prod.ext ?_ rfl
        simp only [observed, World.push_history, acquisitions_push, unlabelled, orderIs]
        simp
      rw [held]
      exact rest
  | wait => simp [machine, executed]
  | fault =>
      have isHolder := (holder_push (k := w.state) rfl (unlabelled none)).trans inside
      simp only [machine, executed]
      exact ⟨⟨shaped, seen isHolder (permsIs ▸ visible)⟩, fun _ _ => trivial⟩

/-- A quiet operation. -/
theorem observed_quiet {operation : Op} {next : operation.Res → Kern α}
    (visible : Visible page call perms) (quiet : operation.quiet = true)
    (continues
      : ∀ k choice result k', Permissions.of k = perms → perms.Shaped
          → exec page tid choice operation k = .done result k'
          → (observed page).Inside (machine page) p tid call (next result)
              (earlier ++ [(tid, call)], perms) () post)
    : (observed page).Inside (machine page) p tid call (.act operation next)
        (earlier ++ [(tid, call)], perms) () post := by
  refine observed_op visible (fun _ => acquired_quiet quiet) ?_ ?_
  · intro w _
    cases operation <;> trivial
  · intro k choice result k' permsIs shaped _ executed
    obtain ⟨mutex, permsSame, _⟩ := exec_quiet quiet executed
    rw [permsSame, permsIs]
    exact ⟨mutex, shaped, visible, continues k choice result k' permsIs shaped executed⟩

/-- A permission change. -/
theorem observed_setMemory {target : Alias} {write : Bool} {next : Int → Kern α}
    (visible : Visible page call perms)
    (continues
      : ∀ {err perms'}, perms.Shaped → Attempt p tid call target write perms err perms'
          → Visible page call perms'
            ∧ (observed page).Inside (machine page) p tid call (next err)
                (earlier ++ [(tid, call)], perms') () post)
    : (observed page).Inside (machine page) p tid call (.act (.setMemory target write) next)
        (earlier ++ [(tid, call)], perms) () post := by
  refine observed_op visible (fun _ => rfl) (fun _ _ => trivial) ?_
  intro k choice result k' permsIs shaped admitted executed
  have attempt := Attempt.intro k choice admitted
  rw [permsIs] at attempt
  obtain ⟨visible', inside⟩ := continues shaped attempt
  simp only [exec] at executed
  split at executed
  · rename_i succeeded
    cases executed
    rw [succeeded] at inside visible' attempt
    rw [Permissions.of_setWrite, permsIs]
    exact ⟨setWrite_safetyMutex k target write, attempt.shaped shaped, visible', inside⟩
  · rename_i failed
    cases executed
    have effect : perms.attempt target write choice.err = perms := by
      simp [Permissions.attempt, failed]
    rw [effect] at inside visible'
    rw [permsIs]
    exact ⟨rfl, shaped, visible', inside⟩

/-- Publishing the flag. -/
theorem observed_setFlag {on : Bool} {next : Unit → Kern α} (visible : Visible page call perms)
    (allowed : on = true ∨ call = .setProtection false)
    (visible' : Visible page call { perms with flag := on })
    (continues
      : (observed page).Inside (machine page) p tid call (next ())
          (earlier ++ [(tid, call)], { perms with flag := on }) () post)
    : (observed page).Inside (machine page) p tid call (.act (.setCtxProtected on) next)
        (earlier ++ [(tid, call)], perms) () post := by
  refine observed_op visible (fun _ => rfl) ?_ ?_
  · intro w inside
    rcases allowed with isSet | rfl
    · exact Or.inl isSet
    · exact Or.inr inside
  · intro k choice result k' permsIs shaped _ executed
    cases executed
    have effect : Permissions.of { k with ctxProtected := on } = { perms with flag := on } := by
      rw [← permsIs]
      rfl
    rw [effect]
    exact ⟨rfl, ⟨shaped.direct, shaped.vmalloc⟩, visible', continues⟩

/-- Leaving a section. -/
theorem observed_unlock {next : Unit → Kern α} (truthful : perms.Shaped → FlagTruthful page perms)
    (continues : (observed page).Outside (machine page) p tid call (next ()) () post)
    : (observed page).Inside (machine page) p tid call (.act .mutexUnlock next)
        (earlier ++ [(tid, call)], perms) () post := by
  apply LockDiscipline.Inside.act
  intro w _ heldIs _ inv
  obtain ⟨shaped, _⟩ := inv
  obtain ⟨_, permsIs⟩ := Prod.mk.inj heldIs
  refine ⟨trivial, fun choice _ => ?_⟩
  have released : FlagTruthful page (.of w.state) := by
    rw [permsIs] at shaped ⊢
    exact truthful shaped
  exact ⟨⟨shaped, Or.inr released⟩, fun _ _ => rfl, Or.inr ⟨rfl, continues⟩⟩

-----------------------------------------------------------------------------------------
-- Outside
-----------------------------------------------------------------------------------------

/-- With the mutex free, the flag can be believed. -/
theorem Observed.free {w : KernelWorld} (h : Observed page w)
    (free : w.state.safetyMutex = none)
    : FlagTruthful page (.of w.state) := by
  rcases h with ⟨tid, call, isHolder, _⟩ | truthful
  · rw [holder_free free] at isHolder
    exact absurd isHolder.symm (Option.some_ne_none _)
  · exact truthful

/-- Entering a section. -/
theorem observed_lock {next : Unit → Kern α}
    (continues
      : ∀ {earlier perms}, perms.Shaped → FlagTruthful page perms
          → (observed page).Inside (machine page) p tid call (next ())
              (earlier ++ [(tid, call)], perms) () post)
    : (observed page).Outside (machine page) p tid call (.act .mutexLock next) () post := by
  apply LockDiscipline.Outside.act
  intro w _ _ inv
  obtain ⟨shaped, seen⟩ := inv
  refine ⟨trivial, fun choice _ => ?_⟩
  simp only [machine, exec]
  by_cases unowned : w.state.safetyMutex = none
  · simp only [unowned, if_true]
    have truthful := seen.free unowned
    refine ⟨⟨shaped, Or.inr truthful⟩, fun _ _ => trivial, Or.inr ⟨unowned, rfl, ?_⟩⟩
    have held : (observed page).held (w.push { w.state with safetyMutex := some tid }
          (.act tid call .mutexLock (some ())))
        = (acquisitions w.history ++ [(tid, call)], .of w.state) := by
      refine Prod.ext ?_ rfl
      simp [observed, acquisitions_push, acquired]
    rw [held]
    exact continues shaped truthful
  · simp [unowned]

/-- Quiet code outside a section, up to its return, by program induction. -/
theorem observed_outside {prog : Kern Int} (all : prog.All (fun later => later.quiet = true))
    : (observed page).Outside (machine page) p tid call prog ()
        ((observed page).discipline.Returns tid call) := by
  induction prog with
  | ret value =>
      apply LockDiscipline.Outside.ret
      intro w free _ inv
      obtain ⟨shaped, seen⟩ := inv
      have same : acquisitions (w.history ++ [.ret tid call value]) = acquisitions w.history := by
        simp [acquisitions_push, acquired]
      exact ⟨LockDiscipline.moves_intro ⟨shaped, seen.push rfl rfl rfl⟩ (fun _ _ => rfl)
        (Or.inl ⟨rfl, Prod.ext same rfl⟩), free, trivial⟩
  | act operation next ih =>
      obtain ⟨quiet, rest⟩ := all
      have unlabelled (result : Option operation.Res)
          : acquired (.act tid call operation result) = none := acquired_quiet quiet
      apply LockDiscipline.Outside.act
      intro w _ _ inv
      obtain ⟨shaped, seen⟩ := inv
      refine ⟨by cases operation <;> trivial, fun choice _ => ?_⟩
      have label (result : Option operation.Res)
          : acquisitions (w.history ++ [.act tid call operation result])
            = acquisitions w.history := by
        simp [acquisitions_push, unlabelled result]
      cases executed : exec page tid choice operation w.state with
      | done result k =>
          obtain ⟨mutex, permsSame, _⟩ := exec_quiet quiet executed
          simp only [machine, executed]
          exact ⟨⟨permsSame ▸ shaped, seen.push mutex permsSame (unlabelled (some result))⟩,
            fun _ _ => trivial,
            Or.inl ⟨mutex, Prod.ext (label (some result)) permsSame, ih result (rest result)⟩⟩
      | wait => simp [machine, executed]
      | fault =>
          simp only [machine, executed]
          exact ⟨⟨shaped, seen.push rfl rfl (unlabelled none)⟩, fun _ _ => trivial,
            Prod.ext (label none) rfl⟩

-----------------------------------------------------------------------------------------
-- Each call, against the discipline
-----------------------------------------------------------------------------------------

/-- A permission change of the `vmap` alias, if there is one. -/
theorem observed_onVmalloc {write : Bool} {next : Int → Kern α}
    (exists_ : page.hasVmalloc = true) (visible : Visible page call perms)
    (continues
      : ∀ {err perms'}, perms.Shaped → VmallocAttempt page p tid call write perms err perms'
          → Visible page call perms'
            ∧ (observed page).Inside (machine page) p tid call (next err)
                (earlier ++ [(tid, call)], perms') () post)
    : (observed page).Inside (machine page) p tid call (onVmalloc page write next)
        (earlier ++ [(tid, call)], perms) () post := by
  unfold onVmalloc
  rw [exists_, if_pos rfl]
  exact observed_setMemory visible
    (fun shaped attempt => continues shaped (.present exists_ attempt))

/-- A permission change of the direct alias says nothing about the other one. -/
theorem Attempt.direct_truthful {write : Bool} {perms' : Permissions} {err : Int}
    (attempt : Attempt p tid call .direct write perms err perms')
    (truthful : FlagTruthful page perms)
    : FlagTruthful page perms' := by
  obtain ⟨k, choice, _⟩ := attempt
  unfold Permissions.attempt
  split
  · exact truthful
  · exact truthful

theorem observed_protect (exists_ : page.hasVmalloc = true) (calls : Call → Bool)
    : (observed page).Outside (machine page) (faultless calls) tid (.setProtection true)
        (safetyMemSetProtection page true) ()
        ((observed page).discipline.Returns tid (.setProtection true)) := by
  rw [safetyMemSetProtection_true]
  refine observed_lock (fun {_ perms₀} shaped truthful => ?_)
  refine observed_quiet (Or.inr truthful) rfl (fun _ _ _ _ _ _ _ => ?_)
  refine observed_setMemory (Or.inr truthful) (fun {_ perms₁} _ attempt₁ => ?_)
  have truthful₁ : FlagTruthful page perms₁ := attempt₁.direct_truthful truthful
  refine ⟨Or.inr truthful₁, ?_⟩
  refine observed_onVmalloc exists_ (Or.inr truthful₁) (fun {err₂ perms₂} shaped₁ attempt₂ => ?_)
  have succeeded : err₂ = 0 := attempt₂.succeeds.1
  have readOnly := attempt₂.readOnly shaped₁ exists_ succeeded
  have truthful₂ : FlagTruthful page perms₂ := fun _ => ⟨exists_, readOnly⟩
  refine ⟨Or.inr truthful₂, ?_⟩
  refine observed_quiet (Or.inr truthful₂) rfl (fun _ _ _ _ _ _ _ => ?_)
  refine observed_quiet (Or.inr truthful₂) rfl (fun _ _ mapping _ permsIs _ walked => ?_)
  have verified : verifiedReadOnly err₂ mapping = true := by
    rw [verifiedReadOnly_eq shaped₁ attempt₂ permsIs walked, exists_, succeeded]
    rfl
  have truthful₃ : FlagTruthful page { perms₂ with flag := verifiedReadOnly err₂ mapping } :=
    fun _ => ⟨exists_, readOnly⟩
  refine observed_setFlag (Or.inr truthful₂) (Or.inl verified) (Or.inr truthful₃) ?_
  refine observed_unlock (fun _ => truthful₃) (observed_outside ?_)
  exact (walkAndReturn_silent page _ _).imp (fun _ silent => Op.quiet_of_silent silent)

theorem observed_unprotect (exists_ : page.hasVmalloc = true)
    : (observed page).Outside (machine page) p tid (.setProtection false)
        (safetyMemSetProtection page false) ()
        ((observed page).discipline.Returns tid (.setProtection false)) := by
  have visible {perms : Permissions} : Visible page (.setProtection false) perms := Or.inl rfl
  rw [safetyMemSetProtection_false]
  refine observed_lock (fun _ _ => ?_)
  refine observed_quiet visible rfl (fun _ _ _ _ _ _ _ => ?_)
  refine observed_setMemory visible (fun _ _ => ⟨visible, ?_⟩)
  refine observed_onVmalloc exists_ visible (fun _ _ => ⟨visible, ?_⟩)
  refine observed_setFlag visible (Or.inr rfl) visible ?_
  refine observed_unlock (fun _ isSet => absurd isSet Bool.false_ne_true) (observed_outside ?_)
  exact (walkAndReturn_silent page _ _).imp (fun _ silent => Op.quiet_of_silent silent)

theorem observed_safeWrite (exists_ : page.hasVmalloc = true) (calls : Call → Bool)
    (val : UInt32)
    : (observed page).Outside (machine page) (faultless calls) tid (.safeWrite val)
        (safetyMemSafeWrite page val) ()
        ((observed page).discipline.Returns tid (.safeWrite val)) := by
  have visible {perms : Permissions} : Visible page (.safeWrite val) perms := Or.inl rfl
  rw [safetyMemSafeWrite_eq]
  refine observed_lock (fun {_ perms₀} _ truthful => ?_)
  refine observed_quiet visible rfl (fun _ _ wasRo _ _ _ _ => ?_)
  cases wasRo with
  | false =>
      refine observed_quiet visible rfl (fun _ _ _ _ _ _ _ => ?_)
      exact observed_unlock (fun _ => truthful) (observed_outside trivial)
  | true =>
      refine observed_setMemory visible (fun _ _ => ⟨visible, ?_⟩)
      refine observed_onVmalloc exists_ visible (fun _ _ => ⟨visible, ?_⟩)
      refine observed_quiet visible rfl (fun _ _ _ _ _ _ _ => ?_)
      refine observed_setMemory visible (fun _ _ => ⟨visible, ?_⟩)
      refine observed_onVmalloc exists_ visible (fun shaped attempt => ⟨visible, ?_⟩)
      have readOnly := attempt.readOnly shaped exists_ attempt.succeeds.1
      exact observed_unlock (fun _ _ => ⟨exists_, readOnly⟩) (observed_outside trivial)

/-- The authorized calls make a sound discipline when their permission changes succeed. -/
theorem observed_sound (exists_ : page.hasVmalloc = true)
    : (observed page).discipline.Sound (machine page) (faultless authorized) := by
  intro tid call w admitted inv atRest
  obtain ⟨shaped, seen⟩ := inv
  obtain ⟨free, _⟩ := atRest
  have same : acquisitions (w.history ++ [.call tid call]) = acquisitions w.history := by
    simp [acquisitions_push, acquired]
  refine ⟨LockDiscipline.moves_intro ⟨shaped, seen.push rfl rfl rfl⟩ (fun _ _ => rfl)
    (Or.inl ⟨rfl, Prod.ext same rfl⟩), ?_⟩
  refine (?_ : (observed page).Outside (machine page) (faultless authorized) tid call
    ((machine page).body call) () _) _ free rfl
  cases call with
  | setProtection enable =>
      cases enable with
      | false => exact observed_unprotect exists_
      | true => exact observed_protect exists_ authorized
  | safeWrite val => exact observed_safeWrite exists_ authorized val
  | isProtected | attack _ | threadA | threadB | rogueC _ => cases admitted

-----------------------------------------------------------------------------------------
-- Every interleaving
-----------------------------------------------------------------------------------------

/-- A verified configuration of the authorized calls. -/
abbrev ObservedOk (page : SafetyPage) (c : KernelConfig) : Prop :=
  (observed page).discipline.ConfigOk (machine page) (faultless authorized) c

theorem ObservedOk.start {k : State} (loaded : Loaded page k)
    : ObservedOk page (Config.start k) := by
  refine Discipline.ConfigOk.start ⟨loaded.shaped, Or.inr (FlagTruthful.initially loaded)⟩ ?_
  intro tid
  refine ⟨?_, trivial⟩
  simp [observed, loaded.facts.mutex]

/-- Nothing else writes the flag. -/
theorem exec_ctxProtected {choice : Choice} {operation : Op} {k k' : State}
    {result : operation.Res} (h : exec page tid choice operation k = .done result k')
    : k'.ctxProtected = k.ctxProtected
      ∨ ∃ on, operation = .setCtxProtected on ∧ k'.ctxProtected = on := by
  by_cases quiet : operation.quiet = true
  · exact Or.inl (congrArg Permissions.flag (exec_quiet quiet h).2.1)
  cases operation with
  | setCtxProtected on =>
      cases h
      exact Or.inr ⟨on, rfl, rfl⟩
  | setMemory target write =>
      simp only [exec] at h
      split at h <;> cases h
      · exact Or.inl (setWrite_ctxProtected k target write)
      · exact Or.inl rfl
  | mutexLock | mutexTrylock | procCreate =>
      simp only [exec] at h
      split at h <;> cases h <;> exact Or.inl rfl
  | mutexUnlock | clearMutexOwner | setSafetyBufPtr _ | setInitialMapping _
  | removeProcEntry | vunmap | freePages =>
      cases h
      exact Or.inl rfl
  | mutexIsLocked | walkPgtable _ | readCtxProtected | setProtectedRange _ _
  | readSafetyBufPtr | load _ | store _ _ | copyToKernelNofault _ _ | ktimeGetRealNs
  | recordAttack _ | readCounter _ | writeCounter _ _ | atomicInc _ | readCorruptVal =>
      exact absurd rfl quiet

/-- The flag stays set while no `safety_mem_set_protection(false)` is inside. -/
theorem ObservedOk.flag_kept {c c' : KernelConfig} {event : Event Nat Call Choice}
    (ok : ObservedOk page c)
    (taken : (machine page).step (faultless authorized) c event = some c')
    (isSet : c.world.state.ctxProtected = true)
    (calm : ∀ tid, holder c.world ≠ some (tid, .setProtection false))
    : c'.world.state.ctxProtected = true := by
  rcases Machine.step_cases taken with
    ⟨tid, call, idle, admitted, rfl⟩
    | ⟨tid, call, op, next, choice, result, state, running, admitted, done, rfl⟩
    | ⟨tid, call, op, next, choice, running, admitted, fault, rfl⟩
    | ⟨tid, call, value, running, rfl⟩
  · exact isSet
  · rcases exec_ctxProtected done with same | ⟨on, rfl, written⟩
    · exact same.trans isSet
    · rcases ok.asserted running with isOn | inside
      · exact written.trans isOn
      · exact absurd inside (calm tid)
  · exact isSet
  · exact isSet

end SafetyIsolation.Protection

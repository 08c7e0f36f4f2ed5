import SafetyIsolation.Protection.Sections

/-! When the protection flag can be believed.
`safety_mem_set_protection` verifies the `vmap` alias before it sets the flag, but
`safety_mem_safe_write` ignores whether its closing `set_memory_ro` succeeded.
-/

namespace SafetyIsolation.Protection

open SafetyIsolation.Interleaving SafetyIsolation.Kernel

-- The authorized interface: protection changes and authorized writes.
def authorized : Call → Bool
  | .setProtection _ => true
  | .safeWrite _ => true
  | _ => false

/-- Authorized calls by any thread; every `set_memory_*` call may succeed or fail. -/
def authorizedCalls : KernelPolicy where
  calls _ call := authorized call
  steps _ _ _ _ _ := true

/-- The same, except that an authorized write never fails to close the `vmap` alias while
that alias is writable.
-/
def resealed : KernelPolicy where
  calls _ call := authorized call
  steps _ call operation choice k :=
    match call, operation with
    | .safeWrite _, .setMemory .vmalloc false => choice.err == 0 || !k.writable .vmalloc
    | _, _ => true

/-- A set flag means a read-only `vmap` alias. -/
def FlagTruthful (page : SafetyPage) (perms : Permissions) : Prop :=
  perms.flag = true → page.hasVmalloc = true ∧ perms.vmalloc.writable = false

/-- A closing `set_memory_ro` admitted by `resealed` leaves the `vmap` alias read-only. -/
theorem resealed_readOnly {page : SafetyPage} {tid : Nat} {val : UInt32}
    {perms perms' : Permissions} {err : Int} (shaped : perms.Shaped)
    (exists_ : page.hasVmalloc = true)
    (h : VmallocAttempt page resealed tid (.safeWrite val) false perms err perms')
    : perms'.vmalloc.writable = false := by
  by_cases succeeded : err = 0
  · exact h.readOnly shaped exists_ succeeded
  · cases h with
    | absent missing => simp [missing] at exists_
    | present _ attempt =>
        obtain ⟨k, choice, admitted⟩ := attempt
        have wasReadOnly : k.writable .vmalloc = false := by
          simpa [resealed, succeeded] using admitted
        simp only [Permissions.attempt, succeeded, if_false]
        exact wasReadOnly

/-- Enabling protection sets the flag only over a read-only `vmap` alias, whichever of its
permission changes fail.
-/
theorem FlagTruthful.protect {page : SafetyPage} {p : KernelPolicy} {tid : Nat}
    {perms perms₁ perms₂ : Permissions} {err₁ err₂ : Int} (shaped : perms.Shaped)
    (attempt₁ : Attempt p tid (.setProtection true) .direct false perms err₁ perms₁)
    (attempt₂ : VmallocAttempt page p tid (.setProtection true) false perms₁ err₂ perms₂)
    : FlagTruthful page { perms₂ with flag := page.hasVmalloc && err₂ == 0 } := by
  intro isSet
  obtain ⟨exists_, succeeded⟩ := Bool.and_eq_true_iff.mp isSet
  have readOnly : perms₂.vmalloc.writable = false :=
    attempt₂.readOnly (attempt₁.shaped shaped) exists_ (eq_of_beq succeeded)
  exact ⟨exists_, readOnly⟩

theorem FlagTruthful.initially {page : SafetyPage} {k : State} (loaded : Loaded page k)
    : FlagTruthful page (.of k) := by
  rw [loaded.facts.permissions]
  intro isSet
  cases isSet

theorem resealed_keeps (page : SafetyPage)
    : Keeps page resealed (fun _ perms => FlagTruthful page perms) (fun _ _ => True) where
  protect := by
    intro tid order perms perms₁ perms₂ err₁ err₂ shaped _ attempt₁ attempt₂
    exact FlagTruthful.protect shaped attempt₁ attempt₂
  unprotect := by
    intro _ _ _ _ _ _ _ _ _ _ _ isSet
    cases isSet
  writeUnprotected := by
    intro _ _ _ _ _ _ truthful _
    exact ⟨trivial, truthful⟩
  writeProtected := by
    intro val tid order perms perms₁ perms₂ err₁ err₂ _ shaped truthful isSet attempt₁
      attempt₂
    refine ⟨trivial, ?_⟩
    intro perms₃ perms₄ err₃ err₄ attempt₃ attempt₄ _
    obtain ⟨exists_, _⟩ := truthful isSet
    have shaped₃ := attempt₃.shaped (attempt₂.shaped (attempt₁.shaped shaped))
    exact ⟨exists_, resealed_readOnly shaped₃ exists_ attempt₄⟩
  threads := by
    intro _ _ _ _ _ _ truthful _
    exact ⟨trivial, truthful⟩

/-- Whenever the mutex is free in a run whose authorized writes reseal the `vmap` alias, a
set flag means that alias is mapped and read-only.
-/
theorem flag_truthful_of_resealed {page : SafetyPage} {k : State} {c : KernelConfig}
    (loaded : Loaded page k)
    (reachable : (machine page).Reachable resealed (Config.start k) c)
    (free : c.world.state.safetyMutex = none)
    (isSet : c.world.state.ctxProtected = true)
    : page.hasVmalloc = true
      ∧ c.world.state.vmalloc.mapped = true
      ∧ c.world.state.writable .vmalloc = false := by
  have respects : RespectsMutex resealed := by
    intro tid attackMode admitted
    cases admitted
  obtain ⟨shaped, truthful⟩ := (resealed_keeps page).good_of_free respects loaded
    (FlagTruthful.initially loaded) reachable free
  obtain ⟨exists_, readOnly⟩ := truthful isSet
  exact ⟨exists_, shaped.vmalloc.mapped, readOnly⟩

/-- Protection is enabled, then an authorized write completes normally. -/
theorem flag_truthful_of_resealed_sample
    : ∃ c,
        (machine (samplePage true)).Reachable resealed
          (Config.start (freshlyLoaded (samplePage true))) c
        ∧ c.world.state.vmalloc.mapped = true
        ∧ c.world.state.writable .vmalloc = false := by
  obtain ⟨c, reachable, seen⟩ := Machine.Reachable.observed
    (wholeCall 0 (.setProtection true) (List.replicate 10 0)
      ++ wholeCall 1 (.safeWrite 7) (List.replicate 8 0))
    (fun c : KernelConfig => (c.world.state.safetyMutex, c.world.state.ctxProtected))
    (show (Machine.run (machine (samplePage true)) resealed
      (Config.start (freshlyLoaded (samplePage true))) _).map _ = some (none, true) by
        decide +kernel)
  obtain ⟨free, isSet⟩ := Prod.mk.inj seen
  exact ⟨c, reachable, (flag_truthful_of_resealed (freshlyLoaded_loaded (samplePage true))
    reachable free isSet).2⟩

/-- The closing `set_memory_ro` of an authorized write fails on the `vmap` alias: the flag
stays set over a writable alias.
-/
theorem flag_untruthful_after_failed_reseal
    : Loaded (samplePage true) (freshlyLoaded (samplePage true))
      ∧ ∃ c,
          (machine (samplePage true)).Reachable authorizedCalls
            (Config.start (freshlyLoaded (samplePage true))) c
          ∧ c.world.state.safetyMutex = none
          ∧ c.world.state.ctxProtected = true
          ∧ c.world.state.writable .vmalloc = true := by
  refine ⟨freshlyLoaded_loaded (samplePage true), ?_⟩
  obtain ⟨c, reachable, seen⟩ := Machine.Reachable.observed
    (wholeCall 0 (.setProtection true) (List.replicate 10 0)
      ++ wholeCall 1 (.safeWrite 7) [0, 0, 0, 0, 0, 0, -eNOMEM, 0])
    (fun c : KernelConfig =>
      (c.world.state.safetyMutex, c.world.state.ctxProtected, c.world.state.writable .vmalloc))
    (show (Machine.run (machine (samplePage true)) authorizedCalls
      (Config.start (freshlyLoaded (samplePage true))) _).map _ = some (none, true, true) by
        decide +kernel)
  simp only [Prod.mk.injEq] at seen
  exact ⟨c, reachable, seen⟩

end SafetyIsolation.Protection

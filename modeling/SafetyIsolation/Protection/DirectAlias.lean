import SafetyIsolation.Protection.FlagTruth

/-! When the direct alias is writable where the code takes it to be.
The flag reports the `vmap` alias, yet authorized writes and unloading decide from it
whether the direct alias has to be made writable. Their decision is right as long as a clear
flag means a writable direct alias, which partly failed protection changes can break.
-/

namespace SafetyIsolation.Protection

open SafetyIsolation.Interleaving SafetyIsolation.Kernel

/-- The authorized calls, where a protection change never clears the flag over a read-only
direct alias. With `writes`, an authorized write also never fails to open that alias.
-/
def covering (page : SafetyPage) (writes : Bool) : KernelPolicy where
  calls _ call := authorized call
  steps _ call operation choice k :=
    match call, operation with
    | .setProtection true, .setMemory .direct false => page.hasVmalloc || choice.err != 0
    | .setProtection true, .setMemory .vmalloc false => choice.err == 0 || k.writable .direct
    | .setProtection false, .setMemory .direct true => choice.err == 0 || k.writable .direct
    | .safeWrite _, .setMemory .direct true =>
        !writes || choice.err == 0 || k.writable .direct
    | _, _ => true

/-- A clear flag means a writable direct alias, and without a `vmap` alias the flag is clear.
-/
structure DirectCovered (page : SafetyPage) (perms : Permissions) : Prop where
  writable : perms.flag = false → perms.direct.writable = true
  unmapped : page.hasVmalloc = false → perms.flag = false

variable {page : SafetyPage} {writes : Bool}

/-- Opening the direct alias works when it succeeds or was not needed. -/
theorem Attempt.opened {p : KernelPolicy} {tid : Nat} {call : Call}
    {perms perms' : Permissions} {err : Int}
    (h : Attempt p tid call .direct true perms err perms') (shaped : perms.Shaped)
    (admits
      : ∀ choice k, p.steps tid call (.setMemory .direct true) choice k = true
          → choice.err = 0 ∨ k.writable .direct = true)
    : perms'.direct.writable = true := by
  obtain ⟨k, choice, admitted⟩ := h
  unfold Permissions.attempt
  by_cases succeeded : choice.err = 0
  · rw [if_pos succeeded]
    exact TablePath.writable_setWrite true shaped.direct
  · rw [if_neg succeeded]
    exact (admits choice k admitted).resolve_left succeeded

/-- Enabling protection covers the direct alias: either the flag is set, or nothing took the
direct alias's permission away.
-/
theorem covering_protect {tid : Nat} {perms perms₁ perms₂ : Permissions} {err₁ err₂ : Int}
    (covered : DirectCovered page perms)
    (attempt₁ : Attempt (covering page writes) tid (.setProtection true) .direct false perms
      err₁ perms₁)
    (attempt₂ : VmallocAttempt page (covering page writes) tid (.setProtection true) false
      perms₁ err₂ perms₂)
    : DirectCovered page { perms₂ with flag := page.hasVmalloc && err₂ == 0 } := by
  refine ⟨?_, fun missing => by simp [missing]⟩
  intro cleared
  cases attempt₂ with
  | absent missing =>
      obtain ⟨k, choice, admitted⟩ := attempt₁
      have failed : choice.err ≠ 0 := by simpa [covering, missing] using admitted
      simp only [Permissions.attempt, failed, if_false]
      exact covered.writable (covered.unmapped missing)
  | present exists_ attempt =>
      obtain ⟨k, choice, admitted⟩ := attempt
      have failed : choice.err ≠ 0 := by simpa [exists_] using cleared
      have stillWritable : k.writable .direct = true := by
        simpa [covering, failed] using admitted
      simp only [Permissions.attempt, failed, if_false]
      exact stillWritable

theorem covering_keeps (page : SafetyPage) (writes : Bool)
    : Keeps page (covering page writes) (fun _ perms => DirectCovered page perms)
        (fun _ perms => writes = true → perms.direct.writable = true) where
  protect := by
    intro tid order perms perms₁ perms₂ err₁ err₂ _ covered attempt₁ attempt₂
    exact covering_protect covered attempt₁ attempt₂
  unprotect := by
    intro tid order perms perms₁ perms₂ err₁ err₂ shaped _ attempt₁ attempt₂
    have opened := attempt₁.opened shaped (fun choice k admitted => by
      simpa [covering] using admitted)
    rw [← attempt₂.direct] at opened
    exact ⟨fun _ => opened, fun _ => rfl⟩
  writeUnprotected := by
    intro val tid order perms _ _ covered cleared
    exact ⟨fun _ => covered.writable cleared, covered⟩
  writeProtected := by
    intro val tid order perms perms₁ perms₂ err₁ err₂ _ shaped covered isSet attempt₁
      attempt₂
    refine ⟨?_, ?_⟩
    · intro guarded
      have opened := attempt₁.opened shaped (fun choice k admitted => by
        simpa [covering, guarded] using admitted)
      rwa [← attempt₂.direct] at opened
    · intro perms₃ perms₄ err₃ err₄ attempt₃ attempt₄
      -- The write leaves the flag as it found it, and it found it set.
      have same : perms₄.flag = perms.flag := by
        rw [attempt₄.flag, attempt₃.flag, attempt₂.flag, attempt₁.flag]
      refine ⟨?_, fun missing => same.trans (covered.unmapped missing)⟩
      intro cleared
      simp [same, isSet] at cleared
  threads := by
    intro tid order perms call admitted _ _ isThread
    rcases isThread with rfl | rfl <;> cases admitted

theorem covering_respects : RespectsMutex (covering page writes) := by
  intro tid attackMode admitted
  cases admitted

theorem DirectCovered.initially {k : State} (loaded : Loaded page k)
    : DirectCovered page (.of k) := by
  rw [loaded.facts.permissions]
  exact ⟨fun _ => page.direct_writable, fun _ => rfl⟩

/-- Whenever an authorized write reaches its store, the direct alias is writable. -/
theorem safeWrite_store_writable {k : State} {c : KernelConfig} {tid : Nat}
    {val value : UInt32} {target : Alias} {next : Unit → Kern Int} (loaded : Loaded page k)
    (reachable : (machine page).Reachable (covering page true) (Config.start k) c)
    (atStore : c.threads tid = .running (.safeWrite val) (.act (.store target value) next))
    : target = .direct ∧ c.world.state.writable .direct = true := by
  have verified := (covering_keeps page true).reachable covering_respects loaded
    (DirectCovered.initially loaded) reachable
  obtain ⟨isDirect, storable⟩ := verified.asserted atStore
  exact ⟨isDirect, storable rfl⟩

/-- Protection is enabled and a write under protection is about to store. -/
theorem safeWrite_store_writable_sample
    : ∃ c next,
        (machine (samplePage true)).Reachable (covering (samplePage true) true)
          (Config.start (freshlyLoaded (samplePage true))) c
        ∧ c.threads 1 = .running (.safeWrite 7) (.act (.store .direct 7) next)
        ∧ c.world.state.writable .direct = true := by
  obtain ⟨c, reachable, seen⟩ := Machine.Reachable.observed
    (wholeCall 0 (.setProtection true) (List.replicate 10 0)
      ++ .call 1 (.safeWrite 7) :: List.replicate 4 (.step 1 {}))
    (fun c : KernelConfig => c.threads 1)
    (show (Machine.run (machine (samplePage true)) (covering (samplePage true) true)
      (Config.start (freshlyLoaded (samplePage true))) _).map _ = some _ from rfl)
  exact ⟨c, _, reachable, seen, (safeWrite_store_writable
    (freshlyLoaded_loaded (samplePage true)) reachable seen).2⟩

/-- Protecting the `vmap` alias fails after the direct alias became read-only: the flag stays
clear, and the next authorized write stores through a read-only mapping.
-/
theorem safeWrite_store_readOnly_after_partial_protection
    : Loaded (samplePage true) (freshlyLoaded (samplePage true))
      ∧ ∃ c next,
          (machine (samplePage true)).Reachable authorizedCalls
            (Config.start (freshlyLoaded (samplePage true))) c
          ∧ c.threads 1 = .running (.safeWrite 7) (.act (.store .direct 7) next)
          ∧ c.world.state.writable .direct = false := by
  refine ⟨freshlyLoaded_loaded (samplePage true), ?_⟩
  obtain ⟨c, reachable, seen⟩ := Machine.Reachable.observed
    (wholeCall 0 (.setProtection true) [0, 0, 0, -eNOMEM, 0, 0, 0, 0, 0, 0]
      ++ .call 1 (.safeWrite 7) :: List.replicate 2 (.step 1 {}))
    (fun c : KernelConfig => (c.threads 1, c.world.state.writable .direct))
    (show (Machine.run (machine (samplePage true)) authorizedCalls
      (Config.start (freshlyLoaded (samplePage true))) _).map _ = some (_, false) from rfl)
  obtain ⟨atStore, readOnly⟩ := Prod.mk.inj seen
  exact ⟨c, _, reachable, atStore, readOnly⟩

/-- Unloading from covered permissions frees the page with a writable direct alias, when its
own `set_memory_rw` calls succeed.
-/
theorem safetyMemExit_frees_writable {k : State} {tid : Nat} {choices : List Choice}
    (shaped : (Permissions.of k).Shaped) (covered : DirectCovered page (.of k))
    (succeed : ∀ choice ∈ choices, choice.err = 0)
    : ∃ k', (safetyMemExit page).runAlone (exec page tid) choices k = .done () k'
        ∧ k'.pageAllocated = false
        ∧ k'.writable .direct = true := by
  have reopened : (k.direct.setWrite true).writable = true :=
    TablePath.writable_setWrite true shaped.direct
  have succeedsAt : ∀ n : Nat, Choice.err (choices[n]?.getD default) = 0 := by
    intro n
    cases found : choices[n]? with
    | none => rfl
    | some choice => exact succeed choice (List.mem_of_getElem? found)
  cases flagIs : k.ctxProtected with
  | false =>
      have writable : k.direct.writable = true := covered.writable flagIs
      cases exists_ : page.hasVmalloc <;>
        simp [safetyMemExit, safetyMemIsProtected, op, Prog.perform, Prog.runAlone, exec,
          flagIs, exists_, State.writable, State.path, writable]
  | true =>
      cases exists_ : page.hasVmalloc <;>
        simp [safetyMemExit, safetyMemIsProtected, setMemoryRw, op, Prog.perform,
          Prog.runAlone, exec, flagIs, exists_, State.writable, State.path, State.setWrite,
          reopened, succeedsAt]

/-- After any run whose protection changes cover the direct alias, once every call has
returned, unloading frees the page with a writable direct alias.
-/
theorem unload_frees_writable {k : State} {c : KernelConfig} (tid : Nat)
    (choices : List Choice) (loaded : Loaded page k)
    (reachable : (machine page).Reachable (covering page false) (Config.start k) c)
    (returned : ∀ caller, c.threads caller = .idle)
    (succeed : ∀ choice ∈ choices, choice.err = 0)
    : ∃ k', (safetyMemExit page).runAlone (exec page tid) choices c.world.state = .done () k'
        ∧ k'.pageAllocated = false
        ∧ k'.writable .direct = true := by
  have verified := (covering_keeps page false).reachable covering_respects loaded
    (DirectCovered.initially loaded) reachable
  have free : c.world.state.safetyMutex = none := by
    cases owner : c.world.state.safetyMutex with
    | none => rfl
    | some holder =>
        have idle := verified.threads holder
        rw [returned holder] at idle
        exact absurd owner idle.1
  obtain ⟨shaped, _, covered⟩ := verified.inv
  exact safetyMemExit_frees_writable shaped (covered free) succeed

/-- Unloading while protection is enabled. -/
theorem unload_frees_writable_sample
    : ∃ c k',
        (machine (samplePage true)).Reachable (covering (samplePage true) false)
          (Config.start (freshlyLoaded (samplePage true))) c
        ∧ c.world.state.writable .direct = false
        ∧ (safetyMemExit (samplePage true)).runAlone (exec (samplePage true) 9) []
            c.world.state = .done () k'
        ∧ k'.writable .direct = true := by
  obtain ⟨c, ran, seen⟩ := Option.map_eq_some_iff.mp
    (show (Machine.run (machine (samplePage true)) (covering (samplePage true) false)
      (Config.start (freshlyLoaded (samplePage true)))
      (wholeCall 0 (.setProtection true) (List.replicate 10 0))).map
        (fun c : KernelConfig => (c.threads 0, c.world.state.writable .direct))
      = some (.idle, false) from rfl)
  obtain ⟨returned, readOnly⟩ := Prod.mk.inj seen
  obtain ⟨k', unloaded, _, writable⟩ := unload_frees_writable 9 []
    (freshlyLoaded_loaded (samplePage true)) ⟨_, ran⟩ (idle_after_wholeCall ran returned)
    (by simp)
  exact ⟨c, k', ⟨_, ran⟩, readOnly, unloaded, writable⟩

/-- The same partial protection, then unloading: the flag is clear, nothing is restored, and
the page goes back to the allocator read-only.
-/
theorem unload_frees_readOnly_after_partial_protection
    : Loaded (samplePage true) (freshlyLoaded (samplePage true))
      ∧ ∃ c k',
          (machine (samplePage true)).Reachable authorizedCalls
            (Config.start (freshlyLoaded (samplePage true))) c
          ∧ (∀ caller, c.threads caller = .idle)
          ∧ (safetyMemExit (samplePage true)).runAlone (exec (samplePage true) 9) []
              c.world.state = .done () k'
          ∧ k'.pageAllocated = false
          ∧ k'.writable .direct = false := by
  refine ⟨freshlyLoaded_loaded (samplePage true), ?_⟩
  obtain ⟨c, ran, seen⟩ := Option.map_eq_some_iff.mp
    (show (Machine.run (machine (samplePage true)) authorizedCalls
      (Config.start (freshlyLoaded (samplePage true)))
      (wholeCall 0 (.setProtection true) [0, 0, 0, -eNOMEM, 0, 0, 0, 0, 0, 0])).map
        (fun c : KernelConfig =>
          (c.threads 0,
            ((safetyMemExit (samplePage true)).runAlone (exec (samplePage true) 9) []
              c.world.state).toOption.map (fun unloaded =>
                (unloaded.2.pageAllocated, unloaded.2.writable .direct))))
      = some (.idle, some (false, false)) from rfl)
  simp only [Prod.mk.injEq, Option.map_eq_some_iff] at seen
  obtain ⟨returned, ⟨_, k'⟩, unloaded, freed, readOnly⟩ := seen
  exact ⟨c, k', ⟨_, ran⟩, idle_after_wholeCall ran returned, Outcome.eq_done unloaded, freed,
    readOnly⟩

end SafetyIsolation.Protection

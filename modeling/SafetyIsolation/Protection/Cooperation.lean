import SafetyIsolation.Protection.Sections

/-! The cooperative thread against the protection toggle.
Thread B takes the mutex and stores; unlike an authorized write it never asks whether the
page is protected. Its store goes through exactly when the last protection change to take
the mutex was not an enabling one.
-/

namespace SafetyIsolation.Protection

open SafetyIsolation.Interleaving SafetyIsolation.Kernel

-- The protection toggle and the two cooperating threads.
def cooperative : Call → Bool
  | .setProtection _ => true
  | .threadA => true
  | .threadB => true
  | _ => false

def toggled (last : Bool) : Nat × Call → Bool
  | (_, .setProtection enable) => enable
  | _ => last

/-- Whether the last protection change among these sections enabled protection. -/
def lastProtection (order : List (Nat × Call)) : Bool := order.foldl toggled false

@[simp] theorem lastProtection_append (order : List (Nat × Call)) (entry : Nat × Call)
    : lastProtection (order ++ [entry]) = toggled (lastProtection order) entry := by
  simp [lastProtection]

theorem Attempt.direct_writable {calls : Call → Bool} {tid : Nat} {call : Call}
    {write : Bool} {perms perms' : Permissions} {err : Int}
    (h : Attempt (faultless calls) tid call .direct write perms err perms')
    (shaped : perms.Shaped)
    : perms'.direct.writable = write := by
  rw [h.succeeds.2]
  exact TablePath.writable_setWrite write shaped.direct

theorem cooperative_keeps (page : SafetyPage)
    : Keeps page (faultless cooperative)
        (fun order perms => perms.direct.writable = !lastProtection order)
        (fun order perms => perms.direct.writable = !lastProtection order) where
  protect := by
    intro tid order perms perms₁ perms₂ err₁ err₂ shaped _ attempt₁ attempt₂
    have closed := attempt₁.direct_writable shaped
    rw [← attempt₂.direct] at closed
    simpa [toggled] using closed
  unprotect := by
    intro tid order perms perms₁ perms₂ err₁ err₂ shaped _ attempt₁ attempt₂
    have opened := attempt₁.direct_writable shaped
    rw [← attempt₂.direct] at opened
    simpa [toggled] using opened
  writeUnprotected := by
    intro val tid order perms admitted
    cases admitted
  writeProtected := by
    intro val tid order perms perms₁ perms₂ err₁ err₂ admitted
    cases admitted
  threads := by
    intro tid order perms call _ _ tracks isThread
    rcases isThread with rfl | rfl <;> simpa [toggled] using tracks

/-- At every store of thread B the direct alias is writable exactly when no enabling
protection change has taken the mutex since the last disabling one.
-/
theorem threadB_store_writable_iff {page : SafetyPage} {k : State} {c : KernelConfig}
    {tid : Nat} {target : Alias} {value : UInt32} {next : Unit → Kern Int}
    (loaded : Loaded page k)
    (reachable : (machine page).Reachable (faultless cooperative) (Config.start k) c)
    (atStore : c.threads tid = .running .threadB (.act (.store target value) next))
    : target = .direct
      ∧ (c.world.state.writable .direct = true
        ↔ lastProtection (acquisitions c.world.history) = false) := by
  have respects : RespectsMutex (faultless cooperative) := by
    intro tid attackMode admitted
    cases admitted
  have initially : (Permissions.of k).direct.writable = !lastProtection [] := by
    rw [loaded.facts.permissions]
    exact page.direct_writable
  have verified := (cooperative_keeps page).reachable respects loaded initially reachable
  obtain ⟨isDirect, tracks⟩ := verified.asserted atStore
  refine ⟨isDirect, ?_⟩
  have tracked : c.world.state.writable .direct
      = !lastProtection (acquisitions c.world.history) := tracks
  simp [tracked]

/-- Thread B stores after protection was enabled and disabled again. -/
theorem threadB_store_writable_iff_sample
    : ∃ c next,
        (machine (samplePage true)).Reachable (faultless cooperative)
          (Config.start (freshlyLoaded (samplePage true))) c
        ∧ c.threads 1 = .running .threadB (.act (.store .direct safetySentinel) next)
        ∧ c.world.state.writable .direct = true := by
  obtain ⟨c, reachable, seen⟩ := Machine.Reachable.observed
    (wholeCall 0 (.setProtection true) (List.replicate 10 0)
      ++ wholeCall 0 (.setProtection false) (List.replicate 8 0)
      ++ .call 1 .threadB :: List.replicate 2 (.step 1 {}))
    (fun c : KernelConfig => (c.threads 1, lastProtection (acquisitions c.world.history)))
    (show (Machine.run (machine (samplePage true)) (faultless cooperative)
      (Config.start (freshlyLoaded (samplePage true))) _).map _ = some (_, false) from rfl)
  obtain ⟨atStore, disabled⟩ := Prod.mk.inj seen
  exact ⟨c, _, reachable, atStore, (threadB_store_writable_iff
    (freshlyLoaded_loaded (samplePage true)) reachable atStore).2.mpr disabled⟩

/-- Thread B stores after protection was enabled: the mapping is read-only. -/
theorem threadB_store_readOnly_under_protection
    : Loaded (samplePage true) (freshlyLoaded (samplePage true))
      ∧ ∃ c next,
          (machine (samplePage true)).Reachable (faultless cooperative)
            (Config.start (freshlyLoaded (samplePage true))) c
          ∧ c.threads 1 = .running .threadB (.act (.store .direct safetySentinel) next)
          ∧ c.world.state.writable .direct = false := by
  refine ⟨freshlyLoaded_loaded (samplePage true), ?_⟩
  obtain ⟨c, reachable, seen⟩ := Machine.Reachable.observed
    (wholeCall 0 (.setProtection true) (List.replicate 10 0)
      ++ .call 1 .threadB :: List.replicate 2 (.step 1 {}))
    (fun c : KernelConfig => (c.threads 1, c.world.state.writable .direct))
    (show (Machine.run (machine (samplePage true)) (faultless cooperative)
      (Config.start (freshlyLoaded (samplePage true))) _).map _ = some (_, false) from rfl)
  obtain ⟨atStore, readOnly⟩ := Prod.mk.inj seen
  exact ⟨c, _, reachable, atStore, readOnly⟩

end SafetyIsolation.Protection

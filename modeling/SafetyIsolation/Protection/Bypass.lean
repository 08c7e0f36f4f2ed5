import SafetyIsolation.Protection.FlagTruth

/-! What attacks achieve while the page is reported as protected.
The flag speaks for the `vmap` alias, which only attack mode 1 writes through. Modes 2 and 3
use the direct alias, whose protection may have failed with a warning.
-/

namespace SafetyIsolation.Protection

open SafetyIsolation.Interleaving SafetyIsolation.Kernel

-- What the attack record says after an attack that meets the given permissions and mutex.
def attackOutcome (page : SafetyPage) (k : State) (mode : AttackMode) : AttackResult :=
  if k.writable (mode.target page) then
    match mode with
    | .vmalloc => .successUnprotected
    | .mutexBypass => if k.safetyMutex.isSome then .mutexBypassRace else .successUnprotected
    | .linearAlias => .successBypass
  else .blockedEfault

/-- The value an attack stores, if its mapping lets it. -/
def committedValue (page : SafetyPage) (k : State) (mode : AttackMode) : Option UInt32 :=
  if k.writable (mode.target page) then some mode.value else none

/-- The bookkeeping of an attempt touches nothing but the attack record. -/
theorem recordAttempt_runAlone (page : SafetyPage) (tid : Nat) (target : Option Alias)
    (mode : AttackMode) (next : Unit → Kern Int) (choices : List Choice) (k : State)
    : ∃ record rest,
        ((recordAttempt page target mode).bind next).runAlone (exec page tid) choices k
          = (next ()).runAlone (exec page tid) rest { k with attack := record } :=
  ⟨_, _, rfl⟩

/-- What a completed attack left behind, relative to the state it ran in. -/
structure AttackDone (page : SafetyPage) (mode : AttackMode) (k k' : State) : Prop where
  result : k'.attack.lastResult = attackOutcome page k mode
  word : k'.word = (committedValue page k mode).getD k.word
  mutex : k'.safetyMutex = k.safetyMutex
  permissions : Permissions.of k' = Permissions.of k

/-- The guarded copy and the recording of its outcome, by cases on the mapping. -/
theorem copyAndRecord_runAlone (page : SafetyPage) (tid : Nat) (mode : AttackMode)
    (describe : Int → AttackResult) (record : AttackRecord) (choices : List Choice) (k : State)
    (stored : describe 0 = attackOutcome page k mode ∨ k.writable (mode.target page) = false)
    (refused : describe (-eFAULT) = .blockedEfault)
    : ∃ ret k',
        ((op (.copyToKernelNofault (mode.target page) mode.value)).bind (fun ret =>
            (op (.recordAttack (.result (describe ret)))).bind (fun _ => .ret ret))).runAlone
          (exec page tid) choices { k with attack := record } = .done ret k'
        ∧ AttackDone page mode k k' := by
  have same : State.writable { k with attack := record } (mode.target page)
      = k.writable (mode.target page) := by
    cases mode.target page <;> rfl
  cases allowed : k.writable (mode.target page) with
  | true =>
      refine ⟨0, { k with word := mode.value, attack := { record with lastResult := describe 0 } },
        ?_, ⟨?_, ?_, rfl, rfl⟩⟩
      · simp [op, Prog.perform, Prog.runAlone, exec, same, allowed, State.recordAttack]
      · simpa [allowed] using stored
      · simp [committedValue, allowed]
  | false =>
      refine ⟨-eFAULT, { k with attack := { record with lastResult := describe (-eFAULT) } },
        ?_, ⟨?_, ?_, rfl, rfl⟩⟩
      · simp [op, Prog.perform, Prog.runAlone, exec, same, allowed, State.recordAttack]
      · simp [attackOutcome, allowed, refused]
      · simp [committedValue, allowed]

/-- One attack, undisturbed: it always completes, records what happened, and changes nothing
but the word and its own record.
-/
theorem executeAttack_runAlone (page : SafetyPage) (tid : Nat) (mode : AttackMode)
    (choices : List Choice) (k : State)
    : ∃ ret k',
        (executeAttack page mode).runAlone (exec page tid) choices k = .done ret k'
        ∧ AttackDone page mode k k' := by
  have faulted : -eFAULT ≠ 0 := by decide
  cases mode with
  | vmalloc =>
      obtain ⟨record, rest, recorded⟩ := recordAttempt_runAlone page tid
        (some (AttackMode.vmalloc.target page)) .vmalloc _ choices k
      refine recorded ▸ copyAndRecord_runAlone page tid .vmalloc _ record rest k ?_ ?_
      · cases allowed : k.writable (AttackMode.vmalloc.target page) <;>
          simp [attackOutcome, allowed]
      · simp [faulted]
  | mutexBypass =>
      obtain ⟨record, rest, recorded⟩ := recordAttempt_runAlone page tid (some .direct)
        .mutexBypass _ choices k
      refine recorded ▸ copyAndRecord_runAlone page tid .mutexBypass _ record rest.tail k ?_ ?_
      · cases allowed : k.writable (AttackMode.mutexBypass.target page) <;>
          simp [attackOutcome, allowed]
      · simp [faulted]
  | linearAlias =>
      simp only [executeAttack, executeAttackMode3, physToVirt_physAddr]
      obtain ⟨record, rest, recorded⟩ := recordAttempt_runAlone page tid (some .direct)
        .linearAlias _ choices k
      refine recorded ▸ copyAndRecord_runAlone page tid .linearAlias _ record rest k ?_ ?_
      · cases allowed : k.writable (AttackMode.linearAlias.target page) <;>
          simp [attackOutcome, allowed]
      · simp [faulted]

/-- Commands to `bad_driver` one after the other, each with what the kernel answers it; the
results are what the attack record shows after each of them.
-/
def runAttacks (page : SafetyPage) (tid : Nat)
    : List (AttackMode × List Choice) → State → Option (List AttackResult × State)
  | [], k => some ([], k)
  | (mode, choices) :: rest, k =>
      match (executeAttack page mode).runAlone (exec page tid) choices k with
      | .done _ later =>
          (runAttacks page tid rest later).map (fun (results, last) =>
            (later.attack.lastResult :: results, last))
      | _ => none

/-- No attack changes what the next one meets, so a sequence of attacks has the outcomes its
first state gives them, and the word is the last committed value.
-/
theorem runAttacks_eq (page : SafetyPage) (tid : Nat)
    (commands : List (AttackMode × List Choice)) (k : State)
    : ∃ k',
        runAttacks page tid commands k
          = some (commands.map (fun command => attackOutcome page k command.1), k')
        ∧ k'.word
          = (commands.filterMap (fun command => committedValue page k command.1)).getLastD
              k.word := by
  induction commands generalizing k with
  | nil => exact ⟨k, rfl, rfl⟩
  | cons command rest ih =>
      obtain ⟨mode, choices⟩ := command
      obtain ⟨ret, later, ran, done⟩ := executeAttack_runAlone page tid mode choices k
      have samePath : ∀ target, later.writable target = k.writable target := by
        intro target
        have direct := congrArg Permissions.direct done.permissions
        have vmalloc := congrArg Permissions.vmalloc done.permissions
        simp only [Permissions.of] at direct vmalloc
        cases target <;> simp [State.writable, State.path, direct, vmalloc]
      have sameOutcome : attackOutcome page later = attackOutcome page k := by
        funext mode
        simp only [attackOutcome, samePath, done.mutex]
      have sameValue : committedValue page later = committedValue page k := by
        funext mode
        simp only [committedValue, samePath]
      obtain ⟨k', ranRest, word⟩ := ih later
      rw [sameOutcome] at ranRest
      rw [sameValue, done.word] at word
      refine ⟨k', ?_, ?_⟩
      · simp [runAttacks, ran, ranRest, done.result]
      · rw [word, List.filterMap_cons]
        cases committedValue page k mode with
        | none => rfl
        | some value => exact List.getLastD_cons.symm

/-- Protection changes only, with every `set_memory_*` call free to fail. -/
def toggles : KernelPolicy where
  calls _ call :=
    match call with
    | .setProtection _ => true
    | _ => false
  steps _ _ _ _ _ := true

theorem toggles_keeps (page : SafetyPage)
    : Keeps page toggles (fun _ perms => FlagTruthful page perms) (fun _ _ => True) where
  protect := by
    intro tid order perms perms₁ perms₂ err₁ err₂ shaped _ attempt₁ attempt₂
    exact FlagTruthful.protect shaped attempt₁ attempt₂
  unprotect := by
    intro _ _ _ _ _ _ _ _ _ _ _ isSet
    cases isSet
  writeUnprotected := by
    intro val tid order perms admitted
    cases admitted
  writeProtected := by
    intro val tid order perms perms₁ perms₂ err₁ err₂ admitted
    cases admitted
  threads := by
    intro _ _ _ _ _ _ truthful _
    exact ⟨trivial, truthful⟩

-- What an attack records under a set flag and a free mutex, and what it commits if it can.
def resultUnderFlag (directWritable : Bool) : AttackMode → AttackResult
  | .vmalloc => .blockedEfault
  | .mutexBypass => if directWritable then .successUnprotected else .blockedEfault
  | .linearAlias => if directWritable then .successBypass else .blockedEfault

def bypassValue (directWritable : Bool) : AttackMode → Option UInt32
  | .vmalloc => none
  | mode => if directWritable then some mode.value else none

/-- In every state that reports the page as protected, attacks through the `vmap` alias are
blocked. Attacks through the direct alias are blocked exactly when that alias is read-only
too; otherwise each of them commits its value.
-/
theorem attacks_under_flag {page : SafetyPage} {k : State} {c : KernelConfig} (tid : Nat)
    (commands : List (AttackMode × List Choice)) (loaded : Loaded page k)
    (reachable : (machine page).Reachable toggles (Config.start k) c)
    (free : c.world.state.safetyMutex = none)
    (isSet : c.world.state.ctxProtected = true)
    : ∃ k',
        runAttacks page tid commands c.world.state
          = some (commands.map (fun command =>
              resultUnderFlag (c.world.state.writable .direct) command.1), k')
        ∧ k'.word
          = (commands.filterMap (fun command =>
              bypassValue (c.world.state.writable .direct) command.1)).getLastD
              c.world.state.word := by
  have respects : RespectsMutex toggles := by
    intro tid attackMode admitted
    cases admitted
  obtain ⟨_, truthful⟩ := (toggles_keeps page).good_of_free respects loaded
    (FlagTruthful.initially loaded) reachable free
  obtain ⟨exists_, vmallocReadOnly⟩ := truthful isSet
  have readOnly : c.world.state.writable .vmalloc = false := vmallocReadOnly
  have outcomes : attackOutcome page c.world.state
      = resultUnderFlag (c.world.state.writable .direct) := by
    funext mode
    cases openDirect : c.world.state.writable .direct <;> cases mode <;>
      simp [attackOutcome, resultUnderFlag, AttackMode.target, exists_, readOnly, free,
        openDirect]
  have values : committedValue page c.world.state
      = bypassValue (c.world.state.writable .direct) := by
    funext mode
    cases openDirect : c.world.state.writable .direct <;> cases mode <;>
      simp [committedValue, bypassValue, AttackMode.target, exists_, readOnly, openDirect]
  rw [← outcomes, ← values]
  exact runAttacks_eq page tid commands c.world.state

/-- Both aliases became read-only, and all three attacks are blocked. -/
theorem attacks_under_flag_sample
    : ∃ c k',
        (machine (samplePage true)).Reachable toggles
          (Config.start (freshlyLoaded (samplePage true))) c
        ∧ runAttacks (samplePage true) 9
            [(.vmalloc, []), (.mutexBypass, []), (.linearAlias, [])] c.world.state
          = some ([.blockedEfault, .blockedEfault, .blockedEfault], k')
        ∧ k'.word = c.world.state.word := by
  obtain ⟨c, reachable, seen⟩ := Machine.Reachable.observed
    (wholeCall 0 (.setProtection true) (List.replicate 10 0))
    (fun c : KernelConfig =>
      (c.world.state.safetyMutex, c.world.state.ctxProtected, c.world.state.writable .direct))
    (show (Machine.run (machine (samplePage true)) toggles
      (Config.start (freshlyLoaded (samplePage true))) _).map _ = some (none, true, false) by
        decide +kernel)
  simp only [Prod.mk.injEq] at seen
  obtain ⟨free, isSet, readOnly⟩ := seen
  obtain ⟨k', ran, word⟩ := attacks_under_flag 9
    [(.vmalloc, []), (.mutexBypass, []), (.linearAlias, [])]
    (freshlyLoaded_loaded (samplePage true)) reachable free isSet
  rw [readOnly] at ran word
  exact ⟨c, k', reachable, ran, word⟩

/-- The direct alias could not be protected: the page is reported as protected, and attack
mode 2 changes the word.
-/
theorem attack_succeeds_under_flag
    : Loaded (samplePage true) (freshlyLoaded (samplePage true))
      ∧ ∃ c k',
          (machine (samplePage true)).Reachable toggles
            (Config.start (freshlyLoaded (samplePage true))) c
          ∧ c.world.state.safetyMutex = none
          ∧ c.world.state.ctxProtected = true
          ∧ runAttacks (samplePage true) 9 [(.mutexBypass, [])] c.world.state
            = some ([.successUnprotected], k')
          ∧ c.world.state.word = safetySentinel
          ∧ k'.word = badDriverMutexBypassValue := by
  refine ⟨freshlyLoaded_loaded (samplePage true), ?_⟩
  obtain ⟨c, reachable, seen⟩ := Machine.Reachable.observed
    (wholeCall 0 (.setProtection true) [0, 0, -eNOMEM, 0, 0, 0, 0, 0, 0, 0])
    (fun c : KernelConfig =>
      (c.world.state.safetyMutex, c.world.state.ctxProtected, c.world.state.word,
        (runAttacks (samplePage true) 9 [(.mutexBypass, [])] c.world.state).map (fun ran =>
          (ran.1, ran.2.word))))
    (show (Machine.run (machine (samplePage true)) toggles
      (Config.start (freshlyLoaded (samplePage true))) _).map _
        = some (none, true, safetySentinel,
            some ([.successUnprotected], badDriverMutexBypassValue)) from rfl)
  simp only [Prod.mk.injEq, Option.map_eq_some_iff] at seen
  obtain ⟨free, isSet, word, ⟨results, k'⟩, ran, rfl, after⟩ := seen
  exact ⟨c, k', reachable, free, isSet, ran, word, after⟩

end SafetyIsolation.Protection

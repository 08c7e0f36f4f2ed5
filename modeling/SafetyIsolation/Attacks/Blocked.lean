import SafetyIsolation.Interleaving.Alone
import SafetyIsolation.Interleaving.Steps
import SafetyIsolation.Kernel.Loading

/-! An attack on a read-only `vmap` alias. The alias stays read-only until somebody makes it
writable, and an attack made meanwhile counts itself and is refused.
-/

namespace SafetyIsolation.Attacks

open SafetyIsolation.Interleaving SafetyIsolation.Interleaving.Prog SafetyIsolation.Kernel

-----------------------------------------------------------------------------------------
-- The flag and the shape of the alias
-----------------------------------------------------------------------------------------

/-- Code that sets the flag to false only, when the null address is the one that is walked. -/
def NeverSets (page : SafetyPage) : Kern Int → Prop
  | .ret _ => True
  | .act (.setCtxProtected on) next => on = false ∧ NeverSets page (next ())
  | .act (.walkPgtable none) next => NeverSets page (next (safetyMemWalkPgtable 0 page.nullPath))
  | .act _ next => ∀ result, NeverSets page (next result)

theorem neverSets_walkVmalloc {page : SafetyPage} (missing : page.hasVmalloc = false)
    {next : WalkInfo → Kern Int}
    (h : NeverSets page (next (safetyMemWalkPgtable 0 page.nullPath)))
    : NeverSets page (.act (.walkPgtable page.vmallocPtr) next) := by
  have nowhere : page.vmallocPtr = none := by
    rw [SafetyPage.vmallocPtr, missing]
    rfl
  rw [nowhere]
  exact h

/-- Without a `vmap` alias the verification of `safety_mem_set_protection` always fails. -/
theorem neverSets_setProtection {page : SafetyPage} (missing : page.hasVmalloc = false)
    (enable : Bool)
    : NeverSets page (safetyMemSetProtection page enable) := by
  have ends (retVirt retVmalloc : Int) : NeverSets page (walkAndReturn page retVirt retVmalloc) :=
    fun _ => neverSets_walkVmalloc missing trivial
  cases enable with
  | false =>
      rw [safetyMemSetProtection_false]
      simp only [onVmalloc, missing, Bool.false_eq_true, if_false]
      exact fun _ _ retVirt => ⟨rfl, fun _ => ends retVirt 0⟩
  | true =>
      rw [safetyMemSetProtection_true]
      simp only [onVmalloc, missing, Bool.false_eq_true, if_false]
      refine fun _ _ retVirt _ => neverSets_walkVmalloc missing ⟨?_, fun _ => ends retVirt 0⟩
      simp [verifiedReadOnly, page.null_not_valid]

/-- Operations that leave the flag and the shape of the alias alone, apart from its permission. -/
def unflagging : Op → Bool
  | .setCtxProtected _ | .vunmap => false
  | _ => true

theorem neverSets_of_unflagging {page : SafetyPage} {rest : Kern Int}
    (h : rest.All (fun operation => unflagging operation = true))
    : NeverSets page rest := by
  induction rest with
  | ret value => trivial
  | act operation next ih =>
      have later (result : operation.Res) := ih result (h.2 result)
      have first := h.1
      cases operation with
      | setCtxProtected on => cases first
      | walkPgtable ptr =>
          cases ptr with
          | none => exact later _
          | some target => exact later
      | _ => exact later

theorem neverSets_body {page : SafetyPage} (missing : page.hasVmalloc = false) (call : Call)
    : NeverSets page (call.body page) := by
  have others (h : ∀ operation, call.performs operation = true → unflagging operation = true)
      : NeverSets page (call.body page) :=
    neverSets_of_unflagging ((body_performs page call).imp h)
  cases call with
  | setProtection enable => exact neverSets_setProtection missing enable
  | isProtected =>
      refine others (fun operation performs => ?_)
      obtain rfl := eq_of_beq performs
      rfl
  | _ =>
      refine others (fun operation performs => ?_)
      cases operation with
      | setCtxProtected on => cases performs
      | vunmap => cases performs
      | _ => rfl

theorem performs_not_vunmap {call : Call} {operation : Op}
    (performs : call.performs operation = true)
    : operation ≠ .vunmap := by
  rintro rfl
  cases call <;> cases performs

section Exec

variable {page : SafetyPage} {tid : Nat} {choice : Choice} {operation : Op}
  {result : operation.Res} {k k' : State}

/-- What an operation does to the `vmap` alias: nothing, or a permission change. -/
theorem exec_vmalloc (kept : operation ≠ .vunmap)
    (done : exec page tid choice operation k = .done result k')
    : k'.vmalloc = k.vmalloc
      ∨ ∃ write, operation = .setMemory .vmalloc write ∧ choice.err = 0
          ∧ k'.vmalloc = k.vmalloc.setWrite write := by
  cases operation with
  | vunmap => exact absurd rfl kept
  | setMemory target write =>
      simp only [exec] at done
      split at done
      · rename_i succeeded
        cases done
        cases target with
        | direct => exact .inl rfl
        | vmalloc => exact .inr ⟨write, rfl, succeeded, rfl⟩
      · cases done
        exact .inl rfl
  | mutexLock | mutexTrylock | procCreate =>
      simp only [exec] at done
      split at done <;> first | (cases done; exact .inl rfl) | cases done
  | mutexUnlock | clearMutexOwner | setCtxProtected _ | setSafetyBufPtr _ | setInitialMapping _
  | removeProcEntry | freePages =>
      cases done
      exact .inl rfl
  | _ =>
      have same := (exec_quiet rfl done).2.1
      exact .inl (congrArg Permissions.vmalloc same)

theorem exec_flag (done : exec page tid choice operation k = .done result k')
    : k'.ctxProtected = k.ctxProtected ∨ operation = .setCtxProtected k'.ctxProtected := by
  cases operation with
  | setCtxProtected on =>
      cases done
      exact .inr rfl
  | setMemory target write =>
      simp only [exec] at done
      split at done
      · cases done
        exact .inl (setWrite_ctxProtected k target write)
      · cases done
        exact .inl rfl
  | mutexLock | mutexTrylock | procCreate =>
      simp only [exec] at done
      split at done <;> first | (cases done; exact .inl rfl) | cases done
  | mutexUnlock | clearMutexOwner | setSafetyBufPtr _ | setInitialMapping _ | removeProcEntry
  | vunmap | freePages =>
      cases done
      exact .inl rfl
  | _ =>
      have same := (exec_quiet rfl done).2.1
      exact .inl (congrArg Permissions.flag same)

end Exec

/-- The `vmap` alias is a page mapping, and the flag is set only if there is such an alias. -/
structure Sane (page : SafetyPage) (c : KernelConfig) : Prop where
  isPage : c.world.state.vmalloc.IsPage
  flag : page.hasVmalloc = false → c.world.state.ctxProtected = false
  running : ∀ tid call rest, c.threads tid = .running call rest
    → rest.All (· ≠ .vunmap) ∧ (page.hasVmalloc = false → NeverSets page rest)

theorem Sane.start {page : SafetyPage} {k : State} (loaded : Loaded page k)
    : Sane page (Config.start k) := by
  have permissions := loaded.facts.permissions
  refine ⟨loaded.shaped.vmalloc, fun _ => congrArg Permissions.flag permissions, ?_⟩
  intro tid call rest running
  cases running

theorem NeverSets.act {page : SafetyPage} {tid : Nat} {choice : Choice} {operation : Op}
    {next : operation.Res → Kern Int} {result : operation.Res} {k k' : State}
    (h : NeverSets page (.act operation next))
    (done : exec page tid choice operation k = .done result k')
    : NeverSets page (next result) ∧ (operation = .setCtxProtected true → False) := by
  cases operation with
  | setCtxProtected on =>
      refine ⟨h.2, fun isSet => ?_⟩
      obtain rfl := h.1
      cases isSet
  | walkPgtable ptr =>
      refine ⟨?_, fun isSet => (by cases isSet)⟩
      cases ptr with
      | none =>
          cases done
          exact h
      | some target => exact h result
  | _ => exact ⟨h result, fun isSet => (by cases isSet)⟩

/-- What one step keeps of the flag and the alias. -/
theorem Sane.step {page : SafetyPage} {p : KernelPolicy} {c c' : KernelConfig}
    {event : Event Nat Call Choice} (h : Sane page c)
    (stepped : (machine page).step p c event = some c')
    : Sane page c' := by
  have running := Machine.step_running h.running
    (fun tid call _ _ => ⟨(body_performs page call).imp (fun _ => performs_not_vunmap),
      fun missing => neverSets_body missing call⟩)
    (fun tid call operation next choice result state _ _ done good =>
      ⟨good.1.2 result, fun missing => ((good.2 missing).act done).1⟩) stepped
  cases Machine.step_taken stepped with
  | call _ _ => exact ⟨h.isPage, h.flag, running⟩
  | fault _ _ _ => exact ⟨h.isPage, h.flag, running⟩
  | ret _ => exact ⟨h.isPage, h.flag, running⟩
  | @act tid call operation next choice result k' wasRunning _ done =>
      obtain ⟨kept, unset⟩ := h.running tid call _ wasRunning
      refine ⟨?_, fun missing => ?_, running⟩
      · rcases exec_vmalloc kept.1 done with same | ⟨write, _, _, changed⟩
        · exact same ▸ h.isPage
        · exact changed ▸ h.isPage.setWrite write
      · rcases exec_flag done with same | isSet
        · exact same.trans (h.flag missing)
        · refine Bool.eq_false_iff.mpr (fun isTrue => ((unset missing).act done).2 ?_)
          rw [isSet]
          exact congrArg Op.setCtxProtected isTrue

/-- The event makes the `vmap` alias writable. -/
def Opens (c : KernelConfig) : Event Nat Call Choice → Prop
  | .step tid choice =>
      choice.err = 0
      ∧ ∃ call next, c.threads tid = .running call (.act (.setMemory .vmalloc true) next)
  | _ => False

/-- A read-only alias stays read-only until it is made writable. -/
theorem readOnly_step {page : SafetyPage} {p : KernelPolicy} {c c' : KernelConfig}
    {event : Event Nat Call Choice} (sane : Sane page c)
    (readOnly : c.world.state.writable .vmalloc = false) (closed : ¬ Opens c event)
    (stepped : (machine page).step p c event = some c')
    : c'.world.state.writable .vmalloc = false := by
  cases Machine.step_taken stepped with
  | call _ _ => exact readOnly
  | fault _ _ _ => exact readOnly
  | ret _ => exact readOnly
  | @act tid call operation next choice result k' running _ done =>
      change k'.vmalloc.writable = false
      have readOnly : c.world.state.vmalloc.writable = false := readOnly
      rcases exec_vmalloc (sane.running tid call _ running).1.1 done with
        same | ⟨write, rfl, succeeded, changed⟩
      · rw [same, readOnly]
      · cases write with
        | false => rw [changed, TablePath.writable_setWrite false sane.isPage.mapped]
        | true => exact absurd ⟨succeeded, call, next, running⟩ closed

-----------------------------------------------------------------------------------------
-- The attack
-----------------------------------------------------------------------------------------

/-- Operations that leave the count of attacks alone. -/
def unattacking : Op → Bool
  | .writeCounter .attack _ => false
  | _ => true

theorem exec_attackCount {page : SafetyPage} {tid : Nat} {choice : Choice} {operation : Op}
    {result : operation.Res} {k k' : State} (h : unattacking operation = true)
    (done : exec page tid choice operation k = .done result k')
    : k'.attack.attackCount = k.attack.attackCount := by
  cases operation with
  | writeCounter counter value =>
      cases counter with
      | attack => cases h
      | violation | contention =>
          cases done
          rfl
  | mutexLock | mutexTrylock | store _ _ | copyToKernelNofault _ _ | procCreate =>
      simp only [exec] at done
      split at done <;> first | (cases done; rfl) | cases done
  | setMemory target write =>
      simp only [exec] at done
      split at done
      · cases done
        cases target <;> rfl
      · cases done
        rfl
  | walkPgtable ptr => cases ptr <;> (cases done; rfl)
  | recordAttack field => cases field <;> (cases done; rfl)
  | atomicInc counter => cases counter <;> (cases done; rfl)
  | _ =>
      cases done
      rfl

theorem unattacking_of_performs {call : Call} {operation : Op}
    (h : ∀ mode, call ≠ .attack mode) (performs : call.performs operation = true)
    : unattacking operation = true := by
  cases call with
  | attack mode => exact absurd rfl (h mode)
  | isProtected =>
      obtain rfl := eq_of_beq performs
      rfl
  | _ =>
      cases operation with
      | writeCounter counter value =>
          cases counter with
          | attack => cases performs
          | violation | contention => rfl
      | _ => rfl

/-- How far an attack has come: the count it has read, and whether it has counted itself and made
its copy.
-/
structure AttackStage where
  read : Option UInt32 := none
  counted : Bool := false
  copied : Bool := false

/-- What an attack may do to get on: it counts itself once, by one more than it has read, and
copies to its target.
-/
def noteCopy (page : SafetyPage) : (op : Op) → op.Res → AttackStage → Option AttackStage
  | .readCounter .attack, value, stage => some { stage with read := some value }
  | .writeCounter .attack value, _, stage =>
      if stage.read.map (· + 1) = some value ∧ stage.counted = false then
        some { stage with counted := true }
      else none
  | .copyToKernelNofault target _, _, stage =>
      if target = AttackMode.vmalloc.target page then some { stage with copied := true } else none
  | .store _ _, _, _ => none
  | _, _, stage => some stage

instance (operation : Op) : Nonempty operation.Res := by
  cases operation with
  | walkPgtable ptr => exact ⟨safetyMemWalkPgtable 0 samplePath⟩
  | _ => infer_instance

/-- The first attack mode counts itself and makes its copy before it returns. -/
theorem executeAttack_stages (page : SafetyPage)
    : (executeAttack page .vmalloc).Always (observed (noteCopy page)) (fun _ => True)
        (fun _ stage => stage.counted = true ∧ stage.copied = true) {} := by
  simp only [executeAttack, executeAttackMode1, recordAttempt, increment, copyToKernelNofault, op,
    Prog.perform, Prog.monad_bind, Prog.act_bind, Prog.ret_bind, Prog.monad_pure,
    always_observed_act]
  -- The four fields of the record, then the count.
  refine fun _ => ⟨_, rfl, fun _ => ⟨_, rfl, fun now => ⟨_, rfl, fun _ => ⟨_, rfl, fun value => ?_⟩⟩⟩⟩
  refine ⟨_, rfl, fun _ => ⟨_, if_pos ⟨rfl, rfl⟩, fun ret => ⟨_, if_pos rfl, fun _ => ?_⟩⟩⟩
  exact ⟨_, rfl, rfl, rfl⟩

/-- The copy of the attack was made by a thread and refused. -/
def Refused (attacker : Nat) (history : List KernelLabel) : Prop :=
  ∃ target value ret, ret ≠ 0
    ∧ .act attacker (.attack .vmalloc) (.copyToKernelNofault target value) (some ret) ∈ history

theorem Refused.push {attacker : Nat} {history : List KernelLabel} (h : Refused attacker history)
    (label : KernelLabel)
    : Refused attacker (history ++ [label]) := by
  obtain ⟨target, value, ret, failed, member⟩ := h
  exact ⟨target, value, ret, failed, List.mem_append_left _ member⟩

/-- What the stage of an attack says about the system: it started from `count`. -/
structure AttackStage.Matches (stage : AttackStage) (attacker : Nat) (count : UInt32)
    (w : KernelWorld) : Prop where
  counted : stage.counted = true → w.state.attack.attackCount = count + 1
  uncounted : stage.counted = false → w.state.attack.attackCount = count
  read : stage.counted = false → ∀ value, stage.read = some value → value = count
  copied : stage.copied = true → Refused attacker w.history

/-- The code of an attack under way. -/
def Underway (page : SafetyPage) (stage : AttackStage) (rest : Kern Int) : Prop :=
  rest.Always (observed (noteCopy page)) (fun _ => True)
    (fun _ stage => stage.counted = true ∧ stage.copied = true) stage

/-- One thread attacks and no other does. -/
structure Attacking (page : SafetyPage) (attacker : Nat) (count : UInt32) (c : KernelConfig) : Prop where
  others : ∀ tid call rest, c.threads tid = .running call rest
    → tid = attacker ∨ rest.All (fun operation => unattacking operation = true)
  own : ∃ stage : AttackStage, stage.Matches attacker count c.world
    ∧ ((c.threads attacker = .idle ∧ stage.counted = true ∧ stage.copied = true)
      ∨ ∃ rest, c.threads attacker = .running (.attack .vmalloc) rest ∧ Underway page stage rest)

/-- Nobody attacks, and the count stands. -/
structure Calm (count : UInt32) (c : KernelConfig) : Prop where
  counted : c.world.state.attack.attackCount = count
  running : ∀ tid call rest, c.threads tid = .running call rest
    → rest.All (fun operation => unattacking operation = true)

/-- A step that leaves the count alone. -/
theorem AttackStage.Matches.other {attacker : Nat} {count : UInt32} {w : KernelWorld}
    {stage : AttackStage} {k' : State} (h : stage.Matches attacker count w)
    (same : k'.attack.attackCount = w.state.attack.attackCount) (label : KernelLabel)
    : stage.Matches attacker count (w.push k' label) :=
  ⟨fun counted => same.trans (h.counted counted),
    fun uncounted => same.trans (h.uncounted uncounted), h.read,
    fun copied => (h.copied copied).push label⟩

/-- An operation of the attack itself. On a read-only alias its copy is refused. -/
theorem AttackStage.Matches.act {page : SafetyPage} {attacker : Nat} {count : UInt32} {w : KernelWorld}
    {stage stage' : AttackStage} {operation : Op} {result : operation.Res} {choice : Choice}
    {k' : State} (h : stage.Matches attacker count w) (exists_ : page.hasVmalloc = true)
    (readOnly : w.state.writable .vmalloc = false)
    (noted : noteCopy page operation result stage = some stage')
    (done : exec page attacker choice operation w.state = .done result k')
    : stage'.Matches attacker count
        (w.push k' (.act attacker (.attack .vmalloc) operation (some result))) := by
  cases operation with
  | readCounter counter =>
      cases counter with
      | attack =>
          cases noted
          cases done
          have kept := h.other rfl (.act attacker (.attack .vmalloc) (.readCounter .attack)
            (some w.state.attack.attackCount))
          refine ⟨kept.counted, kept.uncounted, fun uncounted value isRead => ?_, kept.copied⟩
          rw [← Option.some.inj isRead]
          exact h.uncounted uncounted
      | violation | contention =>
          cases noted
          exact h.other (exec_attackCount rfl done) _
  | writeCounter counter value =>
      cases counter with
      | attack =>
          obtain ⟨⟨isRead, uncounted⟩, counted⟩ := Option.ite_none_right_eq_some.mp noted
          cases counted
          cases done
          obtain ⟨read, found, next⟩ := Option.map_eq_some_iff.mp isRead
          refine ⟨fun _ => ?_, fun isFalse => (by cases isFalse), fun isFalse => (by cases isFalse),
            fun copied => (h.copied copied).push _⟩
          rw [World.push_state, ← h.read uncounted read found, next]
          rfl
      | violation | contention =>
          cases noted
          exact h.other (exec_attackCount rfl done) _
  | copyToKernelNofault target value =>
      have same := exec_attackCount rfl done
      obtain ⟨isTarget, copied⟩ := Option.ite_none_right_eq_some.mp noted
      cases copied
      have isVmalloc : target = .vmalloc := isTarget.trans (if_pos exists_)
      have kept := h.other same (.act attacker (.attack .vmalloc) (.copyToKernelNofault target value)
        (some result))
      refine ⟨kept.counted, kept.uncounted, kept.read, fun _ => ⟨target, value, result, ?_, ?_⟩⟩
      · simp only [exec, isVmalloc, readOnly, Bool.false_eq_true, if_false] at done
        cases done
        change (-eFAULT : Int) ≠ 0
        decide
      · exact List.mem_append_right _ List.mem_cons_self
  | store target value => cases noted
  | _ =>
      cases noted
      exact h.other (exec_attackCount rfl done) _

/-- What one step keeps while the alias is read-only. -/
theorem Attacking.step {page : SafetyPage} {p : KernelPolicy} {attacker : Nat} {count : UInt32}
    {c c' : KernelConfig} {event : Event Nat Call Choice} (h : Attacking page attacker count c)
    (exists_ : page.hasVmalloc = true) (readOnly : c.world.state.writable .vmalloc = false)
    (harmless : ∀ tid call, event = .call tid call → tid ≠ attacker ∧ ∀ mode, call ≠ .attack mode)
    (stepped : (machine page).step p c event = some c')
    : Attacking page attacker count c' := by
  have others := Machine.step_running h.others
    (fun tid call isCall _ => .inr ((body_performs page call).imp
      (fun _ => unattacking_of_performs (harmless tid call isCall).2)))
    (fun tid call operation next choice result state _ _ _ good =>
      good.imp_right (fun all => all.2 result)) stepped
  refine ⟨others, ?_⟩
  obtain ⟨stage, agrees, place⟩ := h.own
  cases Machine.step_taken stepped with
  | @call tid call _ _ =>
      have distinct := (harmless tid call rfl).1
      refine ⟨stage, agrees.other rfl _, ?_⟩
      rwa [Machine.step_untouched stepped distinct.symm]
  | @act tid call operation next choice result k' running _ done =>
      by_cases own : tid = attacker
      · subst own
        rcases place with ⟨idle, _⟩ | ⟨rest, isRunning, underway⟩
        · cases idle.symm.trans running
        · cases isRunning.symm.trans running
          obtain ⟨stage', noted, later⟩ := always_observed_act.mp underway result
          refine ⟨stage', agrees.act exists_ readOnly noted done, .inr ⟨next result, ?_, later⟩⟩
          exact Function.update_self _ _ _
      · have harmless := ((h.others tid call _ running).resolve_left own).1
        refine ⟨stage, agrees.other (exec_attackCount harmless done) _, ?_⟩
        rwa [Machine.step_untouched stepped (Ne.symm own)]
  | @fault tid call operation next choice running _ trapped =>
      by_cases own : tid = attacker
      · subst own
        rcases place with ⟨idle, _⟩ | ⟨rest, isRunning, underway⟩
        · cases idle.symm.trans running
        · -- An attack makes no plain store.
          cases isRunning.symm.trans running
          obtain ⟨target, value, rfl⟩ := exec_fault trapped
          obtain ⟨_, noted, _⟩ := always_observed_act.mp underway ()
          cases noted
      · refine ⟨stage, agrees.other rfl _, ?_⟩
        rwa [Machine.step_untouched stepped (Ne.symm own)]
  | @ret tid call value running =>
      by_cases own : tid = attacker
      · subst own
        rcases place with ⟨idle, _⟩ | ⟨rest, isRunning, underway⟩
        · cases idle.symm.trans running
        · cases isRunning.symm.trans running
          exact ⟨stage, agrees.other rfl _, .inl ⟨Function.update_self _ _ _, underway⟩⟩
      · refine ⟨stage, agrees.other rfl _, ?_⟩
        rwa [Machine.step_untouched stepped (Ne.symm own)]

theorem Calm.step {page : SafetyPage} {p : KernelPolicy} {count : UInt32} {c c' : KernelConfig}
    {event : Event Nat Call Choice} (h : Calm count c)
    (harmless : ∀ tid call, event = .call tid call → ∀ mode, call ≠ .attack mode)
    (stepped : (machine page).step p c event = some c')
    : Calm count c' := by
  have running := Machine.step_running h.running
    (fun tid call isCall _ => (body_performs page call).imp
      (fun _ => unattacking_of_performs (harmless tid call isCall)))
    (fun tid call operation next choice result state _ _ _ good => good.2 result) stepped
  refine ⟨?_, running⟩
  cases Machine.step_taken stepped with
  | call _ _ => exact h.counted
  | act wasRunning _ done =>
      exact (exec_attackCount (h.running _ _ _ wasRunning).1 done).trans h.counted
  | fault _ _ _ => exact h.counted
  | ret _ => exact h.counted

/-- An attack begins. -/
theorem Calm.attack {page : SafetyPage} {p : KernelPolicy} {attacker : Nat} {count : UInt32}
    {c c' : KernelConfig} (h : Calm count c)
    (stepped : (machine page).step p c (.call attacker (.attack .vmalloc)) = some c')
    : Attacking page attacker count c' := by
  cases Machine.step_taken stepped with
  | call idle _ =>
      refine ⟨fun tid call rest running => ?_, {}, ?_, .inr ⟨_, Function.update_self _ _ _,
        executeAttack_stages page⟩⟩
      · by_cases own : tid = attacker
        · exact .inl own
        · dsimp only at running
          rw [Function.update_of_ne own] at running
          exact .inr (h.running tid call rest running)
      · exact ⟨fun isTrue => (by cases isTrue), fun _ => h.counted,
          fun _ _ isRead => (by cases isRead), fun isTrue => (by cases isTrue)⟩

/-- An attack has ended: it has counted and was refused. -/
theorem Attacking.finished {page : SafetyPage} {attacker : Nat} {count : UInt32} {c : KernelConfig}
    (h : Attacking page attacker count c) (idle : c.threads attacker = .idle)
    : Calm (count + 1) c ∧ Refused attacker c.world.history := by
  obtain ⟨stage, agrees, place⟩ := h.own
  rcases place with ⟨_, counted, copied⟩ | ⟨rest, running, _⟩
  · refine ⟨⟨agrees.counted counted, fun tid call rest running => ?_⟩, agrees.copied copied⟩
    refine (h.others tid call rest running).resolve_left (fun own => ?_)
    subst own
    cases idle.symm.trans running
  · cases idle.symm.trans running

end SafetyIsolation.Attacks

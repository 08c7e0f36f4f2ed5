import SafetyIsolation.Attacks.Blocked
import SafetyIsolation.Harness.Session
import SafetyIsolation.Status.Searches

/-! The verdict on the isolated attack. Scenario F checks the `vmap` alias once, before it attacks,
and judges by the value of the word, so it is right as long as the attack is made and the alias
stays as it was found.
-/

namespace SafetyIsolation.Attacks

open SafetyIsolation.Interleaving SafetyIsolation.Interleaving.Prog SafetyIsolation.Kernel
  SafetyIsolation.Harness SafetyIsolation.Status SafetyIsolation.Text

/-- Other clients change the protection while Threads A and B run; the thread of the harness makes
the calls it writes for.
-/
def clients (harness : Nat) : KernelPolicy where
  calls tid call :=
    tid = harness
    || match call with
      | .setProtection _ | .threadA | .threadB => true
      | _ => false
  steps _ _ _ _ _ := true

/-- Setup of Scenario F and, if it succeeds, its action. -/
def setupAndRun (id : LoaderId) : Code (Option ScenarioResult) := do
  match ← ScenarioF.setup id with
  | .error _ => return none
  | .ok () => return some (← ScenarioF.run id)

/-- How far the scenario has come. -/
inductive Stage where
  | unverified
  | verified
  | attacked
  deriving DecidableEq

/-- What the scenario may do to get on: once it has found the alias read-only, the next thing it
does is the attack, and it makes only this one.
-/
def noteStage : (op : SysOp) → op.Res → Stage → Option Stage
  | .readProc point path, outcome, .unverified =>
      if point = .setup ∧ path = Demo.safetyMemStatus then
        some (if ScenarioF.targetMappingIsRo (outcome.result path) then .verified else .unverified)
      else none
  | .writeProc path text, _, .verified =>
      if path = Demo.badDriver ∧ text = Demo.kVmallocAttackCommand then some .attacked else none
  | .writeProc path _, _, .unverified => if path = Demo.badDriver then none else some .unverified
  | .writeProc _ _, _, .attacked => none
  | _, _, .verified => none
  | _, _, stage => some stage

/-- A read before the attack is the check. -/
theorem noteStage_check {point : ReadPoint} {path : Path} {outcome : ReadOutcome} {stage : Stage}
    (h : noteStage (.readProc point path) outcome .unverified = some stage)
    : (point = .setup ∧ path = Demo.safetyMemStatus)
      ∧ (stage = .unverified
        ∨ (stage = .verified ∧ ScenarioF.targetMappingIsRo (outcome.result path) = true)) := by
  obtain ⟨isCheck, isStage⟩ := Option.ite_none_right_eq_some.mp h
  refine ⟨isCheck, ?_⟩
  split at isStage
  · rename_i isRo
    exact .inr ⟨(Option.some.inj isStage).symm, isRo⟩
  · exact .inl (Option.some.inj isStage).symm

/-- What the scenario has done when it returns. -/
def Judged (out : Option ScenarioResult × Heap) (stage : Stage) : Prop :=
  stage ≠ .verified
  ∧ ∀ result, out.1 = some result → result.status = .passed → stage = .attacked

theorem scenarioF_judged (id : LoaderId) (heap : Heap)
    : Ensures (observed noteStage) (fun _ => True) (setupAndRun id)
        (fun result heap stage => Judged (result, heap) stage) heap .unverified := by
  have loads : Keeps (observed noteStage) (fun _ => True) (fun _ stage => stage = .unverified)
      (loadEach id ScenarioF.modules) := by
    refine loadEach_keeps (fun path => ?_) (fun path params => ?_) id _
    · rintro heap stage rfl results _
      exact ⟨_, _, rfl, rfl⟩
    · rintro heap stage rfl results _
      exact ⟨_, _, rfl, rfl⟩
  simp only [setupAndRun, ScenarioF.setup, ensures_bind]
  refine (loads heap .unverified rfl).imp ?_
  rintro loaded heap' stage rfl
  cases loaded with
  | error message => exact ⟨by decide, fun result isNone => (by cases isNone)⟩
  | ok done =>
      simp only [ensures_bind, sys, ensures_perform, readProc, ensures_pure]
      intro results _
      refine ⟨_, .unverified, by rfl, fun results _ => ?_⟩
      cases isRo : ScenarioF.targetMappingIsRo
          ((results (.readProc .setup Demo.safetyMemStatus)).result Demo.safetyMemStatus) with
      | false =>
          refine ⟨results _, .unverified, by simp [observed, noteStage, isRo], ?_⟩
          rw [isRo]
          exact ⟨by decide, fun result isNone => (by cases isNone)⟩
      | true =>
          refine ⟨results _, .verified, by simp [observed, noteStage, isRo], ?_⟩
          rw [isRo]
          simp only [if_true, ensures_pure, ScenarioF.run, ensures_bind, sys, ensures_perform,
            readProc]
          intro results _
          refine ⟨(), .attacked, rfl, fun results _ => ⟨_, .attacked, rfl, fun results _ => ?_⟩⟩
          refine ⟨_, .attacked, rfl, fun results _ => ⟨_, .attacked, rfl, fun results _ => ?_⟩⟩
          refine ⟨_, .attacked, rfl, ?_⟩
          split
          · exact ⟨by decide, fun _ _ _ => rfl⟩
          · exact ⟨by decide, fun _ _ _ => rfl⟩

theorem verified_code {code : Prog SysOp SysOp.Res (Option ScenarioResult × Heap)}
    (h : code.Always (observed noteStage) (fun _ => True) Judged .verified)
    : ∃ next, code = .act (.writeProc Demo.badDriver Demo.kVmallocAttackCommand) next := by
  cases code with
  | ret out => exact absurd rfl h.1
  | act op next =>
      obtain ⟨result⟩ : Nonempty op.Res := inferInstance
      obtain ⟨stage, noted, _⟩ := always_observed_act.mp h result
      cases op with
      | writeProc path text =>
          obtain ⟨⟨rfl, rfl⟩, _⟩ := Option.ite_none_right_eq_some.mp noted
          exact ⟨next, rfl⟩
      | _ => cases noted

/-- `TASK_COMM_LEN`, which counts the terminating zero. -/
def taskCommLen : Nat := 16

/-- What `safety_mem_proc_show` has seen of the flag and of the `vmap` alias, and whether it was
given a proper task name.
-/
structure Seen where
  flag : Option Bool := none
  vmalloc : Option WalkInfo := none
  named : Bool := true

def noteSeen (page : SafetyPage) : (op : ReadOp) → op.Res → Seen → Option Seen
  | .ctxProtected, flag, seen => some { seen with flag := some flag }
  | .walkPgtable ptr, info, seen =>
      some (if ptr = page.vmallocPtr then { seen with vmalloc := some info } else seen)
  | .getTaskComm _, comm, seen =>
      some { seen with named := seen.named && decide (comm.length < taskCommLen) }
  | _, _, seen => some seen

instance (operation : ReadOp) : Nonempty operation.Res := by
  cases operation with
  | walkPgtable ptr => exact ⟨safetyMemWalkPgtable 0 samplePath⟩
  | initialMapping => exact ⟨safetyMemWalkPgtable 0 samplePath⟩
  | _ => infer_instance

/-- The report says what was seen. -/
structure Reports (report : StatusReport) (seen : Seen) : Prop where
  flag : seen.flag = some report.protectedState
  vmalloc : ∃ info, seen.vmalloc = some info ∧ report.vmallocMapping.isWritable = info.isWritable
  named : seen.named = true → report.ownerBuf.length < taskCommLen

/-- The name that is printed is the task's, or one of two short words. -/
theorem readOwner_reports (page : SafetyPage) (seen : Seen)
    : readOwner.Always (observed (noteSeen page)) (fun _ => True)
        (fun comm later => later.flag = seen.flag ∧ later.vmalloc = seen.vmalloc
          ∧ (later.named = true → comm.length < taskCommLen)) seen := by
  simp only [readOwner, sample, Prog.perform, Prog.monad_bind, Prog.act_bind, Prog.ret_bind,
    Prog.monad_pure, always_observed_act]
  refine fun locked => ⟨_, rfl, ?_⟩
  cases locked with
  | false => exact ⟨rfl, rfl, fun _ => by decide⟩
  | true =>
      refine always_observed_act.mpr (fun owner => ⟨_, rfl, ?_⟩)
      cases owner with
      | none => exact ⟨rfl, rfl, fun _ => by decide⟩
      | some owner =>
          refine always_observed_act.mpr (fun comm => ⟨_, rfl, rfl, rfl, fun named => ?_⟩)
          exact of_decide_eq_true (Bool.and_eq_true_iff.mp named).2

/-- After the flag and the owner, the code walks both mappings and prints what it has seen. -/
theorem collectStatus_reports (page : SafetyPage) (raw : Entry → UInt64)
    : (collectStatus page raw).Always (observed (noteSeen page)) (fun _ => True) Reports {} := by
  have skips (operation : ReadOp)
      (plain : ∀ result seen, noteSeen page operation result seen = some seen) (seen : Seen)
      : (sample operation).Always (observed (noteSeen page)) (fun _ => True)
          (fun _ later => later = seen) seen :=
    always_observed_act.mpr (fun result => ⟨seen, plain result seen, rfl⟩)
  have maybe {condition : Prop} [Decidable condition] (target : Alias)
      {next : UInt32 → Reader StatusReport} {seen : Seen}
      (h : ∀ value, (next value).Always (observed (noteSeen page)) (fun _ => True) Reports seen)
      : (if condition then (sample (.copyFromKernelNofault target)).bind next
          else (Prog.ret 0).bind next).Always (observed (noteSeen page)) (fun _ => True) Reports
            seen := by
    split
    · exact always_observed_act.mpr (fun value => ⟨seen, rfl, h value⟩)
    · exact h 0
  simp only [collectStatus, Prog.monad_bind, Prog.monad_pure, always_bind]
  refine always_observed_act.mpr (fun flag => ⟨_, rfl, ?_⟩)
  refine (skips .smmuActive (fun _ _ => rfl) _).imp ?_
  rintro smmuState _ rfl
  refine maybe .vmalloc (fun valVmalloc => maybe .direct (fun valPhys => ?_))
  simp only [always_bind]
  refine (readOwner_reports page _).imp ?_
  intro ownerBuf seen noted
  obtain ⟨sameFlag, _, named⟩ := noted
  have direct : some Alias.direct ≠ page.vmallocPtr := by
    unfold SafetyPage.vmallocPtr
    split <;> simp
  refine (skips (.walkPgtable (some .direct)) (fun _ _ => congrArg some (if_neg direct)) _).imp ?_
  rintro currentMapping _ rfl
  refine always_observed_act.mpr (fun vmallocMapping => ⟨_, congrArg some (if_pos rfl), ?_⟩)
  refine (skips .initialMapping (fun _ _ => rfl) _).imp ?_
  rintro initialMapping _ rfl
  exact ⟨sameFlag, ⟨vmallocMapping, rfl, rfl⟩, named⟩

section Condition

variable {α : Type}

/-- The alias is being checked, or was found read-only and is about to be attacked. -/
def Armed (s : Session α) : Prop :=
  (∃ next reader, s.code = .act (.readProc .setup Demo.safetyMemStatus) next
    ∧ s.place = .reading reader)
  ∨ ∃ text next, s.code = .act (.writeProc Demo.badDriver text) next

/-- The control file of the attack is opened, and nobody makes the alias writable from the check
on until the attack has returned. The kernel's task names are as short as it promises.
-/
def Uncontested (s : Session α) : SessionEvent → Prop
  | .kernel event => Armed s → ¬ Opens s.kernel event
  | .openWrite opened =>
      (∃ text next, s.code = .act (.writeProc Demo.badDriver text) next) → opened = true
  | .read around => around.comm.length < taskCommLen
  | _ => True

end Condition

-----------------------------------------------------------------------------------------
-- One event
-----------------------------------------------------------------------------------------

/-- What has been seen of the status still holds. -/
structure Current (page : SafetyPage) (k : State) (seen : Seen) : Prop where
  flag : seen.flag = some true → page.hasVmalloc = true
  vmalloc : ∀ info, seen.vmalloc = some info → info.isWritable = false
    → page.hasVmalloc = true → k.writable .vmalloc = false
  named : seen.named = true

/-- A read of the status under way. -/
def Checking (page : SafetyPage) (k : State) (reader : Reader StatusReport) : Prop :=
  ∃ seen, reader.Always (observed (noteSeen page)) (fun _ => True) Reports seen
    ∧ Current page k seen

/-- What holds at each stage of the scenario. -/
def AtStage (page : SafetyPage) (harness : Nat) (count : UInt32)
    (s : Session (Option ScenarioResult × Heap))
    : Stage → Prop
  | .unverified =>
      Calm count s.kernel
      ∧ ∀ reader, s.place = .reading reader
        → (∃ next, s.code = .act (.readProc .setup Demo.safetyMemStatus) next)
          ∧ Checking page s.kernel.world.state reader
  | .verified =>
      page.hasVmalloc = true
      ∧ s.kernel.world.state.writable .vmalloc = false
      ∧ ((s.place = .user ∧ Calm count s.kernel)
        ∨ (s.place = .writing ∧ Attacking page harness count s.kernel))
  | .attacked => Calm (count + 1) s.kernel ∧ Refused harness s.kernel.world.history

/-- The scenario is at some stage of its code and the system agrees. -/
structure Guarded (page : SafetyPage) (harness : Nat) (count : UInt32)
    (s : Session (Option ScenarioResult × Heap)) : Prop where
  sane : Sane page s.kernel
  stage : ∃ stage, s.code.Always (observed noteStage) (fun _ => True) Judged stage
    ∧ AtStage page harness count s stage

/-- The others make no attack. -/
theorem clients_harmless {page : SafetyPage} {harness : Nat} {c c' : KernelConfig}
    {event : Interleaving.Event Nat Call Kernel.Choice} (others : isCallOf harness event = false)
    (stepped : (machine page).step (clients harness) c event = some c')
    : ∀ tid call, event = .call tid call → tid ≠ harness ∧ ∀ mode, call ≠ .attack mode := by
  rintro tid call rfl
  have distinct : tid ≠ harness := of_decide_eq_false others
  refine ⟨distinct, ?_⟩
  rintro mode rfl
  cases Machine.step_taken stepped with
  | call _ admitted => simp [clients, distinct] at admitted

section Session

variable {page : SafetyPage} {raw : Entry → UInt64} {needs : String → List String} {harness : Nat}
  {count : UInt32} {s s' : Session (Option ScenarioResult × Heap)}

/-- A step of the kernel. -/
theorem Guarded.kernel {event : Interleaving.Event Nat Call Kernel.Choice} {kernel : KernelConfig}
    (h : Guarded page harness count s) (uncontested : Uncontested s (.kernel event))
    (others : isCallOf harness event = false)
    (stepped : (machine page).step (clients harness) s.kernel event = some kernel)
    : Guarded page harness count { s with kernel } := by
  have harmless := clients_harmless others stepped
  refine ⟨h.sane.step stepped, ?_⟩
  obtain ⟨stage, always, atStage⟩ := h.stage
  refine ⟨stage, always, ?_⟩
  cases stage with
  | unverified =>
      obtain ⟨calm, reading⟩ := atStage
      refine ⟨calm.step (fun tid call isCall => (harmless tid call isCall).2) stepped, ?_⟩
      intro reader isReading
      obtain ⟨⟨next, isCode⟩, seen, reports, current⟩ := reading reader isReading
      refine ⟨⟨next, isCode⟩, seen, reports, current.flag, ?_, current.named⟩
      intro info isInfo readOnly exists_
      exact readOnly_step h.sane (current.vmalloc info isInfo readOnly exists_)
        (uncontested (.inl ⟨next, reader, isCode, isReading⟩)) stepped
  | verified =>
      obtain ⟨exists_, readOnly, place⟩ := atStage
      obtain ⟨next, isCode⟩ := verified_code always
      refine ⟨exists_, ?_, ?_⟩
      · exact readOnly_step h.sane readOnly (uncontested (.inr ⟨_, next, isCode⟩)) stepped
      · rcases place with ⟨isUser, calm⟩ | ⟨isWriting, attacking⟩
        · exact .inl ⟨isUser, calm.step (fun tid call isCall => (harmless tid call isCall).2) stepped⟩
        · exact .inr ⟨isWriting, attacking.step exists_ readOnly harmless stepped⟩
  | attacked =>
      obtain ⟨calm, refused⟩ := atStage
      obtain ⟨label, history⟩ := Machine.step_history stepped
      refine ⟨calm.step (fun tid call isCall => (harmless tid call isCall).2) stepped, ?_⟩
      change Refused harness kernel.world.history
      rw [history]
      exact refused.push label

/-- Inserting a module changes nothing the scenario depends on. -/
theorem afterSystem_keeps (k : State) (op : SysOp) (result : op.Res)
    : (afterSystem k op result).vmalloc = k.vmalloc
      ∧ (afterSystem k op result).ctxProtected = k.ctxProtected
      ∧ (afterSystem k op result).attack = k.attack := by
  cases op with
  | insmod path params =>
      dsimp only [afterSystem]
      split
      · exact ⟨rfl, rfl, rfl⟩
      · exact ⟨rfl, rfl, rfl⟩
  | _ => exact ⟨rfl, rfl, rfl⟩

/-- An answer from elsewhere is no successful check. -/
theorem noteStage_elsewhere {choice : Harness.Choice} {op : SysOp} {result : op.Res}
    {sys sys' : Sys} {stage stage' : Stage} (answered : elsewhere choice op = true)
    (done : Harness.exec needs choice op sys = .done result sys')
    (noted : noteStage op result stage = some stage')
    : stage' = stage ∧ stage ≠ .verified := by
  cases stage with
  | verified =>
      cases op with
      | writeProc path text =>
          obtain ⟨⟨rfl, _⟩, _⟩ := Option.ite_none_right_eq_some.mp noted
          simp [elsewhere] at answered
      | _ => cases noted
  | attacked =>
      refine ⟨?_, by decide⟩
      cases op with
      | writeProc path text => cases noted
      | _ => exact (Option.some.inj noted).symm
  | unverified =>
      refine ⟨?_, by decide⟩
      cases op with
      | writeProc path text => exact (Option.some.inj (Option.ite_none_left_eq_some.mp noted).2).symm
      | readProc point path =>
          cases done
          obtain ⟨⟨_, rfl⟩, isStage⟩ := noteStage_check noted
          simp only [elsewhere] at answered
          cases isRead : choice.read with
          | content text =>
              rw [isRead] at answered
              simp at answered
          | missing | unopened | bad =>
              rw [isRead] at isStage
              exact isStage.resolve_right (fun isVerified => by cases isVerified.2)
      | _ => exact (Option.some.inj noted).symm

/-- The system answers. -/
theorem Guarded.system {choice : Harness.Choice} {op : SysOp}
    {next : op.Res → Prog SysOp SysOp.Res (Option ScenarioResult × Heap)} {result : op.Res}
    {sys : Sys} (h : Guarded page harness count s) (isCode : s.code = .act op next)
    (answered : elsewhere choice op = true)
    (done : Harness.exec needs choice op s.sys = .done result sys)
    : Guarded page harness count
        ⟨⟨⟨afterSystem s.kernel.world.state op result, s.kernel.world.history⟩,
          s.kernel.threads⟩, sys, next result, .user⟩ := by
  obtain ⟨vmalloc, flag, attack⟩ := afterSystem_keeps s.kernel.world.state op result
  obtain ⟨stage, always, atStage⟩ := h.stage
  rw [isCode] at always
  obtain ⟨stage', noted, later⟩ := always_observed_act.mp always result
  obtain ⟨rfl, unarmed⟩ := noteStage_elsewhere answered done noted
  have calm {value : UInt32} (h : Calm value s.kernel)
      : Calm value ⟨⟨afterSystem s.kernel.world.state op result, s.kernel.world.history⟩,
          s.kernel.threads⟩ :=
    ⟨(congrArg AttackRecord.attackCount attack).trans h.counted, h.running⟩
  refine ⟨⟨vmalloc ▸ h.sane.isPage, fun missing => flag.trans (h.sane.flag missing),
    h.sane.running⟩, stage', later, ?_⟩
  cases stage' with
  | unverified => exact ⟨calm atStage.1, fun reader isReading => (by cases isReading)⟩
  | verified => exact absurd rfl unarmed
  | attacked => exact ⟨calm atStage.1, atStage.2⟩

/-- A write that has no effect on the modules, or has returned from them. -/
theorem Guarded.resume {path : Path} {text : Bytes}
    {next : Unit → Prog SysOp SysOp.Res (Option ScenarioResult × Heap)}
    (h : Guarded page harness count s) (isCode : s.code = .act (.writeProc path text) next)
    (finished : path = Demo.badDriver → text = Demo.kVmallocAttackCommand
      → AtStage page harness count s .verified
      → Calm (count + 1) s.kernel ∧ Refused harness s.kernel.world.history)
    : Guarded page harness count { s with place := .user, code := next () } := by
  obtain ⟨stage, always, atStage⟩ := h.stage
  rw [isCode] at always
  obtain ⟨stage', noted, later⟩ := always_observed_act.mp always ()
  refine ⟨h.sane, stage', later, ?_⟩
  cases stage with
  | unverified =>
      cases (Option.ite_none_left_eq_some.mp noted).2
      exact ⟨atStage.1, fun reader isReading => (by cases isReading)⟩
  | verified =>
      obtain ⟨⟨isPath, isText⟩, isStage⟩ := Option.ite_none_right_eq_some.mp noted
      cases isStage
      exact finished isPath isText atStage
  | attacked => cases noted

/-- The harness enters the kernel: to change the protection, or to attack what it has verified. -/
theorem Guarded.entered {path : Path} {text : Bytes} {call : Call} {kernel : KernelConfig}
    {next : Unit → Prog SysOp SysOp.Res (Option ScenarioResult × Heap)}
    (h : Guarded page harness count s) (isUser : s.place = .user)
    (isCode : s.code = .act (.writeProc path text) next)
    (requested : requestedCall path text = some call)
    (stepped : (machine page).step (clients harness) s.kernel (.call harness call) = some kernel)
    : Guarded page harness count { s with kernel, place := .writing } := by
  obtain ⟨stage, always, atStage⟩ := h.stage
  refine ⟨h.sane.step stepped, stage, always, ?_⟩
  rw [isCode] at always
  obtain ⟨stage', noted, _⟩ := always_observed_act.mp always ()
  cases stage with
  | unverified =>
      have notAttack := (Option.ite_none_left_eq_some.mp noted).1
      refine ⟨atStage.1.step ?_ stepped, fun reader isReading => (by cases isReading)⟩
      rintro _ _ isCall mode rfl
      cases isCall
      unfold requestedCall at requested
      split at requested
      · obtain ⟨enable, _, isCall⟩ := Option.map_eq_some_iff.mp requested
        cases isCall
      · cases requested
  | verified =>
      obtain ⟨⟨rfl, rfl⟩, _⟩ := Option.ite_none_right_eq_some.mp noted
      have isAttack : requestedCall Demo.badDriver Demo.kVmallocAttackCommand
          = some (.attack .vmalloc) := by decide
      cases isAttack.symm.trans requested
      obtain ⟨exists_, readOnly, place⟩ := atStage
      have closed : ¬ Opens s.kernel (.call harness (.attack .vmalloc)) := id
      rcases place with ⟨_, calm⟩ | ⟨isWriting, _⟩
      · exact ⟨exists_, readOnly_step h.sane readOnly closed stepped, .inr ⟨rfl, calm.attack stepped⟩⟩
      · cases isUser.symm.trans isWriting
  | attacked => cases noted

/-- One read of the status that is checked. -/
theorem Checking.read {k : State} {operation : ReadOp} {next : operation.Res → Reader StatusReport}
    {around : Surroundings} (isPage : k.vmalloc.IsPage)
    (flag : page.hasVmalloc = false → k.ctxProtected = false)
    (named : around.comm.length < taskCommLen) (h : Checking page k (.act operation next))
    : Checking page k (next (observe page around k operation)) := by
  obtain ⟨seen, reports, current⟩ := h
  obtain ⟨seen', noted, later⟩ := always_observed_act.mp reports (observe page around k operation)
  refine ⟨seen', later, ?_⟩
  cases operation with
  | ctxProtected =>
      cases noted
      refine ⟨fun isSet => ?_, current.vmalloc, current.named⟩
      cases exists_ : page.hasVmalloc with
      | true => rfl
      | false =>
          have unset : k.ctxProtected = true := Option.some.inj isSet
          rw [flag exists_] at unset
          cases unset
  | getTaskComm owner =>
      cases noted
      refine ⟨current.flag, current.vmalloc, ?_⟩
      rw [current.named]
      exact decide_eq_true named
  | walkPgtable ptr =>
      cases Option.some.inj noted
      split
      · rename_i isVmalloc
        refine ⟨current.flag, fun info isInfo readOnly exists_ => ?_, current.named⟩
        obtain rfl := Option.some.inj isInfo
        subst isVmalloc
        rw [SafetyPage.vmallocPtr, if_pos exists_] at readOnly
        exact (safetyMemWalkPgtable_isPage _ isPage).2.symm.trans readOnly
      · exact current
  | _ =>
      cases noted
      exact current

/-- The harness opens the status, to check it or after its attack. -/
theorem Guarded.openStatus {point : ReadPoint}
    {next : ReadOutcome → Prog SysOp SysOp.Res (Option ScenarioResult × Heap)}
    (h : Guarded page harness count s)
    (isCode : s.code = .act (.readProc point Demo.safetyMemStatus) next)
    : Guarded page harness count { s with place := .reading (collectStatus page raw) } := by
  obtain ⟨stage, always, atStage⟩ := h.stage
  refine ⟨h.sane, stage, always, ?_⟩
  rw [isCode] at always
  obtain ⟨stage', noted, _⟩ := always_observed_act.mp always .missing
  cases stage with
  | unverified =>
      obtain rfl := (noteStage_check noted).1.1
      refine ⟨atStage.1, fun reader isReading => ⟨⟨next, isCode⟩, {}, ?_, ?_⟩⟩
      · cases isReading
        exact collectStatus_reports page raw
      · exact ⟨fun isSet => (by cases isSet), fun _ isInfo => (by cases isInfo), rfl⟩
  | verified => cases noted
  | attacked => exact atStage

theorem Guarded.read {around : Surroundings} {operation : ReadOp}
    {next : operation.Res → Reader StatusReport} (h : Guarded page harness count s)
    (isReading : s.place = .reading (.act operation next))
    (named : around.comm.length < taskCommLen)
    : Guarded page harness count
        { s with
          place := .reading (next (observe page around s.kernel.world.state operation)) } := by
  obtain ⟨stage, always, atStage⟩ := h.stage
  refine ⟨h.sane, stage, always, ?_⟩
  cases stage with
  | unverified =>
      refine ⟨atStage.1, fun reader isReader => ?_⟩
      obtain ⟨isCode, checking⟩ := atStage.2 _ isReading
      cases isReader
      exact ⟨isCode, checking.read h.sane.isPage h.sane.flag named⟩
  | verified =>
      rcases atStage.2.2 with ⟨isUser, _⟩ | ⟨isWriting, _⟩
      · cases isUser.symm.trans isReading
      · cases isWriting.symm.trans isReading
  | attacked => exact atStage

/-- The status is shown. What the check finds in it was seen, and still holds. -/
theorem Guarded.shown {point : ReadPoint} {report : StatusReport}
    {next : ReadOutcome → Prog SysOp SysOp.Res (Option ScenarioResult × Heap)}
    (h : Guarded page harness count s) (isReading : s.place = .reading (.ret report))
    (isCode : s.code = .act (.readProc point Demo.safetyMemStatus) next)
    : Guarded page harness count
        { s with place := .user, code := next (.content (safetyMemProcShow report)) } := by
  obtain ⟨stage, always, atStage⟩ := h.stage
  rw [isCode] at always
  obtain ⟨stage', noted, later⟩ := always_observed_act.mp always
    (.content (safetyMemProcShow report))
  refine ⟨h.sane, stage', later, ?_⟩
  cases stage with
  | unverified =>
      obtain ⟨calm, reading⟩ := atStage
      obtain ⟨_, seen, reports, current⟩ := reading _ isReading
      have reports : Reports report seen := reports
      rcases (noteStage_check noted).2 with rfl | ⟨rfl, isRo⟩
      · exact ⟨calm, fun reader isReading => (by cases isReading)⟩
      · obtain ⟨enabled, readOnly⟩ :=
          targetMappingIsRo_report (reports.named current.named) isRo
        have exists_ := current.flag (enabled ▸ reports.flag)
        obtain ⟨info, isInfo, sameWritable⟩ := reports.vmalloc
        exact ⟨exists_, current.vmalloc info isInfo (sameWritable.symm.trans readOnly) exists_,
          .inl ⟨rfl, calm⟩⟩
  | verified => cases noted
  | attacked =>
      cases noted
      exact atStage

/-- What one event of the session keeps. -/
theorem Guarded.step {event : SessionEvent} (h : Guarded page harness count s)
    (uncontested : Uncontested s event)
    (stepped : s.step page raw needs (clients harness) harness event = some s')
    : Guarded page harness count s' := by
  cases Session.step_taken stepped with
  | kernel others moved => exact h.kernel uncontested others moved
  | system _ isCode answered done => exact h.system isCode answered done
  | @refused opened path text next isUser isCode nothing =>
      have resumed := h.resume isCode (fun isPath isText _ => ?_)
      · rwa [← isUser] at resumed
      · subst isPath isText
        obtain rfl := uncontested ⟨_, next, isCode⟩
        have requested : requestedCall Demo.badDriver Demo.kVmallocAttackCommand ≠ none := by decide
        rcases nothing with isFalse | isNone
        · cases isFalse
        · exact absurd isNone requested
  | entered isUser isCode requested moved => exact h.entered isUser isCode requested moved
  | written isWriting isCode idle =>
      refine h.resume isCode (fun _ _ atStage => ?_)
      rcases atStage.2.2 with ⟨isUser, _⟩ | ⟨_, attacking⟩
      · cases isUser.symm.trans isWriting
      · exact attacking.finished idle
  | openStatus _ isCode => exact h.openStatus isCode
  | read isReading => exact h.read isReading uncontested
  | shown isReading isCode => exact h.shown isReading isCode
  | @rogueShown _ _ point next _ isCode =>
      -- Only after its attack could the scenario read any other status.
      obtain ⟨stage, always, atStage⟩ := h.stage
      rw [isCode] at always
      obtain ⟨stage', noted, later⟩ := always_observed_act.mp always _
      refine ⟨h.sane, stage', later, ?_⟩
      cases stage with
      | unverified =>
          exact absurd (noteStage_check noted).1.2 (by decide)
      | verified => cases noted
      | attacked =>
          cases noted
          exact atStage

/-- Along every run in which the control file of the attack is opened and nobody makes the alias
writable from the check of the setup on until the attack has returned, Scenario F passes only when
its attack has counted itself and was refused. Only the action writes to that control file.
-/
theorem scenarioF_passes_only_blocked {k : State} {sys : Sys} {id : LoaderId} {heap heap' : Heap}
    {result : ScenarioResult} {events : List SessionEvent} (loaded : Loaded page k)
    (ran : Steps (Session.step page raw needs (clients harness) harness) Uncontested
      (Session.start k sys ((setupAndRun id).run heap)) events s)
    (returned : s.code = .ret (some result, heap')) (isPassed : result.status = .passed)
    : k.attack.attackCount < s.kernel.world.state.attack.attackCount
      ∧ Refused harness s.kernel.world.history := by
  have initially : Guarded page harness 0 (Session.start k sys ((setupAndRun id).run heap)) := by
    refine ⟨.start loaded, .unverified, scenarioF_judged id heap, ?_⟩
    refine ⟨⟨loaded.facts.attacks, fun tid call rest running => (by cases running)⟩, ?_⟩
    exact fun reader isReading => (by cases isReading)
  have guarded := ran.invariant (Guarded page harness 0)
    (fun _ _ _ h uncontested stepped => h.step uncontested stepped) initially
  obtain ⟨stage, always, atStage⟩ := guarded.stage
  rw [returned] at always
  obtain rfl := always.2 result rfl isPassed
  refine ⟨?_, atStage.2⟩
  rw [loaded.facts.attacks, atStage.1.counted]
  decide

end Session

-----------------------------------------------------------------------------------------
-- Schedules
-----------------------------------------------------------------------------------------

/-- The scenario has run and passed. -/
def passed (s : Session (Option ScenarioResult × Heap)) : Bool :=
  match s.code with
  | .ret (some result, _) => result.status = .passed
  | _ => false

theorem code_of_passed {s : Session (Option ScenarioResult × Heap)} (h : passed s = true)
    : ∃ result heap, s.code = .ret (some result, heap) ∧ result.status = .passed := by
  unfold passed at h
  split at h
  · rename_i result heap isCode
    exact ⟨result, heap, isCode, of_decide_eq_true h⟩
  · cases h

def startF : Session (Option ScenarioResult × Heap) :=
  Session.start (freshlyLoaded (samplePage true)) ⟨0, ∅, []⟩
    ((setupAndRun 0).run ⟨fun _ => some [], []⟩)

/-- The events of a session with `startF`. -/
def stepF : Session (Option ScenarioResult × Heap) → SessionEvent
    → Option (Session (Option ScenarioResult × Heap)) :=
  Session.step (samplePage true) (fun _ => 0) (fun _ => []) (clients 0) 0

/-- One read of the status. -/
def readStatus : List SessionEvent := .openStatus :: List.replicate 8 (.read {}) ++ [.shown]

/-- A write that makes the given number of steps in the kernel. -/
def writeThrough (steps : Nat) : List SessionEvent :=
  .openWrite true :: List.replicate steps (.kernel (.step 0 {})) ++ [.kernel (.ret 0), .written]

/-- A whole call of another thread. -/
def kernelCall (tid : Nat) (call : Call) (steps : Nat) : List SessionEvent :=
  .kernel (.call tid call) :: List.replicate steps (.kernel (.step tid {})) ++ [.kernel (.ret tid)]

/-- The setup succeeds. -/
def setupDone : List SessionEvent :=
  List.replicate 10 (.system {}) ++ writeThrough 10 ++ readStatus

/-- The action reads the two logs and the status, and judges. -/
def judge : List SessionEvent := [.system {}, .system {}] ++ readStatus ++ [.system {}]

/-- No copy of an attack is on record as refused. -/
def unrefused (history : List KernelLabel) : Bool :=
  history.all (fun label =>
    match label with
    | .act _ _ (.copyToKernelNofault _ _) (some code) => code = 0
    | _ => true)

theorem not_refused_of_unrefused {harness : Nat} {history : List KernelLabel}
    (h : unrefused history = true)
    : ¬ Refused harness history := by
  intro refused
  obtain ⟨target, value, code, failed, member⟩ := refused
  exact failed (of_decide_eq_true (List.all_eq_true.mp h _ member))

set_option maxRecDepth 100000 in
/-- After a successful setup `/proc/bad_driver_ts` cannot be opened: there is no attack, and the
scenario passes. Or another client unprotects the page after the check: the attack succeeds, Thread
B restores the word, and the scenario passes.
-/
theorem scenarioF_passes_unfounded
    : Loaded (samplePage true) (freshlyLoaded (samplePage true))
      ∧ (∃ events s result heap,
          Steps stepF (fun _ _ => True) startF events s
          ∧ s.code = .ret (some result, heap)
          ∧ result.status = .passed
          ∧ ¬ (freshlyLoaded (samplePage true)).attack.attackCount
            < s.kernel.world.state.attack.attackCount
          ∧ ¬ Refused 0 s.kernel.world.history)
      ∧ ∃ events s result heap,
          Steps stepF (fun _ _ => True) startF events s
          ∧ s.code = .ret (some result, heap)
          ∧ result.status = .passed
          ∧ ¬ Refused 0 s.kernel.world.history := by
  refine ⟨freshlyLoaded_loaded _, ?_, ?_⟩
  · have shown : ((setupDone ++ [SessionEvent.openWrite false] ++ judge).foldlM stepF startF).any
        (fun s => passed s && s.kernel.world.state.attack.attackCount = 0
          && unrefused s.kernel.world.history) = true := by decide
    obtain ⟨s, ran, seen⟩ := (Option.any_eq_true _ _).mp shown
    simp only [Bool.and_eq_true, decide_eq_true_eq] at seen
    obtain ⟨⟨isPassed, uncounted⟩, unrefused⟩ := seen
    obtain ⟨result, heap, isCode, status⟩ := code_of_passed isPassed
    refine ⟨_, s, result, heap, .of_foldlM ran, isCode, status, ?_,
      not_refused_of_unrefused unrefused⟩
    rw [uncounted]
    decide
  · have shown : ((setupDone ++ kernelCall 1 (.setProtection false) 8 ++ writeThrough 8
        ++ kernelCall 2 .threadB 4 ++ judge).foldlM stepF startF).any
        (fun s => passed s && unrefused s.kernel.world.history) = true := by decide
    obtain ⟨s, ran, seen⟩ := (Option.any_eq_true _ _).mp shown
    simp only [Bool.and_eq_true] at seen
    obtain ⟨result, heap, isCode, status⟩ := code_of_passed seen.1
    exact ⟨_, s, result, heap, .of_foldlM ran, isCode, status, not_refused_of_unrefused seen.2⟩

/-- A test for `Uncontested`. -/
def uncontestedNow {α : Type} (s : Session α) : SessionEvent → Bool
  | .kernel (.step tid _) =>
      match s.kernel.threads tid with
      | .running _ (.act (.setMemory .vmalloc true) _) => false
      | _ => true
  | .openWrite opened => opened
  | .read around => around.comm.length < taskCommLen
  | _ => true

theorem uncontested_of_now {α : Type} {s : Session α} {event : SessionEvent}
    (h : uncontestedNow s event = true)
    : Uncontested s event := by
  cases event with
  | kernel event =>
      cases event with
      | step tid choice =>
          intro _ pending
          obtain ⟨_, call, next, running⟩ := pending
          rw [uncontestedNow, running] at h
          cases h
      | call tid call => exact fun _ => id
      | ret tid => exact fun _ => id
  | openWrite opened => exact fun _ => h
  | read around =>
      have named : around.comm.length < taskCommLen := of_decide_eq_true h
      exact named
  | _ => trivial

set_option maxRecDepth 100000 in
/-- The attack is made on the verified alias and refused. -/
theorem scenarioF_passes_only_blocked_sample
    : Loaded (samplePage true) (freshlyLoaded (samplePage true))
      ∧ ∃ events s,
          Steps stepF Uncontested startF events s
          ∧ passed s = true
          ∧ (freshlyLoaded (samplePage true)).attack.attackCount
            < s.kernel.world.state.attack.attackCount
          ∧ Refused 0 s.kernel.world.history := by
  have shown : ((setupDone ++ writeThrough 8 ++ judge).foldlM (fun s event =>
      if uncontestedNow s event then stepF s event else none) startF).any passed = true := by
    decide
  obtain ⟨s, ran, isPassed⟩ := (Option.any_eq_true _ _).mp shown
  obtain ⟨result, heap, isCode, status⟩ := code_of_passed isPassed
  have steps : Steps stepF Uncontested startF (setupDone ++ writeThrough 8 ++ judge) s :=
    Steps.of_tested uncontestedNow (fun _ => True) ran (fun _ _ _ _ _ _ => trivial)
      (fun _ _ _ tested => uncontested_of_now tested) trivial
  exact ⟨freshlyLoaded_loaded _, _, s, steps, isPassed,
    scenarioF_passes_only_blocked (freshlyLoaded_loaded _) steps isCode status⟩

end SafetyIsolation.Attacks

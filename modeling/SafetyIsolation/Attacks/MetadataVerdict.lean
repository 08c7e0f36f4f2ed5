import SafetyIsolation.Attacks.Metadata
import SafetyIsolation.Harness.Counters
import SafetyIsolation.Harness.Session

/-! The verdict on the metadata attack. Scenario G believes the counter it finds in the status of
the rogue thread, so it is right as long as the counter is.
-/

namespace SafetyIsolation.Attacks

open SafetyIsolation.Interleaving SafetyIsolation.Interleaving.Prog SafetyIsolation.Kernel
  SafetyIsolation.Harness SafetyIsolation.Text

/-- A read of the status that shows a positive counter. -/
def showsAttack (path : Path) : ReadOutcome → Bool
  | .content text =>
      path = Demo.kRogueStatusPath
        && (parseCounter text Demo.kMetadataAttackCountField).any (0 < ·)
  | _ => false

theorem showsAttack_other {path : Path} {outcome : ReadOutcome}
    (h : path ≠ Demo.kRogueStatusPath)
    : showsAttack path outcome = false := by
  cases outcome with
  | content text => simp [showsAttack, h]
  | missing | unopened | bad => rfl

/-- Whether some read has shown one. -/
def noteAttack : (op : SysOp) → op.Res → Bool → Option Bool
  | .readProc _ path, outcome, seen => some (seen || showsAttack path outcome)
  | _, _, seen => some seen

/-- An operation that is no read tells the observer nothing. -/
theorem sys_keeps_seen {op : SysOp} (seen : Bool)
    (h : ∀ point path, op ≠ .readProc point path)
    : Keeps (observed noteAttack) (fun _ => True) (fun _ noted => noted = seen) (sys op) := by
  intro heap noted same results _
  refine ⟨results op, noted, ?_, same⟩
  cases op with
  | readProc point path => exact absurd rfl (h point path)
  | _ => rfl

/-- The polling loop reports a count only when it has seen one, by induction over the turns left.
-/
theorem poll_seen (turn left : Nat) (lastReadError : String) (heap : Heap) (seen : Bool)
    : Ensures (observed noteAttack) (fun _ => True) (ScenarioG.poll turn left lastReadError)
        (fun found _ noted => found.isOk = true → noted = true) heap seen := by
  induction left generalizing turn lastReadError seen with
  | zero => exact fun isOk => (by cases isOk)
  | succ left ih =>
      simp only [ScenarioG.poll, readProc, sys, ensures_bind, ensures_perform, ensures_pure]
      intro results _
      refine ⟨_, _, rfl, ?_⟩
      cases outcome : results (.readProc (.action turn) Demo.kRogueStatusPath) with
      | content text =>
          dsimp only [ReadOutcome.result]
          split
          · rename_i count parsed
            split
            · rename_i positive
              intro _
              simp only [showsAttack, parsed]
              simp [positive]
            · exact ih _ _ _
          · exact ih _ _ _
      | missing | unopened | bad => exact ih _ _ _

/-- The scenario passes only when it has seen a positive counter. -/
theorem scenarioG_seen (id : LoaderId) (heap : Heap)
    : Ensures (observed noteAttack) (fun _ => True) (ScenarioG.run id)
        (fun result _ noted => result.status = .passed → noted = true) heap false := by
  have loads : Keeps (observed noteAttack) (fun _ => True) (fun _ noted => noted = false)
      (ModuleLoader.load id Demo.rogueThread Demo.kRogueMetadataModuleParams) :=
    load_keeps (fun path => sys_keeps_seen false (by simp))
      (fun path params => sys_keeps_seen false (by simp)) id _ _
  simp only [ScenarioG.run, ensures_bind]
  refine (loads heap false rfl).imp (fun loaded heap' noted _ => ?_)
  cases loaded with
  | error message => exact fun isPassed => (by cases isPassed)
  | ok done =>
      simp only [ensures_bind, sys, ensures_perform]
      intro results _
      refine ⟨_, _, rfl, (poll_seen _ _ _ _ _).imp (fun found heap'' seen h => ?_)⟩
      cases found with
      | error message =>
          intro results _
          exact ⟨_, _, rfl, fun isPassed => (by cases isPassed)⟩
      | ok count =>
          intro results _
          exact ⟨_, _, rfl, fun _ => h rfl⟩

-----------------------------------------------------------------------------------------
-- The verdict
-----------------------------------------------------------------------------------------

/-- The steps of a session in which nobody empties the owner field while another thread is
between its test and its store.
-/
def UnracedSession {α : Type} (s : Session α) : SessionEvent → Prop
  | .kernel event => Unraced s.kernel event
  | _ => True

/-- The counter is backed by hits, and so is everything the scenario has seen of it. -/
structure Vouched (owner : Option Nat) (s : Session (ScenarioResult × Heap)) : Prop where
  evidence : Evidence owner s.kernel
  code : ∃ seen, s.code.Always (observed noteAttack) (fun _ => True)
      (fun out noted => out.1.status = .passed → noted = true) seen
    ∧ (seen = true → corruptions owner s.kernel.world.history ≠ [])

/-- An answer from elsewhere shows no counter. -/
theorem noteAttack_elsewhere {choice : Harness.Choice} {needs : String → List String} {op : SysOp}
    {result : op.Res} {sys sys' : Sys} (seen : Bool) (answered : elsewhere choice op = true)
    (done : Harness.exec needs choice op sys = .done result sys')
    : noteAttack op result seen = some seen := by
  cases op with
  | readProc point path =>
      cases done
      have unseen : showsAttack path choice.read = false := by
        simp only [elsewhere] at answered
        cases isText : choice.read with
        | content text =>
            rw [isText] at answered
            have distinct := (Bool.and_eq_true_iff.mp answered).2
            exact showsAttack_other (of_decide_eq_true distinct)
        | missing | unopened | bad => rfl
      rw [noteAttack, unseen, Bool.or_false]
  | _ => rfl

theorem corruptions_ne_nil_push {owner : Option Nat} {history : List KernelLabel}
    (h : corruptions owner history ≠ []) (label : KernelLabel)
    : corruptions owner (history ++ [label]) ≠ [] := by
  rw [corruptions_push]
  exact List.append_ne_nil_of_left_ne_nil h _

section Session

variable {page : SafetyPage} {raw : Entry → UInt64} {needs : String → List String}
  {p : KernelPolicy} {self : Nat} {owner : Option Nat}
  {s s' : Session (ScenarioResult × Heap)}

/-- A step of the kernel keeps the counter backed and forgets no hit. -/
theorem Vouched.kernel {event : Interleaving.Event Nat Call Kernel.Choice}
    {kernel : KernelConfig} {place : Place} (h : Vouched owner s)
    (unraced : Unraced s.kernel event) (stepped : (machine page).step p s.kernel event = some kernel)
    : Vouched owner ⟨kernel, s.sys, s.code, place⟩ := by
  obtain ⟨seen, always, vouched⟩ := h.code
  obtain ⟨label, history⟩ := Machine.step_history stepped
  refine ⟨h.evidence.step unraced stepped, seen, always, fun isSeen => ?_⟩
  rw [history]
  exact corruptions_ne_nil_push (vouched isSeen) label

/-- The scenario goes on with a result that shows it nothing new. -/
theorem Vouched.resume {op : SysOp} {next : op.Res → Prog SysOp SysOp.Res (ScenarioResult × Heap)}
    {result : op.Res} {sys : Sys} {place : Place} (h : Vouched owner s)
    (isCode : s.code = .act op next) (unseen : ∀ seen, noteAttack op result seen = some seen)
    : Vouched owner ⟨s.kernel, sys, next result, place⟩ := by
  obtain ⟨seen, always, vouched⟩ := h.code
  rw [isCode] at always
  obtain ⟨noted, isNote, later⟩ := always_observed_act.mp always result
  rw [unseen] at isNote
  cases isNote
  exact ⟨h.evidence, seen, later, vouched⟩

/-- What one event of the session keeps. -/
theorem Vouched.step {event : SessionEvent} (h : Vouched owner s)
    (unraced : UnracedSession s event) (stepped : s.step page raw needs p self event = some s')
    : Vouched owner s' := by
  cases Session.step_taken stepped with
  | kernel _ moved => exact h.kernel unraced moved
  | @system choice op next result sys _ isCode answered done =>
      have resumed : Vouched owner ⟨s.kernel, sys, next result, .user⟩ :=
        h.resume isCode (fun seen => noteAttack_elsewhere seen answered done)
      refine ⟨?_, resumed.code⟩
      cases op with
      | insmod path params =>
          dsimp only [afterSystem]
          split
          · exact h.evidence.restart rfl rfl
          · exact h.evidence
      | _ => exact h.evidence
  | refused _ isCode _ => exact h.resume isCode (fun _ => rfl)
  | @entered _ _ _ call _ _ _ _ entered =>
      have unraced : Unraced s.kernel (.call self call) := trivial
      exact h.kernel unraced entered
  | written _ isCode _ => exact h.resume isCode (fun _ => rfl)
  | openStatus _ _ => exact ⟨h.evidence, h.code⟩
  | read _ => exact ⟨h.evidence, h.code⟩
  | shown _ isCode =>
      refine h.resume isCode (fun seen => congrArg some ?_)
      rw [showsAttack_other (by decide), Bool.or_false]
  | @rogueShown attackMode writes point next _ isCode =>
      obtain ⟨seen, always, vouched⟩ := h.code
      rw [isCode] at always
      obtain ⟨noted, isNote, later⟩ := always_observed_act.mp always
        (.content (rogueStatusShow attackMode writes s.kernel.world.state.metadataAttackCounter))
      refine ⟨h.evidence, noted, later, fun isNoted => ?_⟩
      cases isNote
      rcases Bool.or_eq_true_iff.mp isNoted with earlier | shows
      · exact vouched earlier
      · simp only [showsAttack, Bool.and_eq_true] at shows
        obtain ⟨count, parsed, positive⟩ := (Option.any_eq_true _ _).mp shows.2
        have positive := counter_positive_of_parseCounter parsed (of_decide_eq_true positive)
        have sound := h.evidence.sound
        have some : 0 < (corruptions owner s.kernel.world.history).length := by omega
        exact List.ne_nil_of_length_pos some

/-- Along every run of Scenario G in which nobody empties the owner field while another thread is
between its test and its store, the counter does not exceed the number of stores that hit a held
mutex, and the scenario passes only if there was one.
-/
theorem metadata_evidence_sound {k : State} {sys : Sys} {id : LoaderId} {heap : Heap}
    {events : List SessionEvent} (loaded : Loaded page k)
    (ran : Steps (Session.step page raw needs anyCalls self) UnracedSession
      (Session.start k sys ((ScenarioG.run id).run heap)) events s)
    : s.kernel.world.state.metadataAttackCounter.toInt
        ≤ (corruptions none s.kernel.world.history).length
      ∧ ∀ result heap', s.code = .ret (result, heap') → result.status = .passed
          → corruptions none s.kernel.world.history ≠ [] := by
  have initially : Vouched none (Session.start k sys ((ScenarioG.run id).run heap)) := by
    have evidence : Evidence k.safetyMutex (Config.start k) := .start loaded.facts.metadataAttacks
    rw [loaded.facts.mutex] at evidence
    exact ⟨evidence, false, scenarioG_seen id heap, fun seen => (by cases seen)⟩
  have vouched := ran.invariant (Vouched none)
    (fun _ _ _ h unraced stepped => h.step unraced stepped) initially
  refine ⟨vouched.evidence.sound, fun result heap' isCode isPassed => ?_⟩
  obtain ⟨seen, always, hits⟩ := vouched.code
  rw [isCode] at always
  exact hits (always isPassed)

end Session

-----------------------------------------------------------------------------------------
-- Two schedules
-----------------------------------------------------------------------------------------

/-- What the scenario has returned. -/
def verdict (s : Session (ScenarioResult × Heap)) : Option ScenarioStatus :=
  match s.code with
  | .ret out => some out.1.status
  | .act _ _ => none

theorem code_of_verdict {s : Session (ScenarioResult × Heap)} {status : ScenarioStatus}
    (h : verdict s = some status)
    : ∃ result heap, s.code = .ret (result, heap) ∧ result.status = status := by
  unfold verdict at h
  split at h
  · rename_i out isCode
    exact ⟨out.1, out.2, isCode, Option.some.inj h⟩
  · cases h

/-- Scenario G after its setup. -/
def startG : Session (ScenarioResult × Heap) :=
  Session.start (freshlyLoaded (samplePage true))
    ⟨0, {"ctx_monitor", "safety_mem", "mutex_threads"}, []⟩
    ((ScenarioG.run 0).run ⟨fun _ => some [], []⟩)

/-- The events of a session with `startG`. -/
def stepG : Session (ScenarioResult × Heap) → SessionEvent
    → Option (Session (ScenarioResult × Heap)) :=
  Session.step (samplePage true) (fun _ => 0) (fun _ => []) anyCalls 0

/-- The scenario loads the module, Thread A takes the mutex, and the rogue thread finds it
locked.
-/
def untilTested : List SessionEvent :=
  [.system {}, .system {}, .system { turns := 1 }, .kernel (.call 1 .threadA),
    .kernel (.step 1 {}), .kernel (.call 2 (.rogueC rogueAttackMutexMetadata)),
    .kernel (.step 2 {})]

/-- The rogue thread makes its store and counts, and the scenario reads the count. -/
def fromStore : List SessionEvent :=
  [.kernel (.step 2 {}), .kernel (.step 2 {}), .rogueShown 1 0, .system {}]

/-- Thread A releases the mutex. -/
def untilReleased : List SessionEvent := List.replicate 5 (.kernel (.step 1 {}))

/-- Thread A releases the mutex between the test and the store: the count is one and the scenario
passes, but no store has hit a mutex that was held.
-/
theorem metadata_evidence_unsound
    : Loaded (samplePage true) (freshlyLoaded (samplePage true))
      ∧ ∃ events s,
          Steps stepG (fun _ _ => True) startG events s
          ∧ ¬ s.kernel.world.state.metadataAttackCounter.toInt
            ≤ (corruptions none s.kernel.world.history).length
          ∧ ∃ result heap, s.code = .ret (result, heap) ∧ result.status = .passed
            ∧ corruptions none s.kernel.world.history = [] := by
  refine ⟨freshlyLoaded_loaded _, untilTested ++ untilReleased ++ fromStore, ?_⟩
  have shown : ((untilTested ++ untilReleased ++ fromStore).foldlM stepG startG).any (fun s =>
      verdict s = some ScenarioStatus.passed
      && s.kernel.world.state.metadataAttackCounter.toInt = 1
      && corruptions none s.kernel.world.history = []) = true := by decide
  obtain ⟨s, ran, seen⟩ := (Option.any_eq_true _ _).mp shown
  simp only [Bool.and_eq_true, decide_eq_true_eq] at seen
  obtain ⟨⟨isPassed, one⟩, nothing⟩ := seen
  obtain ⟨result, heap, isCode, status⟩ := code_of_verdict isPassed
  refine ⟨s, .of_foldlM ran, ?_, result, heap, isCode, status, nothing⟩
  rw [one, nothing]
  decide

/-- A thread that is not about to make its store. -/
def unpoised : Thread Call Int Op Op.Res → Bool
  | .running _ rest => !poised rest
  | _ => true

/-- A test for `UnracedSession` when no other threads have been called. -/
def unracedAmong {α : Type} (threads : List Nat) (s : Session α) : SessionEvent → Bool
  | .kernel (.step tid _) =>
      match s.kernel.threads tid with
      | .running _ (.act operation _) =>
          !empties operation
          || threads.all (fun other => other = tid || unpoised (s.kernel.threads other))
      | _ => true
  | _ => true

theorem unraced_of_among {α : Type} {threads : List Nat} {s : Session α} {event : SessionEvent}
    (others : ∀ tid ∉ threads, s.kernel.threads tid = .idle)
    (tested : unracedAmong threads s event = true)
    : UnracedSession s event := by
  cases event with
  | kernel event =>
      cases event with
      | step tid choice =>
          intro emptied other distinct isPoised
          obtain ⟨call, next, emptying⟩ := emptied
          have everyone : threads.all (fun other => other = tid
              || unpoised (s.kernel.threads other)) = true := by
            rcases emptying with unlocks | stores
            · simpa [unracedAmong, unlocks, empties] using tested
            · simpa [unracedAmong, stores, empties] using tested
          by_cases member : other ∈ threads
          · have calm := List.all_eq_true.mp everyone other member
            cases isThread : s.kernel.threads other with
            | running call rest =>
                rw [isThread] at isPoised calm
                have isPoised : poised rest = true := isPoised
                simp [distinct, unpoised, isPoised] at calm
            | idle => rw [isThread] at isPoised; exact isPoised
            | dead => rw [isThread] at isPoised; exact isPoised
          · rw [others other member] at isPoised
            exact isPoised
      | call tid call => trivial
      | ret tid => trivial
  | _ => trivial

/-- The rogue thread makes its store while Thread A still holds the mutex. -/
theorem metadata_evidence_sound_hit
    : Loaded (samplePage true) (freshlyLoaded (samplePage true))
      ∧ ∃ events s,
          Steps stepG UnracedSession startG events s
          ∧ verdict s = some .passed
          ∧ corruptions none s.kernel.world.history ≠ [] := by
  refine ⟨freshlyLoaded_loaded _, untilTested ++ fromStore, ?_⟩
  have shown : ((untilTested ++ fromStore).foldlM (fun s event =>
      if unracedAmong [0, 1, 2] s event then stepG s event else none) startG).any
        (fun s => verdict s = some ScenarioStatus.passed) = true := by decide
  obtain ⟨s, ran, seen⟩ := (Option.any_eq_true _ _).mp shown
  have isPassed : verdict s = some .passed := of_decide_eq_true seen
  have steps : Steps stepG UnracedSession startG (untilTested ++ fromStore) s := by
    refine Steps.of_tested (unracedAmong [0, 1, 2])
      (fun s => ∀ tid ∉ [0, 1, 2], s.kernel.threads tid = .idle) ran ?_
      (fun s event others tested => unraced_of_among others tested) (fun _ _ => rfl)
    intro s event s' member others stepped
    refine Session.step_others_idle (by decide) (fun kernel same => ?_) others stepped
    subst same
    simp only [untilTested, fromStore, List.cons_append, List.nil_append, List.mem_cons,
      List.not_mem_nil, or_false, SessionEvent.kernel.injEq, reduceCtorEq, false_or] at member
    rcases member with rfl | rfl | rfl | rfl | rfl | rfl <;> decide
  obtain ⟨result, heap, isCode, status⟩ := code_of_verdict isPassed
  exact ⟨s, steps, isPassed,
    (metadata_evidence_sound (freshlyLoaded_loaded _) steps).2 result heap isCode status⟩

end SafetyIsolation.Attacks

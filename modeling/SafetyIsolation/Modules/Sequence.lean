import SafetyIsolation.Modules.ScenarioRules

/-! The sequence of scenarios. The options are consumed from left to right, and the scenarios of
the plan are entered one after the other until the plan is done or a signal ends the process.
-/

namespace SafetyIsolation.Modules

open SafetyIsolation.Interleaving SafetyIsolation.Interleaving.Prog SafetyIsolation.Harness

/-- A recognised option with its value. -/
inductive Request where
  | scenario (value : String)
  | startAt (value : String)

namespace Request

def scenario? : Request → Option String
  | .scenario value => some value
  | .startAt _ => none

def startAt? : Request → Option String
  | .scenario _ => none
  | .startAt value => some value

end Request

/-- The options with a value, each consuming the argument after it. -/
def recognised : List String → List Request
  | [] => []
  | [_] => []
  | arg :: value :: rest =>
      if arg = "--scenario" then .scenario value :: recognised rest
      else if arg = "--start-at" then .startAt value :: recognised rest
      else recognised (value :: rest)

/-- The value after the last recognised `--scenario`. -/
def requestedScenario (args : List String) : String :=
  ((recognised args).filterMap Request.scenario?).getLast?.getD "all"

/-- The value after the last recognised `--start-at`. -/
def requestedStart (args : List String) : Option String :=
  ((recognised args).filterMap Request.startAt?).getLast?

/-- The scenarios of the full sequence. -/
def core : List ScenarioId := [.b, .d, .e, .f]

/-- The sequences that the two options ask for. -/
inductive Requested (args : List String) : List ScenarioId → Prop where
  | single (id : ScenarioId) (named : requestedScenario args = id.text) : Requested args [id]
  | whole (all : requestedScenario args = "all") (plain : requestedStart args = none)
      : Requested args core
  | startingAt (id : ScenarioId) (member : id ∈ core) (all : requestedScenario args = "all")
      (start : requestedStart args = some id.text)
      : Requested args (core.dropWhile (· ≠ id))

/-- An option overrides the earlier ones of its kind, by induction over the arguments. -/
theorem parseOptions_eq {args : List String} (options : Options)
    (plain : ∀ arg ∈ args, arg ≠ "-h" ∧ arg ≠ "--help")
    : parseOptions options args
      = some ⟨((recognised args).filterMap Request.scenario?).getLast?.getD options.scenarioId,
          ((recognised args).filterMap Request.startAt?).getLast?.getD options.startAtId⟩ := by
  fun_induction parseOptions options args with
  | case1 options => rfl
  | case2 options arg help =>
      exact absurd help (not_or.mpr (plain arg List.mem_cons_self))
  | case3 options arg _ => rfl
  | case4 options value rest ih =>
      rw [ih (fun arg member => plain arg (List.mem_cons_of_mem _ (List.mem_cons_of_mem _ member)))]
      simp only [recognised, if_true, List.filterMap_cons, Request.scenario?, Request.startAt?,
        List.getLast?_cons, Option.getD_some]
  | case5 options value rest _ ih =>
      rw [ih (fun arg member => plain arg (List.mem_cons_of_mem _ (List.mem_cons_of_mem _ member)))]
      simp only [recognised, String.reduceEq, if_false, if_true, List.filterMap_cons,
        Request.scenario?, Request.startAt?, List.getLast?_cons, Option.getD_some]
  | case6 options arg value rest _ _ help =>
      exact absurd help (not_or.mpr (plain arg List.mem_cons_self))
  | case7 options arg value rest other other' _ ih =>
      rw [ih (fun arg member => plain arg (List.mem_cons_of_mem _ member)), recognised, if_neg other,
        if_neg other']

theorem parseOptions_requested {args : List String}
    (plain : ∀ arg ∈ args, arg ≠ "-h" ∧ arg ≠ "--help")
    : parseOptions {} args = some ⟨requestedScenario args, (requestedStart args).getD ""⟩ :=
  parseOptions_eq {} plain

/-- A named scenario runs alone, whatever the start. -/
theorem plan_single (id : ScenarioId) (start : String) : plan ⟨id.text, start⟩ = [id] := by
  cases id <;> simp [plan, ScenarioId.text]

theorem plan_whole : plan ⟨"all", ""⟩ = core := by decide

/-- The start takes the scenarios after it along only if it is B. -/
theorem plan_startingAt {id : ScenarioId} (member : id ∈ core)
    : plan ⟨"all", id.text⟩ = core.dropWhile (· ≠ id) ↔ id ≠ .d ∧ id ≠ .e := by
  cases id <;> revert member <;> decide

theorem requested_iff_plan (args : List String)
    : (∀ ids, Requested args ids → ids = plan ⟨requestedScenario args, (requestedStart args).getD ""⟩)
      ↔ ¬(requestedScenario args = "all"
        ∧ (requestedStart args = some "D" ∨ requestedStart args = some "E")) := by
  constructor
  · intro all asked
    rcases asked with ⟨isAll, start | start⟩
    · have same := all _ (.startingAt .d (by decide) isAll start)
      rw [isAll, start] at same
      exact absurd same (by decide)
    · have same := all _ (.startingAt .e (by decide) isAll start)
      rw [isAll, start] at same
      exact absurd same (by decide)
  · intro other ids requested
    cases requested with
    | single id named => rw [named, plan_single]
    | whole isAll plain =>
        rw [isAll, plain]
        exact plan_whole.symm
    | startingAt id member isAll start =>
        rw [isAll, start]
        refine ((plan_startingAt member).mpr ⟨?_, ?_⟩).symm
        · rintro rfl
          exact other ⟨isAll, .inl start⟩
        · rintro rfl
          exact other ⟨isAll, .inr start⟩

-----------------------------------------------------------------------------------------
-- The runs that are entered
-----------------------------------------------------------------------------------------

def entryOf : Event → Option String
  | .entered id => some id
  | _ => none

/-- The scenarios entered so far. -/
def entries (s : Sys) : List String := s.events.filterMap entryOf

def Entered (ids : List String) (_ : Heap) (s : Sys) : Prop := entries s = ids

section Entered

variable {needs : String → List String} {admits : Choice → Prop} {ids : List String}
  {heap : Heap} {s : Sys} {id : LoaderId}

theorem entries_record {event : Event}
    : entries (s.record event) = entries s ++ (entryOf event).toList := by
  rw [entries, Sys.record, List.filterMap_append]
  cases event <;> rfl

/-- Whatever is recorded that is not an entry leaves the entries alone. -/
theorem Entered.record (heap : Heap) {event : Event} (h : Entered ids heap s)
    (other : entryOf event = none)
    : Entered ids heap (s.record event) := by
  rw [Entered, entries_record, other, h]
  exact List.append_nil ids

theorem entered_undisturbed : Undisturbed (Entered ids) := by
  intro heap s signal h
  cases signal with
  | none => exact h
  | some signal =>
      exact Entered.record heap (s := { s with signalReceived := signal.number }) h rfl

theorem entered_robust (needs : String → List String) (ids : List String) (id : LoaderId)
    : Robust needs (Entered ids) id where
  undisturbed := entered_undisturbed
  published := fun heap _ _ h => Entered.record heap h rfl
  inserted := by
    intro heap s path params code h _
    rcases insert_cases path params code with ⟨_, _, _, done⟩ | ⟨_, _, refused⟩
    · rw [done]
      exact Entered.record heap (s := { s with loaded := _ }) h rfl
    · rw [refused]
      exact Entered.record heap h rfl

theorem entered_unloadAll
    : Keeps (exec needs) admits (Entered ids) (ModuleLoader.unloadAll id) := by
  intro heap s h
  refine (unloadAll_ensures (Entered ids) ?_ h).imp (fun _ _ _ cleared => cleared.2)
  intro heap s choice front last _ h _
  have h := entered_undisturbed heap s choice.signal h
  refine ⟨_, _, exec_rmmod choice last.name, ?_⟩
  rcases remove_cases last.name choice.rmmodCode with ⟨_, _, _, done⟩ | ⟨_, _, _, refused⟩
  · rw [done]
    exact Entered.record heap (s := { s.deliver choice.signal with loaded := _ }) h rfl
  · rw [refused]
    exact Entered.record heap h rfl

theorem entered_unloadActive (order : List LoaderId)
    : Keeps (exec needs) admits (Entered ids) (ModuleLoader.unloadActive order) := by
  induction order with
  | nil => exact .pure _
  | cons loader rest ih => exact .bind entered_unloadAll (fun _ => ih)

/-- A run is entered once, whether it goes through or ends the process. -/
theorem run_enters (scenario : ScenarioId) (text : String) (h : Entered ids heap s)
    : Ensures (exec needs) admits (ScenarioRunner.run scenario.scenario id text)
        (fun _ heap s => Entered (ids ++ [text]) heap s) heap s := by
  have robust := entered_robust needs (ids ++ [text]) id
  simp only [ScenarioRunner.run, ensures_bind, sys, ensures_perform]
  intro choice _
  refine ⟨(), _, rfl, ?_⟩
  have h := (entered_robust needs ids id).undisturbed heap s choice.signal h
  have h : Entered (ids ++ [text]) heap ((s.deliver choice.signal).record (.entered text)) := by
    rw [Entered, entries_record, h]
    rfl
  refine cleanupOnSignal_ensures (Entered (ids ++ [text]) heap) (robust.undisturbed heap) h ?_ ?_
  · intro s h _
    simp only [ensures_bind, ensures_perform]
    intro choice _
    refine ⟨(), _, rfl, ?_⟩
    refine robust.lifecycle entered_unloadAll scenario text heap _ ?_
    exact Entered.record heap (robust.undisturbed heap s choice.signal h) rfl
  · intro s code h
    exact entered_unloadActive _ heap _ h

/-- The scenarios of a plan are entered in order up to where a signal ends the process, by
induction over the plan.
-/
theorem runEach_enters (plan : List ScenarioId) (h : Entered ids heap s)
    : Ensures (exec needs) admits (runEach plan)
        (fun out heap s => ∃ front,
          front <+: plan
          ∧ Entered (ids ++ front.map ScenarioId.text) heap s
          ∧ (∀ done, out = .ok done → front = plan)) heap s := by
  induction plan generalizing ids heap s with
  | nil => exact ⟨[], List.prefix_rfl, by rwa [List.map_nil, List.append_nil], fun _ _ => rfl⟩
  | cons scenario rest ih =>
      simp only [runEach, ensures_bind]
      refine (run_enters scenario scenario.text h).imp ?_
      intro out heap s entered
      cases out with
      | error code =>
          exact ⟨[scenario], List.prefix_append [scenario] rest, entered, fun _ same => by cases same⟩
      | ok result =>
          refine (ih entered).imp ?_
          intro out heap s progress
          obtain ⟨front, isPrefix, entered, whole⟩ := progress
          refine ⟨scenario :: front, ?_, ?_, ?_⟩
          · exact (List.prefix_cons_inj scenario).mpr isPrefix
          · rwa [List.append_assoc, List.singleton_append, ← List.map_cons] at entered
          · exact fun done same => congrArg (scenario :: ·) (whole done same)

theorem constructEach_keeps (list : List ScenarioId)
    : Keeps (exec needs) admits (Entered ids) (constructEach list) := by
  induction list with
  | nil => exact .pure _
  | cons scenario rest ih => exact .bind (fun _ _ h => h) (fun _ => ih)

theorem destroyEach_keeps (list : List ScenarioId)
    : Keeps (exec needs) admits (Entered ids) (destroyEach list) := by
  induction list with
  | nil => exact .pure _
  | cons scenario rest ih =>
      refine .bind (fun heap s h => ?_) (fun _ => ih)
      exact destroy_ensures (entered_unloadAll heap s h)

/-- Without a signal the whole plan is run, by induction over it. -/
theorem runEach_returns (plan : List ScenarioId) (quiet : s.signalReceived = 0)
    : Ensures (exec needs) (fun choice => choice.signal = none) (runEach plan)
        (fun out _ _ => out = .ok ()) heap s := by
  induction plan generalizing heap s with
  | nil => rfl
  | cons scenario rest ih =>
      simp only [runEach, ensures_bind]
      refine (run_returns scenario.scenario _ scenario.text quiet).imp ?_
      intro out heap s finished
      obtain ⟨⟨result, rfl⟩, quiet⟩ := finished
      exact ih quiet

end Entered

-----------------------------------------------------------------------------------------
-- main
-----------------------------------------------------------------------------------------

/-- The process enters these scenarios in this order: all of them unless a signal ends it, and
then those up to some point.
-/
def Runs (needs : String → List String) (args : List String) (ids : List ScenarioId) : Prop :=
  ∀ loaded choices, ∃ out heap s,
    ((main args).run Heap.empty).runAlone (exec needs) choices ⟨0, loaded, []⟩
      = .done (out, heap) s
    ∧ entries s <+: ids.map ScenarioId.text
    ∧ (∀ code, out = .ok code → entries s = ids.map ScenarioId.text)
    ∧ ((∀ choice ∈ choices, choice.signal = none) → out = .ok 0)

theorem Runs.unique {needs : String → List String} {args : List String}
    {ids ids' : List ScenarioId} (h : Runs needs args ids) (h' : Runs needs args ids')
    : ids = ids' := by
  obtain ⟨out, heap, s, ran, _, whole, returns⟩ := h ∅ []
  obtain ⟨out', heap', s', ran', _, whole', returns'⟩ := h' ∅ []
  cases ran.symm.trans ran'
  have done := returns (fun _ member => absurd member List.not_mem_nil)
  have injective : Function.Injective ScenarioId.text := by
    intro first second same
    cases first <;> cases second <;> first | rfl | exact absurd same (by decide)
  exact injective.list_map ((whole 0 done).symm.trans (whole' 0 done))

/-- The process runs its plan. -/
theorem runs_plan (needs : String → List String) {args : List String} {options : Options}
    (parsed : parseOptions {} args = some options)
    : Runs needs args (plan options) := by
  intro loaded choices
  have enters : Ensures (exec needs) (fun _ => True) (main args)
      (fun out _ s => ∃ front,
        front <+: plan options
        ∧ entries s = front.map ScenarioId.text
        ∧ (∀ code, out = .ok code → front = plan options)) Heap.empty ⟨0, loaded, []⟩ := by
    simp only [main, parsed, ensures_bind]
    have initially : Entered [] Heap.empty ⟨0, loaded, []⟩ := rfl
    refine (constructEach_keeps _ _ _ initially).imp (fun _ heap s h => ?_)
    refine (runEach_enters (plan options) h).imp ?_
    intro out heap s progress
    obtain ⟨front, isPrefix, entered, whole⟩ := progress
    cases out with
    | error code => exact ⟨front, isPrefix, entered, fun _ same => by cases same⟩
    | ok done =>
        simp only [ensures_bind]
        refine (destroyEach_keeps _ heap s entered).imp (fun _ _ s entered => ?_)
        exact ⟨front, isPrefix, entered, fun _ _ => whole done rfl⟩
  have returns : Ensures (exec needs) (fun choice => choice.signal = none) (main args)
      (fun out _ _ => out = .ok 0) Heap.empty ⟨0, loaded, []⟩ := by
    simp only [main, parsed, ensures_bind]
    refine (quiet_ensures _ rfl).imp (fun _ heap s quiet => ?_)
    refine (runEach_returns (plan options) quiet).imp ?_
    rintro out heap s rfl
    simp only [ensures_bind]
    exact (Always.completes (fun choice op s => exec_total choice op s) s).imp (fun _ _ _ => rfl)
  obtain ⟨out, heap, s, ran, front, isPrefix, entered, whole⟩ :=
    enters.run (fun _ _ => trivial) trivial
  refine ⟨out, heap, s, ran, ?_, fun code same => ?_, fun silent => ?_⟩
  · rw [entered]
    exact isPrefix.map ScenarioId.text
  · rw [entered, whole code same]
  · obtain ⟨_, _, _, ran', returned⟩ := returns.run silent rfl
    cases ran.symm.trans ran'
    exact returned

/-- Without a request for help, the process runs the sequence it is asked for exactly if it is
not asked to start the full sequence at D or E.
-/
theorem main_runs_requested_iff (needs : String → List String) {args : List String}
    (plain : ∀ arg ∈ args, arg ≠ "-h" ∧ arg ≠ "--help")
    : (∀ ids, Requested args ids → Runs needs args ids)
      ↔ ¬(requestedScenario args = "all"
        ∧ (requestedStart args = some "D" ∨ requestedStart args = some "E")) := by
  have runs := runs_plan needs (parseOptions_requested plain)
  rw [← requested_iff_plan]
  constructor
  · exact fun all ids requested => (all ids requested).unique runs
  · exact fun all ids requested => all ids requested ▸ runs

/-- A later `--start-at` overrides an earlier one. -/
theorem main_runs_requested_from_f
    : Requested ["--start-at", "D", "--start-at", "F"] [.f]
      ∧ Runs (fun _ => []) ["--start-at", "D", "--start-at", "F"] [.f] := by
  have requested : Requested ["--start-at", "D", "--start-at", "F"] [.f] :=
    .startingAt .f (by decide) (by decide) (by decide)
  exact ⟨requested, (main_runs_requested_iff _ (by decide)).mpr (by decide) _ requested⟩

/-- Asked to start at D, the process runs D alone. -/
theorem main_stops_after_start
    : (∀ arg ∈ ["--scenario", "all", "--start-at", "D"], arg ≠ "-h" ∧ arg ≠ "--help")
      ∧ Requested ["--scenario", "all", "--start-at", "D"] [.d, .e, .f]
      ∧ Runs (fun _ => []) ["--scenario", "all", "--start-at", "D"] [.d]
      ∧ ¬ Runs (fun _ => []) ["--scenario", "all", "--start-at", "D"] [.d, .e, .f] := by
  have parsed : parseOptions {} ["--scenario", "all", "--start-at", "D"] = some ⟨"all", "D"⟩ := by
    decide
  have runs := runs_plan (fun _ => []) parsed
  have alone : plan ⟨"all", "D"⟩ = [.d] := by decide
  refine ⟨by decide, .startingAt .d (by decide) (by decide) (by decide), alone ▸ runs, fun asked => ?_⟩
  exact absurd (asked.unique runs) (by decide)

end SafetyIsolation.Modules

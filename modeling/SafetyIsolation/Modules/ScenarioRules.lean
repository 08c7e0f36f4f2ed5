import SafetyIsolation.Harness.Runner
import SafetyIsolation.Modules.Rules

/-! What every scenario keeps. Apart from the commands of its loader, a scenario only reads,
writes and publishes, so a property that survives `insmod` survives setup and action.
-/

namespace SafetyIsolation.Modules

open SafetyIsolation.Interleaving SafetyIsolation.Interleaving.Prog SafetyIsolation.Harness

variable {needs : String → List String} {admits : Choice → Prop} {inv : Heap → Sys → Prop}
  {id : LoaderId}

/-- A property that survives signals, publications and the `insmod` commands of a loader. -/
structure Robust (needs : String → List String) (inv : Heap → Sys → Prop) (id : LoaderId)
    : Prop where
  undisturbed : Undisturbed inv
  published : ∀ heap s content, inv heap s → inv heap (s.record (.published content))
  inserted : ∀ heap, KeptByInsmod needs inv heap id

/-- Publishing keeps what signals and publications keep. -/
theorem publishState_keeps (undisturbed : Undisturbed inv)
    (published : ∀ heap s content, inv heap s → inv heap (s.record (.published content)))
    (text title : String) (phase : Phase) (beforeSnapshot afterSnapshot : Text.Bytes)
    : Keeps (exec needs) admits inv
        (ScenarioRunner.publishState text title phase beforeSnapshot afterSnapshot) := by
  intro heap s kept choice _
  refine ⟨(), _, rfl, ?_⟩
  have kept := undisturbed heap s choice.signal kept
  split
  · exact published heap _ _ kept
  · exact kept

namespace Robust

/-- Operations that change nothing the harness shares with anybody. -/
theorem quiet (h : Robust needs inv id) {op : SysOp}
    (silent
      : ∀ choice s, ∃ result, exec needs choice op s = .done result (s.deliver choice.signal))
    : Keeps (exec needs) admits inv (sys op) := by
  intro heap s kept choice _
  obtain ⟨result, done⟩ := silent choice s
  exact ⟨result, _, done, h.undisturbed heap s choice.signal kept⟩

theorem readProc (h : Robust needs inv id) (point : ReadPoint) (path : Path)
    : Keeps (exec needs) admits inv (readProc point path) :=
  .bind (h.quiet (fun choice _ => ⟨choice.read, rfl⟩)) (fun _ => .pure _)

theorem writeProc (h : Robust needs inv id) (path : Path) (text : Text.Bytes)
    : Keeps (exec needs) admits inv (sys (.writeProc path text)) :=
  h.quiet (fun _ _ => ⟨(), rfl⟩)

theorem elapsedNs (h : Robust needs inv id) : Keeps (exec needs) admits inv (sys .elapsedNs) :=
  h.quiet (fun choice _ => ⟨choice.elapsed, rfl⟩)

theorem load (h : Robust needs inv id) (path : Path) (params : String)
    : Keeps (exec needs) admits inv (ModuleLoader.load id path params) :=
  fun heap _ kept => load_ensures path params h.undisturbed (h.inserted heap) kept

theorem loadEach (h : Robust needs inv id) (paths : List Path)
    : Keeps (exec needs) admits inv (loadEach id paths) := by
  induction paths with
  | nil => exact .pure _
  | cons path rest ih =>
      refine .bind (h.load path "") (fun loaded => ?_)
      cases loaded with
      | error message => exact .pure _
      | ok done => exact ih

theorem publishState (h : Robust needs inv id) (text title : String) (phase : Phase)
    (beforeSnapshot afterSnapshot : Text.Bytes)
    : Keeps (exec needs) admits inv
        (ScenarioRunner.publishState text title phase beforeSnapshot afterSnapshot) :=
  publishState_keeps h.undisturbed h.published text title phase beforeSnapshot afterSnapshot

theorem readStatus (h : Robust needs inv id) (point : ReadPoint)
    : Keeps (exec needs) admits inv (ScenarioRunner.readStatus point) := by
  refine .bind (h.readProc point _) (fun status => ?_)
  cases status with
  | ok text => exact .pure _
  | error message => exact .pure _

/-- Setup keeps the property, one case for each scenario. -/
theorem setup (h : Robust needs inv id) (scenario : ScenarioId)
    : Keeps (exec needs) admits inv (scenario.scenario.setup id) := by
  cases scenario with
  | b => exact h.loadEach _
  | d =>
      refine .bind (h.loadEach _) (fun loaded => ?_)
      cases loaded with
      | error message => exact .pure _
      | ok done => exact .bind (h.writeProc _ _) (fun _ => .pure _)
  | e => exact h.loadEach _
  | f =>
      refine .bind (h.loadEach _) (fun loaded => ?_)
      cases loaded with
      | error message => exact .pure _
      | ok done =>
          refine .bind (h.writeProc _ _) (fun _ => .bind (h.readProc _ _) (fun status => ?_))
          split
          · exact .pure _
          · exact .pure _
  | g => exact h.loadEach _

/-- The polling loop keeps the property, by induction over the turns left. -/
theorem poll (h : Robust needs inv id) (turn left : Nat) (lastReadError : String)
    : Keeps (exec needs) admits inv (ScenarioG.poll turn left lastReadError) := by
  induction left generalizing turn lastReadError with
  | zero => exact .pure _
  | succ left ih =>
      refine .bind (h.readProc _ _) (fun status => ?_)
      cases status with
      | error message => exact ih _ _
      | ok text =>
          dsimp only
          split
          · split
            · exact .pure _
            · exact ih _ _
          · exact ih _ _

/-- The action keeps the property, one case for each scenario. -/
theorem run (h : Robust needs inv id) (scenario : ScenarioId)
    : Keeps (exec needs) admits inv (scenario.scenario.run id) := by
  cases scenario with
  | b =>
      refine .bind (h.load _ _) (fun loaded => ?_)
      cases loaded with
      | error message => exact .pure _
      | ok done =>
          refine .bind (h.readProc _ _) (fun content => .bind h.elapsedNs (fun latency => ?_))
          split
          · exact .pure _
          · exact .pure _
  | d =>
      refine .bind (h.writeProc _ _) (fun _ => .bind (h.readProc _ _) (fun content => ?_))
      refine .bind h.elapsedNs (fun latency => ?_)
      dsimp only
      split
      · exact .pure _
      · exact .pure _
  | e =>
      refine .bind (h.writeProc _ _) (fun _ => .bind (h.readProc _ _) (fun content => ?_))
      refine .bind (h.readProc _ _) (fun smmuLog => .bind h.elapsedNs (fun latency => ?_))
      dsimp only
      split
      · exact .pure _
      · split
        · exact .pure _
        · exact .pure _
  | f =>
      refine .bind (h.writeProc _ _) (fun _ => .bind (h.readProc _ _) (fun monLog => ?_))
      refine .bind (h.readProc _ _) (fun smmuLog => .bind (h.readProc _ _) (fun status => ?_))
      refine .bind h.elapsedNs (fun latency => ?_)
      dsimp only
      split
      · exact .pure _
      · exact .pure _
  | g =>
      refine .bind (h.load _ _) (fun loaded => ?_)
      cases loaded with
      | error message => exact .pure _
      | ok done =>
          refine .bind (h.quiet (fun choice s => ⟨choice.turns, rfl⟩)) (fun turns => ?_)
          refine .bind (h.poll _ _ _) (fun polled => ?_)
          cases polled with
          | ok count => exact .bind h.elapsedNs (fun _ => .pure _)
          | error message => exact .bind h.elapsedNs (fun _ => .pure _)

/-- Setup, action and teardown keep what the commands of the loader keep, setup failures
included.
-/
theorem lifecycle (h : Robust needs inv id)
    (unloads : Keeps (exec needs) admits inv (ModuleLoader.unloadAll id)) (scenario : ScenarioId)
    (text : String)
    : Keeps (exec needs) admits inv (ScenarioRunner.lifecycle scenario.scenario id text) := by
  have teardown : Keeps (exec needs) admits inv (scenario.scenario.teardown id) := by
    cases scenario with
    | b => exact unloads
    | d => exact unloads
    | e => exact unloads
    | f => exact unloads
    | g => exact unloads
  refine .bind (h.publishState _ _ _ _ _) (fun _ => ?_)
  refine .bind (h.setup scenario) (fun ready => ?_)
  cases ready with
  | error message => exact .pure _
  | ok done =>
      refine .bind (h.readStatus _) (fun before => ?_)
      refine .bind (h.publishState _ _ _ _ _) (fun _ => ?_)
      refine .bind (h.run scenario) (fun result => ?_)
      refine .bind (h.readStatus _) (fun after => ?_)
      refine .bind (h.publishState _ _ _ _ _) (fun _ => ?_)
      exact .bind teardown (fun _ => .pure _)

end Robust

section Quiet

variable {heap : Heap} {s : Sys}

/-- Nobody but the handler raises the flag. -/
theorem quiet_ensures {α : Type} (code : Code α) (quiet : s.signalReceived = 0)
    : Ensures (exec needs) (fun choice => choice.signal = none) code
        (fun _ _ s => s.signalReceived = 0) heap s := by
  refine Always.of_all (.of_forall (fun op choice s silent quiet => ?_)) quiet
  have same : (s.deliver choice.signal).signalReceived = 0 := by
    rw [silent]
    exact quiet
  cases op with
  | insmod path params =>
      refine ⟨_, _, exec_insmod choice path params, ?_⟩
      rcases insert_cases path params choice.insmodCode with ⟨_, _, _, done⟩ | ⟨_, _, refused⟩
      · rw [done]
        exact same
      · rw [refused]
        exact same
  | rmmod name =>
      refine ⟨_, _, exec_rmmod choice name, ?_⟩
      rcases remove_cases name choice.rmmodCode with ⟨_, _, _, done⟩ | ⟨_, _, _, refused⟩
      · rw [done]
        exact same
      · rw [refused]
        exact same
  | writeState content =>
      refine ⟨_, _, rfl, ?_⟩
      split
      · exact same
      · exact same
  | clearSignal => exact ⟨_, _, rfl, rfl⟩
  | _ => exact ⟨_, _, rfl, same⟩

/-- Without a signal a run returns. -/
theorem run_returns (scenario : Scenario) (id : LoaderId) (text : String)
    (quiet : s.signalReceived = 0)
    : Ensures (exec needs) (fun choice => choice.signal = none)
        (ScenarioRunner.run scenario id text)
        (fun out _ s => (∃ result, out = .ok result) ∧ s.signalReceived = 0) heap s := by
  simp only [ScenarioRunner.run, ModuleLoader.cleanupOnSignal, ensures_bind, sys,
    ensures_perform]
  intro entering silent
  refine ⟨(), _, rfl, ?_⟩
  intro reading silent'
  refine ⟨_, _, rfl, ?_⟩
  have none : (((s.deliver entering.signal).record (.entered text)).deliver
      reading.signal).signalReceived = 0 := by
    rw [silent, silent']
    exact quiet
  split
  · rename_i received
    exact absurd none received
  · simp only [ensures_pure, ensures_bind, ensures_perform]
    intro starting silent''
    refine ⟨(), _, rfl, ?_⟩
    refine (quiet_ensures _ ?_).imp (fun result _ _ quiet => ⟨⟨result, rfl⟩, quiet⟩)
    rw [silent'']
    exact none

end Quiet

end SafetyIsolation.Modules

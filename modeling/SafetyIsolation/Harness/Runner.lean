import SafetyIsolation.Harness.Scenarios
import SafetyIsolation.Harness.StateFile

/-! `scenario_runner.hpp` and `main.cpp`. `_Exit` ends the process where it stands, so code
that may reach it returns the exit code as an error.
-/

namespace SafetyIsolation.Harness

open SafetyIsolation.Interleaving SafetyIsolation.Text

namespace ScenarioRunner

/-- `read_status`. -/
def readStatus (point : ReadPoint) : Code Bytes := do
  match ← readProc point Demo.safetyMemStatus with
  | .ok status => return status
  | .error _ => return []

/-- `publish_state`. -/
def publishState (id title : String) (phase : Phase) (beforeSnapshot afterSnapshot : Bytes)
    : Code Unit :=
  sys (.writeState (stateFile (utf8 id) (utf8 title) phase beforeSnapshot afterSnapshot))

/-- What `run` does once no signal holds it back. -/
def lifecycle (scenario : Scenario) (loader : LoaderId) (id : String) : Code ScenarioResult := do
  publishState id scenario.name .setup [] []
  match ← scenario.setup loader with
  | .error message => return ⟨.error, {}, message⟩
  | .ok () =>
      let beforeSnapshot ← readStatus .before
      publishState id scenario.name .before beforeSnapshot []
      let result ← scenario.run loader
      let afterSnapshot ← readStatus .after
      publishState id scenario.name .after beforeSnapshot afterSnapshot
      scenario.teardown loader
      return result

/-- `ScenarioRunner::run`. -/
def run (scenario : Scenario) (loader : LoaderId) (id : String)
    : Code (Except Int ScenarioResult) := do
  sys (.enterRun id)
  match ← ModuleLoader.cleanupOnSignal with
  | .error code => return .error code
  | .ok () =>
      sys (.startRun id)
      return .ok (← lifecycle scenario loader id)

end ScenarioRunner

/-- The scenario objects of `main`, in the order of their construction. -/
inductive ScenarioId where
  | b
  | d
  | e
  | f
  | g
  deriving DecidableEq

namespace ScenarioId

def text : ScenarioId → String
  | .b => "B"
  | .d => "D"
  | .e => "E"
  | .f => "F"
  | .g => "G"

def scenario : ScenarioId → Scenario
  | .b => scenarioB
  | .d => scenarioD
  | .e => scenarioE
  | .f => scenarioF
  | .g => scenarioG

/-- The scenario object's `loader_`. -/
def loader : ScenarioId → LoaderId
  | .b => 0
  | .d => 1
  | .e => 2
  | .f => 3
  | .g => 4

def all : List ScenarioId := [.b, .d, .e, .f, .g]

end ScenarioId

structure Options where
  scenarioId : String := "all"
  startAtId : String := ""
  deriving DecidableEq

/-- The loop over the arguments; `none` if help was asked for. -/
def parseOptions (options : Options) : List String → Option Options
  | [] => some options
  | [arg] => if arg = "-h" ∨ arg = "--help" then none else some options
  | arg :: value :: rest =>
      if arg = "--scenario" then parseOptions { options with scenarioId := value } rest
      else if arg = "--start-at" then parseOptions { options with startAtId := value } rest
      else if arg = "-h" ∨ arg = "--help" then none
      else parseOptions options (value :: rest)

/-- The scenarios `main` runs. Only the test for B sets `active`, and G runs only when it is
named.
-/
def plan (options : Options) : List ScenarioId :=
  let active := decide (options.startAtId = "")
  let chosen (active : Bool) (id : ScenarioId) : Bool :=
    options.scenarioId = id.text
      || (options.scenarioId = "all" && (active || options.startAtId = id.text))
  let active' := active || chosen active .b
  [ScenarioId.b].filter (chosen active)
    ++ [ScenarioId.d, .e, .f].filter (chosen active')
    ++ [ScenarioId.g].filter (fun id => options.scenarioId = id.text)

def constructEach : List ScenarioId → Code Unit
  | [] => return ()
  | id :: rest => do
      ModuleLoader.construct id.loader
      constructEach rest

def runEach : List ScenarioId → Code (Except Int Unit)
  | [] => return .ok ()
  | id :: rest => do
      match ← ScenarioRunner.run id.scenario id.loader id.text with
      | .error code => return .error code
      | .ok _ => runEach rest

def destroyEach : List ScenarioId → Code Unit
  | [] => return ()
  | id :: rest => do
      ModuleLoader.destroy id.loader
      destroyEach rest

/-- `main`, on the arguments after the program's name. -/
def main (args : List String) : Code (Except Int Int) := do
  match parseOptions {} args with
  | none => return .ok 0
  | some options =>
      constructEach ScenarioId.all
      match ← runEach (plan options) with
      | .error code => return .error code
      | .ok () =>
          destroyEach ScenarioId.all.reverse
          return .ok 0

end SafetyIsolation.Harness

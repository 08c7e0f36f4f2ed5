import SafetyIsolation.Text.Lines

/-! The state file `scenario_runner.hpp` writes for the monitor. -/

namespace SafetyIsolation.Harness

open SafetyIsolation.Text

inductive Phase where
  | setup
  | before
  | after
  deriving DecidableEq

/-- The phase's name in the state file. -/
def Phase.text : Phase → Bytes
  | .setup => utf8 "SETUP"
  | .before => utf8 "BEFORE"
  | .after => utf8 "AFTER"

namespace ScenarioRunner

/-- One line of `write_snapshot`; a line without a colon is skipped. -/
def writeField (linePrefix : Bytes) (line : Bytes) : Bytes :=
  match cut 58 line with
  | none => []
  | some (key, value) => linePrefix ++ key ++ utf8 "=" ++ value ++ [newline]

/-- `write_snapshot`. -/
def writeSnapshot (linePrefix : Bytes) (snapshot : Bytes) : Bytes :=
  (lines snapshot).flatMap (writeField linePrefix)

/-- The content `publish_state` writes. -/
def stateFile (id title : Bytes) (phase : Phase) (beforeSnapshot afterSnapshot : Bytes) : Bytes :=
  utf8 "SCENARIO_ID=" ++ id ++ [newline]
    ++ (utf8 "TITLE=" ++ title ++ [newline])
    ++ (utf8 "PHASE=" ++ phase.text ++ [newline])
    ++ writeSnapshot (utf8 "BEFORE_") beforeSnapshot
    ++ writeSnapshot (utf8 "AFTER_") afterSnapshot

end ScenarioRunner

end SafetyIsolation.Harness

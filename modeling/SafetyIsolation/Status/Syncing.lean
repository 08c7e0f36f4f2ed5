import SafetyIsolation.Harness.StateFile
import SafetyIsolation.Status.StatusText

/-! What `sync_scenario_state` makes of the content `publish_state` writes. -/

namespace SafetyIsolation.Status

open SafetyIsolation.Text SafetyIsolation.Kernel SafetyIsolation.Monitor
open SafetyIsolation.Harness SafetyIsolation.Harness.ScenarioRunner

/-- The two snapshots of a comparison. -/
inductive Side where
  | before
  | after
  deriving DecidableEq

namespace Side

def linePrefix : Side → Bytes
  | .before => utf8 "BEFORE_"
  | .after => utf8 "AFTER_"

/-- The snapshot of a side on the display. -/
def get (display : DisplayState) : Side → ComparisonSnapshot
  | .before => display.before
  | .after => display.after

def modify (change : ComparisonSnapshot → ComparisonSnapshot) (state : SyncState)
    : Side → SyncState
  | .before => { state with before := change state.before }
  | .after => { state with after := change state.after }

theorem solid_linePrefix (side : Side) : Solid side.linePrefix := by
  cases side <;> decide

theorem linePrefix_noEquals (side : Side) : (61 : UInt8) ∉ side.linePrefix := by
  cases side <;> decide

theorem linePrefix_ne_nil (side : Side) : side.linePrefix ≠ [] := by
  cases side <;> decide

end Side

/-- A line of `write_snapshot`, without its newline. -/
def fieldLine (linePrefix line : Bytes) : Option Bytes :=
  (cut 58 line).map (fun parts => linePrefix ++ (parts.1 ++ 61 :: parts.2))

theorem writeSnapshot_eq (linePrefix text : Bytes)
    : writeSnapshot linePrefix text
      = ((lines text).filterMap (fieldLine linePrefix)).flatMap (· ++ [newline]) := by
  have equals : utf8 "=" = [61] := by decide
  rw [writeSnapshot]
  induction lines text with
  | nil => rfl
  | cons line rest ih =>
      rw [List.flatMap_cons, ih, List.filterMap_cons, writeField, fieldLine]
      cases cut 58 line with
      | none => rfl
      | some parts =>
          simp only [Option.map_some, List.flatMap_cons, equals, List.append_assoc,
            List.cons_append, List.nil_append]

theorem newline_not_mem_fieldLine {side : Side} {text line : Bytes}
    (member : line ∈ (lines text).filterMap (fieldLine side.linePrefix))
    : newline ∉ line := by
  obtain ⟨source, inText, written⟩ := List.mem_filterMap.mp member
  obtain ⟨parts, isCut, rfl⟩ := Option.map_eq_some_iff.mp written
  have whole := newline_not_mem_lines inText
  rw [cut_eq_some isCut] at whole
  intro inside
  rcases List.mem_append.mp inside with inPrefix | inside
  · exact side.solid_linePrefix.noNewline inPrefix
  rcases List.mem_append.mp inside with inKey | inside
  · exact whole (List.mem_append_left _ inKey)
  rcases List.mem_cons.mp inside with same | inValue
  · exact absurd same (by decide)
  · exact whole (List.mem_append_right _ (List.mem_cons_of_mem _ inValue))

theorem append_ne {front name : Bytes} (rest : Bytes) (other : front.isPrefixOf name = false)
    : front ++ rest ≠ name := by
  intro same
  have isPrefix : front.isPrefixOf name = true :=
    List.isPrefixOf_iff_prefix.mpr (same ▸ List.prefix_append front rest)
  exact Bool.false_ne_true (other.symm.trans isPrefix)

/-- A key with the prefix of a side names a field of that side. -/
theorem syncLine_prefixed (state : SyncState) (side : Side) {line : Bytes}
    {parts : Bytes × Bytes} (isCut : cut 61 line = some parts)
    : syncLine state (side.linePrefix ++ line)
      = side.modify
          (fun snapshot => updateSnapshot snapshot (trimEnd parts.1) (trim parts.2)) state := by
  rw [syncLine, cut_prepend _ side.linePrefix_noEquals, isCut, Option.map_some]
  simp only [trim_append _ side.linePrefix_ne_nil side.solid_linePrefix]
  cases side with
  | before =>
      have found (rest : Bytes)
          : (utf8 "BEFORE_").isPrefixOf (Side.before.linePrefix ++ rest) = true :=
        List.isPrefixOf_iff_prefix.mpr (List.prefix_append _ _)
      rw [if_neg (append_ne _ (by decide)), if_neg (append_ne _ (by decide)),
        if_neg (append_ne _ (by decide)), if_pos (found _)]
      rfl
  | after =>
      have other (rest : Bytes)
          : (utf8 "BEFORE_").isPrefixOf (Side.after.linePrefix ++ rest) = false := rfl
      have found (rest : Bytes)
          : (utf8 "AFTER_").isPrefixOf (Side.after.linePrefix ++ rest) = true :=
        List.isPrefixOf_iff_prefix.mpr (List.prefix_append _ _)
      rw [if_neg (append_ne _ (by decide)), if_neg (append_ne _ (by decide)),
        if_neg (append_ne _ (by decide)), other, if_neg Bool.false_ne_true, if_pos (found _)]
      rfl

theorem Side.modify_id (state : SyncState) (side : Side)
    : side.modify (fun snapshot => snapshot) state = state := by
  cases side <;> rfl

theorem Side.modify_modify (first second : ComparisonSnapshot → ComparisonSnapshot)
    (state : SyncState) (side : Side)
    : side.modify second (side.modify first state)
      = side.modify (fun snapshot => second (first snapshot)) state := by
  cases side <;> rfl

/-- A line of a status text, through the state file. -/
theorem syncLine_fieldLine (state : SyncState) (side : Side) (line : Bytes)
    : (fieldLine side.linePrefix line).elim state (syncLine state)
      = side.modify (snapshotLine · line) state := by
  simp only [fieldLine, snapshotLine, stateEntry]
  cases cut 58 line with
  | none => exact (side.modify_id state).symm
  | some parts =>
      simp only [Option.map_some, Option.elim_some, Option.bind_some]
      cases isCut : cut 61 (parts.1 ++ 61 :: parts.2) with
      | none =>
          rw [syncLine, cut_prepend _ side.linePrefix_noEquals, isCut]
          exact (side.modify_id state).symm
      | some entry => exact syncLine_prefixed state side isCut

/-- A whole status text, through the state file, by induction over its lines. -/
theorem foldl_syncLine_snapshot (state : SyncState) (side : Side) (texts : List Bytes)
    : (texts.filterMap (fieldLine side.linePrefix)).foldl syncLine state
      = side.modify (fun snapshot => texts.foldl snapshotLine snapshot) state := by
  induction texts generalizing state with
  | nil => exact (side.modify_id state).symm
  | cons line rest ih =>
      have first := syncLine_fieldLine state side line
      have both := Side.modify_modify (snapshotLine · line)
        (fun snapshot => rest.foldl snapshotLine snapshot) state side
      rw [← first] at both
      rw [List.filterMap_cons]
      cases written : fieldLine side.linePrefix line with
      | none =>
          rw [written, Option.elim_none] at both
          exact (ih state).trans both
      | some content =>
          rw [written, Option.elim_some] at both
          exact (ih (syncLine state content)).trans both

/-- The first three lines. -/
theorem foldl_syncLine_header (state : SyncState) (id title phase : Bytes)
    : [utf8 "SCENARIO_ID" ++ 61 :: id, utf8 "TITLE" ++ 61 :: title,
        utf8 "PHASE" ++ 61 :: phase].foldl syncLine state
      = { state with scId := trim id, scTitle := trim title, phase := trim phase } := by
  have idStep (state : SyncState)
      : syncLine state (utf8 "SCENARIO_ID" ++ 61 :: id) = { state with scId := trim id } := by
    rw [syncLine, cut_append (by decide)]
    simp only [trim_eq_self (s := utf8 "SCENARIO_ID") (by decide), if_true]
  have titleStep (state : SyncState)
      : syncLine state (utf8 "TITLE" ++ 61 :: title) = { state with scTitle := trim title } := by
    have other : utf8 "TITLE" ≠ utf8 "SCENARIO_ID" := by decide
    rw [syncLine, cut_append (by decide)]
    simp only [trim_eq_self (s := utf8 "TITLE") (by decide), if_neg other, if_true]
  have phaseStep (state : SyncState)
      : syncLine state (utf8 "PHASE" ++ 61 :: phase) = { state with phase := trim phase } := by
    have other : utf8 "PHASE" ≠ utf8 "SCENARIO_ID" := by decide
    have other' : utf8 "PHASE" ≠ utf8 "TITLE" := by decide
    rw [syncLine, cut_append (by decide)]
    simp only [trim_eq_self (s := utf8 "PHASE") (by decide), if_neg other, if_neg other',
      if_true]
  rw [List.foldl_cons, List.foldl_cons, List.foldl_cons, List.foldl_nil, idStep, titleStep,
    phaseStep]

/-- The lines of the content. -/
theorem lines_stateFile {id title : Bytes} (phase : Phase)
    (beforeSnapshot afterSnapshot : Bytes) (idLine : newline ∉ id) (titleLine : newline ∉ title)
    : lines (stateFile id title phase beforeSnapshot afterSnapshot)
      = [utf8 "SCENARIO_ID" ++ 61 :: id, utf8 "TITLE" ++ 61 :: title,
          utf8 "PHASE" ++ 61 :: phase.text]
        ++ (lines beforeSnapshot).filterMap (fieldLine Side.before.linePrefix)
        ++ (lines afterSnapshot).filterMap (fieldLine Side.after.linePrefix) := by
  have header (name value : Bytes) (nameLine : newline ∉ name) (valueLine : newline ∉ value)
      : newline ∉ name ++ 61 :: value := by
    intro member
    rcases List.mem_append.mp member with inName | member
    · exact nameLine inName
    rcases List.mem_cons.mp member with same | inValue
    · exact absurd same (by decide)
    · exact valueLine inValue
  have phaseLine : newline ∉ phase.text := by
    cases phase <;> decide
  have whole : ∀ line ∈ [utf8 "SCENARIO_ID" ++ 61 :: id, utf8 "TITLE" ++ 61 :: title,
        utf8 "PHASE" ++ 61 :: phase.text]
      ++ (lines beforeSnapshot).filterMap (fieldLine Side.before.linePrefix)
      ++ (lines afterSnapshot).filterMap (fieldLine Side.after.linePrefix),
      newline ∉ line := by
    intro line member
    rcases List.mem_append.mp member with member | inAfter
    · rcases List.mem_append.mp member with inHeader | inBefore
      · simp only [List.mem_cons, List.not_mem_nil, or_false] at inHeader
        rcases inHeader with rfl | rfl | rfl
        · exact header _ _ (by decide) idLine
        · exact header _ _ (by decide) titleLine
        · exact header _ _ (by decide) phaseLine
      · exact newline_not_mem_fieldLine inBefore
    · exact newline_not_mem_fieldLine inAfter
  have idName : utf8 "SCENARIO_ID=" = utf8 "SCENARIO_ID" ++ [61] := by decide
  have titleName : utf8 "TITLE=" = utf8 "TITLE" ++ [61] := by decide
  have phaseName : utf8 "PHASE=" = utf8 "PHASE" ++ [61] := by decide
  have text := lines_flatMap [] whole
  rw [lines, List.append_nil, List.append_nil] at text
  rw [← text, stateFile, writeSnapshot_eq, writeSnapshot_eq, List.flatMap_append,
    List.flatMap_append, idName, titleName, phaseName]
  simp only [Side.linePrefix, List.flatMap_cons, List.flatMap_nil, List.append_assoc,
    List.cons_append, List.nil_append]

/-- The display after a poll of the content. -/
theorem syncScenarioState_stateFile {id title : Bytes} (phase : Phase)
    (beforeSnapshot afterSnapshot : Bytes) (display : DisplayState) (idLine : newline ∉ id)
    (titleLine : newline ∉ title)
    : syncScenarioState (stateFile id title phase beforeSnapshot afterSnapshot) display
      = syncFinish display {
        before := (lines beforeSnapshot).foldl snapshotLine display.before
        after := (lines afterSnapshot).foldl snapshotLine display.after
        scId := trim id
        scTitle := trim title
        phase := phase.text
      } := by
  have phaseText : trim phase.text = phase.text := by
    cases phase <;> decide
  rw [syncScenarioState, lines_stateFile phase _ _ idLine titleLine, List.foldl_append,
    List.foldl_append, foldl_syncLine_header, foldl_syncLine_snapshot,
    foldl_syncLine_snapshot, phaseText]
  rfl

theorem syncFinish_before {state : SyncState} (display : DisplayState)
    (kept : state.phase ≠ utf8 "SETUP")
    : (syncFinish display state).before = state.before :=
  if_neg kept

theorem syncFinish_after {state : SyncState} (display : DisplayState)
    (kept : state.phase ≠ utf8 "SETUP")
    : (syncFinish display state).after = state.after :=
  if_neg kept

end SafetyIsolation.Status

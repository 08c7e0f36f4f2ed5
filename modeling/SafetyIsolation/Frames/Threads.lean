import SafetyIsolation.Interleaving.Alone
import SafetyIsolation.Monitor.Renderer
import SafetyIsolation.Status.Syncing

/-! The two threads of the monitor that share its snapshots: `sync_scenario_state` one store at
a time, and `render_normal` one load at a time.
-/

namespace SafetyIsolation.Frames

open SafetyIsolation.Text SafetyIsolation.Monitor SafetyIsolation.Interleaving
open SafetyIsolation.Status (Side)

/-- One store into a snapshot. The strings are stored under its mutex, by `reset_snapshot` both
at once.
-/
inductive Store where
  | valVmalloc (value : UInt32)
  | valPhys (value : UInt32)
  | mappingEntry (value : UInt64)
  | mappingWritable (value : Bool)
  | ctxProtected (value : Bool)
  | smmuActive (value : Bool)
  | mappingLevel (value : Bytes)
  | status (value : Bytes)
  | texts (level shown : Bytes)
  deriving DecidableEq

def Store.apply (written : Store) (snapshot : ComparisonSnapshot) : ComparisonSnapshot :=
  match written with
  | .valVmalloc value => { snapshot with valVmalloc := value }
  | .valPhys value => { snapshot with valPhys := value }
  | .mappingEntry value => { snapshot with mappingEntry := value }
  | .mappingWritable value => { snapshot with mappingWritable := value }
  | .ctxProtected value => { snapshot with ctxProtected := value }
  | .smmuActive value => { snapshot with smmuActive := value }
  | .mappingLevel value => { snapshot with mappingLevel := value }
  | .status value => { snapshot with status := value }
  | .texts level shown => { snapshot with mappingLevel := level, status := shown }

/-- One load of `snapshot_view`; the strings are loaded together, under the mutex. -/
inductive Load where
  | valVmalloc
  | valPhys
  | mappingEntry
  | mappingWritable
  | ctxProtected
  | smmuActive
  | texts
  deriving DecidableEq

abbrev Load.Res : Load → Type
  | .valVmalloc => UInt32
  | .valPhys => UInt32
  | .mappingEntry => UInt64
  | .mappingWritable => Bool
  | .ctxProtected => Bool
  | .smmuActive => Bool
  | .texts => Bytes × Bytes

def Load.look (snapshot : ComparisonSnapshot) : (field : Load) → field.Res
  | .valVmalloc => snapshot.valVmalloc
  | .valPhys => snapshot.valPhys
  | .mappingEntry => snapshot.mappingEntry
  | .mappingWritable => snapshot.mappingWritable
  | .ctxProtected => snapshot.ctxProtected
  | .smmuActive => snapshot.smmuActive
  | .texts => (snapshot.mappingLevel, snapshot.status)

inductive DisplayOp where
  | store (side : Side) (written : Store)
  | setScenario (id title : Bytes)
  | load (side : Side) (field : Load)
  | events
  | scenario
  deriving DecidableEq

abbrev DisplayOp.Res : DisplayOp → Type
  | .store _ _ => Unit
  | .setScenario _ _ => Unit
  | .load _ field => field.Res
  | .events => List EventEntry
  | .scenario => ScenarioInfo

/-- A change to the snapshot of a side. -/
def onSide (state : MonitorState) (change : ComparisonSnapshot → ComparisonSnapshot)
    : Side → MonitorState
  | .before => { state with before := change state.before }
  | .after => { state with after := change state.after }

/-- The meaning of each operation; none has to wait. -/
def displayExec : (op : DisplayOp) → MonitorState → Outcome op.Res MonitorState
  | .store side written, s => .done () (onSide s written.apply side)
  | .setScenario id title, s =>
      .done () { s with
        scenarioInfo := {
          id
          title := if title = [] then s.scenarioInfo.title else title
        } }
  | .load side field, s => .done (field.look (side.get s.toDisplayState)) s
  | .events, s => .done s.events s
  | .scenario, s => .done s.scenarioInfo s

/-- Code of one thread. -/
abbrev Shared (α : Type) : Type := Prog DisplayOp DisplayOp.Res α

namespace Shared

def op (operation : DisplayOp) : Shared operation.Res := Prog.perform operation

/-- `reset_snapshot`. -/
def resetSnapshot (side : Side) : Shared Unit := do
  op (.store side (.valVmalloc 0))
  op (.store side (.valPhys 0))
  op (.store side (.mappingEntry 0))
  op (.store side (.mappingWritable false))
  op (.store side (.ctxProtected false))
  op (.store side (.smmuActive false))
  op (.store side (.texts (utf8 "--") (utf8 "--")))

/-- `update_snapshot`. -/
def updateSnapshot (side : Side) (key value : Bytes) : Shared Unit :=
  if key = utf8 "value_via_vmalloc" ∨ key = utf8 "val_vmalloc" then
    op (.store side (.valVmalloc (parseHex32 value)))
  else if key = utf8 "value_via_phys" ∨ key = utf8 "val_phys" then
    op (.store side (.valPhys (parseHex32 value)))
  else if key = utf8 "mapping_entry_current" ∨ key = utf8 "mapping_entry_vmalloc" then
    op (.store side (.mappingEntry (parseHex64 value)))
  else if key = utf8 "mapping_writable_current" ∨ key = utf8 "mapping_writable_vmalloc" then
    op (.store side (.mappingWritable (value = utf8 "1")))
  else if key = utf8 "ctx_protected" then op (.store side (.ctxProtected (isOn value)))
  else if key = utf8 "smmu_active" then op (.store side (.smmuActive (isOn value)))
  else if key = utf8 "mapping_level_current" ∨ key = utf8 "mapping_level_vmalloc" then
    op (.store side (.mappingLevel value))
  else if key = utf8 "status" then op (.store side (.status value))
  else return ()

/-- The local variables of `sync_scenario_state`. -/
structure Locals where
  scId : Bytes := []
  scTitle : Bytes := []
  phase : Bytes := []

/-- One turn of the loop over the lines of the state file. -/
def syncLine (locals : Locals) (line : Bytes) : Shared Locals :=
  match cut 61 line with
  | none => return locals
  | some (rawKey, rawValue) =>
      let key := trim rawKey
      let value := trim rawValue
      if key = utf8 "SCENARIO_ID" then return { locals with scId := value }
      else if key = utf8 "TITLE" then return { locals with scTitle := value }
      else if key = utf8 "PHASE" then return { locals with phase := value }
      else if (utf8 "BEFORE_").isPrefixOf key then do
        updateSnapshot .before (key.drop 7) value
        return locals
      else if (utf8 "AFTER_").isPrefixOf key then do
        updateSnapshot .after (key.drop 6) value
        return locals
      else return locals

def syncLines : Locals → List Bytes → Shared Locals
  | locals, [] => return locals
  | locals, line :: rest => do syncLines (← syncLine locals line) rest

/-- What `sync_scenario_state` does after the loop. -/
def syncFinish (locals : Locals) : Shared Unit := do
  if locals.phase = utf8 "SETUP" then
    resetSnapshot .before
    resetSnapshot .after
  if locals.scId ≠ [] then
    op (.setScenario locals.scId locals.scTitle)

/-- `sync_scenario_state`, on the content of the state file. -/
def syncScenarioState (content : Bytes) : Shared Unit := do
  syncFinish (← syncLines {} (lines content))

/-- `snapshot_view`. -/
def snapshotView (side : Side) : Shared SnapshotView := do
  let vmallocValue ← op (.load side .valVmalloc)
  let physValue ← op (.load side .valPhys)
  let mappingEntry ← op (.load side .mappingEntry)
  let writable ← op (.load side .mappingWritable)
  let ctxProtected ← op (.load side .ctxProtected)
  let smmuActive ← op (.load side .smmuActive)
  let texts ← op (.load side .texts)
  return {
    vmallocValue, physValue, mappingEntry, writable, ctxProtected, smmuActive
    mappingLevel := texts.1
    status := texts.2
  }

/-- What `render_normal` reads. -/
def renderNormal : Shared Frame := do
  let before ← snapshotView .before
  let after ← snapshotView .after
  let events ← op .events
  let scenarioInfo ← op .scenario
  return { before, after, events, scenarioInfo }

end Shared

/-- `mem_poller` and the thread of `main`. -/
inductive MonitorThread where
  | poller
  | renderer
  deriving DecidableEq

inductive MonitorCall where
  | sync (content : Bytes)
  | render
  deriving DecidableEq

/-- The code of a call; a frame is what `render` returns. -/
def MonitorCall.body : MonitorCall → Shared (Option Frame)
  | .sync content => do
      Shared.syncScenarioState content
      return none
  | .render => return some (← Shared.renderNormal)

def monitorThreads
    : Machine MonitorState MonitorThread MonitorCall (Option Frame) Unit DisplayOp
        DisplayOp.Res where
  exec _ _ := displayExec
  body := MonitorCall.body

abbrev MonitorConfig : Type :=
  Config MonitorState MonitorThread MonitorCall (Option Frame) DisplayOp DisplayOp.Res

abbrev MonitorEvent : Type := Event MonitorThread MonitorCall Unit

-----------------------------------------------------------------------------------------
-- Each thread by itself
-----------------------------------------------------------------------------------------

open Prog

/-- Whatever the code of a thread does by itself. -/
abbrev Alone {α : Type} (code : Shared α) (post : α → MonitorState → Prop) (s : MonitorState)
    : Prop :=
  code.Always (fun _ : Unit => displayExec) (fun _ => True) post s

/-- The code changes the snapshot of a side and nothing else. -/
abbrev Changes (code : Shared Unit) (change : ComparisonSnapshot → ComparisonSnapshot)
    (side : Side)
    : Prop :=
  ∀ s, Alone code (fun _ s' => s' = onSide s change side) s

theorem Changes.store (side : Side) (written : Store)
    : Changes (Shared.op (.store side written)) written.apply side :=
  fun _ _ _ => ⟨_, _, rfl, rfl⟩

theorem Changes.bind {first second : Shared Unit}
    {change later : ComparisonSnapshot → ComparisonSnapshot} {side : Side}
    (h : Changes first change side) (h' : Changes second later side)
    : Changes (do first; second) (fun snapshot => later (change snapshot)) side := by
  intro s
  refine always_bind.mpr ((h s).imp ?_)
  rintro _ _ rfl
  refine (h' _).imp ?_
  rintro _ _ rfl
  cases side with
  | before => rfl
  | after => rfl

theorem Changes.ite {condition : Prop} [Decidable condition] {code other : Shared Unit}
    {change alternative : ComparisonSnapshot → ComparisonSnapshot} {side : Side}
    (h : Changes code change side) (h' : Changes other alternative side)
    : Changes (if condition then code else other)
        (fun snapshot => if condition then change snapshot else alternative snapshot) side := by
  by_cases holds : condition
  · simpa only [if_pos holds] using h
  · simpa only [if_neg holds] using h'

theorem changes_resetSnapshot (side : Side)
    : Changes (Shared.resetSnapshot side) (fun _ => resetSnapshot) side :=
  .bind (.store _ _) (.bind (.store _ _) (.bind (.store _ _) (.bind (.store _ _)
    (.bind (.store _ _) (.bind (.store _ _) (.store _ _))))))

theorem changes_updateSnapshot (side : Side) (key value : Bytes)
    : Changes (Shared.updateSnapshot side key value)
        (fun snapshot => updateSnapshot snapshot key value) side := by
  unfold Shared.updateSnapshot updateSnapshot
  refine .ite (.store _ _) (.ite (.store _ _) (.ite (.store _ _) (.ite (.store _ _)
    (.ite (.store _ _) (.ite (.store _ _) (.ite (.store _ _) (.ite (.store _ _) ?_)))))))
  intro s
  cases side with
  | before => exact rfl
  | after => exact rfl

/-- The local variables of the loop, with the snapshots it works on. -/
def gathered (s : MonitorState) (locals : Shared.Locals) : SyncState where
  before := s.before
  after := s.after
  scId := locals.scId
  scTitle := locals.scTitle
  phase := locals.phase

/-- The same as local variables and a shared state. -/
structure Spread (s : MonitorState) (state : SyncState) (locals : Shared.Locals)
    (s' : MonitorState) : Prop where
  locals : locals = ⟨state.scId, state.scTitle, state.phase⟩
  shared : s' = { s with before := state.before, after := state.after }

theorem alone_syncLine (locals : Shared.Locals) (line : Bytes) (s : MonitorState)
    : Alone (Shared.syncLine locals line) (Spread s (syncLine (gathered s locals) line)) s := by
  unfold Shared.syncLine syncLine
  cases cut 61 line with
  | none => exact ⟨rfl, rfl⟩
  | some parts =>
      dsimp only
      split_ifs
      · exact ⟨rfl, rfl⟩
      · exact ⟨rfl, rfl⟩
      · exact ⟨rfl, rfl⟩
      · refine always_bind.mpr ((changes_updateSnapshot _ _ _ s).imp ?_)
        rintro _ _ rfl
        exact ⟨rfl, rfl⟩
      · refine always_bind.mpr ((changes_updateSnapshot _ _ _ s).imp ?_)
        rintro _ _ rfl
        exact ⟨rfl, rfl⟩
      · exact ⟨rfl, rfl⟩

/-- The loop over the lines, by induction. -/
theorem alone_syncLines (locals : Shared.Locals) (texts : List Bytes) (s : MonitorState)
    : Alone (Shared.syncLines locals texts)
        (Spread s (texts.foldl syncLine (gathered s locals))) s := by
  induction texts generalizing locals s with
  | nil => exact ⟨rfl, rfl⟩
  | cons line rest ih =>
      refine always_bind.mpr ((alone_syncLine locals line s).imp ?_)
      intro _ _ same
      obtain ⟨rfl, rfl⟩ := same
      refine (ih _ _).imp ?_
      intro _ _ same
      obtain ⟨rfl, rfl⟩ := same
      exact ⟨rfl, rfl⟩

theorem alone_setScenario (locals : Shared.Locals) (s : MonitorState)
    : Alone (if locals.scId ≠ [] then
          Shared.op (.setScenario locals.scId locals.scTitle)
        else return ())
        (fun _ s' => s' = { s with
          scenarioInfo :=
            if locals.scId = [] then s.scenarioInfo
            else {
              id := locals.scId
              title := if locals.scTitle = [] then s.scenarioInfo.title else locals.scTitle
            } })
        s := by
  by_cases unnamed : locals.scId = []
  · simp only [unnamed, ne_eq, not_true_eq_false, if_false, if_true]
    rfl
  · simp only [unnamed, ne_eq, not_false_eq_true, if_false, if_true]
    exact fun _ _ => ⟨_, _, rfl, rfl⟩

theorem alone_syncFinish (locals : Shared.Locals) (s : MonitorState)
    : Alone (Shared.syncFinish locals)
        (fun _ s' => s'.toDisplayState = syncFinish s.toDisplayState (gathered s locals)
          ∧ s'.events = s.events) s := by
  unfold Shared.syncFinish syncFinish
  by_cases isSetup : locals.phase = utf8 "SETUP"
  · simp only [gathered, isSetup, if_true]
    refine always_bind.mpr ((changes_resetSnapshot .before s).imp ?_)
    rintro _ _ rfl
    refine always_bind.mpr ((changes_resetSnapshot .after _).imp ?_)
    rintro _ _ rfl
    refine (alone_setScenario locals _).imp ?_
    rintro _ _ rfl
    exact ⟨rfl, rfl⟩
  · simp only [gathered, isSetup, if_false]
    refine (alone_setScenario locals s).imp ?_
    rintro _ _ rfl
    exact ⟨rfl, rfl⟩

/-- `sync_scenario_state` by itself does what its sequential reading says. -/
theorem alone_syncScenarioState (content : Bytes) (s : MonitorState)
    : Alone (Shared.syncScenarioState content)
        (fun _ s' => s'.toDisplayState = syncScenarioState content s.toDisplayState
          ∧ s'.events = s.events) s := by
  refine always_bind.mpr ((alone_syncLines {} (lines content) s).imp ?_)
  intro _ _ same
  obtain ⟨rfl, rfl⟩ := same
  exact (alone_syncFinish _ _).imp (fun _ _ same => same)

/-- The frame of a state that does not change meanwhile. -/
theorem alone_renderNormal (s : MonitorState)
    : Alone Shared.renderNormal (fun frame s' => frame = .of s ∧ s' = s) s := by
  iterate 16 refine fun _ _ => ⟨_, _, rfl, ?_⟩
  exact ⟨rfl, rfl⟩

end SafetyIsolation.Frames

import SafetyIsolation.Harness.Runner
import SafetyIsolation.Interleaving.SharedFile
import SafetyIsolation.Status.Syncing

/-! The dashboard under all schedules of publications and polls.
A poll overwrites only what the publication it reads names. `SETUP` alone clears the rest, so
a monitor that misses it keeps the comparison of an earlier scenario.
-/

namespace SafetyIsolation.Status

open SafetyIsolation.Text SafetyIsolation.Kernel SafetyIsolation.Monitor
open SafetyIsolation.Harness SafetyIsolation.Harness.ScenarioRunner
open SafetyIsolation.Interleaving

/-- The id and the title of a scenario: one line each, and not blank. -/
structure Label where
  id : Bytes
  title : Bytes
  idLine : newline ∉ id
  titleLine : newline ∉ title
  idShown : trim id ≠ []
  titleShown : trim title ≠ []

/-- The labels `main` gives to `ScenarioRunner::run`. -/
def Label.ofScenario (id : ScenarioId) : Label where
  id := utf8 id.text
  title := utf8 id.scenario.name
  idLine := by cases id <;> decide
  titleLine := by cases id <;> decide
  idShown := by cases id <;> decide
  titleShown := by cases id <;> decide

/-- The calls of `publish_state` in `ScenarioRunner::run`. A status is `none` where
`read_status` failed.
-/
inductive Publication where
  | setup (label : Label)
  | before (label : Label) (beforeStatus : Option StatusReport)
  | after (label : Label) (beforeStatus afterStatus : Option StatusReport)

namespace Publication

/-- What `read_status` returns. -/
def statusText : Option StatusReport → Bytes
  | none => []
  | some report => safetyMemProcShow report

def label : Publication → Label
  | setup label => label
  | before label _ => label
  | after label _ _ => label

def phase : Publication → Phase
  | setup _ => .setup
  | before _ _ => .before
  | after _ _ _ => .after

/-- The status a publication carries for a side. -/
def status : Publication → Side → Option StatusReport
  | setup _, _ => none
  | before _ beforeStatus, .before => beforeStatus
  | before _ _, .after => none
  | after _ beforeStatus _, .before => beforeStatus
  | after _ _ afterStatus, .after => afterStatus

def content (publication : Publication) : Bytes :=
  stateFile publication.label.id publication.label.title publication.phase
    (statusText (publication.status .before)) (statusText (publication.status .after))

/-- The publication decides what a side shows. -/
def settles (publication : Publication) (side : Side) : Bool :=
  publication.phase = .setup || (publication.status side).isSome

end Publication

/-- One `ScenarioRunner::run` whose setup succeeds. -/
structure ScenarioRun where
  label : Label
  beforeStatus : Option StatusReport
  afterStatus : Option StatusReport

def ScenarioRun.publications (run : ScenarioRun) : List Publication := [
  .setup run.label,
  .before run.label run.beforeStatus,
  .after run.label run.beforeStatus run.afterStatus
]

-----------------------------------------------------------------------------------------
-- One poll
-----------------------------------------------------------------------------------------

/-- The two parts of the display that `mem_poller` takes from the state file. -/
structure SameComparison (left right : DisplayState) : Prop where
  before : left.before = right.before
  after : left.after = right.after
  scenarioInfo : left.scenarioInfo = right.scenarioInfo

theorem SameComparison.get {left right : DisplayState} (same : SameComparison left right)
    (side : Side)
    : side.get left = side.get right := by
  cases side with
  | before => exact same.before
  | after => exact same.after

/-- A fresh display compares nothing. -/
theorem Side.get_fresh (side : Side) : side.get {} = resetSnapshot := by
  cases side <;> rfl

theorem pollLine_frame (display : DisplayState) (line : Bytes)
    : SameComparison (pollLine display line) display := by
  rw [pollLine]
  cases cut 58 line with
  | none => exact ⟨rfl, rfl, rfl⟩
  | some parts =>
      simp only [PollField.pollField_eq]
      cases PollField.ofKey (trim parts.1) with
      | none => exact ⟨rfl, rfl, rfl⟩
      | some field => cases field <;> exact ⟨rfl, rfl, rfl⟩

/-- The status file has no part in the comparison, by induction over its lines. -/
theorem pollStatus_frame (content : Bytes) (display : DisplayState)
    : SameComparison (pollStatus content display) display := by
  rw [pollStatus]
  induction lines content generalizing display with
  | nil => exact ⟨rfl, rfl, rfl⟩
  | cons line rest ih =>
      have first := pollLine_frame display line
      have later := ih (pollLine display line)
      exact ⟨later.before.trans first.before, later.after.trans first.after,
        later.scenarioInfo.trans first.scenarioInfo⟩

/-- A poll that finds nothing in the state file. -/
theorem memPoll_frame (status : Option Bytes) (display : DisplayState)
    : SameComparison (memPoll status none display) display := by
  cases status with
  | none => exact ⟨rfl, rfl, rfl⟩
  | some content => exact pollStatus_frame content display

/-- A poll decodes the state file after the status file. -/
theorem memPoll_some (status : Option Bytes) (content : Bytes) (display : DisplayState)
    : memPoll status (some content) display
      = syncScenarioState content (memPoll status none display) := by
  cases status <;> rfl

theorem memPoll_empty (status : Option Bytes) (display : DisplayState)
    : SameComparison (memPoll status (some []) display) display := by
  have frame := memPoll_frame status display
  rw [memPoll_some]
  exact ⟨frame.before, frame.after, frame.scenarioInfo⟩

/-- The snapshot a status text leaves, whatever was there before. -/
def readSnapshot (report : StatusReport) : ComparisonSnapshot :=
  (lines (safetyMemProcShow report)).foldl snapshotLine {}

theorem foldl_snapshotLine (report : StatusReport) (snapshot : ComparisonSnapshot)
    : (lines (safetyMemProcShow report)).foldl snapshotLine snapshot = readSnapshot report := by
  refine SnapshotField.get_ext (fun field => ?_)
  rw [readSnapshot, get_snapshotLines, get_snapshotLines]

/-- A snapshot that was read differs from a cleared one. -/
theorem readSnapshot_ne (report : StatusReport) : readSnapshot report ≠ resetSnapshot := by
  intro cleared
  have status := get_snapshotLines report {} .status
  rw [if_pos rfl] at status
  have same : Value.text resetSnapshot.status = .text (Kernel.statusText report.protectedState) :=
    cleared ▸ status
  have distinct : ∀ flag, resetSnapshot.status ≠ Kernel.statusText flag := by decide
  exact distinct report.protectedState (Value.text.inj same)

namespace Publication

theorem foldl_statusText (carried : Option StatusReport) (snapshot : ComparisonSnapshot)
    : (lines (statusText carried)).foldl snapshotLine snapshot
      = (carried.map readSnapshot).getD snapshot := by
  cases carried with
  | none => rfl
  | some report =>
      rw [Option.map_some, Option.getD_some, ← foldl_snapshotLine report snapshot, statusText]

/-- What a side shows after a poll of the publication, if it decides that. -/
def shows (publication : Publication) (side : Side) : Option ComparisonSnapshot :=
  if publication.phase = .setup then some resetSnapshot
  else (publication.status side).map readSnapshot

theorem shows_isSome (publication : Publication) (side : Side)
    : (publication.shows side).isSome = publication.settles side := by
  cases publication with
  | setup label => rfl
  | before label beforeStatus => cases side <;> simp [shows, settles, phase]
  | after label beforeStatus afterStatus => cases side <;> simp [shows, settles, phase]

theorem shows_of_status {publication : Publication} {side : Side} {report : StatusReport}
    (carried : publication.status side = some report)
    : publication.shows side = some (readSnapshot report) := by
  have notSetup : publication.phase ≠ .setup := by
    intro isSetup
    cases publication with
    | setup label => exact Option.some_ne_none report carried.symm
    | before label beforeStatus => exact absurd isSetup (by simp [phase])
    | after label beforeStatus afterStatus => exact absurd isSetup (by simp [phase])
  rw [shows, if_neg notSetup, carried, Option.map_some]

theorem shows_eq_none {publication : Publication} {side : Side}
    (unsettled : publication.settles side = false)
    : publication.shows side = none := by
  rw [← shows_isSome] at unsettled
  exact Option.isSome_eq_false_iff.mp unsettled |> Option.isNone_iff_eq_none.mp

theorem get_memPoll (publication : Publication) (live : Option Bytes) (display : DisplayState)
    (side : Side)
    : side.get (memPoll live (some publication.content) display)
      = (publication.shows side).getD (side.get display) := by
  have frame := memPoll_frame live display
  have setupText : ∀ phase : Phase, phase.text = utf8 "SETUP" → phase = .setup := by
    intro phase
    cases phase <;> decide
  rw [memPoll_some, content,
    syncScenarioState_stateFile _ _ _ _ publication.label.idLine publication.label.titleLine,
    foldl_statusText, foldl_statusText, frame.before, frame.after]
  by_cases isSetup : publication.phase = .setup
  · rw [shows, if_pos isSetup, isSetup]
    cases side <;> rfl
  · have kept := fun text => isSetup (setupText publication.phase text)
    rw [shows, if_neg isSetup]
    cases side with
    | before => exact syncFinish_before _ kept
    | after => exact syncFinish_after _ kept

theorem scenarioInfo_memPoll (publication : Publication) (status : Option Bytes)
    (display : DisplayState)
    : (memPoll status (some publication.content) display).scenarioInfo
      = ⟨trim publication.label.id, trim publication.label.title⟩ := by
  rw [memPoll_some, content,
    syncScenarioState_stateFile _ _ _ _ publication.label.idLine publication.label.titleLine]
  simp only [syncFinish, if_neg publication.label.idShown,
    if_neg publication.label.titleShown]

/-- The content always has lines. -/
theorem content_ne_nil (publication : Publication) : publication.content ≠ [] := by
  intro blank
  have read := lines_stateFile publication.phase (statusText (publication.status .before))
    (statusText (publication.status .after)) publication.label.idLine
    publication.label.titleLine
  rw [← content, blank] at read
  exact absurd read (by simp [lines])

end Publication

-----------------------------------------------------------------------------------------
-- Schedules
-----------------------------------------------------------------------------------------

/-- The state file between the harness and the monitor. -/
def dashboard : SharedFile Publication Bytes DisplayState (Option Bytes) where
  encode := Publication.content
  empty := []
  poll := memPoll

/-- A schedule that ends with a poll of this content leaves this display. The monitor starts
with a fresh display.
-/
def Displays (published : List Publication) (content : Bytes) (display : DisplayState) : Prop :=
  ∃ moves live x,
    dashboard.run (.start Bytes published {}) moves = some x
    ∧ x.content = some content
    ∧ display = memPoll live x.content x.view

/-- A publication comes before some publication of this content. -/
def PublishedBefore (published : List Publication) (earlier : Publication) (content : Bytes)
    : Prop :=
  ∃ front later,
    published = front ++ earlier :: later ∧ ∃ message ∈ later, message.content = content

/-- A side that shows something shows a status that was published. -/
def Accounted (written : List Publication) (display : DisplayState) : Prop :=
  ∀ side : Side,
    side.get display = resetSnapshot
    ∨ ∃ publication ∈ written, (publication.status side).isSome = true

theorem Accounted.frame {written : List Publication} {display display' : DisplayState}
    (accounted : Accounted written display) (same : SameComparison display' display)
    : Accounted written display' := by
  intro side
  rw [same.get side]
  exact accounted side

theorem dashboard_tracks : dashboard.Tracks Accounted where
  grows publication accounted := by
    intro side
    rcases accounted side with cleared | ⟨earlier, member, carries⟩
    · exact Or.inl cleared
    · exact Or.inr ⟨earlier, List.mem_append_left _ member, carries⟩
  missing live accounted := accounted.frame (memPoll_frame live _)
  blank live accounted := accounted.frame (memPoll_empty live _)
  reads publication live accounted := by
    intro side
    rw [dashboard, publication.get_memPoll, Publication.shows]
    by_cases isSetup : publication.phase = .setup
    · rw [if_pos isSetup]
      exact Or.inl rfl
    · rw [if_neg isSetup]
      cases carried : publication.status side with
      | none => exact accounted side
      | some report =>
          exact Or.inr ⟨publication, List.mem_append_right _ List.mem_cons_self,
            carried ▸ rfl⟩

/-- A content that leaves a side open carries no status for it. -/
theorem status_eq_none_of_content {first second : Publication}
    (same : first.content = second.content) {side : Side}
    (unsettled : second.settles side = false)
    : first.status side = none := by
  cases carried : first.status side with
  | none => rfl
  | some report =>
      have one := first.get_memPoll none {} side
      have other := second.get_memPoll none {} side
      rw [Publication.shows_of_status carried, same, other,
        Publication.shows_eq_none unsettled, Option.getD_none, Option.getD_some] at one
      exact absurd (one.symm.trans side.get_fresh) (readSnapshot_ne report)

theorem Displays.settled {published : List Publication} {last : Publication}
    {display : DisplayState} (displays : Displays published last.content display) {side : Side}
    (settles : last.settles side = true)
    : some (side.get display) = last.shows side := by
  obtain ⟨moves, live, x, ran, content, rfl⟩ := displays
  rw [← Publication.shows_isSome] at settles
  obtain ⟨shown, isShown⟩ := Option.isSome_iff_exists.mp settles
  rw [content, last.get_memPoll, isShown, Option.getD_some]

theorem Displays.scenarioInfo {published : List Publication} {last : Publication}
    {display : DisplayState} (displays : Displays published last.content display)
    : display.scenarioInfo = ⟨trim last.label.id, trim last.label.title⟩ := by
  obtain ⟨moves, live, x, ran, content, rfl⟩ := displays
  rw [content, last.scenarioInfo_memPoll]

/-- What a schedule can say about a side that the last publication leaves open. -/
theorem Displays.unsettled {published : List Publication} {last : Publication}
    {display : DisplayState} (displays : Displays published last.content display) {side : Side}
    (unsettled : last.settles side = false)
    (absent : ∀ earlier, PublishedBefore published earlier last.content
      → earlier.status side = none)
    : side.get display = resetSnapshot := by
  obtain ⟨moves, live, x, ran, content, rfl⟩ := displays
  have cleared : Accounted [] {} := fun side => Or.inl side.get_fresh
  obtain ⟨current, accounted, messages⟩ := dashboard_tracks.run ran (Or.inl rfl) cleared
  rw [content, last.get_memPoll, Publication.shows_eq_none unsettled, Option.getD_none]
  rcases accounted side with shown | ⟨publication, member, carries⟩
  · exact shown
  rcases current with missing | blank | ⟨front, message, written, holds⟩
  · exact absurd (content.symm.trans missing) (Option.some_ne_none _)
  · exact absurd (Option.some.inj (content.symm.trans blank)) last.content_ne_nil
  have same : message.content = last.content := Option.some.inj (holds.symm.trans content)
  have nothing : publication.status side = none := by
    rw [written] at member
    rcases List.mem_append.mp member with earlier | isLast
    · obtain ⟨before, between, rfl⟩ := List.append_of_mem earlier
      refine absent publication ⟨before, between ++ [message] ++ x.opened.toList ++ x.pending,
        ?_, message, by simp, same⟩
      have whole : x.messages = published := messages
      rw [← whole, Exchange.messages, written]
      simp only [List.append_assoc, List.cons_append]
    · rw [List.mem_singleton.mp isLast]
      exact status_eq_none_of_content same unsettled
  rw [nothing] at carries
  exact absurd carries Bool.false_ne_true

/-- A schedule with one poll, of the last of these publications. -/
theorem displays_skipping (front rest : List Publication) (last : Publication)
    : Displays (front ++ last :: rest) last.content
        (memPoll none (some last.content) {}) := by
  obtain ⟨moves, ran⟩ := dashboard.exists_run_writing
    (.start Bytes (front ++ last :: rest) {}) rfl rfl
  exact ⟨moves, none, _, ran, rfl, rfl⟩

/-- A schedule with two polls. -/
theorem displays_watching (front between rest : List Publication) (earlier last : Publication)
    : Displays (front ++ earlier :: (between ++ last :: rest)) last.content
        (memPoll none (some last.content) (memPoll none (some earlier.content) {})) := by
  obtain ⟨moves, ran⟩ := dashboard.exists_run_watching
    (.start Bytes (front ++ earlier :: (between ++ last :: rest)) {}) none rfl rfl
  exact ⟨moves, none, _, ran, rfl, rfl⟩

/-- Every schedule that ends with a poll of the same content leaves the same comparison
exactly when, for each side, that content decides it or no status was published for it
before.
-/
theorem displays_agree_iff (published : List Publication) (last : Publication)
    : (∀ first second,
        Displays published last.content first → Displays published last.content second
        → SameComparison first second)
      ↔ ∀ side : Side,
          last.settles side = true
          ∨ ∀ earlier, PublishedBefore published earlier last.content
            → earlier.status side = none := by
  constructor
  · intro agree side
    by_cases settles : last.settles side = true
    · exact Or.inl settles
    have unsettled := Bool.eq_false_of_not_eq_true settles
    refine Or.inr (fun earlier isEarlier => ?_)
    obtain ⟨front, later, rfl, message, member, same⟩ := isEarlier
    obtain ⟨between, rest, rfl⟩ := List.append_of_mem member
    cases carried : earlier.status side with
    | none => rfl
    | some report =>
        have skipping := displays_skipping (front ++ earlier :: between) rest message
        have watching := displays_watching front between rest earlier message
        rw [List.append_assoc, List.cons_append] at skipping
        rw [same] at skipping watching
        have shown := (agree _ _ watching skipping).get side
        rw [last.get_memPoll, last.get_memPoll, Publication.shows_eq_none unsettled,
          Option.getD_none, Option.getD_none, earlier.get_memPoll,
          Publication.shows_of_status carried, Option.getD_some, Side.get_fresh] at shown
        exact absurd shown (readSnapshot_ne report)
  · intro decided first second firstDisplays secondDisplays
    have sides (side : Side) : side.get first = side.get second := by
      by_cases settles : last.settles side = true
      · exact Option.some.inj
          ((firstDisplays.settled settles).trans (secondDisplays.settled settles).symm)
      · have absent := (decided side).resolve_left settles
        have unsettled := Bool.eq_false_of_not_eq_true settles
        rw [firstDisplays.unsettled unsettled absent,
          secondDisplays.unsettled unsettled absent]
    exact ⟨sides .before, sides .after,
      firstDisplays.scenarioInfo.trans secondDisplays.scenarioInfo.symm⟩

/-- A monitor that polls the end of one run and then the second phase of the next one
compares the next scenario with the result of the earlier one. A monitor that starts there
does not.
-/
theorem skipped_setup (first second : ScenarioRun) {report : StatusReport}
    (carried : first.afterStatus = some report)
    : ∃ kept fresh,
        Displays ([first, second].flatMap ScenarioRun.publications)
          (Publication.before second.label second.beforeStatus).content kept
        ∧ Displays ([first, second].flatMap ScenarioRun.publications)
          (Publication.before second.label second.beforeStatus).content fresh
        ∧ kept.after ≠ fresh.after := by
  have watching := displays_watching
    [.setup first.label, .before first.label first.beforeStatus] [.setup second.label]
    [.after second.label second.beforeStatus second.afterStatus]
    (.after first.label first.beforeStatus first.afterStatus)
    (.before second.label second.beforeStatus)
  have skipping := displays_skipping
    [.setup first.label, .before first.label first.beforeStatus,
      .after first.label first.beforeStatus first.afterStatus, .setup second.label]
    [.after second.label second.beforeStatus second.afterStatus]
    (.before second.label second.beforeStatus)
  refine ⟨_, _, watching, skipping, fun same => ?_⟩
  have left (display : DisplayState)
      : (memPoll none (some (Publication.before second.label second.beforeStatus).content)
          display).after = display.after :=
    (Publication.before second.label second.beforeStatus).get_memPoll none display .after
  have status : (Publication.after first.label first.beforeStatus first.afterStatus).status .after
      = some report := carried
  have read := (Publication.after first.label first.beforeStatus first.afterStatus).get_memPoll
    none {} .after
  rw [Publication.shows_of_status status, Option.getD_some] at read
  rw [left, left] at same
  exact readSnapshot_ne report (read.symm.trans same)

theorem skipped_setup_keeps_after
    : ¬∀ (runs : List ScenarioRun) (last : Publication) (first second : DisplayState),
        Displays (runs.flatMap ScenarioRun.publications) last.content first
        → Displays (runs.flatMap ScenarioRun.publications) last.content second
        → SameComparison first second := by
  intro agree
  obtain ⟨kept, fresh, watching, skipping, differ⟩ := skipped_setup
    ⟨Label.ofScenario .b, none, some ⟨0, 0, ⟨false, 0, false⟩, ⟨false, 0, false⟩, true,
      ⟨false, 0, false⟩, 0, 0, true, false, utf8 "none"⟩⟩
    ⟨Label.ofScenario .d, none, none⟩ rfl
  exact differ (agree _ _ kept fresh watching skipping).after

end SafetyIsolation.Status

import SafetyIsolation.Frames.Threads
import SafetyIsolation.Interleaving.Steps
import SafetyIsolation.Status.Schedules

/-! When a frame shows one snapshot. Poller and renderer work on a snapshot field by field and
without a lock around all of it, so a frame can mix two publications. It does not where stores
that change a side and views of it keep apart.
-/

namespace SafetyIsolation.Frames

open SafetyIsolation.Text SafetyIsolation.Monitor SafetyIsolation.Interleaving
open SafetyIsolation.Interleaving.Prog
open SafetyIsolation.Status (Side Publication readSnapshot)

/-- A cleared snapshot, or one that was published for the side. -/
def Whole (published : List Publication) (side : Side) (snapshot : ComparisonSnapshot) : Prop :=
  snapshot = resetSnapshot
  ∨ ∃ publication ∈ published, ∃ report,
      publication.status side = some report ∧ snapshot = readSnapshot report

/-- The snapshot of a side in the shared state. -/
def current (c : MonitorConfig) (side : Side) : ComparisonSnapshot :=
  side.get c.world.state.toDisplayState

/-- What a frame shows of a side. -/
def shown (frame : Frame) : Side → SnapshotView
  | .before => frame.before
  | .after => frame.after

/-- The poller reads contents that were published, and the renderer renders. -/
def reading (published : List Publication)
    : Policy MonitorState MonitorThread MonitorCall Unit DisplayOp where
  calls
    | .poller, .sync content => published.any (fun publication => publication.content = content)
    | .renderer, .render => true
    | _, _ => false
  steps _ _ _ _ _ := true

/-- What a sync of a publication leaves on a side. -/
theorem get_syncScenarioState (publication : Publication) (display : DisplayState) (side : Side)
    : side.get (syncScenarioState publication.content display)
      = (publication.shows side).getD (side.get display) :=
  publication.get_memPoll (some []) display side

/-- A whole sync leaves the side whole. -/
theorem alone_sync {published : List Publication} {side : Side} {content : Bytes}
    {s : MonitorState}
    (member : published.any (fun publication => publication.content = content) = true)
    (whole : Whole published side (side.get s.toDisplayState))
    : Alone (MonitorCall.body (.sync content))
        (fun _ s' => Whole published side (side.get s'.toDisplayState)) s := by
  obtain ⟨publication, isPublished, same⟩ := List.any_eq_true.mp member
  obtain rfl := of_decide_eq_true same
  refine always_bind.mpr ((alone_syncScenarioState _ s).imp ?_)
  intro _ s' unchanged
  obtain ⟨display, _⟩ := unchanged
  show Whole published side (side.get s'.toDisplayState)
  rw [display, get_syncScenarioState, Publication.shows]
  split
  · exact .inl rfl
  · cases carried : publication.status side with
    | none => exact whole
    | some report =>
        rw [Option.map_some, Option.getD_some]
        exact .inr ⟨publication, isPublished, report, carried, rfl⟩

/-- The renderer is between the first and the last load of its view of the side. -/
def Midway (side : Side) (thread : Thread MonitorCall (Option Frame) DisplayOp DisplayOp.Res)
    : Prop :=
  ∃ call field next,
    thread = .running call (.act (.load side field) next) ∧ field ≠ .valVmalloc

def noteTouched (side : Side) (touched : Bool)
    : Label MonitorThread MonitorCall (Option Frame) DisplayOp DisplayOp.Res → Bool
  | .call .poller _ => false
  | .act .poller _ (.store found _) _ => touched || found = side
  | _ => touched

/-- The poller has stored something into the side since its last call began. -/
def touched (side : Side)
    (history : List (Label MonitorThread MonitorCall (Option Frame) DisplayOp DisplayOp.Res))
    : Bool :=
  history.foldl (noteTouched side) false

theorem touched_push (side : Side)
    (history : List (Label MonitorThread MonitorCall (Option Frame) DisplayOp DisplayOp.Res))
    (label : Label MonitorThread MonitorCall (Option Frame) DisplayOp DisplayOp.Res)
    : touched side (history ++ [label]) = noteTouched side (touched side history) label := by
  rw [touched, List.foldl_append]
  rfl

/-- A store that finds its value in the snapshot. -/
def Present (side : Side) (snapshot : ComparisonSnapshot) (op : DisplayOp) : Prop :=
  ∀ written, op = .store side written → written.apply snapshot = snapshot

/-- All that the poller will still store into the side is there already. -/
def Settled (side : Side) (c : MonitorConfig) : Prop :=
  ∀ call rest, c.threads .poller = .running call rest
    → rest.All (Present side (current c side))

/-- A store into a side whose view is under way changes nothing, and a view of a side begins
while the poller has not touched the side or has nothing more to change there.
-/
structure Undisturbed (c : MonitorConfig) (event : MonitorEvent) : Prop where
  stores : ∀ side call written next, event = .step .poller ()
    → c.threads .poller = .running call (.act (.store side written) next)
    → Midway side (c.threads .renderer) → written.apply (current c side) = current c side
  views : ∀ side call next, event = .step .renderer ()
    → c.threads .renderer = .running call (.act (.load side .valVmalloc) next)
    → touched side c.world.history = false ∨ Settled side c

-----------------------------------------------------------------------------------------
-- One view
-----------------------------------------------------------------------------------------

/-- How far the renderer is with its view of a side, and which snapshot it views. -/
inductive Stage where
  | waiting
  | viewing (snapshot : ComparisonSnapshot)
  | viewed (snapshot : ComparisonSnapshot)

/-- The snapshot a load is answered from; a view begins with its first load. -/
def Stage.source (fresh : ComparisonSnapshot) (field : Load) : Stage → Option ComparisonSnapshot
  | .waiting => if field = .valVmalloc then some fresh else none
  | .viewing snapshot => if field = .valVmalloc then none else some snapshot
  | .viewed _ => none

/-- Between the loads of a view the renderer does nothing else. -/
def Stage.outside : Stage → Bool
  | .viewing _ => false
  | _ => true

/-- The renderer's code with all loads of a side answered from one snapshot. -/
def viewExec (side : Side) (choice : ((op : DisplayOp) → op.Res) × ComparisonSnapshot)
    : (op : DisplayOp) → Stage → Outcome op.Res Stage
  | .load found field, stage =>
      if found = side then
        match stage.source choice.2 field with
        | some snapshot =>
            .done (field.look snapshot)
              (if field = .texts then .viewed snapshot else .viewing snapshot)
        | none => .fault
      else if stage.outside then .done (choice.1 (.load found field)) stage
      else .fault
  | .events, stage => if stage.outside then .done (choice.1 .events) stage else .fault
  | .scenario, stage => if stage.outside then .done (choice.1 .scenario) stage else .fault
  | .store _ _, _ => .fault
  | .setScenario _ _, _ => .fault

/-- The code draws the frame of one snapshot, as far as the side goes. -/
def Views (side : Side) (code : Shared (Option Frame)) (stage : Stage) : Prop :=
  code.Always (viewExec side) (fun _ => True)
    (fun value stage => ∃ frame snapshot,
      value = some frame ∧ stage = .viewed snapshot ∧ shown frame side = .of snapshot)
    stage

theorem views_render (side : Side) : Views side (MonitorCall.body .render) .waiting := by
  cases side with
  | before =>
      iterate 16 refine fun _ _ => ⟨_, _, rfl, ?_⟩
      exact ⟨_, _, rfl, rfl, rfl⟩
  | after =>
      iterate 16 refine fun _ _ => ⟨_, _, rfl, ?_⟩
      exact ⟨_, _, rfl, rfl, rfl⟩

/-- What each operation finds. -/
def answer (s : MonitorState) : (op : DisplayOp) → op.Res
  | .store _ _ => ()
  | .setScenario _ _ => ()
  | .load side field => field.look (side.get s.toDisplayState)
  | .events => s.events
  | .scenario => s.scenarioInfo

/-- The snapshot under view is the current one, and what has been viewed is whole. -/
def Stage.Faithful (published : List Publication) (side : Side) (now : ComparisonSnapshot)
    : Stage → Prop
  | .waiting => True
  | .viewing snapshot => snapshot = now ∧ Whole published side snapshot
  | .viewed snapshot => Whole published side snapshot

/-- Inside a view the next operation is one of its later loads. -/
theorem Views.midway {side : Side} {code : Shared (Option Frame)} {snapshot : ComparisonSnapshot}
    (views : Views side code (.viewing snapshot))
    : ∃ field next, code = .act (.load side field) next ∧ field ≠ .valVmalloc := by
  cases code with
  | ret value =>
      obtain ⟨_, _, _, isViewed, _⟩ := views
      cases isViewed
  | act op next =>
      obtain ⟨_, _, executed, _⟩ := views (answer {}, {}) trivial
      cases op with
      | load found field =>
          simp only [viewExec, Stage.source, Stage.outside] at executed
          by_cases isSide : found = side
          · subst isSide
            refine ⟨field, next, rfl, fun isFirst => ?_⟩
            rw [if_pos rfl, if_pos isFirst] at executed
            cases executed
          · rw [if_neg isSide] at executed
            cases executed
      | _ => cases executed

/-- One operation of the renderer, on the actual state. -/
theorem Views.step {published : List Publication} {side : Side} {op : DisplayOp}
    {next : op.Res → Shared (Option Frame)} {stage : Stage} {s s' : MonitorState}
    {result : op.Res} (views : Views side (.act op next) stage)
    (faithful : stage.Faithful published side (side.get s.toDisplayState))
    (begins : op = .load side .valVmalloc → Whole published side (side.get s.toDisplayState))
    (done : displayExec op s = .done result s')
    : s' = s ∧ ∃ later, Views side (next result) later
        ∧ later.Faithful published side (side.get s.toDisplayState) := by
  obtain ⟨_, later, executed, rest⟩ := views (answer s, side.get s.toDisplayState) trivial
  cases op with
  | store _ _ => cases executed
  | setScenario _ _ => cases executed
  | events =>
      cases done
      simp only [viewExec] at executed
      split at executed
      · cases executed
        exact ⟨rfl, stage, rest, faithful⟩
      · cases executed
  | scenario =>
      cases done
      simp only [viewExec] at executed
      split at executed
      · cases executed
        exact ⟨rfl, stage, rest, faithful⟩
      · cases executed
  | load found field =>
      cases done
      refine ⟨rfl, later, ?_⟩
      simp only [viewExec] at executed
      by_cases isSide : found = side
      · subst isSide
        rw [if_pos rfl] at executed
        cases stage with
        | waiting =>
            simp only [Stage.source] at executed
            by_cases isFirst : field = .valVmalloc
            · subst isFirst
              cases executed
              exact ⟨rest, rfl, begins rfl⟩
            · rw [if_neg isFirst] at executed
              cases executed
        | viewing snapshot =>
            obtain ⟨rfl, whole⟩ := faithful
            simp only [Stage.source] at executed
            by_cases isFirst : field = .valVmalloc
            · rw [if_pos isFirst] at executed
              cases executed
            · rw [if_neg isFirst] at executed
              cases executed
              refine ⟨rest, ?_⟩
              split
              · exact whole
              · exact ⟨rfl, whole⟩
        | viewed snapshot => cases executed
      · rw [if_neg isSide] at executed
        split at executed
        · cases executed
          exact ⟨rest, faithful⟩
        · cases executed

/-- The poller ends its sync with a whole side, and has it whole until it touches it. -/
def PollerOk (published : List Publication) (side : Side) (c : MonitorConfig) : Prop :=
  match c.threads .poller with
  | .idle => Whole published side (current c side)
  | .running _ rest =>
      Alone rest (fun _ s => Whole published side (side.get s.toDisplayState)) c.world.state
      ∧ (touched side c.world.history = false → Whole published side (current c side))
  | .dead => False

def RendererOk (published : List Publication) (side : Side) (c : MonitorConfig) : Prop :=
  match c.threads .renderer with
  | .running _ rest =>
      ∃ stage, Views side rest stage ∧ stage.Faithful published side (current c side)
  | _ => True

/-- The frames that have been drawn show whole snapshots. -/
def FramesOk (published : List Publication) (side : Side) (c : MonitorConfig) : Prop :=
  ∀ call frame, .ret .renderer call (some frame) ∈ c.world.history
    → ∃ snapshot, Whole published side snapshot ∧ shown frame side = .of snapshot

structure Coherent (published : List Publication) (side : Side) (c : MonitorConfig) : Prop where
  poller : PollerOk published side c
  renderer : RendererOk published side c
  frames : FramesOk published side c

theorem get_of_present {side : Side} {op : DisplayOp} {s s' : MonitorState} {result : op.Res}
    (present : Present side (side.get s.toDisplayState) op)
    (done : displayExec op s = .done result s')
    : side.get s'.toDisplayState = side.get s.toDisplayState := by
  cases op with
  | store found written =>
      cases done
      by_cases isSide : found = side
      · subst isSide
        have same := present written rfl
        cases found with
        | before => exact same
        | after => exact same
      · cases found <;> cases side <;> first | rfl | exact absurd rfl isSide
  | _ =>
      cases done
      rfl

/-- Code that has nothing more to change ends as the state is, by program induction. -/
theorem whole_of_present {published : List Publication} {side : Side}
    {rest : Shared (Option Frame)} {s : MonitorState}
    (present : rest.All (Present side (side.get s.toDisplayState)))
    (ends : Alone rest (fun _ s' => Whole published side (side.get s'.toDisplayState)) s)
    : Whole published side (side.get s.toDisplayState) := by
  induction rest generalizing s with
  | ret value => exact ends
  | act op next ih =>
      obtain ⟨result, s', done, later⟩ := ends () trivial
      have same := get_of_present present.1 done
      rw [← same]
      exact ih result (same ▸ present.2 result) later

theorem displayExec_ne_fault (op : DisplayOp) (s : MonitorState) : displayExec op s ≠ .fault := by
  cases op <;> exact fun trapped => by cases trapped

/-- An operation that leaves the poller's side untouched stores nothing into it. -/
theorem noteTouched_act {side : Side} {before : Bool} {call : MonitorCall} {op : DisplayOp}
    {result : Option op.Res} (h : noteTouched side before (.act .poller call op result) = false)
    : before = false ∧ ∀ written, op ≠ .store side written := by
  cases op with
  | store found written =>
      simp only [noteTouched, Bool.or_eq_false_iff, decide_eq_false_iff_not] at h
      refine ⟨h.1, fun other same => ?_⟩
      cases same
      exact h.2 rfl
  | _ => exact ⟨h, fun written same => by cases same⟩

section Step

variable {published : List Publication} {side : Side} {c c' : MonitorConfig}
  {event : MonitorEvent}

/-- The poller by itself. -/
theorem PollerOk.step (ok : PollerOk published side c)
    (stepped : monitorThreads.step (reading published) c event = some c')
    (own : event.tid = .poller)
    : PollerOk published side c' := by
  cases Machine.step_taken stepped with
  | @call tid call idle admitted =>
      obtain rfl : tid = .poller := own
      rw [PollerOk, idle] at ok
      rw [PollerOk]
      dsimp only
      rw [Function.update_self]
      cases call with
      | sync content => exact ⟨alone_sync admitted ok, fun _ => ok⟩
      | render => cases admitted
  | @act tid call op next choice result state running _ done =>
      obtain rfl : tid = .poller := own
      rw [PollerOk, running] at ok
      obtain ⟨ends, untouched⟩ := ok
      rw [PollerOk]
      dsimp only
      rw [Function.update_self]
      obtain ⟨_, _, executed, rest⟩ := ends () trivial
      cases executed.symm.trans done
      refine ⟨rest, fun isUntouched => ?_⟩
      rw [World.push_history, touched_push] at isUntouched
      obtain ⟨wasUntouched, noStore⟩ := noteTouched_act isUntouched
      have same := get_of_present (fun written isStore => absurd isStore (noStore written)) done
      rw [current, World.push_state, same]
      exact untouched wasUntouched
  | fault _ _ trapped => exact absurd trapped (displayExec_ne_fault _ _)
  | @ret tid call value running =>
      obtain rfl : tid = .poller := own
      rw [PollerOk, running] at ok
      rw [PollerOk]
      dsimp only
      rw [Function.update_self]
      exact ok.1

/-- The renderer changes nothing that the poller relies on. -/
theorem PollerOk.frame (ok : PollerOk published side c)
    (stepped : monitorThreads.step (reading published) c event = some c')
    (other : event.tid ≠ .poller) (same : c'.world.state = c.world.state)
    : PollerOk published side c' := by
  have history : touched side c'.world.history = touched side c.world.history := by
    cases Machine.step_taken stepped with
    | @call tid call _ _ =>
        cases tid with
        | poller => exact absurd rfl other
        | renderer => exact touched_push _ _ _
    | @act tid call op next choice result state _ _ _ =>
        cases tid with
        | poller => exact absurd rfl other
        | renderer => exact touched_push _ _ _
    | @fault tid call op next choice _ _ _ =>
        cases tid with
        | poller => exact absurd rfl other
        | renderer => exact touched_push _ _ _
    | @ret tid call value _ => exact touched_push _ _ _
  have thread := Machine.step_untouched stepped other.symm
  unfold PollerOk current at *
  rwa [thread, same, history]

/-- The renderer by itself. -/
theorem RendererOk.step (poller : PollerOk published side c) (ok : RendererOk published side c)
    (undisturbed : Undisturbed c event)
    (stepped : monitorThreads.step (reading published) c event = some c')
    (own : event.tid = .renderer)
    : RendererOk published side c' ∧ c'.world.state = c.world.state := by
  cases Machine.step_taken stepped with
  | @call tid call idle admitted =>
      obtain rfl : tid = .renderer := own
      refine ⟨?_, rfl⟩
      rw [RendererOk]
      dsimp only
      rw [Function.update_self]
      cases call with
      | sync content => cases admitted
      | render => exact ⟨.waiting, views_render side, trivial⟩
  | @act tid call op next choice result state running _ done =>
      obtain rfl : tid = .renderer := own
      rw [RendererOk, running] at ok
      obtain ⟨stage, views, faithful⟩ := ok
      have begins : op = .load side .valVmalloc → Whole published side (current c side) := by
        rintro rfl
        unfold PollerOk at poller
        rcases undisturbed.views side call next rfl running with untouched | settled
        · split at poller
          · exact poller
          · exact poller.2 untouched
          · exact poller.elim
        · split at poller
          · exact poller
          · rename_i isRunning
            exact whole_of_present (settled _ _ isRunning) poller.1
          · exact poller.elim
      obtain ⟨rfl, later, continues, stillFaithful⟩ := views.step faithful begins done
      refine ⟨?_, rfl⟩
      rw [RendererOk]
      dsimp only
      rw [Function.update_self]
      exact ⟨later, continues, stillFaithful⟩
  | fault _ _ trapped => exact absurd trapped (displayExec_ne_fault _ _)
  | @ret tid call value running =>
      obtain rfl : tid = .renderer := own
      refine ⟨?_, rfl⟩
      rw [RendererOk]
      dsimp only
      rw [Function.update_self]
      trivial

/-- A view that is under way finds the side unchanged by the poller. -/
theorem RendererOk.frame (ok : RendererOk published side c) (undisturbed : Undisturbed c event)
    (stepped : monitorThreads.step (reading published) c event = some c')
    (own : event.tid = .poller)
    : RendererOk published side c' := by
  have unchanged : Midway side (c.threads .renderer) → current c' side = current c side := by
    intro midway
    cases Machine.step_taken stepped with
    | call _ _ => rfl
    | @act tid call op next choice result state running _ done =>
        obtain rfl : tid = .poller := own
        refine get_of_present (fun written isStore => ?_) done
        subst isStore
        exact undisturbed.stores side call written next rfl running midway
    | fault _ _ _ => rfl
    | ret _ => rfl
  have thread : c'.threads .renderer = c.threads .renderer := by
    refine Machine.step_untouched stepped (fun same => ?_)
    rw [own] at same
    cases same
  unfold RendererOk at ok ⊢
  rw [thread]
  cases running : c.threads .renderer with
  | idle => trivial
  | dead => trivial
  | running call rest =>
      rw [running] at ok unchanged
      obtain ⟨stage, views, faithful⟩ := ok
      refine ⟨stage, views, ?_⟩
      cases stage with
      | waiting => trivial
      | viewing snapshot =>
          obtain ⟨field, next, rfl, later⟩ := views.midway
          exact ⟨faithful.1.trans (unchanged ⟨call, field, next, rfl, later⟩).symm, faithful.2⟩
      | viewed snapshot => exact faithful

/-- A frame is drawn when its views have ended. -/
theorem FramesOk.step (renderer : RendererOk published side c) (ok : FramesOk published side c)
    (stepped : monitorThreads.step (reading published) c event = some c')
    : FramesOk published side c' := by
  intro call frame drawn
  cases Machine.step_taken stepped with
  | call _ _ =>
      rcases List.mem_append.mp drawn with before | isLast
      · exact ok call frame before
      · cases List.mem_singleton.mp isLast
  | act _ _ _ =>
      rcases List.mem_append.mp drawn with before | isLast
      · exact ok call frame before
      · cases List.mem_singleton.mp isLast
  | fault _ _ _ =>
      rcases List.mem_append.mp drawn with before | isLast
      · exact ok call frame before
      · cases List.mem_singleton.mp isLast
  | ret running =>
      rcases List.mem_append.mp drawn with before | isLast
      · exact ok call frame before
      · cases List.mem_singleton.mp isLast
        rw [RendererOk, running] at renderer
        obtain ⟨stage, ⟨_, snapshot, isFrame, rfl, same⟩, whole⟩ := renderer
        cases isFrame
        exact ⟨snapshot, whole, same⟩

theorem Coherent.step (ok : Coherent published side c) (undisturbed : Undisturbed c event)
    (stepped : monitorThreads.step (reading published) c event = some c')
    : Coherent published side c' := by
  cases own : event.tid with
  | poller =>
      exact ⟨ok.poller.step stepped own, ok.renderer.frame undisturbed stepped own,
        ok.frames.step ok.renderer stepped⟩
  | renderer =>
      have other : event.tid ≠ .poller := by
        rw [own]
        exact fun same => by cases same
      obtain ⟨renderer, same⟩ := ok.renderer.step ok.poller undisturbed stepped own
      exact ⟨ok.poller.frame stepped other same, renderer, ok.frames.step ok.renderer stepped⟩

end Step

/-- Where stores and views keep apart, each side of a frame is one published snapshot or a
cleared one.
-/
theorem frames_show_one_snapshot (published : List Publication) {events : List MonitorEvent}
    {c : MonitorConfig}
    (ran : Steps (monitorThreads.step (reading published)) Undisturbed (Config.start {}) events c)
    {frame : Frame} (drawn : .ret .renderer .render (some frame) ∈ c.world.history) (side : Side)
    : ∃ snapshot, Whole published side snapshot ∧ shown frame side = .of snapshot := by
  have initially : Coherent published side (Config.start {}) :=
    ⟨.inl side.get_fresh, trivial, fun _ _ drawn => by cases drawn⟩
  have coherent := ran.invariant (Coherent published side)
    (fun _ _ _ ok undisturbed stepped => ok.step undisturbed stepped) initially
  exact coherent.frames .render frame drawn

-----------------------------------------------------------------------------------------
-- One publication
-----------------------------------------------------------------------------------------

section Runs

variable {published : List Publication}

theorem reading_sync {publication : Publication} (member : publication ∈ published)
    : (reading published).calls .poller (.sync publication.content) = true :=
  List.any_eq_true.mpr ⟨publication, member, decide_eq_true rfl⟩

/-- A sync of the publication by itself. -/
theorem alone_sync_shows {publication : Publication} {side : Side}
    {report : Kernel.StatusReport} (carried : publication.status side = some report)
    (s : MonitorState)
    : Alone (MonitorCall.body (.sync publication.content))
        (fun _ s' => side.get s'.toDisplayState = readSnapshot report) s := by
  refine always_bind.mpr ((alone_syncScenarioState _ s).imp ?_)
  intro _ s' unchanged
  obtain ⟨display, _⟩ := unchanged
  show side.get s'.toDisplayState = readSnapshot report
  rw [display, get_syncScenarioState, Publication.shows_of_status carried, Option.getD_some]

theorem alone_render (s : MonitorState)
    : Alone (MonitorCall.body .render) (fun value _ => value = some (.of s)) s := by
  refine always_bind.mpr ((alone_renderNormal s).imp ?_)
  intro _ _ same
  obtain ⟨rfl, _⟩ := same
  rfl

/-- A view with its first value from an earlier snapshot. -/
def torn (old : UInt32) (snapshot : ComparisonSnapshot) : SnapshotView :=
  { SnapshotView.of snapshot with vmallocValue := old }

/-- The rest of a frame whose first value is an old one. -/
theorem alone_render_rest (old : UInt32) (s : MonitorState)
    : ∃ next,
        MonitorCall.body .render = .act (.load .before .valVmalloc) next
        ∧ Alone (next old) (fun value _ => ∃ frame, value = some frame
            ∧ frame.before = torn old s.before) s := by
  refine ⟨_, rfl, ?_⟩
  iterate 15 refine fun _ _ => ⟨_, _, rfl, ?_⟩
  exact ⟨_, rfl, rfl⟩

/-- A thread that has the monitor to itself is not disturbed. -/
theorem undisturbed_of_idle {c : MonitorConfig} {event : MonitorEvent}
    (idle : ∀ other, other ≠ event.tid → c.threads other = .idle)
    : Undisturbed c event where
  stores side call written next isStep _ midway := by
    subst isStep
    rw [idle .renderer (fun same => by cases same)] at midway
    obtain ⟨_, _, _, running, _⟩ := midway
    cases running
  views side call next isStep _ := by
    subst isStep
    refine .inr (fun call rest running => ?_)
    rw [idle .poller (fun same => by cases same)] at running
    cases running

/-- A sync and a frame after it. -/
theorem exists_frame_after_sync {publication : Publication} {report : Kernel.StatusReport}
    (member : publication ∈ published) (carried : publication.status .before = some report)
    : ∃ events c frame,
        Steps (monitorThreads.step (reading published)) Undisturbed (Config.start {}) events c
        ∧ .ret .renderer .render (some frame) ∈ c.world.history
        ∧ frame.before = .of (readSnapshot report) := by
  obtain ⟨first, c, synced, ended⟩ := Steps.call (m := monitorThreads) (c := Config.start {}) ()
    rfl (reading_sync member) (alone_sync_shows carried {}) (fun _ _ => rfl)
    (fun c' event own same => undisturbed_of_idle (fun other different =>
      same other (own ▸ different)))
  obtain ⟨_, _, current⟩ := ended.returned
  have resting : ∀ thread, c.threads thread = .idle := by
    intro thread
    cases thread with
    | poller => exact ended.idle
    | renderer => exact ended.others .renderer (fun same => by cases same)
  have permitted : (reading published).calls .renderer .render = true := rfl
  obtain ⟨second, c', rendered, drawn⟩ := Steps.call (m := monitorThreads) ()
    (resting .renderer) permitted (alone_render c.world.state) (fun _ _ => rfl)
    (fun c' event own same => undisturbed_of_idle (fun other different =>
      (same other (own ▸ different)).trans (resting other)))
  obtain ⟨_, returned, rfl⟩ := drawn.returned
  exact ⟨_, c', _, synced.append rendered, returned, congrArg SnapshotView.of current⟩

/-- A frame that has its first value from before a sync and the others from after it. -/
theorem exists_frame_across_sync {publication : Publication} {report : Kernel.StatusReport}
    (member : publication ∈ published) (carried : publication.status .before = some report)
    : ∃ events c frame,
        Steps (monitorThreads.step (reading published)) (fun _ _ => True) (Config.start {}) events c
        ∧ .ret .renderer .render (some frame) ∈ c.world.history
        ∧ frame.before = torn 0 (readSnapshot report) := by
  have begins : ∃ c, Steps (monitorThreads.step (reading published)) (fun _ _ => True)
        (Config.start {}) [.call .renderer .render, .step .renderer ()] c
      ∧ c.threads .poller = .idle
      ∧ ∃ next, MonitorCall.body .render = .act (.load .before .valVmalloc) next
        ∧ c.threads .renderer = .running .render (next 0) :=
    ⟨_, .cons trivial rfl (.cons trivial rfl (.nil _)), rfl, _, rfl, rfl⟩
  obtain ⟨c, began, idle, next, isNext, paused⟩ := begins
  obtain ⟨first, c', synced, ended⟩ := Steps.call (m := monitorThreads) () idle
    (reading_sync member) (alone_sync_shows carried c.world.state) (fun _ _ => rfl)
    (fun _ _ _ _ => trivial)
  obtain ⟨_, _, current⟩ := ended.returned
  obtain ⟨_, isSame, ends⟩ := alone_render_rest 0 c'.world.state
  cases isNext.symm.trans isSame
  have resumes := ended.others .renderer (fun same => by cases same)
  obtain ⟨second, c'', rendered, drawn⟩ := Steps.finish (m := monitorThreads)
    (p := reading published) () (resumes.trans paused) ends (fun _ _ => rfl)
    (fun _ _ _ _ => trivial)
  obtain ⟨_, returned, frame, rfl, isTorn⟩ := drawn.returned
  refine ⟨_, c'', frame, (began.append synced).append rendered, returned, isTorn.trans ?_⟩
  exact congrArg (torn 0) current

end Runs

theorem readSnapshot_status (report : Kernel.StatusReport)
    : (readSnapshot report).status = Kernel.statusText report.protectedState := by
  have value := Status.get_snapshotLines report {} .status
  rw [if_pos rfl] at value
  exact Status.Value.text.inj value

theorem readSnapshot_valVmalloc (report : Kernel.StatusReport)
    (named : Status.forgedLines report.ownerBuf = [])
    : (readSnapshot report).valVmalloc = report.valVmalloc := by
  have value := Status.get_snapshotLines report {} .valVmalloc
  rw [if_neg (fun same => by cases same), named] at value
  exact Status.Value.word.inj value

theorem torn_fields {one other : ComparisonSnapshot}
    (same : torn 0 one = .of other)
    : one.status = other.status ∧ other.valVmalloc = 0 :=
  ⟨congrArg SnapshotView.status same, (congrArg SnapshotView.vmallocValue same).symm⟩

/-- A published snapshot with one value of the cleared one is neither of the two. -/
theorem torn_ne_whole {publication : Publication} {report : Kernel.StatusReport}
    (carried : publication.status .before = some report)
    (named : Status.forgedLines report.ownerBuf = []) (written : report.valVmalloc ≠ 0)
    {snapshot : ComparisonSnapshot} (whole : Whole [publication] .before snapshot)
    : torn 0 (readSnapshot report) ≠ .of snapshot := by
  intro same
  obtain ⟨status, zero⟩ := torn_fields same
  rcases whole with isCleared | ⟨found, member, other, carriedToo, isRead⟩
  · have distinct : ∀ flag, Kernel.statusText flag ≠ resetSnapshot.status := by decide
    rw [isCleared, readSnapshot_status] at status
    exact distinct _ status
  · obtain rfl := List.mem_singleton.mp member
    obtain rfl := Option.some.inj (carried.symm.trans carriedToo)
    rw [isRead] at zero
    exact written ((readSnapshot_valVmalloc report named).symm.trans zero)

/-- The status of the untouched region before an attack. -/
def untouched : Kernel.StatusReport where
  virtAddr := 0xFFFF800080000000
  physAddr := 0x48000000
  initialMapping := ⟨false, 0x0068000048000783, true⟩
  currentMapping := ⟨false, 0x0068000048000783, true⟩
  currentIsValid := true
  vmallocMapping := ⟨false, 0x0060000048000783, false⟩
  valVmalloc := 0x5AFE1234
  valPhys := 0x5AFE1234
  protectedState := true
  smmuState := false
  ownerBuf := utf8 "none"

def beforeAction : Publication := .before (Status.Label.ofScenario .b) (some untouched)

theorem frames_show_one_snapshot_after_sync
    : ∃ events c frame,
        Steps (monitorThreads.step (reading [beforeAction])) Undisturbed (Config.start {}) events c
        ∧ .ret .renderer .render (some frame) ∈ c.world.history
        ∧ frame.before = .of (readSnapshot untouched)
        ∧ ∀ side, ∃ snapshot, Whole [beforeAction] side snapshot
            ∧ shown frame side = .of snapshot := by
  obtain ⟨events, c, frame, ran, drawn, same⟩ :=
    exists_frame_after_sync (List.mem_singleton_self beforeAction) rfl
  exact ⟨events, c, frame, ran, drawn, same,
    frames_show_one_snapshot [beforeAction] ran drawn⟩

/-- With one publication, a frame that began before the poll and ended after it shows neither
the cleared snapshot nor the published one.
-/
theorem frame_shows_two_snapshots
    : ∃ events c frame,
        monitorThreads.run (reading [beforeAction]) (Config.start {}) events = some c
        ∧ .ret .renderer .render (some frame) ∈ c.world.history
        ∧ ∀ snapshot, Whole [beforeAction] .before snapshot → shown frame .before ≠ .of snapshot := by
  obtain ⟨events, c, frame, ran, drawn, isTorn⟩ :=
    exists_frame_across_sync (List.mem_singleton_self beforeAction) rfl
  refine ⟨events, c, frame, ran.run, drawn, fun snapshot whole same => ?_⟩
  exact torn_ne_whole rfl (by decide) (by decide) whole (isTorn.symm.trans same)

end SafetyIsolation.Frames

import Mathlib.Algebra.BigOperators.Group.Finset.Basic
import Mathlib.Algebra.Order.Group.Multiset
import SafetyIsolation.Modules.Registry
import SafetyIsolation.Modules.ScenarioRules

/-! The whole process, for every argument vector and every moment at which a signal may
arrive. Every `insmod` that took effect is answered by one `rmmod`, from teardown, from the
signal cleanup or from a destructor, and no scenario starts once a signal is recorded.
-/

namespace SafetyIsolation.Modules

open SafetyIsolation.Interleaving SafetyIsolation.Interleaving.Prog SafetyIsolation.Harness

/-- A successful `insmod` is owed one `rmmod`; an `rmmod` nobody is owed breaks the ledger. -/
def answer (owed : Option (Multiset String)) : Event → Option (Multiset String)
  | .insmod path _ code => if code = 0 then owed.map (path.stem ::ₘ ·) else owed
  | .rmmod name _ =>
      owed.bind (fun names => if name ∈ names then some (names.erase name) else none)
  | .signal _ => owed
  | .entered _ => owed
  | .started _ => owed
  | .published _ => owed

/-- The successful `insmod` commands that no `rmmod` has answered yet. -/
def outstanding (events : List Event) : Option (Multiset String) :=
  events.foldl answer (some 0)

theorem outstanding_record {s : Sys} {event : Event}
    : outstanding (s.record event).events = answer (outstanding s.events) event := by
  simp only [outstanding, Sys.record, List.foldl_append, List.foldl_cons, List.foldl_nil]

/-- What these loaders track, with multiplicity. -/
def held (mine : Finset LoaderId) (heap : Heap) : Multiset String :=
  ∑ id ∈ mine, (heap.names id : Multiset String)

section Held

variable {mine : Finset LoaderId} {heap heap' : Heap} {id : LoaderId} {name : String}

/-- Only one list differs. -/
theorem held_eq_add (heap : Heap) (member : id ∈ mine)
    (others : ∀ k, k ≠ id → heap'.names k = heap.names k)
    : held mine heap'
      = (heap'.names id : Multiset String)
        + ∑ k ∈ mine.erase id, (heap.names k : Multiset String) := by
  rw [held, ← Finset.add_sum_erase mine _ member]
  congr 1
  refine Finset.sum_congr rfl (fun k inside => ?_)
  rw [others k (Finset.ne_of_mem_erase inside)]

theorem held_track (member : id ∈ mine) (live : (heap.modules id).isSome) {path : Path}
    : held mine (track heap id ⟨name, path⟩) = name ::ₘ held mine heap := by
  rw [held_eq_add heap member (fun k distinct => track_names_of_ne distinct),
    held_eq_add heap member (fun _ _ => rfl), track_names_self live,
    ← Multiset.cons_add]
  congr 1
  exact Multiset.coe_eq_coe.mpr (List.perm_append_singleton name _)

theorem held_forget (member : id ∈ mine) (forgets : Forgets heap heap' id name)
    : held mine heap = name ::ₘ held mine heap' := by
  obtain ⟨front, back, before, after⟩ := forgets.split
  rw [held_eq_add heap member forgets.others, held_eq_add heap member (fun _ _ => rfl),
    before, after, ← Multiset.cons_add]
  congr 1
  exact Multiset.coe_eq_coe.mpr List.perm_middle

theorem held_eq_zero (empty : ∀ id ∈ mine, heap.names id = []) : held mine heap = 0 := by
  refine Finset.sum_eq_zero (fun id member => ?_)
  rw [empty id member]
  rfl

end Held

-----------------------------------------------------------------------------------------
-- Starting scenarios
-----------------------------------------------------------------------------------------

/-- A run that gets past its first check for signals was entered before any signal. -/
def Prompt (earlier : List Event) (event : Event) : Prop :=
  ∀ id, event = .started id → ∀ before entered between,
    earlier = before ++ .entered entered :: between → ∀ signal, .signal signal ∉ before

theorem prompt_of_ne {earlier : List Event} {event : Event} (other : ∀ id, event ≠ .started id)
    : Prompt earlier event :=
  fun id same => absurd same (other id)

/-- What holds of the record at any time. -/
structure Ledger (mine : Finset LoaderId) (heap : Heap) (s : Sys) : Prop where
  live : ∀ id, id ∈ mine ↔ (heap.modules id).isSome
  registered : Registered heap
  owed : outstanding s.events = some (held mine heap)
  prompt : Throughout Prompt s.events

namespace Ledger

variable {mine : Finset LoaderId} {heap heap' : Heap} {s : Sys} {id : LoaderId}

/-- An event that is no command, where it may stand. -/
theorem record (h : Ledger mine heap s) {event : Event} (prompt : Prompt s.events event)
    (ignored : ∀ owed, answer owed event = owed)
    : Ledger mine heap (s.record event) := by
  refine ⟨h.live, h.registered, ?_, h.prompt.push prompt⟩
  rw [outstanding_record, ignored, h.owed]

theorem undisturbed : Undisturbed (Ledger mine) := by
  intro heap s signal h
  cases signal with
  | none => exact h
  | some signal =>
      exact record (s := { s with signalReceived := signal.number }) ⟨h.live, h.registered,
        h.owed, h.prompt⟩ (prompt_of_ne (by simp)) (fun _ => rfl)

theorem insmod (h : Ledger mine heap s) (member : id ∈ mine) {name : String} {path : Path}
    (named : path.stem = name) {params : String} {loaded : Finset String}
    : Ledger mine (track heap id ⟨name, path⟩)
        ({ s with loaded := loaded }.record (.insmod path params 0)) := by
  have live : (heap.modules id).isSome := (h.live id).mp member
  refine ⟨fun k => (h.live k).trans (modify_isSome ▸ Iff.rfl), h.registered.track live, ?_,
    h.prompt.push (prompt_of_ne (by simp))⟩
  have owed : outstanding { s with loaded := loaded }.events = some (held mine heap) := h.owed
  rw [outstanding_record, owed, held_track member live]
  simp only [answer, if_pos, Option.map_some, named]

/-- A turn of `unload_all` answers one `insmod`, whether or not the `rmmod` succeeds. -/
theorem popped (h : Ledger mine heap s) (member : id ∈ mine) {front : List LoadedModule}
    {last : LoadedModule} (tracked : heap.tracked id = front ++ [last])
    {needs : String → List String} {code : Int}
    : Ledger mine (heap.modify id List.dropLast) (s.remove needs last.name code).2 := by
  have answered : ∀ loaded code,
      Ledger mine (heap.modify id List.dropLast)
        ({ s with loaded := loaded }.record (.rmmod last.name code)) := by
    intro loaded code
    refine ⟨fun k => (h.live k).trans (modify_isSome ▸ Iff.rfl), h.registered.shrink rfl, ?_,
      h.prompt.push (prompt_of_ne (by simp))⟩
    have owed : outstanding { s with loaded := loaded }.events = some (held mine heap) := h.owed
    rw [outstanding_record, owed, held_forget member (forgets_dropLast tracked)]
    simp only [answer, Option.bind_some, Multiset.mem_cons_self, if_true,
      Multiset.erase_cons_head]
  rcases remove_cases last.name code with ⟨_, _, _, done⟩ | ⟨failure, _, _, refused⟩
  · rw [done]
    exact answered _ _
  · rw [refused]
    exact answered _ _

theorem robust (needs : String → List String) (member : id ∈ mine)
    : Robust needs (Ledger mine) id where
  undisturbed := undisturbed
  published := fun _ _ _ h => h.record (prompt_of_ne (by simp)) (fun _ => rfl)
  inserted := by
    intro heap s path params code h _
    rcases insert_cases path params code with ⟨_, _, _, done⟩ | ⟨_, failed, refused⟩
    · rw [done, if_pos rfl]
      exact h.insmod member rfl
    · rw [refused, if_neg failed]
      exact h.record (prompt_of_ne (by simp)) (fun _ => by simp only [answer, if_neg failed])

variable {needs : String → List String} {admits : Choice → Prop}

/-- `unload_all` answers for each module of its loader. -/
theorem unloadAll (member : id ∈ mine) (h : Ledger mine heap s)
    : Ensures (exec needs) admits (ModuleLoader.unloadAll id)
        (fun _ heap' s' => heap' = heap.modify id (fun _ => []) ∧ Ledger mine heap' s') heap s := by
  refine unloadAll_ensures (Ledger mine) ?_ h
  intro heap s choice front last _ h tracked
  exact ⟨_, _, exec_rmmod choice last.name,
    (undisturbed heap s choice.signal h).popped member tracked⟩

/-- The walk over a list of loaders leaves modules only with the others, by induction over
the list.
-/
theorem unloadActive {order : List LoaderId} (members : ∀ id ∈ order, id ∈ mine)
    (h : Ledger mine heap s)
    : Ensures (exec needs) admits (ModuleLoader.unloadActive order)
        (fun _ heap' s' =>
          Ledger mine heap' s'
          ∧ ∀ id, heap'.names id ≠ [] → heap.names id ≠ [] ∧ id ∉ order) heap s := by
  induction order generalizing heap s with
  | nil => exact ⟨h, fun id owns => ⟨owns, List.not_mem_nil⟩⟩
  | cons first rest ih =>
      simp only [ModuleLoader.unloadActive, ensures_bind]
      refine (h.unloadAll (members first List.mem_cons_self)).imp ?_
      intro _ heap' s' cleared
      obtain ⟨rfl, h⟩ := cleared
      refine (ih (fun id member => members id (List.mem_cons_of_mem _ member)) h).imp ?_
      intro _ heap'' s'' walked
      refine ⟨walked.1, fun id owns => ?_⟩
      obtain ⟨owned, unreached⟩ := walked.2 id owns
      have distinct : id ≠ first := by
        intro same
        rw [same, cleared_names_self] at owned
        exact owned rfl
      rw [modify_names_of_ne distinct] at owned
      exact ⟨owned, fun member => (List.mem_cons.mp member).elim distinct unreached⟩

/-- Once nothing is tracked, every `insmod` has its answer. -/
theorem settled (h : Ledger mine heap s) (empty : ∀ id ∈ mine, heap.names id = [])
    : outstanding s.events = some 0 := by
  rw [h.owed, held_eq_zero empty]

theorem start {loaded : Finset String} : Ledger ∅ Heap.empty ⟨0, loaded, []⟩ := by
  refine ⟨fun id => ?_, ⟨fun _ owns => absurd rfl owns, fun _ member => ?_⟩, rfl, .nil _⟩
  · simp only [Finset.notMem_empty, Heap.empty, Option.isSome_none, Bool.false_eq_true]
  · cases member

theorem construct (h : Ledger mine heap s) (absent : id ∉ mine)
    : Ledger (insert id mine) (place heap id (some [])) s := by
  have none : heap.modules id = none := by
    rw [← Option.not_isSome_iff_eq_none, ← h.live]
    exact absent
  have empty : heap.names id = [] := by
    rw [Heap.names, Heap.tracked, none, Option.getD_none, List.map_nil]
  have registered := h.registered.place id [] [] (by simp) (by simp)
  rw [List.append_nil] at registered
  refine ⟨fun k => ?_, registered, ?_, h.prompt⟩
  · by_cases same : k = id
    · subst same
      simp only [Finset.mem_insert_self, place, Function.update_self, Option.isSome_some]
    · rw [Finset.mem_insert, or_iff_right same, h.live]
      simp only [place, Function.update_of_ne same]
  · have same : ∀ k, (place heap id (some [])).names k = heap.names k :=
      fun k => place_names_of_empty empty rfl
    rw [h.owed, held, held, Finset.sum_insert absent]
    simp only [same, empty, Multiset.coe_nil, zero_add]

theorem destroy (h : Ledger mine heap s) (empty : heap.names id = [])
    : Ledger (mine.erase id) (destroyed heap id) s := by
  refine ⟨fun k => ?_, h.registered.destroyed, ?_, h.prompt⟩
  · by_cases same : k = id
    · subst same
      simp only [Finset.notMem_erase, destroyed, place, Function.update_self,
        Option.isSome_none, Bool.false_eq_true]
    · rw [Finset.mem_erase, and_iff_right same, h.live]
      simp only [destroyed, place, Function.update_of_ne same]
  · have nothing : (heap.names id : Multiset String) = 0 := by
      rw [empty]
      rfl
    rw [h.owed, held, held]
    simp only [destroyed_names empty]
    rw [Finset.sum_erase mine nothing]

end Ledger

-----------------------------------------------------------------------------------------
-- The process
-----------------------------------------------------------------------------------------

/-- Until the cleanup takes it, a recorded signal stays pending. -/
def Received (s : Sys) : Prop := ∀ signal, .signal signal ∈ s.events → s.signalReceived ≠ 0

theorem Received.record {s s' : Sys} (h : Received s) {event : Event}
    (recorded : s'.events = s.events ++ [event]) (same : s'.signalReceived = s.signalReceived)
    (other : ∀ signal, event ≠ .signal signal)
    : Received s' := by
  intro signal member
  rw [recorded] at member
  rcases List.mem_append.mp member with earlier | last
  · exact same ▸ h signal earlier
  · exact absurd (List.mem_singleton.mp last).symm (other signal)

theorem Received.delivered {s : Sys} (h : Received s) (signal : Option Signal)
    : Received (s.deliver signal) := by
  intro found member
  cases signal with
  | none => exact h found member
  | some signal =>
      cases signal with
      | sigint => exact (by decide : Signal.sigint.number ≠ 0)
      | sigterm => exact (by decide : Signal.sigterm.number ≠ 0)

/-- What holds while scenarios run. -/
def Running (mine : Finset LoaderId) (heap : Heap) (s : Sys) : Prop :=
  Ledger mine heap s ∧ Received s

variable {mine : Finset LoaderId} {heap : Heap} {s : Sys} {id : LoaderId}
  {needs : String → List String} {admits : Choice → Prop}

theorem running_robust (needs : String → List String) (member : id ∈ mine)
    : Robust needs (Running mine) id where
  undisturbed := fun heap s signal h =>
    ⟨Ledger.undisturbed heap s signal h.1, h.2.delivered signal⟩
  published := fun heap s content h =>
    ⟨(Ledger.robust needs member).published heap s content h.1,
      h.2.record rfl rfl (by simp)⟩
  inserted := by
    intro heap s path params code h fresh
    refine ⟨(Ledger.robust needs member).inserted heap s path params code h.1 fresh, ?_⟩
    rcases insert_cases path params code with ⟨_, _, _, done⟩ | ⟨_, _, refused⟩
    · rw [done]
      exact h.2.record rfl rfl (by simp)
    · rw [refused]
      exact h.2.record rfl rfl (by simp)

theorem running_unloadAll (member : id ∈ mine)
    : Keeps (exec needs) admits (Running mine) (ModuleLoader.unloadAll id) := by
  intro heap s h
  refine (unloadAll_ensures (Running mine) ?_ h).imp (fun _ _ _ cleared => cleared.2)
  intro heap s choice front last _ h tracked
  have h := (running_robust needs member).undisturbed heap s choice.signal h
  refine ⟨_, _, exec_rmmod choice last.name, h.1.popped member tracked, ?_⟩
  rcases remove_cases last.name choice.rmmodCode with ⟨_, _, _, done⟩ | ⟨_, _, _, refused⟩
  · rw [done]
    exact h.2.record rfl rfl (by simp)
  · rw [refused]
    exact h.2.record rfl rfl (by simp)

/-- With no signal recorded a scenario may start, even if one arrives right then. -/
theorem prompt_started (none : ∀ signal, .signal signal ∉ s.events) (signal : Option Signal)
    (id : String)
    : Prompt (s.deliver signal).events (.started id) := by
  intro _ _ before entered between split found member
  have inside : before ++ [.entered entered] <+: (s.deliver signal).events :=
    ⟨between, by rw [split, List.append_assoc, List.singleton_append]⟩
  have earlier : before ++ [.entered entered] <+: s.events := by
    cases signal with
    | none => exact inside
    | some signal =>
        refine (List.prefix_concat_iff.mp inside).resolve_left (fun whole => ?_)
        cases (List.append_inj' whole rfl).2
  exact none found (earlier.subset (List.mem_append_left _ member))

/-- How a process may end: every successful `insmod` has been answered by exactly one
`rmmod`, and every run that got past its first check was entered before any signal.
-/
def Answered (s : Sys) : Prop := outstanding s.events = some 0 ∧ Throughout Prompt s.events

/-- A run either ends the process with everything answered or goes through. -/
theorem run_ensures (scenario : ScenarioId) (member : id ∈ mine) (text : String)
    (h : Running mine heap s)
    : Ensures (exec needs) admits (ScenarioRunner.run scenario.scenario id text)
        (fun out heap s => match out with
          | .error _ => Answered s
          | .ok _ => Running mine heap s) heap s := by
  have robust : Robust needs (Running mine) id := running_robust needs member
  simp only [ScenarioRunner.run, ensures_bind, sys, ensures_perform]
  intro choice _
  refine ⟨(), _, rfl, ?_⟩
  have h := robust.undisturbed heap s choice.signal h
  have h : Running mine heap ((s.deliver choice.signal).record (.entered text)) :=
    ⟨h.1.record (prompt_of_ne (by simp)) (fun _ => rfl), h.2.record rfl rfl (by simp)⟩
  refine cleanupOnSignal_ensures (Running mine heap) (robust.undisturbed heap) h ?_ ?_
  · intro s h none
    have unsignaled : ∀ signal, .signal signal ∉ s.events :=
      fun signal member => h.2 signal member none
    simp only [ensures_bind, ensures_perform]
    intro choice _
    refine ⟨(), _, rfl, ?_⟩
    have delivered := robust.undisturbed heap s choice.signal h
    have started : Running mine heap ((s.deliver choice.signal).record (.started text)) :=
      ⟨delivered.1.record (prompt_started unsignaled choice.signal text) (fun _ => rfl),
        delivered.2.record rfl rfl (by simp)⟩
    exact robust.lifecycle (running_unloadAll member) scenario text heap _ started
  · intro s code h
    have ledger : Ledger mine heap { s with signalReceived := 0 } :=
      ⟨h.1.live, h.1.registered, h.1.owed, h.1.prompt⟩
    have members : ∀ id ∈ heap.activeLoaders, id ∈ mine :=
      fun id registered => (h.1.live id).mpr (h.1.registered.live id registered)
    refine (ledger.unloadActive members).imp ?_
    intro _ heap' s' walked
    refine ⟨walked.1.settled (fun id _ => ?_), walked.1.prompt⟩
    by_contra owns
    obtain ⟨owned, unreached⟩ := walked.2 id owns
    refine unreached (h.1.registered.owners id (fun none => owned ?_))
    rw [Heap.names, none, List.map_nil]

/-- The sequence of scenarios, by induction over the plan. -/
theorem runEach_ensures {plan : List ScenarioId} (members : ∀ id : ScenarioId, id.loader ∈ mine)
    (h : Running mine heap s)
    : Ensures (exec needs) admits (runEach plan)
        (fun out heap s => match out with
          | .error _ => Answered s
          | .ok _ => Running mine heap s) heap s := by
  induction plan generalizing heap s with
  | nil => exact h
  | cons scenario rest ih =>
      simp only [runEach, ensures_bind]
      refine (run_ensures scenario (members scenario) scenario.text h).imp ?_
      intro out heap s finished
      cases out with
      | error code => exact finished
      | ok result => exact ih finished

/-- The constructors, by induction over the objects. -/
theorem constructEach_ensures {list : List ScenarioId} (distinct : (list.map (·.loader)).Nodup)
    (absent : ∀ id ∈ list, id.loader ∉ mine) (h : Running mine heap s)
    : Ensures (exec needs) admits (constructEach list)
        (fun _ heap s => Running (mine ∪ (list.map (·.loader)).toFinset) heap s) heap s := by
  induction list generalizing mine heap with
  | nil => simpa [constructEach] using h
  | cons scenario rest ih =>
      obtain ⟨unique, distinct⟩ := List.nodup_cons.mp distinct
      simp only [constructEach, ModuleLoader.construct, ensures_bind, ensures_modify]
      have constructed : Running (insert scenario.loader mine)
          (place heap scenario.loader (some [])) s :=
        ⟨h.1.construct (absent scenario List.mem_cons_self), h.2⟩
      refine (ih distinct (fun id member => ?_) constructed).imp ?_
      · intro inside
        rcases Finset.mem_insert.mp inside with same | inside
        · exact unique (List.mem_map.mpr ⟨id, member, same⟩)
        · exact absent id (List.mem_cons_of_mem _ member) inside
      · intro _ heap' s' h
        simpa only [List.map_cons, List.toFinset_cons, Finset.insert_union,
          Finset.union_insert] using h

/-- The destructors answer for whatever a failed setup has left behind, by induction over
the objects.
-/
theorem destroyEach_ensures {list : List ScenarioId} (distinct : (list.map (·.loader)).Nodup)
    (exactly : mine = (list.map (·.loader)).toFinset) (h : Ledger mine heap s)
    : Ensures (exec needs) admits (destroyEach list) (fun _ heap s => Ledger ∅ heap s) heap s := by
  induction list generalizing mine heap s with
  | nil =>
      subst exactly
      exact h
  | cons scenario rest ih =>
      obtain ⟨unique, distinct⟩ := List.nodup_cons.mp distinct
      have member : scenario.loader ∈ mine := by
        rw [exactly]
        exact List.mem_toFinset.mpr List.mem_cons_self
      simp only [destroyEach, ensures_bind]
      refine destroy_ensures ((h.unloadAll member).imp ?_)
      intro _ heap' s' cleared
      obtain ⟨rfl, h⟩ := cleared
      refine ih distinct ?_ (h.destroy cleared_names_self)
      rw [exactly, List.map_cons, List.toFinset_cons, Finset.erase_insert]
      exact fun inside => unique (List.mem_toFinset.mp inside)

/-- For every argument vector, every outcome of the commands and every moment of a signal,
the process ends with each successful `insmod` answered by exactly one `rmmod`, and no
scenario has started after a signal.
-/
theorem main_answers_every_insmod (needs : String → List String) (args : List String)
    (loaded : Finset String) (choices : List Choice)
    : ∃ out heap s,
        ((main args).run Heap.empty).runAlone (exec needs) choices ⟨0, loaded, []⟩
          = .done (out, heap) s
        ∧ Answered s := by
  have verified : Ensures (exec needs) (fun _ => True) (main args) (fun _ _ s => Answered s)
      Heap.empty ⟨0, loaded, []⟩ := by
    simp only [main]
    split
    · exact ⟨rfl, .nil _⟩
    · simp only [ensures_bind]
      have initially : Running ∅ Heap.empty ⟨0, loaded, []⟩ := ⟨Ledger.start, by simp [Received]⟩
      refine (constructEach_ensures (by decide) (by simp) initially).imp ?_
      intro _ heap s h
      refine (runEach_ensures ?_ h).imp ?_
      · intro id
        cases id <;> decide
      · intro out heap s finished
        cases out with
        | error code => exact finished
        | ok _ =>
            simp only [ensures_bind]
            refine (destroyEach_ensures (by decide) (by decide) finished.1).imp ?_
            intro _ heap s h
            exact ⟨h.settled (fun id member => absurd member (Finset.notMem_empty id)), h.prompt⟩
  obtain ⟨out, heap, s, ran, answered⟩ := verified.run (fun _ _ => trivial) trivial
  exact ⟨out, heap, s, ran, answered⟩

end SafetyIsolation.Modules

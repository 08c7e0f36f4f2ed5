import SafetyIsolation.Dependencies.Order
import SafetyIsolation.Modules.Ownership

/-! Unloading in reverse order of loading. The kernel keeps its module list closed under
dependencies, so each loader's list stays in an order in which the last module is needed by
none of the others.
-/

namespace SafetyIsolation.Modules

open SafetyIsolation.Dependencies SafetyIsolation.Interleaving SafetyIsolation.Interleaving.Prog
open SafetyIsolation.Harness

/-- Over the modules of `base`, the kernel has exactly those of these loaders, and each
loader has its own in an order that allows unloading from the back.
-/
structure Stacked (needs : String → List String) (base : Finset String) (mine : Set LoaderId)
    (heap : Heap) (s : Sys)
    : Prop where
  closed : Closed needs s.loaded
  owned : Owned mine heap
  ordered : ∀ id ∈ mine, Ordered needs (heap.names id)
  loaded : ∀ name, name ∈ s.loaded ↔ name ∈ base ∨ Tracked mine heap name
  fresh : ∀ name, Tracked mine heap name → name ∉ base

namespace Stacked

variable {needs : String → List String} {base : Finset String} {mine : Set LoaderId}
  {heap heap' : Heap} {s s' : Sys} {id : LoaderId} {name : String}

/-- Only the loaded set matters. -/
theorem same_loaded (h : Stacked needs base mine heap s) (same : s'.loaded = s.loaded)
    : Stacked needs base mine heap s' :=
  ⟨same ▸ h.closed, h.owned, h.ordered, same ▸ h.loaded, h.fresh⟩

theorem undisturbed : Undisturbed (Stacked needs base mine) := by
  intro heap s signal h
  cases signal with
  | none => exact h
  | some signal => exact h.same_loaded rfl

theorem insmod (h : Stacked needs base mine heap s) (member : id ∈ mine)
    (live : (heap.modules id).isSome) {path : Path} (absent : name ∉ s.loaded)
    (supplied : ∀ need ∈ needs name, need ∈ s.loaded)
    (inserted : s'.loaded = insert name s.loaded)
    : Stacked needs base mine (track heap id ⟨name, path⟩) s' := by
  have untracked : ¬ Tracked mine heap name :=
    fun tracked => absent ((h.loaded name).mpr (Or.inr tracked))
  refine ⟨?_, h.owned.track member live untracked, fun other inside => ?_, fun found => ?_,
    fun found tracked => ?_⟩
  · rw [inserted]
    exact h.closed.insert supplied
  · by_cases same : other = id
    · subst same
      rw [track_names_self live]
      refine (h.ordered other inside).push h.closed (fun found listed => ?_) absent supplied
      exact (h.loaded found).mpr (Or.inr ⟨other, inside, listed⟩)
    · rw [track_names_of_ne same]
      exact h.ordered other inside
  · rw [inserted, Finset.mem_insert, tracked_track member live, h.loaded, or_left_comm]
  · rcases (tracked_track member live).mp tracked with new | tracked
    · exact fun initial => absent ((h.loaded name).mpr (Or.inl (new ▸ initial)))
    · exact h.fresh found tracked

theorem rmmod (h : Stacked needs base mine heap s) (member : id ∈ mine)
    (unneeded : Unneeded needs s.loaded name) (forgets : Forgets heap heap' id name)
    (removed : s'.loaded = s.loaded.erase name)
    : Stacked needs base mine heap' s' := by
  have tracked_iff : ∀ found, Tracked mine heap' found ↔ found ≠ name ∧ Tracked mine heap found :=
    fun found => h.owned.tracked_forget member forgets
  refine ⟨?_, h.owned.forget forgets,
    fun other inside => (h.ordered other inside).sublist (forgets.sublist other),
    fun found => ?_, fun found tracked => h.fresh found ((tracked_iff found).mp tracked).2⟩
  · rw [removed]
    exact h.closed.erase unneeded
  · have foreign : name ∉ base := h.fresh name ⟨id, member, forgets.member⟩
    rw [removed, Finset.mem_erase, tracked_iff, h.loaded, and_or_left]
    refine or_congr_left ⟨And.right, fun initial => ⟨fun same => ?_, initial⟩⟩
    exact foreign (same ▸ initial)

/-- The last module of a list is needed by none of its own loader's modules and by none of
the initial ones.
-/
theorem unneeded_last (h : Stacked needs base mine heap s) (closed : Closed needs base)
    (member : id ∈ mine) {front : List LoadedModule} {last : LoadedModule}
    (tracked : heap.tracked id = front ++ [last])
    (others : ∀ other ∈ mine, other ≠ id → ∀ user ∈ heap.names other, last.name ∉ needs user)
    : Unneeded needs s.loaded last.name := by
  have names : heap.names id = front.map LoadedModule.name ++ [last.name] := by
    rw [Heap.names, tracked, List.map_append, List.map_singleton]
  intro user loaded
  rcases (h.loaded user).mp loaded with initial | ⟨other, inside, listed⟩
  · refine closed.unneeded (h.fresh last.name ⟨id, member, ?_⟩) user initial
    rw [names]
    exact List.mem_append_right _ List.mem_cons_self
  · by_cases same : other = id
    · subst same
      have ordered := h.ordered other member
      rw [names] at ordered listed
      exact ordered.last_unneeded listed
    · exact others other inside same user listed

theorem keptByInsmod (member : id ∈ mine) (live : (heap.modules id).isSome)
    : KeptByInsmod needs (Stacked needs base mine) heap id := by
  intro s path params code h _
  rcases insert_cases path params code with
    ⟨_, absent, supplied, done⟩ | ⟨_, failed, refused⟩
  · rw [done, if_pos rfl]
    exact h.insmod member live absent supplied rfl
  · rw [refused, if_neg failed]
    exact h.same_loaded rfl

theorem keptByRmmod {admits : Choice → Prop} (member : id ∈ mine)
    : KeptByRmmod needs admits (Stacked needs base mine) heap id := by
  intro s name choice _ h listed
  rcases remove_cases name choice.rmmodCode with
    ⟨_, _, unneeded, done⟩ | ⟨_, failed, _, refused⟩
  · rw [done, if_pos rfl]
    exact h.rmmod member unneeded (forgets_eraseLast listed) rfl
  · rw [refused, if_neg failed]
    exact h.same_loaded rfl

/-- With `rmmod` under the kernel's rule only, the last module of a list goes at once. -/
theorem remove_last (h : Stacked needs base mine heap s) (closed : Closed needs base)
    (member : id ∈ mine) {front : List LoadedModule} {last : LoadedModule}
    (tracked : heap.tracked id = front ++ [last])
    (others : ∀ other ∈ mine, other ≠ id → ∀ user ∈ heap.names other, last.name ∉ needs user)
    : s.remove needs last.name 0
        = (0, { s with loaded := s.loaded.erase last.name }.record (.rmmod last.name 0))
      ∧ Stacked needs base mine (heap.modify id List.dropLast)
          ({ s with loaded := s.loaded.erase last.name }.record (.rmmod last.name 0)) := by
  have forgets := forgets_dropLast tracked
  have unneeded := h.unneeded_last closed member tracked others
  have loaded : last.name ∈ s.loaded :=
    (h.loaded last.name).mpr (Or.inr ⟨id, member, forgets.member⟩)
  refine ⟨?_, h.rmmod member unneeded forgets rfl⟩
  rw [Sys.remove, if_neg (not_not.mpr rfl), if_pos ⟨loaded, unneeded⟩]

/-- Loaders without modules stand on whatever is loaded. -/
theorem start (closed : Closed needs s.loaded) (empty : ∀ id ∈ mine, heap.names id = [])
    : Stacked needs s.loaded mine heap s := by
  refine ⟨closed, Owned.start empty, fun id inside => ?_, fun name => ?_,
    fun name tracked => absurd tracked (untracked_of_empty empty)⟩
  · rw [empty id inside]
    exact Ordered.nil
  · exact (or_iff_left (untracked_of_empty empty)).symm

/-- Loaders without modules leave the kernel as it was. -/
theorem restored (h : Stacked needs base mine heap s) (empty : ∀ id ∈ mine, heap.names id = [])
    : s.loaded = base := by
  ext name
  rw [h.loaded]
  exact or_iff_left (untracked_of_empty empty)

end Stacked

/-- The commands among the recorded events. -/
def commands (events : List Event) : List Event :=
  events.filter (fun event => match event with
    | .signal _ => false
    | _ => true)

/-- The record of a successful `rmmod` for each module, from the back. -/
def unloads (names : List String) : List Event := names.reverse.map (fun name => .rmmod name 0)

/-- From `s` on the process has recorded these commands. -/
def Issued (s s' : Sys) (list : List Event) : Prop :=
  ∃ later, s'.events = s.events ++ later ∧ commands later = list

theorem Issued.refl (s : Sys) : Issued s s [] := ⟨[], (List.append_nil _).symm, rfl⟩

theorem Issued.record {s s' s'' : Sys} {list : List Event} (h : Issued s s' list)
    (event : Event) (recorded : s''.events = s'.events ++ [event])
    : Issued s s'' (list ++ commands [event]) := by
  obtain ⟨later, extended, listed⟩ := h
  refine ⟨later ++ [event], ?_, ?_⟩
  · rw [recorded, extended, List.append_assoc]
  · rw [commands, List.filter_append, ← listed]
    rfl

theorem Issued.deliver {s s' : Sys} {list : List Event} (h : Issued s s' list)
    (signal : Option Signal)
    : Issued s (s'.deliver signal) list := by
  cases signal with
  | none => exact h
  | some signal =>
      have recorded : Issued s (s'.deliver (some signal)) (list ++ commands [.signal signal]) :=
        h.record _ rfl
      rwa [commands, List.filter_cons_of_neg (by simp), List.filter_nil, List.append_nil]
        at recorded

variable {needs : String → List String} {base : Finset String} {heap : Heap} {s : Sys}
  {id : LoaderId}

/-- `unload_all` removes each module of its list once, from the back, and every command
succeeds.
-/
theorem Stacked.unloadAll (h : Stacked needs base {id} heap s) (closed : Closed needs base)
    : Ensures (exec needs) (fun choice => choice.rmmodCode = 0) (ModuleLoader.unloadAll id)
        (fun _ _ s' => Issued s s' (unloads (heap.names id)) ∧ s'.loaded = base) heap s := by
  let inv : Heap → Sys → Prop := fun heap' s' =>
    Stacked needs base {id} heap' s'
    ∧ ∃ done, Issued s s' done ∧ done ++ unloads (heap'.names id) = unloads (heap.names id)
  refine (unloadAll_ensures inv ?_ ⟨h, [], Issued.refl s, rfl⟩).imp ?_
  · intro heap' s' choice front last successful current tracked
    obtain ⟨h, done, issued, remaining⟩ := current
    have h := Stacked.undisturbed heap' s' choice.signal h
    obtain ⟨removed, h⟩ := h.remove_last closed rfl tracked
      (fun other inside distinct => absurd inside distinct)
    refine ⟨_, _, exec_rmmod choice last.name, ?_⟩
    rw [successful, removed]
    refine ⟨h, done ++ [.rmmod last.name 0],
      (issued.deliver choice.signal).record (.rmmod last.name 0) rfl, ?_⟩
    have before : heap'.names id = front.map LoadedModule.name ++ [last.name] := by
      rw [Heap.names, tracked, List.map_append, List.map_singleton]
    have after : (heap'.modify id List.dropLast).names id = front.map LoadedModule.name := by
      rw [Heap.names, modify_tracked_of_nil rfl, tracked, List.dropLast_concat]
    rw [← remaining, before, after, unloads, unloads, List.reverse_append, List.map_append,
      List.append_assoc]
    rfl
  · intro _ heap' s' finished
    obtain ⟨rfl, h, done, issued, remaining⟩ := finished
    refine ⟨?_, h.restored (fun other inside => ?_)⟩
    · rw [cleared_names_self, unloads, List.reverse_nil, List.map_nil, List.append_nil]
        at remaining
      exact remaining ▸ issued
    · rw [Set.mem_singleton_iff.mp inside]
      exact cleared_names_self

/-- The process only loads and unloads through one loader, and `rmmod` follows the kernel's
rule.
-/
def LoadsAndUnloads (id : LoaderId) (_ : Process) (call : LoaderCall) (choices : List Choice)
    : Prop :=
  ((∃ path params, call = .load id path params) ∨ ∃ name, call = .unload id name)
  ∧ ∀ choice ∈ choices, choice.rmmodCode = 0

/-- After any loading and unloading through one loader, `unload_all` issues one successful
`rmmod` for each module still tracked and restores the initial module list.
-/
theorem unloadAll_restores {first p : Process} (closed : Closed needs first.sys.loaded)
    (constructed : first.heap.modules id = some [])
    (reached : Process.Reaches needs (LoadsAndUnloads id) first p) {choices : List Choice}
    (successful : ∀ choice ∈ choices, choice.rmmodCode = 0)
    : ∃ heap s,
        ((ModuleLoader.unloadAll id).run p.heap).runAlone (exec needs) choices p.sys
          = .done ((), heap) s
        ∧ Issued p.sys s (unloads (p.heap.names id))
        ∧ s.loaded = first.sys.loaded := by
  have stacked : Stacked needs first.sys.loaded {id} p.heap p.sys := by
    refine reaches_invariant (Stacked needs first.sys.loaded {id}) reached
      (Stacked.start closed ?_) ?_
    · intro other inside
      rw [Set.mem_singleton_iff.mp inside, Heap.names, Heap.tracked, constructed]
      rfl
    · intro p call choices admitted valid h
      refine ⟨fun choice => choice.rmmodCode = 0, admitted.2, rfl, ?_⟩
      rcases admitted.1 with ⟨path, params, rfl⟩ | ⟨name, rfl⟩
      · exact ensures_bind.mpr
          (load_ensures path params Stacked.undisturbed (Stacked.keptByInsmod rfl valid) h)
      · exact ensures_bind.mpr
          (unload_ensures name Stacked.undisturbed (Stacked.keptByRmmod rfl) h)
  obtain ⟨_, heap, s, ran, issued, restored⟩ := (stacked.unloadAll closed).run successful rfl
  exact ⟨heap, s, ran, issued, restored⟩

/-- Module `b` needs `a`. -/
def needsA (name : String) : List String := if name = "b" then ["a"] else []

/-- One loader, and a module somebody else has loaded. -/
def loneLoader : Process := ⟨⟨fun id => if id = 0 then some [] else none, []⟩, ⟨0, {"x"}, []⟩⟩

theorem unloadAll_restores_dependent
    : ∃ p heap s,
        Process.Reaches needsA (LoadsAndUnloads 0) loneLoader p
        ∧ p.heap.names 0 = ["a", "b"]
        ∧ ((ModuleLoader.unloadAll 0).run p.heap).runAlone (exec needsA) [] p.sys
          = .done ((), heap) s
        ∧ s.loaded = {"x"} := by
  let list : List (LoaderCall × List Choice) := [
    (.load 0 "a.ko" "", []), (.load 0 "c.ko" "", []), (.load 0 "b.ko" "", []),
    (.unload 0 "a", []), (.unload 0 "c", [])
  ]
  have shown
      : (calls needsA loneLoader list).map (fun p => p.heap.names 0) = some ["a", "b"] := by
    decide +kernel
  obtain ⟨p, ran, names⟩ := Option.map_eq_some_iff.mp shown
  have reached : Process.Reaches needsA (LoadsAndUnloads 0) loneLoader p := by
    refine calls_reaches .start ?_ ran
    intro entry member p
    simp only [list, List.mem_cons, List.not_mem_nil, or_false] at member
    rcases member with rfl | rfl | rfl | rfl | rfl
    · exact ⟨Or.inl ⟨_, _, rfl⟩, by simp⟩
    · exact ⟨Or.inl ⟨_, _, rfl⟩, by simp⟩
    · exact ⟨Or.inl ⟨_, _, rfl⟩, by simp⟩
    · exact ⟨Or.inr ⟨_, rfl⟩, by simp⟩
    · exact ⟨Or.inr ⟨_, rfl⟩, by simp⟩
  have closed : Closed needsA loneLoader.sys.loaded := by
    intro item member
    rw [Finset.mem_singleton.mp member]
    decide
  obtain ⟨heap, s, finished, _, restored⟩ := unloadAll_restores closed rfl reached
    (fun choice member => absurd member List.not_mem_nil)
  exact ⟨p, heap, s, reached, names, finished, restored⟩

end SafetyIsolation.Modules

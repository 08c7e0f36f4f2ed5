import SafetyIsolation.Modules.Rules

/-! The registry behind the signal cleanup. `load` and the move constructor register a
loader and the destructor removes it; move assignment relies on an earlier registration.
-/

namespace SafetyIsolation.Modules

open SafetyIsolation.Interleaving SafetyIsolation.Interleaving.Prog SafetyIsolation.Harness

/-- The signal cleanup reaches every module, and only through live objects. -/
structure Registered (heap : Heap) : Prop where
  owners : ∀ id, heap.tracked id ≠ [] → id ∈ heap.activeLoaders
  live : ∀ id ∈ heap.activeLoaders, (heap.modules id).isSome

namespace Registered

variable {heap : Heap} {id other : LoaderId}

/-- A list may change under a registered loader, and elsewhere if nothing is left in it. -/
theorem modify (h : Registered heap) {f : List LoadedModule → List LoadedModule}
    (registered : f (heap.tracked id) ≠ [] → id ∈ heap.activeLoaders)
    : Registered (heap.modify id f) := by
  refine ⟨fun k owns => ?_, fun k member => ?_⟩
  · by_cases same : k = id
    · subst same
      by_cases live : (heap.modules k).isSome
      · rw [modify_tracked_self live] at owns
        exact registered owns
      · rw [Option.not_isSome_iff_eq_none] at live
        simp only [Heap.tracked, modify_modules_self, live, Option.map_none, Option.getD_none,
          ne_eq, not_true] at owns
    · rw [modify_tracked_of_ne same] at owns
      exact h.owners k owns
  · rw [modify_isSome]
    exact h.live k member

/-- Taking entries out of a list needs no registration. -/
theorem shrink (h : Registered heap) {f : List LoadedModule → List LoadedModule}
    (empty : f [] = [])
    : Registered (heap.modify id f) := by
  refine h.modify (fun remaining => h.owners id (fun none => remaining ?_))
  rw [none, empty]

theorem track (h : Registered heap) (live : (heap.modules id).isSome) {mod : LoadedModule}
    : Registered (track heap id mod) := by
  refine ⟨fun k owns => ?_, fun k registered => ?_⟩
  · by_cases same : k = id
    · exact List.mem_append_right _ (List.mem_singleton.mpr same)
    · have unchanged : (Modules.track heap id mod).tracked k = heap.tracked k :=
        modify_tracked_of_ne same
      exact List.mem_append_left _ (h.owners k (unchanged ▸ owns))
  · have alive : (heap.modules k).isSome := by
      rcases List.mem_append.mp registered with earlier | new
      · exact h.live k earlier
      · exact List.mem_singleton.mp new ▸ live
    exact modify_isSome.trans alive

/-- A new object is registered at once or starts without modules. -/
theorem place (h : Registered heap) (id : LoaderId) (modules : List LoadedModule)
    (more : List LoaderId) (only : ∀ k ∈ more, k = id)
    (registered : modules ≠ [] → id ∈ more)
    : Registered
        { place heap id (some modules) with activeLoaders := heap.activeLoaders ++ more } := by
  refine ⟨fun k owns => ?_, fun k member => ?_⟩
  · by_cases same : k = id
    · subst same
      simp only [Modules.place, Heap.tracked, Function.update_self, Option.getD_some] at owns
      exact List.mem_append_right _ (registered owns)
    · simp only [Modules.place, Heap.tracked, Function.update_of_ne same] at owns
      exact List.mem_append_left _ (h.owners k owns)
  · by_cases same : k = id
    · subst same
      simp only [Modules.place, Function.update_self, Option.isSome_some]
    · simp only [Modules.place, Function.update_of_ne same]
      rcases List.mem_append.mp member with earlier | new
      · exact h.live k earlier
      · exact absurd (only k new) same

/-- The destructor leaves neither modules nor a pointer behind. -/
theorem destroyed (h : Registered heap) : Registered (destroyed heap id) := by
  refine ⟨fun k owns => ?_, fun k member => ?_⟩
  · by_cases same : k = id
    · subst same
      simp only [Modules.destroyed, Modules.place, Heap.tracked, Function.update_self,
        Option.getD_none, ne_eq, not_true] at owns
    · simp only [Modules.destroyed, Modules.place, Heap.tracked,
        Function.update_of_ne same] at owns
      exact List.mem_filter.mpr ⟨h.owners k owns, decide_eq_true same⟩
  · obtain ⟨registered, distinct⟩ := List.mem_filter.mp member
    have other : k ≠ id := of_decide_eq_true distinct
    simp only [Modules.destroyed, Modules.place, Function.update_of_ne other]
    exact h.live k registered

variable {needs : String → List String} {admits : Choice → Prop} {s : Sys}

theorem keptByInsmod (live : (heap.modules id).isSome)
    : KeptByInsmod needs (fun heap _ => Registered heap) heap id := by
  intro s path params code h _
  split
  · exact h.track live
  · exact h

theorem keptByRmmod : KeptByRmmod needs admits (fun heap _ => Registered heap) heap id := by
  intro s name choice _ h _
  split
  · exact h.shrink rfl
  · exact h

theorem unloadAll (h : Registered heap)
    : Ensures (exec needs) admits (ModuleLoader.unloadAll id)
        (fun _ heap' _ => heap' = heap.modify id (fun _ => []) ∧ Registered heap') heap s := by
  refine unloadAll_ensures (fun heap _ => Registered heap) ?_ h
  intro heap s choice front last _ h _
  exact ⟨_, _, exec_rmmod choice last.name, h.shrink rfl⟩

end Registered

/-- Move assignment is used on loaders the registry knows already, unless there is nothing
to move.
-/
def AssignsRegistered (p : Process) (call : LoaderCall) (_ : List Choice) : Prop :=
  match call with
  | .moveAssign id other =>
      id ≠ other → p.heap.tracked other ≠ [] → id ∈ p.heap.activeLoaders
  | _ => True

/-- Every call keeps the registry complete and free of dead pointers, one case for each
operation.
-/
theorem registered_call {needs : String → List String} {p : Process} {call : LoaderCall}
    {choices : List Choice} (admitted : AssignsRegistered p call choices)
    (valid : call.valid p.heap) (h : Registered p.heap)
    : Ensures (exec needs) (fun _ => True) call.code (fun _ heap _ => Registered heap) p.heap
        p.sys := by
  have undisturbed : Undisturbed (fun heap _ => Registered heap) := fun _ _ _ h => h
  cases call with
  | construct id =>
      have h := h.place id [] [] (by simp) (by simp)
      rwa [List.append_nil] at h
  | moveConstruct id other =>
      have h := h.place id (p.heap.tracked other) [id]
        (fun _ => List.mem_singleton.mp) (fun _ => List.mem_singleton_self id)
      exact h.shrink (f := fun _ => []) rfl
  | moveAssign id other =>
      by_cases same : id = other
      · subst same
        exact moveAssign_ensures_self h
      · refine moveAssign_ensures same (h.unloadAll.imp ?_)
        intro _ heap' s' cleared
        obtain ⟨rfl, h⟩ := cleared
        refine (h.modify ?_).shrink rfl
        rw [modify_tracked_of_ne (Ne.symm same)]
        exact admitted same
  | load id path params =>
      exact ensures_bind.mpr
        (load_ensures path params undisturbed (Registered.keptByInsmod valid) h)
  | unload id name =>
      exact ensures_bind.mpr (unload_ensures name undisturbed Registered.keptByRmmod h)
  | unloadAll id => exact h.unloadAll.imp (fun _ _ _ cleared => cleared.2)
  | destroy id =>
      exact destroy_ensures (h.unloadAll.imp (fun _ _ _ cleared => cleared.2.destroyed))

/-- In every process that only assigns to registered loaders, the signal cleanup reaches
every module and no dead object.
-/
theorem registry_complete {needs : String → List String} {sys : Sys} {p : Process}
    (reached : Process.Reaches needs AssignsRegistered (.start sys) p)
    : Registered p.heap := by
  have initially : Registered Heap.empty := by
    refine ⟨fun _ owns => absurd rfl owns, fun _ member => ?_⟩
    cases member
  refine reaches_invariant (fun heap _ => Registered heap) reached initially ?_
  intro p call choices admitted valid h
  exact ⟨fun _ => True, fun _ _ => trivial, trivial, registered_call admitted valid h⟩

/-- Two loaders, of which the second has or has not loaded a module itself. -/
def twoLoaders (second : List (LoaderCall × List Choice)) : List (LoaderCall × List Choice) :=
  [(.construct 0, []), (.construct 1, []), (.load 0 "m.ko" "", [])] ++ second

theorem registry_complete_after_moveAssign
    : ∃ p,
        Process.Reaches (fun _ => []) AssignsRegistered (.start ⟨0, ∅, []⟩) p
        ∧ p.heap.names 1 = ["m"]
        ∧ Registered p.heap := by
  have shown : ((calls (fun _ => []) (.start ⟨0, ∅, []⟩)
      (twoLoaders [(.load 1 "n.ko" "", [])])).bind
      (fun p => (p.call (fun _ => []) (.moveAssign 1 0) []).map
        (fun p' => (p.heap.activeLoaders, p'.heap.names 1)))) = some ([0, 1], ["m"]) := by
    decide +kernel
  obtain ⟨p, ran, later⟩ := Option.bind_eq_some_iff.mp shown
  obtain ⟨p', called, observed⟩ := Option.map_eq_some_iff.mp later
  have before : Process.Reaches (fun _ => []) AssignsRegistered (.start ⟨0, ∅, []⟩) p := by
    refine calls_reaches .start ?_ ran
    intro entry member p
    rcases List.mem_cons.mp member with rfl | member
    · trivial
    · rcases List.mem_cons.mp member with rfl | member
      · trivial
      · rcases List.mem_cons.mp member with rfl | member
        · trivial
        · rw [List.mem_singleton.mp member]
          trivial
  have admitted : AssignsRegistered p (.moveAssign 1 0) [] := by
    intro _ _
    have registry : p.heap.activeLoaders = [0, 1] := congrArg Prod.fst observed
    rw [registry]
    decide
  have reached := before.call admitted called
  exact ⟨p', reached, congrArg Prod.snd observed, registry_complete reached⟩

/-- Move assignment hands the modules to a loader the registry does not know. -/
theorem registry_incomplete_after_moveAssign
    : ∃ p,
        Process.Reaches (fun _ => []) (fun _ _ _ => True) (.start ⟨0, ∅, []⟩) p
        ∧ ¬ Registered p.heap := by
  have shown : (calls (fun _ => []) (.start ⟨0, ∅, []⟩)
      (twoLoaders [(.moveAssign 1 0, [])])).map
      (fun p => (p.heap.tracked 1 ≠ [] : Bool) && (1 ∉ p.heap.activeLoaders : Bool))
      = some true := by
    decide +kernel
  obtain ⟨p, ran, observed⟩ := Option.map_eq_some_iff.mp shown
  obtain ⟨owns, unregistered⟩ := Bool.and_eq_true_iff.mp observed
  refine ⟨p, calls_reaches .start (fun _ _ _ => trivial) ran, fun h => ?_⟩
  exact of_decide_eq_true unregistered (h.owners 1 (of_decide_eq_true owns))

end SafetyIsolation.Modules

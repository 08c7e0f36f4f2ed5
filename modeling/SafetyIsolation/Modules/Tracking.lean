import SafetyIsolation.Modules.Ownership

/-! The loaders' lists against the kernel. Each name in a list stands for one module that
these loaders inserted, as long as `unload_all` never drops an entry whose `rmmod` failed.
-/

namespace SafetyIsolation.Modules

open SafetyIsolation.Interleaving SafetyIsolation.Interleaving.Prog SafetyIsolation.Harness

/-- What one observed command does to the set of inserted modules. -/
def effect (inserted : Finset String) : Event → Finset String
  | .insmod path _ code => if code = 0 then insert path.stem inserted else inserted
  | .rmmod name code => if code = 0 then inserted.erase name else inserted
  | .signal _ => inserted
  | .entered _ => inserted
  | .started _ => inserted
  | .published _ => inserted

/-- The modules inserted by a successful `insmod` and not since removed by a successful
`rmmod`.
-/
def inserted (events : List Event) : Finset String := events.foldl effect ∅

theorem inserted_record {s : Sys} {event : Event}
    : inserted (s.record event).events = effect (inserted s.events) event := by
  simp only [inserted, Sys.record, List.foldl_append, List.foldl_cons, List.foldl_nil]

theorem inserted_deliver {s : Sys} {signal : Option Signal}
    : inserted (s.deliver signal).events = inserted s.events := by
  cases signal with
  | none => rfl
  | some signal => exact inserted_record

/-- The lists hold each inserted module once, and the kernel still has it. -/
structure Exact (heap : Heap) (s : Sys) : Prop where
  owned : Owned Set.univ heap
  tracked : ∀ name, Tracked Set.univ heap name ↔ name ∈ inserted s.events
  loaded : ∀ name, Tracked Set.univ heap name → name ∈ s.loaded

namespace Exact

variable {heap heap' : Heap} {s : Sys}

theorem undisturbed : Undisturbed Exact := by
  intro heap s signal h
  refine ⟨h.owned, fun name => ?_, fun name member => ?_⟩
  · rw [inserted_deliver]
    exact h.tracked name
  · rw [deliver_loaded]
    exact h.loaded name member

/-- Only the names count, and not which loader has which. -/
theorem rename (h : Exact heap s) (owners : LoaderId ≃ LoaderId)
    (same : ∀ id, heap'.names id = heap.names (owners id))
    : Exact heap' s :=
  ⟨h.owned.rename owners same,
    fun name => (tracked_rename owners same).trans (h.tracked name),
    fun name member => h.loaded name ((tracked_rename owners same).mp member)⟩

/-- A failed command changes neither side. -/
theorem record (h : Exact heap s) {event : Event} (ineffective : ∀ set, effect set event = set)
    : Exact heap (s.record event) := by
  refine ⟨h.owned, fun name => ?_, h.loaded⟩
  rw [inserted_record, ineffective]
  exact h.tracked name

theorem insmod (h : Exact heap s) {id : LoaderId} (live : (heap.modules id).isSome)
    {name : String} {path : Path} (named : path.stem = name) {params : String}
    (absent : name ∉ s.loaded)
    : Exact (track heap id ⟨name, path⟩)
        ({ s with loaded := insert name s.loaded }.record (.insmod path params 0)) := by
  refine ⟨h.owned.track trivial live (fun tracked => absent (h.loaded name tracked)),
    fun found => ?_, fun found member => ?_⟩
  · rw [inserted_record]
    simp only [effect, if_pos, named, Finset.mem_insert, h.tracked,
      tracked_track (Set.mem_univ id) live]
  · rcases (tracked_track (Set.mem_univ id) live).mp member with new | earlier
    · exact new ▸ Finset.mem_insert_self _ _
    · exact Finset.mem_insert_of_mem (h.loaded found earlier)

theorem rmmod (h : Exact heap s) {id : LoaderId} {name : String}
    (forgets : Forgets heap heap' id name)
    : Exact heap' ({ s with loaded := s.loaded.erase name }.record (.rmmod name 0)) := by
  refine ⟨h.owned.forget forgets, fun found => ?_, fun found member => ?_⟩
  · rw [inserted_record, h.owned.tracked_forget trivial forgets, h.tracked]
    simp only [effect, if_pos, Finset.mem_erase]
  · obtain ⟨distinct, earlier⟩ := (h.owned.tracked_forget trivial forgets).mp member
    exact Finset.mem_erase.mpr ⟨distinct, h.loaded found earlier⟩

/-- With exit codes chosen freely, `load` and `unload` keep the lists exact. -/
theorem keptByInsmod {needs : String → List String} {id : LoaderId}
    (live : (heap.modules id).isSome)
    : KeptByInsmod needs Exact heap id := by
  intro s path params code h _
  rcases insert_cases path params code with
    ⟨_, absent, _, done⟩ | ⟨failure, failed, refused⟩
  · rw [done, if_pos rfl]
    exact h.insmod live rfl absent
  · rw [refused, if_neg failed]
    exact h.record (fun set => by simp only [effect, if_neg failed])

theorem keptByRmmod {needs : String → List String} {admits : Choice → Prop} {id : LoaderId}
    : KeptByRmmod needs admits Exact heap id := by
  intro s name choice _ h member
  rcases remove_cases name choice.rmmodCode with
    ⟨_, _, _, done⟩ | ⟨failure, failed, _, refused⟩
  · rw [done, if_pos rfl]
    exact h.rmmod (forgets_eraseLast member)
  · rw [refused, if_neg failed]
    exact h.record (fun set => by simp only [effect, if_neg failed])

/-- `unload_all` keeps the lists exact as long as its commands succeed. -/
theorem unloadAll (h : Exact heap s) (id : LoaderId)
    : Ensures (exec fun _ => []) (fun choice => choice.rmmodCode = 0) (ModuleLoader.unloadAll id)
        (fun _ heap' s' => heap' = heap.modify id (fun _ => []) ∧ Exact heap' s') heap s := by
  refine unloadAll_ensures Exact ?_ h
  intro heap s choice front last successful h tracked
  refine ⟨_, _, exec_rmmod choice last.name, ?_⟩
  have h := undisturbed heap s choice.signal h
  have member : last.name ∈ heap.names id := by
    rw [Heap.names, tracked, List.map_append]
    exact List.mem_append_right _ List.mem_cons_self
  rcases remove_cases last.name choice.rmmodCode with
    ⟨_, _, _, done⟩ | ⟨failure, _, blocked, _⟩
  · rw [done]
    exact h.rmmod (forgets_dropLast tracked)
  · exact absurd ⟨h.loaded _ ⟨id, trivial, member⟩, fun _ _ => List.not_mem_nil⟩
      (blocked successful)

end Exact

/-- The calls that run `unload_all`. -/
def unloadsAll : LoaderCall → Bool
  | .moveAssign _ _ => true
  | .unloadAll _ => true
  | .destroy _ => true
  | .construct _ => false
  | .moveConstruct _ _ => false
  | .load _ _ _ => false
  | .unload _ _ => false

/-- Every `rmmod` that an `unload_all` runs exits with 0. -/
def UnloadsSucceed (_ : Process) (call : LoaderCall) (choices : List Choice) : Prop :=
  unloadsAll call = true → ∀ choice ∈ choices, choice.rmmodCode = 0

/-- Every call keeps the lists exact, one case for each operation. -/
theorem exact_call {heap : Heap} {s : Sys} {call : LoaderCall} (valid : call.valid heap)
    (h : Exact heap s) {ok : Choice → Prop}
    (successful : unloadsAll call = true → ok = fun choice => choice.rmmodCode = 0)
    : Ensures (exec fun _ => []) ok call.code (fun _ heap s => Exact heap s) heap s := by
  cases call with
  | construct id =>
      have absent : heap.modules id = none := Option.isNone_iff_eq_none.mp valid
      have empty : heap.names id = [] := by
        rw [Heap.names, Heap.tracked, absent, Option.getD_none, List.map_nil]
      exact h.rename (.refl _) (fun k => place_names_of_empty empty rfl)
  | moveConstruct id other =>
      obtain ⟨absent, live⟩ := Bool.and_eq_true_iff.mp valid
      rw [Option.isNone_iff_eq_none] at absent
      have empty : heap.names id = [] := by
        rw [Heap.names, Heap.tracked, absent, Option.getD_none, List.map_nil]
      have distinct : id ≠ other := by
        intro same
        rw [← same, absent] at live
        cases live
      refine h.rename (Equiv.swap id other) (moved_names empty ?_ cleared_names_self ?_)
      · exact (modify_names_of_ne distinct).trans place_names_self
      · intro k first second
        exact (modify_names_of_ne second).trans (place_names_of_ne first)
  | moveAssign id other =>
      obtain ⟨live, _⟩ := Bool.and_eq_true_iff.mp valid
      rw [successful rfl]
      by_cases same : id = other
      · subst same
        exact moveAssign_ensures_self h
      · refine moveAssign_ensures same ((h.unloadAll id).imp ?_)
        intro _ heap' s' cleared
        obtain ⟨rfl, h⟩ := cleared
        exact h.rename (Equiv.swap id other)
          (moved_names_swap same (modify_isSome.trans live) cleared_names_self)
  | load id path params =>
      exact ensures_bind.mpr
        (load_ensures path params Exact.undisturbed (Exact.keptByInsmod valid) h)
  | unload id name =>
      exact ensures_bind.mpr (unload_ensures name Exact.undisturbed Exact.keptByRmmod h)
  | unloadAll id =>
      rw [successful rfl]
      exact (h.unloadAll id).imp (fun _ _ _ cleared => cleared.2)
  | destroy id =>
      rw [successful rfl]
      refine destroy_ensures ((h.unloadAll id).imp ?_)
      intro _ heap' s' cleared
      obtain ⟨rfl, h⟩ := cleared
      exact h.rename (.refl _) (destroyed_names cleared_names_self)

theorem exact_start {heap : Heap} {s : Sys} (empty : ∀ id, heap.names id = [])
    (unrecorded : s.events = [])
    : Exact heap s := by
  have untracked : ∀ name, ¬ Tracked Set.univ heap name :=
    fun name => untracked_of_empty (fun id _ => empty id)
  refine ⟨Owned.start (fun id _ => empty id), fun name => ?_,
    fun name member => absurd member (untracked name)⟩
  rw [unrecorded]
  exact iff_of_false (untracked name) (Finset.notMem_empty name)

/-- In every process whose `unload_all` commands succeed, the lists name exactly the modules
the loaders inserted and have not removed.
-/
theorem tracked_iff_inserted {sys : Sys} (unrecorded : sys.events = []) {p : Process}
    (reached : Process.Reaches (fun _ => []) UnloadsSucceed (.start sys) p) (name : String)
    : (∃ id, name ∈ p.heap.names id) ↔ name ∈ inserted p.sys.events := by
  have exactly : Exact p.heap p.sys := by
    refine reaches_invariant Exact reached (exact_start (fun _ => rfl) unrecorded) ?_
    intro p call choices admitted valid h
    by_cases unloading : unloadsAll call = true
    · exact ⟨fun choice => choice.rmmodCode = 0, admitted unloading, rfl,
        exact_call valid h (fun _ => rfl)⟩
    · exact ⟨fun _ => True, fun _ _ => trivial, trivial,
        exact_call valid h (fun unloads => absurd unloads unloading)⟩
  simpa only [Tracked, Set.mem_univ, true_and] using exactly.tracked name

/-- Nothing loaded and nothing recorded. -/
def bare : Sys := ⟨0, ∅, []⟩

/-- One loader with one module. -/
def oneLoaded : List (LoaderCall × List Choice) :=
  [(.construct 0, []), (.load 0 "m.ko" "", [])]

theorem tracked_iff_inserted_reloaded
    : ∃ p,
        Process.Reaches (fun _ => []) UnloadsSucceed (.start bare) p
        ∧ p.heap.names 0 = ["m"]
        ∧ ((∃ id, "m" ∈ p.heap.names id) ↔ "m" ∈ inserted p.sys.events) := by
  let list := oneLoaded ++ [(.unloadAll 0, [default]), (.load 0 "m.ko" "", [])]
  have shown : (calls (fun _ => []) (.start bare) list).map (fun p => p.heap.names 0)
      = some ["m"] := by decide +kernel
  obtain ⟨p, ran, names⟩ := Option.map_eq_some_iff.mp shown
  have successful : ∀ entry ∈ list, unloadsAll entry.1 = true
      → ∀ choice ∈ entry.2, choice.rmmodCode = 0 := by decide
  have reached : Process.Reaches (fun _ => []) UnloadsSucceed (.start bare) p :=
    calls_reaches .start (fun entry member _ => successful entry member) ran
  exact ⟨p, reached, names, tracked_iff_inserted rfl reached "m"⟩

/-- `unload_all` pops an entry although `rmmod` failed, and the module stays behind. -/
theorem tracked_ne_inserted_of_failed_rmmod
    : ∃ p,
        Process.Reaches (fun _ => []) (fun _ _ _ => True) (.start bare) p
        ∧ ¬ ((∃ id, "m" ∈ p.heap.names id) ↔ "m" ∈ inserted p.sys.events) := by
  have shown : ∀ id, (calls (fun _ => []) (.start bare)
      (oneLoaded ++ [(.unloadAll 0, [{ rmmodCode := 1 }])])).map
      (fun p => (p.heap.names id, decide ("m" ∈ inserted p.sys.events)))
      = some ([], true) := by
    intro id
    cases id with
    | zero => decide +kernel
    | succ id => rfl
  obtain ⟨p, ran, observed⟩ := Option.map_eq_some_iff.mp (shown 0)
  refine ⟨p, calls_reaches .start (fun _ _ _ => trivial) ran, ?_⟩
  intro same
  obtain ⟨id, member⟩ := same.mpr (of_decide_eq_true (congrArg Prod.snd observed))
  have seen := shown id
  rw [ran] at seen
  have empty : p.heap.names id = [] := congrArg Prod.fst (Option.some.inj seen)
  rw [empty] at member
  cases member

end SafetyIsolation.Modules

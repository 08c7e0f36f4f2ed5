import SafetyIsolation.Modules.Registry
import SafetyIsolation.Modules.Tracking
import SafetyIsolation.Modules.Unloading

/-! The cleanup on a signal. It walks the registry in the order of registration, so a module
that a later registered loader's module needs is refused, dropped from its list and left in
the kernel.
-/

namespace SafetyIsolation.Modules

open SafetyIsolation.Dependencies SafetyIsolation.Interleaving SafetyIsolation.Interleaving.Prog
open SafetyIsolation.Harness

variable {needs : String → List String} {base : Finset String} {heap : Heap} {s : Sys}

/-- No module needs one of a loader that the walk reaches earlier. -/
def InOrder (needs : String → List String) (heap : Heap) (order : List LoaderId) : Prop :=
  ∀ early late, order.idxOf early < order.idxOf late
    → ∀ user ∈ heap.names late, ∀ name ∈ heap.names early, name ∉ needs user

/-- The rest of a walk is in order once its first loader has no modules left. -/
theorem InOrder.tail {id : LoaderId} {rest : List LoaderId}
    (h : InOrder needs heap (id :: rest))
    : InOrder needs (heap.modify id (fun _ => [])) rest := by
  intro early late before user used name named
  by_cases first : early = id
  · rw [first, cleared_names_self] at named
    cases named
  · by_cases second : late = id
    · rw [second, cleared_names_self] at used
      cases used
    · rw [modify_names_of_ne first] at named
      rw [modify_names_of_ne second] at used
      refine h early late ?_ user used name named
      rw [List.idxOf_cons_ne _ (Ne.symm first), List.idxOf_cons_ne _ (Ne.symm second)]
      exact Nat.succ_lt_succ before

/-- A walk in order restores the initial module list, by induction over the registry. -/
theorem unloadActive_restores (closed : Closed needs base) {order : List LoaderId}
    (h : Stacked needs base Set.univ heap s) (covered : ∀ id, heap.names id ≠ [] → id ∈ order)
    (inOrder : InOrder needs heap order)
    : Ensures (exec needs) (fun choice => choice.rmmodCode = 0)
        (ModuleLoader.unloadActive order) (fun _ _ s' => s'.loaded = base) heap s := by
  induction order generalizing heap s with
  | nil =>
      refine h.restored (fun id _ => ?_)
      by_contra owns
      exact absurd (covered id owns) List.not_mem_nil
  | cons id rest ih =>
      let inv : Heap → Sys → Prop := fun heap' s' =>
        Stacked needs base Set.univ heap' s'
        ∧ (∀ other, other ≠ id → heap'.names other = heap.names other)
        ∧ ∀ name ∈ heap'.names id, name ∈ heap.names id
      simp only [ModuleLoader.unloadActive, ensures_bind]
      refine (unloadAll_ensures inv ?_ ⟨h, fun _ _ => rfl, fun _ listed => listed⟩).imp ?_
      · intro heap' s' choice front last successful current tracked
        obtain ⟨h, others, own⟩ := current
        have h := Stacked.undisturbed heap' s' choice.signal h
        have forgets := forgets_dropLast tracked
        obtain ⟨removed, h⟩ := h.remove_last closed trivial tracked (by
          intro other _ distinct user used
          rw [others other distinct] at used
          refine inOrder id other ?_ user used last.name (own _ forgets.member)
          rw [List.idxOf_cons_self, List.idxOf_cons_ne _ (Ne.symm distinct)]
          exact Nat.succ_pos _)
        refine ⟨_, _, exec_rmmod choice last.name, ?_⟩
        rw [successful, removed]
        refine ⟨h, fun other distinct => ?_, fun name listed => ?_⟩
        · rw [forgets.others other distinct, others other distinct]
        · exact own name ((forgets.sublist id).subset listed)
      · intro _ heap' s' finished
        obtain ⟨rfl, h, _, _⟩ := finished
        refine ih h (fun other owns => ?_) inOrder.tail
        have distinct : other ≠ id := by
          intro same
          rw [same, cleared_names_self] at owns
          exact owns rfl
        rw [modify_names_of_ne distinct] at owns
        exact (List.mem_cons.mp (covered other owns)).resolve_left distinct

/-- A loaded module that no list but one names. -/
structure OnlyHere (heap : Heap) (s : Sys) (id : Option LoaderId) (name : String) : Prop where
  loaded : name ∈ s.loaded
  elsewhere : ∀ other, some other ≠ id → name ∉ heap.names other

/-- `rmmod` of another module, or of one that is needed, changes nothing for this one. -/
theorem OnlyHere.popped {id : Option LoaderId} {name : String} (h : OnlyHere heap s id name)
    {loader : LoaderId} {front : List LoadedModule} {last : LoadedModule}
    (tracked : heap.tracked loader = front ++ [last]) (code : Int)
    (stays : last.name ≠ name ∨ ¬ Unneeded needs s.loaded name)
    : OnlyHere (heap.modify loader List.dropLast) (s.remove needs last.name code).2 id name := by
  have forgets := forgets_dropLast tracked
  refine ⟨?_, fun other distinct listed => ?_⟩
  · rcases remove_cases last.name code with ⟨_, _, unneeded, done⟩ | ⟨_, _, _, refused⟩
    · rw [done]
      refine Finset.mem_erase.mpr ⟨fun same => ?_, h.loaded⟩
      rcases stays with distinct | needed
      · exact distinct same.symm
      · exact needed (same ▸ unneeded)
    · rw [refused]
      exact h.loaded
  · exact h.elsewhere other distinct ((forgets.sublist other).subset listed)

theorem OnlyHere.delivered {id : Option LoaderId} {name : String} (h : OnlyHere heap s id name)
    (signal : Option Signal)
    : OnlyHere heap (s.deliver signal) id name := by
  refine ⟨?_, h.elsewhere⟩
  rw [deliver_loaded]
  exact h.loaded

variable {admits : Choice → Prop}

/-- A module no list names is not touched, by induction over the registry. -/
theorem unloadActive_leaves_untracked {name : String} {order : List LoaderId}
    (h : OnlyHere heap s none name)
    : Ensures (exec needs) admits (ModuleLoader.unloadActive order)
        (fun _ _ s' => name ∈ s'.loaded) heap s := by
  induction order generalizing heap s with
  | nil => exact h.loaded
  | cons id rest ih =>
      simp only [ModuleLoader.unloadActive, ensures_bind]
      refine (unloadAll_ensures (fun heap s => OnlyHere heap s none name) ?_ h).imp ?_
      · intro heap s choice front last _ h tracked
        refine ⟨_, _, exec_rmmod choice last.name, ?_⟩
        refine (h.delivered choice.signal).popped tracked _ (Or.inl (fun same => ?_))
        exact h.elsewhere id (Option.some_ne_none id) (same ▸ (forgets_dropLast tracked).member)
      · intro _ heap' s' finished
        exact ih finished.2

/-- A module that a later loader's module needs is refused and forgotten, by induction over
the registry up to its loader.
-/
theorem unloadActive_leaves_needed {user name : String} (needed : name ∈ needs user)
    {early late : LoaderId} {order : List LoaderId}
    (before : order.idxOf early < order.idxOf late)
    (using_ : OnlyHere heap s (some late) user) (used : OnlyHere heap s (some early) name)
    : Ensures (exec needs) admits (ModuleLoader.unloadActive order)
        (fun _ _ s' => name ∈ s'.loaded) heap s := by
  induction order generalizing heap s with
  | nil => exact absurd before (Nat.lt_irrefl _)
  | cons id rest ih =>
      have distinct : id ≠ late := by
        intro same
        rw [same, List.idxOf_cons_self] at before
        exact absurd before (Nat.not_lt_zero _)
      simp only [ModuleLoader.unloadActive, ensures_bind]
      refine (unloadAll_ensures
        (fun heap s => OnlyHere heap s (some late) user ∧ OnlyHere heap s (some early) name)
        ?_ ⟨using_, used⟩).imp ?_
      · intro heap s choice front last _ both tracked
        obtain ⟨using_, used⟩ := both
        refine ⟨_, _, exec_rmmod choice last.name, ?_, ?_⟩
        · refine (using_.delivered choice.signal).popped tracked _ (Or.inl (fun same => ?_))
          exact using_.elsewhere id (fun found => distinct (Option.some.inj found))
            (same ▸ (forgets_dropLast tracked).member)
        · refine (used.delivered choice.signal).popped tracked _ (Or.inr (fun unneeded => ?_))
          exact unneeded user (using_.delivered choice.signal).loaded needed
      · intro _ heap' s' finished
        obtain ⟨rfl, using_, used⟩ := finished
        by_cases here : id = early
        · subst here
          refine unloadActive_leaves_untracked ⟨used.loaded, fun other _ listed => ?_⟩
          by_cases same : other = id
          · rw [same, cleared_names_self] at listed
            cases listed
          · exact used.elsewhere other (fun found => same (Option.some.inj found)) listed
        · refine ih ?_ using_ used
          rw [List.idxOf_cons_ne _ here, List.idxOf_cons_ne _ distinct] at before
          exact Nat.lt_of_succ_lt_succ before

-----------------------------------------------------------------------------------------
-- The whole cleanup
-----------------------------------------------------------------------------------------

/-- The process only loads modules. -/
def LoadsOnly (_ : Process) (call : LoaderCall) (_ : List Choice) : Prop :=
  ∃ id path params, call = .load id path params

/-- What loading through any number of new loaders establishes. -/
def Loading (needs : String → List String) (base : Finset String) (heap : Heap) (s : Sys)
    : Prop :=
  Stacked needs base Set.univ heap s ∧ Exact heap s ∧ Registered heap

theorem loading_of_reaches {first p : Process} (closed : Closed needs first.sys.loaded)
    (empty : ∀ id, first.heap.tracked id = []) (unregistered : first.heap.activeLoaders = [])
    (unrecorded : first.sys.events = []) (reached : Process.Reaches needs LoadsOnly first p)
    : Loading needs first.sys.loaded p.heap p.sys := by
  have nameless : ∀ id, first.heap.names id = [] := by
    intro id
    rw [Heap.names, empty, List.map_nil]
  refine reaches_invariant (Loading needs first.sys.loaded) reached
    ⟨Stacked.start closed (fun id _ => nameless id), exact_start nameless unrecorded, ?_⟩ ?_
  · refine ⟨fun id owns => absurd (empty id) owns, fun id registered => ?_⟩
    rw [unregistered] at registered
    cases registered
  · intro p call choices admitted valid h
    obtain ⟨id, path, params, rfl⟩ := admitted
    refine ⟨fun _ => True, fun _ _ => trivial, trivial, ensures_bind.mpr ?_⟩
    refine load_ensures path params
      (Stacked.undisturbed.and (Exact.undisturbed.and (fun _ _ _ h => h))) ?_ h
    exact (Stacked.keptByInsmod (Set.mem_univ id) valid).and
      ((Exact.keptByInsmod valid).and (Registered.keptByInsmod valid))

/-- With a signal pending, the whole cleanup establishes what its walk establishes. -/
theorem cleanup_walks {p : Process} (pending : p.sys.signalReceived ≠ 0) {choices : List Choice}
    (successful : ∀ choice ∈ choices, choice.rmmodCode = 0) (post : Sys → Prop)
    (walked : ∀ s, s.loaded = p.sys.loaded
      → Ensures (exec needs) (fun choice => choice.rmmodCode = 0)
          (ModuleLoader.unloadActive p.heap.activeLoaders) (fun _ _ s => post s) p.heap s)
    : ∃ code heap s,
        (ModuleLoader.cleanupOnSignal.run p.heap).runAlone (exec needs) choices p.sys
          = .done (.error code, heap) s
        ∧ post s := by
  let inv : Sys → Prop := fun s => s.signalReceived ≠ 0 ∧ s.loaded = p.sys.loaded
  have undisturbed : ∀ s signal, inv s → inv (s.deliver signal) :=
    fun s signal h => ⟨deliver_pending h.1 signal, deliver_loaded.trans h.2⟩
  have verified : Ensures (exec needs) (fun choice => choice.rmmodCode = 0)
      ModuleLoader.cleanupOnSignal (fun out _ s => (∃ code, out = .error code) ∧ post s)
      p.heap p.sys := by
    refine cleanupOnSignal_ensures inv undisturbed ⟨pending, rfl⟩ ?_ ?_
    · intro s h none
      exact absurd none h.1
    · intro s code h
      exact (walked { s with signalReceived := 0 } h.2).imp
        (fun _ _ _ met => ⟨⟨code, rfl⟩, met⟩)
  obtain ⟨out, heap, s, ran, ⟨code, rfl⟩, met⟩ := verified.run successful rfl
  exact ⟨code, heap, s, ran, met⟩

/-- With a signal pending, the cleanup removes every module the loaders inserted exactly if
no module needs one of an earlier registered loader.
-/
theorem cleanup_removes_all_iff {first p : Process} (closed : Closed needs first.sys.loaded)
    (empty : ∀ id, first.heap.tracked id = []) (unregistered : first.heap.activeLoaders = [])
    (unrecorded : first.sys.events = []) (reached : Process.Reaches needs LoadsOnly first p)
    (pending : p.sys.signalReceived ≠ 0) {choices : List Choice}
    (successful : ∀ choice ∈ choices, choice.rmmodCode = 0)
    : ∃ code heap s,
        (ModuleLoader.cleanupOnSignal.run p.heap).runAlone (exec needs) choices p.sys
          = .done (.error code, heap) s
        ∧ ((∀ name ∈ inserted p.sys.events, name ∉ s.loaded)
          ↔ InOrder needs p.heap p.heap.activeLoaders) := by
  obtain ⟨stacked, exactly, registered⟩ :=
    loading_of_reaches closed empty unregistered unrecorded reached
  by_cases inOrder : InOrder needs p.heap p.heap.activeLoaders
  · obtain ⟨code, heap, s, ran, restored⟩ :=
      cleanup_walks pending successful (fun s => s.loaded = first.sys.loaded) (by
        intro s same
        refine unloadActive_restores closed (stacked.same_loaded same) (fun id owns => ?_)
          inOrder
        exact registered.owners id (fun none => owns (by rw [Heap.names, none, List.map_nil])))
    refine ⟨code, heap, s, ran, iff_of_true (fun name member => ?_) inOrder⟩
    rw [restored]
    exact stacked.fresh name ((exactly.tracked name).mpr member)
  · have crossing := inOrder
    unfold InOrder at crossing
    push Not at crossing
    obtain ⟨early, late, before, user, used, name, named, needed⟩ := crossing
    have onlyHere : ∀ id found, found ∈ p.heap.names id → ∀ s, s.loaded = p.sys.loaded
        → OnlyHere p.heap s (some id) found := by
      intro id found listed s same
      refine ⟨?_, fun other distinct there => distinct ?_⟩
      · rw [same]
        exact exactly.loaded found ⟨id, trivial, listed⟩
      · rw [stacked.owned.owner other trivial id trivial found there listed]
    obtain ⟨code, heap, s, ran, stays⟩ :=
      cleanup_walks pending successful (fun s => name ∈ s.loaded) (fun s same =>
        unloadActive_leaves_needed needed before (onlyHere late user used s same)
          (onlyHere early name named s same))
    refine ⟨code, heap, s, ran, iff_of_false (fun removed => ?_) inOrder⟩
    exact removed name ((exactly.tracked name).mp ⟨early, trivial, named⟩) stays

/-- Two loaders without modules. -/
def twoFresh : Process := ⟨⟨fun id => if id < 2 then some [] else none, []⟩, ⟨0, ∅, []⟩⟩

theorem twoFresh_empty (id : LoaderId) : twoFresh.heap.tracked id = [] := by
  simp only [twoFresh, Heap.tracked]
  split
  · rfl
  · rfl

/-- Loader 0 comes first and its second module needs one of loader 1. -/
theorem cleanup_removes_all_across_loaders
    : ∃ p code heap s,
        Process.Reaches needsA LoadsOnly twoFresh p
        ∧ (p.heap.names 0, p.heap.names 1) = (["x", "b"], ["a"])
        ∧ (ModuleLoader.cleanupOnSignal.run p.heap).runAlone (exec needsA) [] p.sys
          = .done (.error code, heap) s
        ∧ ((∀ name ∈ inserted p.sys.events, name ∉ s.loaded)
          ↔ InOrder needsA p.heap p.heap.activeLoaders) := by
  let list : List (LoaderCall × List Choice) := [
    (.load 0 "x.ko" "", []), (.load 1 "a.ko" "", []),
    (.load 0 "b.ko" "", [{ signal := some .sigint }])
  ]
  have shown : (calls needsA twoFresh list).map
      (fun p => (p.sys.signalReceived, p.heap.names 0, p.heap.names 1))
      = some (2, ["x", "b"], ["a"]) := by decide +kernel
  obtain ⟨p, ran, observed⟩ := Option.map_eq_some_iff.mp shown
  have reached : Process.Reaches needsA LoadsOnly twoFresh p := by
    refine calls_reaches .start ?_ ran
    intro entry member p
    simp only [list, List.mem_cons, List.not_mem_nil, or_false] at member
    rcases member with rfl | rfl | rfl
    · exact ⟨_, _, _, rfl⟩
    · exact ⟨_, _, _, rfl⟩
    · exact ⟨_, _, _, rfl⟩
  have pending : p.sys.signalReceived ≠ 0 := by
    have received : p.sys.signalReceived = 2 := congrArg Prod.fst observed
    rw [received]
    decide
  obtain ⟨code, heap, s, finished, removed⟩ := cleanup_removes_all_iff
    (fun item member => absurd member (Finset.notMem_empty item)) twoFresh_empty rfl rfl reached
    pending (fun choice member => absurd member List.not_mem_nil)
  exact ⟨p, code, heap, s, reached, congrArg Prod.snd observed, finished, removed⟩

/-- Loader 1 comes second and needs the module of loader 0, which stays loaded. -/
theorem cleanup_leaves_needed_module
    : ∃ p out s,
        Process.Reaches needsA LoadsOnly twoFresh p
        ∧ p.sys.signalReceived ≠ 0
        ∧ (ModuleLoader.cleanupOnSignal.run p.heap).runAlone (exec needsA) [] p.sys
          = .done out s
        ∧ ¬ ∀ name ∈ inserted p.sys.events, name ∉ s.loaded := by
  let list : List (LoaderCall × List Choice) := [
    (.load 0 "a.ko" "", []), (.load 1 "b.ko" "", [{ signal := some .sigint }])
  ]
  have shown : ((calls needsA twoFresh list).bind (fun p =>
      ((ModuleLoader.cleanupOnSignal.run p.heap).runAlone (exec needsA) [] p.sys).toOption.map
        (fun out => (p.sys.signalReceived, decide ("a" ∈ inserted p.sys.events),
          decide ("a" ∈ out.2.loaded))))) = some (2, true, true) := by decide +kernel
  obtain ⟨p, ran, later⟩ := Option.bind_eq_some_iff.mp shown
  obtain ⟨⟨out, s⟩, finished, observed⟩ := Option.map_eq_some_iff.mp later
  have reached : Process.Reaches needsA LoadsOnly twoFresh p := by
    refine calls_reaches .start ?_ ran
    intro entry member p
    simp only [list, List.mem_cons, List.not_mem_nil, or_false] at member
    rcases member with rfl | rfl
    · exact ⟨_, _, _, rfl⟩
    · exact ⟨_, _, _, rfl⟩
  have pending : p.sys.signalReceived ≠ 0 := by
    have received : p.sys.signalReceived = 2 := congrArg Prod.fst observed
    rw [received]
    decide
  have inside : decide ("a" ∈ inserted p.sys.events) = true :=
    congrArg (fun seen => seen.2.1) observed
  have stays : decide ("a" ∈ s.loaded) = true := congrArg (fun seen => seen.2.2) observed
  refine ⟨p, out, s, reached, pending, Outcome.eq_done finished, fun removed => ?_⟩
  exact removed "a" (of_decide_eq_true inside) (of_decide_eq_true stays)

end SafetyIsolation.Modules

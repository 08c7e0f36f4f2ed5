import SafetyIsolation.Modules.ScenarioRules
import SafetyIsolation.Modules.Unloading

/-! One scenario from its first to its last command. Teardown undoes a completed setup; a
setup that fails after its first `insmod` leaves the modules it has loaded.
-/

namespace SafetyIsolation.Modules

open SafetyIsolation.Dependencies SafetyIsolation.Interleaving SafetyIsolation.Interleaving.Prog
open SafetyIsolation.Harness SafetyIsolation.Text

/-- Which module files exist, how `insmod` ends for each and what each read of a proc file
brings.
-/
structure Inputs where
  found : Path → Bool
  insmodCode : Path → Int
  read : ReadPoint → Path → ReadOutcome

namespace Inputs

variable (inputs : Inputs) (needs : String → List String)

/-- The given part of a choice replaces the free one, and `rmmod` follows the kernel's rule. -/
def fix (choice : Choice) (op : SysOp) : Choice :=
  { choice with
    found := match op with
      | .fileExists path => inputs.found path
      | _ => choice.found
    insmodCode := match op with
      | .insmod path _ => inputs.insmodCode path
      | _ => choice.insmodCode
    rmmodCode := 0
    read := match op with
      | .readProc point path => inputs.read point path
      | _ => choice.read }

/-- The meaning of each operation in this environment. -/
def exec (choice : Choice) (op : SysOp) (s : Sys) : Outcome op.Res Sys :=
  Harness.exec needs (inputs.fix choice op) op s

/-- The file `load` finds. -/
def resolve (path : Path) : Option Path :=
  if inputs.found path then some path
  else if inputs.found (Path.join "/modules" path.filename) then
    some (Path.join "/modules" path.filename)
  else if inputs.found (Path.join "modules" path.filename) then
    some (Path.join "modules" path.filename)
  else none

/-- A module can be inserted when these are loaded. -/
def Accepts (loaded : Finset String) (path : Path) : Prop :=
  ∃ target, inputs.resolve path = some target ∧ inputs.insmodCode target = 0
    ∧ path.stem ∉ loaded ∧ ∀ need ∈ needs path.stem, need ∈ loaded

/-- Modules can be inserted one after the other. -/
def AcceptsAll (loaded : Finset String) : List Path → Prop
  | [] => True
  | path :: rest =>
      inputs.Accepts needs loaded path ∧ AcceptsAll (insert path.stem loaded) rest

end Inputs

section Paths

theorem filename_join {directory file : Path} (plain : '/' ∉ file.toList)
    : (Path.join directory file).filename = file := by
  have passes : ∀ letter ∈ file.toList.reverse, decide (letter ≠ '/') = true := by
    intro letter member
    exact decide_eq_true (fun same => plain (same ▸ List.mem_reverse.mp member))
  have reversed : (Path.join directory file).toList.reverse
      = file.toList.reverse ++ '/' :: directory.toList.reverse := by
    simp [Path.join]
  rw [Path.filename, reversed, List.takeWhile_append_of_pos passes]
  simp

theorem filename_plain (path : Path) : '/' ∉ path.filename.toList := by
  intro member
  rw [Path.filename, String.toList_ofList, List.mem_reverse] at member
  have passed := List.mem_takeWhile_imp member
  exact of_decide_eq_true passed rfl

/-- The fallback directories change nothing about the module's name. -/
theorem stem_join (directory path : Path)
    : (Path.join directory path.filename).stem = path.stem := by
  rw [Path.stem, filename_join (filename_plain path), Path.stem]

theorem stem_of_resolve {inputs : Inputs} {path target : Path}
    (found : inputs.resolve path = some target)
    : target.stem = path.stem := by
  unfold Inputs.resolve at found
  split at found
  · rw [Option.some.inj found]
  · split at found
    · rw [← Option.some.inj found, stem_join]
    · split at found
      · rw [← Option.some.inj found, stem_join]
      · cases found

end Paths

-----------------------------------------------------------------------------------------
-- Setup
-----------------------------------------------------------------------------------------

variable {inputs : Inputs} {needs : String → List String} {base : Finset String} {heap : Heap}
  {s : Sys} {id : LoaderId} {path : Path}

theorem exec_fileExists_given (choice : Choice) (file : Path)
    : inputs.exec needs choice (.fileExists file) s
      = .done (inputs.found file) (s.deliver choice.signal) := rfl

theorem exec_insmod_given (choice : Choice) (file : Path) (params : String)
    : inputs.exec needs choice (.insmod file params) s
      = .done ((s.deliver choice.signal).insert needs file params (inputs.insmodCode file)).1
          ((s.deliver choice.signal).insert needs file params (inputs.insmodCode file)).2 := rfl

theorem exec_readProc_given (choice : Choice) (point : ReadPoint) (file : Path)
    : inputs.exec needs choice (.readProc point file) s
      = .done (inputs.read point file) (s.deliver choice.signal) := rfl

theorem resolve_given
    : Ensures (inputs.exec needs) (fun _ => True) (ModuleLoader.resolve path)
        (fun found heap' s' =>
          found = inputs.resolve path ∧ heap' = heap ∧ s'.loaded = s.loaded) heap s := by
  simp only [ModuleLoader.resolve, ensures_bind, sys, ensures_perform]
  intro first _
  refine ⟨_, _, exec_fileExists_given first _, ?_⟩
  unfold Inputs.resolve
  split
  · exact ⟨rfl, rfl, deliver_loaded⟩
  · simp only [ensures_bind, ensures_perform]
    intro second _
    refine ⟨_, _, exec_fileExists_given second _, ?_⟩
    split
    · exact ⟨rfl, rfl, by simp only [deliver_loaded]⟩
    · simp only [ensures_bind, ensures_perform]
      intro third _
      refine ⟨_, _, exec_fileExists_given third _, ?_⟩
      split
      · exact ⟨rfl, rfl, by simp only [deliver_loaded]⟩
      · exact ⟨rfl, rfl, by simp only [deliver_loaded]⟩

/-- `load` of a module that is not tracked yet inserts it or changes nothing. -/
def LoadResult (inputs : Inputs) (needs : String → List String) (heap : Heap) (s : Sys)
    (id : LoaderId) (path : Path) (out : Except String Unit) (heap' : Heap) (s' : Sys)
    : Prop :=
  (inputs.Accepts needs s.loaded path ∧ out = .ok ()
    ∧ (∃ file, heap' = track heap id ⟨path.stem, file⟩)
    ∧ s'.loaded = insert path.stem s.loaded)
  ∨ (¬ inputs.Accepts needs s.loaded path ∧ (∃ message, out = .error message)
    ∧ heap' = heap ∧ s'.loaded = s.loaded)

theorem load_given {params : String} (untracked : path.stem ∉ heap.names id)
    : Ensures (inputs.exec needs) (fun _ => True) (ModuleLoader.load id path params)
        (LoadResult inputs needs heap s id path) heap s := by
  simp only [ModuleLoader.load, ensures_bind]
  refine resolve_given.imp ?_
  intro found heap' s' resolved
  obtain ⟨resolved, rfl, same⟩ := resolved
  cases found with
  | none =>
      refine Or.inr ⟨fun accepted => ?_, ⟨_, rfl⟩, rfl, same⟩
      obtain ⟨target, found, _⟩ := accepted
      rw [← resolved] at found
      cases found
  | some target =>
      have stem : target.stem = path.stem := stem_of_resolve resolved.symm
      simp only [ModuleLoader.loadFile, ModuleLoader.trackedModules, ensures_bind, ensures_get,
        ensures_pure]
      rw [if_neg (fun tracked => untracked (stem ▸ isLoaded_iff.mp tracked))]
      simp only [ensures_bind, sys, ensures_perform]
      intro choice _
      refine ⟨_, _, exec_insmod_given choice target params, ?_⟩
      have same : (s'.deliver choice.signal).loaded = s.loaded := deliver_loaded.trans same
      rcases insert_cases target params (inputs.insmodCode target) with
        ⟨code, absent, supplied, done⟩ | ⟨failure, failed, refused⟩
      · rw [done, if_neg (not_not.mpr rfl)]
        rw [same, stem] at absent supplied
        refine Or.inl ⟨⟨target, resolved.symm, code, absent, supplied⟩, rfl, ⟨target, ?_⟩, ?_⟩
        · rw [← stem]
          rfl
        · rw [← stem, ← same]
          rfl
      · rw [refused, if_pos failed]
        refine Or.inr ⟨fun accepted => failed ?_, ⟨_, rfl⟩, rfl, same⟩
        obtain ⟨found, located, code, absent, supplied⟩ := accepted
        rw [← resolved] at located
        cases located
        have inserted : ((s'.deliver choice.signal).insert needs target params
            (inputs.insmodCode target)).1 = 0 := by
          rw [Sys.insert, if_neg (not_not.mpr code), if_pos]
          rw [same, stem]
          exact ⟨absent, supplied⟩
        rwa [refused] at inserted

/-- What is known while one loader works over a base of loaded modules. -/
structure Working (needs : String → List String) (base : Finset String) (id : LoaderId)
    (heap : Heap) (s : Sys)
    : Prop where
  live : (heap.modules id).isSome
  stacked : Stacked needs base {id} heap s

namespace Working

theorem loaded_eq_base_iff (h : Working needs base id heap s)
    : s.loaded = base ↔ heap.names id = [] := by
  constructor
  · intro same
    refine List.eq_nil_iff_forall_not_mem.mpr (fun name listed => ?_)
    have tracked : Tracked {id} heap name := ⟨id, rfl, listed⟩
    exact h.stacked.fresh name tracked (same ▸ (h.stacked.loaded name).mpr (Or.inr tracked))
  · intro empty
    refine h.stacked.restored (fun other member => ?_)
    rw [Set.mem_singleton_iff.mp member, empty]

theorem robust : Robust needs (Working needs base id) id where
  undisturbed := fun heap s signal h => ⟨h.live, Stacked.undisturbed heap s signal h.stacked⟩
  published := fun _ _ _ h => ⟨h.live, h.stacked.same_loaded rfl⟩
  inserted := by
    intro heap s path params code h fresh
    refine ⟨?_, Stacked.keptByInsmod (Set.mem_singleton id) h.live s path params code h.stacked
      fresh⟩
    split
    · exact modify_isSome.trans h.live
    · exact h.live

theorem tracked (h : Working needs base id heap s) {s' : Sys} {file : Path}
    (accepted : inputs.Accepts needs s.loaded path)
    (inserted : s'.loaded = insert path.stem s.loaded)
    : Working needs base id (track heap id ⟨path.stem, file⟩) s' := by
  obtain ⟨_, _, _, absent, supplied⟩ := accepted
  exact ⟨modify_isSome.trans h.live, h.stacked.insmod rfl h.live absent supplied inserted⟩

end Working

/-- How far a list of loads gets: through it, or not at all if the first one fails. -/
structure Progress (inputs : Inputs) (needs : String → List String) (base : Finset String)
    (id : LoaderId) (heap : Heap) (s : Sys) (paths : List Path) (out : Except String Unit)
    (heap' : Heap) (s' : Sys)
    : Prop where
  working : Working needs base id heap' s'
  grown : heap.names id <+: heap'.names id
  through : out.isOk ↔ inputs.AcceptsAll needs s.loaded paths
  stuck : ∀ first ∈ paths.head?,
    heap'.names id = heap.names id ↔ ¬ inputs.Accepts needs s.loaded first

/-- A list of distinct modules is loaded up to the first that is not accepted, by induction
over the list.
-/
theorem loadEach_given {paths : List Path} (distinct : (paths.map Path.stem).Nodup)
    (untracked : ∀ path ∈ paths, path.stem ∉ heap.names id) (h : Working needs base id heap s)
    : Ensures (inputs.exec needs) (fun _ => True) (loadEach id paths)
        (Progress inputs needs base id heap s paths) heap s := by
  induction paths generalizing heap s with
  | nil => exact ⟨h, List.prefix_rfl, iff_of_true rfl trivial, by simp⟩
  | cons path rest ih =>
      obtain ⟨unique, distinct⟩ := List.nodup_cons.mp distinct
      simp only [loadEach, ensures_bind]
      refine (load_given (untracked path List.mem_cons_self)).imp ?_
      intro out heap' s' loaded
      rcases loaded with ⟨accepted, rfl, ⟨file, rfl⟩, inserted⟩ | ⟨rejected, ⟨_, rfl⟩, rfl, same⟩
      · have names : (track heap id ⟨path.stem, file⟩).names id = heap.names id ++ [path.stem] :=
          track_names_self h.live
        refine (ih distinct (fun other member listed => ?_) (h.tracked accepted inserted)).imp ?_
        · rw [names] at listed
          refine (List.mem_append.mp listed).elim
            (untracked other (List.mem_cons_of_mem _ member)) (fun last => ?_)
          exact unique (List.mem_map.mpr ⟨other, member, List.mem_singleton.mp last⟩)
        · intro out heap' s' progress
          have longer : heap.names id ++ [path.stem] <+: heap'.names id := names ▸ progress.grown
          refine ⟨progress.working, (List.prefix_append _ _).trans longer, ?_, ?_⟩
          · rw [progress.through, Inputs.AcceptsAll, and_iff_right accepted, inserted]
          · intro first head
            cases head
            refine iff_of_false (fun same => ?_) (not_not.mpr accepted)
            have short := longer.length_le
            rw [same, List.length_append] at short
            exact absurd short (by simp)
      · refine ⟨⟨h.live, h.stacked.same_loaded same⟩, List.prefix_rfl, ?_, ?_⟩
        · exact iff_of_false Bool.false_ne_true (fun all => rejected all.1)
        · intro first head
          cases head
          exact iff_of_true rfl rejected

/-- The modules each `setup` loads. -/
def setupModules : ScenarioId → List Path
  | .b => mutexModules
  | .d => ScenarioD.modules
  | .e => ScenarioE.modules
  | .f => ScenarioF.modules
  | .g => mutexModules

/-- The check that F makes on the status before it goes on. -/
def Inputs.checked (inputs : Inputs) : ScenarioId → Bool
  | .f => ScenarioF.targetMappingIsRo
      ((inputs.read .setup Demo.safetyMemStatus).result Demo.safetyMemStatus)
  | .b => true
  | .d => true
  | .e => true
  | .g => true

/-- Setup goes through. -/
def Inputs.Ready (inputs : Inputs) (needs : String → List String) (loaded : Finset String)
    (scenario : ScenarioId)
    : Prop :=
  inputs.AcceptsAll needs loaded (setupModules scenario) ∧ inputs.checked scenario = true

/-- The module every scenario loads first. -/
def firstModule : Path := "modules/ctx_monitor.ko"

theorem setupModules_head (scenario : ScenarioId)
    : (setupModules scenario).head? = some firstModule := by
  cases scenario <;> rfl

theorem setupModules_distinct (scenario : ScenarioId)
    : ((setupModules scenario).map Path.stem).Nodup := by
  cases scenario <;> decide +kernel

/-- How a setup ends. -/
structure SetUp (inputs : Inputs) (needs : String → List String) (base : Finset String)
    (id : LoaderId) (scenario : ScenarioId) (out : Except String Unit) (heap : Heap) (s : Sys)
    : Prop where
  working : Working needs base id heap s
  ready : out.isOk ↔ inputs.Ready needs base scenario
  stuck : heap.names id = [] ↔ ¬ inputs.Accepts needs base firstModule

/-- Each setup loads its modules in order, and F also checks what it has read. -/
theorem setup_given (scenario : ScenarioId) (h : Working needs base id heap s)
    (empty : heap.names id = [])
    : Ensures (inputs.exec needs) (fun _ => True) (scenario.scenario.setup id)
        (SetUp inputs needs base id scenario) heap s := by
  have untouched : s.loaded = base := h.loaded_eq_base_iff.mpr empty
  have loading : Ensures (inputs.exec needs) (fun _ => True) (loadEach id (setupModules scenario))
      (fun out heap s =>
        Working needs base id heap s
        ∧ (out.isOk ↔ inputs.AcceptsAll needs base (setupModules scenario))
        ∧ (heap.names id = [] ↔ ¬ inputs.Accepts needs base firstModule)) heap s := by
    refine (loadEach_given (setupModules_distinct scenario) (fun path _ listed => ?_) h).imp ?_
    · rw [empty] at listed
      cases listed
    · intro out heap' s' progress
      have stuck := progress.stuck firstModule (setupModules_head scenario)
      rw [empty, untouched] at stuck
      exact ⟨progress.working, untouched ▸ progress.through, stuck⟩
  -- Without a check of its own, a scenario is ready once its modules are loaded.
  have unchecked : inputs.checked scenario = true → ∀ out heap s,
      (Working needs base id heap s
        ∧ (out.isOk ↔ inputs.AcceptsAll needs base (setupModules scenario))
        ∧ (heap.names id = [] ↔ ¬ inputs.Accepts needs base firstModule))
      → SetUp inputs needs base id scenario out heap s :=
    fun checked out heap s loaded =>
      ⟨loaded.1, loaded.2.1.trans (and_iff_left checked).symm, loaded.2.2⟩
  cases scenario with
  | b => exact loading.imp (unchecked rfl)
  | d =>
      refine ensures_bind.mpr (loading.imp ?_)
      intro out heap s loaded
      cases out with
      | error message => exact unchecked rfl (.error message) heap s loaded
      | ok done =>
          refine ensures_bind.mpr (fun choice _ => ⟨(), _, rfl, ?_⟩)
          exact unchecked rfl (.ok ()) heap _
            ⟨Working.robust.undisturbed heap s choice.signal loaded.1, loaded.2⟩
  | e => exact loading.imp (unchecked rfl)
  | f =>
      refine ensures_bind.mpr (loading.imp ?_)
      intro out heap s loaded
      obtain ⟨working, through, stuck⟩ := loaded
      cases out with
      | error message =>
          refine ⟨working, iff_of_false Bool.false_ne_true (fun ready => ?_), stuck⟩
          exact absurd (through.mpr ready.1) Bool.false_ne_true
      | ok done =>
          refine ensures_bind.mpr (fun choice _ => ⟨(), _, rfl, ?_⟩)
          simp only [readProc, ensures_bind, sys, ensures_perform, ensures_pure]
          intro reading _
          refine ⟨_, _, exec_readProc_given reading _ _, ?_⟩
          have working := Working.robust.undisturbed heap _ reading.signal
            (Working.robust.undisturbed heap s choice.signal working)
          split
          · rename_i checked
            exact ⟨working, iff_of_true rfl ⟨through.mp rfl, checked⟩, stuck⟩
          · rename_i unverified
            exact ⟨working, iff_of_false Bool.false_ne_true (fun ready => unverified ready.2),
              stuck⟩
  | g => exact loading.imp (unchecked rfl)

-----------------------------------------------------------------------------------------
-- The whole run
-----------------------------------------------------------------------------------------

/-- What holds for every environment with the kernel's rule for `rmmod` holds here. -/
theorem ensures_given {α : Type} {code : Code α} {post : α → Heap → Sys → Prop}
    (h : Ensures (Harness.exec needs) (fun choice => choice.rmmodCode = 0) code post heap s)
    : Ensures (inputs.exec needs) (fun _ => True) code post heap s :=
  h.specialize (fun choice op _ _ => ⟨inputs.fix choice op, rfl, rfl⟩)

theorem teardown_restores (scenario : ScenarioId) (closed : Closed needs base)
    (h : Working needs base id heap s)
    : Ensures (Harness.exec needs) (fun choice => choice.rmmodCode = 0)
        (scenario.scenario.teardown id) (fun _ _ s => s.loaded = base) heap s := by
  have unloaded := (h.stacked.unloadAll closed).imp (fun _ _ _ finished => finished.2)
  cases scenario with
  | b => exact unloaded
  | d => exact unloaded
  | e => exact unloaded
  | f => exact unloaded
  | g => exact unloaded

/-- The condition under which a scenario leaves the module list as it found it: its first
module is refused, or its setup goes through.
-/
def Inputs.Restores (inputs : Inputs) (needs : String → List String) (loaded : Finset String)
    (scenario : ScenarioId)
    : Prop :=
  ¬ inputs.Accepts needs loaded firstModule ∨ inputs.Ready needs loaded scenario

/-- A failed setup keeps what it has loaded; after a completed one, teardown restores the
module list whatever the action does.
-/
theorem lifecycle_given (scenario : ScenarioId) (closed : Closed needs base)
    (h : Working needs base id heap s) (empty : heap.names id = []) (text : String)
    : Ensures (inputs.exec needs) (fun _ => True)
        (ScenarioRunner.lifecycle scenario.scenario id text)
        (fun _ _ s => s.loaded = base ↔ inputs.Restores needs base scenario) heap s := by
  have robust : Robust needs (Working needs base id) id := Working.robust
  simp only [ScenarioRunner.lifecycle, ensures_bind]
  have publishing : Keeps (Harness.exec needs) (fun choice => choice.rmmodCode = 0)
      (fun heap' s => heap' = heap ∧ Working needs base id heap s)
      (ScenarioRunner.publishState text scenario.scenario.name .setup [] []) :=
    publishState_keeps (fun _ s signal h => ⟨h.1, robust.undisturbed heap s signal h.2⟩)
      (fun _ s content h => ⟨h.1, robust.published heap s content h.2⟩) _ _ _ _ _
  refine (ensures_given (publishing heap s ⟨rfl, h⟩)).imp ?_
  intro _ heap' s' current
  obtain ⟨rfl, h⟩ := current
  refine (setup_given scenario h empty).imp ?_
  intro out heap s finished
  obtain ⟨h, ready, stuck⟩ := finished
  cases out with
  | error message =>
      have unready : ¬ inputs.Ready needs base scenario :=
        fun all => Bool.false_ne_true (ready.mpr all)
      exact h.loaded_eq_base_iff.trans (stuck.trans (or_iff_left unready).symm)
  | ok done =>
      have restored : inputs.Restores needs base scenario := Or.inr (ready.mp rfl)
      refine ensures_given ?_
      refine ensures_bind.mpr ((robust.readStatus _ heap s h).imp fun _ heap s h => ?_)
      refine ensures_bind.mpr ((robust.publishState _ _ _ _ _ heap s h).imp fun _ heap s h => ?_)
      refine ensures_bind.mpr ((robust.run scenario heap s h).imp fun _ heap s h => ?_)
      refine ensures_bind.mpr ((robust.readStatus _ heap s h).imp fun _ heap s h => ?_)
      refine ensures_bind.mpr ((robust.publishState _ _ _ _ _ heap s h).imp fun _ heap s h => ?_)
      refine ensures_bind.mpr ((teardown_restores scenario closed h).imp fun _ _ s same => ?_)
      exact iff_of_true same restored

/-- A run that is not ended by a signal goes through the lifecycle with an unchanged module
list.
-/
theorem run_given (scenario : ScenarioId) (closed : Closed needs base)
    (h : Working needs base id heap s) (empty : heap.names id = []) (text : String)
    : Ensures (inputs.exec needs) (fun _ => True)
        (ScenarioRunner.run scenario.scenario id text)
        (fun out _ s => ∀ result, out = .ok result
          → (s.loaded = base ↔ inputs.Restores needs base scenario)) heap s := by
  simp only [ScenarioRunner.run, ensures_bind, sys, ensures_perform]
  intro choice _
  refine ⟨(), _, rfl, ?_⟩
  have h : Working needs base id heap ((s.deliver choice.signal).record (.entered text)) :=
    ⟨h.live, h.stacked.same_loaded deliver_loaded⟩
  have cleaned : Ensures (Harness.exec needs) (fun choice => choice.rmmodCode = 0)
      ModuleLoader.cleanupOnSignal
      (fun out heap' s => out = .ok () → heap' = heap ∧ Working needs base id heap s)
      heap ((s.deliver choice.signal).record (.entered text)) := by
    refine cleanupOnSignal_ensures (Working needs base id heap)
      (Working.robust.undisturbed heap) h (fun s h _ _ => ⟨rfl, h⟩) (fun s code _ => ?_)
    exact (Always.completes exec_total _).imp (fun _ _ _ failed => by cases failed)
  refine (ensures_given cleaned).imp ?_
  intro out heap' s' proceeds
  cases out with
  | error code =>
      intro result returned
      cases returned
  | ok done =>
      obtain ⟨rfl, h⟩ := proceeds rfl
      simp only [ensures_bind, ensures_perform]
      intro choice _
      refine ⟨(), _, rfl, ?_⟩
      have h : Working needs base id heap' ((s'.deliver choice.signal).record (.started text)) :=
        ⟨h.live, h.stacked.same_loaded deliver_loaded⟩
      exact (lifecycle_given scenario closed h empty text).imp (fun _ _ _ iff _ _ => iff)

/-- For each scenario and every pattern of failures, a run that returns leaves the module
list as it found it exactly if the first module was refused or setup went through, and
without a signal it returns.
-/
theorem run_restores_iff (scenario : ScenarioId) (inputs : Inputs)
    (closed : Closed needs s.loaded) (constructed : heap.modules id = some []) (text : String)
    (choices : List Choice)
    : ∃ out heap' s',
        ((ScenarioRunner.run scenario.scenario id text).run heap).runAlone
            (inputs.exec needs) choices s
          = .done (out, heap') s'
        ∧ (∀ result, out = .ok result
          → (s'.loaded = s.loaded ↔ inputs.Restores needs s.loaded scenario))
        ∧ (s.signalReceived = 0 → (∀ choice ∈ choices, choice.signal = none)
          → ∃ result, out = .ok result) := by
  have empty : heap.names id = [] := by
    rw [Heap.names, Heap.tracked, constructed]
    rfl
  have working : Working needs s.loaded id heap s := by
    refine ⟨by rw [constructed]; rfl, Stacked.start closed (fun other member => ?_)⟩
    rw [Set.mem_singleton_iff.mp member, empty]
  obtain ⟨out, heap', s', ran, restores⟩ :=
    (run_given scenario closed working empty text).run (fun _ _ => trivial) trivial
  refine ⟨out, heap', s', ran, restores, fun quiet silent => ?_⟩
  have returns : Ensures (inputs.exec needs) (fun choice => choice.signal = none) _ _ heap s :=
    (run_returns scenario.scenario id text quiet).specialize
      (fun choice op _ silent => ⟨inputs.fix choice op, silent, rfl⟩)
  obtain ⟨out', _, _, ran', returned⟩ := returns.run silent rfl
  cases ran.symm.trans ran'
  exact returned.1

/-- Every file exists and can be read, and `insmod` fails for one of them. -/
def failingAt (path : Path) : Inputs where
  found := fun _ => true
  insmodCode := fun file => if file = path then 1 else 0
  read := fun _ _ => .content []

/-- A process with one loader on a machine without modules. -/
def freshLoader : Process := ⟨⟨fun id => if id = 0 then some [] else none, []⟩, ⟨0, ∅, []⟩⟩

theorem run_restores_scenarioB
    : ∃ result heap s,
        ((ScenarioRunner.run ScenarioId.b.scenario 0 "B").run freshLoader.heap).runAlone
            ((failingAt "other.ko").exec (fun _ => [])) [] freshLoader.sys
          = .done (.ok result, heap) s
        ∧ s.loaded = ∅ := by
  obtain ⟨out, heap, s, ran, restores, returns⟩ :=
    @run_restores_iff (fun _ => []) freshLoader.heap freshLoader.sys 0 .b (failingAt "other.ko")
      (fun item member => absurd member (Finset.notMem_empty item)) rfl "B" []
  obtain ⟨result, rfl⟩ := returns rfl (fun _ member => absurd member List.not_mem_nil)
  refine ⟨result, heap, s, ran, (restores result rfl).mpr (Or.inr ⟨?_, rfl⟩)⟩
  have accepts : ∀ loaded (path : Path), path.stem ∉ loaded → path ≠ "other.ko"
      → (failingAt "other.ko").Accepts (fun _ => []) loaded path :=
    fun loaded path absent distinct =>
      ⟨path, if_pos rfl, if_neg distinct, absent, fun _ member => absurd member List.not_mem_nil⟩
  refine ⟨accepts _ _ ?_ ?_, accepts _ _ ?_ ?_, accepts _ _ ?_ ?_, trivial⟩ <;> decide +kernel

/-- Scenario B returns after `insmod safety_mem` has failed and leaves `ctx_monitor` loaded. -/
theorem run_leaves_module_after_failed_setup
    : ∃ result heap s,
        ((ScenarioRunner.run ScenarioId.b.scenario 0 "B").run freshLoader.heap).runAlone
            ((failingAt "modules/safety_mem.ko").exec (fun _ => [])) [] freshLoader.sys
          = .done (.ok result, heap) s
        ∧ result.status = .error
        ∧ s.loaded ≠ freshLoader.sys.loaded := by
  have shown : (((ScenarioRunner.run ScenarioId.b.scenario 0 "B").run
      freshLoader.heap).runAlone ((failingAt "modules/safety_mem.ko").exec (fun _ => [])) []
      freshLoader.sys).toOption.map
      (fun out => (out.1.1.toOption.map (·.status), decide ("ctx_monitor" ∈ out.2.loaded)))
      = some (some .error, true) := by decide +kernel
  obtain ⟨⟨⟨out, heap⟩, s⟩, ran, observed⟩ := Option.map_eq_some_iff.mp shown
  have status : out.toOption.map (·.status) = some .error := congrArg Prod.fst observed
  have loaded : decide ("ctx_monitor" ∈ s.loaded) = true := congrArg Prod.snd observed
  cases out with
  | error code => cases status
  | ok result =>
      refine ⟨result, heap, s, Outcome.eq_done ran, Option.some.inj status, fun same => ?_⟩
      rw [same] at loaded
      exact absurd (of_decide_eq_true loaded) (Finset.notMem_empty _)

end SafetyIsolation.Modules

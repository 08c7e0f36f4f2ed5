import SafetyIsolation.Harness.LoaderCalls
import SafetyIsolation.Interleaving.Alone
import Mathlib.Logic.Equiv.Basic

/-! One rule for each operation of a loader. A caller states what a single `insmod` or
`rmmod` does to its property; the rules carry that through the code around the command.
-/

namespace SafetyIsolation.Modules

open SafetyIsolation.Interleaving SafetyIsolation.Interleaving.Prog SafetyIsolation.Harness

-----------------------------------------------------------------------------------------
-- The heap of loaders
-----------------------------------------------------------------------------------------

/-- What a successful `load` leaves in the heap. -/
def track (heap : Heap) (id : LoaderId) (mod : LoadedModule) : Heap :=
  { heap.modify id (· ++ [mod]) with activeLoaders := heap.activeLoaders ++ [id] }

section Heap

variable {heap : Heap} {id other : LoaderId} {f : List LoadedModule → List LoadedModule}

@[simp] theorem modify_activeLoaders
    : (heap.modify id f).activeLoaders = heap.activeLoaders := rfl

theorem modify_modules_self : (heap.modify id f).modules id = (heap.modules id).map f := by
  simp only [Heap.modify, Function.update_self]

theorem modify_modules_of_ne (distinct : other ≠ id)
    : (heap.modify id f).modules other = heap.modules other := by
  simp only [Heap.modify, Function.update_of_ne distinct]

theorem modify_isSome
    : ((heap.modify id f).modules other).isSome = (heap.modules other).isSome := by
  by_cases same : other = id
  · subst same
    rw [modify_modules_self, Option.isSome_map]
  · rw [modify_modules_of_ne same]

theorem modify_tracked_self (live : (heap.modules id).isSome)
    : (heap.modify id f).tracked id = f (heap.tracked id) := by
  obtain ⟨modules, found⟩ := Option.isSome_iff_exists.mp live
  simp only [Heap.tracked, modify_modules_self, found, Option.map_some, Option.getD_some]

theorem modify_tracked_of_ne (distinct : other ≠ id)
    : (heap.modify id f).tracked other = heap.tracked other := by
  simp only [Heap.tracked, modify_modules_of_ne distinct]

/-- An operation that keeps the empty list empty needs no live loader. -/
theorem modify_tracked_of_nil (empty : f [] = [])
    : (heap.modify id f).tracked id = f (heap.tracked id) := by
  cases found : heap.modules id with
  | none => simp only [Heap.tracked, modify_modules_self, found, Option.map_none,
      Option.getD_none, empty]
  | some modules => exact modify_tracked_self (by simp only [found, Option.isSome_some])

theorem modify_names_of_ne (distinct : other ≠ id)
    : (heap.modify id f).names other = heap.names other := by
  simp only [Heap.names, modify_tracked_of_ne distinct]

theorem modify_modify {g : List LoadedModule → List LoadedModule}
    : (heap.modify id f).modify id g = heap.modify id (g ∘ f) := by
  simp only [Heap.modify, Function.update_self, Function.update_idem, Option.map_map]

/-- Clearing a list that is empty changes nothing. -/
theorem modify_clear_of_empty (empty : heap.tracked id = [])
    : heap.modify id (fun _ => []) = heap := by
  have same : (heap.modules id).map (fun _ => []) = heap.modules id := by
    cases found : heap.modules id with
    | none => rfl
    | some modules =>
        have none : modules = [] := by
          simpa only [Heap.tracked, found, Option.getD_some] using empty
        rw [none, Option.map_some]
  simp only [Heap.modify, same, Function.update_eq_self]

theorem track_tracked_self (live : (heap.modules id).isSome) {mod : LoadedModule}
    : (track heap id mod).tracked id = heap.tracked id ++ [mod] :=
  modify_tracked_self live

theorem track_names_self (live : (heap.modules id).isSome) {name : String} {path : Path}
    : (track heap id ⟨name, path⟩).names id = heap.names id ++ [name] := by
  simp only [Heap.names, track_tracked_self live, List.map_append, List.map_cons, List.map_nil]

theorem track_names_of_ne (distinct : other ≠ id) {mod : LoadedModule}
    : (track heap id mod).names other = heap.names other :=
  modify_names_of_ne distinct

theorem isLoaded_iff {modules : List LoadedModule} {name : String}
    : ModuleLoader.isLoaded modules name = true ↔ name ∈ modules.map LoadedModule.name := by
  simp only [ModuleLoader.isLoaded, List.any_eq_true, decide_eq_true_eq, List.mem_map]

/-- Replace the object at an address, which also starts and ends lifetimes. -/
def place (heap : Heap) (id : LoaderId) (object : Option (List LoadedModule)) : Heap :=
  { heap with modules := Function.update heap.modules id object }

theorem place_names_of_ne (distinct : other ≠ id) {object : Option (List LoadedModule)}
    : (place heap id object).names other = heap.names other := by
  simp only [Heap.names, Heap.tracked, place, Function.update_of_ne distinct]

theorem place_names_self {object : Option (List LoadedModule)}
    : (place heap id object).names id = (object.getD []).map LoadedModule.name := by
  simp only [Heap.names, Heap.tracked, place, Function.update_self]

/-- An object without modules comes or goes unnoticed. -/
theorem place_names_of_empty (empty : heap.names id = []) {object : Option (List LoadedModule)}
    (nothing : object.getD [] = [])
    : (place heap id object).names other = heap.names other := by
  by_cases same : other = id
  · subst same
    rw [place_names_self, nothing, empty, List.map_nil]
  · exact place_names_of_ne same

/-- After a move the two loaders have exchanged their lists, if the target had none. -/
theorem moved_names {heap' : Heap} (empty : heap.names id = [])
    (target : heap'.names id = heap.names other) (source : heap'.names other = [])
    (rest : ∀ k, k ≠ id → k ≠ other → heap'.names k = heap.names k) (k : LoaderId)
    : heap'.names k = heap.names (Equiv.swap id other k) := by
  by_cases first : k = id
  · rw [first, target, Equiv.swap_apply_left]
  · by_cases second : k = other
    · rw [second, source, Equiv.swap_apply_right, empty]
    · rw [rest k first second, Equiv.swap_apply_of_ne_of_ne first second]

theorem cleared_names_self : (heap.modify id (fun _ => [])).names id = [] := by
  rw [Heap.names, modify_tracked_of_nil rfl, List.map_nil]

/-- One entry of one loader is gone. -/
structure Forgets (heap heap' : Heap) (id : LoaderId) (name : String) : Prop where
  split : ∃ front back, heap.names id = front ++ name :: back ∧ heap'.names id = front ++ back
  others : ∀ other, other ≠ id → heap'.names other = heap.names other

theorem eraseLast_split {modules : List LoadedModule} {name : String}
    (member : name ∈ modules.map LoadedModule.name)
    : ∃ front mod back,
        modules = front ++ mod :: back
        ∧ mod.name = name
        ∧ ModuleLoader.eraseLast modules name = front ++ back := by
  obtain ⟨found, present, named⟩ := List.mem_map.mp member
  obtain ⟨mod, back, front, _, same, split, erased⟩ :=
    List.exists_of_eraseP (p := fun mod => decide (mod.name = name))
      (List.mem_reverse.mpr present) (decide_eq_true named)
  refine ⟨front.reverse, mod, back.reverse, ?_, of_decide_eq_true same, ?_⟩
  · rw [← List.reverse_reverse modules, split, List.reverse_append, List.reverse_cons,
      List.append_assoc, List.singleton_append]
  · rw [ModuleLoader.eraseLast, erased, List.reverse_append]

theorem forgets_eraseLast {name : String} (member : name ∈ heap.names id)
    : Forgets heap (heap.modify id (ModuleLoader.eraseLast · name)) id name where
  split := by
    obtain ⟨front, mod, back, split, rfl, erased⟩ := eraseLast_split member
    refine ⟨front.map LoadedModule.name, back.map LoadedModule.name, ?_, ?_⟩
    · rw [Heap.names, split, List.map_append, List.map_cons]
    · rw [Heap.names, modify_tracked_of_nil rfl, erased, List.map_append]
  others := fun _ distinct => modify_names_of_ne distinct

theorem forgets_dropLast {front : List LoadedModule} {last : LoadedModule}
    (tracked : heap.tracked id = front ++ [last])
    : Forgets heap (heap.modify id List.dropLast) id last.name where
  split := by
    refine ⟨front.map LoadedModule.name, [], ?_, ?_⟩
    · rw [Heap.names, tracked, List.map_append, List.map_singleton]
    · rw [Heap.names, modify_tracked_of_nil rfl, tracked, List.dropLast_concat, List.append_nil]
  others := fun _ distinct => modify_names_of_ne distinct

end Heap

-----------------------------------------------------------------------------------------
-- Commands
-----------------------------------------------------------------------------------------

/-- A property of the process that a signal does not touch. -/
def Undisturbed (inv : Heap → Sys → Prop) : Prop :=
  ∀ heap s signal, inv heap s → inv heap (s.deliver signal)

theorem Undisturbed.and {inv also : Heap → Sys → Prop} (left : Undisturbed inv)
    (right : Undisturbed also)
    : Undisturbed (fun heap s => inv heap s ∧ also heap s) :=
  fun heap s signal both => ⟨left heap s signal both.1, right heap s signal both.2⟩

section Commands

variable {needs : String → List String} {s : Sys}

@[simp] theorem deliver_loaded {signal : Option Signal}
    : (s.deliver signal).loaded = s.loaded := by
  cases signal with
  | none => rfl
  | some signal => rfl

/-- `insmod` takes effect, or fails and leaves the kernel alone. -/
theorem insert_cases (path : Path) (params : String) (code : Int)
    : (code = 0
        ∧ path.stem ∉ s.loaded
        ∧ (∀ need ∈ needs path.stem, need ∈ s.loaded)
        ∧ s.insert needs path params code
          = (0, { s with loaded := insert path.stem s.loaded }.record (.insmod path params 0)))
      ∨ (∃ failure ≠ 0,
        s.insert needs path params code = (failure, s.record (.insmod path params failure))) := by
  unfold Sys.insert
  split
  · rename_i failed
    exact Or.inr ⟨code, failed, rfl⟩
  · rename_i done
    split
    · rename_i accepted
      exact Or.inl ⟨not_not.mp done, accepted.1, accepted.2, rfl⟩
    · exact Or.inr ⟨Sys.refused, by decide, rfl⟩

/-- `rmmod` takes effect, or fails and leaves the kernel alone: by itself, or because the
module is not loaded or is needed.
-/
theorem remove_cases (name : String) (code : Int)
    : (code = 0
        ∧ name ∈ s.loaded
        ∧ (∀ user ∈ s.loaded, name ∉ needs user)
        ∧ s.remove needs name code
          = (0, { s with loaded := s.loaded.erase name }.record (.rmmod name 0)))
      ∨ (∃ failure ≠ 0,
        (code = 0 → ¬ (name ∈ s.loaded ∧ ∀ user ∈ s.loaded, name ∉ needs user))
        ∧ s.remove needs name code = (failure, s.record (.rmmod name failure))) := by
  unfold Sys.remove
  split
  · rename_i failed
    exact Or.inr ⟨code, failed, fun done => absurd done failed, rfl⟩
  · rename_i done
    split
    · rename_i accepted
      exact Or.inl ⟨not_not.mp done, accepted.1, accepted.2, rfl⟩
    · rename_i rejected
      exact Or.inr ⟨Sys.refused, by decide, fun _ => rejected, rfl⟩

theorem exec_insmod (choice : Choice) (path : Path) (params : String)
    : exec needs choice (.insmod path params) s
      = .done ((s.deliver choice.signal).insert needs path params choice.insmodCode).1
          ((s.deliver choice.signal).insert needs path params choice.insmodCode).2 := rfl

theorem exec_rmmod (choice : Choice) (name : String)
    : exec needs choice (.rmmod name) s
      = .done ((s.deliver choice.signal).remove needs name choice.rmmodCode).1
          ((s.deliver choice.signal).remove needs name choice.rmmodCode).2 := rfl

/-- No operation waits or traps. -/
theorem exec_total (choice : Choice) (op : SysOp) (s : Sys)
    : ∃ result s', exec needs choice op s = .done result s' := by
  cases op <;> exact ⟨_, _, rfl⟩

end Commands

-----------------------------------------------------------------------------------------
-- Loaders
-----------------------------------------------------------------------------------------

section Rules

variable {needs : String → List String} {admits : Choice → Prop} {heap : Heap} {s : Sys}
  {inv : Heap → Sys → Prop} {id other : LoaderId}

theorem resolve_ensures (path : Path) (undisturbed : Undisturbed inv) (h : inv heap s)
    : Ensures (exec needs) admits (ModuleLoader.resolve path)
        (fun _ heap' s' => heap' = heap ∧ inv heap s') heap s := by
  simp only [ModuleLoader.resolve, ensures_bind, sys, ensures_perform]
  intro first _
  refine ⟨_, _, rfl, ?_⟩
  have h := undisturbed _ _ first.signal h
  split
  · exact ⟨rfl, h⟩
  · simp only [ensures_bind, ensures_perform]
    intro second _
    refine ⟨_, _, rfl, ?_⟩
    have h := undisturbed _ _ second.signal h
    split
    · exact ⟨rfl, h⟩
    · simp only [ensures_bind, ensures_perform]
      intro third _
      refine ⟨_, _, rfl, ?_⟩
      have h := undisturbed _ _ third.signal h
      split
      · exact ⟨rfl, h⟩
      · exact ⟨rfl, h⟩

/-- What one `insmod` issued by `load` must preserve. -/
def KeptByInsmod (needs : String → List String) (inv : Heap → Sys → Prop) (heap : Heap)
    (id : LoaderId)
    : Prop :=
  ∀ s path params code, inv heap s → path.stem ∉ heap.names id
    → inv
        (if (s.insert needs path params code).1 = 0 then track heap id ⟨path.stem, path⟩
          else heap)
        (s.insert needs path params code).2

theorem KeptByInsmod.and {also : Heap → Sys → Prop} (left : KeptByInsmod needs inv heap id)
    (right : KeptByInsmod needs also heap id)
    : KeptByInsmod needs (fun heap s => inv heap s ∧ also heap s) heap id :=
  fun s path params code both fresh =>
    ⟨left s path params code both.1 fresh, right s path params code both.2 fresh⟩

theorem load_ensures (path : Path) (params : String) (undisturbed : Undisturbed inv)
    (kept : KeptByInsmod needs inv heap id) (h : inv heap s)
    : Ensures (exec needs) admits (ModuleLoader.load id path params)
        (fun _ heap s => inv heap s) heap s := by
  simp only [ModuleLoader.load, ensures_bind]
  refine (resolve_ensures path undisturbed h).imp ?_
  intro found heap' s' resolved
  obtain ⟨rfl, h⟩ := resolved
  cases found with
  | none => exact h
  | some target =>
      simp only [ModuleLoader.loadFile, ModuleLoader.trackedModules, ensures_bind, ensures_get,
        ensures_pure]
      split
      · exact h
      · rename_i untracked
        simp only [ensures_bind, sys, ensures_perform]
        intro choice _
        refine ⟨_, _, exec_insmod choice target params, ?_⟩
        have fresh : target.stem ∉ heap'.names id :=
          fun member => untracked (isLoaded_iff.mpr member)
        have h := kept _ target params choice.insmodCode
          (undisturbed _ _ choice.signal h) fresh
        split
        · rename_i failed
          rwa [if_neg failed] at h
        · rename_i done
          rwa [if_pos (not_not.mp done)] at h

/-- What one `rmmod` issued by `unload` must preserve. -/
def KeptByRmmod (needs : String → List String) (admits : Choice → Prop)
    (inv : Heap → Sys → Prop) (heap : Heap) (id : LoaderId)
    : Prop :=
  ∀ s name choice, admits choice → inv heap s → name ∈ heap.names id
    → inv
        (if (s.remove needs name choice.rmmodCode).1 = 0 then
          heap.modify id (ModuleLoader.eraseLast · name) else heap)
        (s.remove needs name choice.rmmodCode).2

theorem unload_ensures (name : String) (undisturbed : Undisturbed inv)
    (kept : KeptByRmmod needs admits inv heap id) (h : inv heap s)
    : Ensures (exec needs) admits (ModuleLoader.unload id name)
        (fun _ heap s => inv heap s) heap s := by
  simp only [ModuleLoader.unload, ModuleLoader.trackedModules, ensures_bind, ensures_get,
    ensures_pure]
  split
  · exact h
  · rename_i tracked
    have member : name ∈ heap.names id := isLoaded_iff.mp (by simpa using tracked)
    simp only [ensures_bind, sys, ensures_perform]
    intro choice admitted
    refine ⟨_, _, exec_rmmod choice name, ?_⟩
    have h := kept _ name choice admitted (undisturbed _ _ choice.signal h) member
    split
    · rename_i failed
      rwa [if_neg failed] at h
    · rename_i done
      rwa [if_pos (not_not.mp done)] at h

/-- `unload_all` keeps what each of its turns keeps, by induction over the list from its
back.
-/
theorem unloadEach_ensures (inv : Heap → Sys → Prop) {κ : Type}
    {run : κ → (op : SysOp) → Sys → Outcome op.Res Sys} {admits : κ → Prop}
    {modules : List LoadedModule}
    (popped : ∀ heap s choice front last, admits choice → inv heap s
      → heap.tracked id = front ++ [last]
      → ∃ code s', run choice (.rmmod last.name) s = .done code s'
          ∧ inv (heap.modify id List.dropLast) s')
    (tracked : heap.tracked id = modules) (h : inv heap s)
    : Ensures run admits (ModuleLoader.unloadEach id modules.reverse)
        (fun _ heap' s' => heap' = heap.modify id (fun _ => []) ∧ inv heap' s') heap s := by
  induction modules using List.reverseRecOn generalizing heap s with
  | nil => exact ⟨(modify_clear_of_empty tracked).symm, h⟩
  | append_singleton front last ih =>
      rw [List.reverse_append]
      simp only [List.reverse_cons, List.reverse_nil, List.nil_append, List.singleton_append,
        ModuleLoader.unloadEach, ensures_bind, sys, ensures_perform, ensures_modify]
      intro choice admitted
      obtain ⟨code, s', removed, h⟩ := popped heap s choice front last admitted h tracked
      have shorter : (heap.modify id List.dropLast).tracked id = front := by
        rw [modify_tracked_of_nil List.dropLast_nil, tracked, List.dropLast_concat]
      refine ⟨code, s', removed, (ih shorter h).imp ?_⟩
      intro _ heap' s' cleared
      rw [modify_modify] at cleared
      exact cleared

theorem unloadAll_ensures (inv : Heap → Sys → Prop) {κ : Type}
    {run : κ → (op : SysOp) → Sys → Outcome op.Res Sys} {admits : κ → Prop}
    (popped : ∀ heap s choice front last, admits choice → inv heap s
      → heap.tracked id = front ++ [last]
      → ∃ code s', run choice (.rmmod last.name) s = .done code s'
          ∧ inv (heap.modify id List.dropLast) s')
    (h : inv heap s)
    : Ensures run admits (ModuleLoader.unloadAll id)
        (fun _ heap' s' => heap' = heap.modify id (fun _ => []) ∧ inv heap' s') heap s := by
  simp only [ModuleLoader.unloadAll, ModuleLoader.trackedModules, ensures_bind, ensures_get,
    ensures_pure]
  exact unloadEach_ensures inv popped rfl h

/-- `cleanup_on_signal` goes on without a signal, or unloads every registered loader. -/
theorem cleanupOnSignal_ensures {post : Except Int Unit → Heap → Sys → Prop}
    (inv : Sys → Prop) (undisturbed : ∀ s signal, inv s → inv (s.deliver signal)) (h : inv s)
    (proceeds : ∀ s, inv s → s.signalReceived = 0 → post (.ok ()) heap s)
    (unloads : ∀ s code, inv s
      → Ensures (exec needs) admits (ModuleLoader.unloadActive heap.activeLoaders)
          (fun _ heap s => post (.error code) heap s) heap { s with signalReceived := 0 })
    : Ensures (exec needs) admits ModuleLoader.cleanupOnSignal post heap s := by
  simp only [ModuleLoader.cleanupOnSignal, ensures_bind, sys, ensures_perform]
  intro first _
  refine ⟨_, _, rfl, ?_⟩
  have h := undisturbed _ first.signal h
  split
  · simp only [ensures_bind, ensures_perform, ensures_get, ensures_pure]
    intro second _
    refine ⟨_, _, rfl, ?_⟩
    intro third _
    refine ⟨_, _, rfl, ?_⟩
    exact unloads _ _ (undisturbed _ third.signal (undisturbed _ second.signal h))
  · rename_i none
    exact proceeds _ h (not_not.mp none)

/-- A caught signal is not zero. -/
theorem deliver_pending (pending : s.signalReceived ≠ 0) (signal : Option Signal)
    : (s.deliver signal).signalReceived ≠ 0 := by
  cases signal with
  | none => exact pending
  | some signal =>
      cases signal with
      | sigint => exact (by decide : Signal.sigint.number ≠ 0)
      | sigterm => exact (by decide : Signal.sigterm.number ≠ 0)

/-- The heap once the list of `other` has gone to `id`. -/
def moved (heap : Heap) (id other : LoaderId) : Heap :=
  (heap.modify id (fun _ => heap.tracked other)).modify other (fun _ => [])

/-- A loader whose list has just been cleared receives the other list whole. -/
theorem moved_names_swap (distinct : id ≠ other) (live : (heap.modules id).isSome)
    (empty : heap.names id = []) (k : LoaderId)
    : (moved heap id other).names k = heap.names (Equiv.swap id other k) := by
  refine moved_names empty ?_ cleared_names_self ?_ k
  · exact (modify_names_of_ne distinct).trans (by rw [Heap.names, modify_tracked_self live]; rfl)
  · intro k first second
    exact (modify_names_of_ne second).trans (modify_names_of_ne first)

/-- The heap after `~ModuleLoader()`, once the modules are gone. -/
def destroyed (heap : Heap) (id : LoaderId) : Heap :=
  place { heap with activeLoaders := heap.activeLoaders.filter (· ≠ id) } id none

variable {κ : Type} {run : κ → (op : SysOp) → Sys → Outcome op.Res Sys} {okay : κ → Prop}
  {post : Unit → Heap → Sys → Prop}

theorem destroyed_names (empty : heap.names id = []) (k : LoaderId)
    : (destroyed heap id).names k = heap.names k :=
  @place_names_of_empty { heap with activeLoaders := _ } id k empty none rfl

theorem destroy_ensures
    (h : Ensures run okay (ModuleLoader.unloadAll id)
      (fun _ heap s => post () (destroyed heap id) s) heap s)
    : Ensures run okay (ModuleLoader.destroy id) post heap s := by
  simp only [ModuleLoader.destroy, ModuleLoader.unregisterInstance, ensures_bind,
    ensures_modify]
  exact h

theorem moveAssign_ensures (distinct : id ≠ other)
    (h : Ensures run okay (ModuleLoader.unloadAll id)
      (fun _ heap s => post () (moved heap id other) s) heap s)
    : Ensures run okay (ModuleLoader.moveAssign id other) post heap s := by
  simp only [ModuleLoader.moveAssign, if_pos distinct, ModuleLoader.trackedModules, ensures_bind,
    ensures_get, ensures_pure, ensures_modify]
  exact h

theorem moveAssign_ensures_self (h : post () heap s)
    : Ensures run okay (ModuleLoader.moveAssign id id) post heap s := by
  simp only [ModuleLoader.moveAssign, ne_eq, not_true, if_false]
  exact h

end Rules

-----------------------------------------------------------------------------------------
-- Whole processes
-----------------------------------------------------------------------------------------

/-- A property kept by every admitted call holds in every process reached, by induction over
the calls.
-/
theorem reaches_invariant (inv : Heap → Sys → Prop) {needs : String → List String}
    {admits : Process → LoaderCall → List Choice → Prop} {first p : Process}
    (h : Process.Reaches needs admits first p)
    (initially : inv first.heap first.sys)
    (kept : ∀ p call choices, admits p call choices → call.valid p.heap → inv p.heap p.sys
      → ∃ ok : Choice → Prop, (∀ choice ∈ choices, ok choice) ∧ ok default
          ∧ Ensures (exec needs) ok call.code (fun _ heap s => inv heap s) p.heap p.sys)
    : inv p.heap p.sys := by
  induction h with
  | start => exact initially
  | @call p p' call choices before admitted called ih =>
      unfold Process.call at called
      split at called
      · rename_i valid
        obtain ⟨ok, listed, unlisted, verified⟩ := kept p call choices admitted valid ih
        obtain ⟨value, heap, s, ran, met⟩ := verified.run listed unlisted
        rw [ran] at called
        cases called
        exact met
      · cases called

/-- Follow a list of calls. -/
def calls (needs : String → List String) (p : Process)
    : List (LoaderCall × List Choice) → Option Process
  | [] => some p
  | (call, choices) :: rest => (p.call needs call choices).bind (fun next => calls needs next rest)

/-- A list of calls the environment may make leads to a process that is reached. -/
theorem calls_reaches {needs : String → List String}
    {admits : Process → LoaderCall → List Choice → Prop} {first p last : Process}
    {list : List (LoaderCall × List Choice)} (reached : Process.Reaches needs admits first p)
    (admitted : ∀ entry ∈ list, ∀ p, admits p entry.1 entry.2)
    (ran : calls needs p list = some last)
    : Process.Reaches needs admits first last := by
  induction list generalizing p with
  | nil =>
      cases ran
      exact reached
  | cons entry rest ih =>
      obtain ⟨next, called, later⟩ := Option.bind_eq_some_iff.mp ran
      exact ih (reached.call (admitted entry List.mem_cons_self p) called)
        (fun entry member => admitted entry (List.mem_cons_of_mem _ member)) later

end SafetyIsolation.Modules

import SafetyIsolation.Modules.Rules
import Mathlib.Data.Set.Basic

/-! Which loader has which module. The loaders in question own disjoint lists without
repetition, and the operations add or take one name at a time.
-/

namespace SafetyIsolation.Modules

open SafetyIsolation.Harness

/-- Some of these loaders lists the module. -/
def Tracked (mine : Set LoaderId) (heap : Heap) (name : String) : Prop :=
  ∃ id ∈ mine, name ∈ heap.names id

/-- Each name stands at most once in the lists of these loaders. -/
structure Owned (mine : Set LoaderId) (heap : Heap) : Prop where
  nodup : ∀ id ∈ mine, (heap.names id).Nodup
  owner : ∀ id ∈ mine, ∀ other ∈ mine, ∀ name,
    name ∈ heap.names id → name ∈ heap.names other → id = other

variable {mine : Set LoaderId} {heap heap' : Heap} {id : LoaderId} {name found : String}

theorem track_mem_iff (live : (heap.modules id).isSome) {path : Path} {other : LoaderId}
    : found ∈ (track heap id ⟨name, path⟩).names other
      ↔ found ∈ heap.names other ∨ (other = id ∧ found = name) := by
  by_cases same : other = id
  · subst same
    rw [track_names_self live, List.mem_append, List.mem_singleton]
    simp only [true_and]
  · rw [track_names_of_ne same]
    simp only [same, false_and, or_false]

theorem tracked_track (member : id ∈ mine) (live : (heap.modules id).isSome) {path : Path}
    : Tracked mine (track heap id ⟨name, path⟩) found
      ↔ found = name ∨ Tracked mine heap found := by
  constructor
  · intro tracked
    obtain ⟨other, inside, listed⟩ := tracked
    rcases (track_mem_iff live).mp listed with listed | ⟨_, new⟩
    · exact Or.inr ⟨other, inside, listed⟩
    · exact Or.inl new
  · intro tracked
    rcases tracked with new | ⟨other, inside, listed⟩
    · exact ⟨id, member, (track_mem_iff live).mpr (Or.inr ⟨rfl, new⟩)⟩
    · exact ⟨other, inside, (track_mem_iff live).mpr (Or.inl listed)⟩

/-- The lists stay disjoint when a name enters that none of them has. -/
theorem Owned.track (h : Owned mine heap) (member : id ∈ mine) (live : (heap.modules id).isSome)
    {path : Path} (fresh : ¬ Tracked mine heap name)
    : Owned mine (track heap id ⟨name, path⟩) := by
  refine ⟨fun other inside => ?_, fun first inside second there found left right => ?_⟩
  · by_cases same : other = id
    · subst same
      rw [track_names_self live]
      refine List.nodup_append.mpr ⟨h.nodup other inside, List.nodup_singleton _, ?_⟩
      intro earlier listed _ last same
      rw [same, List.mem_singleton.mp last] at listed
      exact fresh ⟨other, inside, listed⟩
    · rw [track_names_of_ne same]
      exact h.nodup other inside
  · rcases (track_mem_iff live).mp left with left | ⟨here, new⟩
    · rcases (track_mem_iff live).mp right with right | ⟨_, new⟩
      · exact h.owner first inside second there found left right
      · exact absurd ⟨first, inside, left⟩ (new ▸ fresh)
    · rcases (track_mem_iff live).mp right with right | ⟨also, _⟩
      · exact absurd ⟨second, there, right⟩ (new ▸ fresh)
      · exact here.trans also.symm

theorem Forgets.member (forgets : Forgets heap heap' id name) : name ∈ heap.names id := by
  obtain ⟨front, back, before, _⟩ := forgets.split
  rw [before]
  exact List.mem_append_right _ List.mem_cons_self

theorem Forgets.sublist (forgets : Forgets heap heap' id name) (other : LoaderId)
    : (heap'.names other).Sublist (heap.names other) := by
  by_cases same : other = id
  · subst same
    obtain ⟨front, back, before, after⟩ := forgets.split
    rw [before, after]
    exact (List.sublist_cons_self name back).append_left front
  · rw [forgets.others other same]

/-- The lists stay disjoint when a name leaves. -/
theorem Owned.forget (h : Owned mine heap) (forgets : Forgets heap heap' id name)
    : Owned mine heap' := by
  refine ⟨fun other inside => (h.nodup other inside).sublist (forgets.sublist other), ?_⟩
  intro first inside second there found left right
  exact h.owner first inside second there found ((forgets.sublist first).subset left)
    ((forgets.sublist second).subset right)

theorem Owned.forget_mem_iff (h : Owned mine heap) (member : id ∈ mine)
    (forgets : Forgets heap heap' id name) {other : LoaderId} (inside : other ∈ mine)
    : found ∈ heap'.names other ↔ found ≠ name ∧ found ∈ heap.names other := by
  by_cases same : other = id
  · subst same
    obtain ⟨front, back, before, after⟩ := forgets.split
    have unique : (name :: (front ++ back)).Nodup :=
      List.nodup_middle.mp (before ▸ h.nodup other inside)
    have absent : name ∉ front ++ back := (List.nodup_cons.mp unique).1
    rw [before, after, List.perm_middle.mem_iff, List.mem_cons]
    refine ⟨fun listed => ⟨fun same => absent (same ▸ listed), Or.inr listed⟩, fun listed => ?_⟩
    exact listed.2.resolve_left listed.1
  · rw [forgets.others other same]
    refine ⟨fun listed => ⟨fun gone => same ?_, listed⟩, And.right⟩
    exact h.owner other inside id member name (gone ▸ listed) forgets.member

theorem Owned.tracked_forget (h : Owned mine heap) (member : id ∈ mine)
    (forgets : Forgets heap heap' id name)
    : Tracked mine heap' found ↔ found ≠ name ∧ Tracked mine heap found := by
  constructor
  · intro tracked
    obtain ⟨other, inside, listed⟩ := tracked
    obtain ⟨distinct, listed⟩ := (h.forget_mem_iff member forgets inside).mp listed
    exact ⟨distinct, other, inside, listed⟩
  · intro tracked
    obtain ⟨distinct, other, inside, listed⟩ := tracked
    exact ⟨other, inside, (h.forget_mem_iff member forgets inside).mpr ⟨distinct, listed⟩⟩

theorem untracked_of_empty (empty : ∀ id ∈ mine, heap.names id = [])
    : ¬ Tracked mine heap name := by
  intro tracked
  obtain ⟨id, inside, listed⟩ := tracked
  rw [empty id inside] at listed
  cases listed

theorem Owned.start (empty : ∀ id ∈ mine, heap.names id = []) : Owned mine heap := by
  refine ⟨fun id inside => ?_, fun id inside _ _ name listed _ => ?_⟩
  · rw [empty id inside]
    exact List.nodup_nil
  · exact absurd ⟨id, inside, listed⟩ (untracked_of_empty empty)

/-- Lists may change hands. -/
theorem Owned.rename (h : Owned Set.univ heap) (owners : LoaderId ≃ LoaderId)
    (same : ∀ id, heap'.names id = heap.names (owners id))
    : Owned Set.univ heap' := by
  refine ⟨fun id _ => ?_, fun id _ other _ name left right => ?_⟩
  · rw [same]
    exact h.nodup _ trivial
  · rw [same] at left right
    exact owners.injective (h.owner _ trivial _ trivial name left right)

theorem tracked_rename (owners : LoaderId ≃ LoaderId)
    (same : ∀ id, heap'.names id = heap.names (owners id))
    : Tracked Set.univ heap' name ↔ Tracked Set.univ heap name := by
  simp only [Tracked, Set.mem_univ, true_and, same]
  exact owners.exists_congr_right (q := fun id => name ∈ heap.names id)

end SafetyIsolation.Modules

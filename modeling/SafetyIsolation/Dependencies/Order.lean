import Mathlib.Data.Finset.Insert
import Mathlib.Data.Finset.Erase
import Mathlib.Data.List.Pairwise

/-! Items that need other items. A set of present items is closed when it contains what its
members need, and a list of them is ordered when nobody needs itself or a later item, so the
last one can always go.
-/

namespace SafetyIsolation.Dependencies

variable {α : Type} (needs : α → List α)

/-- Whatever a present item needs is present. -/
def Closed (present : Finset α) : Prop :=
  ∀ item ∈ present, ∀ need ∈ needs item, need ∈ present

/-- No present item needs this one. -/
def Unneeded (present : Finset α) (item : α) : Prop := ∀ user ∈ present, item ∉ needs user

/-- No item of the list needs itself or a later one. -/
structure Ordered (items : List α) : Prop where
  later : items.Pairwise (fun earlier later => later ∉ needs earlier)
  self : ∀ item ∈ items, item ∉ needs item

variable {needs}

theorem Closed.insert [DecidableEq α] {present : Finset α} {item : α}
    (h : Closed needs present) (supplied : ∀ need ∈ needs item, need ∈ present)
    : Closed needs (insert item present) := by
  intro user member need needed
  rcases Finset.mem_insert.mp member with rfl | member
  · exact Finset.mem_insert_of_mem (supplied need needed)
  · exact Finset.mem_insert_of_mem (h user member need needed)

theorem Closed.erase [DecidableEq α] {present : Finset α} {item : α}
    (h : Closed needs present) (unneeded : Unneeded needs present item)
    : Closed needs (present.erase item) := by
  intro user member need needed
  have remains : user ∈ present := Finset.mem_of_mem_erase member
  refine Finset.mem_erase.mpr ⟨fun same => ?_, h user remains need needed⟩
  exact unneeded user remains (same ▸ needed)

/-- An absent item is needed by nobody. -/
theorem Closed.unneeded {present : Finset α} {item : α} (h : Closed needs present)
    (absent : item ∉ present)
    : Unneeded needs present item :=
  fun user member needed => absent (h user member item needed)

theorem Ordered.nil : Ordered needs [] := ⟨.nil, fun _ member => absurd member List.not_mem_nil⟩

/-- What enters last needs only items that were there before. -/
theorem Ordered.push {present : Finset α} {items : List α} {item : α} (h : Ordered needs items)
    (closed : Closed needs present) (members : ∀ member ∈ items, member ∈ present)
    (absent : item ∉ present) (supplied : ∀ need ∈ needs item, need ∈ present)
    : Ordered needs (items ++ [item]) := by
  refine ⟨List.pairwise_append.mpr ⟨h.later, List.pairwise_singleton _ _, ?_⟩, ?_⟩
  · intro earlier member last same
    rw [List.mem_singleton.mp same]
    exact closed.unneeded absent earlier (members earlier member)
  · intro member inside
    rcases List.mem_append.mp inside with inside | last
    · exact h.self member inside
    · rw [List.mem_singleton.mp last]
      exact fun needed => absent (supplied item needed)

theorem Ordered.sublist {items fewer : List α} (h : Ordered needs items)
    (sublist : fewer.Sublist items)
    : Ordered needs fewer :=
  ⟨h.later.sublist sublist, fun item member => h.self item (sublist.subset member)⟩

theorem Ordered.last_unneeded {front : List α} {last : α} (h : Ordered needs (front ++ [last]))
    {user : α} (member : user ∈ front ++ [last])
    : last ∉ needs user := by
  rcases List.mem_append.mp member with earlier | same
  · exact (List.pairwise_append.mp h.later).2.2 user earlier last List.mem_cons_self
  · rw [List.mem_singleton.mp same]
    exact h.self last (List.mem_append_right _ List.mem_cons_self)

end SafetyIsolation.Dependencies

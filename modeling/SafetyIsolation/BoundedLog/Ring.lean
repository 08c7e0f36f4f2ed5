import Mathlib.Data.List.Basic
import Mathlib.Data.Nat.ModEq

/-! A fixed ring of slots with a head index and a saturating count is a bounded history.
The ring represents the whole list of appended entries; its snapshot is the list's end.
-/

namespace SafetyIsolation.BoundedLog

/-- A ring log: the next slot to overwrite and the number of slots in use. -/
structure Ring (α : Type) (capacity : Nat) where
  slots : Vector α capacity
  head : Nat
  count : Nat

namespace Ring

variable {α : Type} {capacity : Nat}

/-- An unused ring whose slots all hold `blank`. -/
def empty (blank : α) : Ring α capacity :=
  { slots := Vector.replicate capacity blank, head := 0, count := 0 }

/-- Overwrite the head slot, advance the head and count up to the capacity. -/
def append (ring : Ring α capacity) (entry : α) : Ring α capacity :=
  {
    slots := ring.slots.setIfInBounds ring.head entry
    head := (ring.head + 1) % capacity
    count := if ring.count < capacity then ring.count + 1 else ring.count
  }

/-- The slot read in the `i`-th turn of a snapshot loop: from the head once the ring is
full, and from the first slot before that.
-/
def index (ring : Ring α capacity) (i : Nat) : Nat :=
  if ring.count = capacity then (ring.head + i) % capacity else i

/-- The entries a snapshot loop of `count` turns copies out, in order. -/
def snapshot (ring : Ring α capacity) : List α :=
  (List.range ring.count).filterMap (fun i => ring.slots[ring.index i]?)

/-- The ring holds the last entries of `history` at their positions modulo the capacity.
-/
structure Represents (ring : Ring α capacity) (history : List α) : Prop where
  head : ring.head = history.length % capacity
  count : ring.count = min history.length capacity
  slots
    : ∀ i, i < history.length
        → history.length ≤ i + capacity
        → ring.slots[i % capacity]? = history[i]?

theorem empty_represents (blank : α) : (empty blank : Ring α capacity).Represents [] where
  head := by simp [empty]
  count := by simp [empty]
  slots := by simp

/-- Positions less than one revolution apart fall into different slots. -/
theorem mod_ne_of_within {i n : Nat} (before : i < n) (within : n < i + capacity)
    : n % capacity ≠ i % capacity := by
  intro same
  have divides : capacity ∣ n - i := (Nat.modEq_iff_dvd' (by omega)).mp same.symm
  have large := Nat.le_of_dvd (by omega) divides
  omega

/-- Appending to the ring appends to the represented history: the overwritten slot held an
entry one whole revolution old.
-/
theorem Represents.append {ring : Ring α capacity} {history : List α}
    (h : ring.Represents history) (positive : 0 < capacity) (entry : α)
    : (ring.append entry).Represents (history ++ [entry]) := by
  have headBound : ring.head < capacity := h.head ▸ Nat.mod_lt _ positive
  refine ⟨?_, ?_, ?_⟩
  · simp only [Ring.append, h.head, List.length_append, List.length_singleton,
      Nat.mod_add_mod]
  · have count := h.count
    simp only [Ring.append, List.length_append, List.length_singleton]
    split <;> omega
  · intro i bound recent
    simp only [List.length_append, List.length_singleton] at bound recent
    rcases Nat.lt_or_eq_of_le (Nat.le_of_lt_succ bound) with older | rfl
    · have apart : ring.head ≠ i % capacity := by
        rw [h.head]
        exact mod_ne_of_within older (by omega)
      rw [List.getElem?_append_left older]
      simp only [Ring.append, Vector.getElem?_setIfInBounds_ne apart]
      exact h.slots i older (by omega)
    · simp only [Ring.append, h.head]
      rw [Vector.getElem?_setIfInBounds_self_of_lt (Nat.mod_lt _ positive)]
      simp

/-- The `j`-th turn of a snapshot loop reads the `j`-th retained entry, before and after
the ring has wrapped.
-/
theorem Represents.slot {ring : Ring α capacity} {history : List α}
    (h : ring.Represents history) {j : Nat} (turn : j < ring.count)
    : ring.slots[ring.index j]? = history[history.length - ring.count + j]? := by
  have count := h.count
  rcases Nat.lt_or_ge history.length capacity with short | full
  · have all : ring.count = history.length := by omega
    have direct : ring.index j = j := by
      simp only [index]
      rw [if_neg (by omega)]
    have entry := h.slots j (by omega) (by omega)
    rw [Nat.mod_eq_of_lt (by omega)] at entry
    rw [direct, entry, all]
    simp
  · have whole : ring.count = capacity := by omega
    have wrapped : ring.index j = (history.length - capacity + j) % capacity := by
      simp only [index, whole, h.head]
      rw [if_pos trivial, Nat.mod_add_mod]
      have shift : history.length + j = history.length - capacity + j + capacity := by omega
      rw [shift, Nat.add_mod_right]
    rw [wrapped, h.slots _ (by omega) (by omega), whole]

/-- Reading consecutive positions from `start` to the end of a list copies its tail. -/
theorem filterMap_range_getElem? (history : List α) (start turns : Nat)
    (reaches : start + turns = history.length)
    : (List.range turns).filterMap (fun j => history[start + j]?) = history.drop start := by
  induction turns generalizing start with
  | zero =>
      have past : history.length ≤ start := by omega
      simp [List.drop_eq_nil_of_le past]
  | succ turns ih =>
      have inside : start < history.length := by omega
      rw [List.range_succ_eq_map, List.filterMap_cons, List.filterMap_map,
        List.drop_eq_getElem_cons inside]
      have rest := ih (start + 1) (by omega)
      simp only [Nat.add_zero, List.getElem?_eq_getElem inside, ← rest]
      congr 2
      funext j
      simp only [Function.comp_apply, Nat.succ_eq_add_one, Nat.add_assoc, Nat.add_comm 1]

/-- A snapshot is exactly the last entries of the represented history, oldest first. -/
theorem Represents.snapshot {ring : Ring α capacity} {history : List α}
    (h : ring.Represents history)
    : ring.snapshot = history.drop (history.length - capacity) := by
  have count := h.count
  have turns : ∀ j ∈ List.range ring.count,
      ring.slots[ring.index j]? = history[history.length - ring.count + j]? :=
    fun j member => h.slot (List.mem_range.mp member)
  have start : history.length - ring.count = history.length - capacity := by omega
  rw [Ring.snapshot, List.filterMap_congr turns,
    filterMap_range_getElem? history _ ring.count (by omega), start]

/-- The representation bounds of the head and count. -/
theorem Represents.bounds {ring : Ring α capacity} {history : List α}
    (h : ring.Represents history) (positive : 0 < capacity)
    : ring.head < capacity ∧ ring.count ≤ capacity :=
  ⟨h.head ▸ Nat.mod_lt _ positive, h.count ▸ Nat.min_le_right _ _⟩

/-- Appending moves the head, so it never goes unnoticed. -/
theorem append_ne (ring : Ring α capacity) (several : 1 < capacity) (entry : α)
    : ring.append entry ≠ ring := by
  intro same
  have stays : (ring.head + 1) % capacity = ring.head := congrArg Ring.head same
  have bound : ring.head < capacity := stays ▸ Nat.mod_lt _ (by omega)
  rcases (show ring.head + 1 < capacity ∨ ring.head + 1 = capacity by omega) with inside | wraps
  · rw [Nat.mod_eq_of_lt inside] at stays
    omega
  · rw [wraps, Nat.mod_self] at stays
    omega

/-- The appended entry can be read back from its slot. -/
theorem append_injective {ring : Ring α capacity} (bound : ring.head < capacity)
    {entry other : α} (same : ring.append entry = ring.append other)
    : entry = other := by
  have slot := congrArg (fun after : Ring α capacity => after.slots[ring.head]?) same
  simpa [Ring.append, Vector.getElem?_setIfInBounds_self_of_lt bound] using slot

end Ring

end SafetyIsolation.BoundedLog

import Mathlib.Data.List.Induction

/-! Records that a reader fills line by line. Each line writes at most one slot, and the last
write of a slot counts.
-/

namespace SafetyIsolation.Text

variable {Slot Value σ Line : Type} [DecidableEq Slot]

/-- The last value written to a slot. -/
def lastWrite (writes : List (Slot × Value)) (slot : Slot) : Option Value :=
  writes.foldl (fun found write => if write.1 = slot then some write.2 else found) none

/-- A later list of writes overrides an earlier one, by induction from the back. -/
theorem lastWrite_append (earlier later : List (Slot × Value)) (slot : Slot)
    : lastWrite (earlier ++ later) slot
      = (lastWrite later slot).or (lastWrite earlier slot) := by
  induction later using List.reverseRecOn with
  | nil => rw [List.append_nil]; rfl
  | append_singleton front write ih =>
      simp only [lastWrite, List.foldl_append, List.foldl_cons, List.foldl_nil] at ih ⊢
      split
      · rfl
      · exact ih

theorem lastWrite_nil (slot : Slot) : lastWrite ([] : List (Slot × Value)) slot = none := rfl

theorem lastWrite_singleton (write : Slot × Value) (slot : Slot)
    : lastWrite [write] slot = if write.1 = slot then some write.2 else none := rfl

/-- A slot that no write names keeps its value. -/
theorem lastWrite_eq_none {writes : List (Slot × Value)} {slot : Slot}
    (absent : ∀ write ∈ writes, write.1 ≠ slot)
    : lastWrite writes slot = none := by
  induction writes using List.reverseRecOn with
  | nil => rfl
  | append_singleton front write ih =>
      rw [lastWrite_append, lastWrite_singleton,
        if_neg (absent write (List.mem_append_right _ List.mem_cons_self)), Option.none_or]
      exact ih (fun earlier member => absent earlier (List.mem_append_left _ member))

/-- A step of a reader does what its writes say. -/
def StepWrites (get : σ → Slot → Value) (step : σ → Line → σ)
    (writes : Line → List (Slot × Value))
    : Prop :=
  ∀ s line slot, get (step s line) slot = (lastWrite (writes line) slot).getD (get s slot)

/-- A whole text leaves in each slot what was written last, by induction over the lines. -/
theorem StepWrites.foldl {get : σ → Slot → Value} {step : σ → Line → σ}
    {writes : Line → List (Slot × Value)} (h : StepWrites get step writes) (s : σ)
    (lines : List Line) (slot : Slot)
    : get (lines.foldl step s) slot
      = (lastWrite (lines.flatMap writes) slot).getD (get s slot) := by
  induction lines generalizing s with
  | nil => rfl
  | cons line rest ih =>
      rw [List.foldl_cons, ih, h s line slot, List.flatMap_cons, lastWrite_append]
      cases lastWrite (rest.flatMap writes) slot with
      | none => rfl
      | some value => rfl

end SafetyIsolation.Text

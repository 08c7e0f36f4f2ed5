import SafetyIsolation.Text.Bytes

/-! The first occurrence of a needle in a text. -/

namespace SafetyIsolation.Text

/-- The rest of a text after the first occurrence of a needle. -/
def afterFirst (needle : Bytes) : Bytes → Option Bytes
  | [] => if needle = [] then some [] else none
  | byte :: rest =>
      if needle.isPrefixOf (byte :: rest) then some ((byte :: rest).drop needle.length)
      else afterFirst needle rest

/-- The rest follows an occurrence of the needle, and no other occurrence comes earlier. -/
def FirstOccurrence (needle text rest : Bytes) : Prop :=
  ∃ front,
    text = front ++ (needle ++ rest)
    ∧ ∀ earlier later, text = earlier ++ (needle ++ later) → front.length ≤ earlier.length

/-- The text up to the first occurrence is skipped, by induction over the text. -/
theorem afterFirst_eq_some_iff {needle text rest : Bytes}
    : afterFirst needle text = some rest ↔ FirstOccurrence needle text rest := by
  induction text with
  | nil =>
      rw [afterFirst]
      constructor
      · intro found
        split at found
        · rename_i blank
          cases found
          exact ⟨[], by rw [blank, List.append_nil, List.append_nil], fun _ _ _ => Nat.zero_le _⟩
        · cases found
      · intro cutOff
        obtain ⟨front, whole, _⟩ := cutOff
        obtain ⟨_, bare⟩ := List.append_eq_nil_iff.mp whole.symm
        obtain ⟨rfl, rfl⟩ := List.append_eq_nil_iff.mp bare
        rfl
  | cons byte later ih =>
      rw [afterFirst]
      by_cases starts : needle.isPrefixOf (byte :: later) = true
      · rw [if_pos starts]
        obtain ⟨found, whole⟩ := List.isPrefixOf_iff_prefix.mp starts
        rw [← whole, List.drop_left]
        constructor
        · intro same
          cases same
          exact ⟨[], rfl, fun _ _ _ => Nat.zero_le _⟩
        · intro cutOff
          obtain ⟨front, same, first⟩ := cutOff
          have empty : front = [] :=
            List.eq_nil_of_length_eq_zero (Nat.le_zero.mp (first [] found rfl))
          subst empty
          exact congrArg some (List.append_cancel_left same)
      · rw [if_neg starts, ih]
        constructor
        · intro cutOff
          obtain ⟨front, whole, first⟩ := cutOff
          refine ⟨byte :: front, by rw [whole, List.cons_append], fun earlier rest same => ?_⟩
          cases earlier with
          | nil =>
              exact absurd (List.isPrefixOf_iff_prefix.mpr ⟨rest, same.symm⟩) starts
          | cons _ earlier =>
              cases same
              exact Nat.succ_le_succ (first earlier rest rfl)
        · intro cutOff
          obtain ⟨front, whole, first⟩ := cutOff
          cases front with
          | nil => exact absurd (List.isPrefixOf_iff_prefix.mpr ⟨rest, whole.symm⟩) starts
          | cons _ front =>
              cases whole
              refine ⟨front, rfl, fun earlier rest same => ?_⟩
              have within := first (byte :: earlier) rest (congrArg (byte :: ·) same)
              exact Nat.le_of_succ_le_succ within

/-- A front in which no occurrence of the needle can start is skipped, by induction over it. -/
theorem afterFirst_append {needle front : Bytes} (rest : Bytes)
    (h : ∀ suffix, suffix <:+ front → suffix ≠ [] → ¬ suffix <+: needle ∧ ¬ needle <+: suffix)
    : afterFirst needle (front ++ rest) = afterFirst needle rest := by
  induction front with
  | nil => rfl
  | cons byte later ih =>
      have here := h (byte :: later) (List.suffix_refl _) (List.cons_ne_nil _ _)
      have noMatch : needle.isPrefixOf (byte :: (later ++ rest)) = false := by
        refine Bool.eq_false_iff.mpr (fun starts => ?_)
        have starts : needle <+: (byte :: later) ++ rest := List.isPrefixOf_iff_prefix.mp starts
        exact (List.prefix_or_prefix_of_prefix starts (List.prefix_append _ _)).elim here.2 here.1
      rw [List.cons_append, afterFirst, noMatch]
      exact ih (fun suffix isSuffix => h suffix (isSuffix.trans (List.suffix_cons byte later)))

theorem afterFirst_self {needle : Bytes} (rest : Bytes) (h : needle ≠ [])
    : afterFirst needle (needle ++ rest) = some rest := by
  cases needle with
  | nil => exact absurd rfl h
  | cons byte later =>
      have starts : (byte :: later).isPrefixOf (byte :: (later ++ rest)) = true :=
        List.isPrefixOf_iff_prefix.mpr (List.prefix_append (byte :: later) rest)
      rw [List.cons_append, afterFirst, starts]
      simp

/-- A text without the first byte of the needle. -/
theorem no_occurrence_of_absent {byte : UInt8} {needle front : Bytes} (absent : byte ∉ front)
    : ∀ suffix, suffix <:+ front → suffix ≠ []
      → ¬ suffix <+: byte :: needle ∧ ¬ byte :: needle <+: suffix := by
  intro suffix isSuffix nonempty
  cases suffix with
  | nil => exact absurd rfl nonempty
  | cons first later =>
      have distinct : first ≠ byte :=
        fun same => absent (isSuffix.subset (same ▸ List.mem_cons_self))
      exact ⟨fun starts => distinct (List.cons_prefix_cons.mp starts).1,
        fun starts => distinct (List.cons_prefix_cons.mp starts).1.symm⟩

end SafetyIsolation.Text

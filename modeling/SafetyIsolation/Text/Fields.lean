import Mathlib.Data.List.TakeWhile
import SafetyIsolation.Text.Bytes

/-! Printed fields that can be told from what follows them: numbers, which end with their digits,
and free texts of bounded length in front of a mark that does not come again soon.
-/

namespace SafetyIsolation.Text

variable {α : Type}

/-- What is printed of a value can be split off a longer text, whatever the rest may be that
follows.
-/
def Splits (print : α → Bytes) (follows : Bytes → Prop) : Prop :=
  ∀ a b s t, follows s → follows t → print a ++ s = print b ++ t → a = b ∧ s = t

theorem Splits.of_length {print : α → Bytes} {width : Nat} {follows : Bytes → Prop}
    (length : ∀ a, (print a).length = width) (injective : Function.Injective print)
    : Splits print follows := by
  intro a b s t _ _ same
  obtain ⟨printed, rest⟩ := List.append_inj same ((length a).trans (length b).symm)
  exact ⟨injective printed, rest⟩

/-- The text does not go on with the alphabet. -/
def EndsRun (inside : UInt8 → Bool) (rest : Bytes) : Prop :=
  ∀ byte ∈ rest.head?, inside byte = false

theorem endsRun_of_head {inside : UInt8 → Bool} {front : Bytes} (byte : UInt8) (rest : Bytes)
    (starts : front.head? = some byte) (outside : inside byte = false)
    : EndsRun inside (front ++ rest) := by
  intro found isFound
  obtain ⟨tail, rfl⟩ := List.head?_eq_some_iff.mp starts
  cases isFound
  exact outside

theorem takeWhile_run {inside : UInt8 → Bool} {run rest : Bytes}
    (isRun : ∀ byte ∈ run, inside byte = true) (ends : EndsRun inside rest)
    : (run ++ rest).takeWhile inside = run := by
  rw [List.takeWhile_append_of_pos isRun]
  cases rest with
  | nil => simp
  | cons first rest =>
      have outside : inside first = false := ends first rfl
      simp [outside]

/-- A number ends where its digits do. -/
theorem Splits.of_alphabet {print : α → Bytes} {inside : UInt8 → Bool}
    (digits : ∀ a, ∀ byte ∈ print a, inside byte = true) (injective : Function.Injective print)
    : Splits print (EndsRun inside) := by
  intro a b s t endsA endsB same
  have printed : print a = print b := by
    rw [← takeWhile_run (digits a) endsA, same, takeWhile_run (digits b) endsB]
  refine ⟨injective printed, ?_⟩
  rw [printed] at same
  exact List.append_cancel_left same

/-- The text starts with the mark and does not show it again within the next `limit` bytes. -/
def Marked (mark : Bytes) (limit : Nat) (rest : Bytes) : Prop :=
  mark <+: rest ∧ ∀ offset, 0 < offset → offset ≤ limit → ¬ mark <+: rest.drop offset

/-- A free text ends at the mark: it is too short to hide another one. -/
theorem free_unique {mark : Bytes} {limit : Nat} {a b s t : Bytes} (shortA : a.length ≤ limit)
    (shortB : b.length ≤ limit) (markedA : Marked mark limit s) (markedB : Marked mark limit t)
    (same : a ++ s = b ++ t)
    : a = b ∧ s = t := by
  have apart {between first second : Bytes} (short : between.length ≤ limit)
      (marked : Marked mark limit first) (starts : mark <+: second)
      (joined : first = between ++ second)
      : between = [] := by
    by_contra nonempty
    refine marked.2 between.length (List.length_pos_of_ne_nil nonempty) short ?_
    rw [joined, List.drop_left]
    exact starts
  rcases List.append_eq_append_iff.mp same with ⟨between, isB, isS⟩ | ⟨between, isA, isT⟩
  · have short : between.length ≤ limit := by
      rw [isB, List.length_append] at shortB
      omega
    have empty := apart short markedA markedB.1 isS
    rw [empty] at isB isS
    exact ⟨(isB.trans (List.append_nil _)).symm, isS⟩
  · have short : between.length ≤ limit := by
      rw [isA, List.length_append] at shortA
      omega
    have empty := apart short markedB markedA.1 isT
    rw [empty] at isA isT
    exact ⟨isA.trans (List.append_nil _), isT.symm⟩

theorem mem_of_drop_append {front rest more : Bytes} {index : Nat} {byte : UInt8}
    (within : index < front.length) (found : (front ++ rest).drop index = byte :: more)
    : byte ∈ front := by
  rw [List.drop_append_of_le_length within.le, List.drop_eq_getElem_cons within, List.cons_append]
    at found
  injection found with same
  rw [← same]
  exact List.getElem_mem within

/-- A mark of a blank and a letter, in front of two words of which the second starts with another
letter.
-/
theorem marked_of_words {letter other : UInt8} {first second rest : Bytes} {limit : Nat}
    (different : other ≠ letter) (firstWord : 32 ∉ letter :: first)
    (secondWord : 32 ∉ other :: second) (long : limit ≤ first.length + second.length + 3)
    : Marked [32, letter] limit (32 :: (letter :: first ++ 32 :: (other :: second ++ rest))) := by
  refine ⟨⟨_, rfl⟩, fun offset positive within found => ?_⟩
  obtain ⟨index, rfl⟩ := Nat.exists_eq_add_of_lt positive
  obtain ⟨more, found⟩ := found
  rw [Nat.zero_add, List.drop_succ_cons] at found
  by_cases inFirst : index < (letter :: first).length
  · exact firstWord (mem_of_drop_append inFirst found.symm)
  · obtain ⟨beyond, isIndex⟩ := Nat.exists_eq_add_of_le (Nat.le_of_not_lt inFirst)
    rw [isIndex, List.drop_length_add_append] at found
    cases beyond with
    | zero =>
        injection found with _ found
        injection found with same
        exact different same.symm
    | succ beyond =>
        rw [List.drop_succ_cons] at found
        have inSecond : beyond < (other :: second).length := by
          rw [isIndex] at within
          simp only [List.length_cons] at within ⊢
          omega
        exact secondWord (mem_of_drop_append inSecond found.symm)

/-- A list is told from its printed elements, by list induction. -/
theorem flatMap_unique {print : α → Bytes} {good : α → Prop}
    (splits : ∀ a b s t, good a → good b → print a ++ s = print b ++ t → a = b ∧ s = t)
    (nonempty : ∀ a, print a ≠ []) {list list' : List α} (isGood : ∀ a ∈ list, good a)
    (isGood' : ∀ a ∈ list', good a) (same : list.flatMap print = list'.flatMap print)
    : list = list' := by
  induction list generalizing list' with
  | nil =>
      cases list' with
      | nil => rfl
      | cons b list' =>
          rw [List.flatMap_nil, List.flatMap_cons] at same
          exact absurd (List.append_eq_nil_iff.mp same.symm).1 (nonempty b)
  | cons a list ih =>
      cases list' with
      | nil =>
          rw [List.flatMap_nil, List.flatMap_cons] at same
          exact absurd (List.append_eq_nil_iff.mp same).1 (nonempty a)
      | cons b list' =>
          rw [List.flatMap_cons, List.flatMap_cons] at same
          obtain ⟨rfl, rest⟩ := splits a b _ _ (isGood a List.mem_cons_self)
            (isGood' b List.mem_cons_self) same
          rw [ih (fun a member => isGood a (List.mem_cons_of_mem _ member))
            (fun a member => isGood' a (List.mem_cons_of_mem _ member)) rest]

end SafetyIsolation.Text

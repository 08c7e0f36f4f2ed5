import Mathlib.Data.Nat.Digits.Defs

/-! Numbers written with digits, the most significant one first. -/

namespace SafetyIsolation.Text

/-- Reading from the front gives what the digits denote. -/
theorem foldl_eq_ofDigits {α : Type} (base : Nat) (digit : α → Nat) (digits : List α)
    : digits.foldl (fun value next => value * base + digit next) 0
      = Nat.ofDigits base (digits.map digit).reverse := by
  rw [Nat.ofDigits_eq_foldr, List.foldr_reverse, List.foldl_map]
  simp only [Nat.cast_id, Nat.add_comm, Nat.mul_comm]

end SafetyIsolation.Text

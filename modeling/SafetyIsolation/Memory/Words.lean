import Mathlib.Algebra.Order.Ring.Nat
import Mathlib.Data.Nat.Log
import Mathlib.Logic.Function.Basic

/-! Little-endian words of any width in a memory of bytes. -/

namespace SafetyIsolation.Memory

/-- A memory of bytes. -/
abbrev Contents : Type := Nat → UInt8

/-- The number that `width` bytes hold, the lowest one first. -/
def load (contents : Contents) : (width address : Nat) → Nat
  | 0, _ => 0
  | width + 1, address =>
      (contents address).toNat + 256 * load contents width (address + 1)

/-- Store the lowest `width` bytes of a number. -/
def store (contents : Contents) : (width address value : Nat) → Contents
  | 0, _, _ => contents
  | width + 1, address, value =>
      Function.update (store contents width (address + 1) (value / 256)) address value.toUInt8

variable {contents other : Contents} {width address : Nat}

theorem load_lt : load contents width address < 256 ^ width := by
  induction width generalizing address with
  | zero => exact Nat.one_pos
  | succ width ih =>
      have byte := (contents address).toNat_lt
      have rest : load contents width (address + 1) < 256 ^ width := ih
      rw [load, Nat.pow_succ]
      omega

/-- A word depends on its own bytes only, by induction on the width. -/
theorem load_congr
    (same : ∀ index, address ≤ index → index < address + width → contents index = other index)
    : load contents width address = load other width address := by
  induction width generalizing address with
  | zero => rfl
  | succ width ih =>
      have first : contents address = other address := same address le_rfl (by omega)
      have rest : load contents width (address + 1) = load other width (address + 1) :=
        ih (fun index least most => same index (by omega) (by omega))
      rw [load, load, first, rest]

/-- The other bytes stay as they are, by induction on the width. -/
theorem store_elsewhere {value index : Nat} (outside : index < address ∨ address + width ≤ index)
    : store contents width address value index = contents index := by
  induction width generalizing address value with
  | zero => rfl
  | succ width ih =>
      have different : index ≠ address := by omega
      rw [store, Function.update_of_ne different]
      exact ih (by omega)

/-- What a word's bytes become does not depend on what they were, by induction on the width. -/
theorem store_inside {value index : Nat} (least : address ≤ index) (most : index < address + width)
    : store contents width address value index = store other width address value index := by
  induction width generalizing address value with
  | zero => omega
  | succ width ih =>
      rw [store, store]
      by_cases first : index = address
      · rw [first, Function.update_self, Function.update_self]
      · rw [Function.update_of_ne first, Function.update_of_ne first]
        exact ih (by omega) (by omega)

/-- A word that is stored is the one that is loaded, by induction on the width. -/
theorem load_store {value : Nat} (fits : value < 256 ^ width)
    : load (store contents width address value) width address = value := by
  induction width generalizing address value with
  | zero =>
      rw [Nat.pow_zero] at fits
      rw [load]
      omega
  | succ width ih =>
      have upper : value / 256 < 256 ^ width := by
        rw [Nat.div_lt_iff_lt_mul (by decide)]
        rwa [Nat.pow_succ] at fits
      have rest : load (store contents (width + 1) address value) width (address + 1)
          = load (store contents width (address + 1) (value / 256)) width (address + 1) :=
        load_congr (fun index least _ => Function.update_of_ne (by omega) _ _)
      have first : (store contents (width + 1) address value address).toNat = value % 256 := by
        rw [store, Function.update_self]
        exact UInt8.toNat_ofNat
      rw [load, rest, ih upper, first]
      omega

/-- Storing what is there changes nothing, by induction on the width. -/
theorem store_load : store contents width address (load contents width address) = contents := by
  induction width generalizing address with
  | zero => rfl
  | succ width ih =>
      have byte := (contents address).toNat_lt
      have upper : load contents (width + 1) address / 256 = load contents width (address + 1) := by
        rw [load]
        omega
      have first : (load contents (width + 1) address).toUInt8 = contents address := by
        refine UInt8.toNat_inj.mp (UInt8.toNat_ofNat.trans ?_)
        rw [load]
        omega
      rw [store, upper, ih, first, Function.update_eq_self]

end SafetyIsolation.Memory

import Mathlib.Algebra.Order.Ring.Nat
import Mathlib.Data.List.TakeWhile
import SafetyIsolation.Text.Bytes

/-! Hexadecimal numbers of a fixed width, and reading them back. -/

namespace SafetyIsolation.Text

/-- The digit of a value below 16, with letters in the given case. -/
def hexDigit (letter : UInt8) (value : Nat) : UInt8 :=
  if value < 10 then (48 + value).toUInt8 else (letter.toNat + (value - 10)).toUInt8

/-- `%0*X` or `%0*x`: the digits of a value, most significant first. -/
def hexFixed (letter : UInt8) : (width : Nat) → (value : Nat) → Bytes
  | 0, _ => []
  | width + 1, value => hexFixed letter width (value / 16) ++ [hexDigit letter (value % 16)]

def upperA : UInt8 := 65

def lowerA : UInt8 := 97

/-- The value of a digit in either case. -/
def hexValue (byte : UInt8) : Option Nat :=
  if 48 ≤ byte.toNat ∧ byte.toNat ≤ 57 then some (byte.toNat - 48)
  else if 65 ≤ byte.toNat ∧ byte.toNat ≤ 70 then some (byte.toNat - 55)
  else if 97 ≤ byte.toNat ∧ byte.toNat ≤ 102 then some (byte.toNat - 87)
  else none

/-- The value of a sequence of digits. -/
def hexNumber (digits : Bytes) : Nat :=
  digits.foldl (fun value byte => value * 16 + (hexValue byte).getD 0) 0

/-- `std::from_chars` with base 16: the longest run of digits, or nothing if there is none or
its value does not fit.
-/
def fromHex (size : Nat) (text : Bytes) : Option Nat :=
  let digits := text.takeWhile (fun byte => (hexValue byte).isSome)
  if digits = [] then none
  else if hexNumber digits < size then some (hexNumber digits) else none

/-- The case of the letters a number is printed with. -/
def IsCase (letter : UInt8) : Prop := letter = upperA ∨ letter = lowerA

theorem hexValue_hexDigit {letter : UInt8} (isCase : IsCase letter) {value : Nat}
    (small : value < 16)
    : hexValue (hexDigit letter value) = some value := by
  have upper : ∀ value < 16, hexValue (hexDigit upperA value) = some value := by decide
  have lower : ∀ value < 16, hexValue (hexDigit lowerA value) = some value := by decide
  rcases isCase with rfl | rfl
  · exact upper value small
  · exact lower value small

theorem hexFixed_length (letter : UInt8) (width value : Nat)
    : (hexFixed letter width value).length = width := by
  induction width generalizing value with
  | zero => rfl
  | succ width ih => rw [hexFixed, List.length_append, ih, List.length_singleton]

/-- The digits of a value are those of its upper part and of its lower part, by induction over
the lower width.
-/
theorem hexFixed_add (letter : UInt8) (upper lower value : Nat)
    : hexFixed letter (upper + lower) value
      = hexFixed letter upper (value / 16 ^ lower) ++ hexFixed letter lower value := by
  induction lower generalizing value with
  | zero => rw [Nat.pow_zero, Nat.div_one, Nat.add_zero, hexFixed, List.append_nil]
  | succ lower ih =>
      have shifted : value / 16 / 16 ^ lower = value / 16 ^ (lower + 1) := by
        rw [Nat.div_div_eq_div_mul, Nat.pow_succ, Nat.mul_comm]
      rw [← Nat.add_assoc, hexFixed, ih, shifted, List.append_assoc, hexFixed]

theorem hexFixed_digits {letter : UInt8} (isCase : IsCase letter) (width value : Nat)
    : ∀ byte ∈ hexFixed letter width value, (hexValue byte).isSome = true := by
  induction width generalizing value with
  | zero => simp [hexFixed]
  | succ width ih =>
      intro byte member
      rcases List.mem_append.mp member with earlier | last
      · exact ih (value / 16) byte earlier
      · have small : value % 16 < 16 := Nat.mod_lt _ (by decide)
        rw [List.mem_singleton.mp last, hexValue_hexDigit isCase small]
        rfl

theorem hexFixed_subset {letter : UInt8} {digits : Bytes}
    (h : ∀ value < 16, hexDigit letter value ∈ digits) (width value : Nat)
    : hexFixed letter width value ⊆ digits := by
  induction width generalizing value with
  | zero => exact List.nil_subset _
  | succ width ih =>
      refine List.append_subset.mpr ⟨ih (value / 16), ?_⟩
      exact List.cons_subset.mpr ⟨h (value % 16) (Nat.mod_lt _ (by decide)), List.nil_subset _⟩

/-- Reading the digits back gives the value, by induction over the width. -/
theorem hexNumber_hexFixed {letter : UInt8} (isCase : IsCase letter) {width value : Nat}
    (fits : value < 16 ^ width)
    : hexNumber (hexFixed letter width value) = value := by
  induction width generalizing value with
  | zero =>
      rw [Nat.pow_zero] at fits
      simp only [hexFixed, hexNumber, List.foldl_nil]
      omega
  | succ width ih =>
      have small : value % 16 < 16 := Nat.mod_lt _ (by decide)
      have higher : value / 16 < 16 ^ width := by
        rw [Nat.div_lt_iff_lt_mul (by decide)]
        rwa [Nat.pow_succ] at fits
      have read := ih higher
      simp only [hexNumber] at read ⊢
      rw [hexFixed, List.foldl_append, read]
      simp only [List.foldl_cons, List.foldl_nil, hexValue_hexDigit isCase small,
        Option.getD_some]
      omega

/-- Two values that are printed the same are the same. -/
theorem hexFixed_inj {letter : UInt8} (isCase : IsCase letter) {width first second : Nat}
    (fits : first < 16 ^ width) (fits' : second < 16 ^ width)
    : hexFixed letter width first = hexFixed letter width second ↔ first = second := by
  constructor
  · intro same
    have read := congrArg hexNumber same
    rwa [hexNumber_hexFixed isCase fits, hexNumber_hexFixed isCase fits'] at read
  · intro same
    rw [same]

/-- A printed number is read back whole. -/
theorem fromHex_hexFixed {letter : UInt8} (isCase : IsCase letter) {width value size : Nat}
    (wide : 0 < width) (fits : value < 16 ^ width) (bounded : value < size)
    : fromHex size (hexFixed letter width value) = some value := by
  have digits : (hexFixed letter width value).takeWhile (fun byte => (hexValue byte).isSome)
      = hexFixed letter width value :=
    List.takeWhile_eq_self_iff.mpr (hexFixed_digits isCase width value)
  have some_digit : hexFixed letter width value ≠ [] := by
    intro none
    have length := hexFixed_length letter width value
    rw [none, List.length_nil] at length
    omega
  simp only [fromHex, digits, if_neg some_digit, hexNumber_hexFixed isCase fits,
    if_pos bounded]

end SafetyIsolation.Text

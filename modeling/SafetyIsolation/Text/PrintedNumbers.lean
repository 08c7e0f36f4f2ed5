import SafetyIsolation.Text.Fields
import SafetyIsolation.Text.Hex
import SafetyIsolation.Text.Numerals

/-! Numbers as `printf` writes them, in as many digits as they need: the text of a number has its
value, and it ends with its last digit.
-/

namespace SafetyIsolation.Text

/-- `%u`. -/
def unsignedText (value : Nat) : Bytes := (Nat.toDigits 10 value).map Char.toUInt8

/-- `%d`. -/
def signedText (value : Int) : Bytes :=
  if value < 0 then 45 :: unsignedText value.natAbs else unsignedText value.natAbs

/-- `%x` and `%lx` of a number. -/
def hexText (value : Nat) : Bytes := (Nat.toDigits 16 value).map Char.toUInt8

-----------------------------------------------------------------------------------------
-- Decimal numbers
-----------------------------------------------------------------------------------------

/-- The number that decimal digits denote, the most significant one first. -/
def decimalValue (digits : Bytes) : Nat :=
  Nat.ofDigits 10 (digits.map (fun byte => byte.toNat - 48)).reverse

def isDecimal (byte : UInt8) : Bool := 48 ≤ byte.toNat && byte.toNat ≤ 57

def isSigned (byte : UInt8) : Bool := byte = 45 || isDecimal byte

theorem toUInt8_digit {digit : Char} (isDigit : digit.isDigit = true)
    : digit.toUInt8.toNat = digit.toNat ∧ 48 ≤ digit.toNat ∧ digit.toNat ≤ 57 := by
  simp only [Char.isDigit, Bool.and_eq_true, decide_eq_true_eq, ge_iff_le, UInt32.le_iff_toNat_le]
    at isDigit
  change 48 ≤ digit.val.toNat ∧ digit.val.toNat ≤ 57 at isDigit
  refine ⟨?_, isDigit⟩
  rw [Char.toUInt8, UInt32.toNat_toUInt8]
  exact Nat.mod_eq_of_lt (by omega)

theorem unsignedText_digits (value : Nat)
    : ∀ byte ∈ unsignedText value, 48 ≤ byte.toNat ∧ byte.toNat ≤ 57 := by
  intro byte member
  obtain ⟨digit, isDigit, rfl⟩ := List.mem_map.mp member
  have range := toUInt8_digit (Nat.isDigit_of_mem_toDigits (by decide) (by decide) isDigit)
  rw [range.1]
  exact range.2

theorem signedText_absent {byte : UInt8} (value : Int)
    (notDigit : byte.toNat < 48 ∨ 57 < byte.toNat) (notMinus : byte ≠ 45)
    : byte ∉ signedText value := by
  intro member
  unfold signedText at member
  split at member
  · rcases List.mem_cons.mp member with isMinus | digit
    · exact notMinus isMinus
    · have range := unsignedText_digits _ _ digit
      omega
  · have range := unsignedText_digits _ _ member
    omega

theorem decimalValue_unsignedText (value : Nat) : decimalValue (unsignedText value) = value := by
  have digit : ∀ character ∈ Nat.toDigits 10 value, ∀ sum : Nat,
      sum * 10 + (character.toUInt8.toNat - 48) = 10 * sum + (character.toNat - '0'.toNat) := by
    intro character member sum
    have range := Nat.isDigit_of_mem_toDigits (by decide) (by decide) member
    rw [Nat.mul_comm, (toUInt8_digit range).1]
    rfl
  calc
    decimalValue (unsignedText value)
      = (Nat.toDigits 10 value).foldl
          (fun sum character => sum * 10 + (character.toUInt8.toNat - 48)) 0 := by
        rw [decimalValue, ← foldl_eq_ofDigits, unsignedText, List.foldl_map]
    _ = Nat.ofDigitChars 10 (Nat.toDigits 10 value) 0 := by
        rw [Nat.ofDigitChars_eq_foldl]
        exact List.foldl_ext _ _ _ (fun sum character member => digit character member sum)
    _ = value := Nat.ofDigitChars_ten_toDigits

theorem unsignedText_inside (value : Nat) : ∀ byte ∈ unsignedText value, isDecimal byte = true := by
  intro byte member
  have range := unsignedText_digits value byte member
  exact Bool.and_eq_true_iff.mpr ⟨decide_eq_true range.1, decide_eq_true range.2⟩

theorem unsignedText_injective : Function.Injective unsignedText := by
  intro a b same
  rw [← decimalValue_unsignedText a, same, decimalValue_unsignedText]

theorem signedText_inside (value : Int) : ∀ byte ∈ signedText value, isSigned byte = true := by
  intro byte member
  unfold signedText at member
  split at member
  · rcases List.mem_cons.mp member with rfl | digit
    · rfl
    · exact Bool.or_eq_true_iff.mpr (.inr (unsignedText_inside _ byte digit))
  · exact Bool.or_eq_true_iff.mpr (.inr (unsignedText_inside _ byte member))

theorem minus_not_mem_unsignedText (value : Nat) (rest : Bytes)
    : unsignedText value ≠ 45 :: rest := by
  intro same
  have digit := unsignedText_inside value 45 (same ▸ List.mem_cons_self)
  cases digit

theorem signedText_injective : Function.Injective signedText := by
  intro a b same
  unfold signedText at same
  split at same
  · split at same
    · have magnitude := unsignedText_injective (List.cons.inj same).2
      omega
    · exact absurd same.symm (minus_not_mem_unsignedText _ _)
  · split at same
    · exact absurd same (minus_not_mem_unsignedText _ _)
    · have magnitude := unsignedText_injective same
      omega

theorem decimal_splits : Splits unsignedText (EndsRun isDecimal) :=
  .of_alphabet unsignedText_inside unsignedText_injective

theorem signed_splits : Splits signedText (EndsRun isSigned) :=
  .of_alphabet signedText_inside signedText_injective

theorem blank_not_mem {inside : UInt8 → Bool} {word : Bytes} (outside : inside 32 = false)
    (within : ∀ byte ∈ word, inside byte = true)
    : 32 ∉ word := by
  intro member
  exact Bool.false_ne_true (outside.symm.trans (within 32 member))

theorem signedText_no_blank (value : Int) : 32 ∉ signedText value :=
  blank_not_mem (by decide) (signedText_inside value)

theorem signedText_ne_nil (value : Int) : signedText value ≠ [] := by
  unfold signedText
  split
  · exact List.cons_ne_nil _ _
  · exact List.map_eq_nil_iff.not.mpr Nat.toDigits_ne_nil

-----------------------------------------------------------------------------------------
-- Hexadecimal numbers
-----------------------------------------------------------------------------------------

def isHex (byte : UInt8) : Bool := (hexValue byte).isSome

/-- The digits of a hexadecimal number, the last one apart. -/
theorem hexText_eq (value : Nat)
    : hexText value
      = if value < 16 then [hexDigit lowerA value]
        else hexText (value / 16) ++ [hexDigit lowerA (value % 16)] := by
  have digit : ∀ value < 16, (Nat.digitChar value).toUInt8 = hexDigit lowerA value := by decide
  split
  · rename_i small
    rw [hexText, Nat.toDigits_of_lt_base small, List.map_singleton, digit value small]
  · rename_i large
    rw [hexText, Nat.toDigits_of_base_le (by decide) (Nat.le_of_not_lt large), List.map_append,
      List.map_singleton, digit _ (Nat.mod_lt _ (by decide))]
    rfl

/-- A hexadecimal number consists of digits that have its value, by induction on the number. -/
theorem hexText_spec (value : Nat)
    : (∀ byte ∈ hexText value, isHex byte = true) ∧ hexNumber (hexText value) = value := by
  induction value using Nat.strongRecOn with
  | ind value ih =>
      rw [hexText_eq]
      split
      · rename_i small
        have digit := hexValue_hexDigit (.inr rfl : IsCase lowerA) small
        refine ⟨fun byte member => ?_, ?_⟩
        · rw [List.mem_singleton.mp member, isHex, digit]
          rfl
        · simp [hexNumber, digit]
      · rename_i large
        have digit := hexValue_hexDigit (.inr rfl : IsCase lowerA)
          (Nat.mod_lt value (show 16 > 0 by decide))
        obtain ⟨digits, number⟩ := ih (value / 16) (Nat.div_lt_self (by omega) (by decide))
        refine ⟨fun byte member => ?_, ?_⟩
        · rcases List.mem_append.mp member with earlier | last
          · exact digits byte earlier
          · rw [List.mem_singleton.mp last, isHex, digit]
            rfl
        · rw [hexNumber] at number
          rw [hexNumber, List.foldl_append, number, List.foldl_cons, List.foldl_nil, digit,
            Option.getD_some]
          omega

theorem hexText_injective : Function.Injective hexText := by
  intro a b same
  rw [← (hexText_spec a).2, same, (hexText_spec b).2]

theorem hexText_ne_nil (value : Nat) : hexText value ≠ [] := by
  rw [hexText_eq]
  split
  · exact List.cons_ne_nil _ _
  · exact List.append_ne_nil_of_right_ne_nil _ (List.cons_ne_nil _ _)

theorem hex_splits : Splits hexText (EndsRun isHex) :=
  .of_alphabet (fun value => (hexText_spec value).1) hexText_injective

theorem hexText_no_blank (value : Nat) : 32 ∉ hexText value :=
  blank_not_mem (by decide) (hexText_spec value).1

end SafetyIsolation.Text

import SafetyIsolation.Devmem.PhysView
import SafetyIsolation.Text.Numerals

/-! Which numbers `devmem` accepts. Besides the literals of base-0 syntax, `strtoull` accepts
literals behind blanks and a sign, and it gives a value to literals that do not fit.
-/

namespace SafetyIsolation.Devmem

open SafetyIsolation.Text

/-- The number that digits denote, the most significant one first. -/
def numeral (base : Nat) (digits : Bytes) : Nat :=
  Nat.ofDigits base (digits.map (fun byte => (hexValue byte).getD 0)).reverse

def Digits (base : Nat) (digits : Bytes) : Prop := ∀ byte ∈ digits, isDigitOf base byte = true

/-- Unsigned integer literals in base-0 syntax, with their values. -/
inductive Literal : Bytes → Nat → Prop where
  | decimal {first : UInt8} {rest : Bytes} (digits : Digits 10 (first :: rest))
      (nonzero : first ≠ 48)
      : Literal (first :: rest) (numeral 10 (first :: rest))
  | octal {rest : Bytes} (digits : Digits 8 rest) : Literal (48 :: rest) (numeral 8 rest)
  | hexadecimal {x : UInt8} {rest : Bytes} (isX : x = 120 ∨ x = 88) (nonempty : rest ≠ [])
      (digits : Digits 16 rest)
      : Literal (48 :: x :: rest) (numeral 16 rest)

/-- Blanks and a sign. -/
structure Decoration (front : Bytes) : Prop where
  exists_parts : ∃ blanks sign,
    front = blanks ++ sign
    ∧ (∀ byte ∈ blanks, isSpace byte = true)
    ∧ (sign = [] ∨ sign = [43] ∨ sign = [45])

/-- A literal with something before it that `strtoull` skips. -/
def Decorated (text : Bytes) : Prop :=
  ∃ front literal value, text = front ++ literal ∧ Decoration front ∧ front ≠ []
    ∧ Literal literal value

-----------------------------------------------------------------------------------------
-- The number in a text
-----------------------------------------------------------------------------------------

/-- The number that fills a text without blanks and sign. -/
def wholeNumber (text : Bytes) : Option Nat :=
  let (base, digits) := subject text
  if digits ≠ [] ∧ digits.all (isDigitOf base) then some (magnitude base digits) else none

theorem magnitude_eq (base : Nat) (digits : Bytes) : magnitude base digits = numeral base digits :=
  foldl_eq_ofDigits base _ digits

/-- A leading zero does not count. -/
theorem numeral_zero_cons (base : Nat) (digits : Bytes)
    : numeral base (48 :: digits) = numeral base digits := by
  have zero : (hexValue 48).getD 0 = 0 := by decide
  rw [← magnitude_eq, ← magnitude_eq, magnitude, List.foldl_cons, zero, Nat.zero_mul, magnitude]

theorem digits_iff_all {base : Nat} {digits : Bytes}
    : digits.all (isDigitOf base) = true ↔ Digits base digits := List.all_eq_true

theorem startsHex_iff {rest : Bytes}
    : startsHex rest = true
      ↔ ∃ x first later, rest = x :: first :: later ∧ (x = 120 ∨ x = 88)
        ∧ isDigitOf 16 first = true := by
  constructor
  · intro starts
    match rest, starts with
    | x :: first :: later, starts =>
        rw [startsHex, Bool.and_eq_true, Bool.or_eq_true, decide_eq_true_eq, decide_eq_true_eq]
          at starts
        exact ⟨x, first, later, rfl, starts⟩
  · intro shape
    obtain ⟨x, first, later, rfl, isX, digit⟩ := shape
    rw [startsHex, Bool.and_eq_true, Bool.or_eq_true, decide_eq_true_eq, decide_eq_true_eq]
    exact ⟨isX, digit⟩

/-- Where no hexadecimal number starts, a zero starts an octal one. -/
theorem literal_octal_iff {rest : Bytes} {value : Nat} (other : startsHex rest = false)
    : Literal (48 :: rest) value ↔ Digits 8 (48 :: rest) ∧ numeral 8 (48 :: rest) = value := by
  constructor
  · intro literal
    cases literal with
    | decimal digits nonzero => exact absurd rfl nonzero
    | octal digits =>
        refine ⟨fun byte member => ?_, numeral_zero_cons 8 rest⟩
        rcases List.mem_cons.mp member with rfl | later
        · decide
        · exact digits byte later
    | @hexadecimal x rest isX nonempty digits =>
        obtain ⟨first, later, rfl⟩ := List.exists_cons_of_ne_nil nonempty
        have starts := startsHex_iff.mpr
          ⟨x, first, later, rfl, isX, digits first List.mem_cons_self⟩
        exact absurd (starts.symm.trans other) (by decide)
  · intro shape
    obtain ⟨digits, rfl⟩ := shape
    rw [numeral_zero_cons]
    exact .octal (fun byte member => digits byte (List.mem_cons_of_mem _ member))

theorem literal_hexadecimal_iff {x : UInt8} {rest : Bytes} {value : Nat}
    (starts : startsHex (x :: rest) = true)
    : Literal (48 :: x :: rest) value ↔ (rest ≠ [] ∧ Digits 16 rest) ∧ numeral 16 rest = value := by
  obtain ⟨_, first, later, same, isX, digit⟩ := startsHex_iff.mp starts
  cases same
  constructor
  · intro literal
    cases literal with
    | decimal digits nonzero => exact absurd rfl nonzero
    | octal digits =>
        have isDigit := digits x List.mem_cons_self
        rcases isX with rfl | rfl
        · exact absurd isDigit (by decide)
        · exact absurd isDigit (by decide)
    | hexadecimal _ nonempty digits => exact ⟨⟨nonempty, digits⟩, rfl⟩
  · intro shape
    obtain ⟨⟨nonempty, digits⟩, rfl⟩ := shape
    exact .hexadecimal isX nonempty digits

theorem literal_decimal_iff {first : UInt8} {rest : Bytes} {value : Nat} (nonzero : first ≠ 48)
    : Literal (first :: rest) value
      ↔ Digits 10 (first :: rest) ∧ numeral 10 (first :: rest) = value := by
  constructor
  · intro literal
    cases literal with
    | decimal digits _ => exact ⟨digits, rfl⟩
    | octal _ => exact absurd rfl nonzero
    | hexadecimal _ _ _ => exact absurd rfl nonzero
  · intro shape
    obtain ⟨digits, rfl⟩ := shape
    exact .decimal digits nonzero

/-- The number that fills a text is a literal of base-0 syntax. -/
theorem wholeNumber_eq_some_iff {text : Bytes} {value : Nat}
    : wholeNumber text = some value ↔ Literal text value := by
  unfold wholeNumber
  simp only [Option.ite_none_right_eq_some, digits_iff_all, magnitude_eq, Option.some.injEq]
  match text with
  | [] =>
      constructor
      · exact fun whole => absurd rfl whole.1.1
      · intro literal
        cases literal
  | first :: rest =>
      by_cases zero : first = 48
      · subst zero
        cases starts : startsHex rest with
        | false =>
            rw [literal_octal_iff starts, subject, if_pos rfl, starts]
            simp
        | true =>
            obtain ⟨x, first, later, rfl, _⟩ := startsHex_iff.mp starts
            rw [literal_hexadecimal_iff starts, subject, if_pos rfl, starts]
            simp
      · rw [literal_decimal_iff zero, subject, if_neg zero]
        simp

/-- The value `strtoull` gives to a number. -/
def converted (negative : Bool) (value : Nat) : UInt64 :=
  if UInt64.size ≤ value then -1 else if negative then -value.toUInt64 else value.toUInt64

/-- The sign and the rest of a text, after its blanks. -/
def stripped (text : Bytes) : Bool × Bytes := takeSign (text.dropWhile isSpace)

theorem strtoull_eq (text : Bytes) {base : Nat} {digits : Bytes}
    (shape : subject (stripped text).2 = (base, digits))
    : strtoull text
      = if digits.takeWhile (isDigitOf base) = [] then (0, text)
        else (converted (stripped text).1 (magnitude base (digits.takeWhile (isDigitOf base))),
          digits.dropWhile (isDigitOf base)) := by
  have shape : subject (takeSign (text.dropWhile isSpace)).2 = (base, digits) := shape
  simp only [strtoull, shape]
  rfl

/-- A number that fills what follows the blanks and the sign uses up the text. -/
theorem strtoull_of_whole {text : Bytes} {value : Nat}
    (number : wholeNumber (stripped text).2 = some value)
    : strtoull text = (converted (stripped text).1 value, []) := by
  rcases shape : subject (stripped text).2 with ⟨base, digits⟩
  simp only [wholeNumber, shape, Option.ite_none_right_eq_some, digits_iff_all] at number
  obtain ⟨⟨nonempty, areDigits⟩, same⟩ := number
  cases same
  have all : digits.takeWhile (isDigitOf base) = digits :=
    List.takeWhile_eq_self_iff.mpr areDigits
  rw [strtoull_eq text shape, all, if_neg nonempty, List.dropWhile_eq_nil_iff.mpr areDigits]

/-- Otherwise something is left. -/
theorem strtoull_of_not_whole {text : Bytes} (nonempty : text ≠ [])
    (none : wholeNumber (stripped text).2 = none)
    : (strtoull text).2 ≠ [] := by
  rcases shape : subject (stripped text).2 with ⟨base, digits⟩
  rw [strtoull_eq text shape]
  split
  · exact nonempty
  · rename_i accepted
    intro used
    have areDigits : Digits base digits := List.dropWhile_eq_nil_iff.mp used
    have some : digits ≠ [] := fun empty => accepted (by rw [empty, List.takeWhile_nil])
    have number : wholeNumber (stripped text).2 = .some (magnitude base digits) := by
      simp only [wholeNumber, shape, Option.ite_none_right_eq_some, digits_iff_all]
      exact ⟨⟨some, areDigits⟩, trivial⟩
    cases none.symm.trans number

theorem parseNumber_eq_ok_iff {empty invalid str : Bytes} {val : UInt64} (nonempty : str ≠ [])
    (noNul : 0 ∉ str)
    : parseNumber empty invalid str = .ok val
      ↔ ∃ value, wholeNumber (stripped str).2 = some value
        ∧ converted (stripped str).1 value = val := by
  have whole : str.takeWhile (· ≠ 0) = str := by
    refine List.takeWhile_eq_self_iff.mpr (fun byte member => decide_eq_true ?_)
    rintro rfl
    exact noNul member
  have positive : ([] : Bytes).length ≠ str.length :=
    fun none => nonempty (List.length_eq_zero_iff.mp none.symm)
  rw [parseNumber, if_neg nonempty, whole]
  dsimp only
  cases number : wholeNumber (stripped str).2 with
  | none =>
      rw [if_pos (.inr (strtoull_of_not_whole nonempty number))]
      simp
  | some value =>
      rw [strtoull_of_whole number, if_neg (by simpa using positive)]
      simp

theorem takeSign_spec (text : Bytes)
    : ∃ sign, text = sign ++ (takeSign text).2 ∧ (sign = [] ∨ sign = [43] ∨ sign = [45]) := by
  unfold takeSign
  split
  · rename_i minus
    obtain ⟨rest, rfl⟩ := List.head?_eq_some_iff.mp minus
    exact ⟨[45], rfl, .inr (.inr rfl)⟩
  · split
    · rename_i plus
      obtain ⟨rest, rfl⟩ := List.head?_eq_some_iff.mp plus
      exact ⟨[43], rfl, .inr (.inl rfl)⟩
    · exact ⟨[], rfl, .inl rfl⟩

/-- What is skipped is blanks and a sign. -/
theorem stripped_spec (text : Bytes)
    : ∃ front, text = front ++ (stripped text).2 ∧ Decoration front := by
  obtain ⟨sign, same, isSign⟩ := takeSign_spec (text.dropWhile isSpace)
  refine ⟨text.takeWhile isSpace ++ sign, ?_, ⟨_, _, rfl, ?_, isSign⟩⟩
  · rw [List.append_assoc, stripped, ← same, List.takeWhile_append_dropWhile]
  · exact fun byte member => List.mem_takeWhile_imp member

theorem le_of_isDigitOf {base : Nat} {byte : UInt8} (digit : isDigitOf base byte = true)
    : 48 ≤ byte.toNat := by
  unfold isDigitOf hexValue at digit
  split at digit
  · omega
  · split at digit
    · omega
    · split at digit
      · omega
      · cases digit

/-- A literal starts with a digit, which is no blank and no sign. -/
theorem Literal.starts {text : Bytes} {value : Nat} (literal : Literal text value)
    : ∃ first rest, text = first :: rest ∧ isSpace first = false ∧ first ≠ 45 ∧ first ≠ 43 := by
  have digit : ∃ first rest, text = first :: rest ∧ 48 ≤ first.toNat := by
    cases literal with
    | decimal digits _ => exact ⟨_, _, rfl, le_of_isDigitOf (digits _ List.mem_cons_self)⟩
    | octal _ => exact ⟨_, _, rfl, by decide⟩
    | hexadecimal _ _ _ => exact ⟨_, _, rfl, by decide⟩
  obtain ⟨first, rest, rfl, above⟩ := digit
  refine ⟨first, rest, rfl, ?_, ?_, ?_⟩
  · simp only [isSpace, Bool.or_eq_false_iff, Bool.and_eq_false_iff, decide_eq_false_iff_not]
    refine ⟨?_, .inr (by omega)⟩
    rintro rfl
    exact absurd above (by decide)
  · rintro rfl
    exact absurd above (by decide)
  · rintro rfl
    exact absurd above (by decide)

/-- Blanks and a sign are skipped before a literal. -/
theorem stripped_decorated {front text : Bytes} {value : Nat} (decoration : Decoration front)
    (literal : Literal text value)
    : (stripped (front ++ text)).2 = text := by
  obtain ⟨blanks, sign, rfl, areBlanks, isSign⟩ := decoration
  obtain ⟨first, rest, rfl, notBlank, notMinus, notPlus⟩ := literal.starts
  rw [stripped, List.append_assoc, List.dropWhile_append_of_pos areBlanks]
  rcases isSign with rfl | rfl | rfl
  · rw [List.nil_append, List.dropWhile_cons_of_neg (by simpa using notBlank), takeSign,
      List.head?_cons, if_neg (by simpa using notMinus), if_neg (by simpa using notPlus)]
  · rfl
  · rfl

/-- Nothing is skipped of a literal. -/
theorem stripped_literal {text : Bytes} {value : Nat} (literal : Literal text value)
    : stripped text = (false, text) := by
  obtain ⟨first, rest, rfl, notBlank, notMinus, notPlus⟩ := literal.starts
  rw [stripped, List.dropWhile_cons_of_neg (by simpa using notBlank), takeSign, List.head?_cons,
    if_neg (by simpa using notMinus), if_neg (by simpa using notPlus)]

theorem Literal.unique {text : Bytes} {value value' : Nat} (literal : Literal text value)
    (literal' : Literal text value')
    : value = value' := by
  rw [← wholeNumber_eq_some_iff] at literal literal'
  exact Option.some.inj (literal.symm.trans literal')

theorem Decorated.not_literal {text : Bytes} (decorated : Decorated text) (value : Nat)
    : ¬ Literal text value := by
  intro whole
  obtain ⟨front, text, value, rfl, decoration, nonempty, literal⟩ := decorated
  have same : text = front ++ text :=
    (stripped_decorated decoration literal).symm.trans (congrArg Prod.snd (stripped_literal whole))
  exact nonempty (List.self_eq_append_left.mp same)

-----------------------------------------------------------------------------------------
-- The two parsers
-----------------------------------------------------------------------------------------

section Exact

variable {empty invalid str : Bytes} (nonempty : str ≠ []) (noNul : 0 ∉ str)
include nonempty noNul

theorem parseNumber_literal {value : Nat} (literal : Literal str value)
    : parseNumber empty invalid str = .ok (converted false value) := by
  rw [parseNumber_eq_ok_iff nonempty noNul, stripped_literal literal]
  exact ⟨value, wholeNumber_eq_some_iff.mpr literal, rfl⟩

theorem parseNumber_decorated (decorated : Decorated str)
    : ∃ val, parseNumber empty invalid str = .ok val := by
  obtain ⟨front, text, value, rfl, decoration, _, literal⟩ := decorated
  refine ⟨_, (parseNumber_eq_ok_iff nonempty noNul).mpr ⟨value, ?_, rfl⟩⟩
  rw [stripped_decorated decoration literal]
  exact wholeNumber_eq_some_iff.mpr literal

/-- Only literals are accepted, with or without blanks and a sign. -/
theorem parseNumber_accepted {val : UInt64} (accepted : parseNumber empty invalid str = .ok val)
    : (∃ value, Literal str value) ∨ Decorated str := by
  obtain ⟨value, number, _⟩ := (parseNumber_eq_ok_iff nonempty noNul).mp accepted
  obtain ⟨front, same, decoration⟩ := stripped_spec str
  have literal := wholeNumber_eq_some_iff.mp number
  by_cases plain : front = []
  · subst plain
    rw [List.nil_append] at same
    exact .inl ⟨value, same ▸ literal⟩
  · exact .inr ⟨front, _, value, same, decoration, plain, literal⟩

/-- A parser whose results are the numbers below a size reads exactly the literals it should if
it gets none with blanks or a sign and none that does not fit.
-/
theorem parseNumber_exact_iff {α : Type} {narrow : UInt64 → α} {toNat : α → Nat} {size : Nat}
    (injective : Function.Injective toNat)
    (fits : ∀ value, toNat (narrow (converted false value)) = value ↔ value < size)
    : (∀ val, (parseNumber empty invalid str).map narrow = .ok val ↔ Literal str (toNat val))
      ↔ ¬ Decorated str ∧ ∀ value, Literal str value → value < size := by
  constructor
  · refine fun exactly => ⟨fun decorated => ?_, fun value literal => ?_⟩
    · obtain ⟨val, accepted⟩ : ∃ val, parseNumber empty invalid str = .ok val :=
        parseNumber_decorated nonempty noNul decorated
      exact decorated.not_literal _ ((exactly (narrow val)).mp (congrArg _ accepted))
    · have accepted : parseNumber empty invalid str = .ok (converted false value) :=
        parseNumber_literal nonempty noNul literal
      have read := (exactly (narrow (converted false value))).mp (congrArg _ accepted)
      exact (fits value).mp (read.unique literal)
  · intro proper val
    obtain ⟨plain, small⟩ := proper
    constructor
    · intro parsed
      cases accepted : parseNumber empty invalid str with
      | error message =>
          rw [accepted] at parsed
          cases parsed
      | ok read =>
          obtain ⟨value, literal⟩ :=
            (parseNumber_accepted nonempty noNul accepted).resolve_right plain
          rw [parseNumber_literal nonempty noNul literal] at parsed
          cases parsed
          rwa [(fits value).mpr (small value literal)]
    · intro literal
      have accepted : parseNumber empty invalid str = .ok (converted false (toNat val)) :=
        parseNumber_literal nonempty noNul literal
      rw [accepted]
      exact congrArg _ (injective ((fits _).mpr (small _ literal)))

end Exact

theorem converted_toNat {value : Nat}
    : (converted false value).toNat = value ↔ value < UInt64.size := by
  unfold converted
  split
  · rename_i large
    refine ⟨fun same => ?_, fun small => absurd small (Nat.not_lt.mpr large)⟩
    exact same ▸ (-1 : UInt64).toNat_lt_size
  · rename_i small
    exact ⟨fun _ => Nat.lt_of_not_le small, UInt64.toNat_ofNat_of_lt'⟩

theorem converted_toUInt32_toNat {value : Nat}
    : (converted false value).toUInt32.toNat = value ↔ value < UInt32.size := by
  refine ⟨fun same => same ▸ UInt32.toNat_lt_size _, fun small => ?_⟩
  have fits : value < UInt64.size := Nat.lt_trans small (by decide)
  rw [UInt64.toNat_toUInt32, converted_toNat.mpr fits]
  exact Nat.mod_eq_of_lt small

/-- A number is read exactly as written unless it comes with blanks or a sign or does not fit:
then it is accepted all the same, and changed.
-/
theorem parse_exact_iff {str : Bytes} (nonempty : str ≠ []) (noNul : 0 ∉ str)
    : ((∀ val, parseAddress str = .ok val ↔ Literal str val.toNat)
        ↔ ¬ Decorated str ∧ ∀ value, Literal str value → value < 2 ^ 64)
      ∧ ((∀ val, parseValue32 str = .ok val ↔ Literal str val.toNat)
        ↔ ¬ Decorated str ∧ ∀ value, Literal str value → value < 2 ^ 32) := by
  have whole : ∀ number : Except Bytes UInt64, number.map id = number := by
    intro number
    cases number <;> rfl
  constructor
  · have exactly : (∀ val, (parseAddress str).map id = .ok val ↔ Literal str val.toNat) ↔ _ :=
      parseNumber_exact_iff nonempty noNul (fun _ _ => UInt64.toNat_inj.mp)
        (fun _ => converted_toNat)
    rwa [whole] at exactly
  · exact parseNumber_exact_iff nonempty noNul (fun _ _ => UInt32.toNat_inj.mp)
      (fun _ => converted_toUInt32_toNat)

/-- A hexadecimal value of 32 bits. -/
theorem parse_exact_hexadecimal
    : parseAddress (utf8 "0xDEADDEAD") = .ok 0xDEADDEAD
      ∧ parseValue32 (utf8 "0xDEADDEAD") = .ok 0xDEADDEAD := by
  have literal : Literal (utf8 "0xDEADDEAD") 0xDEADDEAD := wholeNumber_eq_some_iff.mp (by decide)
  have plain : ¬ Decorated (utf8 "0xDEADDEAD") :=
    fun decorated => decorated.not_literal _ literal
  have exactly := @parse_exact_iff (utf8 "0xDEADDEAD") (by decide) (by decide)
  refine ⟨(exactly.1.mpr ⟨plain, ?_⟩ _).mpr literal, (exactly.2.mpr ⟨plain, ?_⟩ _).mpr literal⟩
  · intro value other
    rw [other.unique literal]
    decide
  · intro value other
    rw [other.unique literal]
    decide

/-- A value of 33 bits loses its highest bit, and a negative number becomes an address. -/
theorem parse_changes_numbers
    : parseValue32 (utf8 "0x100000000") = .ok 0
      ∧ Literal (utf8 "0x100000000") (2 ^ 32)
      ∧ ¬ (∀ val, parseValue32 (utf8 "0x100000000") = .ok val
        ↔ Literal (utf8 "0x100000000") val.toNat)
      ∧ parseAddress (utf8 "-1") = .ok 0xFFFFFFFFFFFFFFFF
      ∧ ¬ (∀ val, parseAddress (utf8 "-1") = .ok val ↔ Literal (utf8 "-1") val.toNat) := by
  have literal : Literal (utf8 "0x100000000") (2 ^ 32) := wholeNumber_eq_some_iff.mp (by decide)
  have narrowed : parseValue32 (utf8 "0x100000000") = .ok 0 := by decide
  have negated : parseAddress (utf8 "-1") = .ok 0xFFFFFFFFFFFFFFFF := by decide
  refine ⟨narrowed, literal, fun exactly => ?_, negated, fun exactly => ?_⟩
  · exact absurd (((exactly 0).mp narrowed).unique literal) (by decide)
  · exact absurd (wholeNumber_eq_some_iff.mpr ((exactly _).mp negated)) (by decide)

end SafetyIsolation.Devmem

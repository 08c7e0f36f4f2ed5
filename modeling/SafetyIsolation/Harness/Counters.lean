import SafetyIsolation.Harness.Scenarios
import SafetyIsolation.Kernel.ProcShow

/-! Counters in a status text: what `parse_counter` accepts, and what it finds in the status of
the rogue thread.
-/

namespace SafetyIsolation.Harness

open SafetyIsolation.Kernel SafetyIsolation.Text

-----------------------------------------------------------------------------------------
-- The field in the status of the rogue thread
-----------------------------------------------------------------------------------------

/-- The only `m` before the field is followed by an `o`. -/
theorem afterFirst_rogueStatusShow (attackMode : UInt32) (writes attacks : Int32)
    : afterFirst Demo.kMetadataAttackCountField (rogueStatusShow attackMode writes attacks)
      = some (32 :: (signedText attacks.toInt ++ [10])) := by
  have mode : ∀ suffix ∈ (utf8 "attack_mode: ").tails, suffix ≠ []
      → ¬ suffix <+: Demo.kMetadataAttackCountField
        ∧ ¬ Demo.kMetadataAttackCountField <+: suffix := by decide
  have field : Demo.kMetadataAttackCountField = 109 :: utf8 "etadata_attack_count:" := by decide
  have space : utf8 "metadata_attack_count: " = Demo.kMetadataAttackCountField ++ [32] := by decide
  have absent : 109 ∉ unsignedText attackMode.toNat
      ++ (utf8 "\nunsynchronized_write_count: " ++ (signedText writes.toInt ++ [10])) := by
    have first : 109 ∉ unsignedText attackMode.toNat :=
      fun member => absurd (unsignedText_digits _ _ member).2 (by decide)
    have second : 109 ∉ utf8 "\nunsynchronized_write_count: " := by decide
    have third : 109 ∉ signedText writes.toInt :=
      signedText_absent _ (.inr (by decide)) (by decide)
    simp only [List.mem_append, List.mem_singleton, not_or]
    exact ⟨first, second, third, by decide⟩
  have text : rogueStatusShow attackMode writes attacks
      = utf8 "attack_mode: " ++ ((unsignedText attackMode.toNat
        ++ (utf8 "\nunsynchronized_write_count: " ++ (signedText writes.toInt ++ [10])))
          ++ (Demo.kMetadataAttackCountField
            ++ (32 :: (signedText attacks.toInt ++ [10])))) := by
    have second : utf8 "\nunsynchronized_write_count: "
        = utf8 "\n" ++ utf8 "unsynchronized_write_count: " := by decide
    have newline : utf8 "\n" = [10] := by decide
    simp only [rogueStatusShow, space, second, newline, List.append_assoc, List.cons_append,
      List.nil_append]
  rw [text, afterFirst_append _ (fun suffix isSuffix => mode suffix ((List.mem_tails _ _).mpr
    isSuffix))]
  rw [afterFirst_append _ (field ▸ no_occurrence_of_absent absent)]
  exact afterFirst_self _ (by rw [field]; exact List.cons_ne_nil _ _)

/-- What the parser can find in the status: a positive number only if the counter is positive. -/
theorem counter_positive_of_parseCounter {attackMode : UInt32} {writes attacks : Int32}
    {count : UInt64}
    (parsed : parseCounter (rogueStatusShow attackMode writes attacks)
      Demo.kMetadataAttackCountField = some count)
    (positive : 0 < count)
    : 0 < attacks.toInt := by
  by_contra small
  unfold parseCounter at parsed
  rw [afterFirst_rogueStatusShow] at parsed
  rcases Int.lt_or_eq_of_le (Int.not_lt.mp small) with negative | zero
  · -- A minus sign is no digit.
    have sign : signedText attacks.toInt = 45 :: unsignedText attacks.toInt.natAbs :=
      if_pos negative
    rw [sign] at parsed
    cases parsed
  · rw [zero] at parsed
    cases parsed
    cases positive

-----------------------------------------------------------------------------------------
-- What is accepted
-----------------------------------------------------------------------------------------

def Blank (byte : UInt8) : Prop := byte = 32 ∨ byte = 9

def Digit (byte : UInt8) : Prop := 48 ≤ byte.toNat ∧ byte.toNat ≤ 57

def LineEnd (byte : UInt8) : Prop := byte = 13 ∨ byte = 10

/-- Blanks, then digits that run up to the end of the line. -/
structure CounterText (rest : Bytes) (value : Nat) : Prop where
  exists_parts : ∃ blanks digits tail,
    rest = blanks ++ (digits ++ tail)
    ∧ (∀ byte ∈ blanks, Blank byte)
    ∧ digits ≠ []
    ∧ (∀ byte ∈ digits, Digit byte)
    ∧ decimalValue digits = value
    ∧ (∀ byte ∈ tail.head?, LineEnd byte)

theorem fromDecimal_eq_some_iff {text : Bytes} {value : UInt64}
    : fromDecimal text = some value
      ↔ text ≠ [] ∧ (∀ byte ∈ text, Digit byte) ∧ decimalValue text = value.toNat := by
  have test : (!text.isEmpty && text.all (fun byte => 48 ≤ byte.toNat && byte.toNat ≤ 57)) = true
      ↔ text ≠ [] ∧ ∀ byte ∈ text, Digit byte := by
    rw [Bool.and_eq_true]
    refine and_congr (by simp) ?_
    simp only [List.all_eq_true, Bool.and_eq_true, decide_eq_true_eq, Digit]
  rw [fromDecimal, foldl_eq_ofDigits, ← decimalValue]
  by_cases accepted : text ≠ [] ∧ ∀ byte ∈ text, Digit byte
  · rw [if_pos (test.mpr accepted)]
    dsimp only
    constructor
    · intro read
      split at read
      · rename_i small
        cases read
        refine ⟨accepted.1, accepted.2, ?_⟩
        exact (Nat.mod_eq_of_lt small).symm
      · cases read
    · intro read
      obtain ⟨_, _, same⟩ := read
      have small : decimalValue text < UInt64.size := same ▸ value.toNat_lt_size
      rw [if_pos small, same]
      exact congrArg some (UInt64.ofNat_toNat)
  · rw [if_neg (fun isText => accepted (test.mp isText))]
    constructor
    · intro read
      cases read
    · exact fun both => absurd ⟨both.1, both.2.1⟩ accepted

/-- Blanks are skipped up to the first digit, and digits are read up to the end of the line. -/
theorem counterText_iff {rest : Bytes} {value : UInt64}
    : fromDecimal ((rest.dropWhile (fun byte => byte = 32 ∨ byte = 9)).takeWhile
        (fun byte => byte ≠ 13 ∧ byte ≠ 10)) = some value
      ↔ CounterText rest value.toNat := by
  rw [fromDecimal_eq_some_iff]
  constructor
  · intro read
    obtain ⟨nonempty, digits, same⟩ := read
    refine ⟨rest.takeWhile (fun byte => byte = 32 ∨ byte = 9), _,
      (rest.dropWhile (fun byte => byte = 32 ∨ byte = 9)).dropWhile
        (fun byte => byte ≠ 13 ∧ byte ≠ 10), ?_, ?_, nonempty, digits, same, ?_⟩
    · rw [List.takeWhile_append_dropWhile, List.takeWhile_append_dropWhile]
    · intro byte member
      simpa [Blank] using List.mem_takeWhile_imp member
    · intro byte first
      have stopped := List.head?_dropWhile_not (fun byte : UInt8 => byte ≠ 13 ∧ byte ≠ 10)
        (rest.dropWhile (fun byte => byte = 32 ∨ byte = 9))
      rw [Option.mem_def.mp first] at stopped
      by_contra other
      exact absurd (not_or.mp other) (of_decide_eq_false stopped)
  · intro accepted
    obtain ⟨blanks, digits, tail, rfl, areBlanks, nonempty, areDigits, same, ends⟩ := accepted
    have skipped : (blanks ++ (digits ++ tail)).dropWhile (fun byte => byte = 32 ∨ byte = 9)
        = digits ++ tail := by
      have skips : ∀ byte ∈ blanks, decide (byte = 32 ∨ byte = 9) = true :=
        fun byte member => decide_eq_true (areBlanks byte member)
      rw [List.dropWhile_append_of_pos skips]
      cases digits with
      | nil => exact absurd rfl nonempty
      | cons first later =>
          have isDigit := areDigits first List.mem_cons_self
          refine List.dropWhile_cons_of_neg (fun blank => ?_)
          rcases of_decide_eq_true blank with rfl | rfl
          · exact absurd isDigit.1 (by decide)
          · exact absurd isDigit.1 (by decide)
    have read : (digits ++ tail).takeWhile (fun byte => byte ≠ 13 ∧ byte ≠ 10) = digits := by
      have keeps : ∀ byte ∈ digits, decide (byte ≠ 13 ∧ byte ≠ 10) = true := by
        intro byte member
        refine decide_eq_true ⟨?_, ?_⟩
        · rintro rfl
          exact absurd (areDigits _ member).1 (by decide)
        · rintro rfl
          exact absurd (areDigits _ member).1 (by decide)
      rw [List.takeWhile_append_of_pos keeps]
      cases tail with
      | nil => rw [List.takeWhile_nil, List.append_nil]
      | cons first later =>
          have isEnd := ends first rfl
          rw [List.takeWhile_cons_of_neg, List.append_nil]
          intro goesOn
          exact isEnd.elim (of_decide_eq_true goesOn).1 (of_decide_eq_true goesOn).2
    rw [skipped, read]
    exact ⟨nonempty, areDigits, same⟩

theorem parseCounter_eq_some_iff {text field : Bytes} {value : UInt64}
    : parseCounter text field = some value
      ↔ ∃ rest, FirstOccurrence field text rest ∧ CounterText rest value.toNat := by
  simp only [← afterFirst_eq_some_iff, ← counterText_iff]
  unfold parseCounter
  cases afterFirst field text with
  | none => simp
  | some rest =>
      simp only [Option.some.injEq, exists_eq_left']
      cases rest.dropWhile (fun byte => byte = 32 ∨ byte = 9) with
      | nil => rfl
      | cons first later => rfl

-----------------------------------------------------------------------------------------
-- The counter of the rogue thread
-----------------------------------------------------------------------------------------

theorem counterText_signedText {value : Int} (nonnegative : 0 ≤ value)
    : CounterText (32 :: (signedText value ++ [10])) value.toNat := by
  have text : signedText value = unsignedText value.toNat := by
    rw [signedText, if_neg (Int.not_lt.mpr nonnegative)]
    congr 1
    omega
  refine ⟨[32], unsignedText value.toNat, [10], by rw [text]; rfl, ?_, ?_, ?_, ?_, ?_⟩
  · intro byte member
    exact .inl (List.mem_singleton.mp member)
  · exact List.map_eq_nil_iff.not.mpr Nat.toDigits_ne_nil
  · exact unsignedText_digits _
  · exact decimalValue_unsignedText _
  · intro byte first
    cases first
    exact .inr rfl

/-- The parser accepts one grammar, and decodes the status of the rogue thread to its counter of
metadata attacks.
-/
theorem parseCounter_reads_printed_field
    : (∀ (text field : Bytes) (value : UInt64), field ≠ []
        → (parseCounter text field = some value
          ↔ ∃ rest, FirstOccurrence field text rest ∧ CounterText rest value.toNat))
      ∧ ∀ (attackMode : UInt32) (writes attacks : Int32),
        0 ≤ writes.toInt → 0 ≤ attacks.toInt
        → parseCounter (rogueStatusShow attackMode writes attacks) (utf8 "metadata_attack_count:")
          = some (UInt64.ofNat attacks.toInt.toNat) := by
  refine ⟨fun _ _ _ _ => parseCounter_eq_some_iff, ?_⟩
  intro attackMode writes attacks _ nonnegative
  have small : attacks.toInt.toNat < UInt64.size := by
    have bound := attacks.toInt_lt
    have room : 2 ^ 31 < UInt64.size := by decide
    omega
  refine parseCounter_eq_some_iff.mpr
    ⟨_, afterFirst_eq_some_iff.mp (afterFirst_rogueStatusShow attackMode writes attacks), ?_⟩
  rw [UInt64.toNat_ofNat_of_lt' small]
  exact counterText_signedText nonnegative

/-- A text with the field twice, whose first line is read, and a status after 3 attacks. -/
theorem parseCounter_reads_first_of_two
    : (∃ rest, FirstOccurrence (utf8 "n:") (utf8 "n:\t 7\r\nn: 8\n") rest ∧ CounterText rest 7)
      ∧ parseCounter (rogueStatusShow 1 0 3) (utf8 "metadata_attack_count:") = some 3 :=
  ⟨(parseCounter_reads_printed_field.1 _ _ 7 (by decide)).mp (by decide),
    parseCounter_reads_printed_field.2 1 0 3 (by decide) (by decide)⟩

end SafetyIsolation.Harness

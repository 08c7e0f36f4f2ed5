import Mathlib.Data.List.Infix

/-! Texts as lists of bytes. -/

namespace SafetyIsolation.Text

abbrev Bytes : Type := List UInt8

/-- The UTF-8 bytes of a literal. -/
def utf8 (text : String) : Bytes := text.toList.flatMap String.utf8EncodeChar

/-- The needle occurs somewhere in the text. -/
def contains (text needle : Bytes) : Bool := decide (needle <:+: text)

theorem contains_iff {text needle : Bytes} : contains text needle = true ↔ needle <:+: text :=
  decide_eq_true_iff

end SafetyIsolation.Text

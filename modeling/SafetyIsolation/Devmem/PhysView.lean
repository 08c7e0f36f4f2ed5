import SafetyIsolation.Text.Hex

/-! `phys_view.cpp`: numbers on the command line. -/

namespace SafetyIsolation.Devmem

open SafetyIsolation.Text

/-- `isspace` of the C locale. -/
def isSpace (byte : UInt8) : Bool := byte = 32 || (9 ≤ byte.toNat && byte.toNat ≤ 13)

def isDigitOf (base : Nat) (byte : UInt8) : Bool := (hexValue byte).any (· < base)

/-- Whether the number is negated, and the text after the sign. -/
def takeSign (text : Bytes) : Bool × Bytes :=
  if text.head? = some 45 then (true, text.tail)
  else if text.head? = some 43 then (false, text.tail)
  else (false, text)

/-- An `x` after the first zero belongs to the number only if a digit follows it. -/
def startsHex : Bytes → Bool
  | x :: first :: _ => (x = 120 || x = 88) && isDigitOf 16 first
  | _ => false

/-- The base that base 0 stands for, and the text from the first digit on. -/
def subject : Bytes → Nat × Bytes
  | [] => (10, [])
  | first :: rest =>
      if first = 48 then if startsHex rest then (16, rest.tail) else (8, first :: rest)
      else (10, first :: rest)

/-- The value of a sequence of digits. -/
def magnitude (base : Nat) (digits : Bytes) : Nat :=
  digits.foldl (fun value byte => value * base + (hexValue byte).getD 0) 0

/-- `strtoull` with base 0: the value, and the text from `endptr` on, which is the whole text if
there is no number. A number that does not fit gives the greatest value, and a minus sign negates
modulo 2^64.
-/
def strtoull (text : Bytes) : UInt64 × Bytes :=
  let (negative, body) := takeSign (text.dropWhile isSpace)
  let (base, digits) := subject body
  let accepted := digits.takeWhile (isDigitOf base)
  if accepted = [] then (0, text)
  else
    let value := magnitude base accepted
    (if UInt64.size ≤ value then -1 else if negative then -value.toUInt64 else value.toUInt64,
      digits.dropWhile (isDigitOf base))

/-- What the two parsers share. `c_str` ends at the first NUL. -/
def parseNumber (empty invalid str : Bytes) : Except Bytes UInt64 :=
  if str = [] then .error empty
  else
    let s := str.takeWhile (· ≠ 0)
    let (val, endptr) := strtoull s
    if endptr.length = s.length ∨ endptr ≠ [] then .error (invalid ++ str)
    else .ok val

/-- `parse_address`. -/
def parseAddress (str : Bytes) : Except Bytes UInt64 :=
  parseNumber (utf8 "Empty address string") (utf8 "Invalid physical address: ") str

/-- `parse_value32`. -/
def parseValue32 (str : Bytes) : Except Bytes UInt32 :=
  (parseNumber (utf8 "Empty value string") (utf8 "Invalid 32-bit hex value: ") str).map
    UInt64.toUInt32

example : parseAddress (utf8 "0x40001000") = .ok 0x40001000 := by decide

example : parseAddress (utf8 "0x") = .error (utf8 "Invalid physical address: 0x") := by decide

end SafetyIsolation.Devmem

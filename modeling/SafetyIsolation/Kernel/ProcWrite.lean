import SafetyIsolation.Kernel.Actors
import SafetyIsolation.Text.Hex

/-! The write handlers of the control files, with the parsing of their commands. -/

namespace SafetyIsolation.Kernel

open SafetyIsolation.Text

def demoCommandBufferSize : Nat := 16

def demoProtectCommand : Bytes := utf8 "protect"
def demoUnprotectCommand : Bytes := utf8 "unprotect"
def demoEnableCommand : Bytes := utf8 "1"
def demoDisableCommand : Bytes := utf8 "0"

def eINVAL : Int := 22
def eRANGE : Int := 34

/-- User memory from some address on, as far as it can be read. -/
abbrev UserMemory : Type := Nat → Option UInt8

/-- `copy_from_user`; it fails when some byte cannot be read. -/
def copyFromUser (buf : UserMemory) (count : Nat) : Option Bytes := (List.range count).mapM buf

/-- The kernel's `isspace`. -/
def isspace (c : UInt8) : Bool := (9 ≤ c && c ≤ 13) || c = 32 || c = 160

/-- `strim`, on the string that starts the buffer. -/
def strim (kbuf : Bytes) : Bytes :=
  let s := kbuf.takeWhile (· ≠ 0)
  ((s.dropWhile isspace).reverse.dropWhile isspace).reverse

/-- `safety_mem_proc_write`; what `safety_mem_set_protection` returns is not looked at. -/
def safetyMemProcWrite (page : SafetyPage) (buf : UserMemory) (count : Nat) : Kern Int :=
  if count ≥ demoCommandBufferSize then pure (-eINVAL)
  else
    match copyFromUser buf count with
    | none => pure (-eFAULT)
    | some kbuf => do
        let cmd := strim kbuf
        if cmd = demoEnableCommand ∨ cmd = demoProtectCommand then
          let _ ← safetyMemSetProtection page true
        else if cmd = demoDisableCommand ∨ cmd = demoUnprotectCommand then
          let _ ← safetyMemSetProtection page false
        return (count : Int)

/-- `_parse_integer_fixup_radix` with base 0: the base and where the digits start. -/
def fixupRadix (s : Bytes) : Nat × Bytes :=
  match s with
  | 48 :: c :: d :: rest =>
      if (c = 120 || c = 88) && (hexValue d).isSome then (16, d :: rest) else (8, s)
  | 48 :: _ => (8, s)
  | _ => (10, s)

/-- The value of digits in some base. -/
def digitsValue (base : Nat) (digits : Bytes) : Nat :=
  digits.foldl (fun value digit => value * base + (hexValue digit).getD 0) 0

/-- `kstrtouint` with base 0. -/
def kstrtouint (s : Bytes) : Except Int Nat :=
  let (base, s) := fixupRadix (if s.head? = some 43 then s.tail else s)
  let digits := s.takeWhile (fun c => (hexValue c).any (· < base))
  let rest := s.drop digits.length
  let rest := if rest.head? = some 10 then rest.tail else rest
  if digitsValue base digits ≥ UInt64.size then .error (-eRANGE)
  else if digits = [] then .error (-eINVAL)
  else if rest ≠ [] then .error (-eINVAL)
  else if digitsValue base digits ≥ UInt32.size then .error (-eRANGE)
  else .ok (digitsValue base digits)

/-- The cases of the `switch` in `bad_driver_proc_write`. -/
def AttackMode.ofCode (mode : Nat) : Option AttackMode :=
  if mode = AttackMode.vmalloc.code then some .vmalloc
  else if mode = AttackMode.mutexBypass.code then some .mutexBypass
  else if mode = AttackMode.linearAlias.code then some .linearAlias
  else none

/-- `bad_driver_proc_write`; what the attack returns is not looked at. -/
def badDriverProcWrite (page : SafetyPage) (buf : UserMemory) (count : Nat) : Kern Int :=
  if count ≥ demoCommandBufferSize then pure (-eINVAL)
  else
    match copyFromUser buf count with
    | none => pure (-eFAULT)
    | some kbuf =>
        match kstrtouint (strim kbuf) with
        | .error _ => pure (-eINVAL)
        | .ok mode =>
            match AttackMode.ofCode mode with
            | none => pure (-eINVAL)
            | some mode => do
                let _ ← executeAttack page mode
                return (count : Int)

end SafetyIsolation.Kernel

import SafetyIsolation.Devmem.Computer
import SafetyIsolation.Devmem.PhysView

/-! `devmem`: `memory_region.hpp`, `phys_view.cpp` and `main.cpp` with the calls they make. A loop
that has not ended after the given number of turns leaves its caller without a result.
-/

namespace SafetyIsolation.Devmem

open SafetyIsolation.Interleaving SafetyIsolation.Interleaving.Prog SafetyIsolation.Text

-----------------------------------------------------------------------------------------
-- `memory_region.hpp`
-----------------------------------------------------------------------------------------

namespace PhysicalMemoryView

/-- `PhysicalMemoryView::map`. The text of `errno` is fetched after the descriptor is closed. -/
def mapDevice (physAddr size : UInt64) (mode : MemoryAccessMode) (devPath : Bytes)
    : Tool (Except Bytes PhysicalMemoryView) := do
  if size = 0 then
    return .error (utf8 "Cannot map physical memory region of 0 size.")
  let pageSize := pageSizeOf (← call .sysconf)
  let pageBase := physAddr &&& ~~~(pageSize - 1)
  let pageOffset := physAddr &&& (pageSize - 1)
  let mapLength := pageOffset + size
  match ← call (.openDevice devPath mode) with
  | none =>
      let strerror : Bytes ← call .strerror
      return .error (utf8 "Failed to open " ++ devPath ++ utf8 ": " ++ strerror)
  | some fd =>
      let rawPtr ← call (.mmap mapLength mode fd pageBase)
      call (.close fd)
      match rawPtr with
      | none =>
          let strerror : Bytes ← call .strerror
          return .error (utf8 "mmap failed for phys_addr 0x"
            ++ unsignedText physAddr.toNat ++ utf8 ": " ++ strerror)
      | some mapping => return .ok ⟨some (mapping, ⟨mapLength⟩), physAddr, size, pageOffset⟩

/-- `read_at<uint32_t>`. -/
def readAt (v : PhysicalMemoryView) (offset : Int64) : Tool UInt32 :=
  match v.mapping with
  | none => return 0
  | some (mapping, _) => call (.load32 mapping (v.offsetInPage + offset.toUInt64))

/-- `write_at<uint32_t>`. -/
def writeAt (v : PhysicalMemoryView) (value : UInt32) (offset : Int64) : Tool Unit :=
  match v.mapping with
  | none => return
  | some (mapping, _) => call (.store32 mapping (v.offsetInPage + offset.toUInt64) value)

/-- The end of a view's lifetime, where its `MmapDeleter` is called. -/
def destroy (v : PhysicalMemoryView) : Tool Unit :=
  match v.mapping with
  | none => return
  | some (mapping, deleter) =>
      match deleter.release with
      | none => return
      | some length => call (.munmap mapping length)

end PhysicalMemoryView

open PhysicalMemoryView

-----------------------------------------------------------------------------------------
-- `phys_view.cpp`
-----------------------------------------------------------------------------------------

def devMem : Bytes := utf8 "/dev/mem"

/-- `read_phys` and `read_phys_32`. -/
def readPhys (physAddr : UInt64) : Tool (Except Bytes UInt32) := do
  match ← mapDevice physAddr 4 .readOnly devMem with
  | .error error => return .error error
  | .ok view =>
      let value ← view.readAt 0
      view.destroy
      return .ok value

/-- `write_phys` and `write_phys_32`. -/
def writePhys (physAddr : UInt64) (value : UInt32) : Tool (Except Bytes Unit) := do
  match ← mapDevice physAddr 4 .readWrite devMem with
  | .error error => return .error error
  | .ok view =>
      view.writeAt value 0
      view.destroy
      return .ok ()

/-- The least number of digits that a number needs. -/
def hexWidth (value : Nat) : Nat := Nat.log 16 value + 1

/-- A number in upper-case digits, at least `width` of them. -/
def upperHex (width value : Nat) : Bytes := hexFixed upperA (max width (hexWidth value)) value

def kDefaultWatchInterval : Nat := 100

/-- The interval is in milliseconds. -/
structure WatchOptions where
  physAddr : UInt64
  interval : Nat := kDefaultWatchInterval
  singleShot : Bool := false

namespace WatchOptions

variable (options : WatchOptions)

def watching : Bytes :=
  utf8 "Watching physical address 0x" ++ upperHex 0 options.physAddr.toNat
    ++ utf8 " (" ++ unsignedText options.interval
    ++ utf8 "ms interval, Ctrl+C to exit)...\n"

def init (value : UInt32) : Bytes :=
  utf8 "[INIT] 0x" ++ upperHex 0 options.physAddr.toNat
    ++ utf8 ": 0x" ++ upperHex 8 value.toNat ++ utf8 "\n"

def changed (lastVal currentVal : UInt32) : Bytes :=
  27 :: utf8 "[1;31m[CHANGED]" ++ 27 :: utf8 "[0m 0x" ++ upperHex 0 options.physAddr.toNat
    ++ utf8 ": 0x" ++ upperHex 8 lastVal.toNat
    ++ utf8 " -> 0x" ++ upperHex 8 currentVal.toNat ++ utf8 "\n"

end WatchOptions

/-- The loop of `watch_phys_32`: whether it has ended. -/
def watchLoop (options : WatchOptions) (view : PhysicalMemoryView) (stopRequested : Tool Bool)
    : (turns : Nat) → (lastVal : UInt32) → Tool Bool
  | 0, _ => return false
  | turns + 1, lastVal => do
      if ← stopRequested then
        return true
      call (.sleepFor options.interval)
      let currentVal ← view.readAt 0
      if currentVal ≠ lastVal then
        call (.cout (options.changed lastVal currentVal))
      if options.singleShot then
        return true
      watchLoop options view stopRequested turns currentVal

/-- `watch_phys_32`. -/
def watchPhys32 (turns : Nat) (options : WatchOptions) (stopRequested : Tool Bool)
    : Tool (Option (Except Bytes Unit)) := do
  match ← mapDevice options.physAddr 4 .readOnly devMem with
  | .error error => return some (.error error)
  | .ok view =>
      call (.cout options.watching)
      let lastVal ← view.readAt 0
      call (.cout (options.init lastVal))
      if ← watchLoop options view stopRequested turns lastVal then
        view.destroy
        return some (.ok ())
      return none

/-- `watch_phys`, whose `dummy_stop` is never set. -/
def watchPhys (turns : Nat) (physAddr : UInt64) : Tool (Option (Except Bytes Unit)) :=
  watchPhys32 turns { physAddr } (pure false)

-----------------------------------------------------------------------------------------
-- `main.cpp`
-----------------------------------------------------------------------------------------

def kExitSuccess : Nat := 0

def kExitFailure : Nat := 1

def usage (progName : Bytes) : Bytes :=
  utf8 "ARM64 Physical Memory Inspector (`devmem`)\n"
    ++ utf8 "Usage: " ++ progName ++ utf8 " <subcommand> [args...]\n\n"
    ++ utf8 "Subcommands:\n"
    ++ utf8 "  read  <phys_addr>            Read 32-bit hex value from physical memory address\n"
    ++ utf8 "  write <phys_addr> <value>   Write 32-bit hex value to physical memory address\n"
    ++ utf8 "  watch <phys_addr> [ms]      Poll physical memory address every 100ms "
    ++ utf8 "(or specified ms),\n"
    ++ utf8 "                              highlighting live changes\n\n"
    ++ utf8 "Examples:\n"
    ++ utf8 "  " ++ progName ++ utf8 " read 0x40001000\n"
    ++ utf8 "  " ++ progName ++ utf8 " write 0x40001000 0xDEADDEAD\n"
    ++ utf8 "  " ++ progName ++ utf8 " watch 0x40001000\n"

def printUsage (progName : Bytes) : Tool Unit := call (.cout (usage progName))

/-- A complaint, and the exit status after it. -/
def failure (complaint : Bytes) : Tool (Option Nat) := do
  call (.cerr (complaint ++ utf8 "\n"))
  return some kExitFailure

/-- A complaint with the usage after it. -/
def misuse (progName complaint : Bytes) : Tool (Option Nat) := do
  call (.cerr (complaint ++ utf8 "\n"))
  printUsage progName
  return some kExitFailure

/-- `std::stoi`: the number at the start of the text, or the text of the exception. -/
def stoi (text : Bytes) : Except Bytes Int :=
  let (negative, body) := takeSign (text.dropWhile isSpace)
  let digits := body.takeWhile (isDigitOf 10)
  let value : Int := if negative then -magnitude 10 digits else magnitude 10 digits
  if digits = [] ∨ value < -2 ^ 31 ∨ 2 ^ 31 ≤ value then .error (utf8 "stoi") else .ok value

/-- `handle_read_cmd`. The arguments are those after the subcommand. -/
def handleReadCmd (progName : Bytes) : List Bytes → Tool (Option Nat)
  | [] => misuse progName (utf8 "Error: 'read' subcommand requires a physical address argument.")
  | address :: _ =>
      match parseAddress address with
      | .error error => failure (utf8 "Error: " ++ error)
      | .ok addr => do
          match ← readPhys addr with
          | .error error => failure (utf8 "Read Error: " ++ error)
          | .ok value =>
              call (.cout (utf8 "0x" ++ upperHex 8 value.toNat ++ utf8 "\n"))
              return some kExitSuccess

/-- `handle_write_cmd`. -/
def handleWriteCmd (progName : Bytes) : List Bytes → Tool (Option Nat)
  | address :: value :: _ =>
      match parseAddress address with
      | .error error => failure (utf8 "Error: " ++ error)
      | .ok addr =>
          match parseValue32 value with
          | .error error => failure (utf8 "Error: " ++ error)
          | .ok val => do
              match ← writePhys addr val with
              | .error error => failure (utf8 "Write Error: " ++ error)
              | .ok () =>
                  call (.cout (utf8 "Wrote 0x" ++ upperHex 8 val.toNat
                    ++ utf8 " to 0x" ++ upperHex 8 addr.toNat ++ utf8 "\n"))
                  return some kExitSuccess
  | _ =>
      misuse progName
        (utf8 "Error: 'write' subcommand requires physical address and value arguments.")

/-- The interval of `watch`, if one is given: an interval that is no number is complained about,
and one that is not positive is not used.
-/
def chooseInterval : List Bytes → Tool Nat
  | [] => return kDefaultWatchInterval
  | interval :: _ =>
      match stoi interval with
      | .ok ms => return if ms > 0 then ms.toNat else kDefaultWatchInterval
      | .error what => do
          call (.cerr (utf8 "Warning: Invalid interval '" ++ interval
            ++ utf8 "', using default " ++ unsignedText kDefaultWatchInterval
            ++ utf8 "ms (" ++ what ++ utf8 ")\n"))
          return kDefaultWatchInterval

/-- `handle_watch_cmd`. -/
def handleWatchCmd (turns : Nat) (progName : Bytes) : List Bytes → Tool (Option Nat)
  | [] => misuse progName (utf8 "Error: 'watch' subcommand requires a physical address argument.")
  | address :: rest =>
      match parseAddress address with
      | .error error => failure (utf8 "Error: " ++ error)
      | .ok addr => do
          let options : WatchOptions := { physAddr := addr, interval := ← chooseInterval rest }
          call (.signal SIGINT)
          call (.signal SIGTERM)
          match ← watchPhys32 turns options (call .loadStopRequested) with
          | none => return none
          | some (.error error) => failure (utf8 "Watch Error: " ++ error)
          | some (.ok ()) => return some kExitSuccess

/-- `main`, with the arguments after the program's name. -/
def main (turns : Nat) (progName : Bytes) : List Bytes → Tool (Option Nat)
  | [] => do
      printUsage progName
      return some kExitFailure
  | subcommand :: rest =>
      if subcommand ∈ [utf8 "-h", utf8 "--help", utf8 "help"] then do
        printUsage progName
        return some kExitSuccess
      else if subcommand = utf8 "read" then handleReadCmd progName rest
      else if subcommand = utf8 "write" then handleWriteCmd progName rest
      else if subcommand = utf8 "watch" then handleWatchCmd turns progName rest
      else misuse progName (utf8 "Error: Unknown subcommand '" ++ subcommand ++ utf8 "'")

end SafetyIsolation.Devmem

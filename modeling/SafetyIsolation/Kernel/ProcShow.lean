import SafetyIsolation.Text.Lines
import SafetyIsolation.Text.PrintedNumbers

/-! The texts of `safety_mem_proc_show` and `rogue_status_show`, once their values have been
collected.
-/

namespace SafetyIsolation.Kernel

open SafetyIsolation.Text

/-- What the text says about one mapping. -/
structure MappingReport where
  isBlockMapping : Bool
  entry : UInt64
  isWritable : Bool
  deriving DecidableEq

/-- The values `safety_mem_proc_show` prints. -/
structure StatusReport where
  virtAddr : UInt64
  physAddr : UInt64
  initialMapping : MappingReport
  currentMapping : MappingReport
  currentIsValid : Bool
  vmallocMapping : MappingReport
  valVmalloc : UInt32
  valPhys : UInt32
  protectedState : Bool
  smmuState : Bool
  ownerBuf : Bytes
  deriving DecidableEq

/-- `%d` of a flag. -/
def flagText (flag : Bool) : Bytes := if flag then utf8 "1" else utf8 "0"

/-- `0x%016llX`. -/
def upperHex64 (value : UInt64) : Bytes := utf8 "0x" ++ hexFixed upperA 16 value.toNat

/-- `0x%px` of a pointer, and `%pa`. -/
def lowerHex64 (value : UInt64) : Bytes := utf8 "0x" ++ hexFixed lowerA 16 value.toNat

/-- `0x%08X`. -/
def upperHex32 (value : UInt32) : Bytes := utf8 "0x" ++ hexFixed upperA 8 value.toNat

/-- `safety_mem_mapping_level`. -/
def mappingLevel (mapping : MappingReport) : Bytes :=
  if mapping.isBlockMapping then utf8 "PMD_BLOCK" else utf8 "PTE_PAGE"

/-- The word at the end of the text. -/
def statusText (protectedState : Bool) : Bytes :=
  if protectedState then utf8 "PROTECTED_RO" else utf8 "UNPROTECTED_RW"

/-- The keys and values of the text, line by line. -/
def statusFields (report : StatusReport) : List (Bytes × Bytes) := [
  (utf8 "virt_addr", lowerHex64 report.virtAddr),
  (utf8 "phys_addr", lowerHex64 report.physAddr),
  (utf8 "mapping_level_before", mappingLevel report.initialMapping),
  (utf8 "mapping_entry_before", upperHex64 report.initialMapping.entry),
  (utf8 "mapping_writable_before", flagText report.initialMapping.isWritable),
  (utf8 "mapping_level_current", mappingLevel report.currentMapping),
  (utf8 "mapping_entry_current", upperHex64 report.currentMapping.entry),
  (utf8 "mapping_writable_current", flagText report.currentMapping.isWritable),
  (utf8 "mapping_valid_current", flagText report.currentIsValid),
  (utf8 "mapping_level_vmalloc", mappingLevel report.vmallocMapping),
  (utf8 "mapping_entry_vmalloc", upperHex64 report.vmallocMapping.entry),
  (utf8 "mapping_writable_vmalloc", flagText report.vmallocMapping.isWritable),
  (utf8 "value_via_vmalloc", upperHex32 report.valVmalloc),
  (utf8 "value_via_phys", upperHex32 report.valPhys),
  (utf8 "ctx_protected", flagText report.protectedState),
  (utf8 "smmu_active", flagText report.smmuState),
  (utf8 "mutex_owner", report.ownerBuf),
  (utf8 "status", statusText report.protectedState)
]

/-- One `seq_printf`. -/
def statusLine (field : Bytes × Bytes) : Bytes := field.1 ++ utf8 ": " ++ field.2

/-- `safety_mem_proc_show`. -/
def safetyMemProcShow (report : StatusReport) : Bytes :=
  (statusFields report).flatMap (fun field => statusLine field ++ [newline])

/-- `rogue_status_show`. -/
def rogueStatusShow (attackMode : UInt32) (unsynchronizedWrites metadataAttacks : Int32)
    : Bytes :=
  utf8 "attack_mode: " ++ unsignedText attackMode.toNat ++ utf8 "\n"
    ++ utf8 "unsynchronized_write_count: " ++ signedText unsynchronizedWrites.toInt ++ utf8 "\n"
    ++ utf8 "metadata_attack_count: " ++ signedText metadataAttacks.toInt ++ utf8 "\n"

end SafetyIsolation.Kernel

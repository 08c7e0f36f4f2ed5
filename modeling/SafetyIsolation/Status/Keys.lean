import SafetyIsolation.Kernel.ProcShow

/-! The lines of a status text, and the bytes each of them can consist of. -/

namespace SafetyIsolation.Status

open SafetyIsolation.Kernel SafetyIsolation.Text

inductive StatusKey where
  | virtAddr
  | physAddr
  | levelBefore
  | entryBefore
  | writableBefore
  | levelCurrent
  | entryCurrent
  | writableCurrent
  | validCurrent
  | levelVmalloc
  | entryVmalloc
  | writableVmalloc
  | valVmalloc
  | valPhys
  | ctxProtected
  | smmuActive
  | mutexOwner
  | status
  deriving DecidableEq

namespace StatusKey

def all : List StatusKey := [
  .virtAddr, .physAddr, .levelBefore, .entryBefore, .writableBefore, .levelCurrent, .entryCurrent,
  .writableCurrent, .validCurrent, .levelVmalloc, .entryVmalloc, .writableVmalloc, .valVmalloc,
  .valPhys, .ctxProtected, .smmuActive, .mutexOwner, .status
]

def text : StatusKey → Bytes
  | .virtAddr => utf8 "virt_addr"
  | .physAddr => utf8 "phys_addr"
  | .levelBefore => utf8 "mapping_level_before"
  | .entryBefore => utf8 "mapping_entry_before"
  | .writableBefore => utf8 "mapping_writable_before"
  | .levelCurrent => utf8 "mapping_level_current"
  | .entryCurrent => utf8 "mapping_entry_current"
  | .writableCurrent => utf8 "mapping_writable_current"
  | .validCurrent => utf8 "mapping_valid_current"
  | .levelVmalloc => utf8 "mapping_level_vmalloc"
  | .entryVmalloc => utf8 "mapping_entry_vmalloc"
  | .writableVmalloc => utf8 "mapping_writable_vmalloc"
  | .valVmalloc => utf8 "value_via_vmalloc"
  | .valPhys => utf8 "value_via_phys"
  | .ctxProtected => utf8 "ctx_protected"
  | .smmuActive => utf8 "smmu_active"
  | .mutexOwner => utf8 "mutex_owner"
  | .status => utf8 "status"

variable (report : StatusReport)

def value : StatusKey → Bytes
  | .virtAddr => lowerHex64 report.virtAddr
  | .physAddr => lowerHex64 report.physAddr
  | .levelBefore => mappingLevel report.initialMapping
  | .entryBefore => upperHex64 report.initialMapping.entry
  | .writableBefore => flagText report.initialMapping.isWritable
  | .levelCurrent => mappingLevel report.currentMapping
  | .entryCurrent => upperHex64 report.currentMapping.entry
  | .writableCurrent => flagText report.currentMapping.isWritable
  | .validCurrent => flagText report.currentIsValid
  | .levelVmalloc => mappingLevel report.vmallocMapping
  | .entryVmalloc => upperHex64 report.vmallocMapping.entry
  | .writableVmalloc => flagText report.vmallocMapping.isWritable
  | .valVmalloc => upperHex32 report.valVmalloc
  | .valPhys => upperHex32 report.valPhys
  | .ctxProtected => flagText report.protectedState
  | .smmuActive => flagText report.smmuState
  | .mutexOwner => report.ownerBuf
  | .status => statusText report.protectedState

def line (key : StatusKey) : Bytes := statusLine (key.text, key.value report)

/-- The bytes a value can consist of; a name can have any. -/
def letters : StatusKey → Bytes
  | .virtAddr | .physAddr => utf8 "x0123456789abcdef"
  | .levelBefore | .levelCurrent | .levelVmalloc => utf8 "PMD_BLOCKPTE_PAGE"
  | .entryBefore | .entryCurrent | .entryVmalloc | .valVmalloc | .valPhys =>
      utf8 "x0123456789ABCDEF"
  | .writableBefore | .writableCurrent | .validCurrent | .writableVmalloc | .ctxProtected
  | .smmuActive => utf8 "01"
  | .mutexOwner => []
  | .status => utf8 "UNPROTECTED_RW"

variable {report} {key : StatusKey}

theorem mem_all (key : StatusKey) : key ∈ all := by
  cases key <;> decide

theorem statusFields_eq_map
    : statusFields report = all.map (fun key => (key.text, key.value report)) := rfl

theorem hexText_subset {letter : UInt8} {digits : Bytes} (start : utf8 "0x" ⊆ digits)
    (h : ∀ value < 16, hexDigit letter value ∈ digits) (width value : Nat)
    : utf8 "0x" ++ hexFixed letter width value ⊆ digits :=
  List.append_subset.mpr ⟨start, hexFixed_subset h width value⟩

theorem lowerHex64_subset (value : UInt64) : lowerHex64 value ⊆ utf8 "x0123456789abcdef" :=
  hexText_subset (by decide) (by decide) 16 value.toNat

theorem upperHex64_subset (value : UInt64) : upperHex64 value ⊆ utf8 "x0123456789ABCDEF" :=
  hexText_subset (by decide) (by decide) 16 value.toNat

theorem upperHex32_subset (value : UInt32) : upperHex32 value ⊆ utf8 "x0123456789ABCDEF" :=
  hexText_subset (by decide) (by decide) 8 value.toNat

theorem flagText_subset (flag : Bool) : flagText flag ⊆ utf8 "01" := by
  cases flag <;> decide

theorem mappingLevel_subset (mapping : MappingReport)
    : mappingLevel mapping ⊆ utf8 "PMD_BLOCKPTE_PAGE" := by
  unfold mappingLevel
  split <;> decide

theorem statusText_subset (protectedState : Bool)
    : statusText protectedState ⊆ utf8 "UNPROTECTED_RW" := by
  cases protectedState <;> decide

theorem value_subset (notOwner : key ≠ .mutexOwner) : key.value report ⊆ key.letters := by
  cases key with
  | virtAddr => exact lowerHex64_subset _
  | physAddr => exact lowerHex64_subset _
  | levelBefore => exact mappingLevel_subset _
  | entryBefore => exact upperHex64_subset _
  | writableBefore => exact flagText_subset _
  | levelCurrent => exact mappingLevel_subset _
  | entryCurrent => exact upperHex64_subset _
  | writableCurrent => exact flagText_subset _
  | validCurrent => exact flagText_subset _
  | levelVmalloc => exact mappingLevel_subset _
  | entryVmalloc => exact upperHex64_subset _
  | writableVmalloc => exact flagText_subset _
  | valVmalloc => exact upperHex32_subset _
  | valPhys => exact upperHex32_subset _
  | ctxProtected => exact flagText_subset _
  | smmuActive => exact flagText_subset _
  | mutexOwner => exact absurd rfl notOwner
  | status => exact statusText_subset _

end StatusKey

end SafetyIsolation.Status

import SafetyIsolation.Kernel.ProcShow
import SafetyIsolation.Monitor.Display
import SafetyIsolation.Text.Writes

/-! The two decoders of the monitor as writes to the fields of their records. -/

namespace SafetyIsolation.Status

open SafetyIsolation.Text SafetyIsolation.Kernel SafetyIsolation.Monitor

/-- No blank, and so no newline either. -/
def Solid (s : Bytes) : Prop := ∀ byte ∈ s, isBlank byte = false

instance (s : Bytes) : Decidable (Solid s) :=
  decidable_of_iff (s.all (fun byte => !isBlank byte) = true)
    (by simp only [Solid, List.all_eq_true, Bool.not_eq_true'])

theorem Solid.append {left right : Bytes} (h : Solid left) (h' : Solid right)
    : Solid (left ++ right) := by
  intro byte member
  rcases List.mem_append.mp member with inLeft | inRight
  · exact h byte inLeft
  · exact h' byte inRight

theorem Solid.noNewline {s : Bytes} (h : Solid s) : newline ∉ s := by
  intro member
  exact Bool.false_ne_true ((h newline member).symm.trans (by decide))

theorem Solid.reverse {s : Bytes} (h : Solid s) : Solid s.reverse :=
  fun byte member => h byte (List.mem_reverse.mp member)

theorem Solid.dropWhile {s : Bytes} (h : Solid s) : s.dropWhile isBlank = s := by
  rw [List.dropWhile_eq_self_iff]
  intro nonempty blank
  rw [h _ (List.getElem_mem nonempty)] at blank
  exact Bool.false_ne_true blank

/-- The end of `trim`. -/
def trimEnd (s : Bytes) : Bytes := (s.reverse.dropWhile isBlank).reverse

theorem trim_eq_trimEnd (s : Bytes) : trim s = trimEnd (s.dropWhile isBlank) := rfl

theorem trimEnd_eq_self {s : Bytes} (solid : Solid s) : trimEnd s = s := by
  rw [trimEnd, solid.reverse.dropWhile, List.reverse_reverse]

theorem trim_eq_self {s : Bytes} (solid : Solid s) : trim s = s := by
  rw [trim_eq_trimEnd, solid.dropWhile, trimEnd_eq_self solid]

/-- A solid front part is not trimmed. -/
theorem trim_append {front : Bytes} (rest : Bytes) (nonempty : front ≠ []) (solid : Solid front)
    : trim (front ++ rest) = front ++ trimEnd rest := by
  have started : (front ++ rest).dropWhile isBlank = front ++ rest := by
    cases front with
    | nil => exact absurd rfl nonempty
    | cons byte front =>
        rw [List.cons_append, List.dropWhile_cons, solid byte List.mem_cons_self,
          if_neg Bool.false_ne_true]
  rw [trim_eq_trimEnd, started, trimEnd, List.reverse_append, List.dropWhile_append,
    solid.reverse.dropWhile, trimEnd]
  split
  · rename_i blank
    rw [List.isEmpty_iff.mp blank, List.reverse_reverse, List.reverse_nil, List.append_nil]
  · rw [List.reverse_append, List.reverse_reverse]

/-- The blank after a separator is trimmed. -/
theorem trim_space (s : Bytes) : trim (32 :: s) = trim s := rfl

/-- A decoded value. -/
inductive Value where
  | word (value : UInt32)
  | entry (value : UInt64)
  | flag (value : Bool)
  | text (value : Bytes)
  deriving DecidableEq

/-- The fields of a `ComparisonSnapshot`. -/
inductive SnapshotField where
  | valVmalloc
  | valPhys
  | mappingEntry
  | mappingWritable
  | ctxProtected
  | smmuActive
  | mappingLevel
  | status
  deriving DecidableEq

namespace SnapshotField

/-- The field `update_snapshot` writes for a key. -/
def ofKey (key : Bytes) : Option SnapshotField :=
  if key = utf8 "value_via_vmalloc" ∨ key = utf8 "val_vmalloc" then some .valVmalloc
  else if key = utf8 "value_via_phys" ∨ key = utf8 "val_phys" then some .valPhys
  else if key = utf8 "mapping_entry_current" ∨ key = utf8 "mapping_entry_vmalloc" then
    some .mappingEntry
  else if key = utf8 "mapping_writable_current" ∨ key = utf8 "mapping_writable_vmalloc" then
    some .mappingWritable
  else if key = utf8 "ctx_protected" then some .ctxProtected
  else if key = utf8 "smmu_active" then some .smmuActive
  else if key = utf8 "mapping_level_current" ∨ key = utf8 "mapping_level_vmalloc" then
    some .mappingLevel
  else if key = utf8 "status" then some .status
  else none

/-- The value it writes. -/
def read (value : Bytes) : SnapshotField → Value
  | .valVmalloc => .word (parseHex32 value)
  | .valPhys => .word (parseHex32 value)
  | .mappingEntry => .entry (parseHex64 value)
  | .mappingWritable => .flag (value = utf8 "1")
  | .ctxProtected => .flag (isOn value)
  | .smmuActive => .flag (isOn value)
  | .mappingLevel => .text value
  | .status => .text value

def get (snapshot : ComparisonSnapshot) : SnapshotField → Value
  | .valVmalloc => .word snapshot.valVmalloc
  | .valPhys => .word snapshot.valPhys
  | .mappingEntry => .entry snapshot.mappingEntry
  | .mappingWritable => .flag snapshot.mappingWritable
  | .ctxProtected => .flag snapshot.ctxProtected
  | .smmuActive => .flag snapshot.smmuActive
  | .mappingLevel => .text snapshot.mappingLevel
  | .status => .text snapshot.status

/-- What an entry writes. -/
def writes (entry : Bytes × Bytes) : List (SnapshotField × Value) :=
  (ofKey entry.1).elim [] (fun field => [(field, field.read entry.2)])

-- Used instead of the definition, so that the kernel never runs the comparisons of `ofKey`.
theorem writes_mk (key value : Bytes)
    : writes (key, value) = (ofKey key).elim [] (fun field => [(field, field.read value)]) := by
  rw [writes]

/-- A snapshot is its fields. -/
theorem get_ext {left right : ComparisonSnapshot}
    (same : ∀ field, get left field = get right field)
    : left = right := by
  have h1 := same .valVmalloc
  have h2 := same .valPhys
  have h3 := same .mappingEntry
  have h4 := same .mappingWritable
  have h5 := same .ctxProtected
  have h6 := same .smmuActive
  have h7 := same .mappingLevel
  have h8 := same .status
  simp only [get, Value.word.injEq, Value.entry.injEq, Value.flag.injEq,
    Value.text.injEq] at h1 h2 h3 h4 h5 h6 h7 h8
  cases left
  cases right
  simp_all only

/-- One branch of `update_snapshot`. -/
def put (snapshot : ComparisonSnapshot) (value : Bytes) : SnapshotField → ComparisonSnapshot
  | .valVmalloc => { snapshot with valVmalloc := parseHex32 value }
  | .valPhys => { snapshot with valPhys := parseHex32 value }
  | .mappingEntry => { snapshot with mappingEntry := parseHex64 value }
  | .mappingWritable => { snapshot with mappingWritable := value = utf8 "1" }
  | .ctxProtected => { snapshot with ctxProtected := isOn value }
  | .smmuActive => { snapshot with smmuActive := isOn value }
  | .mappingLevel => { snapshot with mappingLevel := value }
  | .status => { snapshot with status := value }

theorem updateSnapshot_eq (snapshot : ComparisonSnapshot) (key value : Bytes)
    : updateSnapshot snapshot key value
      = (ofKey key).elim snapshot (put snapshot value) := by
  simp only [ofKey, apply_ite (fun field => Option.elim field snapshot (put snapshot value))]
  rfl

theorem get_put (snapshot : ComparisonSnapshot) (value : Bytes) (field other : SnapshotField)
    : get (put snapshot value field) other
      = if field = other then field.read value else get snapshot other := by
  cases field <;> cases other <;> rfl

theorem get_updateSnapshot (snapshot : ComparisonSnapshot) (entry : Bytes × Bytes)
    (field : SnapshotField)
    : get (updateSnapshot snapshot entry.1 entry.2) field
      = (lastWrite (writes entry) field).getD (get snapshot field) := by
  rw [updateSnapshot_eq, writes]
  cases ofKey entry.1 with
  | none => rfl
  | some written =>
      rw [Option.elim_some, Option.elim_some, get_put, lastWrite_singleton]
      split
      · rfl
      · rfl

end SnapshotField

/-- The fields of a `DisplayState` that `mem_poller` writes. -/
inductive PollField where
  | virtAddr
  | physAddr
  | mappingEntryBefore
  | mappingEntryCurrent
  | mappingWritableBefore
  | mappingWritableCurrent
  | mappingLevelBefore
  | mappingLevelCurrent
  | valVmalloc
  | valPhys
  | ctxProtected
  | smmuActive
  | mutexOwner
  | statusStr
  deriving DecidableEq

namespace PollField

/-- The field the loop writes for a key. -/
def ofKey (key : Bytes) : Option PollField :=
  if key = utf8 "virt_addr" then some .virtAddr
  else if key = utf8 "phys_addr" then some .physAddr
  else if key = utf8 "mapping_entry_before" then some .mappingEntryBefore
  else if key = utf8 "mapping_entry_current" then some .mappingEntryCurrent
  else if key = utf8 "mapping_writable_before" then some .mappingWritableBefore
  else if key = utf8 "mapping_writable_current" then some .mappingWritableCurrent
  else if key = utf8 "mapping_level_before" then some .mappingLevelBefore
  else if key = utf8 "mapping_level_current" then some .mappingLevelCurrent
  else if key = utf8 "value_via_vmalloc" ∨ key = utf8 "val_vmalloc" then some .valVmalloc
  else if key = utf8 "value_via_phys" ∨ key = utf8 "val_phys" then some .valPhys
  else if key = utf8 "ctx_protected" then some .ctxProtected
  else if key = utf8 "smmu_active" then some .smmuActive
  else if key = utf8 "mutex_owner" then some .mutexOwner
  else if key = utf8 "status" then some .statusStr
  else none

/-- The value it writes. -/
def read (value : Bytes) : PollField → Value
  | .virtAddr => .entry (parseHex64 value)
  | .physAddr => .entry (parseHex64 value)
  | .mappingEntryBefore => .entry (parseHex64 value)
  | .mappingEntryCurrent => .entry (parseHex64 value)
  | .mappingWritableBefore => .flag (value = utf8 "1")
  | .mappingWritableCurrent => .flag (value = utf8 "1")
  | .mappingLevelBefore => .text value
  | .mappingLevelCurrent => .text value
  | .valVmalloc => .word (parseHex32 value)
  | .valPhys => .word (parseHex32 value)
  | .ctxProtected => .flag (isOn value)
  | .smmuActive => .flag (isOn value)
  | .mutexOwner => .text value
  | .statusStr => .text value

def get (display : DisplayState) : PollField → Value
  | .virtAddr => .entry display.virtAddr
  | .physAddr => .entry display.physAddr
  | .mappingEntryBefore => .entry display.mappingEntryBefore
  | .mappingEntryCurrent => .entry display.mappingEntryCurrent
  | .mappingWritableBefore => .flag display.mappingWritableBefore
  | .mappingWritableCurrent => .flag display.mappingWritableCurrent
  | .mappingLevelBefore => .text display.mappingLevelBefore
  | .mappingLevelCurrent => .text display.mappingLevelCurrent
  | .valVmalloc => .word display.valVmalloc
  | .valPhys => .word display.valPhys
  | .ctxProtected => .flag display.ctxProtected
  | .smmuActive => .flag display.smmuActive
  | .mutexOwner => .text display.mutexOwner
  | .statusStr => .text display.statusStr

/-- What an entry writes. -/
def writes (entry : Bytes × Bytes) : List (PollField × Value) :=
  (ofKey entry.1).elim [] (fun field => [(field, field.read entry.2)])

-- Used instead of the definition, so that the kernel never runs the comparisons of `ofKey`.
theorem writes_mk (key value : Bytes)
    : writes (key, value) = (ofKey key).elim [] (fun field => [(field, field.read value)]) := by
  rw [writes]

/-- One branch of the loop. -/
def put (display : DisplayState) (val : Bytes) : PollField → DisplayState
  | .virtAddr => { display with virtAddr := parseHex64 val }
  | .physAddr => { display with physAddr := parseHex64 val }
  | .mappingEntryBefore => { display with mappingEntryBefore := parseHex64 val }
  | .mappingEntryCurrent => { display with mappingEntryCurrent := parseHex64 val }
  | .mappingWritableBefore => { display with mappingWritableBefore := val = utf8 "1" }
  | .mappingWritableCurrent => { display with mappingWritableCurrent := val = utf8 "1" }
  | .mappingLevelBefore => { display with mappingLevelBefore := val }
  | .mappingLevelCurrent => { display with mappingLevelCurrent := val }
  | .valVmalloc => { display with valVmalloc := parseHex32 val }
  | .valPhys => { display with valPhys := parseHex32 val }
  | .ctxProtected => { display with ctxProtected := isOn val }
  | .smmuActive => { display with smmuActive := isOn val }
  | .mutexOwner => { display with mutexOwner := val }
  | .statusStr => { display with statusStr := val }

theorem pollField_eq (display : DisplayState) (key val : Bytes)
    : pollField display key val = (ofKey key).elim display (put display val) := by
  simp only [ofKey, apply_ite (fun field => Option.elim field display (put display val))]
  rfl

theorem get_put (display : DisplayState) (val : Bytes) (field other : PollField)
    : get (put display val field) other
      = if field = other then field.read val else get display other := by
  cases field <;> cases other <;> rfl

theorem get_pollField (display : DisplayState) (entry : Bytes × Bytes) (field : PollField)
    : get (pollField display entry.1 entry.2) field
      = (lastWrite (writes entry) field).getD (get display field) := by
  rw [pollField_eq, writes]
  cases ofKey entry.1 with
  | none => rfl
  | some written =>
      rw [Option.elim_some, Option.elim_some, get_put, lastWrite_singleton]
      split
      · rfl
      · rfl

end PollField

end SafetyIsolation.Status

import SafetyIsolation.Status.Decoding
import SafetyIsolation.Status.Keys

/-! What the two decoders find in a text of `safety_mem_proc_show`.
The name of the lock's owner is the only value that may hold a newline. The lines it adds
that way come after the kernel's own lines, except the last.
-/

namespace SafetyIsolation.Status

open SafetyIsolation.Text SafetyIsolation.Kernel SafetyIsolation.Monitor

/-- The key and value `mem_poller` finds in a line. -/
def pollEntry (line : Bytes) : Option (Bytes × Bytes) :=
  (cut 58 line).map (fun parts => (trim parts.1, trim parts.2))

/-- The key and value `sync_scenario_state` finds in the line `write_snapshot` makes of a
line, after the prefix of the key.
-/
def stateEntry (line : Bytes) : Option (Bytes × Bytes) :=
  (cut 58 line).bind (fun parts =>
    (cut 61 (parts.1 ++ 61 :: parts.2)).map (fun parts => (trimEnd parts.1, trim parts.2)))

/-- What a line of a status text does to a snapshot, through the state file. -/
def snapshotLine (snapshot : ComparisonSnapshot) (line : Bytes) : ComparisonSnapshot :=
  (stateEntry line).elim snapshot (fun entry => updateSnapshot snapshot entry.1 entry.2)

def SnapshotField.lineWrites (line : Bytes) : List (SnapshotField × Value) :=
  (stateEntry line).elim [] SnapshotField.writes

def PollField.lineWrites (line : Bytes) : List (PollField × Value) :=
  (pollEntry line).elim [] PollField.writes

theorem snapshotLine_writes
    : StepWrites SnapshotField.get snapshotLine SnapshotField.lineWrites := by
  intro snapshot line field
  rw [snapshotLine, SnapshotField.lineWrites]
  cases stateEntry line with
  | none => rfl
  | some entry => exact SnapshotField.get_updateSnapshot snapshot entry field

theorem pollLine_writes : StepWrites PollField.get pollLine PollField.lineWrites := by
  intro display line field
  rw [pollLine, PollField.lineWrites, pollEntry]
  cases cut 58 line with
  | none => rfl
  | some parts =>
      exact PollField.get_pollField display (trim parts.1, trim parts.2) field

-----------------------------------------------------------------------------------------
-- The kernel's own lines
-----------------------------------------------------------------------------------------

/-- A key that both formats keep as it is. -/
structure Clean (key : Bytes) : Prop where
  solid : Solid key
  noColon : 58 ∉ key
  noEquals : 61 ∉ key

theorem statusLine_eq (field : Bytes × Bytes)
    : statusLine field = field.1 ++ 58 :: 32 :: field.2 := by
  have separator : utf8 ": " = [58, 32] := by decide
  rw [statusLine, separator, List.append_assoc]
  rfl

theorem pollEntry_statusLine {field : Bytes × Bytes} (clean : Clean field.1)
    : pollEntry (statusLine field) = some (field.1, trim field.2) := by
  rw [statusLine_eq, pollEntry, cut_append clean.noColon, Option.map_some, trim_space,
    trim_eq_self clean.solid]

theorem stateEntry_statusLine {field : Bytes × Bytes} (clean : Clean field.1)
    : stateEntry (statusLine field) = some (field.1, trim field.2) := by
  rw [statusLine_eq, stateEntry, cut_append clean.noColon, Option.bind_some,
    cut_append clean.noEquals, Option.map_some, trim_space, trimEnd_eq_self clean.solid]

theorem newline_not_mem_statusLine {field : Bytes × Bytes} (clean : Clean field.1)
    (solid : Solid field.2)
    : newline ∉ statusLine field := by
  rw [statusLine_eq]
  intro member
  rcases List.mem_append.mp member with inKey | later
  · exact clean.solid.noNewline inKey
  · rcases List.mem_cons.mp later with same | later
    · exact absurd same (by decide)
    · rcases List.mem_cons.mp later with same | inValue
      · exact absurd same (by decide)
      · exact solid.noNewline inValue

/-- The fields before the name of the lock's owner. -/
def leadingFields (report : StatusReport) : List (Bytes × Bytes) :=
  (statusFields report).take 16

/-- The line after the name. -/
def lastField (report : StatusReport) : Bytes × Bytes :=
  (utf8 "status", statusText report.protectedState)

theorem statusFields_eq (report : StatusReport)
    : statusFields report
      = leadingFields report ++ [(utf8 "mutex_owner", report.ownerBuf), lastField report] :=
  rfl

theorem clean_keys (report : StatusReport) : ∀ field ∈ statusFields report, Clean field.1 := by
  have clean : ∀ key ∈ StatusKey.all,
      Solid key.text ∧ (58 : UInt8) ∉ key.text ∧ (61 : UInt8) ∉ key.text := by decide
  intro field member
  rw [StatusKey.statusFields_eq_map] at member
  obtain ⟨key, listed, rfl⟩ := List.mem_map.mp member
  obtain ⟨solid, noColon, noEquals⟩ := clean key listed
  exact ⟨solid, noColon, noEquals⟩

theorem clean_leading (report : StatusReport)
    : ∀ field ∈ leadingFields report, Clean field.1 :=
  fun field member =>
    clean_keys report field (statusFields_eq report ▸ List.mem_append_left _ member)

theorem clean_owner : Clean (utf8 "mutex_owner") :=
  ⟨by decide, by decide, by decide⟩

theorem clean_status : Clean (utf8 "status") :=
  ⟨by decide, by decide, by decide⟩

theorem solid_value (report : StatusReport) {key : StatusKey} (notOwner : key ≠ .mutexOwner)
    : Solid (key.value report) := by
  have solid : ∀ key ∈ StatusKey.all, Solid key.letters := by decide
  exact fun byte member =>
    solid key key.mem_all byte (StatusKey.value_subset notOwner member)

theorem solid_statusText (report : StatusReport) : Solid (statusText report.protectedState) :=
  @solid_value report .status (by decide)

/-- Every value the kernel prints before the name is solid. -/
theorem solid_values (report : StatusReport)
    : ∀ field ∈ leadingFields report, Solid field.2 := by
  have leading : leadingFields report
      = (StatusKey.all.take 16).map (fun key => (key.text, key.value report)) := rfl
  intro field member
  rw [leading] at member
  obtain ⟨key, listed, rfl⟩ := List.mem_map.mp member
  exact solid_value report (fun isOwner => absurd (isOwner ▸ listed) (by decide))

/-- The lines a name with newlines adds to the text. -/
def forgedLines (name : Bytes) : List Bytes := (lines (name ++ [newline])).tail

theorem forgedLines_eq_nil {name : Bytes} (whole : newline ∉ name) : forgedLines name = [] := by
  rw [forgedLines, lines_line whole]
  rfl

/-- The rest of the line the name starts in. -/
def firstLine (name : Bytes) : Bytes := (lines (name ++ [newline])).headD []

theorem lines_owner (key name : Bytes) (whole : newline ∉ key)
    : lines (statusLine (key, name) ++ [newline])
      = statusLine (key, firstLine name) :: forgedLines name := by
  obtain ⟨line, later, own⟩ := exists_firstLine name
  have front : newline ∉ key ++ [58, 32] := by
    intro member
    rcases List.mem_append.mp member with inKey | inSeparator
    · exact whole inKey
    · exact absurd inSeparator (by decide)
  have split (value : Bytes) : statusLine (key, value) = (key ++ [58, 32]) ++ value := by
    rw [statusLine_eq, List.append_assoc]
    rfl
  rw [split, List.append_assoc, lines_prepend front own, split, firstLine, forgedLines, own]
  rfl

/-- The kernel's lines, with the lines of the name between the last two. -/
theorem lines_safetyMemProcShow (report : StatusReport)
    : lines (safetyMemProcShow report)
      = (leadingFields report).map statusLine
        ++ statusLine (utf8 "mutex_owner", firstLine report.ownerBuf)
          :: forgedLines report.ownerBuf
        ++ [statusLine (lastField report)] := by
  have whole : ∀ line ∈ (leadingFields report).map statusLine, newline ∉ line := by
    intro line isLine
    obtain ⟨field, member, rfl⟩ := List.mem_map.mp isLine
    exact newline_not_mem_statusLine (clean_leading report field member)
      (solid_values report field member)
  have lastWhole : newline ∉ statusLine (lastField report) :=
    newline_not_mem_statusLine clean_status (solid_statusText report)
  have ending : lines (statusLine (utf8 "mutex_owner", report.ownerBuf)
        ++ newline :: (statusLine (lastField report) ++ [newline]))
      = (statusLine (utf8 "mutex_owner", firstLine report.ownerBuf)
          :: forgedLines report.ownerBuf)
        ++ [statusLine (lastField report)] := by
    rw [lines_newline, lines_owner _ _ clean_owner.solid.noNewline, lines_line lastWhole]
    rfl
  have text : safetyMemProcShow report
      = ((leadingFields report).map statusLine).flatMap (· ++ [newline])
        ++ (statusLine (utf8 "mutex_owner", report.ownerBuf)
          ++ newline :: (statusLine (lastField report) ++ [newline])) := by
    rw [safetyMemProcShow, statusFields_eq, List.flatMap_append, List.flatMap_map]
    simp only [List.flatMap_cons, List.flatMap_nil, List.append_nil, List.append_assoc,
      List.singleton_append]
  rw [text, lines_flatMap _ whole, ending, List.append_assoc]

-----------------------------------------------------------------------------------------
-- Values
-----------------------------------------------------------------------------------------

theorem stripHexPrefix_append (digits : Bytes)
    : stripHexPrefix (utf8 "0x" ++ digits) = digits := by
  have found : (utf8 "0x").isPrefixOf (utf8 "0x" ++ digits) = true :=
    List.isPrefixOf_iff_prefix.mpr (List.prefix_append _ _)
  rw [stripHexPrefix, found, Bool.true_or, if_pos rfl]
  rfl

theorem parseHex64_hexText {letter : UInt8} (isCase : IsCase letter) (value : UInt64)
    : parseHex64 (utf8 "0x" ++ hexFixed letter 16 value.toNat) = value := by
  have bounded : value.toNat < UInt64.size := value.toNat_lt_size
  rw [parseHex64, stripHexPrefix_append,
    fromHex_hexFixed isCase (by decide) bounded bounded]
  exact UInt64.ofNat_toNat

theorem parseHex32_hexText {letter : UInt8} (isCase : IsCase letter) (value : UInt32)
    : parseHex32 (utf8 "0x" ++ hexFixed letter 8 value.toNat) = value := by
  have bounded : value.toNat < UInt32.size := value.toNat_lt_size
  rw [parseHex32, stripHexPrefix_append,
    fromHex_hexFixed isCase (by decide) bounded bounded]
  exact UInt32.ofNat_toNat

theorem flagText_eq_one (flag : Bool) : decide (flagText flag = utf8 "1") = flag := by
  cases flag <;> decide

theorem isOn_flagText (flag : Bool) : isOn (flagText flag) = flag := by
  cases flag <;> decide

/-- The kernel's own values in a snapshot; the mapping is the vmalloc alias, whose lines come
after those of the current mapping.
-/
def snapshotOf (report : StatusReport) : ComparisonSnapshot where
  valVmalloc := report.valVmalloc
  valPhys := report.valPhys
  mappingEntry := report.vmallocMapping.entry
  mappingWritable := report.vmallocMapping.isWritable
  ctxProtected := report.protectedState
  smmuActive := report.smmuState
  mappingLevel := mappingLevel report.vmallocMapping
  status := statusText report.protectedState

/-- The kernel's own values on the display. -/
def ownValue (report : StatusReport) : PollField → Value
  | .virtAddr => .entry report.virtAddr
  | .physAddr => .entry report.physAddr
  | .mappingEntryBefore => .entry report.initialMapping.entry
  | .mappingEntryCurrent => .entry report.currentMapping.entry
  | .mappingWritableBefore => .flag report.initialMapping.isWritable
  | .mappingWritableCurrent => .flag report.currentMapping.isWritable
  | .mappingLevelBefore => .text (mappingLevel report.initialMapping)
  | .mappingLevelCurrent => .text (mappingLevel report.currentMapping)
  | .valVmalloc => .word report.valVmalloc
  | .valPhys => .word report.valPhys
  | .ctxProtected => .flag report.protectedState
  | .smmuActive => .flag report.smmuState
  | .mutexOwner => .text (trim (firstLine report.ownerBuf))
  | .statusStr => .text (statusText report.protectedState)

theorem snapshotField_ofKey
    : SnapshotField.ofKey (utf8 "virt_addr") = none
      ∧ SnapshotField.ofKey (utf8 "phys_addr") = none
      ∧ SnapshotField.ofKey (utf8 "mapping_level_before") = none
      ∧ SnapshotField.ofKey (utf8 "mapping_entry_before") = none
      ∧ SnapshotField.ofKey (utf8 "mapping_writable_before") = none
      ∧ SnapshotField.ofKey (utf8 "mapping_level_current") = some .mappingLevel
      ∧ SnapshotField.ofKey (utf8 "mapping_entry_current") = some .mappingEntry
      ∧ SnapshotField.ofKey (utf8 "mapping_writable_current") = some .mappingWritable
      ∧ SnapshotField.ofKey (utf8 "mapping_valid_current") = none
      ∧ SnapshotField.ofKey (utf8 "mapping_level_vmalloc") = some .mappingLevel
      ∧ SnapshotField.ofKey (utf8 "mapping_entry_vmalloc") = some .mappingEntry
      ∧ SnapshotField.ofKey (utf8 "mapping_writable_vmalloc") = some .mappingWritable
      ∧ SnapshotField.ofKey (utf8 "value_via_vmalloc") = some .valVmalloc
      ∧ SnapshotField.ofKey (utf8 "value_via_phys") = some .valPhys
      ∧ SnapshotField.ofKey (utf8 "ctx_protected") = some .ctxProtected
      ∧ SnapshotField.ofKey (utf8 "smmu_active") = some .smmuActive
      ∧ SnapshotField.ofKey (utf8 "mutex_owner") = none
      ∧ SnapshotField.ofKey (utf8 "status") = some .status := by
  decide +kernel

theorem pollField_ofKey
    : PollField.ofKey (utf8 "virt_addr") = some .virtAddr
      ∧ PollField.ofKey (utf8 "phys_addr") = some .physAddr
      ∧ PollField.ofKey (utf8 "mapping_level_before") = some .mappingLevelBefore
      ∧ PollField.ofKey (utf8 "mapping_entry_before") = some .mappingEntryBefore
      ∧ PollField.ofKey (utf8 "mapping_writable_before") = some .mappingWritableBefore
      ∧ PollField.ofKey (utf8 "mapping_level_current") = some .mappingLevelCurrent
      ∧ PollField.ofKey (utf8 "mapping_entry_current") = some .mappingEntryCurrent
      ∧ PollField.ofKey (utf8 "mapping_writable_current") = some .mappingWritableCurrent
      ∧ PollField.ofKey (utf8 "mapping_valid_current") = none
      ∧ PollField.ofKey (utf8 "mapping_level_vmalloc") = none
      ∧ PollField.ofKey (utf8 "mapping_entry_vmalloc") = none
      ∧ PollField.ofKey (utf8 "mapping_writable_vmalloc") = none
      ∧ PollField.ofKey (utf8 "value_via_vmalloc") = some .valVmalloc
      ∧ PollField.ofKey (utf8 "value_via_phys") = some .valPhys
      ∧ PollField.ofKey (utf8 "ctx_protected") = some .ctxProtected
      ∧ PollField.ofKey (utf8 "smmu_active") = some .smmuActive
      ∧ PollField.ofKey (utf8 "mutex_owner") = some .mutexOwner
      ∧ PollField.ofKey (utf8 "status") = some .statusStr := by
  decide +kernel

/-- The lines before the name write every field of a snapshot except the last. -/
theorem lastWrite_leading_snapshot (report : StatusReport) (field : SnapshotField)
    : lastWrite ((leadingFields report).flatMap SnapshotField.writes) field
      = if field = .status then none else some (field.get (snapshotOf report)) := by
  have upper : IsCase upperA := Or.inl rfl
  have next (entry : Bytes × Bytes) (later : List (Bytes × Bytes))
      : (entry :: later).flatMap SnapshotField.writes
        = SnapshotField.writes entry ++ later.flatMap SnapshotField.writes :=
    List.flatMap_cons
  simp only [leadingFields, statusFields, List.take_succ_cons, List.take_zero,
    next, List.flatMap_nil, SnapshotField.writes_mk, Option.elim_none, Option.elim_some,
    snapshotField_ofKey,
    SnapshotField.read, upperHex64, upperHex32, parseHex64_hexText upper,
    parseHex32_hexText upper, flagText_eq_one, isOn_flagText, List.nil_append,
    List.singleton_append]
  cases field <;> rfl

/-- They write every field of the display except the last two. -/
theorem lastWrite_leading_poll (report : StatusReport) (field : PollField)
    : lastWrite ((leadingFields report).flatMap PollField.writes) field
      = if field = .mutexOwner ∨ field = .statusStr then none
        else some (ownValue report field) := by
  have upper : IsCase upperA := Or.inl rfl
  have lower : IsCase lowerA := Or.inr rfl
  have next (entry : Bytes × Bytes) (later : List (Bytes × Bytes))
      : (entry :: later).flatMap PollField.writes
        = PollField.writes entry ++ later.flatMap PollField.writes :=
    List.flatMap_cons
  simp only [leadingFields, statusFields, List.take_succ_cons, List.take_zero,
    next, List.flatMap_nil, PollField.writes_mk, Option.elim_none, Option.elim_some,
    pollField_ofKey, PollField.read,
    upperHex64, lowerHex64, upperHex32, parseHex64_hexText upper, parseHex64_hexText lower,
    parseHex32_hexText upper, flagText_eq_one, isOn_flagText, List.nil_append,
    List.singleton_append]
  cases field <;> rfl

-----------------------------------------------------------------------------------------
-- The whole text
-----------------------------------------------------------------------------------------

/-- A decoder that finds the key and value of each line finds those of the kernel's lines. -/
theorem flatMap_leading {β : Type} (report : StatusReport)
    {entry : Bytes → Option (Bytes × Bytes)}
    (finds : ∀ {field}, Clean field.1 → entry (statusLine field) = some (field.1, trim field.2))
    (writes : Bytes × Bytes → List β)
    : ((leadingFields report).map statusLine).flatMap (fun line => (entry line).elim [] writes)
      = (leadingFields report).flatMap writes := by
  rw [List.flatMap_map]
  refine List.flatMap_congr (fun field member => ?_)
  rw [finds (clean_leading report field member), trim_eq_self (solid_values report field member)]
  rfl

theorem lineWrites_leading_snapshot (report : StatusReport)
    : ((leadingFields report).map statusLine).flatMap SnapshotField.lineWrites
      = (leadingFields report).flatMap SnapshotField.writes :=
  flatMap_leading report stateEntry_statusLine SnapshotField.writes

theorem lineWrites_leading_poll (report : StatusReport)
    : ((leadingFields report).map statusLine).flatMap PollField.lineWrites
      = (leadingFields report).flatMap PollField.writes :=
  flatMap_leading report pollEntry_statusLine PollField.writes

/-- A snapshot read from a status text has the kernel's own values, except where the name
adds lines. The last line is always the kernel's own.
-/
theorem get_snapshotLines (report : StatusReport) (snapshot : ComparisonSnapshot)
    (field : SnapshotField)
    : field.get ((lines (safetyMemProcShow report)).foldl snapshotLine snapshot)
      = if field = .status then .text (statusText report.protectedState)
        else (lastWrite ((forgedLines report.ownerBuf).flatMap SnapshotField.lineWrites)
          field).getD (field.get (snapshotOf report)) := by
  have owner : SnapshotField.lineWrites
      (statusLine (utf8 "mutex_owner", firstLine report.ownerBuf)) = [] := by
    rw [SnapshotField.lineWrites, stateEntry_statusLine clean_owner]
    simp only [Option.elim_some, SnapshotField.writes_mk, snapshotField_ofKey,
      Option.elim_none]
  have last : SnapshotField.lineWrites (statusLine (lastField report))
      = [(.status, .text (statusText report.protectedState))] := by
    rw [SnapshotField.lineWrites, lastField, stateEntry_statusLine clean_status,
      trim_eq_self (solid_statusText report)]
    simp only [Option.elim_some, SnapshotField.writes_mk, snapshotField_ofKey,
      SnapshotField.read]
  rw [snapshotLine_writes.foldl, lines_safetyMemProcShow, List.flatMap_append,
    List.flatMap_append, List.flatMap_cons, owner, List.nil_append, List.flatMap_singleton,
    last, lineWrites_leading_snapshot, lastWrite_append, lastWrite_append,
    lastWrite_leading_snapshot, lastWrite_singleton]
  by_cases isStatus : field = .status
  · rw [if_pos isStatus, if_pos isStatus.symm, if_pos isStatus]
    rfl
  · rw [if_neg isStatus, if_neg (Ne.symm isStatus), if_neg isStatus, Option.none_or]
    cases lastWrite ((forgedLines report.ownerBuf).flatMap SnapshotField.lineWrites) field with
    | none => rfl
    | some value => rfl

/-- The same for what `mem_poller` reads from the text. -/
theorem get_pollStatus (report : StatusReport) (display : DisplayState) (field : PollField)
    : field.get (pollStatus (safetyMemProcShow report) display)
      = if field = .statusStr then .text (statusText report.protectedState)
        else (lastWrite ((forgedLines report.ownerBuf).flatMap PollField.lineWrites)
          field).getD (ownValue report field) := by
  have owner : PollField.lineWrites
        (statusLine (utf8 "mutex_owner", firstLine report.ownerBuf))
      = [(.mutexOwner, .text (trim (firstLine report.ownerBuf)))] := by
    rw [PollField.lineWrites, pollEntry_statusLine clean_owner]
    simp only [Option.elim_some, PollField.writes_mk, pollField_ofKey, PollField.read]
  have last : PollField.lineWrites (statusLine (lastField report))
      = [(.statusStr, .text (statusText report.protectedState))] := by
    rw [PollField.lineWrites, lastField, pollEntry_statusLine clean_status,
      trim_eq_self (solid_statusText report)]
    simp only [Option.elim_some, PollField.writes_mk, pollField_ofKey, PollField.read]
  rw [pollStatus, pollLine_writes.foldl, lines_safetyMemProcShow, List.flatMap_append,
    List.flatMap_append, List.flatMap_cons, owner, List.flatMap_singleton, last,
    lineWrites_leading_poll, lastWrite_append, lastWrite_append, lastWrite_append,
    lastWrite_leading_poll, lastWrite_singleton, lastWrite_singleton]
  by_cases isStatus : field = .statusStr
  · rw [if_pos isStatus, if_pos isStatus.symm]
    rfl
  · rw [if_neg isStatus, if_neg (Ne.symm isStatus), Option.none_or]
    cases lastWrite ((forgedLines report.ownerBuf).flatMap PollField.lineWrites) field with
    | some value => rfl
    | none =>
        by_cases isOwner : field = .mutexOwner
        · rw [if_pos isOwner.symm, isOwner]
          rfl
        · have neither : ¬(field = .mutexOwner ∨ field = .statusStr) := by
            simp only [isOwner, isStatus, or_self, not_false_eq_true]
          rw [if_neg (Ne.symm isOwner), if_neg neither]
          rfl

end SafetyIsolation.Status

import SafetyIsolation.Status.StatusText

/-! What the name of the lock's holder can change on the dashboard.
The kernel prints the name as it is. A newline in it starts a new line of the text, which
`mem_poller` takes for one of the kernel's own.
-/

namespace SafetyIsolation.Status

open SafetyIsolation.Text SafetyIsolation.Kernel SafetyIsolation.Monitor

/-- The name a task can give itself: what fits in `TASK_COMM_LEN` bytes with a final NUL. -/
structure TaskName where
  bytes : Bytes
  fits : bytes.length ≤ 15
  noNul : 0 ∉ bytes

/-- The kernel state with the lock held by a task of this name. -/
def heldBy (report : StatusReport) (name : TaskName) : StatusReport :=
  { report with ownerBuf := name.bytes }

/-- Everything `mem_poller` decodes is the same, except the owner. -/
def SameStatus (left right : DisplayState) : Prop :=
  ∀ field : PollField, field ≠ .mutexOwner → field.get left = field.get right

/-- What the lines a name adds set a field to, if they do. -/
def forgedValue (name : TaskName) (field : PollField) : Option Value :=
  lastWrite ((forgedLines name.bytes).flatMap PollField.lineWrites) field

theorem length_lines {text line : Bytes} (member : line ∈ lines (text ++ [newline]))
    : line.length ≤ text.length := by
  induction text generalizing line with
  | nil =>
      rw [List.nil_append, lines, if_pos rfl, lines] at member
      rw [List.mem_singleton.mp member]
  | cons byte rest ih =>
      obtain ⟨first, later, read⟩ := exists_firstLine rest
      rw [read] at ih
      rw [List.cons_append, lines, read] at member
      split at member
      · rcases List.mem_cons.mp member with rfl | member
        · exact Nat.zero_le _
        · exact Nat.le_succ_of_le (ih member)
      · rcases List.mem_cons.mp member with rfl | member
        · exact Nat.succ_le_succ (ih List.mem_cons_self)
        · exact Nat.le_succ_of_le (ih (List.mem_cons_of_mem _ member))

/-- A line the name adds has lost a newline to the line before it. -/
theorem length_forgedLines {name line : Bytes} (member : line ∈ forgedLines name)
    : line.length < name.length := by
  induction name with
  | nil => exact absurd member List.not_mem_nil
  | cons byte rest ih =>
      obtain ⟨first, later, read⟩ := exists_firstLine rest
      rw [forgedLines, List.cons_append, lines] at member
      split at member
      · exact Nat.lt_succ_of_le (length_lines member)
      · rw [forgedLines, read, List.tail_cons] at ih
        rw [read, List.tail_cons] at member
        exact Nat.lt_succ_of_lt (ih member)

theorem length_trim (s : Bytes) : (trim s).length ≤ s.length := by
  rw [trim_eq_trimEnd, trimEnd, List.length_reverse]
  have ending := (List.dropWhile_sublist isBlank (l := (s.dropWhile isBlank).reverse)).length_le
  have start := (List.dropWhile_sublist isBlank (l := s)).length_le
  rw [List.length_reverse] at ending
  omega

/-- The fields whose key and separator fit in a name after a newline. -/
def forgeable : List PollField :=
  [.virtAddr, .physAddr, .valVmalloc, .valPhys, .ctxProtected, .smmuActive]

/-- One comparison of the loop. -/
theorem some_of_ite {p : Prop} [Decidable p] {found field : PollField} {rest : Option PollField}
    (h : (if p then some found else rest) = some field)
    : p ∧ found = field ∨ rest = some field := by
  by_cases holds : p
  · rw [if_pos holds] at h
    exact Or.inl ⟨holds, Option.some.inj h⟩
  · rw [if_neg holds] at h
    exact Or.inr h

theorem ofKey_forgeable {key : Bytes} {field : PollField}
    (named : PollField.ofKey key = some field) (short : key.length ≤ 13)
    : field ∈ forgeable ∨ field = .mutexOwner ∨ field = .statusStr := by
  have long (name : String) (length : 13 < (utf8 name).length) (isKey : key = utf8 name)
      : False := by
    rw [isKey] at short
    omega
  unfold PollField.ofKey at named
  rcases some_of_ite named with ⟨_, rfl⟩ | named
  · exact Or.inl (by decide)
  rcases some_of_ite named with ⟨_, rfl⟩ | named
  · exact Or.inl (by decide)
  rcases some_of_ite named with ⟨isKey, _⟩ | named
  · exact (long "mapping_entry_before" (by decide) isKey).elim
  rcases some_of_ite named with ⟨isKey, _⟩ | named
  · exact (long "mapping_entry_current" (by decide) isKey).elim
  rcases some_of_ite named with ⟨isKey, _⟩ | named
  · exact (long "mapping_writable_before" (by decide) isKey).elim
  rcases some_of_ite named with ⟨isKey, _⟩ | named
  · exact (long "mapping_writable_current" (by decide) isKey).elim
  rcases some_of_ite named with ⟨isKey, _⟩ | named
  · exact (long "mapping_level_before" (by decide) isKey).elim
  rcases some_of_ite named with ⟨isKey, _⟩ | named
  · exact (long "mapping_level_current" (by decide) isKey).elim
  rcases some_of_ite named with ⟨_, rfl⟩ | named
  · exact Or.inl (by decide)
  rcases some_of_ite named with ⟨_, rfl⟩ | named
  · exact Or.inl (by decide)
  rcases some_of_ite named with ⟨_, rfl⟩ | named
  · exact Or.inl (by decide)
  rcases some_of_ite named with ⟨_, rfl⟩ | named
  · exact Or.inl (by decide)
  rcases some_of_ite named with ⟨_, rfl⟩ | named
  · exact Or.inr (Or.inl rfl)
  rcases some_of_ite named with ⟨_, rfl⟩ | named
  · exact Or.inr (Or.inr rfl)
  · exact absurd named.symm (Option.some_ne_none field)

/-- No other field is written by a line that fits. -/
theorem forgedValue_eq_none (name : TaskName) {field : PollField} (notOwner : field ≠ .mutexOwner)
    (notStatus : field ≠ .statusStr) (notForgeable : field ∉ forgeable)
    : forgedValue name field = none := by
  refine lastWrite_eq_none (fun write member same => ?_)
  obtain ⟨line, isForged, written⟩ := List.mem_flatMap.mp member
  have short := Nat.lt_of_lt_of_le (length_forgedLines isForged) name.fits
  simp only [PollField.lineWrites, pollEntry] at written
  cases isCut : cut 58 line with
  | none =>
      rw [isCut] at written
      exact absurd written List.not_mem_nil
  | some parts =>
      rw [isCut, Option.map_some, Option.elim_some, PollField.writes_mk] at written
      cases named : PollField.ofKey (trim parts.1) with
      | none =>
          rw [named] at written
          exact absurd written List.not_mem_nil
      | some found =>
          rw [named, Option.elim_some] at written
          rw [List.mem_singleton.mp written] at same
          have length := congrArg List.length (cut_eq_some isCut)
          rw [List.length_append, List.length_cons] at length
          have trimmed := length_trim parts.1
          obtain rfl : found = field := same
          rcases ofKey_forgeable named (by omega) with forged | owner | status
          · exact notForgeable forged
          · exact notOwner owner
          · exact notStatus status

/-- What a field shows: the value the name forges, else the kernel's own. -/
def shownValue (report : StatusReport) (name : TaskName) (field : PollField) : Value :=
  (forgedValue name field).getD (ownValue report field)

theorem get_pollStatus_heldBy (report : StatusReport) (name : TaskName) (display : DisplayState)
    {field : PollField} (notStatus : field ≠ .statusStr) (notOwner : field ≠ .mutexOwner)
    : field.get (pollStatus (safetyMemProcShow (heldBy report name)) display)
      = shownValue report name field := by
  have own : ownValue (heldBy report name) field = ownValue report field := by
    cases field <;> first | rfl | exact absurd rfl notOwner
  rw [get_pollStatus, if_neg notStatus, own]
  rfl

/-- Two names leave the rest of the dashboard the same exactly when they forge the same
values, up to the kernel's own.
-/
theorem sameStatus_iff (report : StatusReport) (first second : TaskName)
    (display : DisplayState)
    : SameStatus (pollStatus (safetyMemProcShow (heldBy report first)) display)
        (pollStatus (safetyMemProcShow (heldBy report second)) display)
      ↔ ∀ field ∈ forgeable, shownValue report first field = shownValue report second field := by
  constructor
  · intro same field member
    have notOwner : field ≠ .mutexOwner := fun isOwner => absurd (isOwner ▸ member) (by decide)
    have notStatus : field ≠ .statusStr := fun isStatus => absurd (isStatus ▸ member) (by decide)
    rw [← get_pollStatus_heldBy report first display notStatus notOwner,
      ← get_pollStatus_heldBy report second display notStatus notOwner]
    exact same field notOwner
  · intro same field notOwner
    by_cases isStatus : field = .statusStr
    · rw [get_pollStatus, get_pollStatus, if_pos isStatus, if_pos isStatus]
      rfl
    · rw [get_pollStatus_heldBy report first display isStatus notOwner,
        get_pollStatus_heldBy report second display isStatus notOwner]
      by_cases fits : field ∈ forgeable
      · exact same field fits
      · rw [shownValue, shownValue, forgedValue_eq_none first notOwner isStatus fits,
          forgedValue_eq_none second notOwner isStatus fits]

/-- A name on one line forges nothing. -/
theorem shownValue_oneLine (report : StatusReport) {name : TaskName}
    (oneLine : newline ∉ name.bytes) (field : PollField)
    : shownValue report name field = ownValue report field := by
  rw [shownValue, forgedValue, forgedLines_eq_nil oneLine]
  rfl

/-- A task that switches the SMMU on, on the dashboard. -/
def smmuForger : TaskName := ⟨utf8 "\nsmmu_active:1", by decide, by decide⟩

def shell : TaskName := ⟨utf8 "bash", by decide, by decide⟩

theorem smmuForger_changes_status
    : ¬∀ (report : StatusReport) (first second : TaskName) (display : DisplayState),
        SameStatus (pollStatus (safetyMemProcShow (heldBy report first)) display)
          (pollStatus (safetyMemProcShow (heldBy report second)) display) := by
  intro same
  have flag := same
    ⟨0, 0, ⟨false, 0, false⟩, ⟨false, 0, false⟩, true, ⟨false, 0, false⟩, 0, 0, true, false, []⟩
    smmuForger shell {} .smmuActive (by decide)
  have oneLine : newline ∉ shell.bytes := by decide
  rw [get_pollStatus_heldBy _ _ _ (by decide) (by decide),
    get_pollStatus_heldBy _ _ _ (by decide) (by decide), shownValue_oneLine _ oneLine] at flag
  exact absurd flag (by decide +kernel)

end SafetyIsolation.Status

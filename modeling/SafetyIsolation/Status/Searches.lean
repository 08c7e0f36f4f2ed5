import SafetyIsolation.Harness.Scenarios
import SafetyIsolation.Status.Keys

/-! What the scenarios' searches find in a status text. A needle lies in one line, and a line
that prints something else is without some byte of it. The searches of Scenario F find what
they look for, because a task name is too short to hold it.
-/

namespace SafetyIsolation.Status

open SafetyIsolation.Kernel SafetyIsolation.Harness SafetyIsolation.Text

/-- An occurrence does not cross a separator it does not contain. -/
theorem infix_of_separated {separator : UInt8} {needle left right : Bytes}
    (absent : separator ∉ needle) (h : needle <:+: left ++ separator :: right)
    : needle <:+: left ∨ needle <:+: right := by
  obtain ⟨before, after, split⟩ := h
  rcases List.append_eq_append_iff.mp split with ⟨rest, whole, tail⟩ | ⟨rest, whole, tail⟩
  · exact .inl ⟨before, rest, whole.symm⟩
  · cases rest with
    | nil => exact .inl ⟨before, [], by rw [List.append_nil, whole, List.append_nil]⟩
    | cons byte rest =>
        obtain ⟨rfl, rfl⟩ := List.cons.inj tail
        rcases List.append_eq_append_iff.mp whole with ⟨middle, _, inside⟩ | ⟨middle, _, inside⟩
        · exact absurd (inside ▸ List.mem_append_right _ List.mem_cons_self) absent
        · cases middle with
          | nil =>
              rw [List.nil_append] at inside
              exact absurd (inside ▸ List.mem_cons_self) absent
          | cons first middle =>
              obtain ⟨rfl, rfl⟩ := List.cons.inj inside
              exact .inr ⟨middle, after, rfl⟩

/-- A text without newlines is found in a single line, by induction over the lines. -/
theorem exists_line_of_infix {needle : Bytes} {lines : List Bytes} (nonempty : needle ≠ [])
    (absent : newline ∉ needle) (h : needle <:+: lines.flatMap (· ++ [newline]))
    : ∃ line ∈ lines, needle <:+: line := by
  induction lines with
  | nil => exact absurd (List.infix_nil.mp h) nonempty
  | cons line later ih =>
      rw [List.flatMap_cons, List.append_assoc, List.singleton_append] at h
      rcases infix_of_separated absent h with here | there
      · exact ⟨line, List.mem_cons_self, here⟩
      · obtain ⟨found, member, inside⟩ := ih there
        exact ⟨found, List.mem_cons_of_mem _ member, inside⟩

/-- A text that is shorter than the needle cannot complete an occurrence that does not start
before it.
-/
theorem not_infix_of_short {needle front text : Bytes} (short : text.length < needle.length)
    (h : ∀ suffix ∈ front.tails, suffix ≠ [] → ¬ suffix <+: needle ∧ ¬ needle <+: suffix)
    : ¬ needle <:+: front ++ text := by
  intro occurs
  obtain ⟨before, after, split⟩ := occurs
  have lengths := congrArg List.length split
  simp only [List.length_append] at lengths
  rw [List.append_assoc] at split
  rcases List.append_eq_append_iff.mp split with ⟨suffix, isFront, tail⟩ | ⟨extra, isBefore, _⟩
  · have nonempty : suffix ≠ [] := by
      rintro rfl
      rw [List.append_nil] at isFront
      rw [isFront] at lengths
      omega
    have here := h suffix ((List.mem_tails _ _).mpr ⟨before, isFront.symm⟩) nonempty
    have starts : needle <+: suffix ++ text := ⟨after, tail⟩
    exact (List.prefix_or_prefix_of_prefix starts (List.prefix_append _ _)).elim here.2 here.1
  · rw [isBefore, List.length_append] at lengths
    omega

/-- Where the text has the separator once, an occurrence has it there. -/
theorem prefix_of_separated {separator : UInt8} {front needle left right : Bytes}
    (inLeft : separator ∉ left) (inRight : separator ∉ right)
    (h : front ++ separator :: needle <:+: left ++ separator :: right)
    : needle <+: right := by
  obtain ⟨before, after, split⟩ := h
  have split : (before ++ front) ++ separator :: (needle ++ after) = left ++ separator :: right := by
    simpa only [List.append_assoc, List.cons_append] using split
  rcases List.append_eq_append_iff.mp split with ⟨rest, whole, tail⟩ | ⟨rest, whole, tail⟩
  · cases rest with
    | nil => exact ⟨after, (List.cons.inj tail).2⟩
    | cons byte rest =>
        obtain ⟨rfl, _⟩ := List.cons.inj tail
        exact absurd (whole ▸ List.mem_append_right _ List.mem_cons_self) inLeft
  · cases rest with
    | nil => exact ⟨after, (List.cons.inj tail).2.symm⟩
    | cons byte rest =>
        obtain ⟨_, isRight⟩ := List.cons.inj tail
        exact absurd (isRight ▸ List.mem_append_right _ List.mem_cons_self) inRight

/-- An occurrence starts behind a text that is without the needle's first byte. -/
theorem infix_of_append {byte : UInt8} {needle front text : Bytes} (absent : byte ∉ front)
    (h : byte :: needle <:+: front ++ text)
    : byte :: needle <:+: text := by
  obtain ⟨before, after, split⟩ := h
  rw [List.append_assoc, List.cons_append] at split
  rcases List.append_eq_append_iff.mp split with ⟨rest, whole, tail⟩ | ⟨rest, whole, tail⟩
  · cases rest with
    | nil => exact ⟨[], after, by rw [List.nil_append, List.cons_append, tail, List.nil_append]⟩
    | cons first rest =>
        obtain ⟨rfl, _⟩ := List.cons.inj tail
        exact absurd (whole ▸ List.mem_append_right _ List.mem_cons_self) absent
  · exact ⟨rest, after, by rw [tail, List.append_assoc, List.cons_append]⟩

-----------------------------------------------------------------------------------------
-- Lines of the status
-----------------------------------------------------------------------------------------

namespace StatusKey

variable {report : StatusReport} {key : StatusKey} {needle : Bytes}

/-- A search in the status text is answered by one of its lines. -/
theorem contains_iff (nonempty : needle ≠ []) (absent : newline ∉ needle)
    : contains (safetyMemProcShow report) needle = true
      ↔ ∃ key : StatusKey, needle <:+: key.line report := by
  have lines : safetyMemProcShow report = (all.map (line report)).flatMap (· ++ [newline]) := by
    rw [safetyMemProcShow, statusFields_eq_map, List.flatMap_map, List.flatMap_map]
    rfl
  rw [contains, decide_eq_true_iff, lines]
  constructor
  · intro occurs
    obtain ⟨line, member, inside⟩ := exists_line_of_infix nonempty absent occurs
    obtain ⟨key, _, rfl⟩ := List.mem_map.mp member
    exact ⟨key, inside⟩
  · intro answered
    obtain ⟨key, inside⟩ := answered
    obtain ⟨earlier, later, split⟩ := List.append_of_mem (List.mem_map_of_mem (mem_all key))
    rw [split, List.flatMap_append, List.flatMap_cons]
    exact ((inside.trans (List.infix_append [] _ _)).trans (List.infix_append [] _ _)).trans
      (List.suffix_append _ _).isInfix

/-- A byte of the needle is missing from everything the line can print. -/
def Lacks (key : StatusKey) (needle : Bytes) : Prop :=
  key ≠ .mutexOwner ∧ ∃ byte ∈ needle, byte ∉ key.text ++ utf8 ": " ++ key.letters

instance (key : StatusKey) (needle : Bytes) : Decidable (key.Lacks needle) :=
  inferInstanceAs (Decidable (_ ∧ _))

theorem Lacks.mono {bytes : Bytes} (lacks : key.Lacks bytes) (among : bytes ⊆ needle)
    : key.Lacks needle := by
  obtain ⟨notOwner, byte, needed, absent⟩ := lacks
  exact ⟨notOwner, byte, among needed, absent⟩

theorem not_infix_of_lacks (lacks : key.Lacks needle) : ¬ needle <:+: key.line report := by
  obtain ⟨notOwner, byte, needed, absent⟩ := lacks
  intro inside
  refine absent ?_
  rcases List.mem_append.mp (inside.subset needed) with front | member
  · exact List.mem_append_left _ front
  · exact List.mem_append_right _ (value_subset notOwner member)

/-- The name of the lock's holder is too short for the needle. -/
theorem not_infix_owner (short : report.ownerBuf.length < needle.length)
    (h : ∀ suffix ∈ (utf8 "mutex_owner: ").tails, suffix ≠ []
      → ¬ suffix <+: needle ∧ ¬ needle <+: suffix)
    : ¬ needle <:+: StatusKey.mutexOwner.line report :=
  not_infix_of_short short h

end StatusKey

/-- `ctx_protected: 1` is found only where the flag is printed as set. -/
theorem protected_of_contains {report : StatusReport} (short : report.ownerBuf.length < 16)
    (h : contains (safetyMemProcShow report) Demo.kProtectionEnabledStatus = true)
    : report.protectedState = true := by
  obtain ⟨key, inside⟩ := (StatusKey.contains_iff (by decide) (by decide)).mp h
  have others : ∀ key ∈ StatusKey.all, key = .ctxProtected ∨ key = .mutexOwner
      ∨ key.Lacks (utf8 "xptd") := by decide
  rcases others key key.mem_all with rfl | rfl | lacks
  · cases flag : report.protectedState with
    | true => rfl
    | false =>
        rw [StatusKey.line, StatusKey.value, flag] at inside
        exact absurd inside (by decide)
  · exact absurd inside (StatusKey.not_infix_owner short (by decide))
  · exact absurd inside (StatusKey.not_infix_of_lacks (lacks.mono (by decide)))

/-- `mapping_writable_vmalloc: 0` is found only where the alias is printed as read-only. -/
theorem readOnly_of_contains {report : StatusReport} (short : report.ownerBuf.length < 16)
    (h : contains (safetyMemProcShow report) Demo.kVmallocReadOnlyStatus = true)
    : report.vmallocMapping.isWritable = false := by
  have shorter : report.ownerBuf.length < Demo.kVmallocReadOnlyStatus.length :=
    Nat.lt_trans short (by decide)
  obtain ⟨key, inside⟩ := (StatusKey.contains_iff (by decide) (by decide)).mp h
  have others : ∀ key ∈ StatusKey.all, key = .writableVmalloc ∨ key = .mutexOwner
      ∨ key.Lacks (utf8 "wv") := by decide
  rcases others key key.mem_all with rfl | rfl | lacks
  · cases flag : report.vmallocMapping.isWritable with
    | false => rfl
    | true =>
        rw [StatusKey.line, StatusKey.value, flag] at inside
        exact absurd inside (by decide)
  · exact absurd inside (StatusKey.not_infix_owner shorter (by decide))
  · exact absurd inside (StatusKey.not_infix_of_lacks (lacks.mono (by decide)))

/-- What the check of Scenario F's setup establishes about the values that were printed. -/
theorem targetMappingIsRo_report {report : StatusReport} (short : report.ownerBuf.length < 16)
    (h : ScenarioF.targetMappingIsRo (.ok (safetyMemProcShow report)) = true)
    : report.protectedState = true ∧ report.vmallocMapping.isWritable = false := by
  obtain ⟨enabled, readOnly⟩ := Bool.and_eq_true_iff.mp h
  simp only [mentions, List.any_cons, List.any_nil, Bool.or_false] at enabled readOnly
  exact ⟨protected_of_contains short enabled, readOnly_of_contains short readOnly⟩

end SafetyIsolation.Status

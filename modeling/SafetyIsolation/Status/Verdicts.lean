import SafetyIsolation.Kernel.Constants
import SafetyIsolation.Modules.Lifecycle
import SafetyIsolation.Status.Searches

/-! What the verdicts of Scenarios B, D and E depend on. The corruption tests search the whole
status text, so a page-table entry or a task name that prints the pattern counts as a corrupted
value.
-/

namespace SafetyIsolation.Status

open SafetyIsolation.Interleaving.Prog
open SafetyIsolation.Kernel SafetyIsolation.Harness SafetyIsolation.Modules SafetyIsolation.Text

-----------------------------------------------------------------------------------------
-- Patterns in the status
-----------------------------------------------------------------------------------------

theorem mark_not_mem_digits (width value : Nat) : 120 ∉ hexFixed upperA width value := by
  intro member
  have digits : ∀ value < 16, hexDigit upperA value ∈ utf8 "0123456789ABCDEF" := by decide
  exact absurd (hexFixed_subset digits width value member) (by decide)

theorem newline_not_mem_upperHex32 (value : UInt32) : newline ∉ upperHex32 value := by
  intro member
  exact absurd (StatusKey.upperHex32_subset value member) (by decide)

theorem value_fits (value : UInt32) : value.toNat < 16 ^ 8 := value.toNat_lt

/-- A number of at least eight digits shows a pattern exactly when its upper eight digits are
those of the pattern.
-/
theorem infix_number_iff {key : Bytes} {value : Nat} (lower : Nat)
    (inKey : 120 ∉ key ++ utf8 ": 0") (fits : value < 16 ^ (8 + lower)) (pattern : UInt32)
    : upperHex32 pattern <:+: statusLine (key, utf8 "0x" ++ hexFixed upperA (8 + lower) value)
      ↔ value / 16 ^ lower = pattern.toNat := by
  have needle : upperHex32 pattern = utf8 "0" ++ 120 :: hexFixed upperA 8 pattern.toNat := rfl
  have separated : utf8 ": 0" = utf8 ": " ++ utf8 "0" := by decide
  have line : statusLine (key, utf8 "0x" ++ hexFixed upperA (8 + lower) value)
      = (key ++ utf8 ": 0") ++ 120 :: hexFixed upperA (8 + lower) value := by
    have zero : utf8 "0x" = utf8 "0" ++ [120] := by decide
    simp only [statusLine, separated, zero, List.append_assoc, List.singleton_append]
  have upperFits : value / 16 ^ lower < 16 ^ 8 := by
    rw [Nat.div_lt_iff_lt_mul (Nat.pow_pos (by decide)), ← Nat.pow_add]
    exact fits
  rw [needle, line, hexFixed_add]
  constructor
  · intro inside
    have starts := prefix_of_separated inKey
      (by rw [← hexFixed_add]; exact mark_not_mem_digits _ _) inside
    have same := (List.prefix_of_prefix_length_le starts (List.prefix_append _ _)
      (by rw [hexFixed_length, hexFixed_length])).eq_of_length
      (by rw [hexFixed_length, hexFixed_length])
    exact ((hexFixed_inj (.inl rfl) (value_fits pattern) upperFits).mp same).symm
  · intro same
    rw [same]
    refine ⟨key ++ utf8 ": ", hexFixed upperA lower value, ?_⟩
    simp only [separated, List.append_assoc, List.cons_append]

theorem infix_value_iff {key : Bytes} (inKey : 120 ∉ key ++ utf8 ": 0") (value pattern : UInt32)
    : upperHex32 pattern <:+: statusLine (key, upperHex32 value) ↔ value = pattern := by
  have number := infix_number_iff 0 inKey (value_fits value) pattern
  rwa [Nat.pow_zero, Nat.div_one, UInt32.toNat_inj] at number

theorem infix_entry_iff {key : Bytes} (inKey : 120 ∉ key ++ utf8 ": 0") (entry : UInt64)
    (pattern : UInt32)
    : upperHex32 pattern <:+: statusLine (key, upperHex64 entry)
      ↔ entry.toNat / 16 ^ 8 = pattern.toNat :=
  infix_number_iff 8 inKey entry.toNat_lt pattern

/-- The name of the lock's holder, or its absence, is printed as it is. -/
theorem infix_owner_iff {report : StatusReport} {byte : UInt8} {rest : Bytes}
    (absent : byte ∉ utf8 "mutex_owner: ")
    : byte :: rest <:+: StatusKey.mutexOwner.line report ↔ byte :: rest <:+: report.ownerBuf :=
  ⟨infix_of_append absent, fun inside => inside.trans (List.suffix_append _ _).isInfix⟩

/-- One of the two values is the pattern. -/
def Reads (report : StatusReport) (pattern : UInt32) : Prop :=
  report.valVmalloc = pattern ∨ report.valPhys = pattern

instance (report : StatusReport) (pattern : UInt32) : Decidable (Reads report pattern) :=
  inferInstanceAs (Decidable (_ ∨ _))

/-- One of the printed page-table entries has the pattern as its upper half. -/
def EntryShows (report : StatusReport) (pattern : UInt32) : Prop :=
  ∃ mapping ∈ [report.initialMapping, report.currentMapping, report.vmallocMapping],
    mapping.entry.toNat / 16 ^ 8 = pattern.toNat

instance (report : StatusReport) (pattern : UInt32) : Decidable (EntryShows report pattern) :=
  inferInstanceAs (Decidable (∃ mapping ∈ [_, _, _], _))

/-- Where a pattern with a `D` is found. -/
theorem contains_pattern_iff {report : StatusReport} {pattern : UInt32}
    (letter : 68 ∈ upperHex32 pattern)
    : contains (safetyMemProcShow report) (upperHex32 pattern) = true
      ↔ Reads report pattern ∨ EntryShows report pattern
        ∨ upperHex32 pattern <:+: report.ownerBuf := by
  have start : upperHex32 pattern = 48 :: 120 :: hexFixed upperA 8 pattern.toNat := rfl
  have mark : 120 ∈ upperHex32 pattern := start ▸ List.mem_cons_of_mem _ List.mem_cons_self
  have nonempty : upperHex32 pattern ≠ [] := start ▸ List.cons_ne_nil _ _
  have owner : upperHex32 pattern <:+: StatusKey.mutexOwner.line report
      ↔ upperHex32 pattern <:+: report.ownerBuf := by
    rw [start]
    exact infix_owner_iff (by decide)
  have others : ∀ key ∈ StatusKey.all, key = .entryBefore ∨ key = .entryCurrent
      ∨ key = .entryVmalloc ∨ key = .valVmalloc ∨ key = .valPhys ∨ key = .mutexOwner
      ∨ key.Lacks [68, 120] := by decide
  rw [StatusKey.contains_iff nonempty (newline_not_mem_upperHex32 pattern)]
  constructor
  · intro answered
    obtain ⟨key, inside⟩ := answered
    rcases others key key.mem_all with rfl | rfl | rfl | rfl | rfl | rfl | lacks
    · exact .inr (.inl ⟨_, by simp, (infix_entry_iff (by decide) _ _).mp inside⟩)
    · exact .inr (.inl ⟨_, by simp, (infix_entry_iff (by decide) _ _).mp inside⟩)
    · exact .inr (.inl ⟨_, by simp, (infix_entry_iff (by decide) _ _).mp inside⟩)
    · exact .inl (.inl ((infix_value_iff (by decide) _ _).mp inside))
    · exact .inl (.inr ((infix_value_iff (by decide) _ _).mp inside))
    · exact .inr (.inr (owner.mp inside))
    · refine absurd inside (StatusKey.not_infix_of_lacks (lacks.mono ?_))
      exact List.cons_subset.mpr ⟨letter, List.cons_subset.mpr ⟨mark, List.nil_subset _⟩⟩
  · intro shown
    rcases shown with (same | same) | ⟨mapping, isMapping, same⟩ | inside
    · exact ⟨.valVmalloc, (infix_value_iff (by decide) _ _).mpr same⟩
    · exact ⟨.valPhys, (infix_value_iff (by decide) _ _).mpr same⟩
    · simp only [List.mem_cons, List.not_mem_nil, or_false] at isMapping
      rcases isMapping with rfl | rfl | rfl
      · exact ⟨.entryBefore, (infix_entry_iff (by decide) _ _).mpr same⟩
      · exact ⟨.entryCurrent, (infix_entry_iff (by decide) _ _).mpr same⟩
      · exact ⟨.entryVmalloc, (infix_entry_iff (by decide) _ _).mpr same⟩
    · exact ⟨.mutexOwner, owner.mpr inside⟩

/-- The kernel never prints `CORRUPTED` itself. -/
theorem contains_corrupted_iff {report : StatusReport}
    : contains (safetyMemProcShow report) (utf8 "CORRUPTED") = true
      ↔ utf8 "CORRUPTED" <:+: report.ownerBuf := by
  have others : ∀ key ∈ StatusKey.all, key = .mutexOwner ∨ key = .status
      ∨ key.Lacks (utf8 "R") := by decide
  rw [StatusKey.contains_iff (by decide) (by decide)]
  constructor
  · intro answered
    obtain ⟨key, inside⟩ := answered
    rcases others key key.mem_all with rfl | rfl | lacks
    · exact (infix_owner_iff (by decide)).mp inside
    · -- `UNPROTECTED_RW` has every letter of the needle, in another order.
      rw [StatusKey.line, StatusKey.value] at inside
      cases flag : report.protectedState with
      | false =>
          rw [flag] at inside
          exact absurd inside (by decide)
      | true =>
          rw [flag] at inside
          exact absurd inside (by decide)
    · exact absurd inside (StatusKey.not_infix_of_lacks (lacks.mono (by decide)))
  · intro inside
    exact ⟨.mutexOwner, (infix_owner_iff (by decide)).mpr inside⟩

/-- The search for the intact value goes by the name of its line. -/
theorem contains_intact_iff {report : StatusReport} (short : report.ownerBuf.length < 16)
    (value : UInt32)
    : contains (safetyMemProcShow report) (utf8 "value_via_phys: " ++ upperHex32 value) = true
      ↔ report.valPhys = value := by
  have oneLine : newline ∉ utf8 "value_via_phys: " ++ upperHex32 value := by
    rw [List.mem_append, not_or]
    exact ⟨by decide, newline_not_mem_upperHex32 value⟩
  have others : ∀ key ∈ StatusKey.all, key = .valPhys ∨ key = .mutexOwner
      ∨ key.Lacks (utf8 "hv") := by decide
  rw [StatusKey.contains_iff (List.append_ne_nil_of_left_ne_nil (by decide) _) oneLine]
  constructor
  · intro answered
    obtain ⟨key, inside⟩ := answered
    rcases others key key.mem_all with rfl | rfl | lacks
    · exact (infix_value_iff (by decide) _ _).mp
        ((List.suffix_append _ _).isInfix.trans inside)
    · exact absurd ((List.prefix_append _ _).isInfix.trans inside)
        (StatusKey.not_infix_owner short (by decide))
    · have among : utf8 "hv" ⊆ utf8 "value_via_phys: " := by decide
      exact absurd inside (StatusKey.not_infix_of_lacks
        (lacks.mono (List.Subset.trans among (List.subset_append_left _ _))))
  · rintro rfl
    exact ⟨.valPhys, List.infix_rfl⟩

-----------------------------------------------------------------------------------------
-- Verdicts
-----------------------------------------------------------------------------------------

/-- In every environment in which the status and the log of the SMMU are read as given, the
scenario ends with this verdict, unless a module could not be loaded.
-/
def Verdict (run : LoaderId → Code ScenarioResult) (status log : ReadOutcome)
    (verdict : ScenarioStatus)
    : Prop :=
  ∀ (inputs : Inputs) (needs : String → List String) (id : LoaderId) (heap : Heap) (s : Sys),
    inputs.read (.action 0) Demo.safetyMemStatus = status
    → inputs.read (.action 0) Demo.smmuGuardLog = log
    → Ensures (inputs.exec needs) (fun _ => True) (run id)
        (fun result _ _ => result.status = .error ∨ result.status = verdict) heap s

variable {run : LoaderId → Code ScenarioResult} {status log : ReadOutcome} {inputs : Inputs}
  {needs : String → List String} {id : LoaderId} {heap : Heap} {s : Sys}

/-- There is such an environment in which the modules can be loaded. -/
def Concludes (run : LoaderId → Code ScenarioResult) (status log : ReadOutcome) : Prop :=
  ∃ (inputs : Inputs) (needs : String → List String) (id : LoaderId) (heap : Heap) (s : Sys),
    inputs.read (.action 0) Demo.safetyMemStatus = status
    ∧ inputs.read (.action 0) Demo.smmuGuardLog = log
    ∧ Ensures (inputs.exec needs) (fun _ => True) (run id)
        (fun result _ _ => result.status ≠ .error) heap s

/-- A verdict that is reached is the only one. -/
theorem verdict_iff {actual : ScenarioStatus} (judged : Verdict run status log actual)
    (concludes : Concludes run status log) (verdict : ScenarioStatus)
    : Verdict run status log verdict ↔ verdict = actual := by
  constructor
  · intro other
    obtain ⟨inputs, needs, id, heap, s, isStatus, isLog, ends⟩ := concludes
    obtain ⟨result, heap', s', ran, proper⟩ :=
      ends.run (List.forall_mem_nil _) trivial
    obtain ⟨first, _, _, ran', isActual⟩ :=
      (judged inputs needs id heap s isStatus isLog).run (List.forall_mem_nil _) trivial
    obtain ⟨second, _, _, ran'', isVerdict⟩ :=
      (other inputs needs id heap s isStatus isLog).run (List.forall_mem_nil _) trivial
    cases ran.symm.trans ran'
    cases ran.symm.trans ran''
    exact (isVerdict.resolve_left proper).symm.trans (isActual.resolve_left proper)
  · intro same
    rw [same]
    exact judged

theorem completes_given {α : Type} (code : Code α)
    : Ensures (inputs.exec needs) (fun _ => True) code (fun _ _ _ => True) heap s :=
  Always.completes (fun choice op s => exec_total (inputs.fix choice op) op s) s

theorem readProc_given {point : ReadPoint} {path : Path} {outcome : ReadOutcome}
    (isRead : inputs.read point path = outcome)
    : Ensures (inputs.exec needs) (fun _ => True) (readProc point path)
        (fun content _ _ => content = outcome.result path) heap s := by
  simp only [readProc, ensures_bind, sys, ensures_perform, ensures_pure]
  intro choice _
  exact ⟨_, _, exec_readProc_given choice point path, by rw [isRead]⟩

/-- The verdict that follows from a test. -/
def judged (test : Bool) : ScenarioStatus := if test then .passed else .failed

theorem judged_ne_error (test : Bool) : judged test ≠ .error := by
  cases test <;> decide

theorem judged_passed_iff {test : Bool} : .passed = judged test ↔ test = true := by
  cases test <;> decide

/-- A scenario that ends with a test. -/
theorem judged_given {test : Bool} {passed failed : ScenarioResult}
    (isPassed : passed.status = .passed) (isFailed : failed.status = .failed)
    : Ensures (inputs.exec needs) (fun _ => True)
        (if test then pure passed else pure failed : Code ScenarioResult)
        (fun result _ _ => result.status = judged test) heap s := by
  cases test with
  | false => exact isFailed
  | true => exact isPassed

theorem scenarioB_given {text : Bytes}
    (isStatus : inputs.read (.action 0) Demo.safetyMemStatus = .content text)
    : Ensures (inputs.exec needs) (fun _ => True) (ScenarioB.run id)
        (fun result _ _ => result.status = .error ∨ result.status
          = judged (mentions (.ok text) [Demo.kCorruptSentinelStatus, utf8 "CORRUPTED"]))
        heap s := by
  refine ensures_bind.mpr ((completes_given _).imp fun out heap s _ => ?_)
  cases out with
  | error message => exact .inl rfl
  | ok done =>
      refine ensures_bind.mpr ((readProc_given isStatus).imp fun content heap s isContent => ?_)
      rw [isContent]
      refine ensures_bind.mpr ((completes_given _).imp fun latency heap s _ => ?_)
      exact (judged_given rfl rfl).imp (fun _ _ _ => .inr)

theorem scenarioD_given {text : Bytes}
    (isStatus : inputs.read (.action 0) Demo.safetyMemStatus = .content text)
    : Ensures (inputs.exec needs) (fun _ => True) (ScenarioD.run id)
        (fun result _ _ => result.status
          = judged (mentions (.ok text) [Demo.kLinearBypassStatus, utf8 "CORRUPTED"]
            || !mentions (.ok text) [utf8 "value_via_phys: " ++ Demo.kSafetySentinelStatus]))
        heap s := by
  refine ensures_bind.mpr ((completes_given _).imp fun _ heap s _ => ?_)
  refine ensures_bind.mpr ((readProc_given isStatus).imp fun content heap s isContent => ?_)
  rw [isContent]
  refine ensures_bind.mpr ((completes_given _).imp fun latency heap s _ => ?_)
  exact judged_given rfl rfl

theorem scenarioE_given {text : Bytes}
    (isStatus : inputs.read (.action 0) Demo.safetyMemStatus = .content text)
    (isLog : inputs.read (.action 0) Demo.smmuGuardLog = log)
    : Ensures (inputs.exec needs) (fun _ => True) (ScenarioE.run id)
        (fun result _ _ => result.status
          = judged (mentions (.ok text) [Demo.kLinearBypassStatus, utf8 "CORRUPTED"]
            && !mentions (log.result Demo.smmuGuardLog) [utf8 "FAULT"]))
        heap s := by
  refine ensures_bind.mpr ((completes_given _).imp fun _ heap s _ => ?_)
  refine ensures_bind.mpr ((readProc_given isStatus).imp fun content heap s isContent => ?_)
  rw [isContent, ReadOutcome.result]
  refine ensures_bind.mpr ((readProc_given isLog).imp fun smmuLog heap s isSmmuLog => ?_)
  rw [isSmmuLog]
  refine ensures_bind.mpr ((completes_given _).imp fun latency heap s _ => ?_)
  dsimp only
  split
  · rename_i found
    rw [found]
    rfl
  · rename_i missing
    rw [Bool.eq_false_of_not_eq_true missing]
    split
    · rfl
    · rfl

/-- An environment in which every module can be loaded. -/
def willing (status log : ReadOutcome) : Inputs where
  found := fun _ => true
  insmodCode := fun _ => 0
  read := fun _ path => if path = Demo.safetyMemStatus then status else log

theorem willing_status (status log : ReadOutcome)
    : (willing status log).read (.action 0) Demo.safetyMemStatus = status := by
  simp only [willing, if_pos]

theorem willing_log (status log : ReadOutcome)
    : (willing status log).read (.action 0) Demo.smmuGuardLog = log := by
  have other : Demo.smmuGuardLog ≠ Demo.safetyMemStatus := by decide
  simp only [willing, if_neg other]

theorem scenarioB_concludes (text : Bytes) (log : ReadOutcome)
    : Concludes ScenarioB.run (.content text) log := by
  refine ⟨willing (.content text) log, fun _ => [], 0, .empty, ⟨0, ∅, []⟩, willing_status _ _,
    willing_log _ _, ?_⟩
  have accepts : (willing (.content text) log).Accepts (fun _ => []) ∅ Demo.rogueThread :=
    ⟨Demo.rogueThread, if_pos rfl, rfl, Finset.notMem_empty _,
      fun _ member => absurd member List.not_mem_nil⟩
  refine ensures_bind.mpr ((load_given List.not_mem_nil).imp fun out heap s loaded => ?_)
  rcases loaded with ⟨_, rfl, _⟩ | ⟨refused, _⟩
  · refine ensures_bind.mpr ((completes_given _).imp fun content heap s _ => ?_)
    refine ensures_bind.mpr ((completes_given _).imp fun latency heap s _ => ?_)
    refine (judged_given rfl rfl).imp (fun result _ _ isJudged => ?_)
    rw [isJudged]
    exact judged_ne_error _
  · exact absurd accepts refused

theorem verdictB_iff (text : Bytes) (log : ReadOutcome) (verdict : ScenarioStatus)
    : Verdict ScenarioB.run (.content text) log verdict
      ↔ verdict
        = judged (mentions (.ok text) [Demo.kCorruptSentinelStatus, utf8 "CORRUPTED"]) :=
  verdict_iff (fun _ _ _ _ _ isStatus _ => scenarioB_given isStatus)
    (scenarioB_concludes text log) verdict

/-- A scenario without modules of its own always reaches its test. -/
theorem verdict_iff_judged {test : Bool}
    (h : ∀ {inputs needs id heap s}, inputs.read (.action 0) Demo.safetyMemStatus = status
      → inputs.read (.action 0) Demo.smmuGuardLog = log
      → Ensures (Inputs.exec inputs needs) (fun _ => True) (run id)
          (fun result _ _ => result.status = judged test) heap s)
    (verdict : ScenarioStatus)
    : Verdict run status log verdict ↔ verdict = judged test := by
  have judges : Verdict run status log (judged test) :=
    fun _ _ _ _ _ isStatus isLog => (h isStatus isLog).imp (fun _ _ _ => .inr)
  have concludes : Concludes run status log := by
    refine ⟨willing status log, fun _ => [], 0, .empty, ⟨0, ∅, []⟩, willing_status _ _,
      willing_log _ _, (h (willing_status _ _) (willing_log _ _)).imp ?_⟩
    intro result _ _ isJudged
    rw [isJudged]
    exact judged_ne_error test
  exact verdict_iff judges concludes verdict

theorem verdictD_iff (text : Bytes) (log : ReadOutcome) (verdict : ScenarioStatus)
    : Verdict ScenarioD.run (.content text) log verdict
      ↔ verdict
        = judged (mentions (.ok text) [Demo.kLinearBypassStatus, utf8 "CORRUPTED"]
          || !mentions (.ok text) [utf8 "value_via_phys: " ++ Demo.kSafetySentinelStatus]) :=
  verdict_iff_judged (fun isStatus _ => scenarioD_given isStatus) verdict

theorem verdictE_iff (text : Bytes) (log : ReadOutcome) (verdict : ScenarioStatus)
    : Verdict ScenarioE.run (.content text) log verdict
      ↔ verdict
        = judged (mentions (.ok text) [Demo.kLinearBypassStatus, utf8 "CORRUPTED"]
          && !mentions (log.result Demo.smmuGuardLog) [utf8 "FAULT"]) :=
  verdict_iff_judged scenarioE_given verdict

-----------------------------------------------------------------------------------------
-- What decides
-----------------------------------------------------------------------------------------

/-- Something other than a value passes for the pattern: a page-table entry with it in its
upper half, or the name of the lock's holder.
-/
def Forges (report : StatusReport) (pattern : UInt32) : Prop :=
  EntryShows report pattern ∨ upperHex32 pattern <:+: report.ownerBuf
    ∨ utf8 "CORRUPTED" <:+: report.ownerBuf

instance (report : StatusReport) (pattern : UInt32) : Decidable (Forges report pattern) :=
  inferInstanceAs (Decidable (_ ∨ _ ∨ _))

theorem corruptSentinel_printed
    : Demo.kCorruptSentinelStatus = upperHex32 corruptSentinel := by decide

theorem linearAlias_printed
    : Demo.kLinearBypassStatus = upperHex32 badDriverLinearAliasValue := by decide

theorem mentions_pattern_iff {report : StatusReport} {pattern : UInt32}
    (letter : 68 ∈ upperHex32 pattern)
    : mentions (.ok (safetyMemProcShow report)) [upperHex32 pattern, utf8 "CORRUPTED"] = true
      ↔ Reads report pattern ∨ Forges report pattern := by
  simp only [mentions, List.any_cons, List.any_nil, Bool.or_false, Bool.or_eq_true,
    contains_pattern_iff letter, contains_corrupted_iff, Forges, or_assoc]

/-- The verdicts on two states are the same, and B and, on a silent log, E pass exactly if one
of the values is the one they look for.
-/
structure ValuesDecide (first second : StatusReport) : Prop where
  same : ∀ run ∈ [ScenarioB.run, ScenarioD.run, ScenarioE.run], ∀ log verdict,
    Verdict run (.content (safetyMemProcShow first)) log verdict
      ↔ Verdict run (.content (safetyMemProcShow second)) log verdict
  rogueWrite : ∀ log, Verdict ScenarioB.run (.content (safetyMemProcShow first)) log .passed
    ↔ Reads first corruptSentinel
  linearBypass : ∀ log : ReadOutcome,
    mentions (log.result Demo.smmuGuardLog) [utf8 "FAULT"] = false
    → (Verdict ScenarioE.run (.content (safetyMemProcShow first)) log .passed
      ↔ Reads first badDriverLinearAliasValue)

theorem passedB_iff (report : StatusReport) (log : ReadOutcome)
    : Verdict ScenarioB.run (.content (safetyMemProcShow report)) log .passed
      ↔ Reads report corruptSentinel ∨ Forges report corruptSentinel := by
  rw [verdictB_iff, judged_passed_iff, corruptSentinel_printed, mentions_pattern_iff (by decide)]

theorem passedE_iff (report : StatusReport) {log : ReadOutcome}
    (silent : mentions (log.result Demo.smmuGuardLog) [utf8 "FAULT"] = false)
    : Verdict ScenarioE.run (.content (safetyMemProcShow report)) log .passed
      ↔ Reads report badDriverLinearAliasValue ∨ Forges report badDriverLinearAliasValue := by
  rw [verdictE_iff, judged_passed_iff, linearAlias_printed, silent, Bool.not_false, Bool.and_true,
    mentions_pattern_iff (by decide)]

/-- Where nothing passes for the pattern, a test on it answers what the values say. -/
theorem mentions_values {report : StatusReport} {pattern : UInt32}
    (letter : 68 ∈ upperHex32 pattern) (genuine : Reads report pattern ∨ ¬ Forges report pattern)
    : mentions (.ok (safetyMemProcShow report)) [upperHex32 pattern, utf8 "CORRUPTED"]
      = decide (Reads report pattern) := by
  rw [Bool.eq_iff_iff, mentions_pattern_iff letter, decide_eq_true_iff]
  exact ⟨fun found => genuine.elim id (fun clean => found.resolve_right clean), .inl⟩

/-- The test of D for the intact value depends on that value only. -/
theorem mentions_intact_eq {first second : StatusReport} (fits : first.ownerBuf.length < 16)
    (fits' : second.ownerBuf.length < 16) (samePhys : first.valPhys = second.valPhys)
    : mentions (.ok (safetyMemProcShow first))
        [utf8 "value_via_phys: " ++ Demo.kSafetySentinelStatus]
      = mentions (.ok (safetyMemProcShow second))
        [utf8 "value_via_phys: " ++ Demo.kSafetySentinelStatus] := by
  have printed : Demo.kSafetySentinelStatus = upperHex32 safetySentinel := by decide
  simp only [mentions, List.any_cons, List.any_nil, Bool.or_false, printed]
  rw [Bool.eq_iff_iff, contains_intact_iff fits, contains_intact_iff fits', samePhys]

/-- The test for a genuine pattern answers the same in two states with the same values. -/
theorem mentions_pattern_eq {first second : StatusReport} {pattern : UInt32}
    (letter : 68 ∈ upperHex32 pattern) (sameReads : Reads second pattern ↔ Reads first pattern)
    (genuine : Reads first pattern ∨ ¬ Forges first pattern ∧ ¬ Forges second pattern)
    : mentions (.ok (safetyMemProcShow first)) [upperHex32 pattern, utf8 "CORRUPTED"]
      = mentions (.ok (safetyMemProcShow second)) [upperHex32 pattern, utf8 "CORRUPTED"] := by
  rw [mentions_values letter (genuine.imp_right And.left),
    mentions_values letter (genuine.imp sameReads.mpr And.right),
    decide_eq_decide.mpr sameReads]

/-- What passes for a pattern in either state makes a scenario pass on it, and on the first state
by the equal verdicts, so the pattern is one of the values.
-/
theorem ValuesDecide.reads_of_forges {first second : StatusReport}
    (decided : ValuesDecide first second) {pattern : UInt32}
    (isPattern : pattern ∈ [corruptSentinel, badDriverLinearAliasValue])
    (shown : Forges first pattern ∨ Forges second pattern)
    : Reads first pattern := by
  rcases List.mem_cons.mp isPattern with rfl | isPattern
  · refine (decided.rogueWrite .missing).mp ?_
    rcases shown with forged | forged
    · exact (passedB_iff _ _).mpr (.inr forged)
    · exact (decided.same _ (by simp) _ _).mpr ((passedB_iff _ _).mpr (.inr forged))
  · cases List.mem_singleton.mp isPattern
    refine (decided.linearBypass .missing rfl).mp ?_
    rcases shown with forged | forged
    · exact (passedE_iff _ rfl).mpr (.inr forged)
    · exact (decided.same _ (by simp) _ _).mpr ((passedE_iff _ rfl).mpr (.inr forged))

/-- For two states with the same values, the verdicts depend on the values only exactly if each
pattern is one of the values or nothing else passes for it in either state.
-/
theorem values_decide_iff {first second : StatusReport} (fits : first.ownerBuf.length < 16)
    (fits' : second.ownerBuf.length < 16) (sameVmalloc : first.valVmalloc = second.valVmalloc)
    (samePhys : first.valPhys = second.valPhys)
    : ValuesDecide first second
      ↔ ∀ pattern ∈ [corruptSentinel, badDriverLinearAliasValue],
          Reads first pattern ∨ ¬ Forges first pattern ∧ ¬ Forges second pattern := by
  have sameReads (pattern : UInt32) : Reads second pattern ↔ Reads first pattern := by
    rw [Reads, Reads, sameVmalloc, samePhys]
  constructor
  · intro decided pattern isPattern
    by_cases read : Reads first pattern
    · exact .inl read
    · exact .inr ⟨fun forged => read (decided.reads_of_forges isPattern (.inl forged)),
        fun forged => read (decided.reads_of_forges isPattern (.inr forged))⟩
  · intro clean
    have write := clean corruptSentinel (by decide)
    have bypass := clean badDriverLinearAliasValue (by decide)
    have rogueWrite := mentions_pattern_eq (by decide) (sameReads corruptSentinel) write
    have linearBypass :=
      mentions_pattern_eq (by decide) (sameReads badDriverLinearAliasValue) bypass
    have intact := mentions_intact_eq fits fits' samePhys
    refine ⟨fun run isRun log verdict => ?_, fun log => ?_, fun log silent => ?_⟩
    · simp only [List.mem_cons, List.not_mem_nil, or_false] at isRun
      rcases isRun with rfl | rfl | rfl
      · rw [verdictB_iff, verdictB_iff, corruptSentinel_printed, rogueWrite]
      · rw [verdictD_iff, verdictD_iff, linearAlias_printed, linearBypass, intact]
      · rw [verdictE_iff, verdictE_iff, linearAlias_printed, linearBypass]
    · rw [passedB_iff]
      exact or_iff_left_of_imp (fun forged => write.resolve_right (fun none => none.1 forged))
    · rw [passedE_iff first silent]
      exact or_iff_left_of_imp (fun forged => bypass.resolve_right (fun none => none.1 forged))

/-- A page that nobody has written to, with its lock held under this name. -/
def untouched (ownerBuf : Bytes) : StatusReport where
  virtAddr := 0xFFFF000010000000
  physAddr := 0x50000000
  initialMapping := ⟨false, 0x0068000050000F03, true⟩
  currentMapping := ⟨false, 0x0068000050000F83, false⟩
  currentIsValid := true
  vmallocMapping := ⟨false, 0x0068000050000F83, false⟩
  valVmalloc := safetySentinel
  valPhys := safetySentinel
  protectedState := true
  smmuState := false
  ownerBuf

theorem values_decide_untouched
    : ValuesDecide (untouched (utf8 "none")) (untouched (utf8 "bash")) := by
  have exactly := @values_decide_iff (untouched (utf8 "none")) (untouched (utf8 "bash")) (by decide)
    (by decide) rfl rfl
  refine exactly.mpr (List.forall_mem_cons.mpr ⟨.inr ?_, List.forall_mem_singleton.mpr (.inr ?_)⟩)
  · exact ⟨by decide, by decide⟩
  · exact ⟨by decide, by decide⟩

/-- Under a task that calls itself `CORRUPTED`, B passes on an untouched page. -/
theorem owner_forges_verdict
    : ¬ ∀ first second : StatusReport, first.ownerBuf.length < 16 → second.ownerBuf.length < 16
        → first.valVmalloc = second.valVmalloc → first.valPhys = second.valPhys
        → ValuesDecide first second := by
  intro decided
  have forged : Verdict ScenarioB.run
      (.content (safetyMemProcShow (untouched (utf8 "CORRUPTED")))) .missing .passed :=
    (passedB_iff _ _).mpr (.inr (by decide))
  have genuine := decided (untouched (utf8 "CORRUPTED")) (untouched (utf8 "none")) (by decide)
    (by decide) rfl rfl
  have elsewhere := (passedB_iff _ _).mp ((genuine.same _ (by simp) _ _).mp forged)
  exact absurd elsewhere (by decide)

end SafetyIsolation.Status

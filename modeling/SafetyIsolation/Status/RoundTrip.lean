import SafetyIsolation.Status.Syncing

/-! A status text reaches the comparison on the dashboard with the kernel's own values. -/

namespace SafetyIsolation.Status

open SafetyIsolation.Text SafetyIsolation.Kernel SafetyIsolation.Monitor
open SafetyIsolation.Harness SafetyIsolation.Harness.ScenarioRunner

/-- A snapshot has the values, flags and status of the live part of a display. -/
structure Agrees (snapshot : ComparisonSnapshot) (display : DisplayState) : Prop where
  valVmalloc : snapshot.valVmalloc = display.valVmalloc
  valPhys : snapshot.valPhys = display.valPhys
  ctxProtected : snapshot.ctxProtected = display.ctxProtected
  smmuActive : snapshot.smmuActive = display.smmuActive
  status : snapshot.status = display.statusStr

/-- Without a newline in the name, a snapshot read from the text is the kernel's own. -/
theorem snapshotLines_eq {report : StatusReport} (snapshot : ComparisonSnapshot)
    (oneLine : newline ∉ report.ownerBuf)
    : (lines (safetyMemProcShow report)).foldl snapshotLine snapshot = snapshotOf report := by
  refine SnapshotField.get_ext (fun field => ?_)
  rw [get_snapshotLines, forgedLines_eq_nil oneLine, List.flatMap_nil, lastWrite_nil,
    Option.getD_none]
  by_cases isStatus : field = .status
  · rw [if_pos isStatus, isStatus]
    rfl
  · rw [if_neg isStatus]

theorem get_pollStatus_eq {report : StatusReport} (display : DisplayState)
    (oneLine : newline ∉ report.ownerBuf) (field : PollField)
    : field.get (pollStatus (safetyMemProcShow report) display) = ownValue report field := by
  rw [get_pollStatus, forgedLines_eq_nil oneLine, List.flatMap_nil, lastWrite_nil,
    Option.getD_none]
  by_cases isStatus : field = .statusStr
  · rw [if_pos isStatus, isStatus]
    rfl
  · rw [if_neg isStatus]

/-- Both decoders find the same values, flags and status in a text. -/
theorem snapshotOf_agrees {report : StatusReport} (display : DisplayState)
    (oneLine : newline ∉ report.ownerBuf)
    : Agrees (snapshotOf report) (pollStatus (safetyMemProcShow report) display) := by
  have decoded := get_pollStatus_eq display oneLine
  exact {
    valVmalloc := (Value.word.inj (decoded .valVmalloc)).symm
    valPhys := (Value.word.inj (decoded .valPhys)).symm
    ctxProtected := (Value.flag.inj (decoded .ctxProtected)).symm
    smmuActive := (Value.flag.inj (decoded .smmuActive)).symm
    status := (Value.text.inj (decoded .statusStr)).symm
  }

/-- `publish_state` with the phase `AFTER`, followed by `sync_scenario_state`. -/
def publishAfter (id title beforeSnapshot afterSnapshot : Bytes) (display : DisplayState)
    : DisplayState :=
  syncScenarioState (stateFile id title .after beforeSnapshot afterSnapshot) display

/-- The two snapshots are those of the two status texts, whatever the display showed before,
and agree with what `mem_poller` reads from the texts themselves.
-/
theorem publishAfter_snapshots {b a : StatusReport} {id title : Bytes}
    (display live : DisplayState) (idLine : newline ∉ id) (titleLine : newline ∉ title)
    (beforeOwner : newline ∉ b.ownerBuf) (afterOwner : newline ∉ a.ownerBuf)
    : let shown := publishAfter id title (safetyMemProcShow b) (safetyMemProcShow a) display
      shown.before = snapshotOf b
      ∧ shown.after = snapshotOf a
      ∧ Agrees shown.before (pollStatus (safetyMemProcShow b) live)
      ∧ Agrees shown.after (pollStatus (safetyMemProcShow a) live) := by
  intro shown
  have notSetup : Phase.after.text ≠ utf8 "SETUP" := by decide
  have synced := syncScenarioState_stateFile .after (safetyMemProcShow b)
    (safetyMemProcShow a) display idLine titleLine
  rw [snapshotLines_eq _ beforeOwner, snapshotLines_eq _ afterOwner] at synced
  have before : shown.before = snapshotOf b :=
    (congrArg DisplayState.before synced).trans (syncFinish_before display notSetup)
  have after : shown.after = snapshotOf a :=
    (congrArg DisplayState.after synced).trans (syncFinish_after display notSetup)
  exact ⟨before, after, before ▸ snapshotOf_agrees live beforeOwner,
    after ▸ snapshotOf_agrees live afterOwner⟩

/-- A name with both separators in it changes nothing. -/
theorem publishAfter_separators
    : (publishAfter (utf8 "B") (utf8 "Scenario B")
          (safetyMemProcShow ⟨1, 2, ⟨true, 3, true⟩, ⟨false, 4, false⟩, true,
            ⟨false, 0xFFFFFFFFFFFFFFFF, true⟩, 0xDEADBEEF, 5, false, true, utf8 "a=b: c"⟩)
          (safetyMemProcShow ⟨1, 2, ⟨true, 3, true⟩, ⟨false, 4, false⟩, true,
            ⟨true, 6, false⟩, 7, 8, true, false, utf8 "none"⟩) {}).before
      = ⟨0xDEADBEEF, 5, 0xFFFFFFFFFFFFFFFF, true, false, true, utf8 "PTE_PAGE",
          utf8 "UNPROTECTED_RW"⟩ :=
  (publishAfter_snapshots {} {} (by decide) (by decide) (by decide) (by decide)).1

end SafetyIsolation.Status

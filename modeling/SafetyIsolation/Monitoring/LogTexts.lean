import SafetyIsolation.Kernel.LogText
import SafetyIsolation.Monitoring.Histories
import SafetyIsolation.Status.Keys

/-! What the texts of the two log files tell. Process and device names are printed as they are,
with blanks and newlines, but they are too short to forge or to hide an entry.
-/

namespace SafetyIsolation.Monitoring

open SafetyIsolation.Kernel SafetyIsolation.Text

-----------------------------------------------------------------------------------------
-- Numbers
-----------------------------------------------------------------------------------------

/-- The values of a `long`. -/
def IsLong (value : Int) : Prop := -2 ^ 63 ≤ value ∧ value < 2 ^ 63

theorem longHexText_unique {a b : Int} (longA : IsLong a) (longB : IsLong b)
    (same : longHexText a = longHexText b)
    : a = b := by
  have word := hexText_injective same
  unfold IsLong at longA longB
  omega

theorem lowerHex64_injective : Function.Injective lowerHex64 := by
  intro a b same
  have digits := List.append_cancel_left same
  have small (word : UInt64) : word.toNat < 16 ^ 16 := word.toNat_lt
  exact UInt64.toNat_inj.mp ((hexFixed_inj (.inr rfl) (small a) (small b)).mp digits)

theorem lowerHex64_length (value : UInt64) : (lowerHex64 value).length = 18 := by
  rw [lowerHex64, List.length_append, hexFixed_length]
  rfl

-----------------------------------------------------------------------------------------
-- Lines
-----------------------------------------------------------------------------------------

theorem long_splits {a b : Int} {s t : Bytes} (longA : IsLong a) (longB : IsLong b)
    (endsA : EndsRun isHex s) (endsB : EndsRun isHex t)
    (same : longHexText a ++ s = longHexText b ++ t)
    : a = b ∧ s = t := by
  obtain ⟨words, rest⟩ := hex_splits _ _ _ _ endsA endsB same
  exact ⟨longHexText_unique longA longB (congrArg hexText words), rest⟩

theorem address_splits : Splits lowerHex64 (fun _ => True) :=
  .of_length lowerHex64_length lowerHex64_injective

/-- What follows the name of a task: its mark does not come again within the length of a name. -/
theorem marked_after_comm (errCode trapNr : Int) (rest : Bytes)
    : Marked [32, 101] 15 (utf8 " err=0x" ++ (longHexText errCode ++ (utf8 " trap="
        ++ (signedText trapNr ++ (utf8 "\n" ++ rest))))) := by
  have shape : utf8 " err=0x" ++ (longHexText errCode ++ (utf8 " trap="
      ++ (signedText trapNr ++ (utf8 "\n" ++ rest))))
      = 32 :: (101 :: (utf8 "rr=0x" ++ longHexText errCode)
        ++ 32 :: (116 :: (utf8 "rap=" ++ (signedText trapNr ++ utf8 "\n")) ++ rest)) := by
    rw [show utf8 " err=0x" = 32 :: 101 :: utf8 "rr=0x" by decide,
      show utf8 " trap=" = 32 :: 116 :: utf8 "rap=" by decide]
    simp only [List.cons_append, List.append_assoc]
  rw [shape]
  refine marked_of_words (by decide) ?_ ?_ ?_
  · intro member
    rcases List.mem_append.mp (show 32 ∈ utf8 "err=0x" ++ longHexText errCode from member) with
      name | digits
    · exact absurd name (by decide)
    · exact hexText_no_blank _ digits
  · intro member
    rcases List.mem_append.mp
      (show 32 ∈ utf8 "trap=" ++ (signedText trapNr ++ utf8 "\n") from member) with name | digits
    · exact absurd name (by decide)
    · rcases List.mem_append.mp digits with digits | newline
      · exact signedText_no_blank _ digits
      · exact absurd newline (by decide)
  · have hexLong := List.length_pos_of_ne_nil
      (show longHexText errCode ≠ [] from hexText_ne_nil _)
    have signedLong := List.length_pos_of_ne_nil (signedText_ne_nil trapNr)
    simp only [List.length_append, show (utf8 "rr=0x").length = 5 by decide,
      show (utf8 "rap=").length = 4 by decide, show (utf8 "\n").length = 1 by decide]
    omega

/-- A line of the fault log tells its entry. -/
theorem faultLine_unique {a b : FaultLogEntry} {s t : Bytes} (longA : IsLong a.errCode)
    (longB : IsLong b.errCode) (shortA : a.comm.1.length ≤ 15) (shortB : b.comm.1.length ≤ 15)
    (same : a.line ++ s = b.line ++ t)
    : a = b ∧ s = t := by
  simp only [FaultLogEntry.line, List.append_assoc] at same
  obtain ⟨timestamps, same⟩ := decimal_splits _ _ _ _
    (endsRun_of_head 46 _ (by decide) (by decide)) (endsRun_of_head 46 _ (by decide) (by decide))
    (List.append_cancel_left same)
  obtain ⟨pcs, same⟩ := address_splits _ _ _ _ trivial trivial (List.append_cancel_left same)
  obtain ⟨addrs, same⟩ := address_splits _ _ _ _ trivial trivial (List.append_cancel_left same)
  obtain ⟨pids, same⟩ := signed_splits _ _ _ _
    (endsRun_of_head 32 _ (by decide) (by decide)) (endsRun_of_head 32 _ (by decide) (by decide))
    (List.append_cancel_left same)
  obtain ⟨comms, same⟩ := free_unique shortA shortB (marked_after_comm _ _ _)
    (marked_after_comm _ _ _) (List.append_cancel_left same)
  obtain ⟨errCodes, same⟩ := long_splits longA longB
    (endsRun_of_head 32 _ (by decide) (by decide)) (endsRun_of_head 32 _ (by decide) (by decide))
    (List.append_cancel_left same)
  obtain ⟨trapNrs, same⟩ := signed_splits _ _ _ _
    (endsRun_of_head 10 _ (by decide) (by decide)) (endsRun_of_head 10 _ (by decide) (by decide))
    (List.append_cancel_left same)
  refine ⟨?_, List.append_cancel_left same⟩
  cases a
  cases b
  obtain rfl := UInt64.toNat_inj.mp timestamps
  obtain rfl : _ = _ := Subtype.ext comms
  subst pcs addrs pids errCodes trapNrs
  rfl

/-- What follows the name of a device: its mark does not come again within the length of a name. -/
theorem marked_after_devName (streamId : Nat) (phys : UInt64) (rest : Bytes)
    : Marked [32, 115] 31 (utf8 " stream_id=0x" ++ (hexText streamId ++ (utf8 " phys=0x"
        ++ (lowerHex64 phys ++ rest)))) := by
  have shape : utf8 " stream_id=0x" ++ (hexText streamId ++ (utf8 " phys=0x"
      ++ (lowerHex64 phys ++ rest)))
      = 32 :: (115 :: (utf8 "tream_id=0x" ++ hexText streamId)
        ++ 32 :: (112 :: (utf8 "hys=0x" ++ lowerHex64 phys) ++ rest)) := by
    rw [show utf8 " stream_id=0x" = 32 :: 115 :: utf8 "tream_id=0x" by decide,
      show utf8 " phys=0x" = 32 :: 112 :: utf8 "hys=0x" by decide]
    simp only [List.cons_append, List.append_assoc]
  rw [shape]
  refine marked_of_words (by decide) ?_ ?_ ?_
  · intro member
    rcases List.mem_append.mp (show 32 ∈ utf8 "stream_id=0x" ++ hexText streamId from member) with
      name | digits
    · exact absurd name (by decide)
    · exact hexText_no_blank _ digits
  · intro member
    rcases List.mem_append.mp (show 32 ∈ utf8 "phys=0x" ++ lowerHex64 phys from member) with
      name | digits
    · exact absurd name (by decide)
    · exact absurd (Status.StatusKey.lowerHex64_subset _ digits) (by decide)
  · have hexLong := List.length_pos_of_ne_nil (hexText_ne_nil streamId)
    have width : (lowerHex64 phys).length = 18 := lowerHex64_length phys
    simp only [List.length_append, show (utf8 "tream_id=0x").length = 11 by decide,
      show (utf8 "hys=0x").length = 6 by decide]
    omega

/-- A line of the guard's log tells its entry. -/
theorem smmuLine_unique {a b : SmmuFaultEntry} {s t : Bytes} (shortA : a.devName.1.length ≤ 31)
    (shortB : b.devName.1.length ≤ 31) (actions : a.action = b.action)
    (same : a.line ++ s = b.line ++ t)
    : a = b ∧ s = t := by
  simp only [SmmuFaultEntry.line, List.append_assoc] at same
  obtain ⟨timestamps, same⟩ := decimal_splits _ _ _ _
    (endsRun_of_head 46 _ (by decide) (by decide)) (endsRun_of_head 46 _ (by decide) (by decide))
    (List.append_cancel_left same)
  obtain ⟨devNames, same⟩ := free_unique shortA shortB (marked_after_devName _ _ _)
    (marked_after_devName _ _ _) (List.append_cancel_left same)
  obtain ⟨streamIds, same⟩ := hex_splits _ _ _ _
    (endsRun_of_head 32 _ (by decide) (by decide)) (endsRun_of_head 32 _ (by decide) (by decide))
    (List.append_cancel_left same)
  obtain ⟨physAddrs, same⟩ := address_splits _ _ _ _ trivial trivial (List.append_cancel_left same)
  obtain ⟨sizes, same⟩ := decimal_splits _ _ _ _
    (endsRun_of_head 32 _ (by decide) (by decide)) (endsRun_of_head 32 _ (by decide) (by decide))
    (List.append_cancel_left same)
  rw [actions] at same
  refine ⟨?_, List.append_cancel_left (List.append_cancel_left (List.append_cancel_left same))⟩
  cases a
  cases b
  obtain rfl := UInt64.toNat_inj.mp timestamps
  obtain rfl := UInt64.toNat_inj.mp sizes
  obtain rfl := UInt32.toNat_inj.mp streamIds
  obtain rfl : _ = _ := Subtype.ext devNames
  subst physAddrs actions
  rfl

-----------------------------------------------------------------------------------------
-- Files
-----------------------------------------------------------------------------------------

/-- The entries the monitor's file shows after calls. -/
theorem monitor_shown (calls : List MonitorCall)
    : (calls.foldl MonitorCall.run CtxMonitor.zeroed).procShow true
      = .ok (((calls.filterMap MonitorCall.event).map FaultEvent.entry).rtake demoLogCapacity) :=
  congrArg Except.ok (monitorLog_represents calls).snapshot

/-- The entries the guard's file shows after calls. -/
theorem guard_shown (calls : List GuardCall)
    : (calls.foldl GuardCall.run SmmuGuard.zeroed).procShow true
      = .ok (((calls.map GuardCall.event).map DmaEvent.entry).rtake demoLogCapacity) :=
  congrArg Except.ok (guardLog_represents calls).snapshot

theorem ctxMonitorProcShow_unique {entries entries' : List FaultLogEntry}
    (valid : ∀ entry ∈ entries, IsLong entry.errCode ∧ entry.comm.1.length ≤ 15)
    (valid' : ∀ entry ∈ entries', IsLong entry.errCode ∧ entry.comm.1.length ≤ 15)
    (same : ctxMonitorProcShow entries = ctxMonitorProcShow entries')
    : entries = entries' := by
  refine flatMap_unique ?_ ?_ valid valid' same
  · intro a b s t validA validB joined
    exact faultLine_unique validA.1 validB.1 validA.2 validB.2 joined
  · intro entry empty
    exact absurd (List.append_eq_nil_iff.mp empty).2 (by decide)

theorem smmuGuardProcShow_unique {action : CString} {entries entries' : List SmmuFaultEntry}
    (valid : ∀ entry ∈ entries, entry.action = action ∧ entry.devName.1.length ≤ 31)
    (valid' : ∀ entry ∈ entries', entry.action = action ∧ entry.devName.1.length ≤ 31)
    (same : smmuGuardProcShow entries = smmuGuardProcShow entries')
    : entries = entries' := by
  refine flatMap_unique ?_ ?_ valid valid' same
  · intro a b s t validA validB joined
    exact smmuLine_unique validA.2 validB.2 (validA.1.trans validB.1.symm) joined
  · intro entry empty
    exact absurd (List.append_eq_nil_iff.mp empty).2 (by decide)

/-- The entries recorded of fault events print well: names fit their field. -/
theorem faultEntries_valid {calls : List MonitorCall}
    (longs : ∀ event ∈ calls.filterMap MonitorCall.event, IsLong event.err)
    : ∀ entry ∈ ((calls.filterMap MonitorCall.event).map FaultEvent.entry).rtake demoLogCapacity,
        IsLong entry.errCode ∧ entry.comm.1.length ≤ 15 := by
  intro entry member
  obtain ⟨event, isEvent, rfl⟩ := List.mem_map.mp (List.mem_of_mem_drop member)
  refine ⟨longs event isEvent, ?_⟩
  rw [event.recorded.comm]
  exact Nat.le_of_lt_succ event.current.comm_fits

theorem dmaEntries_valid (calls : List GuardCall)
    : ∀ entry ∈ ((calls.map GuardCall.event).map DmaEvent.entry).rtake demoLogCapacity,
        entry.action = CString.ofString "BLOCKED" ∧ entry.devName.1.length ≤ 31 := by
  intro entry member
  obtain ⟨event, _, rfl⟩ := List.mem_map.mp (List.mem_of_mem_drop member)
  exact ⟨event.recorded.action, List.length_take_le _ _⟩

/-- The two files tell the last events apart, whatever blanks or line ends the names of tasks and
devices hold: their texts after two series of calls are the same exactly if the series recorded
the same last entries.
-/
theorem log_files_tell_entries {calls calls' : List MonitorCall}
    (guardCalls guardCalls' : List GuardCall)
    (longs : ∀ event ∈ calls.filterMap MonitorCall.event, IsLong event.err)
    (longs' : ∀ event ∈ calls'.filterMap MonitorCall.event, IsLong event.err)
    : (((calls.foldl MonitorCall.run CtxMonitor.zeroed).procShow true).map ctxMonitorProcShow
          = ((calls'.foldl MonitorCall.run CtxMonitor.zeroed).procShow true).map ctxMonitorProcShow
        ↔ ((calls.filterMap MonitorCall.event).map FaultEvent.entry).rtake demoLogCapacity
          = ((calls'.filterMap MonitorCall.event).map FaultEvent.entry).rtake demoLogCapacity)
      ∧ (((guardCalls.foldl GuardCall.run SmmuGuard.zeroed).procShow true).map smmuGuardProcShow
          = ((guardCalls'.foldl GuardCall.run SmmuGuard.zeroed).procShow true).map smmuGuardProcShow
        ↔ ((guardCalls.map GuardCall.event).map DmaEvent.entry).rtake demoLogCapacity
          = ((guardCalls'.map GuardCall.event).map DmaEvent.entry).rtake demoLogCapacity) := by
  rw [monitor_shown, monitor_shown, guard_shown, guard_shown]
  refine ⟨⟨fun same => ?_, fun same => by rw [same]⟩, ⟨fun same => ?_, fun same => by rw [same]⟩⟩
  · exact ctxMonitorProcShow_unique (faultEntries_valid longs) (faultEntries_valid longs')
      (Except.ok.inj same)
  · exact smmuGuardProcShow_unique (dmaEntries_valid guardCalls) (dmaEntries_valid guardCalls')
      (Except.ok.inj same)

/-- A task whose name starts a second line. -/
def forgingTask : Task := ⟨7, CString.ofString "a\n[2.000] FAULT", by decide⟩

def forgingFault (now : UInt64) : FaultEvent := ⟨now, forgingTask, none, 0, 4, 11⟩

/-- One fault of such a task does not pass for two. -/
theorem log_files_tell_entries_forging
    : (([.logFaultEvent (forgingFault 1)].foldl MonitorCall.run CtxMonitor.zeroed).procShow
        true).map ctxMonitorProcShow
      ≠ (([.logFaultEvent (forgingFault 1), .setProtectedRange 0 0,
          .logFaultEvent (forgingFault 2)].foldl MonitorCall.run CtxMonitor.zeroed).procShow
        true).map ctxMonitorProcShow := by
  have one : ∀ event ∈ [MonitorCall.logFaultEvent (forgingFault 1)].filterMap MonitorCall.event,
      IsLong event.err := by
    simp [MonitorCall.event, IsLong, forgingFault]
  have two : ∀ event ∈ [MonitorCall.logFaultEvent (forgingFault 1), .setProtectedRange 0 0,
      .logFaultEvent (forgingFault 2)].filterMap MonitorCall.event, IsLong event.err := by
    simp [MonitorCall.event, IsLong, forgingFault]
  intro same
  exact absurd (congrArg List.length ((log_files_tell_entries [] [] one two).1.mp same))
    (by decide)

end SafetyIsolation.Monitoring

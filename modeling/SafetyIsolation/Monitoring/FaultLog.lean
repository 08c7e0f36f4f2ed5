import Mathlib.Data.List.Induction
import SafetyIsolation.Kernel.Sequential

/-! Which data aborts reach the fault log while protection is enabled.
`safety_mem` hands `ctx_monitor` the range of the direct mapping, and the notifier compares
that range with the program counter of the abort instead of its data address.
-/

namespace SafetyIsolation.Monitoring

open SafetyIsolation.BoundedLog SafetyIsolation.Interleaving SafetyIsolation.Kernel

/-- A trapped data abort: where it was executed and which address it was about. -/
structure DataAbort where
  now : UInt64
  current : Task
  pc : UInt64
  faultAddr : UInt64
  err : Int
  trapnr : Int

/-- The payload of the abort's die notification. -/
def DataAbort.dieArgs (abort : DataAbort) : DieArgs :=
  { regs := some { pc := abort.pc }, err := abort.err, trapnr := abort.trapnr }

/-- What happens to the system, one at a time: a protection change with the outcomes of its
kernel calls, or a data abort.
-/
inductive Incident where
  | setProtection (tid : Nat) (enable : Bool) (choices : List Choice)
  | dataAbort (abort : DataAbort)

def handle (page : SafetyPage) (k : State) : Incident → State
  | .setProtection tid enable choices =>
      match (safetyMemSetProtection page enable).runAlone (exec page tid) choices k with
      | .done _ k' => k'
      | .wait | .fault => k
  | .dataAbort abort =>
      {
        k with
        monitor := (k.monitor.dieNotifierCb abort.now abort.current (some abort.dieArgs)).2
      }

/-- The state after a whole history. -/
def handleAll (page : SafetyPage) (k : State) (incidents : List Incident) : State :=
  incidents.foldl (handle page) k

@[simp] theorem handleAll_push (page : SafetyPage) (k : State) (incidents : List Incident)
    (incident : Incident)
    : handleAll page k (incidents ++ [incident])
      = handle page (handleAll page k incidents) incident := by
  simp [handleAll]

/-- Whether the last protection change of a history asked for protection. -/
def requested (incidents : List Incident) : Bool :=
  incidents.foldl
    (fun on incident =>
      match incident with
      | .setProtection _ enable _ => enable
      | .dataAbort _ => on)
    false

/-- The last protection change asked for protection, or `safety_mem_is_protected` says so. -/
def Enabled (page : SafetyPage) (k : State) (incidents : List Incident) : Prop :=
  requested incidents = true ∨ (handleAll page k incidents).ctxProtected = true

/-- The address lies in the page that starts at `start`. -/
def InPage (start addr : UInt64) : Prop :=
  start.toNat ≤ addr.toNat ∧ addr.toNat < start.toNat + pageSize.toNat

instance (start addr : UInt64) : Decidable (InPage start addr) :=
  inferInstanceAs (Decidable (_ ∧ _))

/-- The address lies in one of the two mappings of the safety page. -/
def InAliases (page : SafetyPage) (addr : UInt64) : Prop :=
  InPage page.virtAddr addr ∨ ∃ start ∈ page.vmallocAddr, InPage start addr

/-- The log grew by this entry. -/
def Appends (before after : CtxMonitor) (entry : FaultLogEntry) : Prop :=
  after.log = before.log.append entry

/-- The abort is in the log exactly if its data address belongs to the safety page, with its
program counter and its data address.
-/
structure Covered (page : SafetyPage) (abort : DataAbort) (before after : CtxMonitor)
    : Prop where
  appends : (∃ entry, Appends before after entry) ↔ InAliases page abort.faultAddr
  fields
    : ∀ entry, Appends before after entry
        → entry.pc = abort.pc ∧ entry.faultAddr = abort.faultAddr

/-- The monitor watches the direct mapping. -/
structure Watching (page : SafetyPage) (monitor : CtxMonitor) : Prop where
  rangeStart : monitor.protectedRangeStart = page.virtAddr
  rangeEnd : monitor.protectedRangeEnd = page.virtAddr + pageSize

/-- The range filter passes exactly the addresses of the direct mapping, since neither end
of the range is the null address that would switch it off.
-/
theorem Watching.filteredOut_iff {page : SafetyPage} {monitor : CtxMonitor}
    (h : Watching page monitor) (addr : UInt64)
    : monitor.filteredOut addr = true ↔ ¬InPage page.virtAddr addr := by
  have belowTop := page.virt_below_top
  have size : pageSize.toNat = 4096 := rfl
  have stop : (page.virtAddr + pageSize).toNat = page.virtAddr.toNat + 4096 := by
    rw [UInt64.toNat_add, size, Nat.mod_eq_of_lt belowTop]
  have stopNonnull : page.virtAddr + pageSize ≠ 0 := by
    intro null
    rw [null] at stop
    simp at stop
  simp only [CtxMonitor.filteredOut, h.rangeStart, h.rangeEnd, page.virt_nonnull, stopNonnull,
    ne_eq, not_false_eq_true, decide_true, Bool.true_and, Bool.or_eq_true, decide_eq_true_eq,
    ge_iff_le, UInt64.lt_iff_toNat_lt, UInt64.le_iff_toNat_le, stop, InPage, size]
  omega

theorem handle_dataAbort_monitor (page : SafetyPage) (k : State) (abort : DataAbort)
    : (handle page k (.dataAbort abort)).monitor
      = if k.monitor.filteredOut abort.pc then k.monitor
        else k.monitor.logFaultEvent abort.now abort.current (some ⟨abort.pc⟩) abort.pc
          abort.err abort.trapnr := by
  by_cases filtered : k.monitor.filteredOut abort.pc = true
  · rw [if_pos filtered]
    exact congrArg Prod.snd (if_pos filtered)
  · rw [if_neg filtered]
    exact congrArg Prod.snd (if_neg filtered)

/-- While the monitor watches the direct mapping, an abort is treated right exactly in these
two cases. The log's head must be a slot for the appended entry to be readable.
-/
theorem Watching.covered_iff {page : SafetyPage} {k : State} (h : Watching page k.monitor)
    (bound : k.monitor.log.head < demoLogCapacity) (abort : DataAbort)
    : Covered page abort k.monitor (handle page k (.dataAbort abort)).monitor
      ↔ (InPage page.virtAddr abort.pc ∧ abort.faultAddr = abort.pc)
        ∨ (¬InPage page.virtAddr abort.pc ∧ ¬InAliases page abort.faultAddr) := by
  rw [handle_dataAbort_monitor]
  by_cases executed : InPage page.virtAddr abort.pc
  · -- The abort is logged, under its program counter.
    have passes : ¬(k.monitor.filteredOut abort.pc = true) := by
      simpa only [h.filteredOut_iff, not_not] using executed
    rw [if_neg passes]
    have logged : Appends k.monitor
        (k.monitor.logFaultEvent abort.now abort.current (some ⟨abort.pc⟩) abort.pc abort.err
          abort.trapnr)
        (CtxMonitor.faultEntry abort.now abort.current (some ⟨abort.pc⟩) abort.pc abort.err
          abort.trapnr) := rfl
    constructor
    · intro covered
      exact Or.inl ⟨executed, (covered.fields _ logged).2.symm⟩
    · intro condition
      rcases condition with ⟨_, same⟩ | ⟨outside, _⟩
      · refine ⟨⟨fun _ => Or.inl (same ▸ executed), fun _ => ⟨_, logged⟩⟩, ?_⟩
        intro entry appended
        have isEntry := Ring.append_injective bound (logged.symm.trans appended)
        exact isEntry ▸ ⟨rfl, same.symm⟩
      · exact absurd executed outside
  · -- The abort is dropped, whatever its data address.
    rw [if_pos ((h.filteredOut_iff _).mpr executed)]
    have unlogged : ∀ entry, ¬Appends k.monitor k.monitor entry :=
      fun entry appended => Ring.append_ne _ (by decide) entry appended.symm
    constructor
    · intro covered
      refine Or.inr ⟨executed, fun inside => ?_⟩
      obtain ⟨entry, appended⟩ := covered.appends.mpr inside
      exact unlogged entry appended
    · intro condition
      rcases condition with ⟨inside, _⟩ | ⟨_, outside⟩
      · exact absurd inside executed
      · refine ⟨⟨?_, fun inside => absurd inside outside⟩, ?_⟩
        · intro logged
          obtain ⟨entry, appended⟩ := logged
          exact absurd appended (unlogged entry)
        · exact fun entry appended => absurd appended (unlogged entry)

/-- Between incidents the mutex is free, the monitor is one that can occur, and it watches
the direct mapping whenever the flag is set or protection was last asked for.
-/
structure Settled (page : SafetyPage) (on : Bool) (k : State) : Prop where
  mutex : k.safetyMutex = none
  vmalloc : k.vmalloc.IsPage
  running : k.monitor.Running
  flag : k.ctxProtected = true → on = true
  watching : on = true → Watching page k.monitor

theorem Settled.logBound {page : SafetyPage} {on : Bool} {k : State} (h : Settled page on k)
    : k.monitor.log.head < demoLogCapacity := by
  obtain ⟨history, represents⟩ := h.running.represents
  exact (represents.bounds (by decide)).1

theorem Settled.setProtection {page : SafetyPage} {on : Bool} {k : State}
    (h : Settled page on k) (tid : Nat) (enable : Bool) (choices : List Choice)
    : Settled page enable (handle page k (.setProtection tid enable choices)) := by
  obtain ⟨errVirt, errVmalloc, k', ran, done, _⟩ :=
    @safetyMemSetProtection_runAlone page k tid enable choices h.mutex h.vmalloc
  have after : handle page k (.setProtection tid enable choices) = k' := by
    simp only [handle, ran]
  rw [after]
  refine ⟨done.mutex, ?_, ?_, ?_, ?_⟩
  · rw [done.vmalloc]
    split
    · exact h.vmalloc.setWrite _
    · exact h.vmalloc
  · rw [done.monitor]
    split <;> exact h.running.setProtectedRange _ _
  · intro isSet
    rw [done.flag] at isSet
    exact (Bool.and_eq_true_iff.mp isSet).1
  · intro enabled
    rw [done.monitor, if_pos enabled]
    exact ⟨rfl, rfl⟩

theorem Settled.dataAbort {page : SafetyPage} {on : Bool} {k : State} (h : Settled page on k)
    (abort : DataAbort)
    : Settled page on (handle page k (.dataAbort abort)) := by
  refine ⟨h.mutex, h.vmalloc, h.running.dieNotifierCb _ _ _, h.flag, ?_⟩
  intro enabled
  have watching := h.watching enabled
  rw [handle_dataAbort_monitor]
  split
  · exact watching
  · exact ⟨watching.rangeStart, watching.rangeEnd⟩

/-- Every history leaves a settled state, by induction from its end. -/
theorem Settled.handleAll {page : SafetyPage} {k : State} (loaded : Loaded page k)
    (incidents : List Incident)
    : Settled page (requested incidents) (handleAll page k incidents) := by
  induction incidents using List.reverseRecOn with
  | nil =>
      have facts := loaded.facts
      have unset : k.ctxProtected = false := congrArg Permissions.flag facts.permissions
      refine ⟨facts.mutex, loaded.shaped.vmalloc, facts.running, ?_, fun asked => by cases asked⟩
      intro isSet
      simp [Monitoring.handleAll, unset] at isSet
  | append_singleton incidents incident ih =>
      rw [handleAll_push]
      cases incident with
      | setProtection tid enable choices =>
          simpa [requested] using ih.setProtection tid enable choices
      | dataAbort abort => simpa [requested] using ih.dataAbort abort

/-- After any history in which protection was enabled last, a data abort is logged as it
should be exactly if it was executed at its own data address inside the direct mapping, or
was executed outside the direct mapping and is about neither mapping.
-/
theorem dataAbort_covered_iff {page : SafetyPage} {k : State} (loaded : Loaded page k)
    (incidents : List Incident) (enabled : Enabled page k incidents) (abort : DataAbort)
    : Covered page abort (handleAll page k incidents).monitor
        (handleAll page k (incidents ++ [.dataAbort abort])).monitor
      ↔ (InPage page.virtAddr abort.pc ∧ abort.faultAddr = abort.pc)
        ∨ (¬InPage page.virtAddr abort.pc ∧ ¬InAliases page abort.faultAddr) := by
  have settled := Settled.handleAll loaded incidents
  have watching := settled.watching (enabled.elim id settled.flag)
  rw [handleAll_push]
  exact watching.covered_iff settled.logBound abort

/-- An abort of ordinary kernel code that touches the given address. -/
def sampleAbort (faultAddr : UInt64) : DataAbort :=
  {
    now := 0
    current := default
    pc := 0xffff800010008888
    faultAddr
    err := 0x9600004f
    trapnr := 14
  }

/-- Protection is enabled on the sample page. -/
def sampleProtection : List Incident := [.setProtection 0 true []]

theorem dataAbort_covered_iff_sample
    : Enabled (samplePage true) (freshlyLoaded (samplePage true)) sampleProtection
      ∧ Covered (samplePage true) (sampleAbort 0xffff800099999000)
          (handleAll (samplePage true) (freshlyLoaded (samplePage true))
            sampleProtection).monitor
          (handleAll (samplePage true) (freshlyLoaded (samplePage true))
            (sampleProtection ++ [.dataAbort (sampleAbort 0xffff800099999000)])).monitor := by
  have enabled : Enabled (samplePage true) (freshlyLoaded (samplePage true)) sampleProtection :=
    Or.inl rfl
  refine ⟨enabled, (dataAbort_covered_iff (freshlyLoaded_loaded _) _ enabled _).mpr ?_⟩
  refine Or.inr ⟨by decide, ?_⟩
  simp [InAliases, samplePage, sampleAbort, InPage, pageSize]

/-- An abort on the protected word itself is not logged. -/
theorem dataAbort_on_word_not_covered
    : Loaded (samplePage true) (freshlyLoaded (samplePage true))
      ∧ Enabled (samplePage true) (freshlyLoaded (samplePage true)) sampleProtection
      ∧ ¬Covered (samplePage true) (sampleAbort (samplePage true).virtAddr)
          (handleAll (samplePage true) (freshlyLoaded (samplePage true))
            sampleProtection).monitor
          (handleAll (samplePage true) (freshlyLoaded (samplePage true))
            (sampleProtection
              ++ [.dataAbort (sampleAbort (samplePage true).virtAddr)])).monitor := by
  have loaded := freshlyLoaded_loaded (samplePage true)
  have settled := Settled.handleAll loaded sampleProtection
  refine ⟨loaded, Or.inl rfl, ?_⟩
  rw [handleAll_push, (settled.watching rfl).covered_iff settled.logBound]
  intro condition
  rcases condition with ⟨executed, _⟩ | ⟨_, outside⟩
  · exact absurd executed (by decide)
  · exact outside (Or.inl (by decide))

end SafetyIsolation.Monitoring

import SafetyIsolation.Kernel.ProcRead
import SafetyIsolation.Protection.Observation
import SafetyIsolation.Status.StatusText

/-! Whether one status text agrees with itself about protection.
The flag is the first thing `safety_mem_proc_show` reads and the walk of the `vmap` alias
nearly the last, and nothing keeps the writers out in between.
-/

namespace SafetyIsolation.Status

open SafetyIsolation.Interleaving SafetyIsolation.Kernel SafetyIsolation.Protection
open SafetyIsolation.Text

/-- The text has this line. -/
def HasLine (report : StatusReport) (key value : String) : Prop :=
  (utf8 key, utf8 value) ∈ statusFields report

/-- The reader has read the flag and not yet walked the `vmap` alias. -/
def Between (page : SafetyPage) (x : Reading) : Prop :=
  .ctxProtected ∈ x.performed ∧ .walkPgtable page.vmallocPtr ∉ x.performed

/-- Before this event, no `safety_mem_set_protection(false)` is inside its critical section
between the two reads, and no `safety_mem_safe_write` is inside one when the alias is walked.
-/
structure Undisturbed (page : SafetyPage) (x : Reading) (event : ReadingEvent) : Prop where
  protection : Between page x → ∀ tid, holder x.kernel.world ≠ some (tid, .setProtection false)
  walk : ∀ around next, event = .read around
    → x.reader = .act (.walkPgtable page.vmallocPtr) next
    → ∀ tid val, holder x.kernel.world ≠ some (tid, .safeWrite val)

/-- This is so at every event of a run. -/
def UndisturbedRun (page : SafetyPage) (x : Reading) : List ReadingEvent → Prop
  | [] => True
  | event :: rest =>
      Undisturbed page x event
      ∧ ∀ y, x.step page (faultless authorized) event = some y → UndisturbedRun page y rest

/-- A text that calls the alias protected calls it read-only. -/
def Consistent (report : StatusReport) : Prop :=
  report.protectedState = true → report.vmallocMapping.isWritable = false

/-- The rest of the reader, with the flag it has read: it will print that flag and what it
finds when it walks the `vmap` alias.
-/
def Pending (page : SafetyPage) (flag : Bool) : Reader StatusReport → Prop
  | .ret _ => False
  | .act operation next =>
      (operation ≠ .walkPgtable page.vmallocPtr → ∀ result, Pending page flag (next result))
      ∧ (operation = .walkPgtable page.vmallocPtr → ∀ around k,
          (next (observe page around k operation)).Yields (fun report =>
            report.protectedState = flag
            ∧ report.vmallocMapping.isWritable
              = (observe page around k (.walkPgtable page.vmallocPtr)).isWritable))

/-- Any other read. -/
theorem Pending.act {page : SafetyPage} {flag : Bool} {operation : ReadOp}
    {next : operation.Res → Reader StatusReport}
    (other : operation ≠ .walkPgtable page.vmallocPtr)
    (rest : ∀ result, Pending page flag (next result))
    : Pending page flag (.act operation next) :=
  ⟨fun _ => rest, fun same => absurd same other⟩

/-- After the flag, the code walks the `vmap` alias once, whatever else it reads. -/
theorem collectStatus_pending {page : SafetyPage} (exists_ : page.hasVmalloc = true)
    (raw : Entry → UInt64)
    : ∃ next, collectStatus page raw = .act .ctxProtected next
      ∧ ∀ flag, Pending page flag (next flag) := by
  have nonnull := page.virt_nonnull
  have ptr : page.vmallocPtr = some .vmalloc := by simp [SafetyPage.vmallocPtr, exists_]
  simp only [collectStatus, readOwner, sample, Prog.perform, exists_, nonnull, ne_eq,
    not_false_eq_true, if_true, Prog.monad_bind, Prog.act_bind, Prog.ret_bind,
    Prog.monad_pure]
  refine ⟨_, rfl, fun flag => ?_⟩
  refine .act (by simp) (fun smmuState => .act (by simp) (fun valVmalloc => ?_))
  refine .act (by simp) (fun valPhys => .act (by simp) (fun locked => ?_))
  have tail (ownerBuf : Bytes) : Pending page flag (.act (.walkPgtable (some .direct))
      (fun currentMapping => .act (.walkPgtable page.vmallocPtr) (fun vmallocMapping =>
        .act .initialMapping (fun initialMapping => .ret {
          virtAddr := page.virtAddr
          physAddr := page.physAddr
          initialMapping := .of raw initialMapping
          currentMapping := .of raw currentMapping
          currentIsValid := currentMapping.isValid
          vmallocMapping := .of raw vmallocMapping
          valVmalloc
          valPhys
          protectedState := flag
          smmuState
          ownerBuf
        })))) := by
    refine .act (by simp [ptr]) (fun currentMapping => ?_)
    exact ⟨fun other => absurd rfl other, fun _ around k initialMapping => ⟨rfl, rfl⟩⟩
  cases locked with
  | false => exact tail (utf8 "none")
  | true =>
      refine .act (by simp) (fun owner => ?_)
      cases owner with
      | none => exact tail (utf8 "unknown")
      | some owner => exact .act (by simp) tail

/-- How far the reader has come, and what it knows about the system by then. -/
inductive Stage (page : SafetyPage) (raw : Entry → UInt64) (x : Reading) : Prop where
  | waiting (reader : x.reader = collectStatus page raw) (performed : x.performed = [])
  | between (flag : Bool) (between : Between page x) (pending : Pending page flag x.reader)
    (isSet : flag = true → x.kernel.world.state.ctxProtected = true)
  | walked (performed : .walkPgtable page.vmallocPtr ∈ x.performed)
    (yields : x.reader.Yields Consistent)

/-- What a walk of the `vmap` alias finds. -/
theorem observe_vmalloc {page : SafetyPage} (exists_ : page.hasVmalloc = true)
    (around : Surroundings) {k : State} (shaped : (Permissions.of k).Shaped)
    : (observe page around k (.walkPgtable page.vmallocPtr)).isWritable
      = k.writable .vmalloc := by
  have ptr : page.vmallocPtr = some .vmalloc := by simp [SafetyPage.vmallocPtr, exists_]
  rw [ptr]
  exact (safetyMemWalkPgtable_isPage _ shaped.vmalloc).2

/-- While the flag is set and no opening call is inside, the alias is read-only. -/
theorem readOnly_of_calm {page : SafetyPage} {c : KernelConfig} (ok : ObservedOk page c)
    (isSet : c.world.state.ctxProtected = true)
    (noUnprotect : ∀ tid, holder c.world ≠ some (tid, .setProtection false))
    (noWrite : ∀ tid val, holder c.world ≠ some (tid, .safeWrite val))
    : c.world.state.writable .vmalloc = false := by
  obtain ⟨_, seen⟩ := ok.inv
  rcases seen with ⟨tid, call, isHolder, opening⟩ | truthful
  · cases call with
    | setProtection enable =>
        cases enable with
        | false => exact absurd isHolder (noUnprotect tid)
        | true => exact absurd opening (by decide)
    | safeWrite val => exact absurd isHolder (noWrite tid val)
    | isProtected | attack _ | threadA | threadB | rogueC _ =>
        exact absurd opening Bool.false_ne_true
  · exact (truthful isSet).2

theorem Stage.step {page : SafetyPage} {raw : Entry → UInt64} {x y : Reading}
    {event : ReadingEvent} (exists_ : page.hasVmalloc = true) (ok : ObservedOk page x.kernel)
    (undisturbed : Undisturbed page x event) (stage : Stage page raw x)
    (taken : x.step page (faultless authorized) event = some y)
    : Stage page raw y ∧ ObservedOk page y.kernel := by
  rcases Reading.step_cases taken with
    ⟨kernelEvent, kernel, stepped, rfl, rfl⟩ | ⟨around, operation, next, reader, rfl, rfl⟩
  · -- The writers go on. Only the flag of a reader between its two reads is at stake.
    refine ⟨?_, (observed_sound exists_).step ok stepped⟩
    cases stage with
    | waiting reader performed => exact .waiting reader performed
    | between flag between pending isSet =>
        refine .between flag between pending (fun isFlag => ?_)
        exact ok.flag_kept stepped (isSet isFlag) (undisturbed.protection between)
    | walked performed yields => exact .walked performed yields
  · -- The reader goes on.
    refine ⟨?_, ok⟩
    cases stage with
    | waiting isStart performed =>
        obtain ⟨rest, start, pending⟩ := collectStatus_pending exists_ raw
        obtain ⟨rfl, same⟩ := Prog.act.inj (reader.symm.trans (isStart.trans start))
        rw [eq_of_heq same]
        refine .between x.kernel.world.state.ctxProtected ?_ (pending _) (fun isFlag => isFlag)
        simp [Between, performed]
    | between flag between pending isSet =>
        rw [reader] at pending
        by_cases walks : operation = .walkPgtable page.vmallocPtr
        · subst walks
          have calm := undisturbed.walk around next rfl reader
          have printed := pending.2 rfl around x.kernel.world.state
          refine .walked (List.mem_append_right _ List.mem_cons_self) (printed.imp ?_)
          intro report seen isProtected
          obtain ⟨sameFlag, sameWritable⟩ := seen
          rw [sameWritable, observe_vmalloc exists_ around ok.inv.1]
          exact readOnly_of_calm ok (isSet (sameFlag.symm.trans isProtected))
            (undisturbed.protection between) calm
        · refine .between flag ?_ (pending.1 walks _) isSet
          exact ⟨List.mem_append_left _ between.1, by
            simpa [Between, Ne.symm walks] using between.2⟩
    | walked performed yields =>
        rw [reader] at yields
        exact .walked (List.mem_append_left _ performed) (yields _)

/-- The whole run, by induction over its events. -/
theorem Stage.run {page : SafetyPage} {raw : Entry → UInt64} {x y : Reading}
    {events : List ReadingEvent} (exists_ : page.hasVmalloc = true)
    (ok : ObservedOk page x.kernel) (undisturbed : UndisturbedRun page x events)
    (stage : Stage page raw x) (ran : x.run page (faultless authorized) events = some y)
    : Stage page raw y := by
  induction events generalizing x with
  | nil =>
      obtain rfl := Option.some.inj ran
      exact stage
  | cons event rest ih =>
      obtain ⟨next, stepped, later⟩ := Option.bind_eq_some_iff.mp ran
      obtain ⟨now, onwards⟩ := undisturbed
      obtain ⟨stage, ok⟩ := stage.step exists_ ok now stepped
      exact ih ok (onwards next stepped) stage later

/-- The only line with a key settles what the text has to say about it. -/
theorem hasLine_flag {report : StatusReport} {key : Bytes} {flag : Bool}
    (only
      : (statusFields report).filter (fun field => field.1 = key) = [(key, flagText flag)])
    (value : Bool)
    : (key, flagText value) ∈ statusFields report ↔ flag = value := by
  have found : (key, flagText value) ∈ statusFields report
      ↔ (key, flagText value) ∈ (statusFields report).filter (fun field => field.1 = key) := by
    rw [List.mem_filter]
    simp
  have injective : ∀ flag value : Bool, flagText value = flagText flag → flag = value := by
    decide
  rw [found, only, List.mem_singleton, Prod.mk.injEq]
  constructor
  · intro same
    exact injective flag value same.2
  · intro same
    exact ⟨rfl, congrArg flagText same.symm⟩

theorem hasLine_ctxProtected (report : StatusReport)
    : HasLine report "ctx_protected" "1" ↔ report.protectedState = true :=
  hasLine_flag rfl true

theorem hasLine_mappingWritable (report : StatusReport)
    : HasLine report "mapping_writable_vmalloc" "0"
      ↔ report.vmallocMapping.isWritable = false :=
  hasLine_flag rfl false

/-- A reader that no opening call disturbs prints a text that agrees with itself, in every
interleaving with authorized calls whose permission changes succeed.
-/
theorem text_consistent_of_undisturbed {page : SafetyPage} {raw : Entry → UInt64} {k : State}
    {events : List ReadingEvent} {x : Reading} {report : StatusReport}
    (exists_ : page.hasVmalloc = true) (loaded : Loaded page k)
    (ran : (Reading.start page raw k).run page (faultless authorized) events = some x)
    (printed : x.printed = some report)
    (undisturbed : UndisturbedRun page (Reading.start page raw k) events)
    (line : HasLine report "ctx_protected" "1")
    : HasLine report "mapping_writable_vmalloc" "0" := by
  have stage : Stage page raw x :=
    Stage.run exists_ (ObservedOk.start loaded) undisturbed (.waiting rfl rfl) ran
  have finished : x.reader = .ret report := Reading.reader_of_printed printed
  have consistent : Consistent report := by
    cases stage with
    | waiting reader performed =>
        obtain ⟨next, start, _⟩ := collectStatus_pending exists_ raw
        cases finished.symm.trans (reader.trans start)
    | between flag between pending isSet =>
        rw [finished] at pending
        exact pending.elim
    | walked performed yields =>
        rw [finished] at yields
        exact yields
  rw [hasLine_mappingWritable]
  exact consistent ((hasLine_ctxProtected report).mp line)

/-- A call that may not be inside a critical section now. -/
def disturbs (page : SafetyPage) (x : Reading) : Call → Bool
  | .setProtection false => true
  | .safeWrite _ =>
      match x.reader with
      | .act (.walkPgtable ptr) _ => ptr = page.vmallocPtr
      | _ => false
  | _ => false

/-- No such call is, at any event of a run. -/
def quietRun (page : SafetyPage) (x : Reading) : List ReadingEvent → Bool
  | [] => true
  | event :: rest =>
      (holder x.kernel.world).all (fun inside => !disturbs page x inside.2)
      && (x.step page (faultless authorized) event).all (fun y => quietRun page y rest)

theorem undisturbed_of_quietRun {page : SafetyPage} {x : Reading} {events : List ReadingEvent}
    (quiet : quietRun page x events = true)
    : UndisturbedRun page x events := by
  induction events generalizing x with
  | nil => trivial
  | cons event rest ih =>
      obtain ⟨now, onwards⟩ := Bool.and_eq_true_iff.mp quiet
      have calm {inside : Nat × Call} (isHolder : holder x.kernel.world = some inside)
          : disturbs page x inside.2 = false := by
        simpa [isHolder] using now
      refine ⟨⟨?_, ?_⟩, ?_⟩
      · intro _ tid isHolder
        exact Bool.false_ne_true (calm isHolder).symm
      · intro _ _ _ walks tid val isHolder
        have elsewhere := calm isHolder
        rw [disturbs, walks, decide_eq_false_iff_not] at elsewhere
        exact elsewhere rfl
      · intro y stepped
        exact ih (by simpa [stepped] using onwards)

def reads (count : Nat) : List ReadingEvent := List.replicate count (.read {})

/-- Protection is enabled, and a write runs while the status is read: the value is read while the
alias is open, and the alias is walked after it was closed.
-/
def writeAmidReading : List ReadingEvent :=
  (wholeCall 0 (.setProtection true) (List.replicate 10 0)).map .kernel
    ++ reads 1
    ++ [.kernel (.call 1 (.safeWrite 7))]
    ++ List.replicate 5 (.kernel (.step 1 {}))
    ++ reads 2
    ++ List.replicate 3 (.kernel (.step 1 {}))
    ++ reads 5

theorem text_consistent_of_undisturbed_sample
    : ∃ x report,
        (Reading.start (samplePage true) (fun _ => 0) (freshlyLoaded (samplePage true))).run
          (samplePage true) (faultless authorized) writeAmidReading = some x
        ∧ x.printed = some report
        ∧ report.valVmalloc = 7
        ∧ HasLine report "ctx_protected" "1"
        ∧ HasLine report "mapping_writable_vmalloc" "0" := by
  have seen : ((Reading.start (samplePage true) (fun _ => 0)
      (freshlyLoaded (samplePage true))).run (samplePage true) (faultless authorized)
        writeAmidReading).map (fun x => x.printed.map (fun report =>
          (report.valVmalloc, report.protectedState)))
      = some (some (7, true)) := by
    decide +kernel
  have quiet : quietRun (samplePage true) (Reading.start (samplePage true) (fun _ => 0)
      (freshlyLoaded (samplePage true))) writeAmidReading = true := by
    decide +kernel
  obtain ⟨x, ran, shown⟩ := Option.map_eq_some_iff.mp seen
  obtain ⟨report, printed, found⟩ := Option.map_eq_some_iff.mp shown
  obtain ⟨written, isProtected⟩ := Prod.mk.inj found
  have line := (hasLine_ctxProtected report).mpr isProtected
  exact ⟨x, report, ran, printed, written, line, text_consistent_of_undisturbed rfl
    (freshlyLoaded_loaded (samplePage true)) ran printed (undisturbed_of_quietRun quiet) line⟩

/-- An authorized write opens the alias after the flag was read. -/
def writeWhileReading : List ReadingEvent :=
  (wholeCall 0 (.setProtection true) (List.replicate 10 0)).map .kernel
    ++ reads 1
    ++ [.kernel (.call 1 (.safeWrite 7))]
    ++ List.replicate 4 (.kernel (.step 1 {}))
    ++ reads 9

theorem text_inconsistent_during_safeWrite
    : ¬∀ (page : SafetyPage) (raw : Entry → UInt64) (k : State) (events : List ReadingEvent)
        (x : Reading) (report : StatusReport),
        page.hasVmalloc = true
        → Loaded page k
        → (Reading.start page raw k).run page (faultless authorized) events = some x
        → x.printed = some report
        → HasLine report "ctx_protected" "1"
        → HasLine report "mapping_writable_vmalloc" "0" := by
  intro all
  have seen : ((Reading.start (samplePage true) (fun _ => 0)
      (freshlyLoaded (samplePage true))).run (samplePage true) (faultless authorized)
        writeWhileReading).map (fun x => x.printed.map (fun report =>
          (report.protectedState, report.vmallocMapping.isWritable)))
      = some (some (true, true)) := by
    decide +kernel
  obtain ⟨x, ran, shown⟩ := Option.map_eq_some_iff.mp seen
  obtain ⟨report, printed, found⟩ := Option.map_eq_some_iff.mp shown
  obtain ⟨isProtected, isWritable⟩ := Prod.mk.inj found
  have line := all (samplePage true) (fun _ => 0) _ writeWhileReading x report rfl
    (freshlyLoaded_loaded (samplePage true)) ran printed
    ((hasLine_ctxProtected report).mpr isProtected)
  rw [hasLine_mappingWritable, isWritable] at line
  exact Bool.false_ne_true line.symm

end SafetyIsolation.Status

import SafetyIsolation.Harness.System
import SafetyIsolation.Interleaving.SoleWriter
import SafetyIsolation.Lifetimes.OwnCode
import SafetyIsolation.Lifetimes.Safety

/-! The kernel as the harness takes it to be: a set of loaded modules and a relation between
them. With one loader of modules, `insmod` and `rmmod` do to this set what the harness relies on,
whatever else goes on in the system.
-/

namespace SafetyIsolation.Lifetimes

open SafetyIsolation.Interleaving SafetyIsolation.Kernel

abbrev Table : Type := KernelModule → Phase

/-- `load_module` accepts the module. -/
def Table.Loadable (table : Table) (m : KernelModule) : Prop :=
  table m = .absent ∧ ∀ used ∈ m.uses, table used = .live

/-- `delete_module` accepts the module. -/
def Table.Removable (table : Table) (m : KernelModule) : Prop :=
  table m = .live ∧ ∀ user : KernelModule, m ∈ user.uses → table user = .absent

/-- No module is being loaded or removed. -/
def Table.Settled (table : Table) : Prop := ∀ m, table m = .absent ∨ table m = .live

-----------------------------------------------------------------------------------------
-- What the loader's operations do
-----------------------------------------------------------------------------------------

def HostOp.changesTable : HostOp → Bool
  | .loadModule _ => true
  | .moduleLive _ => true
  | .stopModule _ => true
  | .freeModule _ => true
  | _ => false

/-- The operation has not failed. -/
def Succeeds : (operation : HostOp) → operation.Res → Prop
  | .procCreate _, created => created = true
  | .registerDieNotifier, code => code = 0
  | .kthreadRun _, code => code = 0
  | .allocSafetyPage, page => page.isSome = true
  | _, _ => True

/-- What an operation tells the loader; in a willing environment nothing fails that can be
done.
-/
def TableLearns (loader : Nat) (willing : Bool) (table : Table)
    : (operation : HostOp) → operation.Res → Table → Prop
  | .loadModule m, code, later =>
      (code = 0 ∧ table.Loadable m ∧ later = Function.update table m (.changing .coming loader))
      ∨ (code ≠ 0 ∧ later = table ∧ (willing = true → ¬ table.Loadable m))
  | .moduleLive m, _, later => later = Function.update table m .live
  | .stopModule m, code, later =>
      (code = 0 ∧ table.Removable m ∧ later = Function.update table m (.changing .going loader))
      ∨ (code ≠ 0 ∧ later = table ∧ ¬ table.Removable m)
  | .freeModule m, _, later => later = Function.update table m .absent
  | operation, result, later => later = table ∧ (willing = true → Succeeds operation result)

def tableWriter (loader : Nat) (willing : Bool) : SoleWriter Host HostOp HostOp.Res Table where
  part := Host.phase
  touches := HostOp.changesTable
  learns := TableLearns loader willing

/-- Modules are loaded and removed by one task only. -/
def soleLoader (loader : Nat) : Policy Host Nat HostCall HostChoice HostOp where
  calls tid call :=
    anySchedule.calls tid call
    && match call with
      | .insmod _ | .rmmod _ => tid = loader
      | _ => true
  steps _ _ _ _ _ := true

/-- The loader is in a call and everybody else makes no call to load or remove a module. In a
willing environment the loader's operations do not fail.
-/
def bystanders (loader : Nat) (willing : Bool) : Policy Host Nat HostCall HostChoice HostOp where
  calls tid call := tid ≠ loader && (soleLoader loader).calls tid call
  steps tid _ _ choice _ :=
    tid ≠ loader || !willing || (choice.errno = 0 && choice.page.isSome)

theorem loadable_iff {s : Host} {m : KernelModule}
    : s.loadable m = .ok () ↔ Table.Loadable s.phase m := by
  unfold Host.loadable Table.Loadable
  split
  · rename_i present
    simp [present]
  · rename_i absent
    simp [not_not.mp absent]

theorem stoppable_iff {s : Host} {m : KernelModule}
    : s.stoppable m = .ok () ↔ Table.Removable s.phase m := by
  refine ⟨stoppable_ok, fun removable => ?_⟩
  obtain ⟨live, unused⟩ := removable
  have present : s.phase m ≠ .absent := by
    rw [live]
    exact Phase.noConfusion
  have free : ¬ KernelModule.all.any (fun user => m ∈ user.uses && s.phase user ≠ .absent) := by
    intro found
    obtain ⟨user, _, uses⟩ := List.any_eq_true.mp found
    obtain ⟨uses, there⟩ := Bool.and_eq_true_iff.mp uses
    exact of_decide_eq_true there (unused user (of_decide_eq_true uses))
  unfold Host.stoppable
  rw [if_neg present, if_neg free, if_pos live]

theorem exec_keeps_table {tid : Nat} {choice : HostChoice} {operation : HostOp}
    {result : operation.Res} {s s' : Host} (untouched : operation.changesTable = false)
    (done : exec tid choice operation s = .done result s')
    : s'.phase = s.phase := by
  cases operation with
  | loadModule m | moduleLive m | stopModule m | freeModule m => cases untouched
  | kernel operation =>
      simp only [exec] at done
      split at done
      · cases done
      · split at done <;> cases done
        rfl
  | atomicSet counter => cases counter <;> cases done <;> rfl
  | _ =>
      simp only [exec] at done
      first
        | cases done; rfl
        | split at done <;> cases done <;> rfl

theorem freshVariables_phase (s : Host) (m : KernelModule)
    : (s.freshVariables m).phase = s.phase := by
  cases m <;> rfl

/-- Operations succeed in a willing environment. -/
theorem succeeds_of_willing {tid : Nat} {choice : HostChoice} {operation : HostOp}
    {result : operation.Res} {s s' : Host} (able : choice.errno = 0)
    (page : choice.page.isSome = true) (done : exec tid choice operation s = .done result s')
    : Succeeds operation result := by
  cases operation with
  | procCreate m | registerDieNotifier | kthreadRun t =>
      simp only [exec, able, if_true] at done
      cases done
      rfl
  | allocSafetyPage =>
      obtain ⟨found, isFound⟩ := Option.isSome_iff_exists.mp page
      simp only [exec, isFound] at done
      cases done
      rfl
  | _ => trivial

theorem exec_tells_loader {loader : Nat} {willing : Bool} {choice : HostChoice} {operation : HostOp}
    {result : operation.Res} {s s' : Host}
    (able : willing = true → choice.errno = 0 ∧ choice.page.isSome = true)
    (done : exec loader choice operation s = .done result s')
    : TableLearns loader willing s.phase operation result s'.phase := by
  cases operation with
  | loadModule m =>
      simp only [exec] at done
      split at done
      · rename_i code error
        cases done
        refine .inr ⟨loadable_error error, rfl, fun _ loadable => ?_⟩
        rw [loadable_iff.mpr loadable] at error
        cases error
      · rename_i ok
        split at done
        · cases done
          exact .inl ⟨rfl, loadable_iff.mp ok, rfl⟩
        · rename_i failed
          cases done
          have nonzero : -(choice.errno : Int) ≠ 0 := by omega
          exact .inr ⟨nonzero, rfl, fun isWilling => absurd (able isWilling).1 failed⟩
  | moduleLive m =>
      cases done
      rfl
  | stopModule m =>
      simp only [exec] at done
      split at done
      · rename_i code error
        cases done
        refine .inr ⟨stoppable_error error, rfl, fun removable => ?_⟩
        rw [stoppable_iff.mpr removable] at error
        cases error
      · rename_i ok
        cases done
        exact .inl ⟨rfl, stoppable_iff.mp ok, rfl⟩
  | freeModule m =>
      cases done
      show Function.update (s.freshVariables m).phase m .absent = _
      rw [freshVariables_phase]
  | _ =>
      exact ⟨exec_keeps_table rfl done, fun isWilling =>
        succeeds_of_willing (able isWilling).1 (able isWilling).2 done⟩

-----------------------------------------------------------------------------------------
-- The code
-----------------------------------------------------------------------------------------

section Code

variable {loader : Nat} {willing : Bool} {α β : Type} {table : Table}

/-- The loader's code, from a table of modules. -/
def Runs (loader : Nat) (willing : Bool) (code : HostProg α) (table : Table)
    (post : α → Table → Prop)
    : Prop :=
  code.Follows (fun _ _ => True) (TableLearns loader willing) post table

theorem Runs.pure {value : α} {post : α → Table → Prop} (h : post value table)
    : Runs loader willing (Pure.pure value) table post :=
  h

theorem Runs.bind {code : HostProg α} {next : α → HostProg β} {middle : α → Table → Prop}
    {post : β → Table → Prop} (first : Runs loader willing code table middle)
    (rest : ∀ value later, middle value later → Runs loader willing (next value) later post)
    : Runs loader willing (code >>= next) table post :=
  Prog.Follows.bind first rest

theorem Runs.opThen {operation : HostOp} {next : operation.Res → HostProg α}
    {post : α → Table → Prop}
    (rest : ∀ result later, TableLearns loader willing table operation result later
      → Runs loader willing (next result) later post)
    : Runs loader willing (op operation >>= next) table post :=
  ⟨trivial, rest⟩

/-- An operation that has nothing to do with the table, and the code that follows it. -/
theorem Runs.skip {operation : HostOp} {next : operation.Res → HostProg α}
    {post : α → Table → Prop} (untouched : operation.changesTable = false)
    (rest : ∀ result, (willing = true → Succeeds operation result)
      → Runs loader willing (next result) table post)
    : Runs loader willing (op operation >>= next) table post := by
  refine .opThen (fun result later learned => ?_)
  have told : later = table ∧ (willing = true → Succeeds operation result) := by
    cases operation <;> first | exact learned | cases untouched
  rw [told.1]
  exact rest result told.2

/-- Code that has nothing to do with the table. -/
def Untouched (code : HostProg α) : Prop :=
  code.All (fun operation => operation.changesTable = false)

/-- Such code leaves the table as it was, by program induction. -/
theorem Runs.of_untouched {code : HostProg α} (untouched : Untouched code)
    : Runs loader willing code table (fun _ later => later = table) := by
  induction code with
  | ret value => rfl
  | act operation next ih =>
      exact .skip untouched.1 (fun result _ => ih result (untouched.2 result))

/-- The functions of the modules have nothing to do with the table. -/
theorem OwnCode.untouched {m : KernelModule} {code : HostProg α} (own : OwnCode m code)
    : Untouched code := by
  refine own.imp (fun operation performed => ?_)
  cases operation <;> first | rfl | cases performed

theorem implement_untouched (operation : Op) : Untouched (implement operation) :=
  (implement_own operation).untouched

/-- Code on the safety page has nothing to do with the table. -/
theorem onSafetyPage_untouched {otherwise : α} {body : SafetyPage → Kern α}
    : Untouched (onSafetyPage otherwise body) := by
  refine .opThen rfl (fun page => ?_)
  cases page with
  | none => exact .pure
  | some page => exact Prog.All.interpret implement_untouched _

/-- How an `init` function returns to `insmod`. -/
def InitDone (willing : Bool) (table : Table) (code : Int) (later : Table) : Prop :=
  later = table ∧ (willing = true → 0 ≤ code)

/-- Where something has failed the environment was not willing. -/
theorem Runs.refused {code : HostProg Int} (untouched : Untouched code)
    (refused : willing = true → False)
    : Runs loader willing code table (InitDone willing table) :=
  Prog.Follows.imp (Runs.of_untouched untouched)
    (fun _ _ same => ⟨same, fun isWilling => (refused isWilling).elim⟩)

theorem init_runs (m : KernelModule)
    : Runs loader willing m.init table (InitDone willing table) := by
  have done : InitDone willing table 0 table := ⟨rfl, fun _ => Int.le_refl 0⟩
  cases m with
  | ctxMonitor =>
      refine .skip rfl (fun code registered => ?_)
      split
      · rename_i nonzero
        exact .refused .pure (fun isWilling => nonzero (registered isWilling))
      · refine .skip rfl (fun created found => ?_)
        cases created with
        | false =>
            exact .refused (.opThen rfl (fun _ => .pure))
              (fun isWilling => by cases found isWilling)
        | true => exact .pure done
  | safetyMem =>
      refine .skip rfl (fun page found => ?_)
      cases page with
      | none => exact .refused .pure (fun isWilling => by cases found isWilling)
      | some page =>
          refine .skip rfl (fun _ _ => .skip rfl (fun _ _ => .skip rfl (fun _ _ =>
            .skip rfl (fun _ _ => .skip rfl (fun _ _ => .skip rfl (fun created found => ?_))))))
          cases created with
          | true => exact .pure done
          | false =>
              exact .refused (Prog.All.interpret implement_untouched _)
                (fun isWilling => by cases found isWilling)
  | smmuGuard =>
      have rest (dummyPdev guardDomain : Bool) : Runs loader willing (do
          if !(← op (.procCreate .smmuGuard)) then
            if guardDomain then
              if dummyPdev then
                op .iommuDetachDevice
              op .iommuDomainFree
            if dummyPdev then
              op .platformDeviceUnregister
            return -eNOMEM
          op (.setSmmuActive true)
          return 0) table (InitDone willing table) := by
        refine .skip rfl (fun created found => ?_)
        cases created with
        | false =>
            exact .refused (smmuGuardRelease_own .pure).untouched
              (fun isWilling => by cases found isWilling)
        | true => exact .skip rfl (fun _ _ => .pure done)
      refine .skip rfl (fun dummyPdev _ => .skip rfl (fun guardDomain _ => ?_))
      cases guardDomain with
      | false => exact rest dummyPdev false
      | true =>
          refine .skip rfl (fun _ _ => ?_)
          cases dummyPdev with
          | false => exact rest false true
          | true => exact .skip rfl (fun _ _ => rest true true)
  | badDriver =>
      refine .skip rfl (fun created found => ?_)
      cases created with
      | false => exact .refused .pure (fun isWilling => by cases found isWilling)
      | true => exact .pure done
  | mutexThreads =>
      refine .skip rfl (fun taskA started => ?_)
      split
      · rename_i nonzero
        exact .refused .pure (fun isWilling => nonzero (started isWilling))
      · refine .skip rfl (fun taskB started => ?_)
        split
        · rename_i nonzero
          exact .refused (.bind (kthreadStop_own .safetyThread).untouched (fun _ => .pure))
            (fun isWilling => nonzero (started isWilling))
        · exact .pure done
  | rogueThread =>
      refine .skip rfl (fun _ _ => .skip rfl (fun _ _ => .skip rfl (fun created found => ?_)))
      cases created with
      | false => exact .refused .pure (fun isWilling => by cases found isWilling)
      | true =>
          refine .skip rfl (fun taskC started => ?_)
          split
          · rename_i nonzero
            exact .refused (.bind (removeProcEntry_own _).untouched (fun _ => .pure))
              (fun isWilling => nonzero (started isWilling))
          · exact .pure done

/-- `insmod` adds the module if it could be loaded and nothing fails. -/
theorem insmod_runs (m : KernelModule)
    : Runs loader willing (insmod m) table (fun code later =>
        (code = 0 ∧ table.Loadable m ∧ later = Function.update table m .live)
        ∨ (code ≠ 0 ∧ later = table ∧ (willing = true → ¬ table.Loadable m))) := by
  refine .opThen (fun loaded later learned => ?_)
  rcases learned with ⟨rfl, loadable, rfl⟩ | ⟨nonzero, rfl, refused⟩
  · refine .bind (init_runs m) (fun code later initialized => ?_)
    obtain ⟨rfl, succeeds⟩ := initialized
    split
    · rename_i negative
      refine .opThen (fun _ later freed => .pure (.inr ⟨by omega, ?_, fun isWilling => ?_⟩))
      · rw [show later = _ from freed, Function.update_idem, ← loadable.1, Function.update_eq_self]
      · have := succeeds isWilling
        omega
    · refine .opThen (fun _ later live => .pure (.inl ⟨rfl, loadable, ?_⟩))
      rw [show later = _ from live, Function.update_idem]
  · split
    · exact .pure (.inr ⟨nonzero, rfl, refused⟩)
    · rename_i zero
      exact absurd nonzero zero

/-- `rmmod` takes the module away exactly if it is there and not linked to. -/
theorem rmmod_runs (m : KernelModule)
    : Runs loader willing (rmmod m) table (fun code later =>
        (code = 0 ∧ table.Removable m ∧ later = Function.update table m .absent)
        ∨ (code ≠ 0 ∧ later = table ∧ ¬ table.Removable m)) := by
  refine .opThen (fun stopped later learned => ?_)
  rcases learned with ⟨rfl, removable, rfl⟩ | ⟨nonzero, rfl, refused⟩
  · refine .bind (.of_untouched (exit_own m).untouched) (fun _ later same => ?_)
    refine .opThen (fun _ later freed => .pure (.inl ⟨rfl, removable, ?_⟩))
    rw [show later = _ from freed, same, Function.update_idem]
  · split
    · exact .pure (.inr ⟨nonzero, rfl, refused⟩)
    · rename_i zero
      exact absurd nonzero zero

theorem fileOperation_untouched {m : KernelModule} {handler : HostProg Int}
    (untouched : Untouched handler)
    : Untouched (fileOperation m handler) := by
  refine .opThen rfl (fun entered => ?_)
  cases entered with
  | false => exact .pure
  | true => exact .bind untouched (fun _ => .opThen rfl (fun _ => .pure))

theorem procShow_untouched (raw : Entry → UInt64) (attackMode : UInt32) (m : KernelModule)
    : Untouched (procShow raw attackMode m) := by
  cases m with
  | ctxMonitor | smmuGuard => exact .opThen rfl (fun _ => .pure)
  | safetyMem =>
      refine .opThen rfl (fun page => ?_)
      cases page with
      | none => exact .pure
      | some page =>
          refine .bind (.interpret (fun operation => ?_) _) (fun _ => .pure)
          exact .op rfl
  | badDriver =>
      exact .opThen rfl (fun _ => .opThen rfl (fun _ => .opThen rfl (fun _ => .opThen rfl
        (fun _ => .opThen rfl (fun _ => .pure)))))
  | mutexThreads => exact .pure
  | rogueThread => exact .opThen rfl (fun _ => .opThen rfl (fun _ => .pure))

theorem turn_untouched (t : KThread) (attackMode : UInt32) : Untouched (turn t attackMode) := by
  refine .opThen rfl (fun _ => .opThen rfl (fun stop => ?_))
  cases stop with
  | true => exact .opThen rfl (fun _ => .pure)
  | false =>
      exact .bind (Prog.All.interpret implement_untouched _) (fun _ => .opThen rfl (fun _ => .pure))

/-- Calls that neither load nor remove a module. -/
theorem body_untouched {raw : Entry → UInt64} {tid : Nat} {call : HostCall}
    (admitted : (soleLoader loader).calls tid call = true) (different : tid ≠ loader)
    : Untouched (call.body raw) := by
  have other := (Bool.and_eq_true_iff.mp admitted).2
  cases call with
  | insmod m | rmmod m => exact absurd (of_decide_eq_true other) different
  | readProc m attackMode =>
      exact fileOperation_untouched (.bind (procShow_untouched raw attackMode m) (fun _ => .pure))
  | writeSafetyMem buf count | writeBadDriver buf count =>
      exact fileOperation_untouched onSafetyPage_untouched
  | turn t attackMode => exact turn_untouched t attackMode
  | die current data | dmaFault devName iova => exact .opThen rfl (fun _ => .pure)

end Code

-----------------------------------------------------------------------------------------
-- Runs
-----------------------------------------------------------------------------------------

section Reached

variable {raw : Entry → UInt64} {loader : Nat} {willing : Bool}

theorem soleLoader_describes
    : (tableWriter loader false).Describes (system raw) (soleLoader loader) loader where
  keeps untouched done := exec_keeps_table untouched done
  learned _ done := exec_tells_loader (fun impossible => absurd impossible Bool.false_ne_true) done
  bodies _ _ different admitted := body_untouched admitted different

theorem bystanders_describes
    : (tableWriter loader willing).Describes (system raw) (bystanders loader willing) loader where
  keeps untouched done := exec_keeps_table untouched done
  learned admitted done := by
    refine exec_tells_loader (fun isWilling => ?_) done
    simpa [bystanders, isWilling] using admitted
  bodies _ _ different admitted := body_untouched (Bool.and_eq_true_iff.mp admitted).2 different

/-- Whoever changes a module is the loader. -/
def LoaderChanges (loader : Nat) (table : Table) : Prop :=
  ∀ m direction tid, table m = .changing direction tid → tid = loader

theorem TableLearns.loaderChanges {table later : Table} {operation : HostOp}
    {result : operation.Res} (h : LoaderChanges loader table)
    (learned : TableLearns loader willing table operation result later)
    : LoaderChanges loader later := by
  have update (m : KernelModule) {phase : Phase}
      (own : ∀ direction tid, phase = .changing direction tid → tid = loader)
      : LoaderChanges loader (Function.update table m phase) := by
    intro other direction tid changing
    by_cases same : other = m
    · rw [same, Function.update_self] at changing
      exact own direction tid changing
    · rw [Function.update_of_ne same] at changing
      exact h other direction tid changing
  cases operation with
  | loadModule m | stopModule m =>
      rcases learned with ⟨-, -, rfl⟩ | ⟨-, rfl, -⟩
      · refine update m (fun direction tid same => ?_)
        injection same with _ same
        exact same.symm
      · exact h
  | moduleLive m | freeModule m =>
      rw [show later = _ from learned]
      exact update m (fun _ _ => Phase.noConfusion)
  | _ => exact learned.1 ▸ h

/-- When the loader is between calls, no module is being loaded or removed. -/
theorem settled_of_idle {word : UInt32} {direct vmalloc : TablePath} {c : HostConfig}
    (reached
      : (system raw).Reachable (soleLoader loader) (.start (Host.boot word direct vmalloc)) c)
    (idle : c.threads loader = .idle)
    : (tableWriter loader false).Quiet loader c ∧ Table.Settled c.world.state.phase := by
  have both := reached.invariant
    (fun c => (tableWriter loader false).Quiet loader c ∧ LoaderChanges loader c.world.state.phase)
    ⟨fun _ _ _ _ running => (by cases running), fun _ _ _ changing => (by cases changing)⟩
    (fun c event c' h taken => by
      refine ⟨soleLoader_describes.quiet h.1 taken, ?_⟩
      by_cases own : event.tid = loader
      · cases Machine.step_taken taken with
        | call _ _ => exact h.2
        | act running admitted done =>
            cases own
            exact TableLearns.loaderChanges h.2 (soleLoader_describes.learned admitted done)
        | fault _ _ _ => exact h.2
        | ret _ => exact h.2
      · have same := soleLoader_describes.part_of_ne h.1 own taken
        rw [show c'.world.state.phase = c.world.state.phase from same]
        exact h.2)
  refine ⟨both.1, fun m => ?_⟩
  have anyone : (system raw).Reachable anySchedule (.start (Host.boot word direct vmalloc)) c :=
    reached.liberal (fun _ _ admitted => (Bool.and_eq_true_iff.mp admitted).1)
      (fun _ _ _ _ _ _ => rfl)
  obtain ⟨known, understood⟩ := reachable_understood anyone
  have resting := understood.informed loader
  rw [idle] at resting
  have holds := understood.holds loader
  rw [show known loader = .rest from resting] at holds
  cases phase : c.world.state.phase m with
  | absent => exact .inl rfl
  | live => exact .inr rfl
  | changing direction tid =>
      have own := both.2 m direction tid phase
      subst own
      exact absurd phase (holds.not_changing (fun _ _ _ _ => Stage.noConfusion) m direction)

end Reached

-----------------------------------------------------------------------------------------
-- The kernel of the harness
-----------------------------------------------------------------------------------------

/-- The name a module is loaded and removed by. -/
def KernelModule.name : KernelModule → String
  | .ctxMonitor => "ctx_monitor"
  | .safetyMem => "safety_mem"
  | .smmuGuard => "smmu_guard"
  | .badDriver => "bad_driver"
  | .mutexThreads => "mutex_threads"
  | .rogueThread => "rogue_thread"

/-- The relation between names for which the harness asks. -/
def moduleNeeds (name : String) : List String :=
  (KernelModule.all.filter (fun m => m.name = name)).flatMap
    (fun m => m.uses.map KernelModule.name)

def Table.loadedNames (table : Table) : Finset String :=
  ((KernelModule.all.filter (fun m => table m = .live)).map KernelModule.name).toFinset

theorem KernelModule.name_injective : Function.Injective KernelModule.name := by
  have distinct : ∀ a ∈ KernelModule.all, ∀ b ∈ KernelModule.all, a.name = b.name → a = b := by
    decide
  exact fun a b same => distinct a a.mem_all b b.mem_all same

theorem mem_moduleNeeds {m : KernelModule} {name : String}
    : name ∈ moduleNeeds m.name ↔ ∃ used ∈ m.uses, used.name = name := by
  simp only [moduleNeeds, List.mem_flatMap, List.mem_filter, List.mem_map, decide_eq_true_eq]
  constructor
  · intro found
    obtain ⟨same, ⟨-, named⟩, used⟩ := found
    exact KernelModule.name_injective named ▸ used
  · exact fun used => ⟨m, ⟨m.mem_all, rfl⟩, used⟩

theorem mem_loadedNames {table : Table} {name : String}
    : name ∈ table.loadedNames ↔ ∃ m : KernelModule, table m = .live ∧ m.name = name := by
  simp only [Table.loadedNames, List.mem_toFinset, List.mem_map, List.mem_filter,
    decide_eq_true_eq, KernelModule.mem_all, true_and]

theorem name_mem_loadedNames {table : Table} {m : KernelModule}
    : m.name ∈ table.loadedNames ↔ table m = .live := by
  rw [mem_loadedNames]
  constructor
  · intro found
    obtain ⟨same, live, named⟩ := found
    exact KernelModule.name_injective named ▸ live
  · exact fun live => ⟨m, live, rfl⟩

/-- `insmod` in the harness's kernel accepts what `load_module` does. -/
theorem insertable_iff {table : Table} (settled : table.Settled) (m : KernelModule)
    : (m.name ∉ table.loadedNames ∧ ∀ need ∈ moduleNeeds m.name, need ∈ table.loadedNames)
      ↔ table.Loadable m := by
  have absent : m.name ∉ table.loadedNames ↔ table m = .absent := by
    rw [name_mem_loadedNames]
    rcases settled m with isAbsent | isLive
    · simp [isAbsent]
    · simp [isLive]
  rw [Table.Loadable, absent]
  refine and_congr_right (fun _ => ⟨fun all used member => ?_, fun all need member => ?_⟩)
  · exact name_mem_loadedNames.mp (all _ (mem_moduleNeeds.mpr ⟨used, member, rfl⟩))
  · obtain ⟨used, uses, rfl⟩ := mem_moduleNeeds.mp member
    exact name_mem_loadedNames.mpr (all used uses)

theorem removable_iff {table : Table} (settled : table.Settled) (m : KernelModule)
    : (m.name ∈ table.loadedNames ∧ ∀ user ∈ table.loadedNames, m.name ∉ moduleNeeds user)
      ↔ table.Removable m := by
  rw [Table.Removable, name_mem_loadedNames]
  refine and_congr_right (fun _ => ⟨fun all user uses => ?_, fun all name loaded needed => ?_⟩)
  · refine (settled user).resolve_right (fun live => ?_)
    exact all _ (name_mem_loadedNames.mpr live) (mem_moduleNeeds.mpr ⟨m, uses, rfl⟩)
  · obtain ⟨user, live, rfl⟩ := mem_loadedNames.mp loaded
    obtain ⟨used, uses, named⟩ := mem_moduleNeeds.mp needed
    rw [all user (KernelModule.name_injective named ▸ uses)] at live
    cases live

theorem loadedNames_live {table : Table} (m : KernelModule)
    : Table.loadedNames (Function.update table m .live) = insert m.name table.loadedNames := by
  ext name
  rw [mem_loadedNames, Finset.mem_insert, mem_loadedNames]
  constructor
  · intro found
    obtain ⟨other, live, rfl⟩ := found
    by_cases same : other = m
    · exact .inl (congrArg KernelModule.name same)
    · rw [Function.update_of_ne same] at live
      exact .inr ⟨other, live, rfl⟩
  · intro found
    rcases found with rfl | ⟨other, live, rfl⟩
    · exact ⟨m, Function.update_self _ _ _, rfl⟩
    · by_cases same : other = m
      · exact ⟨m, Function.update_self _ _ _, congrArg KernelModule.name same.symm⟩
      · exact ⟨other, (Function.update_of_ne same _ _).trans live, rfl⟩

theorem loadedNames_absent {table : Table} (m : KernelModule)
    : Table.loadedNames (Function.update table m .absent) = table.loadedNames.erase m.name := by
  ext name
  rw [mem_loadedNames, Finset.mem_erase, mem_loadedNames]
  constructor
  · intro found
    obtain ⟨other, live, rfl⟩ := found
    have different : other ≠ m := by
      intro same
      rw [same, Function.update_self] at live
      cases live
    rw [Function.update_of_ne different] at live
    exact ⟨fun same => different (KernelModule.name_injective same), other, live, rfl⟩
  · intro found
    obtain ⟨different, other, live, rfl⟩ := found
    refine ⟨other, ?_, rfl⟩
    rw [Function.update_of_ne (fun same => different (congrArg KernelModule.name same))]
    exact live

section Calls

variable {raw : Entry → UInt64} {word : UInt32} {direct vmalloc : TablePath} {loader : Nat}
  {willing : Bool} {c c' last : HostConfig} {m : KernelModule} {code : Int} {sys : Harness.Sys}

/-- What is known of the table when a call of the loader returns. -/
theorem returned_table {call : HostCall} {post : Int → Table → Prop}
    (reached
      : (system raw).Reachable (soleLoader loader) (.start (Host.boot word direct vmalloc)) c)
    (called : (system raw).step (soleLoader loader) c (.call loader call) = some c')
    (run : (system raw).Reachable (bystanders loader willing) c' last)
    (returned : last.threads loader = .running call (.ret code))
    (runs : Runs loader willing (call.body raw) c.world.state.phase post)
    : Table.Settled c.world.state.phase ∧ post code last.world.state.phase := by
  cases Machine.step_taken called with
  | call idle admitted =>
      obtain ⟨quiet, settled⟩ := settled_of_idle reached idle
      refine ⟨settled, ?_⟩
      refine bystanders_describes.at_return (w := tableWriter loader willing) ?_ ?_ ?_ run returned
      · intro tid other code different running
        simp only [Function.update_of_ne different] at running
        exact quiet tid other code different running
      · intro other
        simp [bystanders]
      · intro other code running
        simp only [Function.update_self] at running
        cases running
        exact ⟨rfl, runs⟩

/-- The harness's kernel is right. Start from any state in which the loader is between calls and the
set of loaded modules is the one the harness's kernel has. Whatever the other tasks do until the
call returns, `insmod` returns 0 exactly if that kernel accepts the module or, where the
environment may fail, is told of a failure, and `rmmod` exactly if it accepts the name; the sets
of loaded modules agree again.
-/
theorem harness_kernel_right
    (reached
      : (system raw).Reachable (soleLoader loader) (.start (Host.boot word direct vmalloc)) c)
    (agrees : sys.loaded = Table.loadedNames c.world.state.phase)
    (run : (system raw).Reachable (bystanders loader willing) c' last)
    : (∀ (path : Harness.Path) (params : String), path.stem = m.name
        → (system raw).step (soleLoader loader) c (.call loader (.insmod m)) = some c'
        → last.threads loader = .running (.insmod m) (.ret code)
        → ∃ failure, (willing = true → failure = 0)
            ∧ ((sys.insert moduleNeeds path params failure).1 = 0 ↔ code = 0)
            ∧ (sys.insert moduleNeeds path params failure).2.loaded
              = Table.loadedNames last.world.state.phase)
      ∧ ((system raw).step (soleLoader loader) c (.call loader (.rmmod m)) = some c'
        → last.threads loader = .running (.rmmod m) (.ret code)
        → ((sys.remove moduleNeeds m.name 0).1 = 0 ↔ code = 0)
          ∧ (sys.remove moduleNeeds m.name 0).2.loaded
            = Table.loadedNames last.world.state.phase) := by
  have nonzeroRefused : Harness.Sys.refused ≠ 0 := by decide
  constructor
  · intro path params named called returned
    obtain ⟨settled, outcome⟩ := returned_table reached called run returned (insmod_runs m)
    have accepts := insertable_iff settled m
    rcases outcome with ⟨rfl, loadable, later⟩ | ⟨nonzero, later, refused⟩
    · refine ⟨0, fun _ => rfl, ?_⟩
      rw [Harness.Sys.insert, if_neg (not_not.mpr rfl), named, agrees,
        if_pos (accepts.mpr loadable), later, loadedNames_live]
      exact ⟨⟨fun _ => rfl, fun _ => rfl⟩, rfl⟩
    · rw [later]
      by_cases isWilling : willing = true
      · refine ⟨0, fun _ => rfl, ?_⟩
        rw [Harness.Sys.insert, if_neg (not_not.mpr rfl), named, agrees,
          if_neg (fun accepted => refused isWilling (accepts.mp accepted))]
        exact ⟨iff_of_false nonzeroRefused nonzero, agrees⟩
      · refine ⟨1, fun impossible => absurd impossible isWilling, ?_⟩
        rw [Harness.Sys.insert, if_pos (by decide)]
        exact ⟨iff_of_false Int.one_ne_zero nonzero, agrees⟩
  · intro called returned
    obtain ⟨settled, outcome⟩ := returned_table reached called run returned (rmmod_runs m)
    have accepts := removable_iff settled m
    rw [Harness.Sys.remove, if_neg (not_not.mpr rfl), agrees]
    rcases outcome with ⟨rfl, removable, later⟩ | ⟨nonzero, later, refused⟩
    · rw [if_pos (accepts.mpr removable), later, loadedNames_absent]
      exact ⟨⟨fun _ => rfl, fun _ => rfl⟩, rfl⟩
    · rw [if_neg (fun accepted => refused (accepts.mp accepted)), later]
      exact ⟨iff_of_false nonzeroRefused nonzero, agrees⟩

/-- The loader has loaded the monitor. -/
def monitorLoaded (c : HostConfig) : Bool :=
  match c.threads 3 with
  | .running (.insmod .ctxMonitor) (.ret 0) => true
  | _ => false

theorem monitorLoaded_running {c : HostConfig} (h : monitorLoaded c = true)
    : c.threads 3 = .running (.insmod .ctxMonitor) (.ret 0) := by
  unfold monitorLoaded at h
  split at h
  · assumption
  · cases h

/-- The loader has called `insmod` on a host without modules. -/
def monitorCalled : HostConfig :=
  ⟨⟨sampleHost, [.call 3 (.insmod .ctxMonitor)]⟩,
    Function.update (fun _ => .idle) 3 (.running (.insmod .ctxMonitor) (insmod .ctxMonitor))⟩

/-- Another task looks for the file of the module while it is loaded. -/
theorem monitorLoaded_run
    : ((system (fun _ => 0)).run (bystanders 3 false) monitorCalled
        [.step 3 {}, .call 4 (.readProc .ctxMonitor 0), .step 4 {}, .step 3 {}, .step 3 {},
          .step 3 {}]).map monitorLoaded
      = some true := by decide

theorem harness_kernel_right_monitor
    : ∃ last : HostConfig, last.threads 3 = .running (.insmod .ctxMonitor) (.ret 0)
        ∧ ∃ failure,
          ((⟨0, ∅, []⟩ : Harness.Sys).insert moduleNeeds "modules/ctx_monitor.ko" ""
              failure).2.loaded
            = Table.loadedNames last.world.state.phase := by
  obtain ⟨last, run, seen⟩ := Machine.Reachable.observed _ monitorLoaded monitorLoaded_run
  have returned := monitorLoaded_running seen
  have start
      : (system (fun _ => 0)).Reachable (soleLoader 3) (.start sampleHost) (.start sampleHost) :=
    ⟨[], rfl⟩
  have none : (⟨0, ∅, []⟩ : Harness.Sys).loaded = Table.loadedNames sampleHost.phase := by decide
  obtain ⟨failure, -, -, agrees⟩ := (harness_kernel_right start none run).1
    "modules/ctx_monitor.ko" "" (by decide) rfl returned
  exact ⟨last, returned, failure, agrees⟩

end Calls

end SafetyIsolation.Lifetimes

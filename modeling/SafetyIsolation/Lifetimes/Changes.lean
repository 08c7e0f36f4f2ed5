import SafetyIsolation.Lifetimes.Functions

/-! Operations of `init` and `exit` functions: what each of them changes, and that it keeps the
invariant, tells its task the truth and does not disturb what other tasks know.
-/

namespace SafetyIsolation.Lifetimes

open SafetyIsolation.Interleaving SafetyIsolation.Kernel

variable {tid : Nat} {s s' : Host}

-----------------------------------------------------------------------------------------
-- Operations of `init` and `exit` functions
-----------------------------------------------------------------------------------------

/-- What an operation of a module's own functions does to the system. -/
structure Effect (m : KernelModule) (v : View) (s s' : Host) : Prop where
  phase : s'.phase = s.phase
  view : s'.view m = v
  others : ∀ other, other ≠ m → s'.view other = s.view other
  users : ∀ other, (s'.entry other).users = (s.entry other).users
  tasks : ∀ t, s.task t = .running ∨ s.task t = .stopping
    → (s'.task t = .running ∨ s'.task t = .stopping)
      ∧ (s.task t = .stopping → s'.task t = .stopping)
  mutex : ∀ owner, s'.kernel.safetyMutex = some owner → s.kernel.safetyMutex = some owner
  located : (s.kernel.pageAllocated = true → s.safetyPage.isSome = true)
    → s'.kernel.pageAllocated = true → s'.safetyPage.isSome = true

theorem view_setEntry (m other : KernelModule) (entry : ProcEntry)
    : (s.setEntry m entry).view other
      = if other = m then { s.view m with linked := entry.linked } else s.view other := by
  by_cases same : other = m
  · subst same
    simp [Host.view, Host.setEntry]
  · simp [Host.view, Host.setEntry, same]

theorem view_setTask (t : KThread) (m : KernelModule) (task : TaskState)
    : (s.setTask t task).view m
      = if m = t.module then
          { s.view m with tasks := Function.update (s.view m).tasks t task.spawned }
        else s.view m := by
  by_cases same : m = t.module
  · subst same
    refine View.ext ?_ ?_ ?_ ?_ ?_ ?_ ?_ ?_ ?_ (funext (fun other => ?_)) <;>
      simp only [if_pos, Host.view, Host.setTask]
    by_cases own : other = t
    · subst own
      simp
    · simp [Function.update_of_ne own]
  · rw [if_neg same]
    refine View.ext rfl rfl rfl rfl rfl rfl rfl rfl rfl (funext (fun other => ?_))
    simp only [Host.view, Host.setTask]
    by_cases own : other = t
    · subst own
      rw [if_neg (Ne.symm same), if_neg (Ne.symm same)]
    · rw [Function.update_of_ne own]

/-- An operation that leaves the entries and the tasks alone. -/
theorem Effect.of_fields {m : KernelModule} {v : View} (phase : s'.phase = s.phase)
    (entry : s'.entry = s.entry) (task : s'.task = s.task)
    (mutex : ∀ owner, s'.kernel.safetyMutex = some owner → s.kernel.safetyMutex = some owner)
    (view : s'.view m = v) (others : ∀ other, other ≠ m → s'.view other = s.view other)
    (located : (s.kernel.pageAllocated = true → s.safetyPage.isSome = true)
      → s'.kernel.pageAllocated = true → s'.safetyPage.isSome = true)
    : Effect m v s s' where
  phase := phase
  view := view
  others := others
  users other := by rw [entry]
  tasks t active := by
    rw [task]
    exact ⟨active, id⟩
  mutex := mutex
  located := located

theorem kernel_effect {page : SafetyPage} {choice : Kernel.Choice} {operation : Op}
    {result : operation.Res} {k : State} {drained : Bool}
    (permitted : setup drained operation = true)
    (done : Kernel.exec page tid choice operation s.kernel = .done result k)
    : Effect .safetyMem ((s.view .safetyMem).after (.kernel operation) result) s
      { s with kernel := k } := by
  have frame : k.safetyMutex = s.kernel.safetyMutex
      ∧ (k.pageAllocated = true → s.kernel.pageAllocated = true)
      ∧ ({ s with kernel := k } : Host).view .safetyMem
        = (s.view .safetyMem).after (.kernel operation) result := by
    cases operation with
    | setSafetyBufPtr ptr => cases done; exact ⟨rfl, id, rfl⟩
    | store target value =>
        simp only [Kernel.exec] at done
        split at done
        · cases done; exact ⟨rfl, id, rfl⟩
        · cases done
    | setProtectedRange start stop => cases done; exact ⟨rfl, id, rfl⟩
    | walkPgtable ptr => cases ptr <;> cases done <;> exact ⟨rfl, id, rfl⟩
    | setInitialMapping info => cases done; exact ⟨rfl, id, rfl⟩
    | readCtxProtected => cases done; exact ⟨rfl, id, rfl⟩
    | setMemory target write =>
        simp only [Kernel.exec] at done
        split at done
        · cases done; cases target <;> exact ⟨rfl, id, rfl⟩
        · cases done; exact ⟨rfl, id, rfl⟩
    | vunmap => cases done; exact ⟨rfl, id, rfl⟩
    | freePages => cases done; exact ⟨rfl, fun none => absurd none Bool.false_ne_true, rfl⟩
    | _ => cases permitted
  obtain ⟨mutex, allocated, view⟩ := frame
  refine .of_fields rfl rfl rfl (fun _ owns => mutex ▸ owns) view (fun other different => ?_)
    (fun located found => located (allocated found))
  simp [Host.view, different]

/-- An operation that changes nothing but what the view shows. -/
theorem Effect.of_kept {m : KernelModule} {v : View} (phase : s'.phase = s.phase)
    (entry : s'.entry = s.entry) (task : s'.task = s.task) (kernel : s'.kernel = s.kernel)
    (page : s'.safetyPage = s.safetyPage) (view : s'.view m = v)
    (others : ∀ other, other ≠ m → s'.view other = s.view other)
    : Effect m v s s' := by
  refine .of_fields phase entry task (fun _ owns => kernel ▸ owns) view others (fun located => ?_)
  rw [kernel, page]
  exact located

theorem Effect.refl (m : KernelModule) (s : Host) : Effect m (s.view m) s s :=
  .of_kept rfl rfl rfl rfl rfl rfl (fun _ _ => rfl)

theorem Effect.of_linked (m : KernelModule) (linked : Bool)
    : Effect m { s.view m with linked } s (s.setEntry m { s.entry m with linked }) where
  phase := rfl
  view := by rw [view_setEntry, if_pos rfl]
  others other different := by rw [view_setEntry, if_neg different]
  users other := by
    by_cases same : other = m
    · subst same
      simp [Host.setEntry]
    · simp [Host.setEntry, same]
  tasks t active := ⟨active, id⟩
  mutex _ owns := owns
  located located := located

/-- A task is started, asked to stop, or collected after its end. -/
theorem Effect.of_task (t : KThread) (task : TaskState)
    (active : s.task t = .running ∨ s.task t = .stopping → task = .stopping)
    : Effect t.module
        { s.view t.module with tasks := Function.update (s.view t.module).tasks t task.spawned }
        s (s.setTask t task) where
  phase := rfl
  view := by rw [view_setTask, if_pos rfl]
  others other different := by rw [view_setTask, if_neg different]
  users other := rfl
  tasks other isActive := by
    by_cases same : other = t
    · subst same
      simp only [Host.setTask, Function.update_self, active isActive]
      exact ⟨.inr trivial, fun _ => trivial⟩
    · simp only [Host.setTask, Function.update_of_ne same]
      exact ⟨isActive, id⟩
  mutex _ owns := owns
  located located := located

theorem view_tasks (t : KThread) : (s.view t.module).tasks t = (s.task t).spawned := if_pos rfl

theorem task_of_spawned_no {task : TaskState} (h : task.spawned = .no) : task = .none := by
  cases task with
  | none => rfl
  | _ => cases h

theorem task_of_spawned_running {task : TaskState} (h : task.spawned = .running)
    : task = .running := by
  cases task with
  | running => rfl
  | _ => cases h

theorem task_of_spawned_stopping {task : TaskState} (h : task.spawned = .stopping)
    : task = .stopping ∨ task = .exited := by
  cases task with
  | stopping => exact .inl rfl
  | exited => exact .inr rfl
  | _ => cases h

/-- What an operation of an `init` or `exit` function returns, and what it does. -/
theorem change_effect {m : KernelModule} {direction : Direction} {drained : Bool}
    {choice : HostChoice} {operation : HostOp} {result : operation.Res}
    (kept : operation.settles = false)
    (permitted : Changes m direction (s.view m) drained operation)
    (located : s.kernel.pageAllocated = true → s.safetyPage.isSome = true)
    (done : exec tid choice operation s = .done result s')
    : Possible (s.view m) operation result
      ∧ Effect m ((s.view m).after operation result) s s' := by
  cases operation with
  | moduleLive m' => cases kept
  | freeModule m' => cases kept
  | kernel operation =>
      obtain ⟨rfl, page, allowed⟩ := permitted
      simp only [exec] at done
      split at done
      · cases done
      · split at done
        · rename_i executed
          cases done
          exact ⟨trivial, kernel_effect allowed executed⟩
        · cases done
        · cases done
  | atomicSet counter =>
      cases counter <;> cases done <;>
        exact ⟨trivial, .of_fields rfl rfl rfl (fun _ owns => owns) rfl (fun _ _ => rfl) id⟩
  | allocSafetyPage =>
      obtain ⟨rfl, _, unallocated⟩ := permitted
      simp only [exec] at done
      split at done
      · cases done
        rw [View.after, Option.isSome_none, ← unallocated]
        exact ⟨trivial, .refl _ _⟩
      · cases done
        refine ⟨trivial, .of_fields rfl rfl rfl (fun _ owns => owns) rfl ?_ (fun _ _ => rfl)⟩
        intro other different
        simp [Host.view, different]
  | safetyPage =>
      obtain ⟨rfl, allocated⟩ := permitted
      cases done
      exact ⟨located allocated, .refl _ _⟩
  | setSmmuActive active =>
      cases permitted
      cases done
      refine ⟨trivial, .of_kept rfl rfl rfl rfl rfl rfl (fun other different => ?_)⟩
      simp [Host.view, different]
  | procCreate m' =>
      obtain ⟨rfl, _, unlinked, _⟩ := permitted
      simp only [exec] at done
      split at done
      · cases done
        exact ⟨trivial, .of_linked _ true⟩
      · cases done
        rw [View.after, ← unlinked]
        exact ⟨trivial, .refl _ _⟩
  | unlinkProc m' =>
      obtain ⟨rfl, _⟩ := permitted
      cases done
      exact ⟨trivial, .of_linked _ false⟩
  | drainProc m' =>
      simp only [exec] at done
      split at done
      · cases done
        exact ⟨trivial, .refl _ _⟩
      · cases done
  | registerDieNotifier =>
      obtain ⟨rfl, unregistered⟩ := permitted
      simp only [exec] at done
      split at done
      · cases done
        refine ⟨le_refl 0, .of_kept rfl rfl rfl rfl rfl rfl (fun other different => ?_)⟩
        simp [Host.view, different]
      · rename_i failed
        cases done
        refine ⟨neg_nonpos.mpr (Int.natCast_nonneg _), ?_⟩
        have nonzero : (-(choice.errno : Int)) ≠ 0 := by omega
        rw [View.after, decide_eq_false nonzero, ← unregistered]
        exact .refl _ _
  | kthreadRun t =>
      obtain ⟨rfl, unstarted⟩ := permitted
      simp only [exec] at done
      split at done
      · cases done
        refine ⟨le_refl 0, .of_task t .running (fun active => ?_)⟩
        rw [view_tasks] at unstarted
        rw [task_of_spawned_no unstarted] at active
        rcases active with impossible | impossible <;> cases impossible
      · rename_i failed
        cases done
        refine ⟨neg_nonpos.mpr (Int.natCast_nonneg _), ?_⟩
        have nonzero : (-(choice.errno : Int)) ≠ 0 := by omega
        rw [View.after_kthreadRun_failed nonzero]
        exact .refl _ _
  | taskOf t =>
      cases permitted
      cases done
      refine ⟨?_, .refl _ _⟩
      simp only [Possible, view_tasks]
      cases s.task t <;> rfl
  | requestStop t =>
      obtain ⟨rfl, _⟩ := permitted
      cases done
      exact ⟨trivial, .of_task t .stopping (fun _ => rfl)⟩
  | awaitExit t =>
      obtain ⟨rfl, _⟩ := permitted
      simp only [exec] at done
      split at done
      · rename_i exited
        cases done
        refine ⟨trivial, .of_task t .none (fun active => ?_)⟩
        rw [exited] at active
        rcases active with impossible | impossible <;> cases impossible
      · cases done
  | platformDeviceRegister =>
      obtain ⟨rfl, unregistered⟩ := permitted
      simp only [exec] at done
      split at done
      · cases done
        refine ⟨trivial, .of_kept rfl rfl rfl rfl rfl rfl (fun other different => ?_)⟩
        simp [Host.view, different]
      · cases done
        rw [View.after, ← unregistered]
        exact ⟨trivial, .refl _ _⟩
  | iommuDomainAlloc =>
      obtain ⟨rfl, _⟩ := permitted
      simp only [exec] at done
      split at done
      · cases done
        refine ⟨trivial, .of_kept rfl rfl rfl rfl rfl rfl (fun other different => ?_)⟩
        simp [Host.view, different]
      · cases done
        exact ⟨trivial, .refl _ _⟩
  | dummyPdev | guardDomain =>
      cases permitted
      cases done
      exact ⟨rfl, .refl _ _⟩
  | iommuAttachDevice =>
      obtain ⟨rfl, _, _, unattached⟩ := permitted
      simp only [exec] at done
      split at done
      · cases done
        refine ⟨trivial, .of_kept rfl rfl rfl rfl rfl rfl (fun other different => ?_)⟩
        simp [Host.view, different]
      · rename_i failed
        cases done
        have nonzero : (-(choice.errno : Int)) ≠ 0 := by omega
        rw [View.after, decide_eq_false nonzero, ← unattached]
        exact ⟨trivial, .refl _ _⟩
  | unregisterDieNotifier | platformDeviceUnregister | iommuSetFaultHandler | iommuDetachDevice
  | iommuDomainFree =>
      obtain ⟨rfl, _⟩ := permitted
      cases done
      refine ⟨trivial, .of_kept rfl rfl rfl rfl rfl rfl (fun other different => ?_)⟩
      simp [Host.view, different]
  | _ => exact False.elim permitted

/-- What is known about the users of the module's file stays true. -/
theorem change_drained {m : KernelModule} {direction : Direction} {drained : Bool}
    {choice : HostChoice} {operation : HostOp} {result : operation.Res}
    (permitted : Changes m direction (s.view m) drained operation)
    (known : drained = true → (s.view m).linked = false ∧ (s.entry m).users = [])
    (effect : Effect m ((s.view m).after operation result) s s')
    (done : exec tid choice operation s = .done result s')
    (after : drainedAfter drained operation result = true)
    : ((s.view m).after operation result).linked = false ∧ (s'.entry m).users = [] := by
  rw [effect.users]
  cases operation with
  | procCreate m' =>
      obtain ⟨was, failed⟩ := Bool.and_eq_true_iff.mp after
      exact ⟨Bool.not_eq_true' _ ▸ failed, (known was).2⟩
  | unlinkProc m' => cases after
  | drainProc m' =>
      obtain ⟨rfl, unlinked⟩ := permitted
      simp only [exec] at done
      split at done
      · rename_i empty
        exact ⟨unlinked, empty⟩
      · cases done
  | kernel operation => cases operation <;> exact known after
  | kthreadRun t =>
      rw [show ((s.view m).after (.kthreadRun t) result).linked = (s.view m).linked by
        rw [View.after]; split <;> rfl]
      exact known after
  | iommuDomainAlloc =>
      rw [show ((s.view m).after .iommuDomainAlloc result).linked = (s.view m).linked by
        rw [View.after]; split <;> rfl]
      exact known after
  | _ => exact known after

/-- Whoever can be in the status file still finds the page. -/
theorem change_serving {m : KernelModule} {direction : Direction} {drained : Bool}
    {operation : HostOp} {result : operation.Res}
    (permitted : Changes m direction (s.view m) drained operation)
    (known : drained = true → (s.view m).linked = false ∧ (s.entry m).users = [])
    (inv : Invariant s) (effect : Effect m ((s.view m).after operation result) s s')
    (serves : (s'.entry .safetyMem).linked = true ∨ (s'.entry .safetyMem).users ≠ [])
    : s'.kernel.pageAllocated = true := by
  rw [effect.users] at serves
  by_cases own : m = .safetyMem
  · subst own
    show (s'.view .safetyMem).page = true
    have serves' : (s'.view .safetyMem).linked = true ∨ (s.entry .safetyMem).users ≠ [] := serves
    rw [effect.view] at serves' ⊢
    have before : (s.view .safetyMem).linked = true ∨ (s.entry .safetyMem).users ≠ []
        → (s.view .safetyMem).page = true := inv.serving
    cases operation with
    | procCreate m' => exact permitted.2.2.2 rfl
    | unlinkProc m' => exact before (serves'.imp_left (fun none => absurd none Bool.false_ne_true))
    | allocSafetyPage =>
        obtain ⟨-, -, unallocated⟩ := permitted
        exact absurd ((before serves').symm.trans unallocated) (Bool.false_ne_true ∘ Eq.symm)
    | kernel operation =>
        cases operation with
        | freePages =>
            obtain ⟨unlinked, unused⟩ := known permitted.2.2
            rcases serves' with linked | used
            · exact absurd (unlinked.symm.trans linked) Bool.false_ne_true
            · exact absurd unused used
        | _ => exact before serves'
    | kthreadRun t => exact absurd permitted.1 (by cases t <;> decide)
    | iommuDomainAlloc => cases permitted.1
    | _ => exact before serves'
  · have same := effect.others .safetyMem (Ne.symm own)
    have linked : (s'.entry .safetyMem).linked = (s.entry .safetyMem).linked :=
      congrArg View.linked same
    have page : s'.kernel.pageAllocated = s.kernel.pageAllocated := congrArg View.page same
    rw [page]
    rw [linked] at serves
    exact inv.serving serves

-----------------------------------------------------------------------------------------
-- Other tasks
-----------------------------------------------------------------------------------------

/-- An operation of another task, as far as it matters to what a task knows. -/
structure Apart (other : Nat) (s s' : Host) : Prop where
  phase : ∀ m direction,
    s'.phase m = .changing direction other ↔ s.phase m = .changing direction other
  view : ∀ m direction, s.phase m = .changing direction other → s'.view m = s.view m
  users : ∀ m, other ∈ (s'.entry m).users ↔ other ∈ (s.entry m).users
  drained : ∀ m direction, s.phase m = .changing direction other → (s.entry m).linked = false
    → (s.entry m).users = [] → (s'.entry m).users = []
  tasks : ∀ t, other = t.tid → s.task t = .running ∨ s.task t = .stopping
    → (s'.task t = .running ∨ s'.task t = .stopping)
      ∧ (s.task t = .stopping → s'.task t = .stopping)
  mutex : s'.kernel.safetyMutex = some other → s.kernel.safetyMutex = some other

theorem Holds.apart {other : Nat} {theirs : Known} (h : Holds other theirs s)
    (apart : Apart other s s')
    : Holds other theirs s' where
  phase m direction := (apart.phase m direction).trans (h.phase m direction)
  view m direction v drained stage := by
    obtain ⟨isView, known, unlocked⟩ := h.view m direction v drained stage
    have phase := (h.phase m direction).mpr ⟨v, drained, stage⟩
    refine ⟨(apart.view m direction phase).trans isView, fun was => ?_, unlocked⟩
    obtain ⟨unlinked, unused⟩ := known was
    refine ⟨unlinked, apart.drained m direction phase ?_ unused⟩
    rw [← isView] at unlinked
    exact unlinked
  users m := (apart.users m).trans (h.users m)
  task t asked stage := by
    obtain ⟨isTask, active, stops⟩ := h.task t asked stage
    obtain ⟨still, stopping⟩ := apart.tasks t isTask active
    exact ⟨isTask, still, fun was => stopping (stops was)⟩
  mutex owns := h.mutex (apart.mutex owns)
  outside := h.outside

/-- The functions of a module do not disturb what goes on elsewhere. -/
theorem Effect.apart {m : KernelModule} {v : View} {direction : Direction} {other : Nat}
    (effect : Effect m v s s') (own : s.phase m = .changing direction tid)
    (different : other ≠ tid)
    : Apart other s s' where
  phase m' direction' := by rw [effect.phase]
  view m' direction' theirs := by
    refine effect.others m' (fun same => ?_)
    rw [same, own] at theirs
    injection theirs with _ sameTask
    exact different sameTask.symm
  users m' := by rw [effect.users]
  drained m' _ _ _ unused := (effect.users m').trans unused
  tasks t _ active := effect.tasks t active
  mutex owns := effect.mutex other owns

-----------------------------------------------------------------------------------------
-- Stages
-----------------------------------------------------------------------------------------

/-- What a permitted operation of a task leads to. -/
structure Sequel (tid : Nat) (known : Known) (operation : HostOp) (result : operation.Res)
    (s s' : Host)
    : Prop where
  inv : Invariant s'
  learned : ∃ later, Learns known operation result later ∧ Holds tid later s'
  apart : ∀ other, other ≠ tid → Apart other s s'

/-- A change of the module's own things, in its `init` or `exit` function. -/
theorem sequel_change {m : KernelModule} {direction : Direction} {v : View} {drained : Bool}
    {choice : HostChoice} {operation : HostOp} {result : operation.Res} (inv : Invariant s)
    (holds : Holds tid ⟨.changing m direction v drained, false⟩ s)
    (kept : operation.settles = false) (permitted : Changes m direction v drained operation)
    (done : exec tid choice operation s = .done result s')
    : Sequel tid ⟨.changing m direction v drained, false⟩ operation result s s' := by
  obtain ⟨rfl, known, -⟩ := holds.view m direction v drained rfl
  have own := (holds.phase m direction).mpr ⟨_, drained, rfl⟩
  obtain ⟨possible, effect⟩ := change_effect kept permitted inv.located done
  refine ⟨?_, ⟨_, (changesTo_of_not_settles kept).mpr ⟨possible, rfl⟩, ?_⟩,
    fun other different => effect.apart own different⟩
  · have elsewhere : ∀ m', s.phase m' ≠ .changing direction tid → s'.view m' = s.view m' :=
      fun m' different => effect.others m' (fun same => different (same ▸ own))
    constructor
    · intro m' absent
      rw [effect.phase] at absent
      rw [effect.users, elsewhere m' (by rw [absent]; exact Phase.noConfusion)]
      exact inv.absent m' absent
    · intro m' live
      rw [effect.phase] at live
      have same := elsewhere m' (by rw [live]; exact Phase.noConfusion)
      rw [effect.users,
        show (s'.entry m').linked = (s.entry m').linked from congrArg View.linked same, same]
      exact inv.live m' live
    · rw [effect.phase]
      exact inv.linked
    · exact change_serving permitted known inv effect
    · exact effect.located inv.located
  · constructor
    · intro m' direction'
      rw [effect.phase, holds.phase]
      constructor
      · intro before
        obtain ⟨v', drained', stage⟩ := before
        injection stage with sameModule sameDirection
        rw [sameModule, sameDirection]
        exact ⟨_, _, rfl⟩
      · intro after
        obtain ⟨v', drained', stage⟩ := after
        injection stage with sameModule sameDirection
        rw [sameModule, sameDirection]
        exact ⟨_, _, rfl⟩
    · intro m' direction' v' drained' stage
      injection stage with sameModule sameDirection sameView sameDrained
      subst sameModule sameDirection sameView sameDrained
      exact ⟨effect.view, change_drained permitted known effect done, rfl⟩
    · intro m'
      rw [effect.users, holds.users]
      exact ⟨Stage.noConfusion, Stage.noConfusion⟩
    · intro t asked stage
      cases stage
    · exact fun owns => holds.mutex (effect.mutex tid owns)
    · intro stage
      cases stage

/-- A task that is outside of all modules. -/
theorem holds_rest (phase : ∀ m direction, s.phase m ≠ .changing direction tid)
    (users : ∀ m, tid ∉ (s.entry m).users) (mutex : s.kernel.safetyMutex ≠ some tid)
    : Holds tid .rest s where
  phase m direction := by
    refine ⟨fun own => absurd own (phase m direction), fun changing => ?_⟩
    obtain ⟨v, drained, stage⟩ := changing
    cases stage
  view m direction v drained stage := by cases stage
  users m := ⟨fun inside => absurd inside (users m), Stage.noConfusion⟩
  task t asked stage := by cases stage
  mutex owns := absurd owns mutex
  outside _ := rfl

theorem phase_setPhase_self (m : KernelModule) (phase : Phase)
    : (s.setPhase m phase).phase m = phase :=
  Function.update_self _ _ _

theorem phase_setPhase_of_ne {m other : KernelModule} (different : other ≠ m) (phase : Phase)
    : (s.setPhase m phase).phase other = s.phase other :=
  Function.update_of_ne different _ _

/-- A module is handed back to the kernel, with everything or with nothing. -/
theorem sequel_settle {m : KernelModule} {direction : Direction} {v v' : View} {drained : Bool}
    {phase : Phase} {operation : HostOp} {result : operation.Res} (inv : Invariant s)
    (holds : Holds tid ⟨.changing m direction v drained, false⟩ s) (effect : Effect m v' s s')
    (linked : v'.linked = v.linked) (page : v'.page = v.page)
    (settled : phase = .live ∧ Complete m v' ∧ (v.linked = true ∨ drained = true)
      ∨ phase = .absent ∧ v' = {} ∧ drained = true)
    (learns : Learns ⟨.changing m direction v drained, false⟩ operation result .rest)
    : Sequel tid ⟨.changing m direction v drained, false⟩ operation result s
        (s'.setPhase m phase) := by
  obtain ⟨rfl, known, -⟩ := holds.view m direction v drained rfl
  have own := (holds.phase m direction).mpr ⟨_, drained, rfl⟩
  have unused : ∀ user, m ∈ user.uses → s.phase user = .absent := by
    intro user member
    by_contra present
    rw [inv.linked user m member present] at own
    cases own
  have elsewhere : ∀ {m'}, m' ≠ m → (s'.setPhase m phase).phase m' = s.phase m' := by
    intro m' different
    rw [phase_setPhase_of_ne different, effect.phase]
  have statusFile : (s'.entry .safetyMem).linked = (s.entry .safetyMem).linked
      ∧ s'.kernel.pageAllocated = s.kernel.pageAllocated := by
    by_cases same : m = .safetyMem
    · subst same
      exact ⟨(congrArg View.linked effect.view).trans linked,
        (congrArg View.page effect.view).trans page⟩
    · have kept := effect.others .safetyMem (Ne.symm same)
      exact ⟨congrArg View.linked kept, congrArg View.page kept⟩
  refine ⟨?_, ⟨.rest, learns, ?_⟩, ?_⟩
  · constructor
    · intro m' absent
      refine ⟨?_, (effect.users m').trans ?_⟩
      · by_cases same : m' = m
        · subst same
          rw [phase_setPhase_self] at absent
          obtain ⟨live, -⟩ | ⟨-, empty, -⟩ := settled
          · rw [live] at absent
            cases absent
          · exact effect.view.trans empty
        · exact (effect.others m' same).trans (inv.absent m' (elsewhere same ▸ absent)).1
      · by_cases same : m' = m
        · subst same
          rw [phase_setPhase_self] at absent
          obtain ⟨live, -⟩ | ⟨-, -, was⟩ := settled
          · rw [live] at absent
            cases absent
          · exact (known was).2
        · exact (inv.absent m' (elsewhere same ▸ absent)).2
    · intro m' live
      by_cases same : m' = m
      · subst same
        rw [phase_setPhase_self] at live
        obtain ⟨-, complete, served⟩ | ⟨absent, -⟩ := settled
        · show Complete m' (s'.view m') ∧ ((s'.view m').linked = true ∨ (s'.entry m').users = [])
          rw [effect.view, effect.users, linked]
          exact ⟨complete, served.imp_right (fun was => (known was).2)⟩
        · rw [absent] at live
          cases live
      · show Complete m' (s'.view m') ∧ ((s'.view m').linked = true ∨ (s'.entry m').users = [])
        rw [effect.others m' same, effect.users]
        exact inv.live m' (elsewhere same ▸ live)
    · intro m' used member present
      have before : s.phase m' ≠ .absent := by
        by_cases same : m' = m
        · rw [same, own]
          exact Phase.noConfusion
        · exact elsewhere same ▸ present
      by_cases same : used = m
      · exact absurd (unused m' (same ▸ member)) before
      · rw [elsewhere same]
        exact inv.linked m' used member before
    · intro serves
      show s'.kernel.pageAllocated = true
      rw [statusFile.2]
      refine inv.serving ?_
      rw [← statusFile.1, ← effect.users]
      exact serves
    · exact effect.located inv.located
  · refine holds_rest (fun m' direction' changing => ?_) (fun m' inside => ?_) (fun owns => ?_)
    · by_cases same : m' = m
      · rw [same, phase_setPhase_self] at changing
        obtain ⟨live, -⟩ | ⟨absent, -⟩ := settled
        · rw [live] at changing
          cases changing
        · rw [absent] at changing
          cases changing
      · rw [elsewhere same] at changing
        obtain ⟨v', drained', stage⟩ := (holds.phase m' direction').mp changing
        injection stage with sameModule
        exact same sameModule.symm
    · have before : tid ∈ (s.entry m').users := effect.users m' ▸ inside
      exact Stage.noConfusion ((holds.users m').mp before)
    · exact Bool.false_ne_true (holds.mutex (effect.mutex tid owns))
  · intro other different
    have apart := effect.apart own different
    refine ⟨fun m' direction' => ?_, apart.view, apart.users, apart.drained, apart.tasks,
      apart.mutex⟩
    by_cases same : m' = m
    · rw [same, phase_setPhase_self, own]
      constructor
      · intro theirs
        obtain ⟨live, -⟩ | ⟨absent, -⟩ := settled
        · rw [live] at theirs
          cases theirs
        · rw [absent] at theirs
          cases theirs
      · intro theirs
        injection theirs with _ sameTask
        exact absurd sameTask.symm different
    · rw [elsewhere same]

end SafetyIsolation.Lifetimes

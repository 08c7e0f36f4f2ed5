import SafetyIsolation.Lifetimes.Soundness

/-! What the protocol guarantees in every reachable state: no code and no variable of a module is
used without the module, nothing is used before it is made or after it is released, and whatever
a module has made is released with it.
-/

namespace SafetyIsolation.Lifetimes

open SafetyIsolation.Interleaving SafetyIsolation.Kernel

variable {tid : Nat} {call : HostCall} {s : Host}

-----------------------------------------------------------------------------------------
-- Uses
-----------------------------------------------------------------------------------------

/-- What an operation takes for granted about the things it uses, makes or releases. A kernel
callback runs code of the module that has registered it.
-/
def Legal (s : Host) : HostOp → Prop
  | .moduleLive m => Complete m (s.view m)
  | .freeModule m =>
      (s.view m).Released ∧ (s.entry m).users = []
      ∧ ∀ user, m ∈ user.uses → s.phase user = .absent
  | .kernel operation =>
      usesPage operation = true → s.kernel.pageAllocated = true ∧ s.safetyPage.isSome = true
  | .read _ => s.kernel.pageAllocated = true ∧ s.safetyPage.isSome = true
  | .allocSafetyPage => s.kernel.pageAllocated = false
  | .safetyPage => s.kernel.pageAllocated = true ∧ s.safetyPage.isSome = true
  | .procCreate m => (s.entry m).linked = false
  | .unlinkProc m => (s.entry m).linked = true
  | .drainProc m => (s.entry m).linked = false
  | .registerDieNotifier => s.dieNotifier = false
  | .unregisterDieNotifier => s.dieNotifier = true
  | .notifyDie _ _ => s.dieNotifier = true → s.phase .ctxMonitor ≠ .absent
  | .kthreadRun t => s.task t = .none
  | .requestStop t => s.task t = .running
  | .awaitExit t => s.task t = .stopping ∨ s.task t = .exited
  | .kthreadShouldStop t => s.task t = .running ∨ s.task t = .stopping
  | .kthreadReturn t => s.task t = .stopping
  | .platformDeviceRegister => s.dummyPdev = false
  | .platformDeviceUnregister => s.dummyPdev = true ∧ s.attached = false
  | .iommuDomainAlloc => s.guardDomain = false
  | .iommuSetFaultHandler => s.guardDomain = true
  | .iommuAttachDevice => s.dummyPdev = true ∧ s.guardDomain = true ∧ s.attached = false
  | .iommuDetachDevice => s.dummyPdev = true ∧ s.guardDomain = true
  | .iommuDomainFree => s.guardDomain = true ∧ s.attached = false
  | .iommuFault _ _ => (s.attached && s.faultHandler) = true → s.phase .smmuGuard ≠ .absent
  | _ => True

/-- An operation uses only what is there. -/
structure Safe (s : Host) (call : HostCall) (operation : HostOp) : Prop where
  code : operation.inModule = true → ∃ m, call.module = some m ∧ s.phase m ≠ .absent
  uses : ∀ m ∈ operation.variables, s.phase m ≠ .absent
  legal : Legal s operation

/-- While a module is there, so are those it links to. -/
theorem Invariant.reach (inv : Invariant s) {m : KernelModule} (present : s.phase m ≠ .absent)
    : ∀ used ∈ m.reach, s.phase used ≠ .absent := by
  have step {user used : KernelModule} (member : used ∈ user.uses)
      (there : s.phase user ≠ .absent)
      : s.phase used ≠ .absent := by
    rw [inv.linked user used member there]
    exact Phase.noConfusion
  intro used member
  cases m with
  | ctxMonitor =>
      rw [List.mem_singleton.mp member]
      exact present
  | safetyMem =>
      rcases List.mem_cons.mp member with own | member
      · rw [own]
        exact present
      · rw [List.mem_singleton.mp member]
        exact step (by decide) present
  | smmuGuard | badDriver | mutexThreads | rogueThread =>
      have page : s.phase .safetyMem ≠ .absent := step (by decide) present
      rcases List.mem_cons.mp member with own | member
      · rw [own]
        exact present
      · rcases List.mem_cons.mp member with own | member
        · rw [own]
          exact page
        · rw [List.mem_singleton.mp member]
          exact step (by decide) page

/-- A module that owns something is there. -/
theorem Invariant.present (inv : Invariant s) {m : KernelModule} (owns : s.view m ≠ {})
    : s.phase m ≠ .absent :=
  fun absent => owns (inv.absent m absent).1

theorem setup_variables {drained : Bool} {operation : Op}
    (allowed : setup drained operation = true)
    : opVariables operation ⊆ KernelModule.safetyMem.reach := by
  cases operation with
  | setSafetyBufPtr _ | store _ _ | walkPgtable _ | setInitialMapping _ | readCtxProtected
  | setMemory _ _ | vunmap | freePages => exact List.cons_subset_cons _ (List.nil_subset _)
  | setProtectedRange _ _ => exact List.subset_cons_self _ _
  | _ => cases allowed

/-- An operation of the kernel around the modules. -/
theorem Safe.outside {operation : HostOp} (outside : operation.inModule = false)
    (unused : operation.variables = []) (legal : Legal s operation)
    : Safe s call operation where
  code inside := absurd (outside.symm.trans inside) Bool.false_ne_true
  uses m member := by
    rw [unused] at member
    cases member
  legal := legal

/-- A callback finds the module that has registered it. -/
theorem enters_safe {operation : HostOp} (inv : Invariant s) (permitted : Enters tid operation)
    : Safe s call operation := by
  cases operation with
  | loadModule m => exact .outside rfl rfl trivial
  | stopModule m => exact .outside rfl rfl trivial
  | usePde m => exact .outside rfl rfl trivial
  | schedule t => exact .outside rfl rfl trivial
  | notifyDie current data =>
      refine .outside rfl rfl (fun registered => inv.present (fun empty => ?_))
      have unregistered : s.dieNotifier = false := congrArg View.notifier empty
      exact Bool.false_ne_true (unregistered.symm.trans registered)
  | iommuFault devName iova =>
      refine .outside rfl rfl (fun registered => inv.present (fun empty => ?_))
      have unattached : s.attached = false := congrArg View.attached empty
      rw [unattached] at registered
      exact Bool.false_ne_true registered
  | _ => exact False.elim permitted

/-- An `init` or `exit` function finds what it uses and releases, and makes nothing twice. -/
theorem changes_safe {m : KernelModule} {direction : Direction} {drained : Bool}
    {operation : HostOp} (inv : Invariant s)
    (changing : s.phase m = .changing direction tid) (own : call = direction.call m)
    (known : drained = true → (s.view m).linked = false ∧ (s.entry m).users = [])
    (permitted : Changes m direction (s.view m) drained operation)
    : Safe s call operation := by
  have present : s.phase m ≠ .absent := by
    rw [changing]
    exact Phase.noConfusion
  have reach := inv.reach present
  have inside {operation : HostOp} (uses : operation.variables ⊆ m.reach)
      (legal : Legal s operation)
      : Safe s call operation := by
    refine ⟨fun _ => ⟨m, ?_, present⟩, fun used member => reach used (uses member), legal⟩
    rw [own, Direction.call_module]
  have self : m ∈ m.reach := by cases m <;> decide
  cases operation with
  | moduleLive m' =>
      obtain ⟨rfl, -, complete, -⟩ := permitted
      exact .outside rfl rfl complete
  | freeModule m' =>
      obtain ⟨rfl, isDrained, released⟩ := permitted
      refine .outside rfl rfl ⟨released, (known isDrained).2, fun user member => ?_⟩
      by_contra there
      rw [inv.linked user m' member there] at changing
      cases changing
  | kernel operation =>
      obtain ⟨rfl, page, allowed⟩ := permitted
      exact inside (setup_variables allowed) (fun _ => ⟨page, inv.located page⟩)
  | atomicSet counter =>
      cases permitted
      exact inside (List.cons_subset_cons _ (List.nil_subset _)) trivial
  | allocSafetyPage =>
      obtain ⟨rfl, -, unallocated⟩ := permitted
      exact inside (by decide) unallocated
  | safetyPage =>
      obtain ⟨rfl, page⟩ := permitted
      exact inside (by decide) ⟨page, inv.located page⟩
  | setSmmuActive active =>
      cases permitted
      exact inside (show [KernelModule.safetyMem] ⊆ KernelModule.smmuGuard.reach by decide) trivial
  | procCreate m' =>
      obtain ⟨rfl, -, unlinked, -⟩ := permitted
      exact inside (List.nil_subset _) unlinked
  | unlinkProc m' =>
      obtain ⟨rfl, linked⟩ := permitted
      exact inside (List.nil_subset _) linked
  | drainProc m' =>
      obtain ⟨rfl, unlinked⟩ := permitted
      exact inside (List.nil_subset _) unlinked
  | registerDieNotifier =>
      obtain ⟨rfl, unregistered⟩ := permitted
      exact inside (List.nil_subset _) unregistered
  | unregisterDieNotifier =>
      obtain ⟨rfl, registered⟩ := permitted
      exact inside (List.nil_subset _) registered
  | kthreadRun t =>
      obtain ⟨rfl, unstarted⟩ := permitted
      rw [view_tasks] at unstarted
      exact inside (List.nil_subset _) (task_of_spawned_no unstarted)
  | taskOf t =>
      cases permitted
      exact inside (List.cons_subset.mpr ⟨self, List.nil_subset _⟩) trivial
  | requestStop t =>
      obtain ⟨rfl, running⟩ := permitted
      rw [view_tasks] at running
      exact inside (List.nil_subset _) (task_of_spawned_running running)
  | awaitExit t =>
      obtain ⟨rfl, stopping⟩ := permitted
      rw [view_tasks] at stopping
      exact inside (List.nil_subset _) (task_of_spawned_stopping stopping)
  | platformDeviceRegister =>
      obtain ⟨rfl, unregistered⟩ := permitted
      exact inside (List.nil_subset _) unregistered
  | dummyPdev | guardDomain =>
      cases permitted
      exact inside (by decide) trivial
  | platformDeviceUnregister | iommuDetachDevice | iommuDomainFree | iommuSetFaultHandler =>
      obtain ⟨rfl, legal⟩ := permitted
      exact inside (List.nil_subset _) legal
  | iommuDomainAlloc =>
      obtain ⟨rfl, unallocated, -⟩ := permitted
      exact inside (List.nil_subset _) unallocated
  | iommuAttachDevice =>
      obtain ⟨rfl, legal⟩ := permitted
      exact inside (List.nil_subset _) legal
  | _ => exact False.elim permitted

/-- A file operation finds its module, those it links to and their page. -/
theorem handles_safe {m : KernelModule} {locked : Bool} {operation : HostOp} (inv : Invariant s)
    (holds : Holds tid ⟨.handling m, locked⟩ s) (own : call.module = some m)
    (permitted : Handles m locked operation)
    : Safe s call operation := by
  have present := holds.present inv
  have reach := inv.reach present
  have inside {operation : HostOp} (uses : operation.variables ⊆ m.reach)
      (legal : Legal s operation)
      : Safe s call operation :=
    ⟨fun _ => ⟨m, own, present⟩, fun used member => reach used (uses member), legal⟩
  have found (reaches : .safetyMem ∈ m.reach)
      : s.kernel.pageAllocated = true ∧ s.safetyPage.isSome = true :=
    ⟨holds.page inv reaches, inv.located (holds.page inv reaches)⟩
  have self : m ∈ m.reach := by cases m <;> decide
  cases operation with
  | kernel operation =>
      obtain ⟨reaches, uses, -⟩ := permitted
      exact inside uses (fun _ => found reaches)
  | read operation =>
      cases permitted
      exact inside (List.cons_subset_cons _ (List.nil_subset _)) (found List.mem_cons_self)
  | peek m' =>
      cases permitted
      exact inside (List.cons_subset.mpr ⟨self, List.nil_subset _⟩) trivial
  | peekSmmu =>
      cases permitted
      exact inside (List.cons_subset_cons _ (List.nil_subset _)) trivial
  | safetyPage =>
      exact inside (List.cons_subset.mpr ⟨permitted, List.nil_subset _⟩) (found permitted)
  | unusePde m' => exact .outside rfl rfl trivial
  | _ => exact False.elim permitted

/-- A thread function finds its module, those it links to and their page. -/
theorem turns_safe {t : KThread} {asked locked : Bool} {operation : HostOp} (inv : Invariant s)
    (holds : Holds tid ⟨.turning t asked, locked⟩ s)
    (own : operation.inModule = true → some t.module = call.module)
    (permitted : Turns t asked locked operation)
    : Safe s call operation := by
  obtain ⟨-, active, stops⟩ := holds.task t asked rfl
  have present : s.phase t.module ≠ .absent := by
    refine inv.present (fun empty => ?_)
    have unstarted : (s.task t).spawned = .no := by rw [← view_tasks, empty]
    rw [task_of_spawned_no unstarted] at active
    rcases active with impossible | impossible <;> cases impossible
  have inside {operation : HostOp} (own : some t.module = call.module)
      (uses : operation.variables ⊆ t.module.reach) (legal : Legal s operation)
      : Safe s call operation :=
    ⟨fun _ => ⟨t.module, own.symm, present⟩,
      fun used member => inv.reach present used (uses member), legal⟩
  cases operation with
  | kernel operation =>
      have page := inv.page_of_uses (show .safetyMem ∈ t.module.uses by cases t <;> decide) present
      exact inside (own rfl) permitted.1 (fun _ => ⟨page, inv.located page⟩)
  | kthreadShouldStop t' =>
      cases permitted
      exact inside (own rfl) (List.nil_subset _) active
  | msleepInterruptible t' => exact inside (own rfl) (List.nil_subset _) trivial
  | kthreadReturn t' =>
      obtain ⟨rfl, asked, -⟩ := permitted
      exact inside (own rfl) (List.nil_subset _) (stops asked)
  | _ => exact False.elim permitted

theorem Permits.safe {known : Known} {operation : HostOp} (inv : Invariant s)
    (holds : Holds tid known s) (permitted : Permits tid call known operation)
    : Safe s call operation := by
  obtain ⟨stage, locked⟩ := known
  cases stage with
  | outside => exact enters_safe inv permitted.2
  | changing m direction v drained =>
      obtain ⟨rfl, drained, -⟩ := holds.view m direction v drained rfl
      have changing := (holds.phase m direction).mpr ⟨_, _, rfl⟩
      exact changes_safe inv changing permitted.2.1 drained permitted.2.2
  | handling m => exact handles_safe inv holds permitted.2.1 permitted.2.2
  | turning t asked => exact turns_safe inv holds permitted.1 permitted.2

/-- A host with a page of memory to spare. -/
def sampleHost : Host := Host.boot 0 (samplePage true).directPath (samplePage true).vmallocPath

/-- What a module owns in each phase, and who works on it. -/
def Owned (c : HostConfig) (m : KernelModule) : Prop :=
  match c.world.state.phase m with
  | .absent => c.world.state.view m = {} ∧ (c.world.state.entry m).users = []
  | .changing direction tid =>
      c.threads tid = .dead ∨ ∃ code, c.threads tid = .running (direction.call m) code
  | .live =>
      Complete m (c.world.state.view m)
      ∧ ∀ used ∈ m.uses, c.world.state.phase used = .live

/-- A task that is not outside of all modules is in a call, unless it is dead. -/
theorem Understood.occupied {c : HostConfig} {known : Nat → Known}
    (h : protocol.Understood c known) (inside : (known tid).stage ≠ .outside)
    : c.threads tid = .dead
      ∨ ∃ call operation next, c.threads tid = .running call (.act operation next)
        ∧ Permits tid call (known tid) operation := by
  have informed := h.informed tid
  cases running : c.threads tid with
  | dead => exact .inl rfl
  | idle =>
      rw [running] at informed
      rw [show known tid = .rest from informed] at inside
      exact absurd rfl inside
  | running call code =>
      cases code with
      | ret value =>
          rw [running] at informed
          rw [show known tid = .rest from informed] at inside
          exact absurd rfl inside
      | act operation next => exact .inr ⟨call, operation, next, rfl, h.permitted running⟩

end SafetyIsolation.Lifetimes

import SafetyIsolation.Interleaving.Layers
import SafetyIsolation.Lifetimes.Soundness
import SafetyIsolation.Protection.FlagTruth

/-! What tasks know about the permissions of the safety page, on top of how the modules come and
go: all of them while they have `safety_mutex`, and that nobody else can change them while
`safety_mem` is set up.
-/

namespace SafetyIsolation.Lifetimes

open SafetyIsolation.Interleaving SafetyIsolation.Kernel SafetyIsolation.Protection

-----------------------------------------------------------------------------------------
-- Knowledge
-----------------------------------------------------------------------------------------

/-- What a task in kernel code knows of the safety page: which page it is, if it has been told,
and the permissions while it has the mutex.
-/
inductive Grasp where
  | outside (told : Option SafetyPage)
  | inside (page : SafetyPage) (perms : Permissions)

/-- What a task knows of the safety page: what code that uses it knows, or, while the task loads
or removes `safety_mem`, whether the page is as it has been allocated.
-/
inductive Access where
  | user (grasp : Grasp)
  | sole (fresh : Bool)

def Access.rest : Access := .user (.outside none)

/-- A walk of the page tables with the given permissions. -/
def Walked (page : SafetyPage) (perms : Permissions) (ptr : Option Alias) (info : WalkInfo)
    : Prop :=
  ∃ tid choice k k', Permissions.of k = perms
    ∧ Kernel.exec page tid choice (.walkPgtable ptr) k = .done info k'

/-- Kernel code changes the permissions and the flag only with the mutex, and releases it when
the flag tells the truth again.
-/
def Grasp.permits : Grasp → Op → Prop
  | .outside _, .mutexLock => True
  | .outside _, .mutexTrylock => True
  | .inside _ _, .setMemory _ _ => True
  | .inside _ _, .setCtxProtected _ => True
  | .inside page perms, .mutexUnlock => FlagTruthful page perms
  | _, operation => operation.quiet = true

/-- What a task finds when it gets the mutex. -/
def Grasp.Enters (told : Option SafetyPage) (later : Grasp) : Prop :=
  ∃ page perms, (∀ known, told = some known → known = page) ∧ FlagTruthful page perms
    ∧ perms.vmalloc.IsPage ∧ later = .inside page perms

def Grasp.learns : Grasp → (operation : Op) → operation.Res → Grasp → Prop
  | .outside told, .mutexLock, _, later => Enters told later
  | .outside told, .mutexTrylock, taken, later =>
      if taken = true then Enters told later else later = .outside told
  | .inside page perms, .setMemory target write, err, later =>
      later = .inside page (perms.attempt target write err)
  | .inside page perms, .setCtxProtected on, _, later =>
      later = .inside page { perms with flag := on }
  | .inside page perms, .walkPgtable ptr, info, later =>
      Walked page perms ptr info ∧ later = .inside page perms
  | .inside page _, .mutexUnlock, _, later => later = .outside (some page)
  | grasp, _, _, later => later = grasp

/-- With the mutex a task runs kernel code only, and the status file is not shown before the page
is set up.
-/
def Access.permits : Access → HostOp → Prop
  | .user grasp, .kernel operation => grasp.permits operation
  | .user (.outside _), _ => True
  | .user (.inside _ _), _ => False
  | .sole fresh, .procCreate _ => fresh = true
  | .sole _, _ => True

def Access.learns : Access → (operation : HostOp) → operation.Res → Access → Prop
  | .user grasp, .kernel operation, result, later =>
      ∃ grasp', grasp.learns operation result grasp' ∧ later = .user grasp'
  | .user _, .loadModule .safetyMem, ret, later =>
      later = if ret = 0 then .sole true else .rest
  | .user _, .stopModule .safetyMem, ret, later =>
      later = if ret = 0 then .sole false else .rest
  | .user _, .safetyPage, page, later => later = .user (.outside page)
  | .user _, _, _, later => later = .rest
  | .sole _, .moduleLive _, _, later => later = .rest
  | .sole _, .freeModule _, _, later => later = .rest
  | .sole _, .procCreate _, _, later => later = .sole false
  | .sole fresh, .kernel operation, _, later =>
      later = .sole (fresh && operation ≠ .vunmap)
  | .sole fresh, _, _, later => later = .sole fresh

-----------------------------------------------------------------------------------------
-- The invariant
-----------------------------------------------------------------------------------------

/-- Others can use `safety_mem`: it is loaded, or somebody may be in its file. -/
def Serving (s : Host) : Prop :=
  s.phase .safetyMem = .live ∨ (s.entry .safetyMem).linked = true
    ∨ (s.entry .safetyMem).users ≠ []

/-- What holds of the safety page in every state. -/
structure PageInvariant (s : Host) : Prop where
  absent : s.phase .safetyMem = .absent → s.kernel.ctxProtected = false
  mapped : Serving s → s.kernel.vmalloc.IsPage
  truthful : Serving s → s.kernel.safetyMutex = none
    → ∀ page, s.safetyPage = some page → FlagTruthful page (.of s.kernel)

/-- The stage is one in which kernel code may use the page. -/
def Stage.UsesPage : Stage → Prop
  | .handling m => .safetyMem ∈ m.reach
  | .turning _ _ => True
  | _ => False

/-- What a task that sets up or removes `safety_mem` finds as long as the page is fresh. -/
structure Fresh (direction : Direction) (v : View) (drained : Bool) (s : Host) : Prop where
  coming : direction = .coming
  hidden : v.linked = false ∧ drained = true
  unprotected : s.kernel.ctxProtected = false
  mapped : v.page = true → s.kernel.vmalloc.IsPage

/-- What the knowledge of a task says about the page. -/
def Accesses (tid : Nat) (known : Known) : Access → Host → Prop
  | .user (.outside told), s =>
      (∀ direction v drained, known.stage ≠ .changing .safetyMem direction v drained)
      ∧ ∀ page, told = some page → s.safetyPage = some page ∧ known.stage.UsesPage
  | .user (.inside page perms), s =>
      s.kernel.safetyMutex = some tid ∧ s.safetyPage = some page ∧ Permissions.of s.kernel = perms
      ∧ perms.vmalloc.IsPage ∧ known.stage.UsesPage
  | .sole fresh, s =>
      ∃ direction v drained, known.stage = .changing .safetyMem direction v drained
        ∧ (fresh = true → Fresh direction v drained s)

/-- How the permissions of the page are used. -/
def accessLayer : Protocol.Layer Host Nat HostCall HostOp HostOp.Res Known Access where
  inv := PageInvariant
  rest := .rest
  holds := Accesses
  permits _ _ := Access.permits
  learns := Access.learns

-----------------------------------------------------------------------------------------
-- Who can use the page
-----------------------------------------------------------------------------------------

variable {tid : Nat} {known : Known} {s s' : Host}

/-- Where kernel code may use the page, the page is there for others. -/
theorem Stage.UsesPage.serving (uses : known.stage.UsesPage) (inv : Invariant s)
    (holds : Holds tid known s)
    : Serving s := by
  have linksTo : ∀ {m : KernelModule}, .safetyMem ∈ m.uses → s.phase m ≠ .absent → Serving s :=
    fun links present => .inl (inv.linked _ _ links present)
  obtain ⟨stage, locked⟩ := known
  cases stage with
  | handling m =>
      have inside := (holds.users m).mpr rfl
      by_cases own : m = .safetyMem
      · rw [own] at inside
        exact .inr (.inr (List.ne_nil_of_mem inside))
      · refine linksTo ?_ (holds.present inv)
        revert own uses
        cases m <;> simp [Stage.UsesPage, KernelModule.reach, KernelModule.uses]
  | turning t asked =>
      obtain ⟨-, active, -⟩ := holds.task t asked rfl
      refine linksTo (m := t.module) (by cases t <;> decide) (fun absent => ?_)
      have none := congrFun (congrArg View.tasks (inv.absent _ absent).1) t
      rw [view_tasks] at none
      rw [task_of_spawned_no none] at active
      rcases active with impossible | impossible <;> cases impossible
  | outside => exact False.elim uses
  | changing m direction v drained => exact False.elim uses

/-- When nobody is left in `safety_mem`, it does not serve. -/
theorem Holds.not_serving {direction : Direction} {v : View}
    (holds : Holds tid known s) (stage : known.stage = .changing .safetyMem direction v true)
    : ¬ Serving s := by
  obtain ⟨rfl, drained, -⟩ := holds.view _ _ _ _ stage
  obtain ⟨unlinked, unused⟩ := drained rfl
  have changing := (holds.phase _ _).mpr ⟨_, _, stage⟩
  rintro (live | linked | used)
  · rw [changing] at live
    cases live
  · exact Bool.false_ne_true (unlinked.symm.trans linked)
  · exact used unused

/-- Without its page it does not serve either. -/
theorem Holds.not_serving_of_page {direction : Direction} {v : View} {drained : Bool}
    (inv : Invariant s) (holds : Holds tid known s)
    (stage : known.stage = .changing .safetyMem direction v drained) (unallocated : v.page = false)
    : ¬ Serving s := by
  obtain ⟨rfl, -, -⟩ := holds.view _ _ _ _ stage
  have changing := (holds.phase _ _).mpr ⟨_, _, stage⟩
  have page : s.kernel.pageAllocated = false := unallocated
  rintro (live | served)
  · rw [changing] at live
    cases live
  · exact Bool.false_ne_true (page.symm.trans (inv.serving served))

/-- A task with the mutex is no user of it in `init` and `exit` functions. -/
theorem Stage.UsesPage.not_changing {stage : Stage} (uses : stage.UsesPage)
    (m : KernelModule) (direction : Direction) (v : View) (drained : Bool)
    : stage ≠ .changing m direction v drained := by
  rintro rfl
  exact uses

end SafetyIsolation.Lifetimes

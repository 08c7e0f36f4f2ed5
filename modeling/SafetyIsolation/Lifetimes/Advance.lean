import SafetyIsolation.Lifetimes.Access

/-! Every permitted operation keeps the flag true between the uses of `safety_mutex`, tells its task
the truth about the page's permissions and spares what other tasks know of them.
-/

namespace SafetyIsolation.Lifetimes

open SafetyIsolation.Interleaving SafetyIsolation.Kernel SafetyIsolation.Protection

variable {tid : Nat} {call : HostCall} {known later : Known} {s s' : Host}

-----------------------------------------------------------------------------------------
-- What operations do to the page
-----------------------------------------------------------------------------------------

/-- What kernel code does in the system. -/
theorem kernel_done {choice : HostChoice} {operation : Op} {result : operation.Res}
    (done : exec tid choice (.kernel operation) s = .done result s')
    : ∃ page k', s.safetyPage = some page
      ∧ Kernel.exec page tid choice.kernel operation s.kernel = .done result k'
      ∧ s' = { s with kernel := k' } := by
  simp only [exec] at done
  split at done
  · cases done
  · rename_i page found
    split at done
    · rename_i executed
      cases done
      exact ⟨page, _, found, executed, rfl⟩
    · cases done
    · cases done

/-- The operation has nothing to do with the safety page's coming and going. -/
def HostOp.beside : HostOp → Bool
  | .loadModule m => m ≠ .safetyMem
  | .moduleLive m => m ≠ .safetyMem
  | .stopModule m => m ≠ .safetyMem
  | .freeModule m => m ≠ .safetyMem
  | .procCreate m => m ≠ .safetyMem
  | .unlinkProc m => m ≠ .safetyMem
  | .kernel operation => operation.quiet
  | .allocSafetyPage => false
  | _ => true

/-- A step that has nothing to do with the page. -/
structure Beside (s s' : Host) : Prop where
  phase : s'.phase .safetyMem = s.phase .safetyMem
  served : Serving s' → Serving s
  page : s'.safetyPage = s.safetyPage
  mutex : s'.kernel.safetyMutex = s.kernel.safetyMutex
  perms : Permissions.of s'.kernel = Permissions.of s.kernel

/-- A step that leaves the entries of the modules alone. -/
theorem Beside.of_kept (phase : s'.phase .safetyMem = s.phase .safetyMem)
    (entry : s'.entry .safetyMem = s.entry .safetyMem) (page : s'.safetyPage = s.safetyPage)
    (mutex : s'.kernel.safetyMutex = s.kernel.safetyMutex)
    (perms : Permissions.of s'.kernel = Permissions.of s.kernel)
    : Beside s s' := by
  refine ⟨phase, fun serves => ?_, page, mutex, perms⟩
  unfold Serving at serves ⊢
  rwa [phase, entry] at serves

theorem Beside.refl (s : Host) : Beside s s := ⟨rfl, id, rfl, rfl, rfl⟩

theorem Beside.of_phase {m : KernelModule} (other : m ≠ .safetyMem) (phase : Phase)
    : Beside s (s.setPhase m phase) :=
  .of_kept (Function.update_of_ne other.symm _ _) rfl rfl rfl rfl

theorem Beside.of_entry {m : KernelModule} (other : m ≠ .safetyMem) (entry : ProcEntry)
    : Beside s (s.setEntry m entry) :=
  .of_kept rfl (Function.update_of_ne other.symm _ _) rfl rfl rfl

/-- A task comes or goes as a user of a file. -/
theorem Beside.of_users {m : KernelModule} {users : List Nat}
    (used : (s.entry m).linked = true ∨ (users ≠ [] → (s.entry m).users ≠ []))
    : Beside s (s.setEntry m { s.entry m with users }) := by
  by_cases own : m = .safetyMem
  · subst own
    refine ⟨rfl, fun serves => ?_, rfl, rfl, rfl⟩
    unfold Serving at serves ⊢
    simp only [Host.setEntry, Function.update_self] at serves
    rcases serves with live | linked | inside
    · exact .inl live
    · exact .inr (.inl linked)
    · exact used.elim (fun linked => .inr (.inl linked)) (fun were => .inr (.inr (were inside)))
  · exact .of_entry own _

theorem Beside.freeModule {m : KernelModule} (other : m ≠ .safetyMem)
    : Beside s ((s.freshVariables m).setPhase m .absent) := by
  have phase : ((s.freshVariables m).setPhase m .absent).phase .safetyMem = s.phase .safetyMem := by
    rw [phase_setPhase_of_ne other.symm]
    cases m <;> rfl
  cases m with
  | safetyMem => exact absurd rfl other
  | _ => exact .of_kept phase rfl rfl rfl rfl

/-- An operation beside the page leaves it alone, by cases on the operation. -/
theorem exec_beside {choice : HostChoice} {operation : HostOp} {result : operation.Res}
    (beside : operation.beside = true) (done : exec tid choice operation s = .done result s')
    : Beside s s' := by
  cases operation with
  | loadModule m | stopModule m =>
      have other : m ≠ .safetyMem := of_decide_eq_true beside
      simp only [exec] at done
      split at done
      · cases done
        exact .refl s
      · first
          | (split at done <;> cases done <;> first | exact .refl s | exact .of_phase other _)
          | (cases done; exact .of_phase other _)
  | moduleLive m =>
      cases done
      exact .of_phase (of_decide_eq_true beside) _
  | freeModule m =>
      cases done
      exact .freeModule (of_decide_eq_true beside)
  | kernel operation =>
      obtain ⟨page, k', found, executed, rfl⟩ := kernel_done done
      obtain ⟨mutex, perms, -⟩ := exec_quiet beside executed
      exact .of_kept rfl rfl rfl mutex perms
  | atomicSet counter =>
      cases counter <;> cases done <;> exact .of_kept rfl rfl rfl rfl rfl
  | allocSafetyPage => cases beside
  | procCreate m =>
      simp only [exec] at done
      split at done
      · cases done
        exact .of_entry (of_decide_eq_true beside) _
      · cases done
        exact .refl s
  | unlinkProc m =>
      cases done
      exact .of_entry (of_decide_eq_true beside) _
  | usePde m =>
      simp only [exec] at done
      split at done
      · rename_i linked
        cases done
        exact .of_users (.inl linked)
      · cases done
        exact .refl s
  | unusePde m =>
      cases done
      refine .of_users (.inr (fun remain empty => remain ?_))
      rw [empty, List.filter_nil]
  | read _ | drainProc _ | registerDieNotifier | notifyDie _ _ | kthreadRun _ | awaitExit _
  | schedule _ | platformDeviceRegister | iommuDomainAlloc | iommuAttachDevice
  | iommuFault _ _ =>
      simp only [exec] at done
      split at done <;> cases done <;> exact .of_kept rfl rfl rfl rfl rfl
  | _ =>
      cases done
      exact .of_kept rfl rfl rfl rfl rfl

theorem Beside.inv (beside : Beside s s') (inv : PageInvariant s) : PageInvariant s' := by
  have unprotected : s'.kernel.ctxProtected = s.kernel.ctxProtected :=
    congrArg Permissions.flag beside.perms
  have vmalloc : s'.kernel.vmalloc = s.kernel.vmalloc := congrArg Permissions.vmalloc beside.perms
  constructor
  · intro absent
    rw [unprotected]
    exact inv.absent (beside.phase.symm.trans absent)
  · intro serves
    rw [vmalloc]
    exact inv.mapped (beside.served serves)
  · intro serves free page isPage
    rw [beside.perms]
    exact inv.truthful (beside.served serves) (beside.mutex.symm.trans free) page
      (beside.page.symm.trans isPage)

/-- What a step of a task leaves to the other ones. -/
structure Spares (tid : Nat) (s s' : Host) : Prop where
  page : Serving s → s'.safetyPage = s.safetyPage
  mutex : ∀ other, other ≠ tid → Serving s → s.kernel.safetyMutex = some other
    → s'.kernel.safetyMutex = some other ∧ Permissions.of s'.kernel = Permissions.of s.kernel
  perms : ¬ Serving s → (∀ direction, s.phase .safetyMem ≠ .changing direction tid)
    → Permissions.of s'.kernel = Permissions.of s.kernel

theorem Beside.spares (beside : Beside s s') : Spares tid s s' where
  page _ := beside.page
  mutex _ _ _ owns := ⟨beside.mutex.trans owns, beside.perms⟩
  perms _ _ := beside.perms

/-- What another task knows of the page stays true. -/
theorem Accesses.spared {other : Nat} {theirs : Known} {access : Access} (inv : Invariant s)
    (holds : Holds other theirs s) (knows : Accesses other theirs access s)
    (different : other ≠ tid) (spares : Spares tid s s')
    : Accesses other theirs access s' := by
  cases access with
  | user grasp =>
      cases grasp with
      | outside told =>
          refine ⟨knows.1, fun page isTold => ?_⟩
          obtain ⟨found, uses⟩ := knows.2 page isTold
          exact ⟨(spares.page (uses.serving inv holds)).trans found, uses⟩
      | inside page perms =>
          obtain ⟨owns, found, same, isPage, uses⟩ := knows
          have serving := uses.serving inv holds
          obtain ⟨owns', same'⟩ := spares.mutex other different serving owns
          exact ⟨owns', (spares.page serving).trans found, same'.trans same, isPage, uses⟩
  | sole fresh =>
      obtain ⟨direction, v, drained, stage, isFresh⟩ := knows
      refine ⟨direction, v, drained, stage, fun known => ?_⟩
      obtain ⟨coming, hidden, unprotected, mapped⟩ := isFresh known
      have kept : Permissions.of s'.kernel = Permissions.of s.kernel := by
        refine spares.perms (holds.not_serving (hidden.2 ▸ stage)) (fun theirs own => ?_)
        have changing := (holds.phase _ _).mpr ⟨_, _, stage⟩
        rw [changing] at own
        injection own with _ same
        exact different same
      refine ⟨coming, hidden, ?_, fun page => ?_⟩
      · exact (congrArg Permissions.flag kept).trans unprotected
      · rw [show s'.kernel.vmalloc = s.kernel.vmalloc from congrArg Permissions.vmalloc kept]
        exact mapped page

-----------------------------------------------------------------------------------------
-- Users of the page
-----------------------------------------------------------------------------------------

/-- What a permitted operation of a task means for the page. -/
structure Advance (tid : Nat) (access : Access) (operation : HostOp) (result : operation.Res)
    (later : Known) (s s' : Host)
    : Prop where
  inv : PageInvariant s'
  learned : ∃ access', access.learns operation result access' ∧ Accesses tid later access' s'
  spares : Spares tid s s'

theorem Beside.advance {access access' : Access} {operation : HostOp} {result : operation.Res}
    (beside : Beside s s') (inv : PageInvariant s)
    (learns : access.learns operation result access') (knows : Accesses tid later access' s')
    : Advance tid access operation result later s s' :=
  ⟨beside.inv inv, ⟨access', learns, knows⟩, beside.spares⟩

/-- Kernel code runs in file operations and thread functions, apart from `safety_mem`'s own
functions, and it stays there.
-/
theorem Permits.usesPage {operation : Op}
    (permitted : Permits tid call known (.kernel operation))
    (elsewhere : ∀ direction v drained, known.stage ≠ .changing .safetyMem direction v drained)
    : known.stage.UsesPage
      ∧ ∀ result later, Learns known (.kernel operation) result later
        → later.stage = known.stage := by
  obtain ⟨stage, locked⟩ := known
  cases stage with
  | outside => exact False.elim permitted.2
  | changing m direction v drained =>
      obtain ⟨rfl, -⟩ := permitted.2.2
      exact absurd rfl (elsewhere direction v drained)
  | handling m =>
      refine ⟨permitted.2.2.1, fun result later learned => ?_⟩
      rw [show later = _ from learned]
  | turning t asked =>
      refine ⟨trivial, fun result later learned => ?_⟩
      rw [show later = _ from learned]

/-- A task that gets the mutex finds a flag that tells the truth. -/
theorem Grasp.enters_of_free {told : Option SafetyPage} {page : SafetyPage} (inv : PageInvariant s)
    (serving : Serving s) (free : s.kernel.safetyMutex = none) (found : s.safetyPage = some page)
    (isTold : ∀ known, told = some known → s.safetyPage = some known)
    : Grasp.Enters told (.inside page (.of s.kernel)) :=
  ⟨page, _, fun known same => Option.some.inj ((isTold known same).symm.trans found),
    inv.truthful serving free page found, inv.mapped serving, rfl⟩

/-- Taking the mutex. -/
theorem advance_lock {told : Option SafetyPage} {page : SafetyPage} {operation : Op}
    {result : operation.Res} (inv : PageInvariant s) (serving : Serving s)
    (free : s.kernel.safetyMutex = none) (found : s.safetyPage = some page)
    (uses : later.stage.UsesPage)
    (isTold : ∀ known, told = some known → s.safetyPage = some known)
    (learns : ∀ grasp, Grasp.Enters told grasp
      → Grasp.learns (.outside told) operation result grasp)
    : Advance tid (.user (.outside told)) (.kernel operation) result later s
        { s with kernel := { s.kernel with safetyMutex := some tid } } where
  inv := ⟨inv.absent, inv.mapped, fun _ none => absurd none (Option.some_ne_none _)⟩
  learned := by
    refine ⟨.user (.inside page (.of s.kernel)), ⟨_, learns _ ?_, rfl⟩, rfl, found, rfl,
      inv.mapped serving, uses⟩
    exact Grasp.enters_of_free inv serving free found isTold
  spares := by
    refine ⟨fun _ => rfl, fun other _ _ owns => ?_, fun _ _ => rfl⟩
    exact absurd (owns.symm.trans free) (Option.some_ne_none _)

/-- Kernel code without the mutex. -/
theorem advance_outside {told : Option SafetyPage} {choice : HostChoice} {operation : Op}
    {result : operation.Res} (lower : protocol.About tid call known (.kernel operation) s)
    (inv : PageInvariant s) (knows : Accesses tid known (.user (.outside told)) s)
    (permitted : (Grasp.outside told).permits operation)
    (done : exec tid choice (.kernel operation) s = .done result s')
    (learned : Learns known (.kernel operation) result later)
    : Advance tid (.user (.outside told)) (.kernel operation) result later s s' := by
  obtain ⟨uses, stays⟩ := Permits.usesPage lower.permitted knows.1
  have serving := uses.serving lower.inv lower.holds
  have same := stays result later learned
  have usesLater : later.stage.UsesPage := same ▸ uses
  have isTold : ∀ page, told = some page → s.safetyPage = some page :=
    fun page isTold => (knows.2 page isTold).1
  have keeps {operation : Op} {result : operation.Res} (beside : Beside s s')
      (learns : Grasp.learns (.outside told) operation result (.outside told))
      : Advance tid (.user (.outside told)) (.kernel operation) result later s s' := by
    refine beside.advance inv ⟨_, learns, rfl⟩ ⟨?_, fun page isTold' => ?_⟩
    · rw [same]
      exact knows.1
    · exact ⟨beside.page.trans (isTold page isTold'), usesLater⟩
  have quietly (quiet : operation.quiet = true)
      (learns : Grasp.learns (.outside told) operation result (.outside told))
      : Advance tid (.user (.outside told)) (.kernel operation) result later s s' :=
    keeps (exec_beside (show HostOp.beside (.kernel operation) = true from quiet) done) learns
  cases operation with
  | mutexLock =>
      obtain ⟨page, k', found, executed, rfl⟩ := kernel_done done
      simp only [Kernel.exec] at executed
      split at executed
      · rename_i free
        cases executed
        exact advance_lock inv serving free found usesLater isTold (fun _ enters => enters)
      · cases executed
  | mutexTrylock =>
      obtain ⟨page, k', found, executed, rfl⟩ := kernel_done done
      simp only [Kernel.exec] at executed
      split at executed
      · rename_i free
        cases executed
        exact advance_lock inv serving free found usesLater isTold (fun _ enters => enters)
      · cases executed
        exact keeps (.refl s) rfl
  | mutexUnlock | clearMutexOwner | setMemory _ _ | setCtxProtected _ | setSafetyBufPtr _
  | setInitialMapping _ | procCreate | removeProcEntry | vunmap | freePages => cases permitted
  | _ => exact quietly rfl rfl

/-- The permission change of one alias keeps the other one's kind. -/
theorem attempt_isPage {perms : Permissions} (isPage : perms.vmalloc.IsPage) (target : Alias)
    (write : Bool) (err : Int)
    : (perms.attempt target write err).vmalloc.IsPage := by
  unfold Permissions.attempt
  split
  · cases target with
    | direct => exact isPage
    | vmalloc => exact isPage.setWrite write
  · exact isPage

/-- The effect of a permission change. -/
theorem setMemory_done {page : SafetyPage} {choice : Kernel.Choice} {target : Alias} {write : Bool}
    {err : Int} {k k' : State}
    (executed : Kernel.exec page tid choice (.setMemory target write) k = .done err k')
    : k'.safetyMutex = k.safetyMutex
      ∧ Permissions.of k' = (Permissions.of k).attempt target write err := by
  simp only [Kernel.exec] at executed
  split at executed
  · cases executed
    exact ⟨setWrite_safetyMutex k target write, Permissions.of_setWrite k target write⟩
  · rename_i failed
    cases executed
    exact ⟨rfl, by simp only [Permissions.attempt, if_neg failed]⟩

/-- The owner of the mutex changes the permissions. -/
theorem advance_held {page : SafetyPage} {perms perms' : Permissions} {operation : Op}
    {result : operation.Res} {k' : State} (inv : Invariant s) (holds : Holds tid known s)
    (knows : Accesses tid known (.user (.inside page perms)) s)
    (same : later.stage = known.stage) (mutex : k'.safetyMutex = s.kernel.safetyMutex)
    (changed : Permissions.of k' = perms') (isPage : perms'.vmalloc.IsPage)
    (learns : Grasp.learns (.inside page perms) operation result (.inside page perms'))
    : Advance tid (.user (.inside page perms)) (.kernel operation) result later s
        { s with kernel := k' } := by
  obtain ⟨owns, found, -, -, uses⟩ := knows
  have serving := uses.serving inv holds
  have owns' : k'.safetyMutex = some tid := mutex.trans owns
  refine ⟨⟨fun absent => ?_, fun _ => ?_, fun _ free => ?_⟩, ⟨_, ⟨_, learns, rfl⟩, owns', found,
    changed, isPage, ?_⟩, ⟨fun _ => rfl, fun other different _ theirs => ?_, fun unserved => ?_⟩⟩
  · have absent : s.phase .safetyMem = .absent := absent
    obtain ⟨empty, unused⟩ := inv.absent _ absent
    rcases serving with live | linked | used
    · rw [absent] at live
      cases live
    · have unlinked : (s.entry .safetyMem).linked = false := congrArg View.linked empty
      exact absurd (unlinked.symm.trans linked) Bool.false_ne_true
    · exact absurd unused used
  · rw [show k'.vmalloc = perms'.vmalloc from congrArg Permissions.vmalloc changed]
    exact isPage
  · exact absurd (owns'.symm.trans free) (Option.some_ne_none _)
  · rw [same]
    exact uses
  · exact absurd (Option.some.inj (theirs.symm.trans owns)) different
  · exact absurd serving unserved

/-- Releasing the mutex. -/
theorem advance_unlock {page : SafetyPage} {perms : Permissions} (pageInv : PageInvariant s)
    (knows : Accesses tid known (.user (.inside page perms)) s)
    (same : later.stage = known.stage) (truthful : FlagTruthful page perms)
    : Advance tid (.user (.inside page perms)) (.kernel .mutexUnlock) () later s
        { s with kernel := { s.kernel with safetyMutex := none } } := by
  obtain ⟨owns, found, rfl, -, uses⟩ := knows
  refine ⟨⟨pageInv.absent, pageInv.mapped, fun _ _ other isPage => ?_⟩,
    ⟨.user (.outside (some page)), ⟨_, rfl, rfl⟩, ?_, fun told isTold => ?_⟩,
    ⟨fun _ => rfl, fun other different _ theirs => ?_, fun _ _ => rfl⟩⟩
  · rw [← Option.some.inj (found.symm.trans isPage)]
    exact truthful
  · rw [same]
    exact uses.not_changing _
  · rw [← Option.some.inj isTold, same]
    exact ⟨found, uses⟩
  · exact absurd (Option.some.inj (theirs.symm.trans owns)) different

/-- Kernel code with the mutex. -/
theorem advance_inside {page : SafetyPage} {perms : Permissions} {choice : HostChoice}
    {operation : Op} {result : operation.Res}
    (lower : protocol.About tid call known (.kernel operation) s)
    (inv : PageInvariant s) (knows : Accesses tid known (.user (.inside page perms)) s)
    (permitted : (Grasp.inside page perms).permits operation)
    (done : exec tid choice (.kernel operation) s = .done result s')
    (learned : Learns known (.kernel operation) result later)
    : Advance tid (.user (.inside page perms)) (.kernel operation) result later s s' := by
  obtain ⟨found', isPerms, isPage, uses⟩ := knows.2
  have same := (Permits.usesPage lower.permitted (uses.not_changing _)).2 result later learned
  obtain ⟨page', k', found, executed, rfl⟩ := kernel_done done
  obtain rfl : page = page' := Option.some.inj (found'.symm.trans found)
  have quietly (quiet : operation.quiet = true)
      (learns : Grasp.learns (.inside page perms) operation result (.inside page perms))
      : Advance tid (.user (.inside page perms)) (.kernel operation) result later s
          { s with kernel := k' } := by
    obtain ⟨mutex, kept, -⟩ := exec_quiet quiet executed
    exact advance_held lower.inv lower.holds knows same mutex (kept.trans isPerms) isPage learns
  cases operation with
  | mutexUnlock =>
      cases executed
      exact advance_unlock inv knows same permitted
  | setMemory target write =>
      obtain ⟨mutex, changed⟩ := setMemory_done executed
      rw [isPerms] at changed
      exact advance_held lower.inv lower.holds knows same mutex changed
        (attempt_isPage isPage target write result) rfl
  | setCtxProtected on =>
      cases executed
      refine advance_held lower.inv lower.holds knows same rfl ?_ ?_ rfl
      · rw [← isPerms]
        rfl
      · exact isPage
  | walkPgtable ptr => exact quietly rfl ⟨⟨_, _, _, _, isPerms, executed⟩, rfl⟩
  | mutexLock | mutexTrylock | clearMutexOwner | setSafetyBufPtr _ | setInitialMapping _
  | procCreate | removeProcEntry | vunmap | freePages => cases permitted
  | _ => exact quietly rfl rfl

-----------------------------------------------------------------------------------------
-- The rest of the system
-----------------------------------------------------------------------------------------

/-- The stage is not one in `safety_mem`'s own functions. -/
def Stage.Elsewhere (stage : Stage) : Prop :=
  ∀ direction v drained, stage ≠ .changing .safetyMem direction v drained

theorem Stage.Elsewhere.rest : Known.rest.stage.Elsewhere := by
  intro direction v drained same
  cases same

/-- A task stays out of `safety_mem`'s own functions until it loads or removes it. -/
theorem Permits.elsewhere {operation : HostOp} {result : operation.Res}
    (permitted : Permits tid call known operation) (elsewhere : known.stage.Elsewhere)
    (beside : operation.beside = true) (learned : Learns known operation result later)
    : later.stage.Elsewhere := by
  obtain ⟨stage, locked⟩ := known
  have entered {m : KernelModule} {code : Int} {direction : Direction} {v : View} {drained : Bool}
      (other : m ≠ .safetyMem)
      (isLater : later = if code = 0 then ⟨.changing m direction v drained, false⟩ else .rest)
      : later.stage.Elsewhere := by
    rw [isLater]
    split
    · intro _ _ _ same
      injection same with same
      exact other same
    · exact .rest
  cases stage with
  | outside =>
      cases operation with
      | loadModule m => exact entered (of_decide_eq_true beside) learned
      | stopModule m =>
          have isLater : if result = 0 then ∃ v, _ else _ := learned
          split at isLater
          · obtain ⟨v, -, rfl⟩ := isLater
            intro _ _ _ same
            injection same with same
            exact of_decide_eq_true beside same
          · rw [isLater]
            exact .rest
      | usePde m =>
          rw [show later = if result = true then _ else _ from learned]
          split
          · exact fun _ _ _ same => Stage.noConfusion same
          · exact .rest
      | schedule t =>
          rw [show later = _ from learned]
          exact fun _ _ _ same => Stage.noConfusion same
      | notifyDie _ _ | iommuFault _ _ =>
          rw [show later = _ from learned]
          exact .rest
      | _ => exact False.elim permitted.2
  | changing m direction v drained =>
      by_cases settles : operation.settles = true
      · cases operation with
        | moduleLive m | freeModule m =>
            rw [show later = _ from learned]
            exact .rest
        | _ => cases settles
      · obtain ⟨-, rfl⟩ := (changesTo_of_not_settles (Bool.eq_false_iff.mpr settles)).mp learned
        intro _ _ _ same
        injection same with same
        subst same
        exact elsewhere _ _ _ rfl
  | handling m =>
      cases operation with
      | unusePde m' =>
          rw [show later = _ from learned]
          exact .rest
      | kernel operation =>
          rw [show later = _ from learned]
          exact fun _ _ _ same => Stage.noConfusion same
      | safetyPage =>
          rw [show later = _ from learned.2]
          exact fun _ _ _ same => Stage.noConfusion same
      | read operation | peek m' | peekSmmu =>
          rw [show later = _ from learned]
          exact fun _ _ _ same => Stage.noConfusion same
      | _ => exact False.elim permitted.2.2
  | turning t asked =>
      cases operation with
      | kernel operation | kthreadShouldStop t' =>
          rw [show later = _ from learned]
          exact fun _ _ _ same => Stage.noConfusion same
      | msleepInterruptible t' | kthreadReturn t' =>
          rw [show later = _ from learned]
          exact .rest
      | _ => exact False.elim permitted.2

theorem accesses_rest (elsewhere : later.stage.Elsewhere) : Accesses tid later .rest s' :=
  ⟨elsewhere, fun _ told => absurd told.symm (Option.some_ne_none _)⟩

/-- A task that does not know the permissions does something that has nothing to do with them. -/
theorem advance_beside {told : Option SafetyPage} {choice : HostChoice} {operation : HostOp}
    {result : operation.Res} (lower : protocol.About tid call known operation s)
    (inv : PageInvariant s) (elsewhere : known.stage.Elsewhere) (beside : operation.beside = true)
    (outer : ∀ operation', operation ≠ .kernel operation')
    (done : exec tid choice operation s = .done result s')
    (learned : Learns known operation result later)
    : Advance tid (.user (.outside told)) operation result later s s' := by
  have elsewhere' := Permits.elsewhere lower.permitted elsewhere beside learned
  have kept := exec_beside beside done
  cases operation with
  | kernel operation => exact absurd rfl (outer operation)
  | loadModule m | stopModule m =>
      cases m with
      | safetyMem => cases beside
      | _ => exact kept.advance inv rfl (accesses_rest elsewhere')
  | safetyPage =>
      cases done
      refine kept.advance inv rfl ⟨elsewhere', fun page found => ⟨found, ?_⟩⟩
      obtain ⟨stage, locked⟩ := known
      cases stage with
      | handling m =>
          rw [show later = _ from learned.2]
          exact lower.permitted.2.2
      | changing m direction v drained =>
          obtain rfl : m = .safetyMem := lower.permitted.2.2.1
          exact absurd rfl (elsewhere direction v drained)
      | outside | turning _ _ => exact False.elim lower.permitted.2
  | _ => exact kept.advance inv rfl (accesses_rest elsewhere')

/-- `safety_mem` starts to come or go. -/
theorem advance_change {told : Option SafetyPage} {operation : HostOp} {result : operation.Res}
    {direction : Direction} {v : View} {drained fresh : Bool} (inv : PageInvariant s)
    (stage : later.stage = .changing .safetyMem direction v drained)
    (learns : Access.learns (.user (.outside told)) operation result (.sole fresh))
    (served : Serving (s.setPhase .safetyMem (.changing direction tid)) → Serving s)
    (isFresh : fresh = true
      → Fresh direction v drained (s.setPhase .safetyMem (.changing direction tid)))
    : Advance tid (.user (.outside told)) operation result later s
        (s.setPhase .safetyMem (.changing direction tid)) where
  inv := by
    refine ⟨fun absent => ?_, fun serves => inv.mapped (served serves),
      fun serves => inv.truthful (served serves)⟩
    rw [phase_setPhase_self] at absent
    cases absent
  learned := ⟨_, learns, direction, v, drained, stage, isFresh⟩
  spares := ⟨fun _ => rfl, fun _ _ _ owns => ⟨owns, rfl⟩, fun _ _ => rfl⟩

theorem serving_of_setPhase {direction : Direction}
    (serves : Serving (s.setPhase .safetyMem (.changing direction tid)))
    : (s.entry .safetyMem).linked = true ∨ (s.entry .safetyMem).users ≠ [] := by
  refine serves.resolve_left (fun live => ?_)
  rw [phase_setPhase_self] at live
  cases live

theorem advance_load {told : Option SafetyPage} {choice : HostChoice} {ret : Int}
    (lower : protocol.About tid call known (.loadModule .safetyMem) s) (inv : PageInvariant s)
    (done : exec tid choice (.loadModule .safetyMem) s = .done ret s')
    (learned : Learns known (.loadModule .safetyMem) ret later)
    : Advance tid (.user (.outside told)) (.loadModule .safetyMem) ret later s s' := by
  obtain ⟨stage, locked⟩ := known
  cases stage with
  | outside =>
      have isLater
          : later = if ret = 0 then ⟨.changing .safetyMem .coming {} true, false⟩ else .rest :=
        learned
      have fails (failed : ret ≠ 0)
          : Advance tid (.user (.outside told)) (.loadModule .safetyMem) ret later s s := by
        refine (Beside.refl s).advance inv rfl ?_
        rw [if_neg failed, isLater, if_neg failed]
        exact accesses_rest .rest
      simp only [exec] at done
      split at done
      · rename_i code refused
        cases done
        refine fails (fun zero => ?_)
        unfold Host.loadable at refused
        split at refused
        · cases refused
          cases zero
        · split at refused
          · cases refused
          · cases refused
            cases zero
      · rename_i loads
        split at done
        · cases done
          have absent : s.phase .safetyMem = .absent := by
            unfold Host.loadable at loads
            split at loads
            · cases loads
            · rename_i absent
              exact not_not.mp absent
          obtain ⟨empty, unused⟩ := lower.inv.absent _ absent
          have unlinked : (s.entry .safetyMem).linked = false := congrArg View.linked empty
          rw [if_pos rfl] at isLater
          refine advance_change inv (congrArg Known.stage isLater) rfl (fun serves => ?_)
            (fun _ => ?_)
          · exact .inr (serving_of_setPhase serves)
          · exact ⟨rfl, ⟨rfl, rfl⟩, inv.absent absent, fun page => absurd page Bool.false_ne_true⟩
        · rename_i failed
          cases done
          exact fails (by omega)
  | changing m direction v drained => exact False.elim lower.permitted.2.2
  | handling m => exact False.elim lower.permitted.2.2
  | turning t asked => exact False.elim lower.permitted.2

theorem advance_stop {told : Option SafetyPage} {choice : HostChoice} {ret : Int}
    (lower : protocol.About tid call known (.stopModule .safetyMem) s) (inv : PageInvariant s)
    (done : exec tid choice (.stopModule .safetyMem) s = .done ret s')
    (learned : Learns known (.stopModule .safetyMem) ret later)
    : Advance tid (.user (.outside told)) (.stopModule .safetyMem) ret later s s' := by
  obtain ⟨stage, locked⟩ := known
  cases stage with
  | outside =>
      have isLater : if ret = 0 then
          ∃ v, Complete .safetyMem v ∧ later = ⟨.changing .safetyMem .going v (!v.linked), false⟩
          else later = .rest := learned
      simp only [exec] at done
      split at done
      · rename_i code refused
        cases done
        have failed : ret ≠ 0 := by
          rintro rfl
          unfold Host.stoppable at refused
          repeat' split at refused
          all_goals cases refused
        rw [if_neg failed] at isLater
        refine (Beside.refl s).advance inv rfl ?_
        rw [if_neg failed, isLater]
        exact accesses_rest .rest
      · cases done
        rw [if_pos rfl] at isLater
        obtain ⟨v, -, rfl⟩ := isLater
        refine advance_change inv rfl rfl (fun serves => ?_) (fun impossible => ?_)
        · exact .inr (serving_of_setPhase serves)
        · cases impossible
  | changing m direction v drained => exact False.elim lower.permitted.2.2
  | handling m => exact False.elim lower.permitted.2.2
  | turning t asked => exact False.elim lower.permitted.2

-----------------------------------------------------------------------------------------
-- `safety_mem`'s own functions
-----------------------------------------------------------------------------------------

/-- A step of `safety_mem`'s own functions while nobody else can use it. -/
theorem advance_hidden {fresh fresh' : Bool} {operation : HostOp} {result : operation.Res}
    {direction : Direction} {v : View} {drained : Bool}
    (own : s.phase .safetyMem = .changing direction tid) (phase : s'.phase = s.phase)
    (unserved : ¬ Serving s) (entry : s'.entry = s.entry)
    (stage : later.stage = .changing .safetyMem direction v drained)
    (learns : Access.learns (.sole fresh) operation result (.sole fresh'))
    (isFresh : fresh' = true → Fresh direction v drained s')
    : Advance tid (.sole fresh) operation result later s s' := by
  have unserved' : ¬ Serving s' := by
    unfold Serving at unserved ⊢
    rwa [phase, entry]
  refine ⟨⟨fun absent => ?_, fun serves => absurd serves unserved', fun serves => absurd serves
    unserved'⟩, ⟨_, learns, direction, v, drained, stage, isFresh⟩, ⟨fun serves => absurd serves
    unserved, fun _ _ serves => absurd serves unserved, fun _ other => ?_⟩⟩
  · rw [phase, own] at absent
    cases absent
  · exact absurd own (other direction)

/-- A step of `safety_mem`'s own functions that has nothing to do with the permissions. -/
theorem Beside.advance_sole {fresh : Bool} {operation : HostOp} {result : operation.Res}
    {direction : Direction} {v v' : View} {drained drained' : Bool} (beside : Beside s s')
    (inv : PageInvariant s) (isFresh : fresh = true → Fresh direction v drained s)
    (hidden : v.linked = false ∧ drained = true → v'.linked = false ∧ drained' = true)
    (page : v'.page = v.page) (stage : later.stage = .changing .safetyMem direction v' drained')
    (learns : Access.learns (.sole fresh) operation result (.sole fresh))
    : Advance tid (.sole fresh) operation result later s s' := by
  refine beside.advance inv learns ⟨direction, v', drained', stage, fun known => ?_⟩
  obtain ⟨coming, was, unprotected, mapped⟩ := isFresh known
  refine ⟨coming, hidden was, ?_, fun allocated => ?_⟩
  · exact (congrArg Permissions.flag beside.perms).trans unprotected
  · rw [show s'.kernel.vmalloc = s.kernel.vmalloc from congrArg Permissions.vmalloc beside.perms]
    exact mapped (page ▸ allocated)

/-- `procCreate` shows the page to others. -/
theorem advance_publish {fresh : Bool} {choice : HostChoice} {created : Bool}
    {direction : Direction} {v v' : View} {drained drained' : Bool} (inv : PageInvariant s)
    (isFresh : Fresh direction v drained s) (page : v.page = true)
    (stage : later.stage = .changing .safetyMem direction v' drained')
    (done : exec tid choice (.procCreate .safetyMem) s = .done created s')
    : Advance tid (.sole fresh) (.procCreate .safetyMem) created later s s' := by
  have none {access : Prop} (impossible : false = true) : access :=
    absurd impossible Bool.false_ne_true
  simp only [exec] at done
  split at done
  · cases done
    refine ⟨⟨inv.absent, fun _ => isFresh.mapped page, fun _ _ _ _ isSet => ?_⟩,
      ⟨_, rfl, direction, v', drained', stage, none⟩, ⟨fun _ => rfl, fun _ _ _ owns => ⟨owns, rfl⟩,
      fun _ _ => rfl⟩⟩
    exact absurd (isFresh.unprotected.symm.trans isSet) Bool.false_ne_true
  · cases done
    exact (Beside.refl s).advance inv rfl ⟨direction, v', drained', stage, none⟩

/-- Kernel code of `safety_mem_init` and `safety_mem_exit`. -/
theorem advance_setup {fresh : Bool} {choice : HostChoice} {operation : Op}
    {result : operation.Res} {direction : Direction} {v : View} {drained : Bool}
    (holds : Holds tid ⟨.changing .safetyMem direction v drained, false⟩ s)
    (inv : PageInvariant s) (isFresh : fresh = true → Fresh direction v drained s)
    (allowed : setup drained operation = true)
    (done : exec tid choice (.kernel operation) s = .done result s')
    (isLater : later = ⟨.changing .safetyMem direction (v.after (.kernel operation) result) drained,
      false⟩)
    : Advance tid (.sole fresh) (.kernel operation) result later s s' := by
  have own := (holds.phase _ _).mpr ⟨_, _, rfl⟩
  have stage : later.stage = .changing .safetyMem direction (v.after (.kernel operation) result)
      drained := congrArg Known.stage isLater
  have beside (beside : Beside s s') (other : operation ≠ .vunmap)
      (linked : (v.after (.kernel operation) result).linked = v.linked)
      (page : (v.after (.kernel operation) result).page = v.page)
      : Advance tid (.sole fresh) (.kernel operation) result later s s' := by
    refine beside.advance_sole inv isFresh ?_ page stage ?_
    · rw [linked]
      exact id
    · rw [Access.learns, decide_eq_true other, Bool.and_true]
  have quietly (quiet : operation.quiet = true) (other : operation ≠ .vunmap)
      (linked : (v.after (.kernel operation) result).linked = v.linked)
      (page : (v.after (.kernel operation) result).page = v.page)
      : Advance tid (.sole fresh) (.kernel operation) result later s s' :=
    beside (exec_beside (show HostOp.beside (.kernel operation) = true from quiet) done) other
      linked page
  cases operation with
  | setSafetyBufPtr ptr | setInitialMapping info =>
      obtain ⟨page, k', found, executed, rfl⟩ := kernel_done done
      cases executed
      exact beside (.of_kept rfl rfl rfl rfl rfl) (fun same => by cases same) rfl rfl
  | store _ _ | setProtectedRange _ _ | walkPgtable _ | readCtxProtected =>
      exact quietly rfl (fun same => by cases same) rfl rfl
  | setMemory target write =>
      obtain rfl : drained = true := allowed
      obtain ⟨page, k', found, executed, rfl⟩ := kernel_done done
      obtain ⟨-, changed⟩ := setMemory_done executed
      refine advance_hidden own rfl (holds.not_serving rfl) rfl stage rfl ?_
      intro known
      obtain ⟨coming, hidden, unprotected, mapped⟩ := isFresh (Bool.and_eq_true_iff.mp known).1
      refine ⟨coming, hidden, ?_, fun allocated => ?_⟩
      · refine (congrArg Permissions.flag changed).trans ?_
        rw [Permissions.attempt_flag]
        exact unprotected
      · show k'.vmalloc.IsPage
        rw [show k'.vmalloc = _ from congrArg Permissions.vmalloc changed]
        have wasMapped : (Permissions.of s.kernel).vmalloc.IsPage := mapped allocated
        exact attempt_isPage wasMapped target write result
  | vunmap =>
      obtain rfl : drained = true := allowed
      obtain ⟨page, k', found, executed, rfl⟩ := kernel_done done
      refine advance_hidden own rfl (holds.not_serving rfl) rfl stage rfl ?_
      intro known
      rw [decide_eq_false (not_not.mpr rfl), Bool.and_false] at known
      cases known
  | freePages =>
      obtain rfl : drained = true := allowed
      obtain ⟨page, k', found, executed, rfl⟩ := kernel_done done
      cases executed
      refine advance_hidden own rfl (holds.not_serving rfl) rfl stage rfl ?_
      intro known
      obtain ⟨coming, hidden, unprotected, -⟩ := isFresh (Bool.and_eq_true_iff.mp known).1
      exact ⟨coming, hidden, unprotected, fun allocated => absurd allocated Bool.false_ne_true⟩
  | _ => cases allowed

theorem advance_alloc {fresh : Bool} {choice : HostChoice} {page : Option SafetyPage}
    {v : View} {drained : Bool} (lower : Invariant s)
    (holds : Holds tid ⟨.changing .safetyMem .coming v drained, false⟩ s)
    (inv : PageInvariant s) (isFresh : fresh = true → Fresh .coming v drained s)
    (unallocated : v.page = false)
    (done : exec tid choice .allocSafetyPage s = .done page s')
    (isLater
      : later = ⟨.changing .safetyMem .coming (v.after .allocSafetyPage page) drained, false⟩)
    : Advance tid (.sole fresh) .allocSafetyPage page later s s' := by
  have own := (holds.phase _ _).mpr ⟨_, _, rfl⟩
  have stage := congrArg Known.stage isLater
  simp only [exec] at done
  split at done
  · cases done
    have page : (v.after .allocSafetyPage none).page = v.page := unallocated.symm
    refine (Beside.refl s).advance_sole inv isFresh ?_ page stage rfl
    exact id
  · rename_i page _
    cases done
    refine advance_hidden own rfl (holds.not_serving_of_page lower rfl unallocated) rfl stage rfl ?_
    intro known
    obtain ⟨coming, hidden, unprotected, -⟩ := isFresh known
    exact ⟨coming, hidden, unprotected, fun _ => page.vmalloc_page⟩

/-- `safety_mem` is handed back to the kernel. -/
theorem advance_settle {fresh : Bool} {choice : HostChoice} {operation : HostOp}
    {result : operation.Res} {direction : Direction} {v : View} {drained : Bool}
    (holds : Holds tid ⟨.changing .safetyMem direction v drained, false⟩ s)
    (inv : PageInvariant s) (settles : operation.settles = true)
    (permitted : Changes .safetyMem direction v drained operation)
    (done : exec tid choice operation s = .done result s')
    (learned : Learns ⟨.changing .safetyMem direction v drained, false⟩ operation result later)
    : Advance tid (.sole fresh) operation result later s s' := by
  obtain ⟨rfl, -, -⟩ := holds.view _ _ _ _ rfl
  have own := (holds.phase _ _).mpr ⟨_, _, rfl⟩
  cases operation with
  | moduleLive m =>
      obtain ⟨rfl, -, complete, -⟩ := permitted
      cases done
      rw [show later = _ from learned]
      have linked : (s.entry .safetyMem).linked = true := congrArg View.linked complete
      have serving : Serving s := .inr (.inl linked)
      refine ⟨⟨fun absent => ?_, fun _ => inv.mapped serving, fun _ => inv.truthful serving⟩,
        ⟨.rest, rfl, accesses_rest .rest⟩, ⟨fun _ => rfl, fun _ _ _ owns => ⟨owns, rfl⟩,
        fun _ _ => rfl⟩⟩
      rw [phase_setPhase_self] at absent
      cases absent
  | freeModule m =>
      obtain ⟨rfl, rfl, -⟩ := permitted
      cases done
      rw [show later = _ from learned]
      have unserved := holds.not_serving rfl
      have unserved' : ¬ Serving ((s.freshVariables .safetyMem).setPhase .safetyMem .absent) := by
        rintro (live | served)
        · rw [phase_setPhase_self] at live
          cases live
        · exact unserved (.inr served)
      exact ⟨⟨fun _ => rfl, fun serves => absurd serves unserved', fun serves => absurd serves
        unserved'⟩, ⟨.rest, rfl, accesses_rest .rest⟩, ⟨fun serves => absurd serves unserved,
        fun _ _ serves => absurd serves unserved, fun _ other => absurd own (other direction)⟩⟩
  | _ => cases settles

/-- An operation of `safety_mem`'s own functions. -/
theorem advance_sole {fresh : Bool} {choice : HostChoice} {operation : HostOp}
    {result : operation.Res} (lower : protocol.About tid call known operation s)
    (inv : PageInvariant s) (knows : Accesses tid known (.sole fresh) s)
    (permitted : (Access.sole fresh).permits operation)
    (done : exec tid choice operation s = .done result s')
    (learned : Learns known operation result later)
    : Advance tid (.sole fresh) operation result later s s' := by
  obtain ⟨direction, v, drained, stage, isFresh⟩ := knows
  obtain ⟨lowerInv, holds, -, changes⟩ := lower
  obtain ⟨_, locked⟩ := known
  obtain rfl : _ = Stage.changing .safetyMem direction v drained := stage
  obtain ⟨rfl, -, unlocked⟩ := holds.view _ _ _ _ rfl
  obtain rfl : locked = false := unlocked
  replace changes := changes.2
  by_cases settles : operation.settles = true
  · exact advance_settle holds inv settles changes done learned
  obtain ⟨-, isLater⟩ := (changesTo_of_not_settles (Bool.eq_false_iff.mpr settles)).mp learned
  have stage := congrArg Known.stage isLater
  cases operation with
  | kernel operation => exact advance_setup holds inv isFresh changes.2.2 done isLater
  | allocSafetyPage =>
      obtain ⟨-, rfl, unallocated⟩ := changes
      exact advance_alloc lowerInv holds inv isFresh unallocated done isLater
  | safetyPage =>
      exact (exec_beside rfl done).advance_sole inv isFresh id rfl stage rfl
  | procCreate m =>
      obtain ⟨rfl, -, -, page⟩ := changes
      exact advance_publish inv (isFresh permitted) (page rfl) stage done
  | unlinkProc m =>
      obtain ⟨rfl, linked⟩ := changes
      cases done
      have hidden : fresh = true → False := by
        intro known
        exact Bool.false_ne_true ((isFresh known).hidden.1.symm.trans linked)
      refine ⟨⟨inv.absent, fun serves => inv.mapped ?_, fun serves => inv.truthful ?_⟩,
        ⟨_, rfl, direction, _, _, stage, fun known => (hidden known).elim⟩,
        ⟨fun _ => rfl, fun _ _ _ owns => ⟨owns, rfl⟩, fun _ _ => rfl⟩⟩
      · exact .inr (.inl linked)
      · exact .inr (.inl linked)
  | drainProc m =>
      exact (exec_beside rfl done).advance_sole inv isFresh (fun was => ⟨was.1, rfl⟩) rfl stage rfl
  | moduleLive m | freeModule m => exact absurd rfl settles
  | setSmmuActive _ | atomicSet _ | dummyPdev | guardDomain => cases changes
  | registerDieNotifier | unregisterDieNotifier | platformDeviceRegister
  | platformDeviceUnregister | iommuDomainAlloc | iommuSetFaultHandler | iommuAttachDevice
  | iommuDetachDevice | iommuDomainFree => cases changes.1
  | taskOf t => exact absurd changes (by cases t <;> exact KernelModule.noConfusion)
  | kthreadRun t | requestStop t | awaitExit t =>
      exact absurd changes.1 (by cases t <;> exact KernelModule.noConfusion)
  | _ => exact False.elim changes

-----------------------------------------------------------------------------------------
-- Every operation
-----------------------------------------------------------------------------------------

/-- What a task does outside of kernel code has nothing to do with the page, unless it loads or
removes `safety_mem`.
-/
theorem Permits.beside {operation : HostOp} (permitted : Permits tid call known operation)
    (elsewhere : known.stage.Elsewhere) (outer : ∀ operation', operation ≠ .kernel operation')
    (load : operation ≠ .loadModule .safetyMem) (stop : operation ≠ .stopModule .safetyMem)
    : operation.beside = true := by
  obtain ⟨stage, locked⟩ := known
  cases stage with
  | outside =>
      cases operation with
      | loadModule m => exact decide_eq_true (fun same => load (congrArg _ same))
      | stopModule m => exact decide_eq_true (fun same => stop (congrArg _ same))
      | usePde _ | schedule _ | notifyDie _ _ | iommuFault _ _ => rfl
      | _ => exact False.elim permitted.2
  | changing m direction v drained =>
      have other : m ≠ .safetyMem := by
        rintro rfl
        exact elsewhere direction v drained rfl
      have changes := permitted.2.2
      cases operation with
      | kernel operation => exact absurd rfl (outer operation)
      | allocSafetyPage => exact absurd changes.1 other
      | moduleLive m' | freeModule m' | procCreate m' | unlinkProc m' =>
          exact decide_eq_true (changes.1 ▸ other)
      | loadModule _ | stopModule _ => exact False.elim changes
      | _ => rfl
  | handling m =>
      have handles := permitted.2.2
      cases operation with
      | kernel operation => exact absurd rfl (outer operation)
      | read _ | peek _ | peekSmmu | safetyPage | unusePde _ => rfl
      | _ => exact False.elim handles
  | turning t asked =>
      have turns := permitted.2
      cases operation with
      | kernel operation => exact absurd rfl (outer operation)
      | kthreadShouldStop _ | msleepInterruptible _ | kthreadReturn _ => rfl
      | _ => exact False.elim turns

/-- Every permitted operation keeps the invariant, what its task knows and what the others do. -/
theorem advance {access : Access} {choice : HostChoice} {operation : HostOp}
    {result : operation.Res} (lower : protocol.About tid call known operation s)
    (inv : PageInvariant s) (knows : Accesses tid known access s)
    (permitted : access.permits operation) (done : exec tid choice operation s = .done result s')
    (learned : Learns known operation result later)
    : Advance tid access operation result later s s' := by
  cases access with
  | sole fresh => exact advance_sole lower inv knows permitted done learned
  | user grasp =>
      cases grasp with
      | outside told =>
          by_cases kernel : ∃ operation', operation = .kernel operation'
          · obtain ⟨operation', rfl⟩ := kernel
            exact advance_outside lower inv knows permitted done learned
          · have outer : ∀ operation', operation ≠ .kernel operation' :=
              fun operation' same => kernel ⟨operation', same⟩
            by_cases load : operation = .loadModule .safetyMem
            · subst load
              exact advance_load lower inv done learned
            · by_cases stop : operation = .stopModule .safetyMem
              · subst stop
                exact advance_stop lower inv done learned
              · exact advance_beside lower inv knows.1
                  (Permits.beside lower.permitted knows.1 outer load stop) outer done learned
      | inside page perms =>
          cases operation with
          | kernel operation => exact advance_inside lower inv knows permitted done learned
          | _ => exact False.elim permitted

end SafetyIsolation.Lifetimes

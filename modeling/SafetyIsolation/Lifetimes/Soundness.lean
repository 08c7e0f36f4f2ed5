import SafetyIsolation.Lifetimes.Changes

/-! The steps outside of `init` and `exit` functions: entering a module, its file operations and
its thread functions. With them the protocol is sound for the whole system.
-/

namespace SafetyIsolation.Lifetimes

open SafetyIsolation.Interleaving SafetyIsolation.Kernel

variable {tid : Nat} {s s' : Host}

-----------------------------------------------------------------------------------------
-- Passages
-----------------------------------------------------------------------------------------

/-- A step of a task that leaves what the modules own as it is. It may come or go as a user of
a file that can be found.
-/
structure Passage (tid : Nat) (s s' : Host) : Prop where
  phase : s'.phase = s.phase
  view : ∀ m, s'.view m = s.view m
  page : s'.safetyPage = s.safetyPage
  unused : ∀ m, (s.entry m).linked = false → (s.entry m).users = [] → (s'.entry m).users = []
  users : ∀ m other, other ≠ tid → (other ∈ (s'.entry m).users ↔ other ∈ (s.entry m).users)
  tasks : ∀ t, tid ≠ t.tid → s'.task t = s.task t
  mutex : ∀ other, other ≠ tid → s'.kernel.safetyMutex = some other
    → s.kernel.safetyMutex = some other

theorem Passage.linked (passage : Passage tid s s') (m : KernelModule)
    : (s'.entry m).linked = (s.entry m).linked :=
  congrArg View.linked (passage.view m)

theorem Passage.allocated (passage : Passage tid s s')
    : s'.kernel.pageAllocated = s.kernel.pageAllocated :=
  congrArg View.page (passage.view .safetyMem)

theorem Passage.inv (passage : Passage tid s s') (inv : Invariant s) : Invariant s' := by
  constructor
  · intro m absent
    rw [passage.phase] at absent
    obtain ⟨empty, unused⟩ := inv.absent m absent
    refine ⟨(passage.view m).trans empty, passage.unused m ?_ unused⟩
    exact congrArg View.linked empty
  · intro m live
    rw [passage.phase] at live
    obtain ⟨complete, served⟩ := inv.live m live
    rw [passage.view, passage.linked]
    refine ⟨complete, ?_⟩
    cases found : (s.entry m).linked with
    | true => exact .inl rfl
    | false =>
        rw [found] at served
        exact .inr (passage.unused m found (served.resolve_left Bool.false_ne_true))
  · rw [passage.phase]
    exact inv.linked
  · intro serves
    rw [passage.allocated]
    rw [passage.linked] at serves
    refine inv.serving ?_
    by_contra unserved
    obtain ⟨unlinked, unused⟩ := not_or.mp unserved
    rcases serves with linked | used
    · exact unlinked linked
    · exact used (passage.unused _ (Bool.eq_false_iff.mpr unlinked) (not_not.mp unused))
  · rw [passage.allocated, passage.page]
    exact inv.located

theorem Passage.apart (passage : Passage tid s s') {other : Nat} (different : other ≠ tid)
    : Apart other s s' where
  phase m direction := by rw [passage.phase]
  view m _ _ := passage.view m
  users m := passage.users m other different
  drained m _ _ unlinked unused := passage.unused m unlinked unused
  tasks t own active := by
    rw [passage.tasks t (own ▸ different.symm)]
    exact ⟨active, id⟩
  mutex := passage.mutex other different

theorem Passage.sequel {known later : Known} {operation : HostOp} {result : operation.Res}
    (passage : Passage tid s s') (inv : Invariant s)
    (learns : Learns known operation result later) (holds : Holds tid later s')
    : Sequel tid known operation result s s' :=
  ⟨passage.inv inv, ⟨later, learns, holds⟩, fun _ different => passage.apart different⟩

/-- A step that neither comes nor goes anywhere. -/
theorem Passage.of_same (phase : s'.phase = s.phase) (entry : s'.entry = s.entry)
    (task : s'.task = s.task) (view : ∀ m, s'.view m = s.view m)
    (page : s'.safetyPage = s.safetyPage)
    (mutex : ∀ other, other ≠ tid → s'.kernel.safetyMutex = some other
      → s.kernel.safetyMutex = some other)
    : Passage tid s s' where
  phase := phase
  view := view
  page := page
  unused m _ unused := by rw [entry, unused]
  users m other _ := by rw [entry]
  tasks t _ := by rw [task]
  mutex := mutex

theorem Passage.refl (tid : Nat) (s : Host) : Passage tid s s :=
  .of_same rfl rfl rfl (fun _ => rfl) rfl (fun _ _ owns => owns)

-----------------------------------------------------------------------------------------
-- Kernel code
-----------------------------------------------------------------------------------------

/-- Ordinary kernel code keeps what `safety_mem_init` has set up, and takes the mutex only for
itself.
-/
theorem ordinary_frame {page : SafetyPage} {choice : Kernel.Choice} {operation : Op}
    {result : operation.Res} {k k' : State} {locked : Bool}
    (allowed : ordinary locked operation = true)
    (done : Kernel.exec page tid choice operation k = .done result k')
    : k'.pageAllocated = k.pageAllocated
      ∧ k'.safetyBufPtr = k.safetyBufPtr
      ∧ (∀ owner, k'.safetyMutex = some owner → k.safetyMutex = some owner ∨ owner = tid)
      ∧ ((k.safetyMutex = some tid → locked = true) → k'.safetyMutex = some tid
        → lockedAfter locked operation result = true) := by
  cases operation with
  | mutexLock =>
      simp only [Kernel.exec] at done
      split at done
      · cases done
        exact ⟨rfl, rfl, fun _ owns => .inr (Option.some.inj owns).symm, fun _ _ => rfl⟩
      · cases done
  | mutexTrylock =>
      simp only [Kernel.exec] at done
      split at done
      · cases done
        exact ⟨rfl, rfl, fun _ owns => .inr (Option.some.inj owns).symm, fun _ _ => rfl⟩
      · cases done
        refine ⟨rfl, rfl, fun _ owns => .inl owns, fun known owns => ?_⟩
        rw [known owns] at allowed
        cases allowed
  | mutexUnlock =>
      cases done
      exact ⟨rfl, rfl, fun _ owns => absurd owns.symm (Option.some_ne_none _),
        fun _ owns => absurd owns.symm (Option.some_ne_none _)⟩
  | clearMutexOwner =>
      cases done
      exact ⟨rfl, rfl, fun _ owns => absurd owns.symm (Option.some_ne_none _),
        fun _ owns => absurd owns.symm (Option.some_ne_none _)⟩
  | setMemory target write =>
      simp only [Kernel.exec] at done
      split at done
      · cases done
        cases target <;> exact ⟨rfl, rfl, fun _ owns => .inl owns, fun known owns => known owns⟩
      · cases done
        exact ⟨rfl, rfl, fun _ owns => .inl owns, fun known owns => known owns⟩
  | store target value =>
      simp only [Kernel.exec] at done
      split at done
      · cases done
        exact ⟨rfl, rfl, fun _ owns => .inl owns, fun known owns => known owns⟩
      · cases done
  | copyToKernelNofault target value =>
      simp only [Kernel.exec] at done
      split at done <;> cases done <;>
        exact ⟨rfl, rfl, fun _ owns => .inl owns, fun known owns => known owns⟩
  | walkPgtable ptr =>
      cases ptr <;> cases done <;>
        exact ⟨rfl, rfl, fun _ owns => .inl owns, fun known owns => known owns⟩
  | recordAttack field =>
      cases field <;> cases done <;>
        exact ⟨rfl, rfl, fun _ owns => .inl owns, fun known owns => known owns⟩
  | writeCounter counter value =>
      cases counter <;> cases done <;>
        exact ⟨rfl, rfl, fun _ owns => .inl owns, fun known owns => known owns⟩
  | atomicInc counter =>
      cases counter <;> cases done <;>
        exact ⟨rfl, rfl, fun _ owns => .inl owns, fun known owns => known owns⟩
  | setSafetyBufPtr ptr => cases allowed
  | setInitialMapping info => cases allowed
  | procCreate => cases allowed
  | removeProcEntry => cases allowed
  | vunmap => cases allowed
  | freePages => cases allowed
  | _ =>
      cases done
      exact ⟨rfl, rfl, fun _ owns => .inl owns, fun known owns => known owns⟩

/-- One operation of ordinary kernel code in the system. -/
theorem kernel_passage {choice : HostChoice} {operation : Op} {result : operation.Res}
    {locked : Bool} (allowed : ordinary locked operation = true)
    (mutex : s.kernel.safetyMutex = some tid → locked = true)
    (done : exec tid choice (.kernel operation) s = .done result s')
    : Passage tid s s' ∧ s'.entry = s.entry ∧ s'.task = s.task
      ∧ (s'.kernel.safetyMutex = some tid → lockedAfter locked operation result = true) := by
  simp only [exec] at done
  split at done
  · cases done
  · split at done
    · rename_i executed
      cases done
      obtain ⟨allocated, bufPtr, owner, own⟩ := ordinary_frame allowed executed
      refine ⟨.of_same rfl rfl rfl (fun m => ?_) rfl ?_, rfl, rfl, own mutex⟩
      · simp only [Host.view, allocated, bufPtr]
      · exact fun other different owns => (owner other owns).resolve_right different
    · cases done
    · cases done

-----------------------------------------------------------------------------------------
-- File operations and thread functions
-----------------------------------------------------------------------------------------

theorem Holds.not_changing {stage : Stage} {locked : Bool} (holds : Holds tid ⟨stage, locked⟩ s)
    (elsewhere : ∀ m direction v drained, stage ≠ .changing m direction v drained)
    (m : KernelModule) (direction : Direction)
    : s.phase m ≠ .changing direction tid := by
  intro changing
  obtain ⟨v, drained, stage⟩ := (holds.phase m direction).mp changing
  exact elsewhere m direction v drained stage

/-- A task in a file operation or a thread function stays there. -/
theorem Holds.stay {stage : Stage} {locked locked' : Bool} (holds : Holds tid ⟨stage, locked⟩ s)
    (elsewhere : ∀ m direction v drained, stage ≠ .changing m direction v drained)
    (inside : stage ≠ .outside) (phase : s'.phase = s.phase) (entry : s'.entry = s.entry)
    (task : s'.task = s.task)
    (mutex : s'.kernel.safetyMutex = some tid → locked' = true)
    : Holds tid ⟨stage, locked'⟩ s' where
  phase m direction := by
    rw [phase]
    exact holds.phase m direction
  view m direction v drained same := absurd same (elsewhere m direction v drained)
  users m := by
    rw [entry]
    exact holds.users m
  task t asked same := by
    rw [task]
    exact holds.task t asked same
  mutex := mutex
  outside same := absurd same inside

theorem users_setEntry (m other : KernelModule) (entry : ProcEntry)
    : ((s.setEntry m entry).entry other).users
      = if other = m then entry.users else (s.entry other).users := by
  by_cases same : other = m
  · subst same
    simp [Host.setEntry]
  · simp [Host.setEntry, same]

/-- The users of a file change by the task itself. -/
theorem users_passage {m : KernelModule} {users : List Nat}
    (found : (s.entry m).linked = true ∨ ((s.entry m).users = [] → users = []))
    (same : ∀ other, other ≠ tid → (other ∈ users ↔ other ∈ (s.entry m).users))
    : Passage tid s (s.setEntry m { s.entry m with users }) := by
  refine ⟨rfl, fun other => ?_, rfl, fun other unlinked unused => ?_,
    fun other task different => ?_, fun _ _ => rfl, fun _ _ owns => owns⟩
  · rw [view_setEntry]
    split
    · rename_i own
      rw [own]
      rfl
    · rfl
  · rw [users_setEntry]
    split
    · rename_i own
      rw [own] at unlinked unused
      rw [unlinked] at found
      exact found.resolve_left Bool.false_ne_true unused
    · exact unused
  · rw [users_setEntry]
    split
    · rename_i own
      rw [own]
      exact same task different
    · exact Iff.rfl

-----------------------------------------------------------------------------------------
-- What a task in a module finds
-----------------------------------------------------------------------------------------

/-- A module with a user is there. -/
theorem Holds.present (inv : Invariant s) {m : KernelModule} {locked : Bool}
    (holds : Holds tid ⟨.handling m, locked⟩ s)
    : s.phase m ≠ .absent := by
  intro absent
  have inside := (holds.users m).mpr rfl
  rw [(inv.absent m absent).2] at inside
  exact List.not_mem_nil inside

/-- While a module that links to `safety_mem` is there, so is the page. -/
theorem Invariant.page_of_uses (inv : Invariant s) {m : KernelModule}
    (uses : .safetyMem ∈ m.uses) (present : s.phase m ≠ .absent)
    : s.kernel.pageAllocated = true := by
  have complete := (inv.live _ (inv.linked m _ uses present)).1
  have page := congrArg View.page complete
  exact page

/-- A task in a file operation that reaches `safety_mem` finds its page. -/
theorem Holds.page (inv : Invariant s) {m : KernelModule} {locked : Bool}
    (holds : Holds tid ⟨.handling m, locked⟩ s) (reaches : .safetyMem ∈ m.reach)
    : s.kernel.pageAllocated = true := by
  by_cases own : m = .safetyMem
  · refine inv.serving (.inr (fun unused => ?_))
    have inside := (holds.users m).mpr rfl
    rw [own, unused] at inside
    exact List.not_mem_nil inside
  · have uses : .safetyMem ∈ m.uses := by
      revert own reaches
      cases m <;> decide
    exact inv.page_of_uses uses (holds.present inv)

theorem sequel_handle {m : KernelModule} {locked : Bool} {choice : HostChoice}
    {operation : HostOp} {result : operation.Res} (inv : Invariant s)
    (holds : Holds tid ⟨.handling m, locked⟩ s) (permitted : Handles m locked operation)
    (done : exec tid choice operation s = .done result s')
    : Sequel tid ⟨.handling m, locked⟩ operation result s s' := by
  have elsewhere : ∀ m' direction v drained,
      Stage.handling m ≠ .changing m' direction v drained := by
    intro m' direction v drained same
    cases same
  have reads {operation : HostOp} {result : operation.Res}
      (learns : Learns ⟨.handling m, locked⟩ operation result ⟨.handling m, locked⟩)
      : Sequel tid ⟨.handling m, locked⟩ operation result s s :=
    (Passage.refl tid s).sequel inv learns holds
  cases operation with
  | kernel operation =>
      obtain ⟨passage, entry, task, mutex⟩ := kernel_passage permitted.2.2 holds.mutex done
      refine passage.sequel inv rfl ?_
      exact holds.stay elsewhere Stage.noConfusion passage.phase entry task mutex
  | read operation =>
      simp only [exec] at done
      split at done
      · cases done
      · cases done
        exact reads rfl
  | peek m' =>
      cases done
      exact reads rfl
  | peekSmmu =>
      cases done
      exact reads rfl
  | safetyPage =>
      cases done
      exact reads ⟨inv.located (holds.page inv permitted), rfl⟩
  | unusePde m' =>
      obtain ⟨rfl, rfl⟩ := permitted
      cases done
      have passage : Passage tid s (s.setEntry m' { s.entry m' with
          users := (s.entry m').users.filter (· ≠ tid) }) := by
        refine users_passage (.inr (fun unused => ?_)) (fun other different => ?_)
        · rw [unused, List.filter_nil]
        · simp [different]
      refine passage.sequel inv rfl (holds_rest ?_ (fun other inside => ?_) (fun owns => ?_))
      · rw [passage.phase]
        exact holds.not_changing elsewhere
      · rw [users_setEntry] at inside
        split at inside
        · simp at inside
        · rename_i own
          have same := (holds.users other).mp inside
          injection same with same
          exact own same.symm
      · exact Bool.false_ne_true (holds.mutex owns)
  | _ => exact False.elim permitted

/-- A task leaves all modules. -/
theorem Holds.leave {stage : Stage} (holds : Holds tid ⟨stage, false⟩ s)
    (elsewhere : ∀ m direction v drained, stage ≠ .changing m direction v drained)
    (unhandled : ∀ m, stage ≠ .handling m)
    : Holds tid .rest s :=
  holds_rest (holds.not_changing elsewhere)
    (fun m inside => unhandled m ((holds.users m).mp inside))
    (fun owns => Bool.false_ne_true (holds.mutex owns))

/-- A kernel thread that has been asked to stop returns. -/
theorem return_passage {t : KThread} (own : tid = t.tid) (stopping : s.task t = .stopping)
    : Passage tid s (s.setTask t .exited) := by
  refine ⟨rfl, fun m => ?_, rfl, fun _ _ unused => unused, fun _ _ _ => Iff.rfl,
    fun other different => ?_, fun _ _ owns => owns⟩
  · rw [view_setTask]
    split
    · rename_i same
      have known : (s.view m).tasks t = .stopping := by
        rw [same, view_tasks, stopping]
        rfl
      rw [show TaskState.exited.spawned = (s.view m).tasks t from known.symm,
        Function.update_eq_self]
    · rfl
  · refine Function.update_of_ne (fun same => ?_) _ _
    exact different (same ▸ own)

theorem sequel_turn {t : KThread} {asked locked : Bool} {choice : HostChoice}
    {operation : HostOp} {result : operation.Res} (inv : Invariant s)
    (holds : Holds tid ⟨.turning t asked, locked⟩ s)
    (permitted : Turns t asked locked operation)
    (done : exec tid choice operation s = .done result s')
    : Sequel tid ⟨.turning t asked, locked⟩ operation result s s' := by
  have elsewhere {t : KThread} {asked : Bool} (m : KernelModule) (direction : Direction) (v : View)
      (drained : Bool)
      : Stage.turning t asked ≠ .changing m direction v drained := by
    intro same
    cases same
  have unhandled (m : KernelModule) : Stage.turning t asked ≠ .handling m := Stage.noConfusion
  cases operation with
  | kernel operation =>
      obtain ⟨passage, entry, task, mutex⟩ := kernel_passage permitted.2 holds.mutex done
      refine passage.sequel inv rfl ?_
      exact holds.stay elsewhere Stage.noConfusion passage.phase entry task mutex
  | kthreadShouldStop t' =>
      cases permitted
      cases done
      obtain ⟨own, active, -⟩ := holds.task t asked rfl
      refine (Passage.refl tid s).sequel inv rfl ⟨?_, ?_, ?_, ?_, holds.mutex, ?_⟩
      · intro m direction
        refine ⟨fun changing => absurd changing (holds.not_changing elsewhere m direction), ?_⟩
        intro changing
        obtain ⟨v, drained, same⟩ := changing
        exact absurd same (elsewhere m direction v drained)
      · exact fun m direction v drained same => absurd same (elsewhere m direction v drained)
      · intro m
        rw [holds.users]
        exact ⟨Stage.noConfusion, Stage.noConfusion⟩
      · intro t' asked' same
        injection same with same stops
        subst same stops
        exact ⟨own, active, of_decide_eq_true⟩
      · exact Stage.noConfusion
  | msleepInterruptible t' =>
      obtain ⟨rfl, rfl⟩ := permitted
      cases done
      exact (Passage.refl tid s).sequel inv rfl (holds.leave elsewhere unhandled)
  | kthreadReturn t' =>
      obtain ⟨rfl, rfl, rfl⟩ := permitted
      cases done
      obtain ⟨own, -, stops⟩ := holds.task t' true rfl
      have passage := return_passage own (stops rfl)
      refine passage.sequel inv rfl ?_
      have left := holds.leave elsewhere unhandled
      exact ⟨left.phase, fun m direction v drained same => Stage.noConfusion same, left.users,
        fun t asked same => Stage.noConfusion same, left.mutex, left.outside⟩
  | _ => exact False.elim permitted

-----------------------------------------------------------------------------------------
-- Load and unload
-----------------------------------------------------------------------------------------

theorem KernelModule.not_uses_self (m : KernelModule) : m ∉ m.uses := by
  cases m <;> decide

/-- A task begins to load or to unload a module. -/
theorem sequel_begin {m : KernelModule} {direction : Direction} {drained : Bool}
    {operation : HostOp} {result : operation.Res} (inv : Invariant s) (holds : Holds tid .rest s)
    (settled : s.phase m = .absent ∨ s.phase m = .live)
    (unused : ∀ user, m ∈ user.uses → s.phase user = .absent)
    (uses : ∀ used ∈ m.uses, s.phase used = .live)
    (known : drained = true → (s.view m).linked = false ∧ (s.entry m).users = [])
    (learns : Learns .rest operation result ⟨.changing m direction (s.view m) drained, false⟩)
    : Sequel tid .rest operation result s (s.setPhase m (.changing direction tid)) := by
  have unsettled : ∀ direction other, s.phase m ≠ .changing direction other := by
    intro direction other changing
    rw [changing] at settled
    rcases settled with impossible | impossible <;> cases impossible
  have mine : ∀ m' direction, s.phase m' ≠ .changing direction tid :=
    holds.not_changing (fun _ _ _ _ => Stage.noConfusion)
  refine ⟨?_, ⟨_, learns, ?_⟩, ?_⟩
  · constructor
    · intro m' absent
      by_cases same : m' = m
      · rw [same, phase_setPhase_self] at absent
        cases absent
      · exact inv.absent m' (phase_setPhase_of_ne same _ ▸ absent)
    · intro m' live
      by_cases same : m' = m
      · rw [same, phase_setPhase_self] at live
        cases live
      · exact inv.live m' (phase_setPhase_of_ne same _ ▸ live)
    · intro m' used member present
      have different : used ≠ m := by
        intro same
        subst same
        have before := unused m' member
        by_cases own : m' = used
        · exact used.not_uses_self (own ▸ member)
        · rw [phase_setPhase_of_ne own] at present
          exact present before
      rw [phase_setPhase_of_ne different]
      by_cases same : m' = m
      · exact uses used (same ▸ member)
      · exact inv.linked m' used member (phase_setPhase_of_ne same _ ▸ present)
    · exact inv.serving
    · exact inv.located
  · constructor
    · intro m' direction'
      constructor
      · intro changing
        by_cases same : m' = m
        · subst same
          rw [phase_setPhase_self] at changing
          injection changing with same
          rw [same]
          exact ⟨_, _, rfl⟩
        · rw [phase_setPhase_of_ne same] at changing
          exact absurd changing (mine m' direction')
      · intro stage
        obtain ⟨v, drained', stage⟩ := stage
        injection stage with sameModule sameDirection
        rw [← sameModule, ← sameDirection, phase_setPhase_self]
    · intro m' direction' v drained' stage
      injection stage with sameModule sameDirection sameView sameDrained
      subst sameModule sameDirection sameView sameDrained
      exact ⟨rfl, known, rfl⟩
    · intro m'
      show tid ∈ (s.entry m').users ↔ _
      rw [holds.users]
      exact ⟨Stage.noConfusion, Stage.noConfusion⟩
    · intro t asked stage
      cases stage
    · exact holds.mutex
    · intro stage
      cases stage
  · intro other different
    refine ⟨fun m' direction' => ?_, fun _ _ _ => rfl, fun _ => Iff.rfl,
      fun _ _ _ _ unused => unused, fun _ _ active => ⟨active, id⟩, id⟩
    by_cases same : m' = m
    · subst same
      rw [phase_setPhase_self]
      constructor
      · intro theirs
        injection theirs with _ sameTask
        exact absurd sameTask.symm different
      · exact fun theirs => absurd theirs (unsettled direction' other)
    · rw [phase_setPhase_of_ne same]

/-- A module is freed: nothing was left but its variables. -/
theorem free_effect {m : KernelModule} {direction : Direction} (inv : Invariant s)
    (changing : s.phase m = .changing direction tid) (released : (s.view m).Released)
    : Effect m {} s (s.freshVariables m) := by
  have own (other : m ≠ .safetyMem) : s.view m = {} := by
    have bufPtr : (s.view m).bufPtr = none := if_neg other
    rw [← released, ← bufPtr]
  cases m with
  | safetyMem =>
      have unloaded : s.phase .smmuGuard = .absent := by
        by_contra present
        rw [inv.linked .smmuGuard .safetyMem (by decide) present] at changing
        cases changing
      have inactive : s.smmuActive = false := congrArg View.active (inv.absent _ unloaded).1
      have freed : s.kernel.pageAllocated = false := congrArg View.page released
      refine .of_fields rfl rfl rfl (fun _ owns => absurd owns.symm (Option.some_ne_none _))
        released (fun other different => ?_) (fun _ allocated => ?_)
      · simp [Host.view, Host.freshVariables, different, inactive]
      · rw [show (s.freshVariables .safetyMem).kernel.pageAllocated = s.kernel.pageAllocated
          from rfl, freed] at allocated
        cases allocated
  | ctxMonitor | smmuGuard | badDriver | mutexThreads | rogueThread =>
      exact .of_fields rfl rfl rfl (fun _ owns => owns) (own (by decide)) (fun _ _ => rfl) id

/-- A task moves its module on, or hands it back to the kernel. -/
theorem sequel_inside {m : KernelModule} {direction : Direction} {v : View} {drained : Bool}
    {choice : HostChoice} {operation : HostOp} {result : operation.Res} (inv : Invariant s)
    (holds : Holds tid ⟨.changing m direction v drained, false⟩ s)
    (permitted : Changes m direction v drained operation)
    (done : exec tid choice operation s = .done result s')
    : Sequel tid ⟨.changing m direction v drained, false⟩ operation result s s' := by
  obtain ⟨isView, -, -⟩ := holds.view m direction v drained rfl
  cases operation with
  | moduleLive m' =>
      obtain ⟨rfl, rfl, complete, served⟩ := permitted
      cases done
      have effect := Effect.refl m' s
      rw [isView] at effect
      exact sequel_settle inv holds effect rfl rfl (.inl ⟨rfl, complete, served⟩) rfl
  | freeModule m' =>
      obtain ⟨rfl, isDrained, released⟩ := permitted
      cases done
      have changing := (holds.phase m' direction).mpr ⟨v, drained, rfl⟩
      have linked : v.linked = false := congrArg View.linked released
      have page : v.page = false := congrArg View.page released
      refine sequel_settle inv holds (free_effect inv changing (isView ▸ released)) ?_ ?_
        (.inr ⟨rfl, rfl, isDrained⟩) rfl
      · exact linked.symm
      · exact page.symm
  | _ => exact sequel_change inv holds rfl permitted done

-----------------------------------------------------------------------------------------
-- Entering
-----------------------------------------------------------------------------------------

/-- `load_module` has found the module absent and those it links to live. -/
theorem loadable_ok {m : KernelModule} (ok : s.loadable m = .ok ())
    : s.phase m = .absent ∧ ∀ used ∈ m.uses, s.phase used = .live := by
  unfold Host.loadable at ok
  split at ok
  · cases ok
  · rename_i absent
    split at ok
    · rename_i uses
      refine ⟨not_not.mp absent, fun used member => ?_⟩
      exact of_decide_eq_true (List.all_eq_true.mp uses used member)
    · cases ok

theorem loadable_error {m : KernelModule} {code : Int} (error : s.loadable m = .error code)
    : code ≠ 0 := by
  unfold Host.loadable at error
  split at error
  · cases error
    decide
  · split at error
    · cases error
    · cases error
      decide

theorem KernelModule.mem_all (m : KernelModule) : m ∈ KernelModule.all := by
  cases m <;> decide

/-- `delete_module` has found the module live and not linked to. -/
theorem stoppable_ok {m : KernelModule} (ok : s.stoppable m = .ok ())
    : s.phase m = .live ∧ ∀ user, m ∈ user.uses → s.phase user = .absent := by
  unfold Host.stoppable at ok
  split at ok
  · cases ok
  · split at ok
    · cases ok
    · rename_i unused
      split at ok
      · rename_i live
        refine ⟨live, fun user member => ?_⟩
        by_contra present
        refine unused (List.any_eq_true.mpr ⟨user, user.mem_all, ?_⟩)
        simp [member, present]
      · cases ok

theorem stoppable_error {m : KernelModule} {code : Int} (error : s.stoppable m = .error code)
    : code ≠ 0 := by
  unfold Host.stoppable at error
  split at error
  · cases error
    decide
  · split at error
    · cases error
      decide
    · split at error
      · cases error
      · cases error
        decide

/-- A task outside of all modules that changes nothing it knows stays outside. -/
theorem sequel_outside {operation : HostOp} {result : operation.Res} (inv : Invariant s)
    (holds : Holds tid .rest s) (passage : Passage tid s s') (entry : s'.entry = s.entry)
    (kernel : s'.kernel.safetyMutex = s.kernel.safetyMutex)
    (learns : Learns .rest operation result .rest)
    : Sequel tid .rest operation result s s' := by
  refine passage.sequel inv learns (holds_rest ?_ (fun m inside => ?_) (fun owns => ?_))
  · rw [passage.phase]
    exact holds.not_changing (fun _ _ _ _ => Stage.noConfusion)
  · rw [entry] at inside
    exact Stage.noConfusion ((holds.users m).mp inside)
  · rw [kernel] at owns
    exact Bool.false_ne_true (holds.mutex owns)

theorem sequel_load {m : KernelModule} {choice : HostChoice} {result : Int} (inv : Invariant s)
    (holds : Holds tid .rest s) (done : exec tid choice (.loadModule m) s = .done result s')
    : Sequel tid .rest (.loadModule m) result s s' := by
  have failed (nonzero : result ≠ 0) : Sequel tid .rest (.loadModule m) result s s :=
    sequel_outside inv holds (.refl tid s) rfl rfl (if_neg nonzero).symm
  simp only [exec] at done
  split at done
  · rename_i code error
    cases done
    exact failed (loadable_error error)
  · rename_i ok
    split at done
    · cases done
      obtain ⟨absent, uses⟩ := loadable_ok ok
      obtain ⟨empty, unused⟩ := inv.absent m absent
      have hidden : true = true → (s.view m).linked = false ∧ (s.entry m).users = [] :=
        fun _ => ⟨congrArg View.linked empty, unused⟩
      refine sequel_begin inv holds (.inl absent) (fun user member => ?_) uses hidden ?_
      · by_contra present
        rw [inv.linked user m member present] at absent
        cases absent
      · rw [empty]
        rfl
    · cases done
      exact failed (by omega)

theorem sequel_stop {m : KernelModule} {choice : HostChoice} {result : Int} (inv : Invariant s)
    (holds : Holds tid .rest s) (done : exec tid choice (.stopModule m) s = .done result s')
    : Sequel tid .rest (.stopModule m) result s s' := by
  simp only [exec] at done
  split at done
  · rename_i code error
    cases done
    refine sequel_outside inv holds (.refl tid s) rfl rfl ?_
    show if _ then _ else _
    rw [if_neg (stoppable_error error)]
  · rename_i ok
    cases done
    obtain ⟨live, unused⟩ := stoppable_ok ok
    obtain ⟨complete, served⟩ := inv.live m live
    refine sequel_begin inv holds (.inr live) unused (fun used member => ?_) (fun unlinked => ?_)
      ⟨_, complete, rfl⟩
    · refine inv.linked m used member ?_
      rw [live]
      exact Phase.noConfusion
    · have hidden : (s.entry m).linked = false := Bool.not_eq_true' _ ▸ unlinked
      rw [hidden] at served
      exact ⟨hidden, served.resolve_left Bool.false_ne_true⟩

theorem sequel_enter {choice : HostChoice} {operation : HostOp} {result : operation.Res}
    (inv : Invariant s) (holds : Holds tid .rest s) (permitted : Enters tid operation)
    (done : exec tid choice operation s = .done result s')
    : Sequel tid .rest operation result s s' := by
  have quiet := holds.not_changing (fun _ _ _ _ => Stage.noConfusion)
  cases operation with
  | loadModule m => exact sequel_load inv holds done
  | stopModule m => exact sequel_stop inv holds done
  | usePde m =>
      simp only [exec] at done
      split at done
      · rename_i linked
        cases done
        have passage : Passage tid s (s.setEntry m { s.entry m with
            users := tid :: (s.entry m).users }) :=
          users_passage (.inl linked) (fun other different => by simp [different])
        refine passage.sequel inv rfl ⟨?_, ?_, ?_, ?_, ?_, ?_⟩
        · intro m' direction
          refine ⟨fun changing => absurd changing (quiet m' direction), fun stage => ?_⟩
          obtain ⟨v, drained, stage⟩ := stage
          cases stage
        · intro m' direction v drained stage
          cases stage
        · intro m'
          rw [users_setEntry]
          split
          · rename_i same
            rw [same]
            exact ⟨fun _ => rfl, fun _ => List.mem_cons_self⟩
          · rename_i different
            rw [holds.users]
            refine ⟨Stage.noConfusion, fun stage => ?_⟩
            injection stage with same
            exact absurd same.symm different
        · intro t asked stage
          cases stage
        · exact holds.mutex
        · intro stage
          cases stage
      · cases done
        exact sequel_outside inv holds (.refl tid s) rfl rfl rfl
  | schedule t =>
      simp only [exec] at done
      split at done
      · rename_i active
        cases done
        refine (Passage.refl tid s).sequel inv rfl
          ⟨?_, ?_, ?_, ?_, holds.mutex, ?_⟩
        · intro m direction
          refine ⟨fun changing => absurd changing (quiet m direction), fun stage => ?_⟩
          obtain ⟨v, drained, stage⟩ := stage
          cases stage
        · intro m direction v drained stage
          cases stage
        · intro m
          rw [holds.users]
          exact ⟨Stage.noConfusion, Stage.noConfusion⟩
        · intro t' asked stage
          injection stage with same stops
          subst same stops
          exact ⟨permitted, active, fun asked => absurd asked Bool.false_ne_true⟩
        · intro stage
          cases stage
      · cases done
  | notifyDie current data =>
      simp only [exec] at done
      split at done <;> cases done <;>
        exact sequel_outside inv holds
          (.of_same rfl rfl rfl (fun _ => rfl) rfl (fun _ _ owns => owns)) rfl rfl rfl
  | iommuFault devName iova =>
      simp only [exec] at done
      split at done <;> cases done <;>
        exact sequel_outside inv holds
          (.of_same rfl rfl rfl (fun _ => rfl) rfl (fun _ _ owns => owns)) rfl rfl rfl
  | _ => exact False.elim permitted

-----------------------------------------------------------------------------------------
-- The system
-----------------------------------------------------------------------------------------

/-- Every permitted operation has a sequel, by the stages. -/
theorem Permits.sequel {call : HostCall} {known : Known} {choice : HostChoice}
    {operation : HostOp} {result : operation.Res} (inv : Invariant s) (holds : Holds tid known s)
    (permitted : Permits tid call known operation)
    (done : exec tid choice operation s = .done result s')
    : Sequel tid known operation result s s' := by
  obtain ⟨stage, locked⟩ := known
  cases stage with
  | outside =>
      have unlocked : locked = false := holds.outside rfl
      subst unlocked
      exact sequel_enter inv holds permitted.2 done
  | changing m direction v drained =>
      have unlocked : locked = false := (holds.view m direction v drained rfl).2.2
      subst unlocked
      exact sequel_inside inv holds permitted.2.2 done
  | handling m => exact sequel_handle inv holds permitted.2.2 done
  | turning t asked => exact sequel_turn inv holds permitted.2 done

theorem protocol_sound (raw : Entry → UInt64) : protocol.Sound (system raw) anySchedule where
  bodies _ _ admitted := body_obeys raw admitted
  acts inv holds permitted done := by
    have sequel := Permits.sequel inv holds permitted done
    exact ⟨sequel.inv, sequel.learned⟩
  others different inv holds permitted done theirs :=
    theirs.apart ((Permits.sequel inv holds permitted done).apart _ different)

theorem boot_invariant (word : UInt32) (direct vmalloc : TablePath)
    : Invariant (Host.boot word direct vmalloc) where
  absent m _ := by
    refine ⟨View.ext rfl ?_ ?_ ?_ ?_ ?_ ?_ ?_ ?_ (funext (fun t => ?_)), rfl⟩ <;>
      simp [Host.view, Host.boot, TaskState.spawned]
  live m live := by cases live
  linked m used _ present := absurd rfl present
  serving serves := by
    rcases serves with linked | used
    · cases linked
    · exact absurd rfl used
  located allocated := by cases allocated

/-- Whatever tasks do after boot, each of them knows what its code relies on. -/
theorem reachable_understood {raw : Entry → UInt64} {word : UInt32} {direct vmalloc : TablePath}
    {last : HostConfig}
    (h : (system raw).Reachable anySchedule (.start (Host.boot word direct vmalloc)) last)
    : ∃ known, protocol.Understood last known := by
  refine (protocol_sound raw).reachable (boot_invariant word direct vmalloc) (fun tid => ?_) h
  exact holds_rest (fun _ _ => Phase.noConfusion) (fun _ => List.not_mem_nil)
    (fun owns => absurd owns.symm (Option.some_ne_none _))

end SafetyIsolation.Lifetimes

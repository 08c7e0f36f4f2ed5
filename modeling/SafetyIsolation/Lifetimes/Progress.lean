import SafetyIsolation.Interleaving.Waiting
import SafetyIsolation.Lifetimes.Safety

/-! Who waits for whom. Removing a file waits for its users, `kthread_stop` for a thread, and both
of these may wait for the owner of `safety_mutex`, who waits for nobody.
-/

namespace SafetyIsolation.Lifetimes

open SafetyIsolation.Interleaving SafetyIsolation.Kernel

variable {tid : Nat} {s : Host} {raw : Entry → UInt64} {c : HostConfig}

/-- As in `anySchedule`, but the rogue thread does not overwrite the owner of the mutex. With its
waiters forgotten, `mutex_unlock` would not wake them.
-/
def mutexKept : Policy Host Nat HostCall HostChoice HostOp where
  calls tid call :=
    anySchedule.calls tid call
    && match call with
      | .turn .rogueThread attackMode => attackMode ≠ rogueAttackMutexMetadata
      | _ => true
  steps _ _ _ _ _ := true

theorem anySchedule_of_mutexKept {call : HostCall} (h : mutexKept.calls tid call = true)
    : anySchedule.calls tid call = true :=
  (Bool.and_eq_true_iff.mp h).1

/-- The task cannot go on before the other one does. -/
def WaitsFor (c : HostConfig) (tid other : Nat) : Prop :=
  match c.threads tid with
  | .running _ (.act (.kernel .mutexLock) _) => c.world.state.kernel.safetyMutex = some other
  | .running _ (.act (.drainProc m) _) => other ∈ (c.world.state.entry m).users
  | .running _ (.act (.awaitExit t) _) => other = t.tid ∧ c.world.state.task t ≠ .exited
  | _ => False

/-- How far from the owner of the mutex a task can be that is about to perform the operation. -/
def opRank (s : Host) : HostOp → Nat
  | .kernel .mutexLock => if s.kernel.safetyMutex = none then 0 else 1
  | .drainProc _ => 2
  | .awaitExit _ => 2
  | _ => 0

def waitRank (c : HostConfig) (tid : Nat) : Nat :=
  match c.threads tid with
  | .running _ (.act operation _) => opRank c.world.state operation
  | _ => 0

/-- A kernel thread whose function has not been started, or has returned already. -/
def Unstarted (c : HostConfig) (tid : Nat) : Prop :=
  ∃ call t next, c.threads tid = .running call (.act (.schedule t) next)
    ∧ c.world.state.task t ≠ .running ∧ c.world.state.task t ≠ .stopping

theorem kernel_exec_wait {page : SafetyPage} {choice : Kernel.Choice} {operation : Op} {k : State}
    (waits : Kernel.exec page tid choice operation k = .wait)
    : operation = .mutexLock ∧ k.safetyMutex ≠ none := by
  cases operation with
  | mutexLock =>
      simp only [Kernel.exec] at waits
      split at waits
      · cases waits
      · rename_i owned
        exact ⟨rfl, owned⟩
  | mutexTrylock | setMemory _ _ | store _ _ | copyToKernelNofault _ _ | procCreate =>
      simp only [Kernel.exec] at waits
      split at waits <;> cases waits
  | walkPgtable ptr => cases ptr <;> cases waits
  | _ => cases waits

/-- The operations that can wait, and what they wait for. -/
theorem exec_wait {choice : HostChoice} {operation : HostOp}
    (waits : exec tid choice operation s = .wait)
    : operation = .kernel .mutexLock ∧ s.kernel.safetyMutex ≠ none
      ∨ (∃ m, operation = .drainProc m ∧ (s.entry m).users ≠ [])
      ∨ (∃ t, operation = .awaitExit t ∧ s.task t ≠ .exited)
      ∨ ∃ t, operation = .schedule t ∧ s.task t ≠ .running ∧ s.task t ≠ .stopping := by
  cases operation with
  | kernel operation =>
      simp only [exec] at waits
      split at waits
      · cases waits
      · split at waits
        · cases waits
        · rename_i executed
          obtain ⟨rfl, owned⟩ := kernel_exec_wait executed
          exact .inl ⟨rfl, owned⟩
        · cases waits
  | drainProc m =>
      simp only [exec] at waits
      split at waits
      · cases waits
      · rename_i used
        exact .inr (.inl ⟨m, rfl, used⟩)
  | awaitExit t =>
      simp only [exec] at waits
      split at waits
      · cases waits
      · rename_i active
        exact .inr (.inr (.inl ⟨t, rfl, active⟩))
  | schedule t =>
      simp only [exec] at waits
      split at waits
      · cases waits
      · rename_i inactive
        exact .inr (.inr (.inr ⟨t, rfl, not_or.mp inactive⟩))
  | loadModule m | stopModule m | read operation | allocSafetyPage | procCreate m | usePde m
  | registerDieNotifier | notifyDie current data | kthreadRun t | platformDeviceRegister
  | iommuDomainAlloc | iommuAttachDevice | iommuFault devName iova =>
      simp only [exec] at waits
      split at waits
      all_goals first
        | cases waits
        | split at waits <;> cases waits
  | atomicSet counter => cases counter <;> cases waits
  | _ => cases waits

theorem opRank_of_ordinary {locked : Bool} {operation : Op}
    (allowed : ordinary locked operation = true)
    : opRank s (.kernel operation) ≤ 1 ∧ (locked = true → opRank s (.kernel operation) = 0) := by
  cases operation with
  | mutexLock =>
      refine ⟨?_, fun isLocked => ?_⟩
      · simp only [opRank]
        split <;> decide
      · rw [isLocked] at allowed
        cases allowed
  | _ => exact ⟨Nat.zero_le _, fun _ => rfl⟩

/-- Outside of `init` and `exit` functions only the mutex is waited for, and by a task that does
not have it.
-/
theorem opRank_of_permits {call : HostCall} {known : Known} {operation : HostOp}
    (permitted : Permits tid call known operation)
    (elsewhere : ∀ m direction v drained, known.stage ≠ .changing m direction v drained)
    : opRank s operation ≤ 1 ∧ (known.locked = true → opRank s operation = 0) := by
  have none : (0 : Nat) ≤ 1 ∧ (known.locked = true → (0 : Nat) = 0) :=
    ⟨Nat.zero_le _, fun _ => rfl⟩
  obtain ⟨-, permitted⟩ := permitted
  obtain ⟨stage, locked⟩ := known
  cases stage with
  | changing m direction v drained => exact absurd rfl (elsewhere m direction v drained)
  | outside =>
      cases operation with
      | kernel operation => exact False.elim permitted
      | drainProc m => exact False.elim permitted
      | awaitExit t => exact False.elim permitted
      | _ => exact none
  | handling m =>
      cases operation with
      | kernel operation => exact opRank_of_ordinary permitted.2.2.2
      | drainProc m => exact False.elim permitted.2
      | awaitExit t => exact False.elim permitted.2
      | _ => exact none
  | turning t asked =>
      cases operation with
      | kernel operation => exact opRank_of_ordinary permitted.2
      | drainProc m => exact False.elim permitted
      | awaitExit t => exact False.elim permitted
      | _ => exact none

/-- Every call that is running has been admitted. -/
theorem reachable_admitted {first : Host}
    (h : (system raw).Reachable anySchedule (.start first) c)
    : ∀ tid call code, c.threads tid = .running call code → anySchedule.calls tid call = true := by
  refine h.invariant (fun c => ∀ tid call code, c.threads tid = .running call code
    → anySchedule.calls tid call = true) (fun _ _ _ running => by cases running) ?_
  intro c event c' before taken
  exact Machine.step_running before (fun _ _ _ admitted => admitted)
    (fun _ _ _ _ _ _ _ _ _ _ same => same) taken

theorem KThread.tid_injective {t t' : KThread} (same : t.tid = t'.tid) : t = t' := by
  revert same
  cases t <;> cases t' <;> decide

/-- A task that is stopped is a kernel thread's, and nothing is left to it but its function. -/
theorem thread_elsewhere {call : HostCall} {known : Known} {operation : HostOp} {t : KThread}
    (admitted : anySchedule.calls t.tid call = true)
    (permitted : Permits t.tid call known operation)
    : ∀ m direction v drained, known.stage ≠ .changing m direction v drained := by
  intro m direction v drained stage
  obtain ⟨-, permitted⟩ := permitted
  rw [stage] at permitted
  rw [permitted.1] at admitted
  cases direction <;> cases t <;> cases admitted

/-- Only a task that is outside of all modules waits to be scheduled. -/
theorem schedule_outside {call : HostCall} {known : Known} {t : KThread}
    (permitted : Permits tid call known (.schedule t))
    : known.stage = .outside := by
  obtain ⟨-, permitted⟩ := permitted
  cases stage : known.stage with
  | outside => rfl
  | changing m direction v drained =>
      rw [stage] at permitted
      exact False.elim permitted.2
  | handling m =>
      rw [stage] at permitted
      exact False.elim permitted.2
  | turning t asked =>
      rw [stage] at permitted
      exact False.elim permitted

-----------------------------------------------------------------------------------------
-- Chains
-----------------------------------------------------------------------------------------

section Alive

variable {known : Nat → Known}

/-- A task inside a module is about to perform an operation. -/
theorem active_of_inside (understood : protocol.Understood c known)
    (alive : ∀ tid, c.threads tid ≠ .dead) (inside : (known tid).stage ≠ .outside)
    : ∃ call operation next, c.threads tid = .running call (.act operation next)
        ∧ Permits tid call (known tid) operation :=
  (Understood.occupied understood inside).resolve_left (alive tid)

/-- A task inside a file operation or a thread function waits for the mutex at most, and the
owner of the mutex for nothing.
-/
theorem rank_of_inside (understood : protocol.Understood c known)
    (alive : ∀ tid, c.threads tid ≠ .dead) (inside : (known tid).stage ≠ .outside)
    (elsewhere : ∀ m direction v drained, (known tid).stage ≠ .changing m direction v drained)
    : waitRank c tid ≤ 1 ∧ ((known tid).locked = true → waitRank c tid = 0)
      ∧ ¬ Unstarted c tid := by
  obtain ⟨call, operation, next, running, permitted⟩ := active_of_inside understood alive inside
  rw [waitRank, running]
  obtain ⟨low, zero⟩ := opRank_of_permits permitted elsewhere
  refine ⟨low, zero, fun unstarted => ?_⟩
  obtain ⟨call', t, next', same, -⟩ := unstarted
  rw [running] at same
  cases same
  exact inside (schedule_outside permitted)

theorem owner_rank (understood : protocol.Understood c known)
    (alive : ∀ tid, c.threads tid ≠ .dead) (owns : c.world.state.kernel.safetyMutex = some tid)
    : waitRank c tid = 0 ∧ ¬ Unstarted c tid := by
  have holds := understood.holds tid
  have locked := holds.mutex owns
  have inside : (known tid).stage ≠ .outside := by
    intro outside
    rw [holds.outside outside] at locked
    cases locked
  have elsewhere : ∀ m direction v drained,
      (known tid).stage ≠ .changing m direction v drained := by
    intro m direction v drained stage
    rw [(holds.view m direction v drained stage).2.2] at locked
    cases locked
  obtain ⟨-, zero, started⟩ := rank_of_inside understood alive inside elsewhere
  exact ⟨zero locked, started⟩

theorem user_rank (understood : protocol.Understood c known)
    (alive : ∀ tid, c.threads tid ≠ .dead) {m : KernelModule}
    (uses : tid ∈ (c.world.state.entry m).users)
    : waitRank c tid ≤ 1 ∧ ¬ Unstarted c tid := by
  have stage := ((understood.holds tid).users m).mp uses
  obtain ⟨low, -, started⟩ := @rank_of_inside tid c known understood alive
    (by rw [stage]; exact Stage.noConfusion)
    (by intro m direction v drained; rw [stage]; exact Stage.noConfusion)
  exact ⟨low, started⟩

/-- A kernel thread that is being stopped. -/
theorem thread_rank (understood : protocol.Understood c known)
    (admitted : ∀ tid call code, c.threads tid = .running call code
      → anySchedule.calls tid call = true)
    {t : KThread} (stopping : c.world.state.task t = .stopping)
    : waitRank c t.tid ≤ 1 ∧ ¬ Unstarted c t.tid := by
  refine ⟨?_, fun unstarted => ?_⟩
  · unfold waitRank
    split
    · rename_i call operation next running
      have permitted := understood.permitted running
      exact (opRank_of_permits permitted
        (thread_elsewhere (admitted _ _ _ running) permitted)).1
    · exact Nat.zero_le _
  · obtain ⟨call, t', next, running, -, active⟩ := unstarted
    have permitted := understood.permitted running
    have outside := schedule_outside permitted
    have enters := permitted.2
    rw [outside] at enters
    rw [KThread.tid_injective (show t.tid = t'.tid from enters)] at stopping
    exact active stopping

/-- Whoever a task waits for is closer to the owner of the mutex. -/
theorem waitsFor_descends (understood : protocol.Understood c known)
    (admitted : ∀ tid call code, c.threads tid = .running call code
      → anySchedule.calls tid call = true)
    (alive : ∀ tid, c.threads tid ≠ .dead) {tid other : Nat} (waits : WaitsFor c tid other)
    : waitRank c other < waitRank c tid ∧ ¬ Unstarted c other := by
  unfold WaitsFor at waits
  split at waits
  · rename_i call next running
    obtain ⟨zero, started⟩ := owner_rank understood alive waits
    refine ⟨?_, started⟩
    rw [zero, waitRank, running]
    simp [opRank, waits]
  · rename_i call m next running
    obtain ⟨low, started⟩ := user_rank understood alive waits
    refine ⟨?_, started⟩
    rw [show waitRank c tid = 2 by rw [waitRank, running]; rfl]
    omega
  · rename_i call t next running
    obtain ⟨rfl, active⟩ := waits
    have legal := (Permits.safe understood.inv (understood.holds tid)
      (understood.permitted running)).legal
    obtain ⟨low, started⟩ := thread_rank understood admitted (legal.resolve_right active)
    refine ⟨?_, started⟩
    rw [show waitRank c tid = 2 by rw [waitRank, running]; rfl]
    omega
  · exact waits.elim

/-- A task can move, or there is another one that it waits for. -/
theorem moves_or_waits (alive : ∀ tid, c.threads tid ≠ .dead) (tid : Nat)
    (started : ¬ Unstarted c tid)
    : (system raw).CanMove mutexKept c tid ∨ ∃ other, WaitsFor c tid other := by
  cases running : c.threads tid with
  | dead => exact absurd running (alive tid)
  | idle =>
      refine .inl ?_
      by_cases thread : 2 < tid
      · have admitted : mutexKept.calls tid (.rmmod .ctxMonitor) = true :=
          Bool.and_eq_true_iff.mpr ⟨decide_eq_true thread, rfl⟩
        exact .of_idle running admitted
      · have own : ∃ t : KThread, tid = t.tid := by
          have small : tid = 0 ∨ tid = 1 ∨ tid = 2 := by omega
          rcases small with own | own | own
          · exact ⟨.safetyThread, own⟩
          · exact ⟨.coopThread, own⟩
          · exact ⟨.rogueThread, own⟩
        obtain ⟨t, own⟩ := own
        have admitted : mutexKept.calls tid (.turn t 0) = true :=
          Bool.and_eq_true_iff.mpr ⟨decide_eq_true own, by cases t <;> decide⟩
        exact .of_idle running admitted
  | running call code =>
      cases code with
      | ret value => exact .inl (.of_ret running)
      | act operation next =>
          by_cases moves : exec tid {} operation c.world.state = .wait
          · right
            rcases exec_wait moves with
              ⟨rfl, owned⟩ | ⟨m, rfl, used⟩ | ⟨t, rfl, active⟩ | ⟨t, rfl, inactive⟩
            · obtain ⟨owner, owns⟩ := Option.ne_none_iff_exists'.mp owned
              refine ⟨owner, ?_⟩
              rw [WaitsFor, running]
              exact owns
            · obtain ⟨user, uses⟩ := List.exists_mem_of_ne_nil _ used
              refine ⟨user, ?_⟩
              rw [WaitsFor, running]
              exact uses
            · refine ⟨t.tid, ?_⟩
              rw [WaitsFor, running]
              exact ⟨rfl, active⟩
            · exact absurd ⟨call, t, next, running, inactive⟩ started
          · exact .inl (.of_act running rfl moves)

end Alive

/-- As long as no task is killed by a trap and nobody overwrites the owner of the mutex, no state
that is reached is a deadlock: no task waits for itself through others, and every chain of
tasks that wait for each other ends at one that can move. Only a kernel thread that nobody has
started waits for nobody.
-/
theorem lifetimes_never_deadlock {word : UInt32} {direct vmalloc : TablePath}
    (h : (system raw).Reachable mutexKept (.start (Host.boot word direct vmalloc)) c)
    (alive : ∀ tid, c.threads tid ≠ .dead) (tid : Nat)
    : ¬ Relation.TransGen (WaitsFor c) tid tid
      ∧ (¬ Unstarted c tid → ∃ last, Relation.ReflTransGen (WaitsFor c) tid last
          ∧ (system raw).CanMove mutexKept c last) := by
  have h : (system raw).Reachable anySchedule (.start (Host.boot word direct vmalloc)) c :=
    h.liberal (fun _ _ => anySchedule_of_mutexKept) (fun _ _ _ _ _ ok => ok)
  obtain ⟨known, understood⟩ := reachable_understood h
  have descends := fun tid other =>
    @waitsFor_descends c known understood (reachable_admitted h) alive tid other
  refine ⟨not_transGen_self (waitRank c) (fun _ _ waits => (descends _ _ waits).1) tid, ?_⟩
  refine exists_canMove (waitRank c) (fun tid (started : ¬ Unstarted c tid) => ?_)
  refine (moves_or_waits alive tid started).imp_right (fun waiting => ?_)
  obtain ⟨other, waits⟩ := waiting
  exact ⟨other, waits, (descends tid other waits).2, (descends tid other waits).1⟩

theorem alive_of_run {first : Host} {events : List (Event Nat HostCall HostChoice)}
    (ran : (system raw).run mutexKept (.start first) events = some c)
    (named : ∀ event ∈ events, c.threads event.tid ≠ .dead) (tid : Nat)
    : c.threads tid ≠ .dead := by
  by_cases moved : ∃ event ∈ events, tid = event.tid
  · obtain ⟨event, member, rfl⟩ := moved
    exact named event member
  · rw [Machine.run_untouched ran (fun event member same => moved ⟨event, member, same⟩)]
    exact fun dead => by cases dead

/-- A writer is inside the status file when `safety_mem` is removed. -/
def removeWhileWriting : List (Event Nat HostCall HostChoice) :=
  [.call 3 (.insmod .ctxMonitor)] ++ List.replicate 4 (.step 3 {}) ++ [.ret 3]
  ++ [.call 3 (.insmod .safetyMem)]
  ++ List.replicate 9 (.step 3 { page := some (samplePage true) }) ++ [.ret 3]
  ++ [.call 4 (.writeSafetyMem (fun _ => none) 0), .step 4 {}]
  ++ [.call 3 (.rmmod .safetyMem)] ++ List.replicate 3 (.step 3 {})

/-- Nobody has been killed, and the removal waits for the writer. -/
def draining (c : HostConfig) : Bool :=
  (removeWhileWriting.all fun event =>
    match c.threads event.tid with
    | .dead => false
    | _ => true)
  && match c.threads 3 with
    | .running _ (.act (.drainProc .safetyMem) _) => 4 ∈ (c.world.state.entry .safetyMem).users
    | _ => false

theorem draining_waits (h : draining c = true)
    : (∀ event ∈ removeWhileWriting, c.threads event.tid ≠ .dead) ∧ WaitsFor c 3 4 := by
  obtain ⟨alive, waits⟩ := Bool.and_eq_true_iff.mp h
  refine ⟨fun event member dead => ?_, ?_⟩
  · have active := List.all_eq_true.mp alive event member
    rw [dead] at active
    cases active
  · unfold WaitsFor
    split at waits
    · rename_i running
      rw [running]
      exact of_decide_eq_true waits
    · cases waits

theorem lifetimes_never_deadlock_draining
    : ∃ c, (system (fun _ => 0)).Reachable mutexKept (.start sampleHost) c ∧ WaitsFor c 3 4
      ∧ ¬ Relation.TransGen (WaitsFor c) 3 3 := by
  have shown : ((system (fun _ => 0)).run mutexKept (.start sampleHost) removeWhileWriting).map
      draining = some true := by decide
  obtain ⟨c, ran, seen⟩ := Option.map_eq_some_iff.mp shown
  obtain ⟨named, waits⟩ := draining_waits seen
  exact ⟨c, ⟨_, ran⟩, waits,
    (lifetimes_never_deadlock ⟨_, ran⟩ (alive_of_run ran named) 3).1⟩

end SafetyIsolation.Lifetimes

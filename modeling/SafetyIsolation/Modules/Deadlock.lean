import Mathlib.Order.WithBot
import SafetyIsolation.Harness.LoaderLocks
import SafetyIsolation.Interleaving.Alone
import SafetyIsolation.Interleaving.LockOrder
import SafetyIsolation.Interleaving.RelyGuarantee

/-! When the threads of the harness can lock each other out. `load` takes the registry under its
own mutex and `cleanup_on_signal` takes it the other way round, and so do two move assignments
between the same loaders.
-/

namespace SafetyIsolation.Modules

open SafetyIsolation.Interleaving SafetyIsolation.Interleaving.Prog SafetyIsolation.Harness

/-- The thread is about to take the mutex. -/
def Waits (c : LoaderConfig) (tid : Nat) (mutex : LoaderMutex) : Prop :=
  ∃ call next, c.threads tid = .running call (.act (.lock mutex) next)

def Holds (c : LoaderConfig) (tid : Nat) (mutex : LoaderMutex) : Prop :=
  c.world.state.owner mutex = some tid

-----------------------------------------------------------------------------------------
-- The mutexes of each call
-----------------------------------------------------------------------------------------

/-- What a call takes while it holds the mutexes of the list, latest first. -/
def permits : LockedCall → List LoaderMutex → LoaderMutex → Bool
  | .load id _ _, [], mutex => mutex = .loader id
  | .load id _ _, [held], mutex => held = .loader id && mutex = .registry
  | .unload id _, [], mutex => mutex = .loader id
  | .unloadAll id, [], mutex => mutex = .loader id
  | .moveAssign id _, [], mutex => mutex = .loader id
  | .moveAssign id other, [held], mutex =>
      id ≠ other && held = .loader id && mutex = .loader other
  | .cleanupOnSignal, [], mutex => mutex = .registry
  | .cleanupOnSignal, [held], mutex => held = .registry && mutex ≠ .registry
  | _, _, _ => false

/-- The mutexes a call holds. `exit` does not return. -/
def noteLock (call : LockedCall)
    : (op : LockOp) → op.Res → List LoaderMutex → Option (List LoaderMutex)
  | .lock mutex, _, held => if permits call held mutex then some (mutex :: held) else none
  | .unlock mutex, _, held => if held.head? = some mutex then some held.tail else none
  | .exit _, _, _ => some []
  | _, _, held => some held

instance (op : LockOp) : Nonempty op.Res := by
  cases op with
  | system op => exact inferInstanceAs (Nonempty op.Res)
  | _ => infer_instance

/-- Code that ends with the mutexes it started with. -/
def Balanced {α : Type} (call : LockedCall) (held : List LoaderMutex) (code : Locked α) : Prop :=
  code.Always (observed (noteLock call)) (fun _ => True) (fun _ later => later = held) held

namespace Balanced

variable {α β : Type} {call : LockedCall} {held : List LoaderMutex}

theorem pure (value : α) : Balanced call held (Pure.pure value) := rfl

theorem bind {code : Locked α} {next : α → Locked β} (first : Balanced call held code)
    (rest : ∀ value, Balanced call held (next value))
    : Balanced call held (code >>= next) :=
  always_bind.mpr (Always.imp first (fun value _ same => same ▸ rest value))

theorem sys (operation : SysOp) : Balanced call held (Locked.sys operation) :=
  always_observed_act.mpr (fun _ => ⟨held, rfl, rfl⟩)

theorem modules (id : LoaderId) : Balanced call held (Locked.op (.modules id)) :=
  always_observed_act.mpr (fun _ => ⟨held, rfl, rfl⟩)

theorem setModules (id : LoaderId) (modules : List LoadedModule)
    : Balanced call held (Locked.op (.setModules id modules)) :=
  always_observed_act.mpr (fun _ => ⟨held, rfl, rfl⟩)

theorem activeLoaders : Balanced call held (Locked.op .activeLoaders) :=
  always_observed_act.mpr (fun _ => ⟨held, rfl, rfl⟩)

theorem setActiveLoaders (loaders : List LoaderId)
    : Balanced call held (Locked.op (.setActiveLoaders loaders)) :=
  always_observed_act.mpr (fun _ => ⟨held, rfl, rfl⟩)

theorem lockGuard {mutex : LoaderMutex} {block : Locked α}
    (permitted : permits call held mutex = true) (inside : Balanced call (mutex :: held) block)
    : Balanced call held (Locked.lockGuard mutex block) := by
  refine always_observed_act.mpr (fun _ => ⟨mutex :: held, if_pos permitted, ?_⟩)
  rw [ret_bind]
  refine always_bind.mpr (Always.imp inside ?_)
  rintro value _ rfl
  exact always_observed_act.mpr (fun _ => ⟨held, if_pos rfl, rfl⟩)

/-- The loop of `unload_all`, by induction over the modules. -/
theorem unloadEach (id : LoaderId) (modules : List LoadedModule)
    : Balanced call held (Locked.unloadEach id modules) := by
  induction modules with
  | nil => exact .pure ()
  | cons mod rest ih =>
      exact .bind (.sys _) (fun _ => .bind (.modules id) (fun _ => .bind (.setModules id _)
        (fun _ => ih)))

theorem unloadAll {id : LoaderId} (permitted : permits call held (.loader id) = true)
    : Balanced call held (Locked.unloadAll id) :=
  .lockGuard permitted (.bind (.modules id) (fun _ => .unloadEach id _))

theorem registerInstance {id : LoaderId} (permitted : permits call held .registry = true)
    : Balanced call held (Locked.registerInstance id) :=
  .lockGuard permitted (.bind .activeLoaders (fun _ => .setActiveLoaders _))

theorem resolve (path : Path) : Balanced call held (Locked.resolve path) := by
  refine .bind (.sys _) (fun found => ?_)
  split
  · exact .pure _
  · refine .bind (.sys _) (fun found => ?_)
    split
    · exact .pure _
    · refine .bind (.sys _) (fun found => ?_)
      split
      · exact .pure _
      · exact .pure _

theorem loadFile {id : LoaderId} (permitted : permits call held .registry = true) (path : Path)
    (params : String)
    : Balanced call held (Locked.loadFile id path params) := by
  refine .bind (.modules id) (fun modules => ?_)
  split
  · exact .pure _
  · refine .bind (.sys _) (fun code => ?_)
    split
    · exact .pure _
    · exact .bind (.modules id) (fun _ => .bind (.setModules id _) (fun _ =>
        .bind (.registerInstance permitted) (fun _ => .pure _)))

theorem load (id : LoaderId) (path : Path) (params : String)
    : Balanced (.load id path params) [] (Locked.load id path params) := by
  refine .lockGuard (decide_eq_true rfl) (.bind (.resolve path) (fun found => ?_))
  cases found with
  | none => exact .pure _
  | some target => exact .loadFile (by simp [permits]) target params

theorem unload (id : LoaderId) (name : String)
    : Balanced (.unload id name) [] (Locked.unload id name) := by
  refine .lockGuard (decide_eq_true rfl) (.bind (.modules id) (fun modules => ?_))
  split
  · exact .pure _
  · refine .bind (.sys _) (fun code => ?_)
    split
    · exact .pure _
    · exact .bind (.modules id) (fun _ => .bind (.setModules id _) (fun _ => .pure _))

theorem moveAssign (id other : LoaderId)
    : Balanced (.moveAssign id other) [] (Locked.moveAssign id other) := by
  unfold Locked.moveAssign
  split
  · rename_i distinct
    refine .bind (.unloadAll (decide_eq_true rfl)) (fun _ => ?_)
    refine .lockGuard (decide_eq_true rfl) (.lockGuard (by simp [permits, distinct]) ?_)
    exact .bind (.modules other) (fun _ => .bind (.setModules id _) (fun _ =>
      .setModules other _))
  · exact .pure ()

/-- The loop of `cleanup_on_signal`, by induction over the registered loaders. -/
theorem unloadActive (loaders : List LoaderId)
    : Balanced .cleanupOnSignal [.registry] (Locked.unloadActive loaders) := by
  induction loaders with
  | nil => exact .pure ()
  | cons id rest ih => exact .bind (.unloadAll rfl) (fun _ => ih)

theorem cleanupOnSignal : Balanced .cleanupOnSignal [] Locked.cleanupOnSignal := by
  refine .bind (.sys _) (fun received => ?_)
  split
  · refine .bind (.sys _) (fun sig => .bind (.sys _) (fun _ => ?_))
    refine always_observed_act.mpr (fun _ => ⟨[.registry], rfl, ?_⟩)
    rw [ret_bind]
    refine always_bind.mpr (Always.imp Balanced.activeLoaders ?_)
    rintro loaders _ rfl
    refine always_bind.mpr (Always.imp (unloadActive loaders) ?_)
    rintro _ _ rfl
    exact always_observed_act.mpr (fun _ => ⟨[], rfl, rfl⟩)
  · exact .pure ()

/-- Each call takes its mutexes as `permits` says and returns them. -/
theorem body (call : LockedCall) : Balanced call [] call.body := by
  cases call with
  | load id path params => exact .bind (.load id path params) (fun _ => .pure ())
  | unload id name => exact .bind (.unload id name) (fun _ => .pure ())
  | unloadAll id => exact .unloadAll (decide_eq_true rfl)
  | moveAssign id other => exact .moveAssign id other
  | cleanupOnSignal => exact .cleanupOnSignal

end Balanced

/-- A call that holds the first mutex and takes the second one. -/
inductive TakesUnder : LockedCall → LoaderMutex → LoaderMutex → Prop where
  | load (id : LoaderId) (path : Path) (params : String)
      : TakesUnder (.load id path params) (.loader id) .registry
  | moveAssign (id other : LoaderId)
      : TakesUnder (.moveAssign id other) (.loader id) (.loader other)
  | cleanupOnSignal (id : LoaderId) : TakesUnder .cleanupOnSignal .registry (.loader id)

theorem permits_takesUnder {call : LockedCall} {held : List LoaderMutex}
    {mutex other : LoaderMutex} (permitted : permits call held mutex = true)
    (member : other ∈ held)
    : TakesUnder call other mutex := by
  fun_cases permits call held mutex with
  | case2 id path params held =>
      obtain ⟨rfl, rfl⟩ : held = .loader id ∧ mutex = .registry := by
        simpa [permits] using permitted
      obtain rfl := List.mem_singleton.mp member
      exact .load id path params
  | case6 id other held =>
      obtain ⟨⟨_, rfl⟩, rfl⟩ := by simpa [permits] using permitted
      obtain rfl := List.mem_singleton.mp member
      exact .moveAssign id other
  | case8 held =>
      obtain ⟨rfl, notRegistry⟩ : held = .registry ∧ mutex ≠ .registry := by
        simpa [permits] using permitted
      obtain rfl := List.mem_singleton.mp member
      cases mutex with
      | registry => exact absurd rfl notRegistry
      | loader id => exact .cleanupOnSignal id
  | case9 => simp_all [permits]
  | _ => cases member

-----------------------------------------------------------------------------------------
-- The mutexes of each thread
-----------------------------------------------------------------------------------------

/-- The thread holds the mutexes of the list, and the rest of its call returns them. -/
structure Following (s : LoaderState) (tid : Nat) (call : LockedCall) (rest : Locked Unit)
    (held : List LoaderMutex) : Prop where
  distinct : held.Nodup
  holds : ∀ mutex, s.owner mutex = some tid ↔ mutex ∈ held
  returns : rest.Always (observed (noteLock call)) (fun _ => True) (fun _ later => later = []) held

/-- What an operation does to the owners. -/
theorem lockExec_owner {needs : String → List String} {tid : Nat} {choice : Choice} {op : LockOp}
    {s s' : LoaderState} {result : op.Res}
    (done : lockExec needs tid choice op s = .done result s')
    : (∃ mutex, op = .lock mutex ∧ s.owner mutex = none
        ∧ s'.owner = Function.update s.owner mutex (some tid))
      ∨ (∃ mutex, op = .unlock mutex ∧ s'.owner = Function.update s.owner mutex none)
      ∨ (s'.owner = s.owner ∧ ∀ call held, noteLock call op result held = some held) := by
  cases op with
  | lock mutex =>
      simp only [lockExec] at done
      split at done
      · rename_i free
        cases done
        exact .inl ⟨mutex, rfl, free, rfl⟩
      · cases done
  | unlock mutex =>
      cases done
      exact .inr (.inl ⟨mutex, rfl, rfl⟩)
  | system op =>
      simp only [lockExec] at done
      split at done
      · cases done
        exact .inr (.inr ⟨rfl, fun _ _ => rfl⟩)
      · cases done
      · cases done
  | exit code => cases done
  | _ =>
      cases done
      exact .inr (.inr ⟨rfl, fun _ _ => rfl⟩)

theorem lockExec_ne_fault (needs : String → List String) (tid : Nat) (choice : Choice)
    (op : LockOp) (s : LoaderState)
    : lockExec needs tid choice op s ≠ .fault := by
  intro trapped
  cases op with
  | lock mutex =>
      simp only [lockExec] at trapped
      split at trapped
      · cases trapped
      · cases trapped
  | system op => cases op <;> cases trapped
  | _ => cases trapped

/-- One operation of a thread, with what it changes for the others. -/
theorem Following.act {needs : String → List String} {tid : Nat} {choice : Choice} {op : LockOp}
    {next : op.Res → Locked Unit} {s s' : LoaderState} {result : op.Res} {call : LockedCall}
    {held : List LoaderMutex} (follows : Following s tid call (.act op next) held)
    (done : lockExec needs tid choice op s = .done result s')
    : (∃ later, Following s' tid call (next result) later)
      ∧ ∀ other ≠ tid, ∀ mutex, s'.owner mutex = some other ↔ s.owner mutex = some other := by
  obtain ⟨later, noted, returns⟩ := always_observed_act.mp follows.returns result
  obtain ⟨mutex, rfl, free, owners⟩ | ⟨mutex, rfl, owners⟩ | ⟨owners, silent⟩ :=
    lockExec_owner done
  · obtain ⟨_, same⟩ := Option.ite_none_right_eq_some.mp noted
    cases same
    have isNew : mutex ∉ held := by
      intro member
      have owned := (follows.holds mutex).mpr member
      rw [free] at owned
      cases owned
    refine ⟨⟨_, List.nodup_cons.mpr ⟨isNew, follows.distinct⟩, ?_, returns⟩, ?_⟩
    · intro found
      rw [owners, Function.update_apply, List.mem_cons, ← follows.holds]
      split <;> simp_all
    · intro other different found
      rw [owners, Function.update_apply]
      split <;> simp_all [different.symm]
  · obtain ⟨isLast, same⟩ := Option.ite_none_right_eq_some.mp noted
    cases same
    obtain ⟨earlier, rfl⟩ := List.head?_eq_some_iff.mp isLast
    obtain ⟨isLatest, distinct⟩ := List.nodup_cons.mp follows.distinct
    have owned := (follows.holds mutex).mpr List.mem_cons_self
    refine ⟨⟨_, distinct, ?_, returns⟩, ?_⟩
    · intro found
      rw [owners, Function.update_apply]
      have := follows.holds found
      split <;> simp_all
    · intro other different found
      rw [owners, Function.update_apply]
      split <;> simp_all [different.symm]
  · obtain rfl := Option.some.inj ((silent call held).symm.trans noted)
    refine ⟨⟨held, follows.distinct, ?_, returns⟩, ?_⟩
    · exact fun found => by rw [owners, follows.holds]
    · exact fun other _ found => by rw [owners]

/-- The threads make any calls, in any order. -/
def anyOrder : Policy LoaderState Nat LockedCall Choice LockOp where
  calls _ _ := true
  steps _ _ _ _ _ := true

/-- Threads hold mutexes within a call only, and no step takes or returns another's. -/
def ownership : Discipline LoaderState Nat LockedCall Unit LockOp LockOp.Res where
  inv _ := True
  rely tid w w' := ∀ mutex, w'.state.owner mutex = some tid ↔ w.state.owner mutex = some tid
  idle tid w := ∀ mutex, w.state.owner mutex ≠ some tid
  asserts tid call op w := ∀ mutex held, op = .lock mutex → w.state.owner held = some tid
    → TakesUnder call held mutex
  rely_refl _ _ _ := Iff.rfl
  rely_trans first second mutex := (second mutex).trans (first mutex)
  idle_stable same idle mutex := mt (same mutex).mp (idle mutex)

/-- A call that follows its list stays within the discipline, by program induction. -/
theorem Following.safe (needs : String → List String) {tid : Nat} {call : LockedCall}
    {rest : Locked Unit} {held : List LoaderMutex}
    {w : World LoaderState Nat LockedCall Unit LockOp LockOp.Res}
    (follows : Following w.state tid call rest held)
    : ownership.Safe (loaderThreads needs) anyOrder tid call rest w
        (ownership.Returns tid call) := by
  induction rest generalizing w held with
  | ret value =>
      intro w' same _
      obtain rfl : held = [] := follows.returns
      refine ⟨⟨trivial, fun _ _ _ => Iff.rfl⟩, fun mutex owned => ?_⟩
      exact absurd ((follows.holds mutex).mp ((same mutex).mp owned)) List.not_mem_nil
  | act op next ih =>
      intro w' same _
      have follows : Following w'.state tid call (.act op next) held :=
        ⟨follows.distinct, fun mutex => (same mutex).trans (follows.holds mutex), follows.returns⟩
      refine ⟨?_, fun choice _ => ?_⟩
      · rintro mutex earlier rfl owned
        obtain ⟨_, noted, _⟩ := always_observed_act.mp follows.returns ()
        have permitted := (Option.ite_none_right_eq_some.mp noted).1
        exact permits_takesUnder permitted ((follows.holds earlier).mp owned)
      · split
        · rename_i result state done
          obtain ⟨⟨later, after⟩, others⟩ := follows.act done
          exact ⟨⟨trivial, others⟩, ih result after⟩
        · trivial
        · rename_i trapped
          exact absurd trapped (lockExec_ne_fault _ _ _ _ _)

theorem ownership_sound (needs : String → List String)
    : ownership.Sound (loaderThreads needs) anyOrder := by
  intro tid call w _ _ idle
  refine ⟨⟨trivial, fun _ _ _ => Iff.rfl⟩, Following.safe needs ⟨List.nodup_nil, ?_, ?_⟩⟩
  · exact fun mutex => iff_of_false (idle mutex) List.not_mem_nil
  · exact Balanced.body call

-----------------------------------------------------------------------------------------
-- Calls that do not meet
-----------------------------------------------------------------------------------------

/-- Some thread is in the call and holds the mutex. -/
def Holding (c : LoaderConfig) (call : LockedCall) (mutex : LoaderMutex) : Prop :=
  ∃ tid rest, c.threads tid = .running call rest ∧ Holds c tid mutex

/-- A `load` has taken the mutex of its loader. -/
def InLoad (c : LoaderConfig) : Prop :=
  ∃ id path params, Holding c (.load id path params) (.loader id)

/-- A `cleanup_on_signal` has found a signal and taken the registry. -/
def InCleanup (c : LoaderConfig) : Prop := Holding c .cleanupOnSignal .registry

/-- The loaders are ranked such that every move assignment that has taken its first mutex goes
up.
-/
def MovesUp (rank : LoaderId → Nat) (c : LoaderConfig) : Prop :=
  ∀ id other, Holding c (.moveAssign id other) (.loader id) → rank id < rank other

/-- `load` and `cleanup_on_signal` take their first mutex while the other one has not taken its
own, and a move assignment if the loaders can still be ranked.
-/
def MayTake (c : LoaderConfig) : LockedCall → LoaderMutex → Prop
  | .load _ _ _, .loader _ => ¬ InCleanup c
  | .cleanupOnSignal, .registry => ¬ InLoad c
  | .moveAssign id other, .loader taken =>
      taken = id → ∃ rank, rank id < rank other ∧ MovesUp rank c
  | _, _ => True

/-- A step that takes a mutex does so as `MayTake` says. -/
def Untangled (c : LoaderConfig) (event : Interleaving.Event Nat LockedCall Choice) : Prop :=
  ∀ tid choice call mutex next, event = .step tid choice
    → c.threads tid = .running call (.act (.lock mutex) next) → MayTake c call mutex

section Runs

variable {needs : String → List String} {c c' : LoaderConfig}
  {event : Interleaving.Event Nat LockedCall Choice}

theorem lockExec_taken {tid holder : Nat} {choice : Choice} {op : LockOp} {s s' : LoaderState}
    {result : op.Res} {mutex : LoaderMutex}
    (done : lockExec needs tid choice op s = .done result s')
    (owned : s'.owner mutex = some holder)
    : s.owner mutex = some holder ∨ (holder = tid ∧ op = .lock mutex) := by
  obtain ⟨taken, rfl, _, owners⟩ | ⟨released, rfl, owners⟩ | ⟨owners, _⟩ := lockExec_owner done
  · rw [owners, Function.update_apply] at owned
    split at owned
    · rename_i same
      exact .inr ⟨(Option.some.inj owned).symm, same ▸ rfl⟩
    · exact .inl owned
  · rw [owners, Function.update_apply] at owned
    split at owned
    · cases owned
    · exact .inl owned
  · exact .inl (owners ▸ owned)

/-- What a call holds after a step, it held before or has just taken. -/
theorem holding_step {call : LockedCall} {mutex : LoaderMutex}
    (ok : ownership.ConfigOk (loaderThreads needs) anyOrder c)
    (stepped : (loaderThreads needs).step anyOrder c event = some c')
    (holding : Holding c' call mutex)
    : Holding c call mutex
      ∨ ∃ tid choice next,
          event = .step tid choice ∧ c.threads tid = .running call (.act (.lock mutex) next) := by
  obtain ⟨found, rest, running, owned⟩ := holding
  by_cases own : found = event.tid
  · cases Machine.step_taken stepped with
    | call idle _ =>
        subst own
        have holdsNone := ok.threads found
        rw [idle] at holdsNone
        exact absurd owned (holdsNone mutex)
    | act isRunning _ done =>
        subst own
        dsimp only at running
        rw [Function.update_self] at running
        cases running
        rcases lockExec_taken done owned with before | ⟨_, rfl⟩
        · exact .inl ⟨_, _, isRunning, before⟩
        · exact .inr ⟨_, _, _, rfl, isRunning⟩
    | fault _ _ trapped => exact absurd trapped (lockExec_ne_fault _ _ _ _ _)
    | ret _ =>
        subst own
        dsimp only at running
        rw [Function.update_self] at running
        cases running
  · have before : Holds c found mutex := by
      cases Machine.step_taken stepped with
      | act _ _ done =>
          rcases lockExec_taken done owned with before | ⟨same, _⟩
          · exact before
          · exact absurd same own
      | call _ _ => exact owned
      | fault _ _ _ => exact owned
      | ret _ => exact owned
    exact .inl ⟨found, rest, (Machine.step_untouched stepped own).symm.trans running, before⟩

/-- What the condition keeps along a run. -/
structure Tidy (c : LoaderConfig) : Prop where
  apart : ¬ (InLoad c ∧ InCleanup c)
  ranked : ∃ rank, MovesUp rank c

theorem Tidy.step (ok : ownership.ConfigOk (loaderThreads needs) anyOrder c)
    (tidy : Tidy c) (untangled : Untangled c event)
    (stepped : (loaderThreads needs).step anyOrder c event = some c')
    : Tidy c' := by
  constructor
  · intro both
    obtain ⟨⟨id, path, params, loading⟩, cleaning⟩ := both
    rcases holding_step ok stepped loading with loaded | ⟨tid, choice, next, rfl, taking⟩
    · rcases holding_step ok stepped cleaning with cleaned | ⟨tid, choice, next, rfl, taking⟩
      · exact tidy.apart ⟨⟨id, path, params, loaded⟩, cleaned⟩
      · exact untangled tid choice _ _ next rfl taking ⟨id, path, params, loaded⟩
    · rcases holding_step ok stepped cleaning with cleaned | ⟨_, _, _, same, both⟩
      · exact untangled tid choice _ _ next rfl taking cleaned
      · cases same
        cases taking.symm.trans both
  · by_cases moving : ∃ tid choice id other next, event = .step tid choice
        ∧ c.threads tid = .running (.moveAssign id other) (.act (.lock (.loader id)) next)
    · obtain ⟨tid, choice, id, other, next, rfl, taking⟩ := moving
      obtain ⟨rank, up, movesUp⟩ := untangled tid choice _ _ next rfl taking rfl
      refine ⟨rank, fun source target holding => ?_⟩
      rcases holding_step ok stepped holding with before | ⟨_, _, _, same, also⟩
      · exact movesUp _ _ before
      · cases same
        cases taking.symm.trans also
        exact up
    · obtain ⟨rank, movesUp⟩ := tidy.ranked
      refine ⟨rank, fun id other holding => ?_⟩
      rcases holding_step ok stepped holding with before | ⟨tid, choice, next, same, taking⟩
      · exact movesUp _ _ before
      · exact absurd ⟨tid, choice, id, other, next, same, taking⟩ moving

/-- Where a waiting thread stands between what it holds and what it waits for. -/
theorem waits_under (ok : ownership.ConfigOk (loaderThreads needs) anyOrder c) {tid : Nat}
    {mutex held : LoaderMutex} (waits : Waits c tid mutex) (holds : Holds c tid held)
    : ∃ call, Holding c call held ∧ TakesUnder call held mutex := by
  obtain ⟨call, next, running⟩ := waits
  exact ⟨call, ⟨tid, _, running, holds⟩, ok.asserted running mutex held rfl holds⟩

/-- While nobody cleans up, the registry is taken last. -/
def registryLast (rank : LoaderId → Nat) : LoaderMutex → WithTop Nat
  | .registry => ⊤
  | .loader id => WithTop.some (rank id)

/-- While nobody loads, the registry is taken first. -/
def registryFirst (rank : LoaderId → Nat) : LoaderMutex → WithBot Nat
  | .registry => ⊥
  | .loader id => WithBot.some (rank id)

theorem Tidy.not_circularWait (ok : ownership.ConfigOk (loaderThreads needs) anyOrder c)
    (tidy : Tidy c) {threads : Set Nat} (finite : threads.Finite) (nonempty : threads.Nonempty)
    : ¬ CircularWait (Waits c) (Holds c) threads := by
  obtain ⟨rank, movesUp⟩ := tidy.ranked
  by_cases cleaning : InCleanup c
  · refine Interleaving.not_circularWait (registryFirst rank) ?_ finite nonempty
    intro tid mutex held waits holds
    obtain ⟨call, holding, under⟩ := waits_under ok waits holds
    cases under with
    | load id path params => exact absurd ⟨⟨id, path, params, holding⟩, cleaning⟩ tidy.apart
    | moveAssign id other => exact WithBot.coe_lt_coe.mpr (movesUp id other holding)
    | cleanupOnSignal id => exact WithBot.bot_lt_coe _
  · refine Interleaving.not_circularWait (registryLast rank) ?_ finite nonempty
    intro tid mutex held waits holds
    obtain ⟨call, holding, under⟩ := waits_under ok waits holds
    cases under with
    | load id path params => exact WithTop.coe_lt_top _
    | moveAssign id other => exact WithTop.coe_lt_coe.mpr (movesUp id other holding)
    | cleanupOnSignal id => exact absurd holding cleaning

end Runs

/-- As long as no `load` and no `cleanup_on_signal` have their first mutex at the same time and
the move assignments under way do not run in a circle, no threads wait for each other.
-/
theorem loaders_never_deadlock (needs : String → List String) {first : LoaderState}
    (free : ∀ mutex, first.owner mutex = none)
    {events : List (Interleaving.Event Nat LockedCall Choice)} {c : LoaderConfig}
    (ran : Steps ((loaderThreads needs).step anyOrder) Untangled (Config.start first) events c)
    {threads : Set Nat} (nonempty : threads.Nonempty)
    : ¬ CircularWait (Waits c) (Holds c) threads := by
  obtain ⟨ok, tidy⟩ : ownership.ConfigOk (loaderThreads needs) anyOrder c ∧ Tidy c := by
    refine ran.invariant (fun c => ownership.ConfigOk (loaderThreads needs) anyOrder c ∧ Tidy c)
      ?_ ?_
    · intro c event c' inv untangled stepped
      obtain ⟨ok, tidy⟩ := inv
      exact ⟨(ownership_sound needs).step ok stepped, tidy.step ok untangled stepped⟩
    · have idle : ∀ call mutex, ¬ Holding (Config.start first) call mutex := by
        intro call mutex active
        obtain ⟨tid, rest, running, _⟩ := active
        cases running
      refine ⟨.start trivial (fun tid mutex => ?_), ?_, 0, ?_⟩
      · rw [free]
        exact (Option.some_ne_none tid).symm
      · exact fun both => idle _ _ both.2
      · exact fun id other holding => absurd holding (idle _ _)
  intro circular
  refine tidy.not_circularWait ok (ran.finite_active.subset ?_) nonempty circular
  intro tid member idle
  obtain ⟨mutex, ⟨call, next, running⟩, _⟩ := circular tid member
  cases idle.symm.trans running

/-- The mutex a thread is about to take. -/
def wanted : Thread LockedCall Unit LockOp LockOp.Res → Option LoaderMutex
  | .running _ (.act (.lock mutex) _) => some mutex
  | _ => none

theorem waits_of_wanted {c : LoaderConfig} {tid : Nat} {mutex : LoaderMutex}
    (h : wanted (c.threads tid) = some mutex)
    : Waits c tid mutex := by
  unfold wanted at h
  split at h
  · rename_i call found next running
    cases h
    exact ⟨call, next, running⟩
  · cases h

/-- Loaders that track nothing, before any call. -/
def unstarted : LoaderState where
  owner _ := none
  heap := ⟨fun _ => some [], []⟩
  sys := ⟨0, ∅, []⟩

def stepsOf (tid count : Nat) : List (Interleaving.Event Nat LockedCall Choice) :=
  List.replicate count (.step tid {})

/-- One thread moves loader 1 into loader 0 while another one loads a module with it. -/
def contended : List (Interleaving.Event Nat LockedCall Choice) :=
  [.call 1 (.load 1 "modules/safety_mem.ko" ""), .call 0 (.moveAssign 0 1)] ++ stepsOf 1 2
    ++ stepsOf 0 4

/-- The move waits for the load, and nobody waits for the move. -/
theorem loaders_never_deadlock_moved
    : ∃ c, Steps ((loaderThreads fun _ => []).step anyOrder) Untangled (Config.start unstarted)
          contended c
        ∧ Waits c 0 (.loader 1) ∧ Holds c 0 (.loader 0) ∧ Holds c 1 (.loader 1)
        ∧ ¬ CircularWait (Waits c) (Holds c) {0, 1} := by
  obtain ⟨c, ran, seen⟩ := Option.map_eq_some_iff.mp
    (show ((loaderThreads fun _ => []).run anyOrder (Config.start unstarted) contended).map
        (fun c => (wanted (c.threads 0), c.world.state.owner (.loader 0),
          c.world.state.owner (.loader 1)))
      = some (some (.loader 1), some 0, some 1) by decide)
  rw [Prod.mk.injEq, Prod.mk.injEq] at seen
  obtain ⟨waits, own, other⟩ := seen
  have called : ∀ event ∈ contended, ∀ tid call, event = .call tid call
      → call = .moveAssign 0 1 ∨ call = .load 1 "modules/safety_mem.ko" "" := by
    simp [contended, stepsOf]
  have untangled : Steps ((loaderThreads fun _ => []).step anyOrder) Untangled
      (Config.start unstarted) contended c := by
    refine Steps.of_run (fun c => ∀ tid call rest, c.threads tid = .running call rest
      → call = .moveAssign 0 1 ∨ call = .load 1 "modules/safety_mem.ko" "") ran ?_ ?_ ?_
    · intro c event c' member inv stepped
      refine Machine.step_running inv (fun tid call isCall _ => ?_)
        (fun _ _ _ _ _ _ _ _ _ _ good => good) stepped
      exact called event member tid call isCall
    · intro c event _ inv tid choice call mutex next _ taking
      rcases inv tid call _ taking with rfl | rfl
      · cases mutex with
        | registry => trivial
        | loader id =>
            refine fun _ => ⟨fun id => id, by decide, fun source target holding => ?_⟩
            obtain ⟨tid, rest, running, _⟩ := holding
            rcases inv tid _ rest running with same | same
            · cases same
              decide
            · cases same
      · cases mutex with
        | registry => trivial
        | loader id =>
            intro active
            obtain ⟨tid, rest, running, _⟩ := active
            rcases inv tid _ rest running with same | same
            · cases same
            · cases same
    · intro tid call rest running
      cases running
  refine ⟨c, untangled, waits_of_wanted waits, own, other, ?_⟩
  exact loaders_never_deadlock (fun _ => []) (fun _ => rfl) untangled ⟨0, .inl rfl⟩

/-- A second `load` has the loader's mutex when the cleanup has the registry. -/
def signalled : List (Interleaving.Event Nat LockedCall Choice) :=
  .call 0 (.load 0 "modules/safety_mem.ko" "") :: stepsOf 0 11
    ++ [.ret 0, .call 0 (.load 0 "modules/ctx_monitor.ko" "")] ++ stepsOf 0 6
    ++ [.call 1 .cleanupOnSignal, .step 1 { signal := some .sigint }] ++ stepsOf 1 4

/-- Two loaders are moved into each other. -/
def opposed : List (Interleaving.Event Nat LockedCall Choice) :=
  .call 0 (.moveAssign 0 1) :: stepsOf 0 4 ++ .call 1 (.moveAssign 1 0) :: stepsOf 1 4

/-- Two threads, each of which waits for a mutex of the other. -/
theorem circularWait_pair {c : LoaderConfig} {one other : LoaderMutex}
    (shown : (wanted (c.threads 0), c.world.state.owner one, wanted (c.threads 1),
      c.world.state.owner other) = (some one, some 1, some other, some 0))
    : CircularWait (Waits c) (Holds c) {0, 1} := by
  simp only [Prod.mk.injEq] at shown
  obtain ⟨wantsOne, holdsOne, wantsOther, holdsOther⟩ := shown
  intro tid either
  rcases either with rfl | rfl
  · exact ⟨one, waits_of_wanted wantsOne, 1, .inr rfl, Nat.one_ne_zero, holdsOne⟩
  · exact ⟨other, waits_of_wanted wantsOther, 0, .inl rfl, Nat.zero_ne_one, holdsOther⟩

/-- Both the cleanup with a load and two move assignments can block each other for good. -/
theorem loaders_deadlock
    : (∀ mutex, unstarted.owner mutex = none)
      ∧ (∃ c, (loaderThreads fun _ => []).run anyOrder (Config.start unstarted) signalled = some c
          ∧ CircularWait (Waits c) (Holds c) {0, 1})
      ∧ (∃ c, (loaderThreads fun _ => []).run anyOrder (Config.start unstarted) opposed = some c
          ∧ CircularWait (Waits c) (Holds c) {0, 1}) := by
  refine ⟨fun _ => rfl, ?_, ?_⟩
  · obtain ⟨c, ran, seen⟩ := Option.map_eq_some_iff.mp
      (show ((loaderThreads fun _ => []).run anyOrder (Config.start unstarted) signalled).map
          (fun c => (wanted (c.threads 0), c.world.state.owner .registry, wanted (c.threads 1),
            c.world.state.owner (.loader 0)))
        = some (some .registry, some 1, some (.loader 0), some 0) by decide)
    exact ⟨c, ran, circularWait_pair seen⟩
  · obtain ⟨c, ran, seen⟩ := Option.map_eq_some_iff.mp
      (show ((loaderThreads fun _ => []).run anyOrder (Config.start unstarted) opposed).map
          (fun c => (wanted (c.threads 0), c.world.state.owner (.loader 1), wanted (c.threads 1),
            c.world.state.owner (.loader 0)))
        = some (some (.loader 1), some 1, some (.loader 0), some 0) by decide)
    exact ⟨c, ran, circularWait_pair seen⟩

end SafetyIsolation.Modules

import Mathlib.Logic.Function.Basic

/-! Programs are trees of atomic operations, read either alone or among other threads.
Both readings use the same program text, so a sequential result and a result about every
interleaving speak about the same code.
-/

namespace SafetyIsolation.Interleaving

/-- A program performs one atomic operation at a time and continues with its result. -/
inductive Prog (Op : Type) (Res : Op → Type) (α : Type) : Type where
  | ret (value : α)
  | act (op : Op) (next : Res op → Prog Op Res α)

/-- What one attempted operation does: it completes, it has to wait, or it traps. -/
inductive Outcome (ρ σ : Type) where
  | done (result : ρ) (state : σ)
  | wait
  | fault
  deriving DecidableEq

def Outcome.toOption {α σ : Type} : Outcome α σ → Option (α × σ)
  | .done result state => some (result, state)
  | .wait => none
  | .fault => none

theorem Outcome.eq_done {α σ : Type} {outcome : Outcome α σ} {result : α} {state : σ}
    (h : outcome.toOption = some (result, state))
    : outcome = .done result state := by
  cases outcome with
  | done found after =>
      cases h
      rfl
  | wait => cases h
  | fault => cases h

namespace Prog

variable {Op : Type} {Res : Op → Type} {α β : Type}

/-- Continue a program with another one, grafted at every return. -/
def bind : Prog Op Res α → (α → Prog Op Res β) → Prog Op Res β
  | .ret value, f => f value
  | .act op next, f => .act op (fun result => (next result).bind f)

instance : Monad (Prog Op Res) where
  pure := .ret
  bind := bind

/-- The program that performs one operation and returns its result. -/
def perform (op : Op) : Prog Op Res (Res op) := .act op .ret

@[simp] theorem monad_bind (prog : Prog Op Res α) (f : α → Prog Op Res β)
    : (prog >>= f) = prog.bind f := rfl

@[simp] theorem monad_pure (value : α) : (pure value : Prog Op Res α) = .ret value := rfl

@[simp] theorem ret_bind (value : α) (f : α → Prog Op Res β)
    : (ret value : Prog Op Res α).bind f = f value := rfl

@[simp] theorem act_bind (op : Op) (next : Res op → Prog Op Res α) (f : α → Prog Op Res β)
    : (act op next).bind f = act op (fun result => (next result).bind f) := rfl

theorem bind_assoc {γ : Type} (prog : Prog Op Res α) (f : α → Prog Op Res β)
    (g : β → Prog Op Res γ)
    : (prog.bind f).bind g = prog.bind (fun value => (f value).bind g) := by
  induction prog with
  | ret value => rfl
  | act op next ih => exact congrArg (act op) (funext ih)

theorem bind_ret (prog : Prog Op Res α) : prog.bind .ret = prog := by
  induction prog with
  | ret value => rfl
  | act op next ih => exact congrArg (act op) (funext ih)

/-- Every operation the program can reach, whatever results it sees, satisfies `good`. -/
def All (good : Op → Prop) : Prog Op Res α → Prop
  | .ret _ => True
  | .act op next => good op ∧ ∀ result, (next result).All good

theorem All.imp {good better : Op → Prop} (weaker : ∀ op, good op → better op)
    {prog : Prog Op Res α} (h : prog.All good)
    : prog.All better := by
  induction prog with
  | ret value => trivial
  | act op next ih => exact ⟨weaker op h.1, fun result => ih result (h.2 result)⟩

theorem All.of_forall {good : Op → Prop} {prog : Prog Op Res α} (h : ∀ op, good op)
    : prog.All good := by
  induction prog with
  | ret value => trivial
  | act op next ih => exact ⟨h op, ih⟩

/-- Every value the program can return, whatever results it sees, satisfies `good`. -/
def Yields (good : α → Prop) : Prog Op Res α → Prop
  | .ret value => good value
  | .act _ next => ∀ result, (next result).Yields good

theorem Yields.imp {good better : α → Prop} (weaker : ∀ value, good value → better value)
    {prog : Prog Op Res α} (h : prog.Yields good)
    : prog.Yields better := by
  induction prog with
  | ret value => exact weaker value h
  | act op next ih => exact fun result => ih result (h result)

/-- Run a program without interference. One choice is consumed by each operation and an
exhausted list supplies the default choice.
-/
def runAlone {σ Choice : Type} [Inhabited Choice]
    (exec : Choice → (op : Op) → σ → Outcome (Res op) σ)
    : Prog Op Res α → List Choice → σ → Outcome α σ
  | .ret value, _, state => .done value state
  | .act op next, choices, state =>
      match exec (choices.headD default) op state with
      | .done result later => (next result).runAlone exec choices.tail later
      | .wait => .wait
      | .fault => .fault

end Prog

/-- One recorded step: a call, an operation with its result (`none` for a trap), or a
return.
-/
inductive Label (Tid Call Val Op : Type) (Res : Op → Type) where
  | call (tid : Tid) (call : Call)
  | act (tid : Tid) (call : Call) (op : Op) (result : Option (Res op))
  | ret (tid : Tid) (call : Call) (value : Val)

/-- The shared state together with everything that has happened so far, oldest first. -/
structure World (σ Tid Call Val Op : Type) (Res : Op → Type) where
  state : σ
  history : List (Label Tid Call Val Op Res)

/-- A thread is between calls, inside one, or was killed by a trap. -/
inductive Thread (Call Val Op : Type) (Res : Op → Type) where
  | idle
  | running (call : Call) (rest : Prog Op Res Val)
  | dead

/-- The thread is between calls. -/
def Thread.isIdle {Call Val Op : Type} {Res : Op → Type} : Thread Call Val Op Res → Bool
  | .idle => true
  | _ => false

theorem Thread.eq_idle {Call Val Op : Type} {Res : Op → Type} {thread : Thread Call Val Op Res}
    (h : thread.isIdle = true)
    : thread = .idle := by
  cases thread with
  | idle => rfl
  | running call rest => cases h
  | dead => cases h

/-- A global configuration. -/
structure Config (σ Tid Call Val Op : Type) (Res : Op → Type) where
  world : World σ Tid Call Val Op Res
  threads : Tid → Thread Call Val Op Res

/-- One scheduling decision. -/
inductive Event (Tid Call Choice : Type) where
  | call (tid : Tid) (call : Call)
  | step (tid : Tid) (choice : Choice)
  | ret (tid : Tid)

def Event.tid {Tid Call Choice : Type} : Event Tid Call Choice → Tid
  | .call tid _ => tid
  | .step tid _ => tid
  | .ret tid => tid

/-- The operations' meaning and the code of each call. -/
structure Machine (σ Tid Call Val Choice Op : Type) (Res : Op → Type) where
  exec : Tid → Choice → (op : Op) → σ → Outcome (Res op) σ
  body : Call → Prog Op Res Val

/-- What the environment of a run may do: the calls it makes and, operation by operation,
the choices it takes in the state where the operation runs.
-/
structure Policy (σ Tid Call Choice Op : Type) where
  calls : Tid → Call → Bool
  steps : Tid → Call → Op → Choice → σ → Bool

variable {σ Tid Call Val Choice Op : Type} {Res : Op → Type}

/-- Record one step and its resulting shared state. -/
def World.push (w : World σ Tid Call Val Op Res) (state : σ)
    (label : Label Tid Call Val Op Res)
    : World σ Tid Call Val Op Res :=
  ⟨state, w.history ++ [label]⟩

@[simp] theorem World.push_state (w : World σ Tid Call Val Op Res) (state : σ)
    (label : Label Tid Call Val Op Res)
    : (w.push state label).state = state := rfl

@[simp] theorem World.push_history (w : World σ Tid Call Val Op Res) (state : σ)
    (label : Label Tid Call Val Op Res)
    : (w.push state label).history = w.history ++ [label] := rfl

/-- Every step of a history meets `ok`, given the steps before it. -/
def Throughout {α : Type} (ok : List α → α → Prop) (history : List α) : Prop :=
  ∀ earlier label later, history = earlier ++ label :: later → ok earlier label

theorem Throughout.nil {α : Type} (ok : List α → α → Prop) : Throughout ok [] := by
  intro earlier label later split
  simp at split

/-- The last step is the only new one. -/
theorem Throughout.push {α : Type} {ok : List α → α → Prop} {history : List α} {label : α}
    (h : Throughout ok history) (last : ok history label)
    : Throughout ok (history ++ [label]) := by
  intro earlier found later split
  rcases List.eq_nil_or_concat later with rfl | ⟨init, final, rfl⟩
  · obtain ⟨rfl, same⟩ := List.append_inj' split rfl
    cases same
    exact last
  · rw [List.concat_eq_append, ← List.cons_append, ← List.append_assoc] at split
    exact h earlier found init (List.append_inj' split rfl).1

/-- All threads idle and nothing recorded yet. -/
def Config.start (state : σ) : Config σ Tid Call Val Op Res :=
  ⟨⟨state, []⟩, fun _ => .idle⟩

namespace Machine

variable [DecidableEq Tid] (m : Machine σ Tid Call Val Choice Op Res)
  (p : Policy σ Tid Call Choice Op)

/-- Take one scheduling decision, if it is enabled and the policy admits it. -/
def step (c : Config σ Tid Call Val Op Res)
    : Event Tid Call Choice → Option (Config σ Tid Call Val Op Res)
  | .call tid call =>
      match c.threads tid with
      | .idle =>
          if p.calls tid call then
            some ⟨
              c.world.push c.world.state (.call tid call),
              Function.update c.threads tid (.running call (m.body call))
            ⟩
          else none
      | _ => none
  | .step tid choice =>
      match c.threads tid with
      | .running call (.act op next) =>
          if p.steps tid call op choice c.world.state then
            match m.exec tid choice op c.world.state with
            | .done result state =>
                some ⟨
                  c.world.push state (.act tid call op (some result)),
                  Function.update c.threads tid (.running call (next result))
                ⟩
            | .fault =>
                some ⟨
                  c.world.push c.world.state (.act tid call op none),
                  Function.update c.threads tid .dead
                ⟩
            | .wait => none
          else none
      | _ => none
  | .ret tid =>
      match c.threads tid with
      | .running call (.ret value) =>
          some ⟨
            c.world.push c.world.state (.ret tid call value),
            Function.update c.threads tid .idle
          ⟩
      | _ => none

/-- Follow a whole schedule; a decision that is not enabled ends the attempt. -/
def run (c : Config σ Tid Call Val Op Res)
    : List (Event Tid Call Choice) → Option (Config σ Tid Call Val Op Res)
  | [] => some c
  | event :: rest => (m.step p c event).bind (fun next => run next rest)

/-- Some schedule admitted by the policy leads from `first` to `last`. -/
def Reachable (first last : Config σ Tid Call Val Op Res) : Prop :=
  ∃ events, m.run p first events = some last

variable {m p}

/-- A property kept by every admitted step holds along every run, by schedule induction.
-/
theorem Reachable.invariant {first last : Config σ Tid Call Val Op Res}
    (I : Config σ Tid Call Val Op Res → Prop) (initially : I first)
    (preserved : ∀ c event c', I c → m.step p c event = some c' → I c')
    (h : m.Reachable p first last)
    : I last := by
  obtain ⟨events, h⟩ := h
  induction events generalizing first with
  | nil =>
      have same : first = last := Option.some.inj h
      exact same ▸ initially
  | cons event rest ih =>
      obtain ⟨next, taken, later⟩ := Option.bind_eq_some_iff.mp h
      exact ih (preserved first event next initially taken) later

/-- What a schedule shows is shown by a reachable configuration. -/
theorem Reachable.observed {β : Type} {first : Config σ Tid Call Val Op Res}
    (events : List (Event Tid Call Choice)) (observe : Config σ Tid Call Val Op Res → β)
    {expected : β} (shown : (m.run p first events).map observe = some expected)
    : ∃ last, m.Reachable p first last ∧ observe last = expected := by
  obtain ⟨last, ran, observed⟩ := Option.map_eq_some_iff.mp shown
  exact ⟨last, ⟨events, ran⟩, observed⟩

/-- What one scheduling decision can do, one case for each kind of event. -/
inductive Taken (m : Machine σ Tid Call Val Choice Op Res) (p : Policy σ Tid Call Choice Op)
    (c : Config σ Tid Call Val Op Res)
    : Event Tid Call Choice → Config σ Tid Call Val Op Res → Prop where
  | call {tid : Tid} {call : Call} (idle : c.threads tid = .idle)
      (admitted : p.calls tid call = true)
      : Taken m p c (.call tid call) ⟨
          c.world.push c.world.state (.call tid call),
          Function.update c.threads tid (.running call (m.body call))
        ⟩
  | act {tid : Tid} {call : Call} {op : Op} {next : Res op → Prog Op Res Val} {choice : Choice}
      {result : Res op} {state : σ} (running : c.threads tid = .running call (.act op next))
      (admitted : p.steps tid call op choice c.world.state = true)
      (done : m.exec tid choice op c.world.state = .done result state)
      : Taken m p c (.step tid choice) ⟨
          c.world.push state (.act tid call op (some result)),
          Function.update c.threads tid (.running call (next result))
        ⟩
  | fault {tid : Tid} {call : Call} {op : Op} {next : Res op → Prog Op Res Val}
      {choice : Choice} (running : c.threads tid = .running call (.act op next))
      (admitted : p.steps tid call op choice c.world.state = true)
      (trapped : m.exec tid choice op c.world.state = .fault)
      : Taken m p c (.step tid choice) ⟨
          c.world.push c.world.state (.act tid call op none),
          Function.update c.threads tid .dead
        ⟩
  | ret {tid : Tid} {call : Call} {value : Val}
      (running : c.threads tid = .running call (.ret value))
      : Taken m p c (.ret tid) ⟨
          c.world.push c.world.state (.ret tid call value),
          Function.update c.threads tid .idle
        ⟩

theorem step_taken {c c' : Config σ Tid Call Val Op Res} {event : Event Tid Call Choice}
    (h : m.step p c event = some c')
    : Taken m p c event c' := by
  cases event with
  | call tid call =>
      simp only [step] at h
      split at h
      · split at h
        · rename_i idle admitted
          exact Option.some.inj h ▸ .call idle admitted
        · cases h
      · cases h
  | step tid choice =>
      simp only [step] at h
      split at h
      · rename_i call op next running
        split at h
        · rename_i admitted
          split at h
          · rename_i result state done
            exact Option.some.inj h ▸ .act running admitted done
          · rename_i trapped
            exact Option.some.inj h ▸ .fault running admitted trapped
          · cases h
        · cases h
      · cases h
  | ret tid =>
      simp only [step] at h
      split at h
      · rename_i call value running
        exact Option.some.inj h ▸ .ret running
      · cases h

/-- The same as a disjunction, without the event. -/
theorem step_cases {c c' : Config σ Tid Call Val Op Res} {event : Event Tid Call Choice}
    (h : m.step p c event = some c')
    : (∃ tid call,
        c.threads tid = .idle
        ∧ p.calls tid call = true
        ∧ c' = ⟨
            c.world.push c.world.state (.call tid call),
            Function.update c.threads tid (.running call (m.body call))
          ⟩)
      ∨ (∃ tid call op next choice result state,
        c.threads tid = .running call (.act op next)
        ∧ p.steps tid call op choice c.world.state = true
        ∧ m.exec tid choice op c.world.state = .done result state
        ∧ c' = ⟨
            c.world.push state (.act tid call op (some result)),
            Function.update c.threads tid (.running call (next result))
          ⟩)
      ∨ (∃ tid call op next choice,
        c.threads tid = .running call (.act op next)
        ∧ p.steps tid call op choice c.world.state = true
        ∧ m.exec tid choice op c.world.state = .fault
        ∧ c' = ⟨
            c.world.push c.world.state (.act tid call op none),
            Function.update c.threads tid .dead
          ⟩)
      ∨ (∃ tid call value,
        c.threads tid = .running call (.ret value)
        ∧ c' = ⟨
            c.world.push c.world.state (.ret tid call value),
            Function.update c.threads tid .idle
          ⟩) := by
  cases step_taken h with
  | call idle admitted => exact .inl ⟨_, _, idle, admitted, rfl⟩
  | act running admitted done =>
      exact .inr (.inl ⟨_, _, _, _, _, _, _, running, admitted, done, rfl⟩)
  | fault running admitted trapped =>
      exact .inr (.inr (.inl ⟨_, _, _, _, _, running, admitted, trapped, rfl⟩))
  | ret running => exact .inr (.inr (.inr ⟨_, _, _, running, rfl⟩))

/-- A decision about one thread leaves the others where they are. -/
theorem step_untouched {c c' : Config σ Tid Call Val Op Res} {event : Event Tid Call Choice}
    {tid : Tid} (h : m.step p c event = some c') (other : tid ≠ event.tid)
    : c'.threads tid = c.threads tid := by
  cases step_taken h with
  | call _ _ => exact Function.update_of_ne other _ _
  | act _ _ _ => exact Function.update_of_ne other _ _
  | fault _ _ _ => exact Function.update_of_ne other _ _
  | ret _ => exact Function.update_of_ne other _ _

/-- A property of the code that is left to a thread is kept by a decision, if the code of a new
call has it and the rest of an operation's code inherits it.
-/
theorem step_running {c c' : Config σ Tid Call Val Op Res} {event : Event Tid Call Choice}
    {good : Tid → Call → Prog Op Res Val → Prop}
    (h : ∀ tid call rest, c.threads tid = .running call rest → good tid call rest)
    (called : ∀ tid call, event = .call tid call → p.calls tid call = true
      → good tid call (m.body call))
    (acted : ∀ tid call op next choice result state, event = .step tid choice
      → c.threads tid = .running call (.act op next)
      → m.exec tid choice op c.world.state = .done result state
      → good tid call (.act op next) → good tid call (next result))
    (stepped : m.step p c event = some c')
    : ∀ tid call rest, c'.threads tid = .running call rest → good tid call rest := by
  intro tid call rest running
  by_cases own : tid = event.tid
  · cases step_taken stepped with
    | call idle admitted =>
        subst own
        dsimp only at running
        rw [Function.update_self] at running
        cases running
        exact called _ _ rfl admitted
    | act wasRunning _ done =>
        subst own
        dsimp only at running
        rw [Function.update_self] at running
        cases running
        exact acted _ _ _ _ _ _ _ rfl wasRunning done (h _ _ _ wasRunning)
    | fault _ _ _ =>
        subst own
        dsimp only at running
        rw [Function.update_self] at running
        cases running
    | ret _ =>
        subst own
        dsimp only at running
        rw [Function.update_self] at running
        cases running
  · exact h tid call rest ((step_untouched stepped own).symm.trans running)

/-- Every decision is recorded. -/
theorem step_history {c c' : Config σ Tid Call Val Op Res} {event : Event Tid Call Choice}
    (h : m.step p c event = some c')
    : ∃ label, c'.world.history = c.world.history ++ [label] := by
  cases step_taken h with
  | call _ _ => exact ⟨_, rfl⟩
  | act _ _ _ => exact ⟨_, rfl⟩
  | fault _ _ _ => exact ⟨_, rfl⟩
  | ret _ => exact ⟨_, rfl⟩

/-- A thread no decision is about stays where it is, by schedule induction. -/
theorem run_untouched {first last : Config σ Tid Call Val Op Res}
    {events : List (Event Tid Call Choice)} {tid : Tid} (h : m.run p first events = some last)
    (others : ∀ event ∈ events, tid ≠ event.tid)
    : last.threads tid = first.threads tid := by
  induction events generalizing first with
  | nil => rw [Option.some.inj h]
  | cons event rest ih =>
      obtain ⟨next, taken, later⟩ := Option.bind_eq_some_iff.mp h
      rw [ih later (fun event member => others event (List.mem_cons_of_mem _ member))]
      exact step_untouched taken (others event List.mem_cons_self)

/-- A more liberal policy admits the same decision, by cases on the event. -/
theorem step_liberal {q : Policy σ Tid Call Choice Op} {c c' : Config σ Tid Call Val Op Res}
    {event : Event Tid Call Choice}
    (calls : ∀ tid call, p.calls tid call = true → q.calls tid call = true)
    (steps : ∀ tid call op choice state, p.steps tid call op choice state = true
      → q.steps tid call op choice state = true)
    (taken : m.step p c event = some c')
    : m.step q c event = some c' := by
  cases step_taken taken with
  | call idle admitted => simp only [step, idle, calls _ _ admitted, if_true]
  | act running admitted done => simp only [step, running, steps _ _ _ _ _ admitted, done, if_true]
  | fault running admitted trapped =>
      simp only [step, running, steps _ _ _ _ _ admitted, trapped, if_true]
  | ret running => simp only [step, running]

/-- A more liberal policy reaches at least the same configurations, by schedule induction. -/
theorem Reachable.liberal {q : Policy σ Tid Call Choice Op} {first last : Config σ Tid Call Val Op Res}
    (calls : ∀ tid call, p.calls tid call = true → q.calls tid call = true)
    (steps : ∀ tid call op choice state, p.steps tid call op choice state = true
      → q.steps tid call op choice state = true)
    (h : m.Reachable p first last)
    : m.Reachable q first last := by
  obtain ⟨events, h⟩ := h
  refine ⟨events, ?_⟩
  induction events generalizing first with
  | nil => exact h
  | cons event rest ih =>
      obtain ⟨next, taken, later⟩ := Option.bind_eq_some_iff.mp h
      exact Option.bind_eq_some_iff.mpr ⟨next, step_liberal calls steps taken, ih later⟩

end Machine

end SafetyIsolation.Interleaving

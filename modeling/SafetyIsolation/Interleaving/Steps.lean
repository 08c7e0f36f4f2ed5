import SafetyIsolation.Interleaving.Alone

/-! Runs of a step function whose steps are all admitted, and readers that are not disturbed.
-/

namespace SafetyIsolation.Interleaving

section Steps

variable {S E : Type}

/-- The events lead from one state to another, each step of them admitted. -/
inductive Steps (step : S → E → Option S) (admits : S → E → Prop)
    : S → List E → S → Prop where
  | nil (s : S) : Steps step admits s [] s
  | cons {s s' s'' : S} {event : E} {later : List E} (admitted : admits s event)
      (stepped : step s event = some s') (rest : Steps step admits s' later s'')
      : Steps step admits s (event :: later) s''

variable {step : S → E → Option S} {admits : S → E → Prop}

/-- What every admitted step keeps holds after a run, by induction over the run. -/
theorem Steps.invariant {s s' : S} {events : List E}
    (ran : Steps step admits s events s') (inv : S → Prop)
    (kept : ∀ s event s', inv s → admits s event → step s event = some s' → inv s')
    (initially : inv s)
    : inv s' := by
  induction ran with
  | nil s => exact initially
  | cons admitted stepped rest ih => exact ih (kept _ _ _ initially admitted stepped)

/-- A schedule is an admitted run as far as an invariant tells, by schedule induction. -/
theorem Steps.of_run {σ Tid Call Val Choice Op : Type} {Res : Op → Type} [DecidableEq Tid]
    {m : Machine σ Tid Call Val Choice Op Res} {p : Policy σ Tid Call Choice Op}
    {admits : Config σ Tid Call Val Op Res → Event Tid Call Choice → Prop}
    {c c' : Config σ Tid Call Val Op Res} {events : List (Event Tid Call Choice)}
    (inv : Config σ Tid Call Val Op Res → Prop) (ran : m.run p c events = some c')
    (kept : ∀ c event c', event ∈ events → inv c → m.step p c event = some c' → inv c')
    (admitted : ∀ c event, event ∈ events → inv c → admits c event) (initially : inv c)
    : Steps (m.step p) admits c events c' := by
  induction events generalizing c with
  | nil => exact Option.some.inj ran ▸ .nil c
  | cons event later ih =>
      obtain ⟨next, stepped, rest⟩ := Option.bind_eq_some_iff.mp ran
      refine .cons (admitted c event List.mem_cons_self initially) stepped (ih rest ?_ ?_ ?_)
      · exact fun c event c' member => kept c event c' (List.mem_cons_of_mem _ member)
      · exact fun c event member => admitted c event (List.mem_cons_of_mem _ member)
      · exact kept c event next List.mem_cons_self initially stepped

/-- Admitted steps of a machine are a schedule, by induction over the run. -/
theorem Steps.run {σ Tid Call Val Choice Op : Type} {Res : Op → Type} [DecidableEq Tid]
    {m : Machine σ Tid Call Val Choice Op Res} {p : Policy σ Tid Call Choice Op}
    {admits : Config σ Tid Call Val Op Res → Event Tid Call Choice → Prop}
    {c c' : Config σ Tid Call Val Op Res} {events : List (Event Tid Call Choice)}
    (ran : Steps (m.step p) admits c events c')
    : m.run p c events = some c' := by
  induction ran with
  | nil c => rfl
  | cons admitted stepped rest ih => exact Option.bind_eq_some_iff.mpr ⟨_, stepped, ih⟩

/-- A run whose steps pass a test is admitted as far as an invariant and the test tell, by
induction over the events.
-/
theorem Steps.of_tested {s s' : S} {events : List E} (test : S → E → Bool) (inv : S → Prop)
    (ran : events.foldlM (fun s event => if test s event then step s event else none) s = some s')
    (kept : ∀ s event s', event ∈ events → inv s → step s event = some s' → inv s')
    (admitted : ∀ s event, inv s → test s event = true → admits s event) (initially : inv s)
    : Steps step admits s events s' := by
  induction events generalizing s with
  | nil => exact Option.some.inj ran ▸ .nil s
  | cons event later ih =>
      obtain ⟨next, tested, rest⟩ := Option.bind_eq_some_iff.mp ran
      obtain ⟨passes, stepped⟩ := Option.ite_none_right_eq_some.mp tested
      refine .cons (admitted s event initially passes) stepped (ih rest ?_ ?_)
      · exact fun s event s' member => kept s event s' (List.mem_cons_of_mem _ member)
      · exact kept s event next List.mem_cons_self initially stepped

/-- What a sequence of events leads to is reached by steps, if every step is admitted. -/
theorem Steps.of_foldlM {s s' : S} {events : List E} (ran : events.foldlM step s = some s')
    : Steps step (fun _ _ => True) s events s' := by
  refine Steps.of_tested (fun _ _ => true) (fun _ => True) ?_ (fun _ _ _ _ _ _ => trivial)
    (fun _ _ _ _ => trivial) trivial
  simpa using ran

/-- One run after another, by induction over the first. -/
theorem Steps.append {s s' s'' : S} {events later : List E} (first : Steps step admits s events s')
    (second : Steps step admits s' later s'')
    : Steps step admits s (events ++ later) s'' := by
  induction first with
  | nil s => exact second
  | cons admitted stepped rest ih => exact .cons admitted stepped (ih second)

end Steps

section Threads

variable {σ Tid Call Val Choice Op : Type} {Res : Op → Type} [DecidableEq Tid]
  {m : Machine σ Tid Call Val Choice Op Res} {p : Policy σ Tid Call Choice Op}
  {admits : Config σ Tid Call Val Op Res → Event Tid Call Choice → Prop}

/-- A thread is done with a call, and the others are where they were. -/
structure Ended (c : Config σ Tid Call Val Op Res) (tid : Tid) (call : Call)
    (post : Val → σ → Prop) (c' : Config σ Tid Call Val Op Res) : Prop where
  idle : c'.threads tid = .idle
  others : ∀ other, other ≠ tid → c'.threads other = c.threads other
  returned : ∃ value, .ret tid call value ∈ c'.world.history ∧ post value c'.world.state

/-- A thread that would end its call by itself can do so among the others, by program
induction.
-/
theorem Steps.finish {c : Config σ Tid Call Val Op Res} {tid : Tid} {call : Call}
    {code : Prog Op Res Val} {post : Val → σ → Prop} (choice : Choice)
    (running : c.threads tid = .running call code)
    (ends : code.Always (m.exec tid) (fun _ => True) post c.world.state)
    (permitted : ∀ op s, p.steps tid call op choice s = true)
    (admitted : ∀ c' event, event.tid = tid
      → (∀ other, other ≠ tid → c'.threads other = c.threads other) → admits c' event)
    : ∃ events c', Steps (m.step p) admits c events c' ∧ Ended c tid call post c' := by
  induction code generalizing c with
  | ret value =>
      have stepped : m.step p c (.ret tid) = some ⟨
          c.world.push c.world.state (.ret tid call value),
          Function.update c.threads tid .idle⟩ := by
        simp only [Machine.step, running]
      refine ⟨_, _, .cons (admitted c _ rfl (fun _ _ => rfl)) stepped (.nil _), ?_⟩
      refine ⟨Function.update_self _ _ _, fun other different => ?_, value, ?_, ends⟩
      · exact Function.update_of_ne different _ _
      · exact List.mem_append_right _ List.mem_cons_self
  | act op next ih =>
      obtain ⟨result, state, done, rest⟩ := ends choice trivial
      have stepped : m.step p c (.step tid choice) = some ⟨
          c.world.push state (.act tid call op (some result)),
          Function.update c.threads tid (.running call (next result))⟩ := by
        simp only [Machine.step, running, permitted, if_true, done]
      have others : ∀ other, other ≠ tid
          → Function.update c.threads tid (.running call (next result)) other
            = c.threads other :=
        fun other different => Function.update_of_ne different _ _
      obtain ⟨events, c', ran, ended⟩ := ih result
        (c := ⟨c.world.push state (.act tid call op (some result)),
          Function.update c.threads tid (.running call (next result))⟩)
        (Function.update_self _ _ _) rest
        (fun c' event own same => admitted c' event own (fun other different =>
          (same other different).trans (others other different)))
      refine ⟨_, c', .cons (admitted c _ rfl (fun _ _ => rfl)) stepped ran, ended.idle, ?_,
        ended.returned⟩
      exact fun other different => (ended.others other different).trans (others other different)

/-- A whole call of a thread. -/
theorem Steps.call {c : Config σ Tid Call Val Op Res} {tid : Tid} {call : Call}
    {post : Val → σ → Prop} (choice : Choice) (idle : c.threads tid = .idle)
    (called : p.calls tid call = true)
    (ends : (m.body call).Always (m.exec tid) (fun _ => True) post c.world.state)
    (permitted : ∀ op s, p.steps tid call op choice s = true)
    (admitted : ∀ c' event, event.tid = tid
      → (∀ other, other ≠ tid → c'.threads other = c.threads other) → admits c' event)
    : ∃ events c', Steps (m.step p) admits c events c' ∧ Ended c tid call post c' := by
  have stepped : m.step p c (.call tid call) = some ⟨
      c.world.push c.world.state (.call tid call),
      Function.update c.threads tid (.running call (m.body call))⟩ := by
    simp only [Machine.step, idle, called, if_true]
  have others : ∀ other, other ≠ tid
      → Function.update c.threads tid (.running call (m.body call)) other = c.threads other :=
    fun other different => Function.update_of_ne different _ _
  obtain ⟨events, c', ran, ended⟩ := Steps.finish
    (c := ⟨c.world.push c.world.state (.call tid call),
      Function.update c.threads tid (.running call (m.body call))⟩)
    choice (Function.update_self _ _ _) ends permitted
    (fun c' event own same => admitted c' event own (fun other different =>
      (same other different).trans (others other different)))
  refine ⟨_, c', .cons (admitted c _ rfl (fun _ _ => rfl)) stepped ran, ended.idle, ?_,
    ended.returned⟩
  exact fun other different => (ended.others other different).trans (others other different)

end Threads

namespace Prog

variable {σ Op : Type} {Res : Op → Type} {α : Type}

/-- What a program that only reads returns when nothing changes meanwhile. -/
def evalAt (look : σ → (op : Op) → Res op) (s : σ) : Prog Op Res α → α
  | .ret value => value
  | .act op next => (next (look s op)).evalAt look s

/-- The program has returned. -/
def returned : Prog Op Res α → Bool
  | .ret _ => true
  | .act _ _ => false

end Prog

end SafetyIsolation.Interleaving

import SafetyIsolation.Interleaving.Program

/-! What each thread of a machine knows about the shared state.
The knowledge of a thread follows the results of its own operations and survives those of the
others, which in turn are held to what the others know.
-/

namespace SafetyIsolation.Interleaving

namespace Prog

variable {Op Op' : Type} {Res : Op → Type} {Res' : Op' → Type} {α β ℓ ℓ' : Type}

/-- Replace every operation by a program that implements it. -/
def interpret (implement : (op : Op) → Prog Op' Res' (Res op)) : Prog Op Res α → Prog Op' Res' α
  | .ret value => .ret value
  | .act op next => (implement op).bind (fun result => (next result).interpret implement)

/-- The code performs only what its knowledge permits and ends with `post`, whatever it can
learn from the results on its way.
-/
def Follows (permits : ℓ → Op → Prop) (learns : ℓ → (op : Op) → Res op → ℓ → Prop)
    : Prog Op Res α → (α → ℓ → Prop) → ℓ → Prop
  | .ret value, post, known => post value known
  | .act op next, post, known =>
      permits known op
      ∧ ∀ result later, learns known op result later
          → (next result).Follows permits learns post later

variable {permits : ℓ → Op → Prop} {learns : ℓ → (op : Op) → Res op → ℓ → Prop}

theorem Follows.imp {prog : Prog Op Res α} {post weaker : α → ℓ → Prop} {known : ℓ}
    (h : prog.Follows permits learns post known)
    (implies : ∀ value later, post value later → weaker value later)
    : prog.Follows permits learns weaker known := by
  induction prog generalizing known with
  | ret value => exact implies value known h
  | act op next ih =>
      exact ⟨h.1, fun result later learned => ih result (h.2 result later learned)⟩

/-- A composed program follows its parts one after the other, by program induction. -/
theorem Follows.bind {prog : Prog Op Res α} {next : α → Prog Op Res β} {middle : α → ℓ → Prop}
    {post : β → ℓ → Prop} {known : ℓ} (first : prog.Follows permits learns middle known)
    (rest : ∀ value later, middle value later → (next value).Follows permits learns post later)
    : (prog.bind next).Follows permits learns post known := by
  induction prog generalizing known with
  | ret value => exact rest value known first
  | act op continues ih =>
      exact ⟨first.1, fun result later learned => ih result (first.2 result later learned)⟩

/-- What is known of all operations can be added to what is permitted, by program induction. -/
theorem Follows.and_all {good : Op → Prop} {prog : Prog Op Res α} {post : α → ℓ → Prop}
    {known : ℓ} (h : prog.Follows permits learns post known) (ops : prog.All good)
    : prog.Follows (fun known op => good op ∧ permits known op) learns post known := by
  induction prog generalizing known with
  | ret value => exact h
  | act op next ih =>
      exact ⟨⟨ops.1, h.1⟩, fun result later learned =>
        ih result (h.2 result later learned) (ops.2 result)⟩

theorem All.pure {good : Op → Prop} {value : α}
    : (Pure.pure value : Prog Op Res α).All good := trivial

theorem All.op {good : Op → Prop} {op : Op} (performed : good op)
    : (perform op : Prog Op Res (Res op)).All good :=
  ⟨performed, fun _ => trivial⟩

theorem All.opThen {good : Op → Prop} {op : Op} {next : Res op → Prog Op Res α}
    (performed : good op) (rest : ∀ result, (next result).All good)
    : (perform op >>= next).All good :=
  ⟨performed, rest⟩

theorem All.bind {good : Op → Prop} {prog : Prog Op Res α} {next : α → Prog Op Res β}
    (first : prog.All good) (rest : ∀ value, (next value).All good)
    : (prog.bind next).All good := by
  induction prog with
  | ret value => exact rest value
  | act op continues ih => exact ⟨first.1, fun result => ih result (first.2 result)⟩

/-- Interpreted code performs what the implementations perform. -/
theorem All.interpret {good : Op' → Prop} {implement : (op : Op) → Prog Op' Res' (Res op)}
    (implemented : ∀ op, (implement op).All good) (prog : Prog Op Res α)
    : (prog.interpret implement).All good := by
  induction prog with
  | ret value => trivial
  | act op next ih => exact .bind (implemented op) ih

/-- Code keeps following when its operations are implemented by programs that take the same
steps of knowledge, by program induction.
-/
theorem Follows.interpret {permits' : ℓ' → Op' → Prop}
    {learns' : ℓ' → (op : Op') → Res' op → ℓ' → Prop}
    {implement : (op : Op) → Prog Op' Res' (Res op)} (embed : ℓ → ℓ')
    (implemented : ∀ known op, permits known op
      → (implement op).Follows permits' learns'
          (fun result later' => ∃ later, learns known op result later ∧ later' = embed later)
          (embed known))
    {prog : Prog Op Res α} {post : α → ℓ → Prop} {known : ℓ}
    (h : prog.Follows permits learns post known)
    : (prog.interpret implement).Follows permits' learns'
        (fun value later' => ∃ later, post value later ∧ later' = embed later) (embed known) := by
  induction prog generalizing known with
  | ret value => exact ⟨known, h, rfl⟩
  | act op next ih =>
      refine Follows.bind (implemented known op h.1) ?_
      intro result later' reached
      obtain ⟨later, learned, rfl⟩ := reached
      exact ih result (h.2 result later learned)

end Prog

variable {σ Tid Call Val Choice Op ℓ : Type} {Res : Op → Type}

/-- What threads may know and do: a global invariant, the meaning of a piece of knowledge, the
operations it permits and what their results add to it. `rest` is known between calls.
-/
structure Protocol (σ Tid Call Op : Type) (Res : Op → Type) (ℓ : Type) where
  inv : σ → Prop
  rest : ℓ
  holds : Tid → ℓ → σ → Prop
  permits : Tid → Call → ℓ → Op → Prop
  learns : ℓ → (op : Op) → Res op → ℓ → Prop

namespace Protocol

/-- Every admitted call follows the protocol, and a permitted operation keeps the invariant,
what its thread learns and what the others know.
-/
structure Sound (k : Protocol σ Tid Call Op Res ℓ) (m : Machine σ Tid Call Val Choice Op Res)
    (p : Policy σ Tid Call Choice Op)
    : Prop where
  bodies : ∀ tid call, p.calls tid call = true
    → (m.body call).Follows (k.permits tid call) k.learns (fun _ known => known = k.rest) k.rest
  acts : ∀ {tid call choice op result s s' known}, k.inv s → k.holds tid known s
    → k.permits tid call known op → m.exec tid choice op s = .done result s'
    → k.inv s' ∧ ∃ later, k.learns known op result later ∧ k.holds tid later s'
  others : ∀ {tid call choice op result s s' known other theirs}, other ≠ tid → k.inv s
    → k.holds tid known s → k.permits tid call known op
    → m.exec tid choice op s = .done result s'
    → k.holds other theirs s → k.holds other theirs s'

/-- How a thread's knowledge goes with what is left of its call. -/
def Informed (k : Protocol σ Tid Call Op Res ℓ) (tid : Tid) : Thread Call Val Op Res → ℓ → Prop
  | .idle, known => known = k.rest
  | .running call code, known =>
      code.Follows (k.permits tid call) k.learns (fun _ later => later = k.rest) known
  | .dead, _ => True

/-- The invariant holds, and every thread knows what its code relies on. -/
structure Understood (k : Protocol σ Tid Call Op Res ℓ) (c : Config σ Tid Call Val Op Res)
    (known : Tid → ℓ)
    : Prop where
  inv : k.inv c.world.state
  holds : ∀ tid, k.holds tid (known tid) c.world.state
  informed : ∀ tid, k.Informed tid (c.threads tid) (known tid)

variable {k : Protocol σ Tid Call Op Res ℓ} {m : Machine σ Tid Call Val Choice Op Res}
  {p : Policy σ Tid Call Choice Op}

/-- The next operation of a thread is permitted by what the thread knows. -/
theorem Understood.permitted {c : Config σ Tid Call Val Op Res} {known : Tid → ℓ}
    (h : k.Understood c known) {tid : Tid} {call : Call} {op : Op}
    {next : Res op → Prog Op Res Val} (running : c.threads tid = .running call (.act op next))
    : k.permits tid call (known tid) op := by
  have informed := h.informed tid
  rw [running] at informed
  exact informed.1

variable [DecidableEq Tid]

/-- A thread that has moved brings its new knowledge, and the others keep theirs. -/
theorem Understood.update {c : Config σ Tid Call Val Op Res} {known : Tid → ℓ}
    (h : k.Understood c known) {tid : Tid} {world : World σ Tid Call Val Op Res}
    {thread : Thread Call Val Op Res} {later : ℓ} (inv : k.inv world.state)
    (own : k.holds tid later world.state) (informed : k.Informed tid thread later)
    (others : ∀ other, other ≠ tid → k.holds other (known other) world.state)
    : k.Understood ⟨world, Function.update c.threads tid thread⟩
        (Function.update known tid later) := by
  refine ⟨inv, fun other => ?_, fun other => ?_⟩
  · by_cases same : other = tid
    · subst same
      rw [Function.update_self]
      exact own
    · rw [Function.update_of_ne same]
      exact others other same
  · by_cases same : other = tid
    · subst same
      simp only [Function.update_self]
      exact informed
    · simp only [Function.update_of_ne same]
      exact h.informed other

/-- One scheduling decision keeps a configuration understood, by cases on the event. -/
theorem Sound.step (sound : k.Sound m p) {c c' : Config σ Tid Call Val Op Res}
    {event : Event Tid Call Choice} (h : ∃ known, k.Understood c known)
    (taken : m.step p c event = some c')
    : ∃ known, k.Understood c' known := by
  obtain ⟨known, h⟩ := h
  cases Machine.step_taken taken with
  | @call tid call idle admitted =>
      have resting := h.informed tid
      rw [idle] at resting
      refine ⟨_, h.update h.inv (h.holds tid) ?_ (fun other _ => h.holds other)⟩
      rw [show known tid = k.rest from resting]
      exact sound.bodies tid call admitted
  | @act tid call op next choice result state running admitted done =>
      have informed := h.informed tid
      rw [running] at informed
      obtain ⟨inv, later, learned, own⟩ := sound.acts h.inv (h.holds tid) informed.1 done
      refine ⟨_, h.update inv own (informed.2 result later learned) ?_⟩
      intro other different
      exact sound.others different h.inv (h.holds tid) informed.1 done (h.holds other)
  | @fault tid call op next choice running admitted trapped =>
      exact ⟨_, h.update h.inv (h.holds tid) trivial (fun other _ => h.holds other)⟩
  | @ret tid call value running =>
      have informed := h.informed tid
      rw [running] at informed
      exact ⟨_, h.update h.inv (h.holds tid) informed (fun other _ => h.holds other)⟩

/-- Every reachable configuration is understood, by run induction. -/
theorem Sound.reachable (sound : k.Sound m p) {state : σ} {last : Config σ Tid Call Val Op Res}
    (inv : k.inv state) (holds : ∀ tid, k.holds tid k.rest state)
    (h : m.Reachable p (Config.start state) last)
    : ∃ known, k.Understood last known := by
  have initially : k.Understood (Config.start state : Config σ Tid Call Val Op Res)
      (fun _ => k.rest) := ⟨inv, holds, fun _ => rfl⟩
  exact h.invariant (fun c => ∃ known, k.Understood c known) ⟨_, initially⟩
    (fun _ _ _ ok taken => sound.step ok taken)

end Protocol

end SafetyIsolation.Interleaving

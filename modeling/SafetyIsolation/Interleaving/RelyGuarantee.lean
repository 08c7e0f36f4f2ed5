import SafetyIsolation.Interleaving.Program

/-! Rely-guarantee reasoning: each call is verified alone, against what others may do.
The soundness theorem turns those separate verifications into facts about every state of
every interleaving, for any number of threads.
-/

namespace SafetyIsolation.Interleaving

variable {σ Tid Call Val Choice Op : Type} {Res : Op → Type}

/-- A discipline fixes the global invariant, what each thread may rely on while the others
run, what an idle thread keeps, and what must hold when an operation is about to run.
-/
structure Discipline (σ Tid Call Val Op : Type) (Res : Op → Type) where
  inv : World σ Tid Call Val Op Res → Prop
  rely : Tid → World σ Tid Call Val Op Res → World σ Tid Call Val Op Res → Prop
  idle : Tid → World σ Tid Call Val Op Res → Prop
  asserts : Tid → Call → Op → World σ Tid Call Val Op Res → Prop
  rely_refl : ∀ tid w, rely tid w w
  rely_trans : ∀ {tid w₁ w₂ w₃}, rely tid w₁ w₂ → rely tid w₂ w₃ → rely tid w₁ w₃
  idle_stable : ∀ {tid w₁ w₂}, rely tid w₁ w₂ → idle tid w₁ → idle tid w₂

namespace Discipline

variable (d : Discipline σ Tid Call Val Op Res)

/-- A step of `tid` keeps the invariant and stays within what every other thread relies on.
-/
structure Moves (tid : Tid) (w w' : World σ Tid Call Val Op Res) : Prop where
  inv : d.inv w'
  others : ∀ other, other ≠ tid → d.rely other w w'

/-- What a thread owes when its call returns. -/
structure Returns (tid : Tid) (call : Call) (value : Val)
    (w : World σ Tid Call Val Op Res)
    : Prop where
  moves : d.Moves tid w (w.push w.state (.ret tid call value))
  idle : d.idle tid (w.push w.state (.ret tid call value))

variable (m : Machine σ Tid Call Val Choice Op Res) (p : Policy σ Tid Call Choice Op)

/-- The rest of a call is safe from a world when every operation it reaches, after any
interference within the rely, satisfies its assertion and moves within the discipline.
-/
def Safe {α : Type} (tid : Tid) (call : Call)
    : Prog Op Res α
      → World σ Tid Call Val Op Res
      → (α → World σ Tid Call Val Op Res → Prop)
      → Prop
  | .ret value, w, post => ∀ w', d.rely tid w w' → d.inv w' → post value w'
  | .act op next, w, post =>
      ∀ w', d.rely tid w w' → d.inv w' →
        d.asserts tid call op w'
        ∧ ∀ choice, p.steps tid call op choice w'.state = true →
            match m.exec tid choice op w'.state with
            | .done result state =>
                d.Moves tid w' (w'.push state (.act tid call op (some result)))
                ∧ Safe tid call (next result)
                    (w'.push state (.act tid call op (some result))) post
            | .wait => True
            | .fault => d.Moves tid w' (w'.push w'.state (.act tid call op none))

/-- Every admitted call starts within the discipline and is safe to its return. -/
def Sound : Prop :=
  ∀ tid call w, p.calls tid call = true → d.inv w → d.idle tid w →
    d.Moves tid w (w.push w.state (.call tid call))
    ∧ d.Safe m p tid call (m.body call) (w.push w.state (.call tid call))
        (d.Returns tid call)

variable {d m p}

/-- Interference before the next operation is already accounted for, by transitivity. -/
theorem Safe.stable {α : Type} {tid : Tid} {call : Call} {prog : Prog Op Res α}
    {w w' : World σ Tid Call Val Op Res} {post : α → World σ Tid Call Val Op Res → Prop}
    (h : d.Safe m p tid call prog w post) (interference : d.rely tid w w')
    : d.Safe m p tid call prog w' post := by
  cases prog with
  | ret value =>
      intro later more inv
      exact h later (d.rely_trans interference more) inv
  | act op next =>
      intro later more inv
      exact h later (d.rely_trans interference more) inv

/-- What is known about one thread in a verified configuration. -/
def ThreadOk (d : Discipline σ Tid Call Val Op Res)
    (m : Machine σ Tid Call Val Choice Op Res) (p : Policy σ Tid Call Choice Op)
    (tid : Tid) (w : World σ Tid Call Val Op Res)
    : Thread Call Val Op Res → Prop
  | .idle => d.idle tid w
  | .running call rest => d.Safe m p tid call rest w (d.Returns tid call)
  | .dead => True

/-- The invariant and all threads' local obligations. -/
structure ConfigOk (d : Discipline σ Tid Call Val Op Res)
    (m : Machine σ Tid Call Val Choice Op Res) (p : Policy σ Tid Call Choice Op)
    (c : Config σ Tid Call Val Op Res)
    : Prop where
  inv : d.inv c.world
  threads : ∀ tid, d.ThreadOk m p tid c.world (c.threads tid)

/-- A thread's obligations survive the steps of the others. -/
theorem ThreadOk.stable {tid : Tid} {w w' : World σ Tid Call Val Op Res}
    {thread : Thread Call Val Op Res} (h : d.ThreadOk m p tid w thread)
    (interference : d.rely tid w w')
    : d.ThreadOk m p tid w' thread := by
  cases thread with
  | idle => exact d.idle_stable interference h
  | running call rest => exact Safe.stable h interference
  | dead => trivial

/-- A start configuration is verified when its world satisfies the invariant and every
thread may idle in it.
-/
theorem ConfigOk.start {state : σ} (inv : d.inv ⟨state, []⟩)
    (idle : ∀ tid, d.idle tid ⟨state, []⟩)
    : d.ConfigOk m p (Config.start state) :=
  ⟨inv, idle⟩

/-- An operation about to run satisfies its assertion. -/
theorem ConfigOk.asserted {c : Config σ Tid Call Val Op Res} (h : d.ConfigOk m p c)
    {tid : Tid} {call : Call} {op : Op} {next : Res op → Prog Op Res Val}
    (running : c.threads tid = .running call (.act op next))
    : d.asserts tid call op c.world := by
  have known := h.threads tid
  rw [running] at known
  exact (known c.world (d.rely_refl tid c.world) h.inv).1

variable [DecidableEq Tid]

/-- Replacing the stepping thread keeps a configuration verified. -/
theorem ConfigOk.update {c : Config σ Tid Call Val Op Res} (h : d.ConfigOk m p c)
    {tid : Tid} {w' : World σ Tid Call Val Op Res} {thread : Thread Call Val Op Res}
    (moves : d.Moves tid c.world w') (stepped : d.ThreadOk m p tid w' thread)
    : d.ConfigOk m p ⟨w', Function.update c.threads tid thread⟩ := by
  refine ⟨moves.inv, ?_⟩
  intro other
  by_cases same : other = tid
  · subst same
    simpa only [Function.update_self] using stepped
  · simpa only [Function.update_of_ne same] using
      (h.threads other).stable (moves.others other same)

/-- One scheduling decision keeps a configuration verified, by cases on the event. -/
theorem Sound.step (sound : d.Sound m p) {c c' : Config σ Tid Call Val Op Res}
    {event : Event Tid Call Choice} (h : d.ConfigOk m p c)
    (taken : m.step p c event = some c')
    : d.ConfigOk m p c' := by
  rcases Machine.step_cases taken with
    ⟨tid, call, idle, admitted, rfl⟩
    | ⟨tid, call, op, next, choice, result, state, running, admitted, done, rfl⟩
    | ⟨tid, call, op, next, choice, running, admitted, fault, rfl⟩
    | ⟨tid, call, value, running, rfl⟩
  · have threadIdle : d.idle tid c.world := by
      have known := h.threads tid
      rwa [idle] at known
    obtain ⟨moves, safe⟩ := sound tid call c.world admitted h.inv threadIdle
    exact h.update moves safe
  · have known := h.threads tid
    rw [running] at known
    have moved := (known c.world (d.rely_refl tid c.world) h.inv).2 choice admitted
    rw [done] at moved
    exact h.update moved.1 moved.2
  · have known := h.threads tid
    rw [running] at known
    have moved := (known c.world (d.rely_refl tid c.world) h.inv).2 choice admitted
    rw [fault] at moved
    exact h.update moved trivial
  · have known := h.threads tid
    rw [running] at known
    have returned := known c.world (d.rely_refl tid c.world) h.inv
    exact h.update returned.moves returned.idle

/-- Every reachable configuration of a sound discipline is verified, by run induction. -/
theorem Sound.reachable (sound : d.Sound m p) {first last : Config σ Tid Call Val Op Res}
    (initially : d.ConfigOk m p first) (h : m.Reachable p first last)
    : d.ConfigOk m p last :=
  h.invariant (d.ConfigOk m p) initially (fun _ _ _ ok taken => sound.step ok taken)

/-- A thread that has not trapped, inside a call the policy admits. -/
def Admitted (p : Policy σ Tid Call Choice Op) (tid : Tid) : Thread Call Val Op Res → Prop
  | .idle => True
  | .running call _ => p.calls tid call = true
  | .dead => False

/-- When no asserted operation of an admitted call can trap, no thread ever dies. -/
theorem Sound.alive (sound : d.Sound m p) {state : σ} {last : Config σ Tid Call Val Op Res}
    (initially : d.ConfigOk m p (Config.start state))
    (untrapped
      : ∀ tid call op choice w, p.calls tid call = true → d.asserts tid call op w
          → m.exec tid choice op w.state ≠ .fault)
    (h : m.Reachable p (Config.start state) last) (tid : Tid)
    : Admitted p tid (last.threads tid) := by
  have kept : d.ConfigOk m p last ∧ ∀ tid, Admitted p tid (last.threads tid) := by
    refine h.invariant (fun c => d.ConfigOk m p c ∧ ∀ tid, Admitted p tid (c.threads tid))
      ⟨initially, fun _ => trivial⟩ ?_
    intro c event c' before taken
    obtain ⟨ok, alive⟩ := before
    refine ⟨sound.step ok taken, ?_⟩
    have replaced {stepped : Tid} {thread : Thread Call Val Op Res}
        (admitted : Admitted p stepped thread) (other : Tid)
        : Admitted p other (Function.update c.threads stepped thread other) := by
      by_cases same : other = stepped
      · subst same
        simpa only [Function.update_self] using admitted
      · simpa only [Function.update_of_ne same] using alive other
    rcases Machine.step_cases taken with
      ⟨stepped, call, _, admitted, rfl⟩
      | ⟨stepped, call, op, next, choice, result, state, running, _, _, rfl⟩
      | ⟨stepped, call, op, next, choice, running, _, fault, rfl⟩
      | ⟨stepped, call, value, _, rfl⟩
    · exact replaced admitted
    · have admitted := alive stepped
      rw [running] at admitted
      exact replaced admitted
    · have admitted := alive stepped
      rw [running] at admitted
      exact absurd fault (untrapped stepped call op choice c.world admitted (ok.asserted running))
    · exact replaced trivial
  exact kept.2 tid

end Discipline

end SafetyIsolation.Interleaving

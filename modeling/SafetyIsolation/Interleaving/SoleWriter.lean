import SafetyIsolation.Interleaving.Knowledge

/-! A part of the shared state that only one thread writes. That thread's code can be read as if
it ran alone, whatever the others do meanwhile.
-/

namespace SafetyIsolation.Interleaving

open Prog

variable {σ Tid Call Val Choice Op ρ : Type} {Res : Op → Type}

/-- A part of the state, the operations that may change it, and what an operation of the writer
tells of the part before and after it.
-/
structure SoleWriter (σ Op : Type) (Res : Op → Type) (ρ : Type) where
  part : σ → ρ
  touches : Op → Bool
  learns : ρ → (op : Op) → Res op → ρ → Prop

namespace SoleWriter

/-- Only the writer's code may change the part. -/
def Quiet (w : SoleWriter σ Op Res ρ) (writer : Tid) (c : Config σ Tid Call Val Op Res) : Prop :=
  ∀ tid call code, tid ≠ writer → c.threads tid = .running call code
    → code.All (fun op => w.touches op = false)

/-- The operations of the machine are as the part's description says, for the writer's choices
that are admitted.
-/
structure Describes (w : SoleWriter σ Op Res ρ) (m : Machine σ Tid Call Val Choice Op Res)
    (p : Policy σ Tid Call Choice Op) (writer : Tid)
    : Prop where
  keeps : ∀ {tid choice op result s s'}, w.touches op = false
    → m.exec tid choice op s = .done result s' → w.part s' = w.part s
  learned : ∀ {call choice op result s s'}, p.steps writer call op choice s = true
    → m.exec writer choice op s = .done result s' → w.learns (w.part s) op result (w.part s')
  bodies : ∀ tid call, tid ≠ writer → p.calls tid call = true
    → (m.body call).All (fun op => w.touches op = false)

/-- The writer has nothing left to do but this call, and then the part is as `post` says. -/
def Engaged (w : SoleWriter σ Op Res ρ) (writer : Tid) (call : Call) (post : Val → ρ → Prop)
    (c : Config σ Tid Call Val Op Res)
    : Prop :=
  ∀ call' code, c.threads writer = .running call' code
    → call' = call ∧ code.Follows (fun _ _ => True) w.learns post (w.part c.world.state)

variable [DecidableEq Tid] {w : SoleWriter σ Op Res ρ} {m : Machine σ Tid Call Val Choice Op Res}
  {p : Policy σ Tid Call Choice Op} {writer : Tid} {call : Call} {post : Val → ρ → Prop}

theorem Describes.quiet (describes : w.Describes m p writer) {c c' : Config σ Tid Call Val Op Res}
    {event : Event Tid Call Choice} (quiet : w.Quiet writer c) (taken : m.step p c event = some c')
    : w.Quiet writer c' := by
  have kept : ∀ tid call code, c'.threads tid = .running call code
      → tid ≠ writer → code.All (fun op => w.touches op = false) :=
    Machine.step_running
      (fun tid call code running different => quiet tid call code different running)
      (fun tid call _ admitted different => describes.bodies tid call different admitted)
      (fun _ _ _ _ _ result _ _ _ _ all different => (all different).2 result) taken
  exact fun tid call code different running => kept tid call code running different

/-- A step of another thread leaves the part alone. -/
theorem Describes.part_of_ne (describes : w.Describes m p writer)
    {c c' : Config σ Tid Call Val Op Res} {event : Event Tid Call Choice} (quiet : w.Quiet writer c)
    (different : event.tid ≠ writer) (taken : m.step p c event = some c')
    : w.part c'.world.state = w.part c.world.state := by
  cases Machine.step_taken taken with
  | call _ _ => rfl
  | act running _ done => exact describes.keeps (quiet _ _ _ different running).1 done
  | fault _ _ _ => rfl
  | ret _ => rfl

/-- The writer goes on with its call. -/
theorem Describes.engaged (describes : w.Describes m p writer)
    {c c' : Config σ Tid Call Val Op Res} {event : Event Tid Call Choice} (quiet : w.Quiet writer c)
    (busy : ∀ call, p.calls writer call = false) (engaged : w.Engaged writer call post c)
    (taken : m.step p c event = some c')
    : w.Engaged writer call post c' := by
  by_cases own : event.tid = writer
  · subst own
    intro call' code running
    cases Machine.step_taken taken with
    | call _ admitted => exact absurd (admitted.symm.trans (busy _)) Bool.noConfusion
    | act wasRunning admitted done =>
        obtain ⟨isCall, follows⟩ := engaged _ _ wasRunning
        simp only [Event.tid, Function.update_self] at running
        cases running
        exact ⟨isCall, follows.2 _ _ (describes.learned admitted done)⟩
    | fault _ _ _ =>
        simp only [Event.tid, Function.update_self] at running
        cases running
    | ret _ =>
        simp only [Event.tid, Function.update_self] at running
        cases running
  · intro call' code running
    rw [Machine.step_untouched taken (Ne.symm own)] at running
    rw [describes.part_of_ne quiet own taken]
    exact engaged call' code running

/-- When the writer's call returns, its code has told the truth about the part, whatever the other
threads have done in the meantime, by run induction.
-/
theorem Describes.at_return (describes : w.Describes m p writer)
    {c last : Config σ Tid Call Val Op Res} {value : Val} (quiet : w.Quiet writer c)
    (busy : ∀ call, p.calls writer call = false) (engaged : w.Engaged writer call post c)
    (run : m.Reachable p c last) (returns : last.threads writer = .running call (.ret value))
    : post value (w.part last.world.state) := by
  have both := run.invariant (fun c => w.Quiet writer c ∧ w.Engaged writer call post c)
    ⟨quiet, engaged⟩ (fun c event c' h taken =>
      ⟨describes.quiet h.1 taken, describes.engaged h.1 busy h.2 taken⟩)
  exact (both.2 call _ returns).2

end SoleWriter

end SafetyIsolation.Interleaving

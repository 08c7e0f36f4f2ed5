import Mathlib.Logic.Relation
import SafetyIsolation.Interleaving.Program

/-! Threads that wait for other threads. Where every waiting leads to a thread of lower rank, no
thread waits for itself through others, and at the end of every chain there is one that can move.
-/

namespace SafetyIsolation.Interleaving

variable {σ Tid Call Val Choice Op : Type} {Res : Op → Type}

/-- Where the rank falls with every waiting, no chain comes back to its start. -/
theorem not_transGen_self {waitsFor : Tid → Tid → Prop} (rank : Tid → Nat)
    (descends : ∀ tid other, waitsFor tid other → rank other < rank tid) (tid : Tid)
    : ¬ Relation.TransGen waitsFor tid tid := by
  have falls {other : Tid} (chain : Relation.TransGen waitsFor tid other)
      : rank other < rank tid := by
    induction chain with
    | single waits => exact descends _ _ waits
    | tail _ waits ih => exact Nat.lt_trans (descends _ _ waits) ih
  exact fun cycle => Nat.lt_irrefl _ (falls cycle)

variable [DecidableEq Tid] {m : Machine σ Tid Call Val Choice Op Res}
  {p : Policy σ Tid Call Choice Op} {c : Config σ Tid Call Val Op Res}

/-- Some decision about the thread is enabled. -/
def Machine.CanMove (m : Machine σ Tid Call Val Choice Op Res) (p : Policy σ Tid Call Choice Op)
    (c : Config σ Tid Call Val Op Res) (tid : Tid)
    : Prop :=
  ∃ event, event.tid = tid ∧ (m.step p c event).isSome = true

theorem Machine.CanMove.of_idle {tid : Tid} {call : Call} (idle : c.threads tid = .idle)
    (admitted : p.calls tid call = true)
    : m.CanMove p c tid := by
  refine ⟨.call tid call, rfl, ?_⟩
  simp only [Machine.step, idle, admitted, if_true, Option.isSome_some]

theorem Machine.CanMove.of_ret {tid : Tid} {call : Call} {value : Val}
    (running : c.threads tid = .running call (.ret value))
    : m.CanMove p c tid := by
  refine ⟨.ret tid, rfl, ?_⟩
  simp only [Machine.step, running, Option.isSome_some]

/-- An operation that does not wait, whether or not it traps. -/
theorem Machine.CanMove.of_act {tid : Tid} {call : Call} {op : Op}
    {next : Res op → Prog Op Res Val} {choice : Choice}
    (running : c.threads tid = .running call (.act op next))
    (admitted : p.steps tid call op choice c.world.state = true)
    (moves : m.exec tid choice op c.world.state ≠ .wait)
    : m.CanMove p c tid := by
  refine ⟨.step tid choice, rfl, ?_⟩
  simp only [Machine.step, running, admitted, if_true]
  cases done : m.exec tid choice op c.world.state with
  | done result state => rfl
  | wait => exact absurd done moves
  | fault => rfl

/-- Every chain of waiting threads ends at one that can move, by induction on the rank. -/
theorem exists_canMove {waitsFor : Tid → Tid → Prop} {within : Tid → Prop} (rank : Tid → Nat)
    (descends : ∀ tid, within tid → m.CanMove p c tid
      ∨ ∃ other, waitsFor tid other ∧ within other ∧ rank other < rank tid)
    {tid : Tid} (start : within tid)
    : ∃ last, Relation.ReflTransGen waitsFor tid last ∧ m.CanMove p c last := by
  induction bound : rank tid using Nat.strongRecOn generalizing tid with
  | ind n ih =>
      rcases descends tid start with moves | ⟨other, waits, member, lower⟩
      · exact ⟨tid, .refl, moves⟩
      · obtain ⟨last, chain, moves⟩ := ih (rank other) (bound ▸ lower) member rfl
        exact ⟨last, .head waits chain, moves⟩

end SafetyIsolation.Interleaving

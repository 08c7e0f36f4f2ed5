import SafetyIsolation.Interleaving.Knowledge

/-! A protocol on top of another one. What threads know by the second may rest on what they know
by the first, which is sound without it.
-/

namespace SafetyIsolation.Interleaving

namespace Prog

variable {Op : Type} {Res : Op → Type} {α ℓ ℓ' : Type} {permits : ℓ → Op → Prop}
  {learns : ℓ → (op : Op) → Res op → ℓ → Prop}

/-- Code that follows two protocols follows them side by side, by program induction. -/
theorem Follows.both {permits' : ℓ' → Op → Prop} {learns' : ℓ' → (op : Op) → Res op → ℓ' → Prop}
    {prog : Prog Op Res α} {post : α → ℓ → Prop} {post' : α → ℓ' → Prop} {known : ℓ} {known' : ℓ'}
    (first : prog.Follows permits learns post known)
    (second : prog.Follows permits' learns' post' known')
    : prog.Follows (fun known op => permits known.1 op ∧ permits' known.2 op)
        (fun known op result later => learns known.1 op result later.1
          ∧ learns' known.2 op result later.2)
        (fun value later => post value later.1 ∧ post' value later.2) (known, known') := by
  induction prog generalizing known known' with
  | ret value => exact ⟨first, second⟩
  | act op next ih =>
      exact ⟨⟨first.1, second.1⟩, fun result later learned =>
        ih result (first.2 result later.1 learned.1) (second.2 result later.2 learned.2)⟩

/-- Code of operations that are permitted and teach nothing, by program induction. -/
theorem Follows.of_all {known : ℓ} {prog : Prog Op Res α}
    (ops : prog.All (fun op => permits known op
      ∧ ∀ result later, learns known op result later → later = known))
    : prog.Follows permits learns (fun _ later => later = known) known := by
  induction prog with
  | ret value => rfl
  | act op next ih =>
      refine ⟨ops.1.1, fun result later learned => ?_⟩
      rw [ops.1.2 result later learned]
      exact ih result (ops.2 result)

end Prog

namespace Protocol

variable {σ Tid Call Val Choice Op ℓ ℓ' : Type} {Res : Op → Type}

/-- Fewer calls follow a protocol all the more. -/
theorem Sound.restrict {k : Protocol σ Tid Call Op Res ℓ} {m : Machine σ Tid Call Val Choice Op Res}
    {p q : Policy σ Tid Call Choice Op} (sound : k.Sound m p)
    (fewer : ∀ tid call, q.calls tid call = true → p.calls tid call = true)
    : k.Sound m q where
  bodies tid call admitted := sound.bodies tid call (fewer tid call admitted)
  acts := sound.acts
  others := sound.others

/-- A thread that is about to perform an operation knows enough to do so. -/
structure About (k : Protocol σ Tid Call Op Res ℓ) (tid : Tid) (call : Call) (known : ℓ) (op : Op)
    (s : σ)
    : Prop where
  inv : k.inv s
  holds : k.holds tid known s
  permitted : k.permits tid call known op

/-- What threads know on top of a protocol, where the meaning of a piece of knowledge may refer
to what the thread knows by that protocol.
-/
structure Layer (σ Tid Call Op : Type) (Res : Op → Type) (ℓ ℓ' : Type) where
  inv : σ → Prop
  rest : ℓ'
  holds : Tid → ℓ → ℓ' → σ → Prop
  permits : Tid → Call → ℓ' → Op → Prop
  learns : ℓ' → (op : Op) → Res op → ℓ' → Prop

/-- Both protocols at once. -/
def on (k : Protocol σ Tid Call Op Res ℓ) (l : Layer σ Tid Call Op Res ℓ ℓ')
    : Protocol σ Tid Call Op Res (ℓ × ℓ') where
  inv s := k.inv s ∧ l.inv s
  rest := (k.rest, l.rest)
  holds tid known s := k.holds tid known.1 s ∧ l.holds tid known.1 known.2 s
  permits tid call known op := k.permits tid call known.1 op ∧ l.permits tid call known.2 op
  learns known op result later := k.learns known.1 op result later.1
    ∧ l.learns known.2 op result later.2

/-- The second protocol is sound as far as it may rest on the first one. -/
structure Layer.Sound (l : Layer σ Tid Call Op Res ℓ ℓ') (k : Protocol σ Tid Call Op Res ℓ)
    (m : Machine σ Tid Call Val Choice Op Res) (p : Policy σ Tid Call Choice Op)
    : Prop where
  bodies : ∀ tid call, p.calls tid call = true
    → (m.body call).Follows (l.permits tid call) l.learns (fun _ known => known = l.rest) l.rest
  acts : ∀ {tid call choice op result s s' known known' later}, k.About tid call known op s
    → l.inv s → l.holds tid known known' s → l.permits tid call known' op
    → m.exec tid choice op s = .done result s' → k.learns known op result later
    → k.holds tid later s'
    → l.inv s' ∧ ∃ later', l.learns known' op result later' ∧ l.holds tid later later' s'
  others : ∀ {tid call choice op result s s' known known' other theirs theirs'}, other ≠ tid
    → k.About tid call known op s → l.inv s → l.holds tid known known' s
    → l.permits tid call known' op → m.exec tid choice op s = .done result s'
    → k.holds other theirs s → l.holds other theirs theirs' s → l.holds other theirs theirs' s'

/-- A sound second protocol on a sound first one makes a sound protocol. -/
theorem Layer.Sound.upon {k : Protocol σ Tid Call Op Res ℓ} {l : Layer σ Tid Call Op Res ℓ ℓ'}
    {m : Machine σ Tid Call Val Choice Op Res} {p : Policy σ Tid Call Choice Op}
    (upper : l.Sound k m p) (lower : k.Sound m p)
    : (k.on l).Sound m p where
  bodies tid call admitted :=
    (Prog.Follows.both (lower.bodies tid call admitted) (upper.bodies tid call admitted)).imp
      (fun _ _ rests => Prod.ext rests.1 rests.2)
  acts inv holds permitted done := by
    obtain ⟨inv', later, learned, own⟩ := lower.acts inv.1 holds.1 permitted.1 done
    obtain ⟨inv'', later', learned', own'⟩ := upper.acts ⟨inv.1, holds.1, permitted.1⟩ inv.2
      holds.2 permitted.2 done learned own
    exact ⟨⟨inv', inv''⟩, (later, later'), ⟨learned, learned'⟩, own, own'⟩
  others different inv holds permitted done theirs :=
    ⟨lower.others different inv.1 holds.1 permitted.1 done theirs.1,
      upper.others different ⟨inv.1, holds.1, permitted.1⟩ inv.2 holds.2 permitted.2 done theirs.1
        theirs.2⟩

end Protocol

end SafetyIsolation.Interleaving

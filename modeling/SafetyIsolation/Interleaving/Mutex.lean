import SafetyIsolation.Interleaving.RelyGuarantee

/-! Rely-guarantee disciplines built from one mutex.
The shared world is divided into what only the owner of the mutex changes (`held`), what
belongs to a single thread (`own`) and the rest, which the invariant alone speaks about.
-/

namespace SafetyIsolation.Interleaving

variable {σ Tid Call Val Choice Op ρ κ : Type} {Res : Op → Type}

/-- How a mutex divides the shared world, and what is kept true around it. -/
structure LockDiscipline (σ Tid Call Val Op : Type) (Res : Op → Type) (ρ κ : Type) where
  owner : σ → Option Tid
  held : World σ Tid Call Val Op Res → ρ
  own : Tid → World σ Tid Call Val Op Res → κ
  inv : World σ Tid Call Val Op Res → Prop
  rest : κ → Prop
  asserts : Tid → Call → Op → World σ Tid Call Val Op Res → Prop

namespace LockDiscipline

/-- The owner relies on the held part, every thread on its own part and on nobody else
taking or losing the mutex in its name.
-/
def discipline (l : LockDiscipline σ Tid Call Val Op Res ρ κ)
    : Discipline σ Tid Call Val Op Res where
  inv := l.inv
  rely tid w w' :=
    (l.owner w.state = some tid ↔ l.owner w'.state = some tid)
    ∧ l.own tid w = l.own tid w'
    ∧ (l.owner w.state = some tid → l.held w = l.held w')
  idle tid w := l.owner w.state ≠ some tid ∧ l.rest (l.own tid w)
  asserts := l.asserts
  rely_refl := by simp
  rely_trans := by
    intro tid w₁ w₂ w₃ first second
    obtain ⟨owner₁, own₁, held₁⟩ := first
    obtain ⟨owner₂, own₂, held₂⟩ := second
    refine ⟨owner₁.trans owner₂, own₁.trans own₂, ?_⟩
    intro owns
    exact (held₁ owns).trans (held₂ (owner₁.mp owns))
  idle_stable := by
    intro tid w₁ w₂ moved atRest
    obtain ⟨owner, own, _⟩ := moved
    obtain ⟨free, resting⟩ := atRest
    exact ⟨fun owns => free (owner.mpr owns), own ▸ resting⟩

variable {l : LockDiscipline σ Tid Call Val Op Res ρ κ}
  {m : Machine σ Tid Call Val Choice Op Res} {p : Policy σ Tid Call Choice Op}
  {tid : Tid} {call : Call} {α : Type}

/-- A step of one thread moves within the discipline when it keeps the invariant and the
other threads' parts, and either does not touch the lock and the held part or has the lock
to itself.
-/
theorem moves_intro {w w' : World σ Tid Call Val Op Res} (inv : l.inv w')
    (own : ∀ other, other ≠ tid → l.own other w' = l.own other w)
    (lock
      : (l.owner w'.state = l.owner w.state ∧ l.held w' = l.held w)
        ∨ ((l.owner w.state = some tid ∨ l.owner w.state = none)
          ∧ (l.owner w'.state = some tid ∨ l.owner w'.state = none)))
    : l.discipline.Moves tid w w' := by
  refine ⟨inv, ?_⟩
  intro other different
  refine ⟨?_, (own other different).symm, ?_⟩
  · rcases lock with ⟨same, _⟩ | ⟨before, after⟩
    · rw [same]
    · constructor
      · intro owns
        rcases before with mine | free
        · exact absurd (Option.some.inj (owns.symm.trans mine)) different
        · simp [free] at owns
      · intro owns
        rcases after with mine | free
        · exact absurd (Option.some.inj (owns.symm.trans mine)) different
        · simp [free] at owns
  · intro owns
    rcases lock with ⟨_, same⟩ | ⟨before, _⟩
    · exact same.symm
    · rcases before with mine | free
      · exact absurd (Option.some.inj (owns.symm.trans mine)) different
      · simp [free] at owns

variable (l m p tid call)

/-- The program is safe wherever its thread owns the mutex with the given held part. -/
def Inside (prog : Prog Op Res α) (held : ρ) (own : κ)
    (post : α → World σ Tid Call Val Op Res → Prop)
    : Prop :=
  ∀ w, l.owner w.state = some tid → l.held w = held → l.own tid w = own
    → l.discipline.Safe m p tid call prog w post

/-- The program is safe wherever its thread does not own the mutex. -/
def Outside (prog : Prog Op Res α) (own : κ)
    (post : α → World σ Tid Call Val Op Res → Prop)
    : Prop :=
  ∀ w, l.owner w.state ≠ some tid → l.own tid w = own
    → l.discipline.Safe m p tid call prog w post

variable {l m p tid call}

/-- An operation inside the critical section. It may keep the mutex and go on inside, or
release it and go on outside; either way no other thread can tell what it did to the held
part.
-/
theorem Inside.act {op : Op} {next : Res op → Prog Op Res α} {held : ρ} {own : κ}
    {post : α → World σ Tid Call Val Op Res → Prop}
    (step
      : ∀ w, l.owner w.state = some tid → l.held w = held → l.own tid w = own → l.inv w
        → l.asserts tid call op w
          ∧ ∀ choice, p.steps tid call op choice w.state = true →
              match m.exec tid choice op w.state with
              | .done result state =>
                  let w' := w.push state (.act tid call op (some result))
                  l.inv w'
                  ∧ (∀ other, other ≠ tid → l.own other w' = l.own other w)
                  ∧ ((l.owner state = some tid
                      ∧ l.Inside m p tid call (next result) (l.held w') (l.own tid w') post)
                    ∨ (l.owner state = none
                      ∧ l.Outside m p tid call (next result) (l.own tid w') post))
              | .wait => True
              | .fault =>
                  let w' := w.push w.state (.act tid call op none)
                  l.inv w' ∧ ∀ other, other ≠ tid → l.own other w' = l.own other w)
    : l.Inside m p tid call (.act op next) held own post := by
  intro w owns heldIs ownIs w' interference inv
  obtain ⟨owner, ownSame, heldSame⟩ := interference
  have owns' := owner.mp owns
  obtain ⟨asserted, stepped⟩ :=
    step w' owns' ((heldSame owns).symm.trans heldIs) (ownSame.symm.trans ownIs) inv
  refine ⟨asserted, ?_⟩
  intro choice admitted
  have outcome := stepped choice admitted
  cases executed : m.exec tid choice op w'.state with
  | done result state =>
      rw [executed] at outcome
      obtain ⟨inv', others, ⟨keeps, next⟩ | ⟨releases, next⟩⟩ := outcome
      · exact ⟨moves_intro inv' others (Or.inr ⟨Or.inl owns', Or.inl keeps⟩),
          next _ keeps rfl rfl⟩
      · refine ⟨moves_intro inv' others (Or.inr ⟨Or.inl owns', Or.inr releases⟩),
          next _ ?_ rfl⟩
        simp [releases]
  | wait => trivial
  | fault =>
      rw [executed] at outcome
      exact moves_intro outcome.1 outcome.2 (Or.inr ⟨Or.inl owns', Or.inl owns'⟩)

/-- An operation outside the critical section. It leaves the held part alone, or acquires
the free mutex and goes on inside.
-/
theorem Outside.act {op : Op} {next : Res op → Prog Op Res α} {own : κ}
    {post : α → World σ Tid Call Val Op Res → Prop}
    (step
      : ∀ w, l.owner w.state ≠ some tid → l.own tid w = own → l.inv w
        → l.asserts tid call op w
          ∧ ∀ choice, p.steps tid call op choice w.state = true →
              match m.exec tid choice op w.state with
              | .done result state =>
                  let w' := w.push state (.act tid call op (some result))
                  l.inv w'
                  ∧ (∀ other, other ≠ tid → l.own other w' = l.own other w)
                  ∧ ((l.owner state = l.owner w.state
                      ∧ l.held w' = l.held w
                      ∧ l.Outside m p tid call (next result) (l.own tid w') post)
                    ∨ (l.owner w.state = none
                      ∧ l.owner state = some tid
                      ∧ l.Inside m p tid call (next result) (l.held w') (l.own tid w') post))
              | .wait => True
              | .fault =>
                  let w' := w.push w.state (.act tid call op none)
                  l.inv w'
                  ∧ (∀ other, other ≠ tid → l.own other w' = l.own other w)
                  ∧ l.held w' = l.held w)
    : l.Outside m p tid call (.act op next) own post := by
  intro w free ownIs w' interference inv
  obtain ⟨owner, ownSame, _⟩ := interference
  have free' : l.owner w'.state ≠ some tid := fun owns => free (owner.mpr owns)
  obtain ⟨asserted, stepped⟩ := step w' free' (ownSame.symm.trans ownIs) inv
  refine ⟨asserted, ?_⟩
  intro choice admitted
  have outcome := stepped choice admitted
  cases executed : m.exec tid choice op w'.state with
  | done result state =>
      rw [executed] at outcome
      obtain ⟨inv', others, ⟨sameOwner, sameHeld, next⟩ | ⟨wasFree, acquires, next⟩⟩ := outcome
      · exact ⟨moves_intro inv' others (Or.inl ⟨sameOwner, sameHeld⟩),
          next _ (fun owns => free' (sameOwner.symm.trans owns)) rfl⟩
      · exact ⟨moves_intro inv' others (Or.inr ⟨Or.inr wasFree, Or.inl acquires⟩),
          next _ acquires rfl rfl⟩
  | wait => trivial
  | fault =>
      rw [executed] at outcome
      exact moves_intro outcome.1 outcome.2.1 (Or.inl ⟨rfl, outcome.2.2⟩)

/-- A return outside the critical section. -/
theorem Outside.ret {value : α} {own : κ} {post : α → World σ Tid Call Val Op Res → Prop}
    (finish
      : ∀ w, l.owner w.state ≠ some tid → l.own tid w = own → l.inv w → post value w)
    : l.Outside m p tid call (.ret value) own post := by
  intro w free ownIs w' interference inv
  obtain ⟨owner, ownSame, _⟩ := interference
  exact finish w' (fun owns => free (owner.mpr owns)) (ownSame.symm.trans ownIs) inv

end LockDiscipline

end SafetyIsolation.Interleaving

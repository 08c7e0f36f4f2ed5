import Mathlib.Data.Fintype.Lattice
import Mathlib.Data.Set.Finite.List
import SafetyIsolation.Interleaving.Steps

/-! Threads that wait for each other. Where every thread waits only for mutexes above those it
holds, in some order, finitely many threads do not wait in a circle.
-/

namespace SafetyIsolation.Interleaving

section CircularWait

variable {Tid Mutex Rank : Type}

/-- Each of the threads waits for a mutex that another one of them holds. -/
def CircularWait (waits holds : Tid → Mutex → Prop) (threads : Set Tid) : Prop :=
  ∀ tid ∈ threads, ∃ mutex, waits tid mutex ∧ ∃ other ∈ threads, other ≠ tid ∧ holds other mutex

/-- The thread that waits for the highest mutex waits for a thread that waits for a higher one. -/
theorem not_circularWait [LinearOrder Rank] {waits holds : Tid → Mutex → Prop}
    {threads : Set Tid} (rank : Mutex → Rank)
    (ascending : ∀ tid mutex held, waits tid mutex → holds tid held → rank held < rank mutex)
    (finite : threads.Finite) (nonempty : threads.Nonempty)
    : ¬ CircularWait waits holds threads := by
  intro circular
  choose wanted waiting other member _ holding using circular
  have := finite.to_subtype
  have := nonempty.to_subtype
  obtain ⟨⟨top, isMember⟩, highest⟩ :=
    Finite.exists_max (fun tid : threads => rank (wanted tid.1 tid.2))
  have isOther := member top isMember
  have higher : rank (wanted top isMember) < rank (wanted (other top isMember) isOther) :=
    ascending _ _ _ (waiting _ isOther) (holding top isMember)
  exact absurd (highest ⟨_, isOther⟩) (not_le.mpr higher)

end CircularWait

section Threads

variable {σ Tid Call Val Choice Op : Type} {Res : Op → Type} [DecidableEq Tid]
  {m : Machine σ Tid Call Val Choice Op Res} {p : Policy σ Tid Call Choice Op}
  {admits : Config σ Tid Call Val Op Res → Event Tid Call Choice → Prop}

/-- Only the finitely many threads some event is about are ever active. -/
theorem Steps.finite_active {s : σ} {c : Config σ Tid Call Val Op Res}
    {events : List (Event Tid Call Choice)}
    (ran : Steps (m.step p) admits (Config.start s) events c)
    : {tid | c.threads tid ≠ .idle}.Finite := by
  have named : {tid | c.threads tid ≠ .idle} ⊆ {tid | tid ∈ events.map Event.tid} := by
    intro tid active
    by_contra absent
    refine active (Machine.run_untouched ran.run (fun event member same => absent ?_))
    exact List.mem_map.mpr ⟨event, member, same.symm⟩
  exact (List.finite_toSet _).subset named

end Threads

end SafetyIsolation.Interleaving

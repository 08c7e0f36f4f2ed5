import Mathlib.Data.List.Induction
import SafetyIsolation.Interleaving.Program

/-! Linearizability through points at which calls take effect.
A history is marked with calls, effects and returns. It linearizes to a sequential object
when every call takes effect once, between its call and its return and with the value it
returns, and the effects in the order of the history are a run of the object.
-/

namespace SafetyIsolation.Interleaving

/-- What each call does to the state of a sequential object, and what it returns. -/
structure SequentialObject (S Call Val : Type) where
  apply : S → Call → S × Val

inductive Mark (Tid Call Val : Type) where
  | call (tid : Tid) (call : Call)
  | effect (tid : Tid) (call : Call) (value : Val)
  | ret (tid : Tid) (call : Call) (value : Val)

/-- Where a thread stands between its call and its return. -/
inductive Phase (Call Val : Type) where
  | idle
  | called (call : Call)
  | effected (call : Call) (value : Val)

variable {S Tid Call Val : Type} [DecidableEq Tid] [DecidableEq Call] [DecidableEq Val]

def Mark.tid : Mark Tid Call Val → Tid
  | .call tid _ => tid
  | .effect tid _ _ => tid
  | .ret tid _ _ => tid

/-- One mark of the thread itself; `none` when the mark is out of order. -/
def Phase.next : Phase Call Val → Mark Tid Call Val → Option (Phase Call Val)
  | .idle, .call _ call => some (.called call)
  | .called pending, .effect _ call value =>
      if call = pending then some (.effected call value) else none
  | .effected pending result, .ret _ call value =>
      if call = pending ∧ value = result then some .idle else none
  | _, _ => none

/-- Where a thread stands after a marked history; marks of other threads are skipped. -/
def phaseOf (tid : Tid) (marks : List (Mark Tid Call Val)) : Option (Phase Call Val) :=
  marks.foldlM (fun phase mark => if mark.tid = tid then phase.next mark else some phase) .idle

/-- The calls that took effect, in order. -/
def effects (marks : List (Mark Tid Call Val)) : List (Tid × Call × Val) :=
  marks.filterMap (fun mark =>
    match mark with
    | .effect tid call value => some (tid, call, value)
    | _ => none)

/-- Run the object over a list of calls, as long as each returns the value given for it. -/
def SequentialObject.replay (object : SequentialObject S Call Val)
    : S → List (Tid × Call × Val) → Option S
  | state, [] => some state
  | state, (_, call, value) :: rest =>
      if (object.apply state call).2 = value then
        object.replay (object.apply state call).1 rest
      else none

/-- The marked history is a linearization. -/
structure Linearized (object : SequentialObject S Call Val) (first : S)
    (marks : List (Mark Tid Call Val))
    : Prop where
  ordered : ∀ tid, (phaseOf tid marks).isSome
  legal : (object.replay first (effects marks)).isSome

theorem phaseOf_push (tid : Tid) (marks : List (Mark Tid Call Val)) (mark : Mark Tid Call Val)
    : phaseOf tid (marks ++ [mark])
      = (phaseOf tid marks).bind (fun phase =>
          if mark.tid = tid then phase.next mark else some phase) := by
  unfold phaseOf
  rw [List.foldlM_append]
  simp

theorem phaseOf_push_other {tid : Tid} {marks : List (Mark Tid Call Val)}
    {mark : Mark Tid Call Val} (other : mark.tid ≠ tid)
    : phaseOf tid (marks ++ [mark]) = phaseOf tid marks := by
  rw [phaseOf_push]
  cases phaseOf tid marks <;> simp [other]

theorem phaseOf_push_self {tid : Tid} {marks : List (Mark Tid Call Val)}
    {mark : Mark Tid Call Val} {phase : Phase Call Val} (own : mark.tid = tid)
    (before : phaseOf tid marks = some phase)
    : phaseOf tid (marks ++ [mark]) = phase.next mark := by
  rw [phaseOf_push, before]
  simp [own]

omit [DecidableEq Tid] [DecidableEq Call] in
/-- One more effect is one more step of the object. -/
theorem SequentialObject.replay_push {object : SequentialObject S Call Val} {first state : S}
    {done : List (Tid × Call × Val)} (tid : Tid) (call : Call)
    (before : object.replay first done = some state)
    : object.replay first (done ++ [(tid, call, (object.apply state call).2)])
      = some (object.apply state call).1 := by
  induction done generalizing first with
  | nil =>
      cases before
      simp [replay]
  | cons entry rest ih =>
      obtain ⟨earlierTid, earlier, value⟩ := entry
      simp only [replay, List.cons_append] at before ⊢
      split at before
      · rename_i same
        rw [if_pos same]
        exact ih before
      · cases before

/-- A returning call was called, then took effect with the value it returns, and its thread
did nothing else in between.
-/
def Placed (earlier : List (Mark Tid Call Val)) (mark : Mark Tid Call Val) : Prop :=
  ∀ tid call value, mark = .ret tid call value →
    ∃ before between after,
      earlier = before ++ .call tid call :: between ++ .effect tid call value :: after
      ∧ (∀ other ∈ between, other.tid ≠ tid)
      ∧ ∀ other ∈ after, other.tid ≠ tid

/-- The marks behind a phase: the last call of the thread and, once it took effect, that
effect.
-/
def Phase.Explains (tid : Tid) (marks : List (Mark Tid Call Val)) : Phase Call Val → Prop
  | .idle => True
  | .called call =>
      ∃ before between, marks = before ++ .call tid call :: between
        ∧ ∀ other ∈ between, other.tid ≠ tid
  | .effected call value =>
      ∃ before between after,
        marks = before ++ .call tid call :: between ++ .effect tid call value :: after
        ∧ (∀ other ∈ between, other.tid ≠ tid)
        ∧ ∀ other ∈ after, other.tid ≠ tid

omit [DecidableEq Tid] [DecidableEq Call] [DecidableEq Val] in
/-- Marks of other threads do not disturb an explanation. -/
theorem Phase.Explains.push_other {tid : Tid} {marks : List (Mark Tid Call Val)}
    {mark : Mark Tid Call Val} {phase : Phase Call Val} (h : phase.Explains tid marks)
    (other : mark.tid ≠ tid)
    : phase.Explains tid (marks ++ [mark]) := by
  have extend {between : List (Mark Tid Call Val)} (quiet : ∀ other ∈ between, other.tid ≠ tid)
      : ∀ other ∈ between ++ [mark], other.tid ≠ tid := by
    intro found member
    rcases List.mem_append.mp member with old | last
    · exact quiet found old
    · exact List.mem_singleton.mp last ▸ other
  cases phase with
  | idle => trivial
  | called call =>
      obtain ⟨before, between, rfl, quiet⟩ := h
      exact ⟨before, between ++ [mark], by simp, extend quiet⟩
  | effected call value =>
      obtain ⟨before, between, after, rfl, quiet, quietAfter⟩ := h
      exact ⟨before, between, after ++ [mark], by simp, quiet, extend quietAfter⟩

/-- Every phase reached is explained by the marks, by induction from the end. -/
theorem phaseOf_explains {tid : Tid} {marks : List (Mark Tid Call Val)}
    {phase : Phase Call Val} (reached : phaseOf tid marks = some phase)
    : phase.Explains tid marks := by
  induction marks using List.reverseRecOn generalizing phase with
  | nil =>
      cases reached
      trivial
  | append_singleton marks mark ih =>
      rw [phaseOf_push] at reached
      obtain ⟨earlier, before, stepped⟩ := Option.bind_eq_some_iff.mp reached
      have explained := ih before
      by_cases own : mark.tid = tid
      · rw [if_pos own] at stepped
        subst own
        cases earlier with
        | idle =>
            cases mark with
            | call _ call =>
                cases stepped
                exact ⟨marks, [], rfl, by simp⟩
            | effect _ _ _ => cases stepped
            | ret _ _ _ => cases stepped
        | called pending =>
            cases mark with
            | call _ _ => cases stepped
            | effect caller call value =>
                simp only [Phase.next] at stepped
                split at stepped
                · rename_i same
                  cases stepped
                  obtain ⟨earlier, between, rfl, quiet⟩ := explained
                  subst same
                  exact ⟨earlier, between, [], rfl, quiet, by simp⟩
                · cases stepped
            | ret _ _ _ => cases stepped
        | effected pending result =>
            cases mark with
            | call _ _ => cases stepped
            | effect _ _ _ => cases stepped
            | ret _ call value =>
                simp only [Phase.next] at stepped
                split at stepped
                · cases stepped
                  trivial
                · cases stepped
      · rw [if_neg own] at stepped
        cases stepped
        exact explained.push_other own

theorem phaseOf_start {tid : Tid} {marks later : List (Mark Tid Call Val)}
    (ordered : (phaseOf tid (marks ++ later)).isSome)
    : ∃ phase, phaseOf tid marks = some phase := by
  cases started : phaseOf tid marks with
  | none =>
      unfold phaseOf at started ordered
      rw [List.foldlM_append, started] at ordered
      cases ordered
  | some phase => exact ⟨phase, rfl⟩

/-- In a linearization every return is placed after its effect. -/
theorem Linearized.placed {object : SequentialObject S Call Val} {first : S}
    {marks : List (Mark Tid Call Val)} (h : Linearized object first marks)
    : Throughout Placed marks := by
  rintro earlier mark later rfl tid call value rfl
  have ordered := h.ordered tid
  rw [← List.singleton_append, ← List.append_assoc] at ordered
  obtain ⟨phase, reached⟩ := phaseOf_start ordered
  rw [phaseOf_push] at reached
  obtain ⟨standing, before, stepped⟩ := Option.bind_eq_some_iff.mp reached
  simp only [Mark.tid, if_true] at stepped
  cases standing with
  | idle => cases stepped
  | called _ => cases stepped
  | effected pending result =>
      simp only [Phase.next] at stepped
      split at stepped
      · rename_i same
        obtain ⟨rfl, rfl⟩ := same
        exact phaseOf_explains before
      · cases stepped

end SafetyIsolation.Interleaving

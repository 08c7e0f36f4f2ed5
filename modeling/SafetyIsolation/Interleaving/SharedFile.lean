import Mathlib.Data.List.Basic

/-! A file that a writer replaces message by message and a reader polls at any time.
Replacing the content takes two steps, so that a poll may also find the file empty.
-/

namespace SafetyIsolation.Interleaving

variable {Message Content View Input : Type}

/-- How messages are written, and what a poll does to the reader's view. The reader finds no
file before the first message.
-/
structure SharedFile (Message Content View Input : Type) where
  encode : Message → Content
  empty : Content
  poll : Input → Option Content → View → View

/-- The writer's messages, the file and the reader's view. -/
structure Exchange (Message Content View : Type) where
  written : List Message
  opened : Option Message
  pending : List Message
  content : Option Content
  view : View

inductive Move (Input : Type) where
  | truncate
  | write
  | poll (input : Input)

/-- Nothing is written yet. -/
def Exchange.start (Content : Type) (messages : List Message) (view : View)
    : Exchange Message Content View where
  written := []
  opened := none
  pending := messages
  content := none
  view := view

/-- The writer's whole list of messages. -/
def Exchange.messages (x : Exchange Message Content View) : List Message :=
  x.written ++ x.opened.toList ++ x.pending

namespace SharedFile

variable (f : SharedFile Message Content View Input)

def step (x : Exchange Message Content View)
    : Move Input → Option (Exchange Message Content View)
  | .truncate =>
      match x.opened, x.pending with
      | none, message :: rest =>
          some { x with opened := some message, pending := rest, content := some f.empty }
      | _, _ => none
  | .write =>
      match x.opened with
      | some message =>
          some { x with
            written := x.written ++ [message]
            opened := none
            content := some (f.encode message) }
      | none => none
  | .poll input => some { x with view := f.poll input x.content x.view }

def run (x : Exchange Message Content View)
    : List (Move Input) → Option (Exchange Message Content View)
  | [] => some x
  | move :: rest => (f.step x move).bind (fun y => run y rest)

/-- The exchange after one more message. -/
def wrote (x : Exchange Message Content View) (message : Message) (rest : List Message)
    : Exchange Message Content View where
  written := x.written ++ [message]
  opened := none
  pending := rest
  content := some (f.encode message)
  view := x.view

variable {f} {x y : Exchange Message Content View} {move : Move Input}
  {moves : List (Move Input)}

theorem step_cases (h : f.step x move = some y)
    : (∃ message rest, x.opened = none ∧ x.pending = message :: rest
        ∧ y = { x with opened := some message, pending := rest, content := some f.empty })
      ∨ (∃ message, x.opened = some message
        ∧ y = { x with
          written := x.written ++ [message]
          opened := none
          content := some (f.encode message) })
      ∨ ∃ input, y = { x with view := f.poll input x.content x.view } := by
  cases move with
  | truncate =>
      rw [step] at h
      split at h
      · rename_i message rest opened pending
        exact Or.inl ⟨message, rest, opened, pending, (Option.some.inj h).symm⟩
      · exact absurd h.symm (Option.some_ne_none y)
  | write =>
      rw [step] at h
      split at h
      · rename_i message opened
        exact Or.inr (Or.inl ⟨message, opened, (Option.some.inj h).symm⟩)
      · exact absurd h.symm (Option.some_ne_none y)
  | poll input => exact Or.inr (Or.inr ⟨input, (Option.some.inj h).symm⟩)

theorem step_messages (h : f.step x move = some y) : y.messages = x.messages := by
  rcases step_cases h with ⟨message, rest, opened, pending, rfl⟩ | ⟨message, opened, rfl⟩
    | ⟨input, rfl⟩
  · simp [Exchange.messages, opened, pending]
  · simp [Exchange.messages, opened]
  · rfl

/-- The file holds the last message that was written, if it holds one. -/
def Current (f : SharedFile Message Content View Input) (x : Exchange Message Content View)
    : Prop :=
  x.content = none ∨ x.content = some f.empty
  ∨ ∃ front message, x.written = front ++ [message] ∧ x.content = some (f.encode message)

/-- What is true of the reader's view whatever it has polled among the written messages. -/
structure Tracks (f : SharedFile Message Content View Input)
    (inv : List Message → View → Prop)
    : Prop where
  grows : ∀ {written view} message, inv written view → inv (written ++ [message]) view
  missing : ∀ {written view} input, inv written view → inv written (f.poll input none view)
  blank : ∀ {written view} input, inv written view
    → inv written (f.poll input (some f.empty) view)
  reads : ∀ {front view} message input, inv (front ++ [message]) view
    → inv (front ++ [message]) (f.poll input (some (f.encode message)) view)

theorem Tracks.step {inv : List Message → View → Prop} (tracks : f.Tracks inv)
    (h : f.step x move = some y) (current : f.Current x) (holds : inv x.written x.view)
    : f.Current y ∧ inv y.written y.view := by
  rcases step_cases h with ⟨message, rest, _, _, rfl⟩ | ⟨message, _, rfl⟩ | ⟨input, rfl⟩
  · exact ⟨Or.inr (Or.inl rfl), holds⟩
  · exact ⟨Or.inr (Or.inr ⟨x.written, message, rfl, rfl⟩), tracks.grows message holds⟩
  · refine ⟨current, ?_⟩
    rcases current with content | content | ⟨front, message, written, content⟩
    · simpa only [content] using tracks.missing input holds
    · simpa only [content] using tracks.blank input holds
    · rw [written] at holds
      simpa only [content, written] using tracks.reads message input holds

/-- The whole run, by induction over its moves. -/
theorem Tracks.run {inv : List Message → View → Prop} (tracks : f.Tracks inv)
    (h : f.run x moves = some y) (current : f.Current x) (holds : inv x.written x.view)
    : f.Current y ∧ inv y.written y.view ∧ y.messages = x.messages := by
  induction moves generalizing x with
  | nil =>
      obtain rfl := Option.some.inj h
      exact ⟨current, holds, rfl⟩
  | cons move rest ih =>
      obtain ⟨next, stepped, later⟩ := Option.bind_eq_some_iff.mp h
      obtain ⟨current, holds⟩ := tracks.step stepped current holds
      obtain ⟨current, holds, same⟩ := ih later current holds
      exact ⟨current, holds, same.trans (step_messages stepped)⟩

theorem run_append (first second : List (Move Input))
    : f.run x (first ++ second) = (f.run x first).bind (fun y => f.run y second) := by
  induction first generalizing x with
  | nil => rfl
  | cons move rest ih =>
      rw [List.cons_append, run, run, Option.bind_assoc]
      congr 1
      funext y
      exact ih

theorem run_write (x : Exchange Message Content View) {message : Message}
    {rest : List Message} (opened : x.opened = none) (pending : x.pending = message :: rest)
    : f.run x [.truncate, .write] = some (f.wrote x message rest) := by
  simp only [run, step, opened, pending, Option.bind_some, wrote]

/-- The writer can get ahead by any number of messages while the reader does nothing. -/
theorem exists_run_writing (f : SharedFile Message Content View Input) {front rest : List Message}
    {message : Message} (x : Exchange Message Content View) (opened : x.opened = none)
    (pending : x.pending = front ++ message :: rest)
    : ∃ moves, f.run x moves = some {
        written := x.written ++ front ++ [message]
        opened := none
        pending := rest
        content := some (f.encode message)
        view := x.view
      } := by
  induction front generalizing x with
  | nil =>
      refine ⟨[.truncate, .write], ?_⟩
      rw [run_write x opened pending, List.append_nil]
      rfl
  | cons first front ih =>
      rw [List.cons_append] at pending
      obtain ⟨moves, later⟩ := ih (f.wrote x first (front ++ message :: rest)) rfl rfl
      refine ⟨[.truncate, .write] ++ moves, ?_⟩
      rw [run_append, run_write x opened pending, Option.bind_some, later]
      simp only [wrote, List.append_assoc, List.singleton_append]

/-- It can do so with one poll on the way. -/
theorem exists_run_watching (f : SharedFile Message Content View Input)
    {front between rest : List Message} {earlier last : Message}
    (x : Exchange Message Content View) (input : Input) (opened : x.opened = none)
    (pending : x.pending = front ++ earlier :: (between ++ last :: rest))
    : ∃ moves, f.run x moves = some {
        written := x.written ++ front ++ [earlier] ++ between ++ [last]
        opened := none
        pending := rest
        content := some (f.encode last)
        view := f.poll input (some (f.encode earlier)) x.view
      } := by
  obtain ⟨first, ran⟩ := f.exists_run_writing x opened pending
  obtain ⟨second, finished⟩ := f.exists_run_writing {
      written := x.written ++ front ++ [earlier]
      opened := none
      pending := between ++ last :: rest
      content := some (f.encode earlier)
      view := f.poll input (some (f.encode earlier)) x.view
    } rfl rfl
  refine ⟨first ++ .poll input :: second, ?_⟩
  rw [run_append, ran]
  exact finished

end SharedFile

end SafetyIsolation.Interleaving

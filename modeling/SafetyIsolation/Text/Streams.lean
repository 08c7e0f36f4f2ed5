import Mathlib.Data.List.DropRight
import SafetyIsolation.Text.Lines

/-! Streams of lines that are still growing: the lines that are complete, and what is left
after the last newline.
-/

namespace SafetyIsolation.Text

/-- The newline-terminated lines of a stream. -/
def terminatedLines (stream : Bytes) : List Bytes := lines (stream.rdropWhile (· ≠ newline))

/-- The bytes after the last newline of a stream. -/
def afterLastNewline (stream : Bytes) : Bytes := stream.rtakeWhile (· ≠ newline)

theorem cut_eq_none_iff {separator : UInt8} {text : Bytes}
    : cut separator text = none ↔ separator ∉ text := by
  constructor
  · intro uncut member
    obtain ⟨front, rest, rfl, absent⟩ := List.eq_append_cons_of_mem member
    rw [cut_append absent] at uncut
    exact Option.some_ne_none _ uncut
  · intro absent
    have whole := cut_prepend [] absent
    rw [List.append_nil] at whole
    rw [whole]
    rfl

theorem terminatedLines_of_absent {stream : Bytes} (h : newline ∉ stream)
    : terminatedLines stream = [] ∧ afterLastNewline stream = stream := by
  have passes := passes_of_absent h
  rw [terminatedLines, afterLastNewline, List.rdropWhile_eq_nil_iff.mpr passes,
    List.rtakeWhile_eq_self_iff.mpr passes]
  exact ⟨rfl, rfl⟩

/-- A newline separates what is terminated from what may still grow. -/
theorem terminatedLines_newline (front rest : Bytes)
    : terminatedLines (front ++ newline :: rest)
        = lines (front ++ [newline]) ++ terminatedLines rest
      ∧ afterLastNewline (front ++ newline :: rest) = afterLastNewline rest := by
  have stops : decide (newline ≠ newline) = false := by decide
  have reversed : (front ++ newline :: rest).reverse
      = rest.reverse ++ newline :: front.reverse := by
    rw [List.reverse_append, List.reverse_cons, List.append_assoc, List.singleton_append]
  have dropped : (front ++ newline :: rest).rdropWhile (· ≠ newline)
      = front ++ newline :: rest.rdropWhile (· ≠ newline) := by
    rw [List.rdropWhile, List.rdropWhile, reversed, List.dropWhile_append]
    split
    case isTrue all =>
      rw [List.isEmpty_iff.mp all, List.dropWhile_cons, stops]
      simp only [Bool.false_eq_true, if_false, List.reverse_cons, List.reverse_reverse,
        List.reverse_nil]
    case isFalse =>
      rw [List.reverse_append, List.reverse_cons, List.reverse_reverse, List.append_assoc,
        List.singleton_append]
  have taken : (front ++ newline :: rest).rtakeWhile (· ≠ newline)
      = rest.rtakeWhile (· ≠ newline) := by
    rw [List.rtakeWhile, List.rtakeWhile, reversed, List.takeWhile_append]
    split
    case isTrue all =>
      rw [List.takeWhile_cons, stops]
      simp only [Bool.false_eq_true, if_false, List.append_nil]
      rw [List.takeWhile_eq_self_iff.mpr
        (List.takeWhile_eq_self_iff.mp ((List.takeWhile_prefix _).eq_of_length all))]
    case isFalse => rfl
  rw [terminatedLines, afterLastNewline, dropped, taken, lines_newline]
  exact ⟨rfl, rfl⟩

/-- The stream consists of terminated lines and of a rest in which no line ends. -/
structure SplitsInto (stream : Bytes) (texts : List Bytes) (pending : Bytes) : Prop where
  whole : stream = texts.flatMap (· ++ [newline]) ++ pending
  unbroken : ∀ text ∈ texts, newline ∉ text
  rest : newline ∉ pending

/-- There is one way to split a stream, by induction on the lines. -/
theorem SplitsInto.unique {stream pending : Bytes} {texts : List Bytes}
    (h : SplitsInto stream texts pending)
    : texts = terminatedLines stream ∧ pending = afterLastNewline stream := by
  obtain ⟨rfl, whole, absent⟩ := h
  induction texts with
  | nil =>
      obtain ⟨none, own⟩ := terminatedLines_of_absent absent
      rw [List.flatMap_nil, List.nil_append, none, own]
      exact ⟨rfl, rfl⟩
  | cons text later ih =>
      obtain ⟨texts, rest⟩ := ih (fun text member => whole text (List.mem_cons_of_mem _ member))
      obtain ⟨first, last⟩ :=
        terminatedLines_newline text (later.flatMap (· ++ [newline]) ++ pending)
      rw [List.flatMap_cons, List.append_assoc, List.append_assoc, List.singleton_append, first,
        last, lines_line (whole text List.mem_cons_self), lines, ← texts, ← rest]
      exact ⟨rfl, rfl⟩

/-- What comes later only completes what was pending. -/
theorem terminatedLines_append (stream more : Bytes)
    : terminatedLines (stream ++ more)
        = terminatedLines stream ++ terminatedLines (afterLastNewline stream ++ more)
      ∧ afterLastNewline (stream ++ more)
        = afterLastNewline (afterLastNewline stream ++ more) := by
  by_cases member : newline ∈ stream
  · obtain ⟨back, front, same, absent⟩ :=
      List.eq_append_cons_of_mem (List.mem_reverse.mpr member)
    have whole : stream = front.reverse ++ newline :: back.reverse := by
      rw [← List.reverse_reverse stream, same, List.reverse_append, List.reverse_cons,
        List.append_assoc, List.singleton_append]
    obtain ⟨none, own⟩ := terminatedLines_of_absent
      (fun inside => absent (List.mem_reverse.mp inside) : newline ∉ back.reverse)
    obtain ⟨first, last⟩ := terminatedLines_newline front.reverse back.reverse
    obtain ⟨first', last'⟩ := terminatedLines_newline front.reverse (back.reverse ++ more)
    rw [whole, List.append_assoc, List.cons_append, first', last', first, last, none, own,
      List.append_nil]
    exact ⟨rfl, rfl⟩
  · obtain ⟨none, own⟩ := terminatedLines_of_absent member
    rw [none, own]
    exact ⟨rfl, rfl⟩

end SafetyIsolation.Text

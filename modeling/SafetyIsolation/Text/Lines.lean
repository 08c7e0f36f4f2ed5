import Mathlib.Data.List.TakeWhile
import SafetyIsolation.Text.Bytes

/-! Line-based texts: reading line by line, and cutting a line at its first separator. -/

namespace SafetyIsolation.Text

def newline : UInt8 := 10

/-- The results of calling `getline` until it fails: a last line needs no newline, and
nothing follows a final newline.
-/
def lines : Bytes → List Bytes
  | [] => []
  | byte :: rest =>
      if byte = newline then [] :: lines rest
      else match lines rest with
        | [] => [[byte]]
        | line :: later => (byte :: line) :: later

/-- Cut at the first separator, which belongs to neither part. -/
def cut (separator : UInt8) (line : Bytes) : Option (Bytes × Bytes) :=
  match line.dropWhile (· ≠ separator) with
  | [] => none
  | _ :: value => some (line.takeWhile (· ≠ separator), value)

/-- What comes before a first line without a newline of its own joins that line. -/
theorem lines_prepend {front rest line : Bytes} {later : List Bytes} (whole : newline ∉ front)
    (first : lines rest = line :: later)
    : lines (front ++ rest) = (front ++ line) :: later := by
  induction front with
  | nil => exact first
  | cons byte front ih =>
      have distinct : byte ≠ newline := fun same => whole (same ▸ List.mem_cons_self)
      have remaining : newline ∉ front := fun member => whole (List.mem_cons_of_mem _ member)
      rw [List.cons_append, lines, if_neg distinct, ih remaining]
      rfl

/-- A complete line comes first, whatever follows it. -/
theorem lines_line {line rest : Bytes} (whole : newline ∉ line)
    : lines (line ++ newline :: rest) = line :: lines rest := by
  have first : lines (newline :: rest) = [] :: lines rest := by rw [lines, if_pos rfl]
  rw [lines_prepend whole first, List.append_nil]

/-- Complete lines are read back one by one, whatever follows them. -/
theorem lines_flatMap {list : List Bytes} (rest : Bytes) (whole : ∀ line ∈ list, newline ∉ line)
    : lines (list.flatMap (· ++ [newline]) ++ rest) = list ++ lines rest := by
  induction list with
  | nil => rfl
  | cons line later ih =>
      rw [List.flatMap_cons, List.append_assoc, List.append_assoc, List.singleton_append,
        lines_line (whole line List.mem_cons_self),
        ih (fun line member => whole line (List.mem_cons_of_mem _ member)), List.cons_append]

/-- A text that ends with a newline has a first line, and its lines come first, whatever
follows.
-/
theorem exists_lines (text : Bytes)
    : ∃ line later, ∀ rest, lines (text ++ newline :: rest) = line :: later ++ lines rest := by
  induction text with
  | nil =>
      refine ⟨[], [], fun rest => ?_⟩
      simp only [List.nil_append, lines, if_true, List.singleton_append]
  | cons byte text ih =>
      obtain ⟨line, later, read⟩ := ih
      by_cases separates : byte = newline
      · refine ⟨[], line :: later, fun rest => ?_⟩
        rw [List.cons_append, lines, if_pos separates, read]
        rfl
      · refine ⟨byte :: line, later, fun rest => ?_⟩
        rw [List.cons_append, lines, if_neg separates, read]
        rfl

theorem exists_firstLine (text : Bytes)
    : ∃ line later, lines (text ++ [newline]) = line :: later := by
  obtain ⟨line, later, read⟩ := exists_lines text
  have whole := read []
  rw [lines, List.append_nil] at whole
  exact ⟨line, later, whole⟩

/-- A newline separates what is read before it from what is read after it. -/
theorem lines_newline (text rest : Bytes)
    : lines (text ++ newline :: rest) = lines (text ++ [newline]) ++ lines rest := by
  obtain ⟨line, later, read⟩ := exists_lines text
  rw [read rest, read [], lines, List.append_nil]

/-- No line that is read contains a newline. -/
theorem newline_not_mem_lines {text line : Bytes} (member : line ∈ lines text)
    : newline ∉ line := by
  induction text generalizing line with
  | nil => exact absurd member List.not_mem_nil
  | cons byte rest ih =>
      by_cases separates : byte = newline
      · rw [lines, if_pos separates] at member
        rcases List.mem_cons.mp member with rfl | later
        · exact List.not_mem_nil
        · exact ih later
      · rw [lines, if_neg separates] at member
        cases split : lines rest with
        | nil =>
            rw [split] at member
            rw [List.mem_singleton.mp member]
            exact fun same => separates (List.mem_singleton.mp same).symm
        | cons first later =>
            rw [split] at ih member
            rcases List.mem_cons.mp member with rfl | earlier
            · intro inside
              rcases List.mem_cons.mp inside with same | inFirst
              · exact separates same.symm
              · exact ih List.mem_cons_self inFirst
            · exact ih (List.mem_cons_of_mem _ earlier)

theorem passes_of_absent {separator : UInt8} {front : Bytes} (absent : separator ∉ front)
    : ∀ byte ∈ front, decide (byte ≠ separator) = true := by
  intro byte member
  exact decide_eq_true (fun same => absent (same ▸ member))

theorem cut_append {separator : UInt8} {key value : Bytes} (absent : separator ∉ key)
    : cut separator (key ++ separator :: value) = some (key, value) := by
  have passes := passes_of_absent absent
  rw [cut, List.dropWhile_append_of_pos passes, List.takeWhile_append_of_pos passes]
  simp only [ne_eq, List.dropWhile_cons, List.takeWhile_cons, not_true, decide_false,
    Bool.false_eq_true, if_false, List.append_nil]

/-- Without a separator in it, a front part joins the first part. -/
theorem cut_prepend {separator : UInt8} {front : Bytes} (rest : Bytes)
    (absent : separator ∉ front)
    : cut separator (front ++ rest)
      = (cut separator rest).map (fun parts => (front ++ parts.1, parts.2)) := by
  have passes := passes_of_absent absent
  rw [cut, cut, List.dropWhile_append_of_pos passes, List.takeWhile_append_of_pos passes]
  cases rest.dropWhile (fun byte => decide (byte ≠ separator)) with
  | nil => rfl
  | cons byte later => rfl

/-- Cutting loses nothing. -/
theorem cut_eq_some {separator : UInt8} {line : Bytes} {parts : Bytes × Bytes}
    (isCut : cut separator line = some parts)
    : line = parts.1 ++ separator :: parts.2 := by
  have whole := List.takeWhile_append_dropWhile (p := (· ≠ separator)) (l := line)
  have stopped := List.head?_dropWhile_not (· ≠ separator) line
  rw [cut] at isCut
  cases remaining : line.dropWhile (· ≠ separator) with
  | nil =>
      rw [remaining] at isCut
      exact absurd isCut.symm (Option.some_ne_none parts)
  | cons first value =>
      rw [remaining] at isCut whole stopped
      obtain rfl := Option.some.inj isCut
      have same : first = separator := by simpa using stopped
      rw [same] at whole
      exact whole.symm

end SafetyIsolation.Text

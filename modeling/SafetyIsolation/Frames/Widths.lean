import SafetyIsolation.Monitor.Renderer
import SafetyIsolation.Text.Utf8

/-! The width of well-formed texts. `visual_len` counts their characters, and `pad_line` cuts
between two of them.
-/

namespace SafetyIsolation.Frames

open SafetyIsolation.Text SafetyIsolation.Monitor

/-- The bytes of a sequence of characters. -/
abbrev encode (characters : List Char) : Bytes := characters.flatMap String.utf8EncodeChar

/-- The renderer reads the length of a character off its lead byte. -/
theorem charLength_of_lead {lead : UInt8} {count : Nat} (h : Lead lead count)
    : charLength lead = count + 1 := by
  have one : ∀ n < 0x80, charLength (UInt8.ofNat n) = 1 := by decide
  have two : ∀ n < 0x20, charLength (UInt8.ofNat (0xC0 + n)) = 2 := by decide
  have three : ∀ n < 0x10, charLength (UInt8.ofNat (0xE0 + n)) = 3 := by decide
  have four : ∀ n < 0x08, charLength (UInt8.ofNat (0xF0 + n)) = 4 := by decide
  have shifted {first : Nat} (above : first ≤ lead.toNat)
      : lead = UInt8.ofNat (first + (lead.toNat - first)) := by
    rw [Nat.add_sub_cancel' above, UInt8.ofNat_toNat]
  cases h with
  | one below => exact (UInt8.ofNat_toNat (x := lead)) ▸ one _ below
  | two above below => exact shifted above ▸ two _ (by omega)
  | three above below => exact shifted above ▸ three _ (by omega)
  | four above below => exact shifted above ▸ four _ (by omega)

theorem visualLenFrom_pass (front rest : Bytes) (passing : Nat)
    : visualLenFrom (front.length + passing) (front ++ rest) = visualLenFrom passing rest := by
  induction front with
  | nil => rw [List.length_nil, Nat.zero_add, List.nil_append]
  | cons byte front ih =>
      rw [List.length_cons, Nat.add_right_comm, List.cons_append, visualLenFrom]
      exact ih

theorem truncateFrom_pass (left : Nat) (front rest : Bytes)
    : truncateFrom left front.length (front ++ rest) = front ++ truncateFrom left 0 rest := by
  induction front with
  | nil => rfl
  | cons byte front ih => exact congrArg (byte :: ·) ih

/-- A character counts once. -/
theorem visualLen_character (character : Char) (rest : Bytes)
    : visualLen (String.utf8EncodeChar character ++ rest) = visualLen rest + 1 := by
  obtain ⟨lead, follow, encodes, isLead⟩ := utf8EncodeChar_lead character
  rw [encodes, List.cons_append, visualLen, visualLenFrom, charLength_of_lead isLead,
    Nat.add_sub_cancel]
  exact congrArg (· + 1) (visualLenFrom_pass follow rest 0)

/-- A character is kept whole. -/
theorem truncateFrom_character (left : Nat) (character : Char) (rest : Bytes)
    : truncateFrom (left + 1) 0 (String.utf8EncodeChar character ++ rest)
      = String.utf8EncodeChar character ++ truncateFrom left 0 rest := by
  obtain ⟨lead, follow, encodes, isLead⟩ := utf8EncodeChar_lead character
  rw [encodes, List.cons_append, truncateFrom, charLength_of_lead isLead, Nat.add_sub_cancel,
    truncateFrom_pass, List.cons_append]

theorem visualLen_encode_append (characters : List Char) (rest : Bytes)
    : visualLen (encode characters ++ rest) = characters.length + visualLen rest := by
  induction characters with
  | nil => rw [encode, List.flatMap_nil, List.nil_append, List.length_nil, Nat.zero_add]
  | cons character later ih =>
      rw [encode, List.flatMap_cons, List.append_assoc, visualLen_character, ih,
        List.length_cons]
      omega

theorem visualLen_encode (characters : List Char)
    : visualLen (encode characters) = characters.length := by
  have whole := visualLen_encode_append characters []
  rwa [List.append_nil] at whole

theorem visualLen_append {left : Bytes} (h : WellFormed left) (right : Bytes)
    : visualLen (left ++ right) = visualLen left + visualLen right := by
  obtain ⟨characters, rfl⟩ := h
  rw [visualLen_encode_append, visualLen_encode]

theorem truncateFrom_encode (left : Nat) (characters : List Char)
    : truncateFrom left 0 (encode characters) = encode (characters.take left) := by
  induction characters generalizing left with
  | nil => cases left <;> rfl
  | cons character later ih =>
      cases left with
      | zero =>
          obtain ⟨lead, follow, encodes, _⟩ := utf8EncodeChar_lead character
          rw [encode, List.flatMap_cons, encodes]
          rfl
      | succ left =>
          rw [encode, List.flatMap_cons, truncateFrom_character, ih, List.take_succ_cons]
          rfl

theorem encode_spaces (count : Nat)
    : encode (List.replicate count ' ') = List.replicate count 32 := by
  induction count with
  | zero => rfl
  | succ count ih => exact congrArg (32 :: ·) ih

/-- `pad_line` keeps as many whole characters as fit and fills the rest with spaces. -/
theorem padLine_encode (characters : List Char) (width : Nat)
    : padLine (encode characters) width
      = encode (characters.take width ++ List.replicate (width - characters.length) ' ') := by
  rw [padLine, visualLen_encode]
  by_cases full : width ≤ characters.length
  · rw [if_pos full, truncateFrom_encode, Nat.sub_eq_zero_of_le full, List.replicate_zero,
      List.append_nil]
  · rw [if_neg full, List.take_of_length_le (by omega), encode, encode, List.flatMap_append,
      ← encode_spaces]

/-- A padded text is well formed and has exactly the width asked for. -/
theorem visualLen_padLine {text : Bytes} (h : WellFormed text) (width : Nat)
    : WellFormed (padLine text width) ∧ visualLen (padLine text width) = width := by
  obtain ⟨characters, rfl⟩ := h
  have padded := padLine_encode characters width
  refine ⟨⟨_, padded⟩, ?_⟩
  rw [encode] at padded
  rw [padded, visualLen_encode, List.length_append, List.length_take, List.length_replicate]
  omega

theorem padLine_of_width {text : Bytes} (h : WellFormed text)
    : padLine text (visualLen text) = text := by
  obtain ⟨characters, rfl⟩ := h
  have padded := padLine_encode characters characters.length
  rw [List.take_length, Nat.sub_self, List.replicate_zero, List.append_nil] at padded
  rw [visualLen_encode]
  exact padded

/-- `pad_line` as a formatter: a text of the width asked for, which is a front of whole characters
or the text with spaces behind it, and which a second pass leaves alone.
-/
theorem padLine_exact_width {text : Bytes} (h : WellFormed text) (width : Nat)
    : WellFormed (padLine text width)
      ∧ visualLen (padLine text width) = width
      ∧ (∀ characters, text = encode characters
        → (width ≤ characters.length
          → padLine text width = encode (characters.take width)
            ∧ encode (characters.take width) <+: text)
          ∧ (characters.length < width
            → padLine text width = text ++ List.replicate (width - characters.length) 32))
      ∧ padLine (padLine text width) width = padLine text width := by
  obtain ⟨padded, wide⟩ := visualLen_padLine h width
  refine ⟨padded, wide, ?_, ?_⟩
  · rintro characters rfl
    rw [padLine_encode]
    refine ⟨fun full => ⟨?_, ?_⟩, fun short => ?_⟩
    · rw [Nat.sub_eq_zero_of_le full, List.replicate_zero, List.append_nil]
    · exact ⟨encode (characters.drop width), by
        rw [encode, encode, encode, ← List.flatMap_append, List.take_append_drop]⟩
    · rw [List.take_of_length_le (by omega), encode, List.flatMap_append, ← encode_spaces]
  · -- The padded text already has the width.
    have again := padLine_of_width padded
    rwa [wide] at again

/-- Three characters of one, two and three bytes, cut to two of them. -/
theorem padLine_exact_width_two
    : WellFormed (utf8 "aé│")
      ∧ visualLen (padLine (utf8 "aé│") 2) = 2
      ∧ padLine (utf8 "aé│") 2 = utf8 "aé" := by
  have exact_width := padLine_exact_width (wellFormed_utf8 "aé│") 2
  exact ⟨wellFormed_utf8 _, exact_width.2.1,
    ((exact_width.2.2.1 ['a', 'é', '│'] (by decide)).1 (by decide)).1.trans (by decide)⟩

theorem makeHline_encode (fill : Char) (count : Nat)
    : makeHline (String.utf8EncodeChar fill) count = encode (List.replicate count fill) := by
  rw [makeHline, encode, List.flatMap_replicate]

/-- A horizontal line is as wide as it has pieces. -/
theorem visualLen_makeHline (fill : Char) (count : Nat)
    : WellFormed (makeHline (String.utf8EncodeChar fill) count)
      ∧ visualLen (makeHline (String.utf8EncodeChar fill) count) = count := by
  rw [makeHline_encode]
  exact ⟨⟨_, rfl⟩, by rw [visualLen_encode, List.length_replicate]⟩

theorem newline_not_mem_append {left right : Bytes} (h : newline ∉ left) (h' : newline ∉ right)
    : newline ∉ left ++ right := by
  intro member
  rcases List.mem_append.mp member with inLeft | inRight
  · exact h inLeft
  · exact h' inRight

/-- Truncation keeps a front of the text, in which each character that fits has a byte at least. -/
theorem truncateFrom_front (left passing : Nat) (text : Bytes)
    : truncateFrom left passing text <+: text
      ∧ min (left + passing) text.length ≤ (truncateFrom left passing text).length := by
  induction text generalizing left passing with
  | nil => cases left <;> cases passing <;> exact ⟨List.prefix_rfl, Nat.min_le_right _ _⟩
  | cons first rest ih =>
      cases passing with
      | succ passing =>
          obtain ⟨front, long⟩ := ih left passing
          rw [truncateFrom, List.length_cons, List.length_cons]
          exact ⟨List.cons_prefix_cons.mpr ⟨rfl, front⟩, by omega⟩
      | zero =>
          cases left with
          | zero => exact ⟨List.nil_prefix, Nat.min_le_left _ _⟩
          | succ left =>
              obtain ⟨front, long⟩ := ih left (charLength first - 1)
              rw [truncateFrom, List.length_cons, List.length_cons]
              exact ⟨List.cons_prefix_cons.mpr ⟨rfl, front⟩, by omega⟩

/-- Padding adds no line. -/
theorem newline_not_mem_padLine {text : Bytes} (h : newline ∉ text) (width : Nat)
    : newline ∉ padLine text width := by
  rw [padLine]
  split
  · exact fun member => h ((truncateFrom_front _ _ _).1.subset member)
  · refine newline_not_mem_append h (fun member => ?_)
    exact absurd (List.eq_of_mem_replicate member) (by decide)

theorem newline_not_mem_makeHline {fill : Bytes} (h : newline ∉ fill) (count : Nat)
    : newline ∉ makeHline fill count := by
  intro member
  obtain ⟨piece, isPiece, inside⟩ := List.mem_flatten.mp member
  exact h (List.eq_of_mem_replicate isPiece ▸ inside)

end SafetyIsolation.Frames

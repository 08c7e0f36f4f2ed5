import SafetyIsolation.Text.Bytes

/-! Well-formed UTF-8 and its lead bytes. -/

namespace SafetyIsolation.Text

/-- A text is well formed when it encodes a sequence of Unicode characters. -/
def WellFormed (text : Bytes) : Prop :=
  ∃ characters : List Char, text = characters.flatMap String.utf8EncodeChar

/-- The range of a lead byte and the number of bytes that follow it. -/
inductive Lead (lead : UInt8) : Nat → Prop where
  | one (below : lead.toNat < 0x80) : Lead lead 0
  | two (above : 0xC0 ≤ lead.toNat) (below : lead.toNat < 0xE0) : Lead lead 1
  | three (above : 0xE0 ≤ lead.toNat) (below : lead.toNat < 0xF0) : Lead lead 2
  | four (above : 0xF0 ≤ lead.toNat) (below : lead.toNat < 0xF8) : Lead lead 3

theorem Lead.not_ascii {lead : UInt8} {count : Nat} (h : Lead lead count) (several : 0 < count)
    : 0x80 ≤ lead.toNat := by
  cases h with
  | one below => cases several
  | two above below => omega
  | three above below => omega
  | four above below => omega

/-- Every character starts with a lead byte that tells how many bytes follow. -/
theorem utf8EncodeChar_lead (character : Char)
    : ∃ lead rest,
        String.utf8EncodeChar character = lead :: rest ∧ Lead lead rest.length := by
  have ofNat {n : Nat} (small : n < 256) : (UInt8.ofNat n).toNat = n := by
    rw [UInt8.toNat_ofNat', Nat.mod_eq_of_lt small]
  unfold String.utf8EncodeChar
  dsimp only
  split
  · exact ⟨_, _, rfl, .one (by rw [ofNat (by omega)]; omega)⟩
  split
  · exact ⟨_, _, rfl, .two (by rw [ofNat (by omega)]; omega) (by rw [ofNat (by omega)]; omega)⟩
  split
  · exact ⟨_, _, rfl,
      .three (by rw [ofNat (by omega)]; omega) (by rw [ofNat (by omega)]; omega)⟩
  · exact ⟨_, _, rfl,
      .four (by rw [ofNat (by omega)]; omega) (by rw [ofNat (by omega)]; omega)⟩

/-- The bytes after the lead byte are continuation bytes. -/
theorem utf8EncodeChar_tail (character : Char)
    : ∀ byte ∈ (String.utf8EncodeChar character).tail, 0x80 ≤ byte.toNat ∧ byte.toNat < 0xC0 := by
  have continues (n : Nat) : 0x80 ≤ (UInt8.ofNat (n % 0x40 + 0x80)).toNat
      ∧ (UInt8.ofNat (n % 0x40 + 0x80)).toNat < 0xC0 := by
    rw [UInt8.toNat_ofNat']
    omega
  unfold String.utf8EncodeChar
  dsimp only
  intro byte member
  split at member
  · cases member
  split at member
  · rw [List.tail_cons] at member
    rw [List.mem_singleton.mp member]
    exact continues _
  split at member
  · rw [List.tail_cons] at member
    rcases List.mem_cons.mp member with rfl | member
    · exact continues _
    · rw [List.mem_singleton.mp member]
      exact continues _
  · rw [List.tail_cons] at member
    rcases List.mem_cons.mp member with rfl | member
    · exact continues _
    rcases List.mem_cons.mp member with rfl | member
    · exact continues _
    · rw [List.mem_singleton.mp member]
      exact continues _

/-- A character of several bytes has no ASCII byte. -/
theorem utf8EncodeChar_no_ascii {character : Char} {inside rest : Bytes}
    (encodes : String.utf8EncodeChar character = inside ++ rest) (some : inside ≠ [])
    (left : rest ≠ [])
    : ∀ byte ∈ String.utf8EncodeChar character, 0x80 ≤ byte.toNat := by
  obtain ⟨lead, follow, same, isLead⟩ := utf8EncodeChar_lead character
  have continues := utf8EncodeChar_tail character
  rw [same] at continues encodes ⊢
  have several : 0 < follow.length := by
    have length := congrArg List.length encodes
    rw [List.length_cons, List.length_append] at length
    have front := List.length_pos_iff.mpr some
    have back := List.length_pos_iff.mpr left
    omega
  intro byte member
  rcases List.mem_cons.mp member with rfl | later
  · exact isLead.not_ascii several
  · exact (continues byte later).1

/-- A place in the encoding of characters is between two of them or inside one, by induction over
them.
-/
theorem split_cases {characters : List Char} {front back : Bytes}
    (whole : characters.flatMap String.utf8EncodeChar = front ++ back)
    : (∃ count,
        front = (characters.take count).flatMap String.utf8EncodeChar
        ∧ back = (characters.drop count).flatMap String.utf8EncodeChar)
      ∨ ∃ count character inside rest,
        characters[count]? = some character
        ∧ String.utf8EncodeChar character = inside ++ rest
        ∧ inside ≠ []
        ∧ rest ≠ []
        ∧ front = (characters.take count).flatMap String.utf8EncodeChar ++ inside
        ∧ back = rest ++ (characters.drop (count + 1)).flatMap String.utf8EncodeChar := by
  induction characters generalizing front with
  | nil =>
      obtain ⟨rfl, rfl⟩ := List.append_eq_nil_iff.mp whole.symm
      exact .inl ⟨0, rfl, rfl⟩
  | cons character later ih =>
      rw [List.flatMap_cons] at whole
      rcases List.append_eq_append_iff.mp whole with ⟨more, rfl, remains⟩ | ⟨rest, encodes, rfl⟩
      · rcases ih remains with ⟨count, rfl, rfl⟩ | ⟨count, split, inside, rest, found, parts⟩
        · exact .inl ⟨count + 1, rfl, rfl⟩
        · obtain ⟨encodes, some, left, rfl, rfl⟩ := parts
          refine .inr ⟨count + 1, split, inside, rest, found, encodes, some, left, ?_, rfl⟩
          rw [List.take_succ_cons, List.flatMap_cons, List.append_assoc]
      · by_cases none : front = []
        · subst none
          rw [List.nil_append] at encodes
          exact .inl ⟨0, rfl, by rw [← encodes]; rfl⟩
        · by_cases all : rest = []
          · subst all
            rw [List.append_nil] at encodes
            refine .inl ⟨1, ?_, rfl⟩
            rw [List.take_succ_cons, List.take_zero, List.flatMap_cons, List.flatMap_nil,
              List.append_nil, encodes]
          · exact .inr ⟨0, character, front, rest, rfl, encodes, none, all, rfl, rfl⟩

theorem WellFormed.nil : WellFormed [] := ⟨[], rfl⟩

theorem WellFormed.append {left right : Bytes} (h : WellFormed left) (h' : WellFormed right)
    : WellFormed (left ++ right) := by
  obtain ⟨first, rfl⟩ := h
  obtain ⟨second, rfl⟩ := h'
  exact ⟨first ++ second, List.flatMap_append.symm⟩

theorem wellFormed_utf8 (text : String) : WellFormed (utf8 text) := ⟨text.toList, rfl⟩

/-- A text of ASCII characters. -/
theorem wellFormed_ascii {text : Bytes} (ascii : ∀ byte ∈ text, byte.toNat < 0x80)
    : WellFormed text := by
  induction text with
  | nil => exact .nil
  | cons byte rest ih =>
      obtain ⟨characters, encodes⟩ :=
        ih (fun other member => ascii other (List.mem_cons_of_mem _ member))
      have small := ascii byte List.mem_cons_self
      have value : byte.toUInt32.toNat = byte.toNat := UInt8.toNat_toUInt32 byte
      have valid : byte.toUInt32.isValidChar := Or.inl (by rw [value]; omega)
      have own : String.utf8EncodeChar ⟨byte.toUInt32, valid⟩ = [byte] := by
        rw [String.utf8EncodeChar]
        dsimp only
        rw [value, if_pos (by omega), UInt8.ofNat_toNat]
      refine ⟨⟨byte.toUInt32, valid⟩ :: characters, ?_⟩
      rw [List.flatMap_cons, own, ← encodes]
      rfl

/-- Both parts of a well-formed text are well formed if one of them has an ASCII byte where they
meet.
-/
theorem WellFormed.parts {front back : Bytes} (h : WellFormed (front ++ back))
    (ascii : (∀ byte ∈ front.getLast?, byte.toNat < 0x80) ∨ ∀ byte ∈ back.head?, byte.toNat < 0x80)
    : WellFormed front ∧ WellFormed back := by
  obtain ⟨characters, whole⟩ := h
  rcases split_cases whole.symm with ⟨count, rfl, rfl⟩ | ⟨count, character, inside, rest, parts⟩
  · exact ⟨⟨_, rfl⟩, ⟨_, rfl⟩⟩
  · obtain ⟨_, encodes, some, left, rfl, rfl⟩ := parts
    have high := utf8EncodeChar_no_ascii encodes some left
    rw [encodes] at high
    rcases ascii with last | first
    · have member : inside.getLast some ∈ inside ++ rest :=
        List.mem_append_left _ (List.getLast_mem some)
      have low := last (inside.getLast some)
        (by rw [List.getLast?_append_of_ne_nil _ some]; exact List.getLast?_eq_some_getLast some)
      exact absurd low (Nat.not_lt.mpr (high _ member))
    · obtain ⟨byte, later, rfl⟩ := List.exists_cons_of_ne_nil left
      have low := first byte rfl
      exact absurd low (Nat.not_lt.mpr (high byte (List.mem_append_right _ List.mem_cons_self)))

end SafetyIsolation.Text

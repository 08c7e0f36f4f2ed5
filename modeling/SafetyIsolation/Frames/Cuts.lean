import SafetyIsolation.Frames.Events
import SafetyIsolation.Frames.Widths

/-! Event messages are cut to a number of bytes and padded to a number of characters. A character
that the first cut leaves incomplete takes the spaces of the padding for the rest of itself.
-/

namespace SafetyIsolation.Frames

open SafetyIsolation.Text SafetyIsolation.Monitor

/-- Truncation counts as `visual_len` does, whatever the bytes are. -/
theorem visualLenFrom_truncateFrom (left passing : Nat) (text : Bytes)
    : visualLenFrom passing (truncateFrom left passing text)
      = min left (visualLenFrom passing text) := by
  induction text generalizing left passing with
  | nil => cases left <;> cases passing <;> rfl
  | cons byte rest ih =>
      cases passing with
      | succ passing => exact ih left passing
      | zero =>
          cases left with
          | zero => rw [truncateFrom, visualLenFrom, Nat.zero_min]
          | succ left =>
              rw [truncateFrom, visualLenFrom, visualLenFrom, ih left (charLength byte - 1)]
              omega

theorem visualLen_padLine_of_le {text : Bytes} {width : Nat} (full : width ≤ visualLen text)
    : visualLen (padLine text width) = width := by
  rw [padLine, if_pos full, visualLen, visualLenFrom_truncateFrom]
  exact Nat.min_eq_left full

theorem visualLenFrom_spaces (passing count : Nat)
    : visualLenFrom passing (List.replicate count 32) = count - passing := by
  induction count generalizing passing with
  | zero => rw [List.replicate_zero, Nat.zero_sub]; rfl
  | succ count ih =>
      cases passing with
      | zero =>
          have one : charLength 32 = 1 := by decide
          rw [List.replicate_succ, visualLenFrom, one, ih]
          rfl
      | succ passing =>
          rw [List.replicate_succ, visualLenFrom, ih]
          omega

/-- Characters, the front of one more, and spaces: the spaces that complete the last character do
not count.
-/
theorem visualLen_incomplete {character : Char} {inside rest : Bytes}
    (encodes : String.utf8EncodeChar character = inside ++ rest) (some : inside ≠ [])
    (characters : List Char) (count : Nat)
    : visualLen (encode characters ++ inside ++ List.replicate count 32)
      = characters.length + 1 + (count - rest.length) := by
  obtain ⟨lead, follow, same, isLead⟩ := utf8EncodeChar_lead character
  obtain ⟨first, later, rfl⟩ := List.exists_cons_of_ne_nil some
  rw [same, List.cons_append] at encodes
  obtain ⟨rfl, rfl⟩ := List.cons.inj encodes
  rw [List.append_assoc, visualLen_encode_append, List.cons_append, visualLen, visualLenFrom,
    charLength_of_lead isLead, List.length_append, Nat.add_sub_cancel, visualLenFrom_pass,
    visualLenFrom_spaces]
  omega

theorem isBlank_ascii {byte : UInt8} (blank : isBlank byte = true) : byte.toNat < 0x80 := by
  simp only [isBlank, Bool.or_eq_true, decide_eq_true_eq] at blank
  rcases blank with ((rfl | rfl) | rfl) | rfl <;> decide

/-- Blanks are cut off between characters. -/
theorem wellFormed_trim {line : Bytes} (h : WellFormed line) : WellFormed (trim line) := by
  have front : WellFormed (line.dropWhile isBlank) := by
    rw [← List.takeWhile_append_dropWhile (p := isBlank) (l := line)] at h
    refine (h.parts (.inl (fun byte last => ?_))).2
    exact isBlank_ascii (List.mem_takeWhile_imp (List.mem_of_getLast? last))
  have back : line.dropWhile isBlank
      = (line.dropWhile isBlank).rdropWhile isBlank ++ (line.dropWhile isBlank).rtakeWhile isBlank :=
    (List.rdropWhile_append_rtakeWhile ..).symm
  rw [back] at front
  refine (front.parts (.inr (fun byte first => ?_))).1
  exact isBlank_ascii (List.mem_rtakeWhile_imp (List.mem_of_head? first))

theorem wellFormed_compactTraceMessage {line : Bytes} (h : WellFormed line)
    : WellFormed (compactTraceMessage line) := by
  rw [compactTraceMessage]
  cases found : kDemoEventPrefixes.findSome? (fromFirst · line) with
  | none => exact h
  | some rest =>
      obtain ⟨needle, member, here⟩ := List.exists_of_findSome?_eq_some found
      obtain ⟨tail, ⟨front, rfl, _⟩, rfl⟩ := fromFirst_eq_some_iff.mp here
      refine (h.parts (.inr (fun byte first => ?_))).2
      have ascii : ∀ needle ∈ kDemoEventPrefixes,
          needle.head?.any (fun byte => byte.toNat < 0x80) = true := by decide
      have low := ascii needle member
      cases needle with
      | nil => cases low
      | cons byte later =>
          cases first
          exact of_decide_eq_true low

/-- So many characters fit before the limit, and the next one reaches beyond it. -/
structure Straddles (characters : List Char) (count : Nat) : Prop where
  before : (encode (characters.take count)).length < kTraceMessageLimit
  beyond : kTraceMessageLimit < (encode (characters.take (count + 1))).length

theorem length_encode_take_le (characters : List Char) (count : Nat)
    : (encode (characters.take count)).length ≤ (encode characters).length := by
  have whole : encode characters
      = encode (characters.take count) ++ encode (characters.drop count) := by
    rw [encode, encode, encode, ← List.flatMap_append, List.take_append_drop]
  rw [whole, List.length_append]
  omega

theorem length_encode_take_mono (characters : List Char) {count more : Nat} (h : count ≤ more)
    : (encode (characters.take count)).length ≤ (encode (characters.take more)).length := by
  have shorter := length_encode_take_le (characters.take more) count
  rwa [List.take_take, Nat.min_eq_left h] at shorter

/-- Only one character can straddle the limit. -/
theorem Straddles.unique {characters : List Char} {count count' : Nat}
    (h : Straddles characters count) (h' : Straddles characters count')
    : count = count' := by
  by_contra different
  rcases Nat.lt_or_gt_of_ne different with less | more
  · have inside : count + 1 ≤ count' := less
    exact absurd (Nat.lt_of_lt_of_le h.beyond (length_encode_take_mono characters inside))
      (Nat.lt_asymm h'.before)
  · have inside : count' + 1 ≤ count := more
    exact absurd (Nat.lt_of_lt_of_le h'.beyond (length_encode_take_mono characters inside))
      (Nat.lt_asymm h.before)

/-- None does if the limit falls between two. -/
theorem not_straddles {characters : List Char} {count : Nat}
    (between : (encode characters).take kTraceMessageLimit = encode (characters.take count))
    (count' : Nat)
    : ¬ Straddles characters count' := by
  intro straddles
  have length := congrArg List.length between
  rw [List.length_take] at length
  have before := straddles.before
  have beyond := straddles.beyond
  rcases Nat.lt_or_ge count' count with less | more
  · have inside : count' + 1 ≤ count := less
    have shorter := length_encode_take_mono characters inside
    omega
  · have longer := length_encode_take_mono characters more
    have all := length_encode_take_le characters (count' + 1)
    omega

theorem not_straddles_of_short {characters : List Char}
    (short : (encode characters).length ≤ kTraceMessageLimit) (count : Nat)
    : ¬ Straddles characters count :=
  fun straddles => absurd (length_encode_take_le characters (count + 1))
    (Nat.not_le.mpr (Nat.lt_of_le_of_lt short straddles.beyond))

/-- What the renderer writes before the message of a trace event. -/
def traceHeader : List Char := " [live] trace: ".toList

/-- The cell of a message that is cut to the limit has its width unless a character straddles the
limit and there is room for padding behind it.
-/
theorem visualLen_cell_iff (characters : List Char) (width : Nat)
    : visualLen (padLine (encode traceHeader ++ (encode characters).take kTraceMessageLimit) width)
        = width
      ↔ ∀ count, Straddles characters count → width ≤ 16 + count := by
  have whole := (List.take_append_drop kTraceMessageLimit (encode characters)).symm
  rcases split_cases whole with ⟨count, between, _⟩ | ⟨count, character, inside, rest, parts⟩
  · refine ⟨fun _ count' straddles => absurd straddles (not_straddles between count'), fun _ => ?_⟩
    exact (visualLen_padLine (.append ⟨_, rfl⟩ ⟨_, between⟩) width).2
  · obtain ⟨found, encodes, some, left, front, back⟩ := parts
    have front : (encode characters).take kTraceMessageLimit
        = encode (characters.take count) ++ inside := front
    have within : count < characters.length := (List.getElem?_eq_some_iff.mp found).1
    have next : encode (characters.take (count + 1))
        = encode (characters.take count) ++ (inside ++ rest) := by
      rw [List.take_add_one, found, encode, List.flatMap_append, Option.toList_some,
        List.flatMap_singleton, encodes]
    have straddles : Straddles characters count := by
      have length := congrArg List.length front
      have more := congrArg List.length back
      have positive := List.length_pos_iff.mpr some
      have positive' := List.length_pos_iff.mpr left
      rw [List.length_take, List.length_append] at length
      rw [List.length_drop, List.length_append] at more
      refine ⟨?_, ?_⟩
      · omega
      · rw [next, List.length_append, List.length_append]
        omega
    have text : encode traceHeader ++ (encode characters).take kTraceMessageLimit
        = encode (traceHeader ++ characters.take count) ++ inside := by
      rw [front, ← List.append_assoc, ← List.flatMap_append]
    have length : (traceHeader ++ characters.take count).length + 1 = 16 + count := by
      rw [List.length_append, List.length_take, Nat.min_eq_left (Nat.le_of_lt within)]
      have header : traceHeader.length = 15 := by decide
      omega
    have unpadded := visualLen_incomplete encodes some (traceHeader ++ characters.take count) 0
    rw [List.replicate_zero, List.append_nil, Nat.zero_sub, Nat.add_zero, length] at unpadded
    constructor
    · intro aligned count' straddles'
      rw [← straddles.unique straddles']
      by_contra room
      have padded := visualLen_incomplete encodes some (traceHeader ++ characters.take count)
        (width - (16 + count))
      rw [text, padLine, unpadded, if_neg room, padded, length] at aligned
      have positive := List.length_pos_iff.mpr left
      omega
    · intro narrow
      refine visualLen_padLine_of_le ?_
      rw [text, unpadded]
      exact narrow count straddles

/-- The text of a trace event. -/
theorem eventText_of_traceEvent {line : Bytes} {event : EventEntry}
    (isEvent : traceEvent line = some event)
    : eventText event
      = encode traceHeader ++ (compactTraceMessage (trim line)).take kTraceMessageLimit := by
  have header : utf8 " [" ++ utf8 "live" ++ utf8 "] " ++ utf8 "trace" ++ utf8 ": "
      = encode traceHeader := by decide
  rw [traceEvent] at isEvent
  split at isEvent
  · cases isEvent
  · cases isEvent
    rw [eventText, ← header]
    rfl

theorem wellFormed_monitorEvent {message : Bytes} (h : WellFormed message) (isWarning : Bool)
    : WellFormed (eventText (monitorEvent message isWarning)) := by
  have fixed (text : String) : WellFormed (utf8 text) := wellFormed_utf8 text
  exact (((((fixed " [").append (fixed "live")).append (fixed "] ")).append
    (fixed "monitor")).append (fixed ": ")).append h

/-- However a stream of well-formed lines is read, the cells of its events have the width of the
panel exactly if, in every line, a character that straddles the limit of the message is not
followed by padding.
-/
theorem streamed_cells_aligned_iff {path : Bytes} (pathWellFormed : WellFormed path)
    {reads : List (Option Chunk)}
    (wellFormed : ∀ line ∈ terminatedLines (delivered reads), WellFormed line)
    (size : TerminalSize)
    : (∀ event ∈ (eventStreamer (.ok path) (reads.map readResult)).1,
        visualLen (padLine (eventText event) size.rightW) = size.rightW)
      ↔ ∀ line ∈ terminatedLines (delivered reads), ∀ characters count,
        compactTraceMessage (trim line) = encode characters
        → Straddles characters count → size.rightW ≤ 16 + count := by
  rw [eventStreamer_eq]
  constructor
  · intro aligned line member characters count message straddles
    cases isEvent : traceEvent line with
    | none =>
        -- Nothing is left of the line, so nothing is cut.
        have empty : compactTraceMessage (trim line) = [] := by
          rw [traceEvent] at isEvent
          split at isEvent
          · rename_i blank
            rw [blank]
            decide
          · cases isEvent
        exact absurd straddles (not_straddles_of_short (message ▸ empty ▸ Nat.zero_le _) count)
    | some event =>
        have cell := aligned event (List.mem_cons_of_mem _ (List.mem_filterMap.mpr
          ⟨line, member, isEvent⟩))
        rw [eventText_of_traceEvent isEvent, message, visualLen_cell_iff] at cell
        exact cell count straddles
  · intro narrow event member
    rcases List.mem_cons.mp member with rfl | streamed
    · have connected := (wellFormed_utf8 "connected to ").append pathWellFormed
      exact (visualLen_padLine (wellFormed_monitorEvent connected false) size.rightW).2
    · obtain ⟨line, isLine, isEvent⟩ := List.mem_filterMap.mp streamed
      obtain ⟨characters, message⟩ :=
        wellFormed_compactTraceMessage (wellFormed_trim (wellFormed line isLine))
      rw [eventText_of_traceEvent isEvent, message]
      exact (visualLen_cell_iff characters size.rightW).mpr
        (fun count => narrow line isLine characters count message)

/-- A short line, read in two parts. -/
def shortReads : List (Option Chunk) :=
  [some ⟨utf8 " rogue_thread: hé", by decide, by decide⟩, none,
    some ⟨utf8 "llo\n", by decide, by decide⟩]

theorem streamed_cells_aligned_short
    : terminatedLines (delivered shortReads) = [utf8 " rogue_thread: héllo"]
      ∧ ∀ event ∈ (eventStreamer (.ok (utf8 "trace_pipe")) (shortReads.map readResult)).1,
        visualLen (padLine (eventText event) 47) = 47 := by
  have line : terminatedLines (delivered shortReads) = [utf8 " rogue_thread: héllo"] := by decide
  refine ⟨line, (streamed_cells_aligned_iff (wellFormed_utf8 _) ?_ ⟨80, 24⟩).mpr ?_⟩
  · rw [line]
    intro found member
    rw [List.mem_singleton.mp member]
    exact wellFormed_utf8 _
  · rw [line]
    intro found member characters count message straddles
    rw [List.mem_singleton.mp member] at message
    refine absurd straddles (not_straddles_of_short ?_ count)
    rw [← message]
    decide

/-- An ASCII character and fifteen of four bytes each: the last one is cut after three bytes. -/
def lockedLine : Bytes := utf8 "a🔒🔒🔒🔒🔒🔒🔒🔒🔒🔒🔒🔒🔒🔒🔒"

def lockedReads : List (Option Chunk) := [some ⟨lockedLine ++ [newline], by decide, by decide⟩]

/-- On a terminal of 80 columns the cell is one column short. -/
theorem streamed_cell_misaligned
    : terminatedLines (delivered lockedReads) = [lockedLine]
      ∧ WellFormed lockedLine
      ∧ TerminalSize.rightW ⟨80, 24⟩ = 47
      ∧ ∃ event ∈ (eventStreamer (.ok (utf8 "trace_pipe")) (lockedReads.map readResult)).1,
        visualLen (padLine (eventText event) 47) = 46 := by
  have line : terminatedLines (delivered lockedReads) = [lockedLine] := by decide
  refine ⟨line, wellFormed_utf8 _, by decide, ?_⟩
  rw [eventStreamer_eq, line]
  exact ⟨_, List.mem_cons_of_mem _ List.mem_cons_self, by decide⟩

end SafetyIsolation.Frames

import Mathlib.Data.List.Destutter
import SafetyIsolation.Devmem.Conduct
import SafetyIsolation.Devmem.Numbers

/-! What users of `devmem` may rely on: it leaves nothing behind, a word is written once or not at
all, a value that was read can be put back, and the text of a watch tells what was seen.
-/

namespace SafetyIsolation.Devmem

open SafetyIsolation.Interleaving SafetyIsolation.Memory SafetyIsolation.Text

variable {rely : Contents → Contents → Prop} [IsPreorder Contents rely] {turns : Nat}
  {progName : Bytes} {args : List Bytes} {s s' : Computer} {physAddr : UInt64}

/-- The program completes, and without leaving anything behind, exactly if the word it is asked
for may be accessed at its address.
-/
theorem main_tidy_iff
    : Always rely (main turns progName args) (Tidy s) s
      ↔ ∀ physAddr, target args = some physAddr → s.Allows physAddr :=
  ⟨fun completes _ asked => target_allowed completes asked,
    fun allows => (main_conduct allows).imp (fun _ _ conduct => conduct.tidy)⟩

/-- A computer on which words must be aligned. -/
def sampleComputer : Computer := { memory := fun index => index.toUInt8, unaligned := false }

theorem sampleComputer_allows : sampleComputer.Allows 0x40001000 := .inr (by decide)

theorem parse_sampleAddress : parseAddress (utf8 "0x40001000") = .ok 0x40001000 := by decide

/-- A watch that nobody disturbs. -/
theorem main_tidy_iff_watch
    : Always (· = ·) (main 3 (utf8 "devmem") [utf8 "watch", utf8 "0x40001000"])
        (Tidy sampleComputer) sampleComputer := by
  refine main_tidy_iff.mpr (fun physAddr asked => ?_)
  rw [target_watch parse_sampleAddress] at asked
  cases asked
  exact sampleComputer_allows

theorem Computer.stores_of_deeds {more : List Deed} (did : s'.deeds = s.deeds ++ more)
    : s'.stores = s.stores ++ more.filterMap Deed.store? := by
  rw [Computer.stores, did, List.filterMap_append, ← Computer.stores]

/-- A deed that stores nothing, and what follows it. -/
theorem Computer.stores_of_idle {more : List Deed} (did : s'.deeds = s.deeds ++ more)
    (idle : ∀ deed ∈ more, deed.store? = none)
    : s'.stores = s.stores := by
  rw [stores_of_deeds did, List.filterMap_eq_nil_iff.mpr idle, List.append_nil]

theorem WatchOptions.rounds_idle (options : WatchOptions) (samples : List UInt32)
    : ∀ deed ∈ options.rounds samples, deed.store? = none := by
  intro deed member
  obtain ⟨sample, _, isDeed⟩ := List.mem_flatMap.mp member
  simp only [List.mem_cons, List.not_mem_nil, or_false] at isDeed
  rcases isDeed with rfl | rfl <;> rfl

theorem main_stores (allows : ∀ physAddr, target args = some physAddr → s.Allows physAddr)
    : Always rely (main turns progName args) (fun exit s' =>
        (s'.stores = s.stores ∧ rely s.memory s'.memory
          ∧ ¬ (exit = some kExitSuccess ∧ args.head? = some (utf8 "write")))
        ∨ ∃ address value rest physAddr val contents,
          args = utf8 "write" :: address :: value :: rest
          ∧ parseAddress address = .ok physAddr
          ∧ parseValue32 value = .ok val
          ∧ exit = some kExitSuccess
          ∧ s'.stores = s.stores ++ [(physAddr.toNat, val)]
          ∧ rely s.memory contents
          ∧ rely (setWord contents physAddr.toNat val) s'.memory) s := by
  refine (main_conduct allows).imp (fun exit s' conduct => ?_)
  cases conduct with
  | talked output errors unasked isCode kept =>
      obtain ⟨drift⟩ := kept
      refine .inl ⟨rfl, drift.relied, ?_⟩
      rintro ⟨isExit, isWrite⟩
      rcases isCode with failure | ⟨_, other⟩
      · rw [failure] at isExit
        cases isExit
      · exact other isWrite
  | refused errno errors handlers kept =>
      have unstored := Computer.stores_of_idle kept.deeds (List.forall_mem_singleton.mpr rfl)
      obtain ⟨drift⟩ := kept
      refine .inl ⟨unstored, drift.relied, ?_⟩
      rintro ⟨isExit, _⟩
      cases isExit
  | read asked parsed relied kept =>
      have unstored := Computer.stores_of_idle kept.deeds
        (List.forall_mem_cons.mpr ⟨rfl, List.forall_mem_singleton.mpr rfl⟩)
      obtain ⟨drift⟩ := kept
      refine .inl ⟨unstored, trans_of rely relied drift.relied, ?_⟩
      rintro ⟨_, isWrite⟩
      rw [asked] at isWrite
      exact absurd (Option.some.inj isWrite) (by decide)
  | @wrote _ _ _ physAddr val held _ _ asked parsed parsedValue relied kept =>
      have stored : s'.stores
          = s.stores ++ [Deed.granted held, .stored physAddr.toNat val].filterMap Deed.store? :=
        Computer.stores_of_deeds kept.deeds
      obtain ⟨drift⟩ := kept
      exact .inr ⟨_, _, _, _, _, _, asked, parsed, parsedValue, rfl, stored, relied, drift.relied⟩
  | watched ended asked parsed positive session =>
      obtain ⟨held, first, snapshots, isMode, covers, order, kept, facts⟩ := session
      have unstored := Computer.stores_of_idle kept.deeds
        (List.forall_mem_cons.mpr ⟨rfl, List.forall_mem_cons.mpr ⟨rfl,
          WatchOptions.rounds_idle _ _⟩⟩)
      obtain ⟨drift⟩ := kept
      refine .inl ⟨unstored, drift.relied, ?_⟩
      rintro ⟨_, isWrite⟩
      rw [asked] at isWrite
      exact absurd (Option.some.inj isWrite) (by decide)

theorem word_toNat (contents : Contents) (address : Nat)
    : (word contents address).toNat = load contents 4 address := by
  have fits : load contents 4 address < 256 ^ 4 := load_lt
  exact (UInt32.toNat_ofNat').trans (Nat.mod_eq_of_lt fits)

theorem word_setWord (contents : Contents) (address : Nat) (value : UInt32)
    : word (setWord contents address value) address = value := by
  have fits : value.toNat < 256 ^ 4 := value.toNat_lt
  refine UInt32.toNat_inj.mp ?_
  rw [word_toNat, setWord, load_store fits]

/-- Either nothing is stored, or the one word that `write` was asked to write: the word is then what
it should be, and no other byte has changed.
-/
theorem main_writes_once (allows : ∀ physAddr, target args = some physAddr → s.Allows physAddr)
    : Always rely (main turns progName args) (fun exit s' =>
        (s'.stores = s.stores ∧ rely s.memory s'.memory
          ∧ ¬ (exit = some kExitSuccess ∧ args.head? = some (utf8 "write")))
        ∨ ∃ address value rest physAddr val before after,
          args = utf8 "write" :: address :: value :: rest
          ∧ parseAddress address = .ok physAddr
          ∧ parseValue32 value = .ok val
          ∧ exit = some kExitSuccess
          ∧ s'.stores = s.stores ++ [(physAddr.toNat, val)]
          ∧ rely s.memory before
          ∧ rely after s'.memory
          ∧ word after physAddr.toNat = val
          ∧ ∀ index, index < physAddr.toNat ∨ physAddr.toNat + 4 ≤ index
            → after index = before index) s := by
  refine (main_stores allows).imp ?_
  rintro exit s' (nothing | ⟨_, _, _, physAddr, val, before, asked, parsed, parsedValue, isExit,
    stored, relied, later⟩)
  · exact .inl nothing
  · exact .inr ⟨_, _, _, physAddr, val, before, _, asked, parsed, parsedValue, isExit, stored,
      relied, later, word_setWord before physAddr.toNat val,
      fun _ outside => store_elsewhere outside⟩

theorem main_writes_once_sentinel
    : Always (· = ·) (main 0 (utf8 "devmem")
          [utf8 "write", utf8 "0x40001000", utf8 "0xDEADDEAD"]) (fun exit s' =>
        exit = some kExitSuccess → s'.stores = [(0x40001000, 0xDEADDEAD)]) sampleComputer := by
  have parsedValue : parseValue32 (utf8 "0xDEADDEAD") = .ok 0xDEADDEAD := by decide
  have asked : target [utf8 "write", utf8 "0x40001000", utf8 "0xDEADDEAD"] = some 0x40001000 :=
    target_write parse_sampleAddress parsedValue
  refine (main_writes_once (fun physAddr found => ?_)).imp ?_
  · rw [asked] at found
    cases found
    exact sampleComputer_allows
  · rintro exit s' (⟨_, _, unwritten⟩ | ⟨_, _, _, _, _, _, _, same, parsed, parsed', _, stored, _⟩)
      success
    · exact absurd ⟨success, rfl⟩ unwritten
    · obtain ⟨isAddress, same⟩ := List.cons.inj (List.cons.inj same).2
      rw [← isAddress, parse_sampleAddress] at parsed
      rw [← (List.cons.inj same).1, parsedValue] at parsed'
      cases parsed
      cases parsed'
      exact stored

-----------------------------------------------------------------------------------------
-- Reading and putting back
-----------------------------------------------------------------------------------------

theorem upperHex_fits (width value : Nat) : value < 16 ^ max width (hexWidth value) :=
  Nat.lt_of_lt_of_le (Nat.lt_pow_succ_log_self (by decide) value)
    (Nat.pow_le_pow_right (by decide) (Nat.le_max_right _ _))

theorem upperHex_number (width value : Nat) : hexNumber (upperHex width value) = value :=
  hexNumber_hexFixed (.inl rfl) (upperHex_fits width value)

theorem upperHex_digits (width value : Nat) : Digits 16 (upperHex width value) := by
  have subset : upperHex width value ⊆ (List.range 16).map (hexDigit upperA) :=
    hexFixed_subset (fun digit small => List.mem_map.mpr ⟨digit, List.mem_range.mpr small, rfl⟩) _ _
  intro byte member
  obtain ⟨digit, small, rfl⟩ := List.mem_map.mp (subset member)
  have small : digit < 16 := List.mem_range.mp small
  rw [isDigitOf, hexValue_hexDigit (.inl rfl) small, Option.any_some]
  exact decide_eq_true small

theorem upperHex_ne_nil (width value : Nat) : upperHex width value ≠ [] := by
  intro empty
  have length := hexFixed_length upperA (max width (hexWidth value)) value
  rw [show hexFixed upperA (max width (hexWidth value)) value = [] from empty, List.length_nil,
    hexWidth] at length
  omega

/-- What `read` prints is a literal of the value. -/
theorem parseValue32_upperHex (width : Nat) (value : UInt32)
    : parseValue32 (utf8 "0x" ++ upperHex width value.toNat) = .ok value := by
  have literal : Literal (utf8 "0x" ++ upperHex width value.toNat) value.toNat := by
    have read := Literal.hexadecimal (.inl rfl) (upperHex_ne_nil width value.toNat)
      (upperHex_digits width value.toNat)
    rwa [← magnitude_eq, show magnitude 16 (upperHex width value.toNat) = value.toNat
      from upperHex_number width value.toNat] at read
  have noNul : 0 ∉ utf8 "0x" ++ upperHex width value.toNat := by
    intro member
    rcases List.mem_append.mp member with first | later
    · exact absurd first (by decide)
    · exact absurd (upperHex_digits width value.toNat 0 later) (by decide)
  rw [parseValue32, parseNumber_literal (List.append_ne_nil_of_left_ne_nil (by decide) _) noNul
    literal]
  exact congrArg Except.ok (UInt32.toNat_inj.mp
    (converted_toUInt32_toNat.mpr value.toNat_lt))

/-- Putting back a word changes its four bytes to what they were. -/
theorem setWord_word (contents before : Contents) (address index : Nat)
    : setWord before address (word contents address) index
      = if address ≤ index ∧ index < address + 4 then contents index else before index := by
  rw [setWord, word_toNat]
  split
  · rename_i inside
    exact (store_inside inside.1 inside.2).trans (congrFun store_load index)
  · rename_i outside
    exact store_elsewhere (by omega)

/-- What `read` has printed is a literal of the word it has loaded, which can be given to `write` at
any later time: the four bytes are again what they were when they were read, and the write
changes no others.
-/
theorem read_write_restores (turns' : Nat) (progName' : Bytes) {address : Bytes}
    (parsed : parseAddress address = .ok physAddr) (allows : s.Allows physAddr)
    : Always rely (main turns progName [utf8 "read", address]) (fun exit s' =>
        exit = some kExitSuccess → ∃ held contents text,
          rely s.memory contents
          ∧ rely contents s'.memory
          ∧ s'.deeds = s.deeds
            ++ [.granted held, .loaded physAddr.toNat (word contents physAddr.toNat)]
          ∧ 10 ∉ text
          ∧ s'.output = s.output ++ (text ++ utf8 "\n")
          ∧ parseValue32 text = .ok (word contents physAddr.toNat)
          ∧ ∀ t : Computer, t.Allows physAddr
            → Always rely (main turns' progName' [utf8 "write", address, text]) (fun exit' t' =>
                exit' = some kExitSuccess → ∃ before after,
                  rely t.memory before
                  ∧ rely after t'.memory
                  ∧ ∀ index, after index
                    = if physAddr.toNat ≤ index ∧ index < physAddr.toNat + 4 then contents index
                      else before index) t) s := by
  have only {first : Bytes} {rest : List Bytes} {found : UInt64}
      (asked : target (first :: address :: rest) = some found)
      : found = physAddr := by
    rw [target] at asked
    split at asked
    · rw [toOption_of_ok parsed] at asked
      exact (Option.some.inj asked).symm
    · cases asked
  refine (main_conduct (fun found asked => only asked ▸ allows)).imp ?_
  intro exit s' conduct success
  cases conduct with
  | talked output errors unasked isCode kept =>
      rw [target_read parsed] at unasked
      cases unasked
  | refused errno errors handlers kept => cases success
  | wrote asked parsed' parsedValue relied kept =>
      exact absurd (List.cons.inj asked).1 (by decide)
  | watched ended asked parsed' positive session =>
      exact absurd (List.cons.inj asked).1 (by decide)
  | @read _ _ found held contents _ asked parsed' relied kept =>
      obtain rfl : found = physAddr := by
        rw [← (List.cons.inj (List.cons.inj asked).2).1, parsed] at parsed'
        exact (Except.ok.inj parsed').symm
      obtain ⟨drift⟩ := kept
      refine ⟨held, contents, utf8 "0x" ++ upperHex 8 (word contents found.toNat).toNat, relied,
        drift.relied, rfl, ?_, rfl, parseValue32_upperHex _ _, ?_⟩
      · intro newline
        rcases List.mem_append.mp newline with first | later
        · exact absurd first (by decide)
        · exact absurd (upperHex_digits _ _ 10 later) (by decide)
      · intro t allows'
        refine (main_stores (fun other asked' => only asked' ▸ allows')).imp ?_
        rintro exit' t' (⟨_, _, unwritten⟩
          | ⟨_, _, _, _, val, before, asked', parsed'', parsedValue, _, _, relied', later⟩) success'
        · exact absurd ⟨success', rfl⟩ unwritten
        · obtain ⟨isAddress, asked'⟩ := List.cons.inj (List.cons.inj asked').2
          have isValue := (List.cons.inj asked').1
          rw [← isAddress, parsed] at parsed''
          rw [← isValue, parseValue32_upperHex] at parsedValue
          cases parsed''
          cases parsedValue
          exact ⟨before, _, relied', later, setWord_word contents before found.toNat⟩

theorem read_write_restores_word
    : Always (· = ·) (main 0 (utf8 "devmem") [utf8 "read", utf8 "0x40001000"]) (fun exit s' =>
        exit = some kExitSuccess → ∃ text,
          s'.output = text ++ utf8 "\n"
          ∧ ∀ memory : Contents, Always (· = ·) (main 0 (utf8 "devmem")
                [utf8 "write", utf8 "0x40001000", text]) (fun exit' t' =>
              exit' = some kExitSuccess → t'.memory 0x40001003 = 3)
            { memory, unaligned := false }) sampleComputer := by
  refine (read_write_restores 0 (utf8 "devmem") parse_sampleAddress sampleComputer_allows).imp ?_
  intro exit s' restores success
  obtain ⟨held, contents, text, same, _, _, _, shown, _, putBack⟩ := restores success
  refine ⟨text, shown, fun memory => (putBack _ (.inr (by decide))).imp ?_⟩
  intro exit' t' restored success'
  obtain ⟨before, after, _, isAfter, bytes⟩ := restored success'
  rw [← isAfter, bytes, if_pos (by decide), ← same]
  rfl

-----------------------------------------------------------------------------------------
-- The text of a watch
-----------------------------------------------------------------------------------------

theorem upperHex_injective (width : Nat) : Function.Injective (upperHex width) := by
  intro a b same
  rw [← upperHex_number width a, same, upperHex_number]

theorem upperHex_inside (width value : Nat)
    : ∀ byte ∈ upperHex width value, isHex byte = true :=
  hexFixed_digits (.inl rfl) _ _

theorem upperHex_splits (width : Nat) : Splits (upperHex width) (EndsRun isHex) :=
  .of_alphabet (upperHex_inside width) (upperHex_injective width)

namespace WatchOptions

variable {options options' : WatchOptions}

/-- The sample and what follows it can be read off the line of a change. -/
theorem changed_splits {lastVal a b : UInt32} {front front' : Bytes}
    (same : options.changed lastVal a ++ front = options.changed lastVal b ++ front')
    : a = b ∧ front = front' := by
  simp only [changed, List.append_assoc, List.append_cancel_left_eq] at same
  have ends (rest : Bytes) : EndsRun isHex (utf8 "\n" ++ rest) :=
    endsRun_of_head 10 rest rfl rfl
  obtain ⟨value, rest⟩ := upperHex_splits 8 _ _ _ _ (ends front) (ends front') same
  exact ⟨UInt32.toNat_inj.mp value, List.append_cancel_left rest⟩

theorem changed_ne_nil (lastVal currentVal : UInt32) : options.changed lastVal currentVal ≠ [] :=
  List.append_ne_nil_of_right_ne_nil _ (by decide)

/-- The lines of the steps of a list. -/
def steps (options : WatchOptions) : List UInt32 → Bytes
  | lastVal :: currentVal :: rest =>
      options.changed lastVal currentVal ++ steps options (currentVal :: rest)
  | _ => []

/-- The steps tell a list whose first value is known, by induction on it. -/
theorem steps_tell {lastVal : UInt32} {values values' : List UInt32}
    (same : options.steps (lastVal :: values) = options.steps (lastVal :: values'))
    : values = values' := by
  induction values generalizing lastVal values' with
  | nil =>
      cases values' with
      | nil => rfl
      | cons value' values' =>
          exact absurd (List.append_eq_nil_iff.mp same.symm).1 (changed_ne_nil _ _)
  | cons value values ih =>
      cases values' with
      | nil => exact absurd (List.append_eq_nil_iff.mp same).1 (changed_ne_nil _ _)
      | cons value' values' =>
          obtain ⟨rfl, rest⟩ := changed_splits same
          rw [ih rest]

theorem exists_destutter' (first : UInt32) (rest : List UInt32)
    : ∃ later, rest.destutter' (· ≠ ·) first = first :: later := by
  induction rest with
  | nil => exact ⟨[], rfl⟩
  | cons value rest ih =>
      rw [List.destutter'_cons]
      split
      · exact ⟨_, rfl⟩
      · exact ih

/-- A sample that repeats the one before it is not printed, by induction on the samples. -/
theorem changes_eq_steps (lastVal : UInt32) (samples : List UInt32)
    : options.changes lastVal samples = options.steps (samples.destutter' (· ≠ ·) lastVal) := by
  induction samples generalizing lastVal with
  | nil => rfl
  | cons sample rest ih =>
      rw [changes, ih]
      by_cases repeated : lastVal = sample
      · rw [← repeated, if_neg (not_not.mpr rfl), List.nil_append,
          List.destutter'_cons_neg _ (not_not.mpr rfl)]
      · obtain ⟨later, isLater⟩ := exists_destutter' sample rest
        rw [if_pos (Ne.symm repeated), List.destutter'_cons_pos _ repeated, isLater, steps]

/-- The changes tell the samples without repetitions. -/
theorem changes_tell {lastVal : UInt32} {samples samples' : List UInt32}
    (same : options.changes lastVal samples = options.changes lastVal samples')
    : samples.destutter' (· ≠ ·) lastVal = samples'.destutter' (· ≠ ·) lastVal := by
  rw [changes_eq_steps, changes_eq_steps] at same
  obtain ⟨later, isLater⟩ := exists_destutter' lastVal samples
  obtain ⟨later', isLater'⟩ := exists_destutter' lastVal samples'
  rw [isLater, isLater'] at same
  rw [isLater, isLater', steps_tell same]

theorem changes_congr (same : options.physAddr = options'.physAddr) (lastVal : UInt32)
    (samples : List UInt32)
    : options.changes lastVal samples = options'.changes lastVal samples := by
  induction samples generalizing lastVal with
  | nil => rfl
  | cons sample rest ih => rw [changes, changes, ih, changed, changed, same]

/-- The text of a watch tells its address, its interval and what it has seen. -/
theorem session_tells {first first' : UInt32} {rest rest' : List UInt32}
    (same : options.session first rest = options'.session first' rest')
    : options.physAddr = options'.physAddr
      ∧ options.interval = options'.interval
      ∧ (first :: rest).destutter (· ≠ ·) = (first' :: rest').destutter (· ≠ ·) := by
  simp only [session, watching, init, List.append_assoc, List.append_cancel_left_eq] at same
  have hexEnds {front : Bytes} (byte : UInt8) (starts : front.head? = some byte)
      (outside : isHex byte = false) (text : Bytes)
      : EndsRun isHex (front ++ text) :=
    endsRun_of_head byte text starts outside
  obtain ⟨address, same⟩ := upperHex_splits 0 _ _ _ _ (hexEnds 32 rfl rfl _) (hexEnds 32 rfl rfl _)
    same
  have interval := Splits.of_alphabet unsignedText_inside
    unsignedText_injective _ _ _ _
    (endsRun_of_head 109 _ rfl rfl) (endsRun_of_head 109 _ rfl rfl)
    (List.append_cancel_left same)
  have same := List.append_cancel_left (List.append_cancel_left interval.2)
  obtain ⟨_, same⟩ := upperHex_splits 0 _ _ _ _ (hexEnds 58 rfl rfl _) (hexEnds 58 rfl rfl _) same
  obtain ⟨value, same⟩ := upperHex_splits 8 _ _ _ _ (hexEnds 10 rfl rfl _) (hexEnds 10 rfl rfl _)
    (List.append_cancel_left same)
  have isAddress : options.physAddr = options'.physAddr := UInt64.toNat_inj.mp address
  obtain rfl : first = first' := UInt32.toNat_inj.mp value
  have seen : options.changes first rest = options.changes first rest' := by
    rw [List.append_cancel_left same, changes_congr isAddress]
  exact ⟨isAddress, interval.1, changes_tell seen⟩

end WatchOptions

/-- A watch is refused its mapping, or it loads its word once at the start and once after each
pause, does nothing else and ends with success only after a stop was requested. Then it prints
its session, which tells its address, its interval and the loaded values without repetitions.
-/
theorem main_watches {address : Bytes} {rest : List Bytes}
    (parsed : parseAddress address = .ok physAddr) (allows : s.Allows physAddr)
    : Always rely (main turns progName (utf8 "watch" :: address :: rest)) (fun exit s' =>
        (exit = some kExitFailure
          ∧ s'.output = s.output
          ∧ ∃ errno, s'.deeds = s.deeds ++ [.refused errno])
        ∨ ∃ options : WatchOptions, ∃ held : Held, ∃ first snapshots,
          options.physAddr = physAddr
          ∧ 0 < options.interval
          ∧ held.Covers physAddr
          ∧ (s.memory :: first :: snapshots).Pairwise rely
          ∧ s'.deeds = s.deeds
            ++ .granted held
              :: .loaded physAddr.toNat (word first physAddr.toNat)
              :: (options.samples snapshots).flatMap (fun sample =>
                [.slept options.interval, .loaded physAddr.toNat sample])
          ∧ snapshots.length ≤ turns
          ∧ (exit = none → snapshots.length = turns ∧ s'.mappings = held :: s.mappings)
          ∧ (∀ code, exit = some code → code = kExitSuccess ∧ s'.stopRequested = true)
          ∧ s'.output = s.output
            ++ options.session (word first physAddr.toNat) (options.samples snapshots)
          ∧ ∀ (options' : WatchOptions) first' samples',
            options'.session first' samples'
              = options.session (word first physAddr.toNat) (options.samples snapshots)
            → options'.physAddr = physAddr
              ∧ options'.interval = options.interval
              ∧ (first' :: samples').destutter (· ≠ ·)
                = (options.samples (first :: snapshots)).destutter (· ≠ ·)) s := by
  have asked : target (utf8 "watch" :: address :: rest) = some physAddr := target_watch parsed
  refine (main_conduct (fun found asked' => ?_)).imp (fun exit s' conduct => ?_)
  · rw [asked] at asked'
    exact Option.some.inj asked' ▸ allows
  · cases conduct with
    | talked output errors unasked isCode kept =>
        rw [asked] at unasked
        cases unasked
    | refused errno errors handlers kept =>
        obtain ⟨_⟩ := kept
        exact .inl ⟨rfl, rfl, errno, rfl⟩
    | read asked' parsed' relied kept => exact absurd (List.cons.inj asked').1 (by decide)
    | wrote asked' parsed' parsedValue relied kept =>
        exact absurd (List.cons.inj asked').1 (by decide)
    | @watched _ _ found interval warning _ ended asked' parsed' positive session =>
        obtain rfl : found = physAddr := by
          rw [← (List.cons.inj (List.cons.inj asked').2).1, parsed] at parsed'
          exact (Except.ok.inj parsed').symm
        obtain ⟨held, first, snapshots, isMode, covers, order, kept, most, all, stopped⟩ := session
        obtain ⟨drift⟩ := kept
        refine .inr ⟨⟨found, interval, false⟩, held, first, snapshots, rfl, positive, covers, order,
          rfl, most, ?_, ?_, rfl, ?_⟩
        · intro none
          cases ended with
          | true => cases none
          | false => exact ⟨all rfl, rfl⟩
        · intro code isCode
          cases ended with
          | true =>
              cases isCode
              exact ⟨rfl, ((stopped rfl).resolve_right Bool.false_ne_true).2⟩
          | false => cases isCode
        · intro options' first' samples' same
          exact WatchOptions.session_tells same

/-- Two turns without a stop. -/
theorem main_watches_sentinel
    : Always (· = ·) (main 2 (utf8 "devmem") [utf8 "watch", utf8 "0x40001000", utf8 "20"])
        (fun exit s' => exit = none
          → ∃ held : Held, ∃ options : WatchOptions, ∃ samples : List UInt32,
          s'.deeds = .granted held
            :: .loaded 0x40001000 0x03020100
            :: samples.flatMap (fun sample =>
              [.slept options.interval, .loaded 0x40001000 sample])
          ∧ samples.length = 2
          ∧ s'.output = options.session 0x03020100 samples) sampleComputer := by
  refine (main_watches parse_sampleAddress sampleComputer_allows).imp ?_
  rintro exit s' (⟨failed, _⟩ | ⟨options, held, first, snapshots, _, _, _, order, did, _, all, _,
    shown, _⟩) running
  · rw [running] at failed
    cases failed
  · obtain rfl : sampleComputer.memory = first :=
      (List.pairwise_cons.mp order).1 first List.mem_cons_self
    refine ⟨held, options, options.samples snapshots, did, ?_, shown⟩
    rw [WatchOptions.samples, List.length_map]
    exact (all running).1

/-- `watch_phys` waits for a flag that nothing sets: once it is granted its mapping it never
returns, and it keeps the mapping. It returns only the error of a mapping that was refused.
-/
theorem watchPhys_never_returns (allows : s.Allows physAddr)
    : Always rely (watchPhys turns physAddr) (fun result s' =>
        (result = none ∧ ∃ held : Held, ∃ first : Contents, ∃ snapshots : List Contents,
          held.Covers physAddr
          ∧ s'.mappings = held :: s.mappings
          ∧ snapshots.length = turns
          ∧ s'.deeds = s.deeds
            ++ .granted held
              :: .loaded physAddr.toNat (word first physAddr.toNat)
              :: snapshots.flatMap (fun contents =>
                [.slept kDefaultWatchInterval,
                  .loaded physAddr.toNat (word contents physAddr.toNat)]))
        ∨ ∃ error errno,
          result = some (.error error)
          ∧ RefusalText physAddr devMem error
          ∧ s'.mappings = s.mappings
          ∧ s'.deeds = s.deeds ++ [.refused errno]) s := by
  refine Prog.always_bind.mp (?_ : Always rely
    (watchPhys32 turns { physAddr } (stopTest false) >>= pure) _ s)
  refine watchPhys32_session allows (fun error errno s' told kept => ?_) (fun s' session => ?_)
    (fun s' session => ?_)
  · obtain ⟨_⟩ := kept
    exact .inr ⟨error, errno, rfl, told, rfl, rfl⟩
  · obtain ⟨_, _, _, _, _, _, _, _, _, stopped⟩ := session
    rcases stopped rfl with ⟨listens, _⟩ | single
    · exact absurd listens Bool.false_ne_true
    · exact absurd single Bool.false_ne_true
  · obtain ⟨held, first, snapshots, _, covers, _, kept, _, all, _⟩ := session
    obtain ⟨_⟩ := kept
    refine .inl ⟨rfl, held, first, snapshots, covers, rfl, all rfl, ?_⟩
    rw [WatchOptions.rounds, WatchOptions.samples, List.flatMap_map]

theorem watchPhys_never_returns_word
    : Always (· = ·) (watchPhys 1000 0x40001000) (fun result s' =>
        (result = none
          ∧ ∃ held, s'.mappings = [held] ∧ s'.deeds.head? = some (.granted held))
        ∨ ∃ error errno, result = some (.error error) ∧ s'.deeds = [.refused errno])
        sampleComputer := by
  refine (watchPhys_never_returns sampleComputer_allows).imp ?_
  rintro result s' (⟨running, held, first, snapshots, _, mappings, _, did⟩
    | ⟨error, errno, failed, _, _, did⟩)
  · exact .inl ⟨running, held, mappings, congrArg List.head? did⟩
  · exact .inr ⟨error, errno, failed, did⟩

end SafetyIsolation.Devmem

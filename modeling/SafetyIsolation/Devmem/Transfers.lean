import SafetyIsolation.Devmem.Tool

/-! What `devmem` does to the computer, whatever the system answers and others do meanwhile: it
keeps nothing open or mapped, and it writes at most the one word it is told to.
-/

namespace SafetyIsolation.Devmem

open SafetyIsolation.Interleaving SafetyIsolation.Memory SafetyIsolation.Text

variable {rely : Contents → Contents → Prop} [IsPreorder Contents rely] {α : Type}
  {post : α → Computer → Prop} {s : Computer} {physAddr : UInt64}

-----------------------------------------------------------------------------------------
-- Mapping
-----------------------------------------------------------------------------------------

/-- The operating system as one run has met it. -/
def observedOs (sysconf : Int64) (opened mapped : Except Bytes Nat) : Os where
  sysconf := sysconf
  openDevice := fun _ _ => opened
  mmap := fun length _ _ offset =>
    match mapped with
    | .error errno => .error errno
    | .ok more =>
        if length = 0 then .error (utf8 "Invalid argument")
        else .ok ⟨offset.toNat, length.toNat + more⟩

theorem observedOs_lawful (sysconf : Int64) (opened mapped : Except Bytes Nat)
    : (observedOs sysconf opened mapped).Lawful := by
  constructor
  · intro length mode fd offset mapping isMapping
    simp only [observedOs] at isMapping
    split at isMapping
    · cases isMapping
    · split at isMapping
      · cases isMapping
      · cases isMapping
        exact ⟨rfl, Nat.le_add_right _ _⟩
  · intro mode fd offset mapping isMapping
    simp only [observedOs] at isMapping
    split at isMapping
    · cases isMapping
    · rw [if_pos trivial] at isMapping
      cases isMapping

/-- What `map` says when the system refuses to open the device or to map it. -/
inductive RefusalText (physAddr : UInt64) (devPath : Bytes) : Bytes → Prop where
  | opening (reason : Bytes)
      : RefusalText physAddr devPath (utf8 "Failed to open " ++ devPath ++ utf8 ": " ++ reason)
  | mapping (reason : Bytes)
      : RefusalText physAddr devPath (utf8 "mmap failed for phys_addr 0x"
          ++ unsignedText physAddr.toNat ++ utf8 ": " ++ reason)

/-- What is left of a mapping call: a live mapping that was granted if it has succeeded, and nothing
but a refusal otherwise.
-/
inductive MapOutcome (rely : Contents → Contents → Prop) (physAddr size : UInt64)
    (mode : MemoryAccessMode) (devPath : Bytes) (s : Computer)
    : Except Bytes PhysicalMemoryView → Computer → Prop where
  | empty {error : Bytes} {s' : Computer} (isEmpty : size = 0) (kept : Beside rely s s')
      : MapOutcome rely physAddr size mode devPath s (.error error) s'
  | refused {error errno : Bytes} {s' : Computer} (told : RefusalText physAddr devPath error)
      (kept : Beside rely { s with deeds := s.deeds ++ [.refused errno] } s')
      : MapOutcome rely physAddr size mode devPath s (.error error) s'
  | mapped {v : PhysicalMemoryView} {held : Held} {s' : Computer} (isMode : held.mode = mode)
      (holds : v.mapping = some (held.mapping, ⟨held.length⟩))
      (kept : Beside rely { s with
        mappings := held :: s.mappings, deeds := s.deeds ++ [.granted held] } s')
      : MapOutcome rely physAddr size mode devPath s (.ok v) s'

/-- The calls that `map` makes amount to the function of the system's answers. -/
theorem mapDevice_refines (physAddr size : UInt64) (mode : MemoryAccessMode) (devPath : Bytes)
    (s : Computer)
    : Always rely (PhysicalMemoryView.mapDevice physAddr size mode devPath) (fun result s' =>
        ∃ os : Os,
          os.Lawful
          ∧ (∃ exponent, os.pageSize.toNat = 2 ^ exponent)
          ∧ result = PhysicalMemoryView.map os physAddr size mode devPath
          ∧ MapOutcome rely physAddr size mode devPath s result s') s := by
  unfold PhysicalMemoryView.mapDevice
  by_cases zero : size = 0
  · rw [if_pos zero]
    refine ⟨observedOs 4096 (.ok 0) (.ok 0), observedOs_lawful _ _ _, ⟨12, by decide⟩, ?_,
      .empty zero (.refl s)⟩
    rw [PhysicalMemoryView.map, if_pos zero]
  · rw [if_neg zero]
    refine .sysconf (fun sysconf s₁ power kept₁ => ?_)
    obtain ⟨drift₁⟩ := kept₁
    refine .openDevice (fun errno s₂ kept₂ => ?_) (fun fd s₂ kept₂ => ?_)
    · obtain ⟨drift₂⟩ := kept₂
      refine .strerror (fun reason s₃ kept₃ => ?_)
      obtain ⟨drift₃⟩ := kept₃
      refine ⟨observedOs sysconf (.error reason) (.ok 0), observedOs_lawful _ _ _, power, ?_,
        .refused (.opening reason) (.intro (drift₁.trans (drift₂.trans drift₃)))⟩
      rw [PhysicalMemoryView.map, if_neg zero]
      rfl
    · obtain ⟨drift₂⟩ := kept₂
      refine .mmap List.mem_cons_self (fun errno s₃ kept₃ => ?_)
        (fun held s₃ nonzero isHeld kept₃ => ?_)
      · obtain ⟨drift₃⟩ := kept₃
        refine .close rfl (fun s₄ kept₄ => ?_)
        obtain ⟨drift₄⟩ := kept₄
        refine .strerror (fun reason s₅ kept₅ => ?_)
        obtain ⟨drift₅⟩ := kept₅
        refine ⟨observedOs sysconf (.ok fd) (.error reason), observedOs_lawful _ _ _, power, ?_,
          .refused (.mapping reason)
            (.intro (drift₁.trans (drift₂.trans (drift₃.trans (drift₄.trans drift₅)))))⟩
        rw [PhysicalMemoryView.map, if_neg zero]
        rfl
      · obtain ⟨more, rfl⟩ := isHeld
        obtain ⟨drift₃⟩ := kept₃
        refine .close rfl (fun s₄ kept₄ => ?_)
        obtain ⟨drift₄⟩ := kept₄
        refine ⟨observedOs sysconf (.ok fd) (.ok more), observedOs_lawful _ _ _, power, ?_,
          .mapped rfl rfl (.intro (drift₁.trans (drift₂.trans (drift₃.trans drift₄))))⟩
        simp only [PhysicalMemoryView.map, if_neg zero, observedOs, Os.pageSize]
        rw [if_neg nonzero]

/-- The word lies in the mapping. -/
structure Held.Covers (held : Held) (physAddr : UInt64) : Prop where
  starts : held.mapping.start ≤ physAddr.toNat
  ends : physAddr.toNat + 4 ≤ held.mapping.start + held.mapping.extent

/-- A view of a word, and the mapping it lies in. -/
structure Shows (physAddr : UInt64) (mode : MemoryAccessMode) (held : Held)
    (v : PhysicalMemoryView)
    : Prop where
  isMode : held.mode = mode
  holds : v.mapping = some (held.mapping, ⟨held.length⟩)
  releases : MmapDeleter.release ⟨held.length⟩ = some held.length
  address : held.mapping.start + v.offsetInPage.toNat = physAddr.toNat
  inside : v.offsetInPage.toNat + 4 ≤ held.mapping.extent

theorem Shows.covers {mode : MemoryAccessMode} {held : Held} {v : PhysicalMemoryView}
    (shows : Shows physAddr mode held v)
    : held.Covers physAddr := by
  have address := shows.address
  have inside := shows.inside
  exact ⟨by omega, by omega⟩

/-- A word is mapped as a whole, at any address, unless the system refuses. -/
theorem mapDevice_word {mode : MemoryAccessMode} {devPath : Bytes}
    {next : Except Bytes PhysicalMemoryView → Tool α}
    (refused : ∀ error errno s', RefusalText physAddr devPath error
      → Beside rely { s with deeds := s.deeds ++ [.refused errno] } s'
      → Always rely (next (.error error)) post s')
    (mapped : ∀ v held s', Shows physAddr mode held v
      → Beside rely { s with
          mappings := held :: s.mappings, deeds := s.deeds ++ [.granted held] } s'
      → Always rely (next (.ok v)) post s')
    : Always rely (PhysicalMemoryView.mapDevice physAddr 4 mode devPath >>= next) post s := by
  refine Prog.always_bind.mpr ((mapDevice_refines physAddr 4 mode devPath s).imp ?_)
  rintro result s' ⟨os, lawful, ⟨exponent, power⟩, isResult, outcome⟩
  cases outcome with
  | empty isEmpty kept => exact absurd isEmpty (by decide)
  | refused told kept => exact refused _ _ _ told kept
  | @mapped v held _ isMode holds kept =>
      refine mapped v held s' ?_ kept
      obtain ⟨mapping, length, mode', fd, pageBase, holds', isMapping, releases, _, split, enough,
        _⟩ := (word_liesInside lawful power isResult.symm).exists_call
      obtain ⟨isHeld, isLength⟩ := Prod.mk.inj (Option.some.inj (holds.symm.trans holds'))
      have isLength : held.length = length := congrArg MmapDeleter.length isLength
      obtain ⟨start, extent⟩ := lawful.maps _ _ _ _ _ isMapping
      refine ⟨isMode, holds, isLength ▸ releases, ?_, ?_⟩
      · rw [isHeld, start, split]
      · have four : (4 : UInt64).toNat = 4 := rfl
        rw [isHeld]
        omega

-----------------------------------------------------------------------------------------
-- Reading and writing through a view
-----------------------------------------------------------------------------------------

/-- A word may be accessed at the address. -/
def Computer.Allows (s : Computer) (physAddr : UInt64) : Prop :=
  s.unaligned = true ∨ physAddr.toNat % 4 = 0

theorem Computer.Allows.of_eq {s' : Computer} (allows : s.Allows physAddr)
    (same : s'.unaligned = s.unaligned)
    : s'.Allows physAddr := by
  rw [Computer.Allows, same]
  exact allows

theorem Shows.displacement {mode : MemoryAccessMode} {held : Held} {v : PhysicalMemoryView}
    (shows : Shows physAddr mode held v)
    : held.mapping.start + (v.offsetInPage + (0 : Int64).toUInt64).toNat = physAddr.toNat := by
  have zero : v.offsetInPage + (0 : Int64).toUInt64 = v.offsetInPage := UInt64.add_zero _
  rw [zero, shows.address]

theorem Shows.accessible {mode : MemoryAccessMode} {held : Held} {v : PhysicalMemoryView}
    {ok : MemoryAccessMode → Bool} (shows : Shows physAddr mode held v) (live : held ∈ s.mappings)
    (allows : s.Allows physAddr) (isOk : ok mode = true)
    : s.accessible held.mapping (v.offsetInPage + (0 : Int64).toUInt64) ok = true := by
  have zero : v.offsetInPage + (0 : Int64).toUInt64 = v.offsetInPage := UInt64.add_zero _
  have found : s.mappings.any (fun other => other.mapping = held.mapping && ok other.mode) = true :=
    List.any_eq_true.mpr ⟨held, live, by rw [shows.isMode, isOk, decide_eq_true rfl]; rfl⟩
  have aligned : (s.unaligned || physAddr.toNat % 4 = 0) = true := by
    rcases allows with unaligned | aligned
    · rw [unaligned, Bool.true_or]
    · rw [decide_eq_true aligned, Bool.or_true]
  rw [Computer.accessible, zero, found, decide_eq_true shows.inside, shows.address, aligned]
  rfl

theorem readAt_word {mode : MemoryAccessMode} {held : Held} {v : PhysicalMemoryView}
    {next : UInt32 → Tool α} (shows : Shows physAddr mode held v) (live : held ∈ s.mappings)
    (allows : s.Allows physAddr)
    (rest : ∀ contents s', rely s.memory contents
      → Beside rely { s with
          memory := contents
          deeds := s.deeds ++ [.loaded physAddr.toNat (word contents physAddr.toNat)] } s'
      → Always rely (next (word contents physAddr.toNat)) post s')
    : Always rely (v.readAt 0 >>= next) post s := by
  rw [PhysicalMemoryView.readAt, shows.holds]
  exact .load32 (shows.accessible live allows rfl) shows.displacement rest

theorem writeAt_word {held : Held} {v : PhysicalMemoryView} {value : UInt32}
    {next : Unit → Tool α} (shows : Shows physAddr .readWrite held v) (live : held ∈ s.mappings)
    (allows : s.Allows physAddr)
    (rest : ∀ contents s', rely s.memory contents
      → Beside rely { s with
          memory := setWord contents physAddr.toNat value
          deeds := s.deeds ++ [.stored physAddr.toNat value] } s'
      → Always rely (next ()) post s')
    : Always rely (v.writeAt value 0 >>= next) post s := by
  rw [PhysicalMemoryView.writeAt, shows.holds]
  exact .store32 (shows.accessible live allows rfl) shows.displacement rest

omit [IsPreorder Contents rely] in
theorem destroy_word {mode : MemoryAccessMode} {held : Held} {others : List Held}
    {v : PhysicalMemoryView} {next : Unit → Tool α} (shows : Shows physAddr mode held v)
    (live : s.mappings = held :: others)
    (rest : ∀ s', Beside rely { s with mappings := others } s' → Always rely (next ()) post s')
    : Always rely (v.destroy >>= next) post s := by
  simp only [PhysicalMemoryView.destroy, shows.holds, shows.releases]
  exact .munmap live rest

theorem readPhys_word {next : Except Bytes UInt32 → Tool α} (allows : s.Allows physAddr)
    (refused : ∀ error errno s', Beside rely { s with deeds := s.deeds ++ [.refused errno] } s'
      → Always rely (next (.error error)) post s')
    (read : ∀ held contents s', rely s.memory contents
      → Beside rely { s with
          memory := contents
          deeds := s.deeds
            ++ [.granted held, .loaded physAddr.toNat (word contents physAddr.toNat)] } s'
      → Always rely (next (.ok (word contents physAddr.toNat))) post s')
    : Always rely (readPhys physAddr >>= next) post s := by
  refine Prog.always_bind.mpr ?_
  unfold readPhys
  refine mapDevice_word (fun error errno s₁ _ kept₁ => refused error errno s₁ kept₁)
    (fun v held s₁ shows kept₁ => ?_)
  obtain ⟨drift₁⟩ := kept₁
  refine readAt_word shows List.mem_cons_self allows (fun contents s₂ relied kept₂ => ?_)
  obtain ⟨drift₂⟩ := kept₂
  refine destroy_word shows rfl (fun s₃ kept₃ => ?_)
  obtain ⟨drift₃⟩ := kept₃
  refine read held contents _ (trans_of rely drift₁.relied relied) ?_
  dsimp only
  rw [List.append_assoc]
  exact .intro ((drift₂.trans drift₃).after drift₁)

theorem writePhys_word {value : UInt32} {next : Except Bytes Unit → Tool α}
    (allows : s.Allows physAddr)
    (refused : ∀ error errno s', Beside rely { s with deeds := s.deeds ++ [.refused errno] } s'
      → Always rely (next (.error error)) post s')
    (wrote : ∀ held contents s', rely s.memory contents
      → Beside rely { s with
          memory := setWord contents physAddr.toNat value
          deeds := s.deeds ++ [.granted held, .stored physAddr.toNat value] } s'
      → Always rely (next (.ok ())) post s')
    : Always rely (writePhys physAddr value >>= next) post s := by
  refine Prog.always_bind.mpr ?_
  unfold writePhys
  refine mapDevice_word (fun error errno s₁ _ kept₁ => refused error errno s₁ kept₁)
    (fun v held s₁ shows kept₁ => ?_)
  obtain ⟨drift₁⟩ := kept₁
  refine writeAt_word shows List.mem_cons_self allows (fun contents s₂ relied kept₂ => ?_)
  obtain ⟨drift₂⟩ := kept₂
  refine destroy_word shows rfl (fun s₃ kept₃ => ?_)
  obtain ⟨drift₃⟩ := kept₃
  refine wrote held contents _ (trans_of rely drift₁.relied relied) ?_
  dsimp only
  rw [List.append_assoc]
  exact .intro ((drift₂.trans drift₃).after drift₁)

end SafetyIsolation.Devmem

import Mathlib.Order.Interval.Set.Basic
import SafetyIsolation.Text.PrintedNumbers

/-! `memory_region.hpp`: a physical range seen through a mapping of whole pages. The mapping is
asked for with a length that is computed in 64 bits.
-/

namespace SafetyIsolation.Devmem

open SafetyIsolation.Text

inductive MemoryAccessMode where
  | readOnly
  | readWrite
  deriving DecidableEq

/-- What `mmap` has mapped: the physical address of the first byte, and how many bytes follow. -/
structure Mapping where
  start : Nat
  extent : Nat

/-- The calls of `map`, an error being the text of `strerror(errno)`. The mode stands for the
flags of `open` and the protection.
-/
structure Os where
  sysconf : Int64
  openDevice : Bytes → MemoryAccessMode → Except Bytes Nat
  mmap : (length : UInt64) → MemoryAccessMode → (fd : Nat) → (offset : UInt64)
    → Except Bytes Mapping

/-- `mmap` as documented: it maps at least the length asked for from the given offset or fails,
and a length of zero is refused.
-/
structure Os.Lawful (os : Os) : Prop where
  maps : ∀ length mode fd offset mapping, os.mmap length mode fd offset = .ok mapping
    → mapping.start = offset.toNat ∧ length.toNat ≤ mapping.extent
  refuses : ∀ mode fd offset mapping, os.mmap 0 mode fd offset ≠ .ok mapping

def kDefaultPageSize : UInt64 := 4096

/-- The page size `map` works with. -/
def pageSizeOf (sysconf : Int64) : UInt64 :=
  if sysconf ≤ 0 then kDefaultPageSize else sysconf.toUInt64

def Os.pageSize (os : Os) : UInt64 := pageSizeOf os.sysconf

/-- `MmapDeleter`. -/
structure MmapDeleter where
  length : UInt64

/-- The length handed to `munmap`, if it is called. -/
def MmapDeleter.release (deleter : MmapDeleter) : Option UInt64 :=
  if deleter.length > 0 then some deleter.length else none

structure PhysicalMemoryView where
  mapping : Option (Mapping × MmapDeleter)
  physAddr : UInt64
  size : UInt64
  offsetInPage : UInt64

namespace PhysicalMemoryView

/-- `PhysicalMemoryView::map`. -/
def map (os : Os) (physAddr size : UInt64) (mode : MemoryAccessMode) (devPath : Bytes)
    : Except Bytes PhysicalMemoryView :=
  if size = 0 then .error (utf8 "Cannot map physical memory region of 0 size.")
  else
    let pageBase := physAddr &&& ~~~(os.pageSize - 1)
    let pageOffset := physAddr &&& (os.pageSize - 1)
    let mapLength := pageOffset + size
    match os.openDevice devPath mode with
    | .error errno => .error (utf8 "Failed to open " ++ devPath ++ utf8 ": " ++ errno)
    | .ok fd =>
        match os.mmap mapLength mode fd pageBase with
        | .error errno =>
            .error (utf8 "mmap failed for phys_addr 0x" ++ unsignedText physAddr.toNat
              ++ utf8 ": " ++ errno)
        | .ok mapping => .ok ⟨some (mapping, ⟨mapLength⟩), physAddr, size, pageOffset⟩

/-- `view` and `mutable_view`, as the physical addresses of the bytes they show. -/
def view (v : PhysicalMemoryView) : Set Nat :=
  match v.mapping with
  | none => ∅
  | some (mapping, _) =>
      Set.Ico (mapping.start + v.offsetInPage.toNat)
        (mapping.start + v.offsetInPage.toNat + v.size.toNat)

end PhysicalMemoryView

/-- A mask and its complement split a word. -/
theorem toNat_and_not_add_and (word mask : UInt64)
    : (word &&& ~~~mask).toNat + (word &&& mask).toNat = word.toNat := by
  have apart : (word.toBitVec &&& ~~~mask.toBitVec) &&& (word.toBitVec &&& mask.toBitVec) = 0#64 := by
    rw [BitVec.and_comm word.toBitVec mask.toBitVec, BitVec.and_assoc,
      ← BitVec.and_assoc (~~~mask.toBitVec), BitVec.not_and_self]
    exact (congrArg _ BitVec.zero_and).trans BitVec.and_zero
  have joined : (word.toBitVec &&& ~~~mask.toBitVec) ||| (word.toBitVec &&& mask.toBitVec)
      = word.toBitVec := by
    rw [← BitVec.and_or_distrib_left, BitVec.not_or_self, BitVec.and_allOnes]
  have sum := BitVec.toNat_add_of_and_eq_zero apart
  rw [BitVec.add_eq_or_of_and_eq_zero _ _ apart, joined] at sum
  exact sum.symm

section Pages

variable {pageSize : UInt64} {exponent : Nat} (power : pageSize.toNat = 2 ^ exponent)
  (physAddr : UInt64)
include power

/-- The low bits are the offset in the page. -/
theorem pageOffset_toNat
    : (physAddr &&& (pageSize - 1)).toNat = physAddr.toNat % pageSize.toNat := by
  have positive : 1 ≤ pageSize.toNat := power ▸ Nat.one_le_two_pow
  have mask : (pageSize - 1).toNat = 2 ^ exponent - 1 := by
    have least : (1 : UInt64) ≤ pageSize := UInt64.le_iff_toNat_le.mpr (by simpa using positive)
    rw [UInt64.toNat_sub_of_le _ _ least, power]
    rfl
  rw [UInt64.toNat_and, mask, Nat.and_two_pow_sub_one_eq_mod, power]

theorem pageBase_spec
    : (physAddr &&& ~~~(pageSize - 1)).toNat + (physAddr &&& (pageSize - 1)).toNat = physAddr.toNat
      ∧ pageSize.toNat ∣ (physAddr &&& ~~~(pageSize - 1)).toNat := by
  have split := toNat_and_not_add_and physAddr (pageSize - 1)
  refine ⟨split, ?_⟩
  rw [pageOffset_toNat power] at split
  have whole := Nat.div_add_mod physAddr.toNat pageSize.toNat
  exact ⟨physAddr.toNat / pageSize.toNat, by omega⟩

end Pages

/-- The view shows the bytes asked for, and all of them are mapped. -/
structure LiesInside (os : Os) (physAddr size : UInt64) (v : PhysicalMemoryView) : Prop where
  exists_call : ∃ mapping length mode fd pageBase,
    v.mapping = some (mapping, ⟨length⟩)
    ∧ os.mmap length mode fd pageBase = .ok mapping
    ∧ MmapDeleter.release ⟨length⟩ = some length
    ∧ os.pageSize.toNat ∣ pageBase.toNat
    ∧ pageBase.toNat + v.offsetInPage.toNat = physAddr.toNat
    ∧ v.offsetInPage.toNat + size.toNat ≤ length.toNat
    ∧ v.view = Set.Ico physAddr.toNat (physAddr.toNat + size.toNat)
    ∧ v.view ⊆ Set.Ico mapping.start (mapping.start + mapping.extent)

/-- What a successful `map` has done. -/
theorem map_eq_ok {os : Os} {physAddr size : UInt64} {mode : MemoryAccessMode} {devPath : Bytes}
    {v : PhysicalMemoryView} (mapped : PhysicalMemoryView.map os physAddr size mode devPath = .ok v)
    : ∃ mapping fd,
        os.mmap ((physAddr &&& (os.pageSize - 1)) + size) mode fd
          (physAddr &&& ~~~(os.pageSize - 1)) = .ok mapping
        ∧ v = ⟨some (mapping, ⟨(physAddr &&& (os.pageSize - 1)) + size⟩), physAddr, size,
          physAddr &&& (os.pageSize - 1)⟩ := by
  unfold PhysicalMemoryView.map at mapped
  split at mapped
  · cases mapped
  · dsimp only at mapped
    split at mapped
    · cases mapped
    · rename_i fd _
      split at mapped
      · cases mapped
      · rename_i mapping isMapping
        cases mapped
        exact ⟨mapping, fd, isMapping, rfl⟩

/-- `map` succeeds if `open` and `mmap` do. -/
theorem map_of_mmap {os : Os} {physAddr size : UInt64} {mode : MemoryAccessMode} {devPath : Bytes}
    {fd : Nat} {mapping : Mapping} (nonzero : size ≠ 0)
    (opened : os.openDevice devPath mode = .ok fd)
    (isMapping : os.mmap ((physAddr &&& (os.pageSize - 1)) + size) mode fd
      (physAddr &&& ~~~(os.pageSize - 1)) = .ok mapping)
    : PhysicalMemoryView.map os physAddr size mode devPath
      = .ok ⟨some (mapping, ⟨(physAddr &&& (os.pageSize - 1)) + size⟩), physAddr, size,
          physAddr &&& (os.pageSize - 1)⟩ := by
  simp only [PhysicalMemoryView.map, if_neg nonzero, opened, isMapping]

/-- Without wrapping around, the mapping reaches to the end of the view. -/
theorem liesInside_of_fits {os : Os} (lawful : os.Lawful) {exponent : Nat}
    (power : os.pageSize.toNat = 2 ^ exponent) {physAddr size : UInt64}
    (fits : physAddr.toNat % os.pageSize.toNat + size.toNat ≤ 2 ^ 64) {mode : MemoryAccessMode}
    {devPath : Bytes} {v : PhysicalMemoryView}
    (mapped : PhysicalMemoryView.map os physAddr size mode devPath = .ok v)
    : LiesInside os physAddr size v := by
  obtain ⟨mapping, fd, isMapping, rfl⟩ := map_eq_ok mapped
  obtain ⟨split, aligned⟩ := pageBase_spec power physAddr
  have offset := pageOffset_toNat power physAddr
  have nonzero : (physAddr &&& (os.pageSize - 1)) + size ≠ 0 :=
    fun zero => lawful.refuses _ _ _ _ (zero ▸ isMapping)
  have length : ((physAddr &&& (os.pageSize - 1)) + size).toNat
      = (physAddr &&& (os.pageSize - 1)).toNat + size.toNat := by
    -- The sum is 2^64 only if the length is zero, which is refused.
    have sum := UInt64.toNat_add (physAddr &&& (os.pageSize - 1)) size
    have notZero : ((physAddr &&& (os.pageSize - 1)) + size).toNat ≠ 0 :=
      fun zero => nonzero (UInt64.toNat_inj.mp zero)
    omega
  obtain ⟨start, extent⟩ := lawful.maps _ _ _ _ _ isMapping
  have shown : PhysicalMemoryView.view ⟨some (mapping, ⟨(physAddr &&& (os.pageSize - 1)) + size⟩),
      physAddr, size, physAddr &&& (os.pageSize - 1)⟩
      = Set.Ico physAddr.toNat (physAddr.toNat + size.toNat) := by
    simp only [PhysicalMemoryView.view, start, split]
  refine ⟨mapping, _, mode, fd, _, rfl, isMapping, ?_, aligned, split, length.ge, shown, ?_⟩
  · exact if_pos (UInt64.pos_iff_ne_zero.mpr nonzero)
  · rw [shown, start]
    exact Set.Ico_subset_Ico (by omega) (by omega)

/-- An operating system that maps what it is asked for, byte by byte. -/
def exactOs (sysconf : Int64) : Os where
  sysconf := sysconf
  openDevice := fun _ _ => .ok 3
  mmap := fun length _ _ offset =>
    if length = 0 then .error (utf8 "Invalid argument") else .ok ⟨offset.toNat, length.toNat⟩

theorem exactOs_mmap {sysconf : Int64} {length offset : UInt64} {mode : MemoryAccessMode} {fd : Nat}
    (nonzero : length ≠ 0)
    : (exactOs sysconf).mmap length mode fd offset = .ok ⟨offset.toNat, length.toNat⟩ :=
  if_neg nonzero

theorem exactOs_lawful (sysconf : Int64) : (exactOs sysconf).Lawful := by
  constructor
  · intro length mode fd offset mapping mapped
    simp only [exactOs] at mapped
    split at mapped
    · cases mapped
    · cases mapped
      exact ⟨rfl, Nat.le_refl _⟩
  · intro mode fd offset mapping mapped
    cases mapped

/-- Every view lies inside its mapping exactly if the offset in the page and the size together do
not exceed the 64 bits of the length.
-/
theorem map_liesInside_iff {sysconf : Int64} {exponent : Nat}
    (power : (pageSizeOf sysconf).toNat = 2 ^ exponent) {physAddr size : UInt64} (positive : 0 < size)
    : (∀ os : Os, os.Lawful → os.sysconf = sysconf → ∀ mode devPath v,
        PhysicalMemoryView.map os physAddr size mode devPath = .ok v
        → LiesInside os physAddr size v)
      ↔ physAddr.toNat % (pageSizeOf sysconf).toNat + size.toNat ≤ 2 ^ 64 := by
  constructor
  · intro all
    by_contra wraps
    have offset := pageOffset_toNat power physAddr
    have sum := UInt64.toNat_add (physAddr &&& (pageSizeOf sysconf - 1)) size
    have small := size.toNat_lt
    have nonzero : (physAddr &&& (pageSizeOf sysconf - 1)) + size ≠ 0 := by
      intro zero
      rw [zero, UInt64.toNat_zero] at sum
      have below := (physAddr &&& (pageSizeOf sysconf - 1)).toNat_lt
      omega
    have mapped : PhysicalMemoryView.map (exactOs sysconf) physAddr size .readOnly [] = .ok _ :=
      map_of_mmap (UInt64.pos_iff_ne_zero.mp positive) rfl (exactOs_mmap nonzero)
    obtain ⟨_, length, _, _, _, _, _, _, _, _, enough, _⟩ :=
      all _ (exactOs_lawful sysconf) rfl _ _ _ mapped
    have bounded := length.toNat_lt
    have enough : (physAddr &&& (pageSizeOf sysconf - 1)).toNat + size.toNat ≤ length.toNat := enough
    omega
  · rintro fits os lawful rfl mode devPath v mapped
    exact liesInside_of_fits lawful power fits mapped

/-- The words that `devmem` reads and writes, at any address: a view of four bytes never wraps. -/
theorem word_liesInside {os : Os} (lawful : os.Lawful) {exponent : Nat}
    (power : os.pageSize.toNat = 2 ^ exponent) {physAddr : UInt64} {mode : MemoryAccessMode}
    {devPath : Bytes} {v : PhysicalMemoryView}
    (mapped : PhysicalMemoryView.map os physAddr 4 mode devPath = .ok v)
    : LiesInside os physAddr 4 v := by
  refine liesInside_of_fits lawful power ?_ mapped
  have page := os.pageSize.toNat_lt
  have half : 2 ^ exponent ≤ 2 ^ 63 := by
    rw [power] at page
    exact Nat.pow_le_pow_right (by decide) (Nat.le_of_lt_succ (Nat.pow_lt_pow_iff_right (by decide)
      |>.mp page))
  have offset := Nat.mod_lt physAddr.toNat (Nat.lt_of_lt_of_eq (Nat.two_pow_pos exponent) power.symm)
  have four : (4 : UInt64).toNat = 4 := rfl
  omega

/-- A word at the end of a page lies inside a mapping of two pages. -/
theorem map_liesInside_word
    : ∃ v, PhysicalMemoryView.map (exactOs 4096) 0x1FFE 4 .readOnly [] = .ok v
      ∧ LiesInside (exactOs 4096) 0x1FFE 4 v := by
  have power : (pageSizeOf 4096).toNat = 2 ^ 12 := by decide
  have mapped : PhysicalMemoryView.map (exactOs 4096) 0x1FFE 4 .readOnly [] = .ok _ :=
    map_of_mmap (by decide) rfl (exactOs_mmap (by decide))
  exact ⟨_, mapped, (map_liesInside_iff power (by decide)).mpr (by decide) _
    (exactOs_lawful 4096) rfl _ _ _ mapped⟩

/-- An address 16 bytes into a page and a size of 2^64 - 8: eight bytes are mapped. -/
theorem map_wraps_around
    : ∃ v, PhysicalMemoryView.map (exactOs 4096) 0x10 0xFFFFFFFFFFFFFFF8 .readOnly [] = .ok v
      ∧ (exactOs 4096).Lawful
      ∧ v.mapping.map (fun held => (held.1.extent, held.2.length)) = some (8, 8)
      ∧ ¬ LiesInside (exactOs 4096) 0x10 0xFFFFFFFFFFFFFFF8 v := by
  have mapped : PhysicalMemoryView.map (exactOs 4096) 0x10 0xFFFFFFFFFFFFFFF8 .readOnly []
      = .ok _ := map_of_mmap (by decide) rfl (exactOs_mmap (by decide))
  refine ⟨_, mapped, exactOs_lawful 4096, by decide, ?_⟩
  intro lies
  obtain ⟨_, length, _, _, _, _, _, _, _, _, enough, _⟩ := lies
  have bounded := length.toNat_lt
  have whole : (0x10 &&& ((exactOs 4096).pageSize - 1)).toNat + (0xFFFFFFFFFFFFFFF8 : UInt64).toNat
      = 2 ^ 64 + 8 := by decide
  have enough := whole ▸ enough
  omega

end SafetyIsolation.Devmem

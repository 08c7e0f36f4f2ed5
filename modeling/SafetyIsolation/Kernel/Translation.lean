import SafetyIsolation.Kernel.PageTable

/-! The kernel's tables as a tree, and what the hardware makes of an address. The walker reads
the entries along one path of the tree.
-/

namespace SafetyIsolation.Kernel

inductive PteEntry where
  | none
  | page (leaf : Leaf)

inductive PmdEntry where
  | none
  | table (entries : UInt64 → PteEntry)
  | block (pfn : UInt64) (write : Bool)

inductive PudEntry where
  | none
  | table (entries : UInt64 → PmdEntry)
  | block (pfn : UInt64) (write : Bool)

inductive P4dEntry where
  | none
  | table (entries : UInt64 → PudEntry)

inductive PgdEntry where
  | none
  | table (entries : UInt64 → P4dEntry)

/-- How the upper levels are indexed, which depends on the configuration: a folded level has one
entry.
-/
structure Layout where
  pgdIndex : UInt64 → UInt64
  p4dIndex : UInt64 → UInt64
  pudIndex : UInt64 → UInt64

def pmdIndex (addr : UInt64) : UInt64 := addr >>> 21 &&& 511

def pteIndex (addr : UInt64) : UInt64 := addr >>> 12 &&& 511

/-- The kernel's tables, from `pgd_offset_k` on. -/
structure Tables where
  layout : Layout
  entries : UInt64 → PgdEntry

/-- The frame an address translates to, and whether stores through it are permitted. -/
structure Translation where
  frame : UInt64
  write : Bool
  deriving DecidableEq

def PteEntry.translate : PteEntry → Option Translation
  | .none => Option.none
  | .page leaf => if leaf.present then some ⟨leaf.pfn, leaf.write⟩ else Option.none

/-- A block covers consecutive frames. -/
def PmdEntry.translate (addr : UInt64) : PmdEntry → Option Translation
  | .none => Option.none
  | .table entries => (entries (pteIndex addr)).translate
  | .block pfn write => some ⟨pfn + pteIndex addr, write⟩

def PudEntry.translate (addr : UInt64) : PudEntry → Option Translation
  | .none => Option.none
  | .table entries => (entries (pmdIndex addr)).translate addr
  | .block pfn write => some ⟨pfn + (pmdIndex addr * 512 + pteIndex addr), write⟩

def P4dEntry.translate (layout : Layout) (addr : UInt64) : P4dEntry → Option Translation
  | .none => Option.none
  | .table entries => (entries (layout.pudIndex addr)).translate addr

def PgdEntry.translate (layout : Layout) (addr : UInt64) : PgdEntry → Option Translation
  | .none => Option.none
  | .table entries => (entries (layout.p4dIndex addr)).translate layout addr

def Tables.translate (tables : Tables) (addr : UInt64) : Option Translation :=
  (tables.entries (tables.layout.pgdIndex addr)).translate tables.layout addr

def PteEntry.entry : PteEntry → Entry
  | .none => .none
  | .page leaf => .page leaf

/-- The entries from this level on; a block is present, and below the end of the path there is
nothing to be read.
-/
def PmdEntry.path (addr : UInt64) (above : TablePath) : PmdEntry → TablePath
  | .none => above
  | .table entries => { above with pmd := .table, pte := (entries (pteIndex addr)).entry }
  | .block pfn write => { above with pmd := .block ⟨pfn, write, true⟩ }

def PudEntry.path (addr : UInt64) (above : TablePath) : PudEntry → TablePath
  | .none => above
  | .table entries => (entries (pmdIndex addr)).path addr { above with pud := .table }
  | .block pfn write => { above with pud := .block ⟨pfn, write, true⟩ }

def P4dEntry.path (layout : Layout) (addr : UInt64) (above : TablePath) : P4dEntry → TablePath
  | .none => above
  | .table entries => (entries (layout.pudIndex addr)).path addr { above with p4d := .table }

def PgdEntry.path (layout : Layout) (addr : UInt64) : PgdEntry → TablePath
  | .none => ⟨.none, .none, .none, .none, .none⟩
  | .table entries =>
      (entries (layout.p4dIndex addr)).path layout addr ⟨.table, .none, .none, .none, .none⟩

/-- The entries that the `*_offset` helpers find for an address. -/
def Tables.path (tables : Tables) (addr : UInt64) : TablePath :=
  (tables.entries (tables.layout.pgdIndex addr)).path tables.layout addr

def Tables.walk (tables : Tables) (addr : UInt64) : WalkInfo :=
  safetyMemWalkPgtable addr (tables.path addr)

/-- Where the path of an address ends, and the translation that goes with it. -/
inductive Ending (addr : UInt64) : TablePath → Option Translation → Prop where
  | noPgd : Ending addr ⟨.none, .none, .none, .none, .none⟩ Option.none
  | noP4d : Ending addr ⟨.table, .none, .none, .none, .none⟩ Option.none
  | noPud : Ending addr ⟨.table, .table, .none, .none, .none⟩ Option.none
  | noPmd : Ending addr ⟨.table, .table, .table, .none, .none⟩ Option.none
  | noPte : Ending addr ⟨.table, .table, .table, .table, .none⟩ Option.none
  | pudBlock (pfn : UInt64) (write : Bool)
      : Ending addr ⟨.table, .table, .block ⟨pfn, write, true⟩, .none, .none⟩
          (some ⟨pfn + (pmdIndex addr * 512 + pteIndex addr), write⟩)
  | pmdBlock (pfn : UInt64) (write : Bool)
      : Ending addr ⟨.table, .table, .table, .block ⟨pfn, write, true⟩, .none⟩
          (some ⟨pfn + pteIndex addr, write⟩)
  | page (leaf : Leaf)
      : Ending addr ⟨.table, .table, .table, .table, .page leaf⟩
          (if leaf.present then some ⟨leaf.pfn, leaf.write⟩ else Option.none)

/-- Every path ends in one of these ways, by cases from the top level on. -/
theorem Tables.ending (tables : Tables) (addr : UInt64)
    : Ending addr (tables.path addr) (tables.translate addr) := by
  unfold Tables.path Tables.translate
  cases tables.entries (tables.layout.pgdIndex addr) with
  | none => exact .noPgd
  | table p4ds =>
      rw [PgdEntry.path, PgdEntry.translate]
      cases p4ds (tables.layout.p4dIndex addr) with
      | none => exact .noP4d
      | table puds =>
          rw [P4dEntry.path, P4dEntry.translate]
          cases puds (tables.layout.pudIndex addr) with
          | none => exact .noPud
          | block pfn write => exact .pudBlock pfn write
          | table pmds =>
              rw [PudEntry.path, PudEntry.translate]
              cases pmds (pmdIndex addr) with
              | none => exact .noPmd
              | block pfn write => exact .pmdBlock pfn write
              | table ptes =>
                  rw [PmdEntry.path, PmdEntry.translate]
                  cases ptes (pteIndex addr) with
                  | none => exact .noPte
                  | page leaf => exact .page leaf

/-- What the kernel model calls mapped and writable is what the hardware makes of the tables. -/
theorem Ending.mapped {addr : UInt64} {path : TablePath} {translation : Option Translation}
    (ending : Ending addr path translation)
    : path.mapped = translation.isSome ∧ path.writable = translation.any Translation.write := by
  cases ending with
  | page leaf =>
      have mapped : TablePath.mapped ⟨.table, .table, .table, .table, .page leaf⟩ = leaf.present := rfl
      have writable : TablePath.writable ⟨.table, .table, .table, .table, .page leaf⟩
          = (leaf.present && leaf.write) := rfl
      rw [mapped, writable]
      cases leaf.present with
      | true => exact ⟨rfl, rfl⟩
      | false => exact ⟨rfl, rfl⟩
  | _ => exact ⟨rfl, rfl⟩

/-- The walk reports what the hardware would do. -/
structure Agrees (info : WalkInfo) (translation : Option Translation) : Prop where
  valid : info.isValid = true ↔ ∃ found, translation = some found
  writable : info.isWritable = true
    ↔ info.isValid = true ∧ ∃ found, translation = some found ∧ found.write = true
  frame : info.isValid = true → ∀ found, translation = some found
    → info.physAddr = found.frame <<< pageShift

/-- No block above the PMD level, in a PMD block only its first page, and no write permission in
an entry that is not present.
-/
structure Plain (path : TablePath) (addr : UInt64) : Prop where
  pud : ∀ leaf, path.pud ≠ .block leaf
  pmd : ∀ leaf, path.pmd = .block leaf → pteIndex addr = 0
  pte : ∀ leaf, path.pte = .page leaf → leaf.write = true → leaf.present = true

theorem pteIndex_lt (addr : UInt64) : (pteIndex addr).toNat < 512 := by
  rw [pteIndex, UInt64.toNat_and]
  exact Nat.lt_of_le_of_lt Nat.and_le_right (by decide)

/-- The first page of a block is the only one at the block's own address. -/
theorem block_address_eq_iff (pfn addr : UInt64)
    : pfn <<< pageShift = (pfn + pteIndex addr) <<< pageShift ↔ pteIndex addr = 0 := by
  have bounded := pteIndex_lt addr
  have shift : pageShift.toNat % 64 = 12 := by decide
  constructor
  · intro same
    have same := congrArg UInt64.toNat same
    rw [UInt64.toNat_shiftLeft, UInt64.toNat_shiftLeft, UInt64.toNat_add, shift, Nat.shiftLeft_eq,
      Nat.shiftLeft_eq] at same
    refine UInt64.toNat_inj.mp ?_
    rw [UInt64.toNat_zero]
    omega
  · intro first
    rw [first, UInt64.add_zero]

theorem agrees_none_iff {info : WalkInfo}
    : Agrees info Option.none ↔ info.isValid = false ∧ info.isWritable = false := by
  constructor
  · intro agrees
    refine ⟨Bool.eq_false_iff.mpr (fun valid => ?_), Bool.eq_false_iff.mpr (fun writable => ?_)⟩
    · obtain ⟨_, found⟩ := agrees.valid.mp valid
      cases found
    · obtain ⟨_, _, found, _⟩ := agrees.writable.mp writable
      cases found
  · intro agrees
    obtain ⟨invalid, unwritable⟩ := agrees
    refine ⟨?_, ?_, ?_⟩
    · simp [invalid]
    · simp [unwritable]
    · simp [invalid]

theorem agrees_some_iff {info : WalkInfo} {found : Translation}
    : Agrees info (some found)
      ↔ info.isValid = true
        ∧ info.isWritable = found.write
        ∧ info.physAddr = found.frame <<< pageShift := by
  constructor
  · intro agrees
    have valid := agrees.valid.mpr ⟨found, rfl⟩
    refine ⟨valid, Bool.eq_iff_iff.mpr ?_, agrees.frame valid found rfl⟩
    rw [agrees.writable]
    simp [valid]
  · intro agrees
    obtain ⟨valid, writable, frame⟩ := agrees
    refine ⟨?_, ?_, ?_⟩
    · simp [valid]
    · simp [valid, writable]
    · intro _ _ same
      cases same
      exact frame

/-- The walk of a PMD block and of a page. -/
theorem walk_pmdBlock (addr pfn : UInt64) (write present : Bool) (pte : Entry)
    : safetyMemWalkPgtable addr ⟨.table, .table, .table, .block ⟨pfn, write, present⟩, pte⟩
      = ⟨addr, pfn <<< pageShift, .table, .table, .table, .block ⟨pfn, write, present⟩, .none,
          true, write, true⟩ := rfl

theorem walk_page (addr : UInt64) (leaf : Leaf)
    : safetyMemWalkPgtable addr ⟨.table, .table, .table, .table, .page leaf⟩
      = ⟨addr, leaf.pfn <<< pageShift, .table, .table, .table, .table, .page leaf, false,
          leaf.write, leaf.present⟩ := rfl

theorem Ending.agrees_iff {addr : UInt64} {path : TablePath} {translation : Option Translation}
    (ending : Ending addr path translation)
    : Agrees (safetyMemWalkPgtable addr path) translation ↔ Plain path addr := by
  cases ending with
  | pudBlock pfn write =>
      -- The walk stops at an entry that is no table and reports nothing.
      refine ⟨fun agrees => ?_, fun plain => absurd rfl (plain.pud _)⟩
      exact absurd (agrees_some_iff.mp agrees).1 Bool.false_ne_true
  | pmdBlock pfn write =>
      rw [walk_pmdBlock, agrees_some_iff, block_address_eq_iff]
      constructor
      · intro agrees
        obtain ⟨_, _, first⟩ := agrees
        refine ⟨?_, fun _ _ => first, ?_⟩
        · intro _ impossible
          cases impossible
        · intro _ impossible
          cases impossible
      · exact fun plain => ⟨rfl, rfl, plain.pmd _ rfl⟩
  | page leaf =>
      rw [walk_page]
      by_cases present : leaf.present = true
      · rw [if_pos present, agrees_some_iff]
        refine ⟨fun _ => ⟨?_, ?_, ?_⟩, fun _ => ⟨present, rfl, rfl⟩⟩
        · intro _ impossible
          cases impossible
        · intro _ impossible
          cases impossible
        · intro _ same _
          cases same
          exact present
      · rw [if_neg present, agrees_none_iff]
        constructor
        · intro agrees
          obtain ⟨_, unwritable⟩ := agrees
          refine ⟨?_, ?_, ?_⟩
          · intro _ impossible
            cases impossible
          · intro _ impossible
            cases impossible
          · intro _ same write
            cases same
            exact absurd (unwritable.symm.trans write) Bool.false_ne_true
        · intro plain
          exact ⟨Bool.eq_false_iff.mpr present,
            Bool.eq_false_iff.mpr (fun write => present (plain.pte leaf rfl write))⟩
  | _ =>
      rw [agrees_none_iff]
      refine ⟨fun _ => ⟨?_, ?_, ?_⟩, fun _ => ⟨rfl, rfl⟩⟩
      · intro _ impossible
        cases impossible
      · intro _ impossible
        cases impossible
      · intro _ impossible
        cases impossible

/-- The walk agrees with the hardware exactly on plain paths. -/
theorem walk_agrees_iff (tables : Tables) (addr : UInt64)
    : Agrees (tables.walk addr) (tables.translate addr) ↔ Plain (tables.path addr) addr :=
  (tables.ending addr).agrees_iff

/-- Tables that map everything with the same entries, from the PUD level on. -/
def uniform (pud : PudEntry) : Tables :=
  ⟨⟨fun _ => 0, fun _ => 0, fun _ => 0⟩, fun _ => .table (fun _ => .table (fun _ => pud))⟩

/-- The second page of a read-only block of 2 MiB at frame 0x40000 is reported at the block's own
address, an address in a block of 1 GiB is reported unmapped, and an absent entry is reported
writable.
-/
theorem walk_differs_from_hardware
    : ((uniform (.table (fun _ => .block 0x40000 false))).walk 0x1000).physAddr = 0x40000000
      ∧ (uniform (.table (fun _ => .block 0x40000 false))).translate 0x1000 = some ⟨0x40001, false⟩
      ∧ ¬ Agrees ((uniform (.table (fun _ => .block 0x40000 false))).walk 0x1000)
        ((uniform (.table (fun _ => .block 0x40000 false))).translate 0x1000)
      ∧ ¬ Agrees ((uniform (.block 0x40000 true)).walk 0) ((uniform (.block 0x40000 true)).translate 0)
      ∧ ¬ Agrees
        ((uniform (.table (fun _ => .table (fun _ => .page ⟨0x40000, true, false⟩)))).walk 0)
        ((uniform (.table (fun _ => .table (fun _ => .page ⟨0x40000, true, false⟩)))).translate 0) := by
  refine ⟨by decide, by decide, fun agrees => ?_, fun agrees => ?_, fun agrees => ?_⟩
  · exact absurd ((Tables.ending _ _).agrees_iff.mp agrees |>.pmd _ rfl) (by decide)
  · exact (Tables.ending _ _).agrees_iff.mp agrees |>.pud _ rfl
  · exact absurd ((Tables.ending _ _).agrees_iff.mp agrees |>.pte _ rfl rfl) (by decide)

end SafetyIsolation.Kernel

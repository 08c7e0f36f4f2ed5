import Mathlib.Data.Option.Basic

/-! Translation-table entries met by one virtual address, and the module's table walker.
The hardware view (`leaf`, `mapped`, `writable`) is independent of the walker, which is
translated from `safety_mem_walk_pgtable`.
-/

namespace SafetyIsolation.Kernel

/-- The output frame and permission of a block or page entry. -/
structure Leaf where
  pfn : UInt64
  write : Bool
  present : Bool
  deriving DecidableEq

/-- A translation-table entry, as the `*_none`, `*_bad` and `pmd_sect` helpers tell them
apart.
-/
inductive Entry where
  | none
  | table
  | block (leaf : Leaf)
  | page (leaf : Leaf)
  deriving DecidableEq

/-- `*_none`. -/
def Entry.isNone : Entry → Bool
  | .none => true
  | _ => false

/-- `*_bad`: true exactly for entries that are not table pointers. -/
def Entry.isBad : Entry → Bool
  | .table => false
  | _ => true

/-- The entries that `pgd_offset_k`, `p4d_offset`, `pud_offset`, `pmd_offset` and
`pte_offset_kernel` find for one address.
-/
structure TablePath where
  pgd : Entry
  p4d : Entry
  pud : Entry
  pmd : Entry
  pte : Entry
  deriving DecidableEq

namespace TablePath

/-- The entry the hardware translates with, if there is one. -/
def leaf (path : TablePath) : Option Leaf :=
  match path.pgd, path.p4d, path.pud, path.pmd, path.pte with
  | .table, .table, .block leaf, _, _ => some leaf
  | .table, .table, .table, .block leaf, _ => some leaf
  | .table, .table, .table, .table, .page leaf => some leaf
  | _, _, _, _, _ => Option.none

/-- The address translates. -/
def mapped (path : TablePath) : Bool := path.leaf.any Leaf.present

/-- The address translates and stores through it are permitted. -/
def writable (path : TablePath) : Bool :=
  path.leaf.any (fun leaf => leaf.present && leaf.write)

/-- Change the write permission of the entry the hardware translates with. -/
def setWrite (path : TablePath) (write : Bool) : TablePath :=
  match path.pgd, path.p4d, path.pud, path.pmd, path.pte with
  | .table, .table, .block leaf, _, _ => { path with pud := .block { leaf with write } }
  | .table, .table, .table, .block leaf, _ => { path with pmd := .block { leaf with write } }
  | .table, .table, .table, .table, .page leaf =>
      { path with pte := .page { leaf with write } }
  | _, _, _, _, _ => path

/-- A present 4 KiB mapping: tables down to a page entry. -/
structure IsPage (path : TablePath) : Prop where
  tables : path.pgd = .table ∧ path.p4d = .table ∧ path.pud = .table ∧ path.pmd = .table
  page : ∃ leaf : Leaf, path.pte = .page leaf ∧ leaf.present = true

/-- A permission change rewrites exactly the write bit of the translating entry. -/
theorem leaf_setWrite (path : TablePath) (write : Bool)
    : (path.setWrite write).leaf = path.leaf.map (fun leaf => { leaf with write }) := by
  obtain ⟨pgd, p4d, pud, pmd, pte⟩ := path
  unfold setWrite
  split <;> simp_all [leaf]

@[simp] theorem mapped_setWrite (path : TablePath) (write : Bool)
    : (path.setWrite write).mapped = path.mapped := by
  simp only [mapped, leaf_setWrite, Option.any_map]

/-- A mapped address is writable exactly as the last permission change left it. -/
theorem writable_setWrite {path : TablePath} (write : Bool) (mapped : path.mapped = true)
    : (path.setWrite write).writable = write := by
  unfold TablePath.mapped at mapped
  unfold writable
  rw [leaf_setWrite]
  cases found : path.leaf with
  | none => simp [found] at mapped
  | some leaf =>
      have present : leaf.present = true := by simpa [found] using mapped
      simp [present]

/-- Page mappings are mapped. -/
theorem IsPage.mapped {path : TablePath} (h : path.IsPage) : path.mapped = true := by
  obtain ⟨pgd, p4d, pud, pmd, pte⟩ := path
  obtain ⟨⟨rfl, rfl, rfl, rfl⟩, leaf, rfl, present⟩ := h
  simp [TablePath.mapped, TablePath.leaf, present]

/-- Permission changes keep a page mapping a page mapping. -/
theorem IsPage.setWrite {path : TablePath} (h : path.IsPage) (write : Bool)
    : (path.setWrite write).IsPage := by
  obtain ⟨pgd, p4d, pud, pmd, pte⟩ := path
  obtain ⟨⟨rfl, rfl, rfl, rfl⟩, leaf, rfl, present⟩ := h
  exact ⟨⟨rfl, rfl, rfl, rfl⟩, { leaf with write }, rfl, present⟩

end TablePath

/-- `struct pgtable_walk_info`. -/
structure WalkInfo where
  virtAddr : UInt64
  physAddr : UInt64 := 0
  pgdVal : Entry := .none
  p4dVal : Entry := .none
  pudVal : Entry := .none
  pmdVal : Entry := .none
  pteVal : Entry := .none
  isBlockMapping : Bool := false
  isWritable : Bool := false
  isValid : Bool := false
  deriving DecidableEq

/-- `PAGE_SHIFT`. -/
def pageShift : UInt64 := 12

/-- `safety_mem_walk_pgtable` over the entries found for `addr`. Each early return keeps
what the levels above it stored.
-/
def safetyMemWalkPgtable (addr : UInt64) (path : TablePath) : WalkInfo :=
  let info : WalkInfo := { virtAddr := addr }
  if path.pgd.isNone || path.pgd.isBad then info else
  let info := { info with pgdVal := path.pgd }
  if path.p4d.isNone || path.p4d.isBad then info else
  let info := { info with p4dVal := path.p4d }
  if path.pud.isNone || path.pud.isBad then info else
  let info := { info with pudVal := path.pud }
  if path.pmd.isNone then info else
  let info := { info with pmdVal := path.pmd }
  match path.pmd with
  | .block leaf =>
      -- `pmd_sect`: the block maps the address directly and there is no PTE.
      {
        info with
        isBlockMapping := true
        isValid := true
        isWritable := leaf.write
        physAddr := leaf.pfn <<< pageShift
      }
  | _ =>
      match path.pte with
      | .page leaf =>
          {
            info with
            pteVal := path.pte
            isBlockMapping := false
            isValid := leaf.present
            isWritable := leaf.write
            physAddr := leaf.pfn <<< pageShift
          }
      | _ => info

/-- The walk of a page mapping reports it valid, with its true write permission. -/
theorem safetyMemWalkPgtable_isPage {path : TablePath} (addr : UInt64) (h : path.IsPage)
    : (safetyMemWalkPgtable addr path).isValid = true
      ∧ (safetyMemWalkPgtable addr path).isWritable = path.writable := by
  obtain ⟨pgd, p4d, pud, pmd, pte⟩ := path
  obtain ⟨⟨rfl, rfl, rfl, rfl⟩, leaf, rfl, present⟩ := h
  simp [safetyMemWalkPgtable, Entry.isNone, Entry.isBad, TablePath.writable,
    TablePath.leaf, present]

end SafetyIsolation.Kernel

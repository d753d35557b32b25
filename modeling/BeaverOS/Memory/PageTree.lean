import BeaverOS.Lib.RadixTree
import BeaverOS.Memory.Paging

/-!
# Page-table trees

The four-level page tables in physical memory, read as a radix tree of three
levels of tables below the root, and the translation of virtual pages that the
processor performs with them. Both kernels of the repository, the 32-bit loader
and the 64-bit kernel, build such trees.
-/

namespace BeaverOS.PageTree

open BeaverOS.ByteMemory
open BeaverOS.RadixTree
open BeaverOS.Paging

/-! ## Virtual pages -/

/-- The first two assertions of `map_page`: a canonical, page-aligned virtual
address. -/
def IsPage (virt : Word) : Prop :=
  (bits virt 47 64 = 0#64 ∨ bits virt 47 64 = 0x1ffff#64) ∧
    virt &&& 0xfff#64 = 0#64

instance (virt : Word) : Decidable (IsPage virt) :=
  inferInstanceAs (Decidable (_ ∧ _))

/-- The indices of `virt` in the upper three levels, root first. -/
def upperPath (virt : Word) : List Index :=
  [indexAt virt 39, indexAt virt 30, indexAt virt 21]

/-- The index of `virt` in its level-1 table. -/
def leafIndex (virt : Word) : Index := indexAt virt 12

@[simp]
theorem length_upperPath (virt : Word) : (upperPath virt).length = 3 := rfl

private theorem toNat_low_bits (virt : Word) :
    (virt &&& 0xfff#64).toNat = virt.toNat % 4096 := by
  rw [BitVec.toNat_and]
  exact Nat.and_two_pow_sub_one_eq_mod virt.toNat 12

theorem isPage_of_toNat {virt : Word}
    (canonical :
      virt.toNat / 2 ^ 47 = 0 ∨ virt.toNat / 2 ^ 47 = 0x1ffff)
    (aligned : virt.toNat % 4096 = 0) : IsPage virt := by
  have bound := virt.isLt
  have high := toNat_bits virt 47 64 (by decide)
  refine ⟨canonical.imp ?_ ?_, ?_⟩
  · intro low
    apply BitVec.eq_of_toNat_eq
    rw [high, low]
    rfl
  · intro top
    apply BitVec.eq_of_toNat_eq
    rw [high, top]
    rfl
  · apply BitVec.eq_of_toNat_eq
    rw [toNat_low_bits, aligned]
    rfl

theorem IsPage.aligned {virt : Word} (page : IsPage virt) :
    virt.toNat % 4096 = 0 := by
  rw [← toNat_low_bits, page.2]
  rfl

theorem IsPage.canonical {virt : Word} (page : IsPage virt) :
    virt.toNat / 2 ^ 47 = 0 ∨ virt.toNat / 2 ^ 47 = 0x1ffff := by
  have value := toNat_bits virt 47 64 (by decide)
  have bound := virt.isLt
  rcases page.1 with zero | ones
  · rw [zero] at value
    simp only [BitVec.toNat_ofNat] at value
    omega
  · rw [ones] at value
    simp only [BitVec.toNat_ofNat] at value
    omega

/-- A virtual page is determined by its four indices. -/
theorem IsPage.ext {virt other : Word}
    (page : IsPage virt) (otherPage : IsPage other)
    (samePath : upperPath virt = upperPath other)
    (sameLeaf : leafIndex virt = leafIndex other) :
    virt = other := by
  have index39 := congrArg Fin.val (List.cons.inj samePath).1
  have index30 := congrArg Fin.val
    (List.cons.inj (List.cons.inj samePath).2).1
  have index21 := congrArg Fin.val
    (List.cons.inj (List.cons.inj (List.cons.inj samePath).2).2).1
  have index12 := congrArg Fin.val sameLeaf
  simp only [leafIndex, indexAt_val] at index39 index30 index21 index12
  have lowVirt := page.aligned
  have lowOther := otherPage.aligned
  have highVirt := page.canonical
  have highOther := otherPage.canonical
  have boundVirt := virt.isLt
  have boundOther := other.isLt
  apply BitVec.eq_of_toNat_eq
  omega

/-! ## Translation -/

section Translation

variable (memory : Memory) (root : Nat) (virt : Word)

/-- The level-1 table of a page, if its three upper entries are present. -/
def leafTable : Option Nat := walk (child memory) root (upperPath virt)

/-- The level-1 entry of a page, if its three upper entries are present. -/
def leafEntry : Option Word :=
  (leafTable memory root virt).map fun table =>
    readEntry memory table (leafIndex virt)

/-- The frame and the flags that a page translates to. -/
def translation : Option (Word × Word) :=
  (leafEntry memory root virt).bind fun entry =>
    if Has entry pagePBit then some (frameOf entry, entry &&& ptFlagsMask)
    else none

end Translation

/-- The page that an address lies in. -/
def pageOf (address : Word) : Word :=
  BitVec.ofNat 64 (address.toNat / 4096 * 4096)

/-- The physical byte behind a virtual address, and the flags of its page. -/
def physicalAddress (translate : Word → Option (Word × Word))
    (address : Word) : Option (Nat × Word) :=
  (translate (pageOf address)).map fun target =>
    (target.1.toNat + address.toNat % 4096, target.2)

section Addresses

variable {translate : Word → Option (Word × Word)} {page : Word} {offset : Nat}

theorem toNat_page_add (aligned : page.toNat % 4096 = 0)
    (inside : offset < 4096) :
    (page + BitVec.ofNat 64 offset).toNat = page.toNat + offset := by
  have bound := page.isLt
  rw [BitVec.toNat_add, BitVec.toNat_ofNat]
  omega

theorem physicalAddress_page_add (aligned : page.toNat % 4096 = 0)
    (inside : offset < 4096) :
    physicalAddress translate (page + BitVec.ofNat 64 offset) =
      (translate page).map fun target =>
        (target.1.toNat + offset, target.2) := by
  have bound := page.isLt
  have address := toNat_page_add aligned inside
  have same : pageOf (page + BitVec.ofNat 64 offset) = page := by
    apply BitVec.eq_of_toNat_eq
    rw [pageOf, BitVec.toNat_ofNat, address]
    omega
  have remainder : (page.toNat + offset) % 4096 = offset := by omega
  rw [physicalAddress, same, address, remainder]

end Addresses

/-! ## Well-formed trees -/

/-- The tables below `root` form a tree: no table lies on two paths. -/
structure TableTree (memory : Memory) (root : Nat) : Prop where
  root_aligned : root % 4096 = 0
  root_bounded : root < 2 ^ 52
  separated : Separated (child memory) root 3

/-- `table` is the root or one of the tables below it. -/
abbrev IsTable (memory : Memory) (root table : Nat) : Prop :=
  Reached (child memory) root 3 table

section Trees

variable {memory memory' : Memory} {root table other : Nat} {virt : Word}
  {index below : Index} {path : List Index}

theorem child_bounds (linked : child memory table index = some other) :
    other % 4096 = 0 ∧ other < 2 ^ 52 := by
  unfold child at linked
  split at linked
  · cases linked
    exact toNat_frameOf_bounds _
  · cases linked

theorem walk_bounds (tree : TableTree memory root)
    (reached : walk (child memory) root path = some table) :
    table % 4096 = 0 ∧ table < 2 ^ 52 := by
  induction path using List.reverseRecOn with
  | nil =>
      cases reached
      exact ⟨tree.root_aligned, tree.root_bounded⟩
  | append_singleton path index _ =>
      rw [walk_snoc] at reached
      obtain ⟨parent, _, linked⟩ := Option.bind_eq_some_iff.mp reached
      exact child_bounds linked

theorem IsTable.bounds (tree : TableTree memory root)
    (isTable : IsTable memory root table) :
    table % 4096 = 0 ∧ table < 2 ^ 52 := by
  obtain ⟨path, _, reached⟩ := isTable
  exact walk_bounds tree reached

theorem isTable_of_leafTable (found : leafTable memory root virt = some table) :
    IsTable memory root table :=
  ⟨upperPath virt, by simp, found⟩

theorem child_eq_of_readEntry
    (same : readEntry memory' table index = readEntry memory table index) :
    child memory' table index = child memory table index := by
  unfold child
  rw [same]

/-- A change that keeps the children of all upper tables keeps the tree. -/
theorem TableTree.congr (tree : TableTree memory root)
    (same :
      ∀ path table index, path.length < 3 →
        walk (child memory) root path = some table →
        child memory' table index = child memory table index) :
    TableTree memory' root :=
  ⟨tree.root_aligned, tree.root_bounded,
    tree.separated.congr (walk_congr same)⟩

theorem leafTable_congr
    (same :
      ∀ path table index, path.length < 3 →
        walk (child memory) root path = some table →
        child memory' table index = child memory table index)
    (virt : Word) :
    leafTable memory' root virt = leafTable memory root virt :=
  walk_congr same (upperPath virt) (by simp)

theorem isTable_congr
    (same :
      ∀ path : List Index, path.length ≤ 3 →
        walk (child memory') root path = walk (child memory) root path) :
    IsTable memory' root table ↔ IsTable memory root table := by
  constructor
  · rintro ⟨path, short, reached⟩
    exact ⟨path, short, by rw [← same path short]; exact reached⟩
  · rintro ⟨path, short, reached⟩
    exact ⟨path, short, by rw [same path short]; exact reached⟩

/-- Two pages with one level-1 table share their upper indices. -/
theorem TableTree.upperPath_eq {other : Word}
    (tree : TableTree memory root)
    (first : leafTable memory root virt = some table)
    (second : leafTable memory root other = some table) :
    upperPath virt = upperPath other :=
  tree.separated _ _ table (by simp) (by simp) first second

/-- The level-1 table of a page is not the parent of another table. -/
theorem TableTree.leafTable_ne_upper
    (tree : TableTree memory root)
    (short : path.length < 3)
    (upper : walk (child memory) root path = some other)
    (leaf : leafTable memory root virt = some table) :
    other ≠ table := by
  intro equal
  subst equal
  have same := tree.separated _ _ other (by omega) (by simp) upper leaf
  have lengths := congrArg List.length same
  simp only [length_upperPath] at lengths
  omega

theorem leafEntry_of_leafTable
    (found : leafTable memory root virt = some table) :
    leafEntry memory root virt =
      some (readEntry memory table (leafIndex virt)) := by
  rw [leafEntry, found]
  rfl

theorem leafEntry_eq_none (absent : leafTable memory root virt = none) :
    leafEntry memory root virt = none := by
  rw [leafEntry, absent]
  rfl

theorem translation_of_leafEntry {entry : Word}
    (found : leafEntry memory root virt = some entry) :
    translation memory root virt =
      if Has entry pagePBit then some (frameOf entry, entry &&& ptFlagsMask)
      else none := by
  rw [translation, found]
  rfl

theorem translation_congr
    (same : leafEntry memory' root virt = leafEntry memory root virt) :
    translation memory' root virt = translation memory root virt := by
  rw [translation, same, translation]

end Trees

end BeaverOS.PageTree

import BeaverOS.Memory.Mapper
import BeaverOS.Memory.TableUpdate

/-!
# Well-formed mapper states

What `memory/mapper.c` relies on between calls: the page tables form a tree,
the window's own page table is the one that translates the window pages, and
the free list is a chain of frames none of which is a table. The lemmas say
what survives when only the window moves.
-/

namespace BeaverOS.MapperState

open BeaverOS.ByteMemory
open BeaverOS.RadixTree
open BeaverOS.Paging
open BeaverOS.Window
open BeaverOS.FrameAllocator
open BeaverOS.PageTree
open BeaverOS.TableUpdate

/-- The upper indices of the window pages, which the linker script puts at the
end of the address space. -/
def windowPath : List Index := [511, 511, 511]

/-- `virt` is one of the window pages. -/
def InWindow (layout : Layout) (virt : Word) : Prop :=
  upperPath virt = windowPath ∧
    pageTableSize - layout.windowSize ≤ (leafIndex virt).val

instance (layout : Layout) (virt : Word) :
    Decidable (InWindow layout virt) :=
  inferInstanceAs (Decidable (_ ∧ _))

/-- The page tables form a tree in which the window's page table is the one
that translates the window pages. -/
structure Tables (layout : Layout) (memory : Memory) (root : Nat) :
    Prop where
  tree : TableTree memory root
  window : walk (child memory) root windowPath = some layout.windowPt

/-- The page tables and the free list fit together. -/
structure WellFormed (layout : Layout) (state : Mapper)
    (frames : List Nat) : Prop where
  tables : Tables layout state.mem state.pml4.toNat
  free : FreeList state.mem state.firstFreeBlock frames
  distinct : frames.Nodup
  tables_used :
    ∀ table, IsTable state.mem state.pml4.toNat table → table ∉ frames

/-- No present leaf entry that carries `PAGE_F_BIT` names a table frame. -/
def FreeableLeaves (state : Mapper) : Prop :=
  ∀ virt entry,
    leafEntry state.mem state.pml4.toNat virt = some entry →
    Has entry pagePBit →
    Has entry pageFBit →
    ¬ IsTable state.mem state.pml4.toNat (frameOf entry).toNat

/-- The leaf entry of `virt` is present and frees its frame on unmap. -/
def FreesOnUnmap (state : Mapper) (virt : Word) : Prop :=
  ∃ entry,
    leafEntry state.mem state.pml4.toNat virt = some entry ∧
      Has entry pagePBit ∧ Has entry pageFBit

/-- An entry of the window's page table that `phys_look` rewrites. -/
def IsSlot (layout : Layout) (table : Nat) (index : Index) : Prop :=
  table = layout.windowPt ∧ pageTableSize - layout.windowSize ≤ index.val

section Entries

variable {layout : Layout} {memory memory' : Memory} {table : Nat}
  {index : Index}

/-- A table that is not the window's lies outside the slots. -/
theorem frame_disjoint_slots (aligned : table % 4096 = 0)
    (different : table ≠ layout.windowPt) :
    Disjoint (cells table 4096) (slotCells layout) :=
  (frames_disjoint aligned layout.windowPt_aligned different
    (Nat.le_refl _) (Nat.le_refl _)).mono_right slotCells_subset_windowPt

theorem entryCells_subset :
    cells (entryAddress table index) 8 ⊆ cells table 4096 := by
  have inside := entryAddress_mem_frame table index
  exact cells_subset inside.1 inside.2

theorem entryCells_disjoint_slots (aligned : table % 4096 = 0)
    (notSlot : ¬ IsSlot layout table index) :
    Disjoint (cells (entryAddress table index) 8) (slotCells layout) := by
  by_cases same : table = layout.windowPt
  · apply cells_disjoint
    left
    have below : index.val < pageTableSize - layout.windowSize :=
      Nat.lt_of_not_le fun above => notSlot ⟨same, above⟩
    simp only [slotAddress, entryAddress, same]
    omega
  · exact (frame_disjoint_slots aligned same).mono_left entryCells_subset

end Entries

/-! ## Changes that keep the mapped pages -/

/-- `memory'` has the page tables of `memory`, up to flags of upper entries
and the window's slots. -/
structure KeepsPages (layout : Layout) (root : Nat)
    (memory memory' : Memory) : Prop where
  child_eq :
    ∀ path table index, path.length < 3 →
      walk (child memory) root path = some table →
      child memory' table index = child memory table index
  leaf_eq :
    ∀ path table index, path.length = 3 →
      walk (child memory) root path = some table →
      ¬ IsSlot layout table index →
      readEntry memory' table index = readEntry memory table index

section Keeps

variable {layout : Layout} {root table : Nat}
  {memory memory' memory'' : Memory} {virt : Word} {index : Index}
  {path : List Index} {changed : Set Nat}

theorem KeepsPages.walk_eq (keeps : KeepsPages layout root memory memory') :
    ∀ path : List Index, path.length ≤ 3 →
      walk (child memory') root path = walk (child memory) root path :=
  walk_congr keeps.child_eq

theorem KeepsPages.trans (first : KeepsPages layout root memory memory')
    (second : KeepsPages layout root memory' memory'') :
    KeepsPages layout root memory memory'' where
  child_eq path table index short reached := by
    have reached' :=
      (first.walk_eq path (Nat.le_of_lt short)).trans reached
    rw [second.child_eq path table index short reached',
      first.child_eq path table index short reached]
  leaf_eq path table index long reached notSlot := by
    have reached' := (first.walk_eq path (Nat.le_of_eq long)).trans reached
    rw [second.leaf_eq path table index long reached' notSlot,
      first.leaf_eq path table index long reached notSlot]

theorem KeepsPages.tables (keeps : KeepsPages layout root memory memory')
    (tables : Tables layout memory root) : Tables layout memory' root :=
  ⟨tables.tree.congr keeps.child_eq,
    (keeps.walk_eq windowPath (by decide)).trans tables.window⟩

theorem KeepsPages.isTable_iff (keeps : KeepsPages layout root memory memory') :
    IsTable memory' root table ↔ IsTable memory root table :=
  isTable_congr keeps.walk_eq

theorem KeepsPages.leafTable_eq
    (keeps : KeepsPages layout root memory memory') (virt : Word) :
    leafTable memory' root virt = leafTable memory root virt :=
  keeps.walk_eq (upperPath virt) (by simp)

/-- The window's page table has no other pages than those of `windowPath`. -/
theorem Tables.not_isSlot (tables : Tables layout memory root)
    (found : leafTable memory root virt = some table)
    (outside : ¬ InWindow layout virt) :
    ¬ IsSlot layout table (leafIndex virt) := by
  rintro ⟨rfl, above⟩
  exact outside ⟨tables.tree.separated _ _ _ (by simp) (by decide) found
    tables.window, above⟩

theorem KeepsPages.leafEntry_eq
    (keeps : KeepsPages layout root memory memory')
    (tables : Tables layout memory root)
    (outside : ¬ InWindow layout virt) :
    leafEntry memory' root virt = leafEntry memory root virt := by
  rw [leafEntry, leafEntry, keeps.leafTable_eq]
  cases found : leafTable memory root virt with
  | none => rfl
  | some table =>
      exact congrArg some (keeps.leaf_eq _ table _ (length_upperPath virt)
        found (tables.not_isSlot found outside))

/-- No upper table is the window's page table. -/
theorem Tables.upper_ne_windowPt (tables : Tables layout memory root)
    (short : path.length < 3)
    (reached : walk (child memory) root path = some table) :
    table ≠ layout.windowPt := by
  intro equal
  subst equal
  have same := tables.tree.separated _ _ _ (by omega) (by decide) reached
    tables.window
  have lengths := congrArg List.length same
  simp only [windowPath, List.length_cons, List.length_nil] at lengths
  omega

theorem Tables.upper_not_isSlot (tables : Tables layout memory root)
    (short : path.length < 3)
    (reached : walk (child memory) root path = some table) :
    ¬ IsSlot layout table index :=
  fun slot => tables.upper_ne_windowPt short reached slot.1

theorem readEntry_of_agreeOff (tree : TableTree memory root)
    (agree : AgreeOff (slotCells layout ∪ changed) memory' memory)
    (spared :
      ∀ table, IsTable memory root table →
        Disjoint (cells table 4096) changed)
    (isTable : IsTable memory root table)
    (notSlot : ¬ IsSlot layout table index) :
    readEntry memory' table index = readEntry memory table index := by
  refine agree.readWord_eq (Set.disjoint_union_right.mpr ⟨?_, ?_⟩)
  · exact entryCells_disjoint_slots (isTable.bounds tree).1 notSlot
  · exact (spared table isTable).mono_left entryCells_subset

/-- Changes to slots and to bytes outside all tables keep the pages. -/
theorem KeepsPages.of_agreeOff (changed : Set Nat)
    (tables : Tables layout memory root)
    (agree : AgreeOff (slotCells layout ∪ changed) memory' memory)
    (spared :
      ∀ table, IsTable memory root table →
        Disjoint (cells table 4096) changed) :
    KeepsPages layout root memory memory' where
  child_eq path table index short reached :=
    child_eq_of_readEntry (readEntry_of_agreeOff tables.tree agree spared
      ⟨path, by omega, reached⟩ (tables.upper_not_isSlot short reached))
  leaf_eq path table index long reached notSlot :=
    readEntry_of_agreeOff tables.tree agree spared
      ⟨path, by omega, reached⟩ notSlot

/-- Moving the window keeps the pages. -/
theorem KeepsPages.of_slots (tables : Tables layout memory root)
    (agree : AgreeOff (slotCells layout) memory' memory) :
    KeepsPages layout root memory memory' :=
  KeepsPages.of_agreeOff ∅ tables
    (agree.mono Set.subset_union_left) fun _ _ => Set.disjoint_empty _

end Keeps

/-! ## Storing one leaf entry -/

section LeafStore

variable {layout : Layout} {root table : Nat} {memory memory' : Memory}
  {virt other value : Word}

/-- Storing a leaf entry changes that entry alone. -/
structure LeafStored (layout : Layout) (root : Nat)
    (memory memory' : Memory) (virt value : Word) : Prop where
  walk_eq :
    ∀ path : List Index, path.length ≤ 3 →
      walk (child memory') root path = walk (child memory) root path
  tables : Tables layout memory' root
  here : leafEntry memory' root virt = some value
  elsewhere :
    ∀ other, IsPage other → other ≠ virt → ¬ InWindow layout other →
      leafEntry memory' root other = leafEntry memory root other

theorem leafStored (value : Word) (tables : Tables layout memory root)
    (keeps : KeepsPages layout root memory memory')
    (page : IsPage virt)
    (found : leafTable memory root virt = some table) :
    LeafStored layout root memory
      (writeWord memory' (entryAddress table (leafIndex virt)) value)
      virt value := by
  have tables' := keeps.tables tables
  have updated := storeLeaf tables'.tree
    ((keeps.leafTable_eq virt).trans found) value
  have children := updated.child_eq
  have walks : ∀ path : List Index, path.length ≤ 3 →
      walk (child (writeWord memory' (entryAddress table (leafIndex virt))
        value)) root path = walk (child memory) root path :=
    fun path short =>
      (walk_congr children path short).trans (keeps.walk_eq path short)
  refine ⟨walks, ⟨tables'.tree.congr children, ?_⟩, updated.here, ?_⟩
  · exact (walks windowPath (by decide)).trans tables.window
  · intro other otherPage different outside
    rw [← keeps.leafEntry_eq tables outside]
    exact updated.elsewhere page otherPage different

end LeafStore

/-! ## Moves of the window -/

/-- Two states that differ at most in the position of the window. -/
structure SameButWindow (layout : Layout) (state looked : Mapper) : Prop where
  agree : AgreeOff (slotCells layout) looked.mem state.mem
  pml4 : looked.pml4 = state.pml4
  first : looked.firstFreeBlock = state.firstFreeBlock

section Window

variable {layout : Layout} {state looked : Mapper} {frames : List Nat}
  {table : Nat} {index : Index} {path : List Index}

theorem SameButWindow.refl (layout : Layout) (state : Mapper) :
    SameButWindow layout state state :=
  ⟨AgreeOff.refl _ _, rfl, rfl⟩

theorem SameButWindow.look (same : SameButWindow layout state looked)
    (phys : Word) :
    SameButWindow layout state (physLook layout looked phys) :=
  ⟨(agreeOff_physLook layout looked phys).trans same.agree,
    same.pml4, same.first⟩

theorem SameButWindow.keepsPages (same : SameButWindow layout state looked)
    {root : Nat} (tables : Tables layout state.mem root) :
    KeepsPages layout root state.mem looked.mem :=
  KeepsPages.of_slots tables same.agree

/-- A table frame's entry lies outside all free headers. -/
theorem WellFormed.header_disjoint_entry
    (wellFormed : WellFormed layout state frames)
    (isTable : IsTable state.mem state.pml4.toNat table) {index : Index}
    {frame : Nat} (member : frame ∈ frames) :
    Disjoint (cells frame 16) (cells (entryAddress table index) 8) := by
  have different : frame ≠ table := fun equal =>
    wellFormed.tables_used table isTable (equal ▸ member)
  refine (frames_disjoint (wellFormed.free.bounds member).2.1
    (isTable.bounds wellFormed.tables.tree).1 different (Nat.le_refl _)
    (by omega)).mono_right entryCells_subset

theorem Tables.isFrame_pml4
    (tables : Tables layout state.mem state.pml4.toNat) : IsFrame state.pml4 :=
  (isFrame_iff _).mpr ⟨tables.tree.root_aligned, tables.tree.root_bounded⟩

theorem WellFormed.isFrame_pml4
    (wellFormed : WellFormed layout state frames) : IsFrame state.pml4 :=
  wellFormed.tables.isFrame_pml4

/-- An upper entry, as the code reads it right after `phys_look`. -/
theorem load_upper (tables : Tables layout state.mem state.pml4.toNat)
    (same : SameButWindow layout state looked)
    (short : path.length < 3) {frame : Word} (virt : Word) (low : Nat)
    (reached :
      walk (child state.mem) state.pml4.toNat path = some frame.toNat)
    (isFrame : IsFrame frame) :
    load layout (physLook layout looked frame)
        (Mapper.pointerTo (physLook layout looked frame) virt low
          (low + 9)) =
      .ok (readEntry state.mem frame.toNat (indexAt virt low)) := by
  rw [Mapper.load_physLook isFrame]
  refine congrArg _ ((same.look frame).agree.readWord_eq ?_)
  exact entryCells_disjoint_slots ((isFrame_iff frame).mp isFrame).1
    (tables.upper_not_isSlot short reached)

/-- The leaf entry of a page outside the window, after the window moved. -/
theorem readEntry_leaf (tables : Tables layout state.mem state.pml4.toNat)
    {virt : Word} (outside : ¬ InWindow layout virt)
    (same : SameButWindow layout state looked)
    (found : leafTable state.mem state.pml4.toNat virt = some table) :
    readEntry looked.mem table (leafIndex virt) =
      readEntry state.mem table (leafIndex virt) :=
  (same.keepsPages tables).leaf_eq _ table _ (length_upperPath virt) found
    (tables.not_isSlot found outside)

/-- The free list survives a move of the window. -/
theorem WellFormed.free_looked (wellFormed : WellFormed layout state frames)
    (same : SameButWindow layout state looked) :
    FreeList looked.mem looked.firstFreeBlock frames := by
  rw [same.first]
  refine wellFormed.free.of_agreeOff same.agree fun frame member => ?_
  exact header_disjoint_slots layout (wellFormed.free.bounds member).2.1

end Window

end BeaverOS.MapperState

import BeaverOS.Memory.Calls
import BeaverOS.Memory.Conservation

/-!
# Free blocks off the page tables

Every header that the allocator can come to describes frames that are no
tables, and leads to another such header. The list of free frames is not asked
for, and may run in a circle: a frame that is given back twice leads to itself.
What is left is enough for the page tables, which no header is written into.
-/

namespace BeaverOS.Reserve

open BeaverOS.ByteMemory
open BeaverOS.BlockChain
open BeaverOS.RadixTree
open BeaverOS.Paging
open BeaverOS.Window
open BeaverOS.FrameAllocator
open BeaverOS.PageTree
open BeaverOS.Mapper
open BeaverOS.MapperState
open BeaverOS.UpperFlags
open BeaverOS.Populated

/-- The block whose header is at `head` lies off the tables, and its header
leads to one of `heads`. -/
structure Block (memory : Memory) (root : Nat) (heads : Set Nat)
    (head : Nat) : Prop where
  aligned : head % 4096 = 0
  positive : 0 < headerSize memory head
  bounded : head + 4096 * headerSize memory head ≤ 2 ^ 52
  unused :
    ∀ position < headerSize memory head,
      ¬ IsTable memory root (head + 4096 * position)
  next : headerNext memory head = 0 ∨ headerNext memory head ∈ heads

/-- The allocator comes to no other headers than those at `heads`. -/
structure OffTables (state : Mapper) (heads : Set Nat) : Prop where
  first :
    state.firstFreeBlock.toNat = 0 ∨ state.firstFreeBlock.toNat ∈ heads
  blocks : ∀ head ∈ heads, Block state.mem state.pml4.toNat heads head

section Blocks

variable {layout : Layout} {state state' : Mapper} {heads heads' : Set Nat}
  {head page size next root root' : Nat} {memory memory' : Memory}

theorem offTables_empty (empty : state.firstFreeBlock = 0#64) :
    OffTables state ∅ :=
  ⟨Or.inl (congrArg BitVec.toNat empty), fun _ member => member.elim⟩

theorem Block.notTable (block : Block memory root heads head) :
    ¬ IsTable memory root head :=
  block.unused 0 block.positive

/-- The same header, the same tables. -/
theorem Block.congr (block : Block memory root heads head)
    (header : headerSize memory' head = headerSize memory head ∧
      headerNext memory' head = headerNext memory head)
    (tables : ∀ frame, IsTable memory' root' frame ↔ IsTable memory root frame)
    (larger : heads ⊆ heads') : Block memory' root' heads' head := by
  obtain ⟨aligned, positive, bounded, unused, next⟩ := block
  refine ⟨aligned, ?_, ?_, ?_, ?_⟩
  · rw [header.1]
    exact positive
  · rw [header.1]
    exact bounded
  · intro position below
    rw [header.1] at below
    rw [tables]
    exact unused position below
  · rw [header.2]
    exact next.imp_right fun member => larger member

/-- Stores to tables and slots touch no header. -/
theorem OffTables.of_agreeOff (offTables : OffTables state heads)
    (tables : Tables layout state.mem state.pml4.toNat)
    (agree : AgreeOff
      (slotCells layout ∪ tableCells state.mem state.pml4.toNat) state'.mem
      state.mem)
    (same : ∀ frame, IsTable state'.mem state'.pml4.toNat frame ↔
      IsTable state.mem state.pml4.toNat frame)
    (first : state'.firstFreeBlock = state.firstFreeBlock) :
    OffTables state' heads := by
  refine ⟨?_, ?_⟩
  · rw [first]
    exact offTables.first
  · intro head member
    have block := offTables.blocks head member
    exact block.congr (header_eq agree (header_disjoint_of_not_table tables
      block.aligned block.notTable)) same subset_rfl

/-- The window moves. -/
theorem OffTables.look (offTables : OffTables state heads)
    (tables : Tables layout state.mem state.pml4.toNat)
    (same : SameButWindow layout state state') : OffTables state' heads := by
  refine offTables.of_agreeOff tables (same.agree.mono Set.subset_union_left) ?_
    same.first
  intro frame
  rw [same.pml4]
  exact (same.keepsPages tables).isTable_iff

/-- A header is written for a block off the tables. -/
theorem OffTables.put (offTables : OffTables state heads)
    (tables : Tables layout state.mem state.pml4.toNat)
    (aligned : page % 4096 = 0) (positive : 0 < size)
    (bounded : page + 4096 * size ≤ 2 ^ 52)
    (unused : ∀ position < size,
      ¬ IsTable state.mem state.pml4.toNat (page + 4096 * position))
    (linked : next = 0 ∨ next ∈ heads)
    (agree : AgreeOff (slotCells layout ∪ cells page 16) state'.mem state.mem)
    (sizeEq : headerSize state'.mem page = size)
    (nextEq : headerNext state'.mem page = next)
    (pml4 : state'.pml4 = state.pml4)
    (first : state'.firstFreeBlock.toNat = page) :
    OffTables state' (insert page heads) ∧ SparesTables layout state state' := by
  have header : page + 16 ≤ page + 4096 := by omega
  have spares : SparesTables layout state state' := by
    refine ⟨pml4, cells page 16, agree, ?_⟩
    intro table isTable
    have different : page ≠ table := fun equal =>
      unused 0 positive (equal ▸ isTable)
    exact (frames_disjoint aligned (isTable.bounds tables.tree).1 different
      (Nat.le_refl _) header).symm
  have same : ∀ frame, IsTable state'.mem state'.pml4.toNat frame ↔
      IsTable state.mem state.pml4.toNat frame := by
    intro frame
    rw [pml4]
    exact (spares.keeps tables).isTable_iff
  refine ⟨⟨Or.inr (first ▸ Set.mem_insert _ _), ?_⟩, spares⟩
  intro head member
  by_cases here : head = page
  · subst here
    refine ⟨aligned, sizeEq ▸ positive, sizeEq ▸ bounded, ?_, ?_⟩
    · intro position below
      rw [same]
      exact unused position (sizeEq ▸ below)
    · rw [nextEq]
      exact linked.imp_right fun member => Set.mem_insert_of_mem _ member
  · have block := offTables.blocks head (member.resolve_left here)
    refine block.congr (header_eq agree ?_) same (Set.subset_insert _ _)
    refine Set.disjoint_union_right.mpr
      ⟨header_disjoint_slots layout block.aligned, ?_⟩
    have headBound : head + 16 ≤ head + 4096 := by omega
    exact (frames_disjoint block.aligned aligned here (Nat.le_refl _)
      headBound).mono_right (cells_subset (Nat.le_refl _) header)

end Blocks

/-! ## The allocator's calls -/

section Allocator

variable {layout : Layout} {state state' : Mapper} {heads : Set Nat}
  {page length : Word}

theorem freePage_offTables (offTables : OffTables state heads)
    (tables : Tables layout state.mem state.pml4.toNat) (frame : IsFrame page)
    (notTable : ¬ IsTable state.mem state.pml4.toNat page.toNat)
    (freed : freePage layout state page = .ok state') :
    OffTables state' (insert page.toNat heads) ∧
      SparesTables layout state state' := by
  obtain ⟨aligned, bounded⟩ := (isFrame_iff page).mp frame
  rw [freePage_eq frame] at freed
  cases freed
  refine offTables.put tables aligned Nat.one_pos (by omega) ?_
    offTables.first ?_ headerSize_putHeader headerNext_putHeader rfl rfl
  · intro position below
    rw [Nat.lt_one_iff.mp below]
    exact notTable
  · exact (agreeOff_putHeader.mono Set.subset_union_right).trans
      ((agreeOff_physLook layout state page).mono Set.subset_union_left)

theorem addPhysMem_offTables (offTables : OffTables state heads)
    (tables : Tables layout state.mem state.pml4.toNat) (frame : IsFrame page)
    (long : 4096 ≤ length.toNat)
    (bounded : page.toNat + length.toNat ≤ 2 ^ 52)
    (unused : ∀ frame ∈ addedFrames page length,
      ¬ IsTable state.mem state.pml4.toNat frame)
    (added : addPhysMem layout state page length = .ok state') :
    OffTables state' (insert page.toNat heads) ∧
      SparesTables layout state state' := by
  have size : (length / 4096#64).toNat = length.toNat / 4096 := by
    rw [BitVec.toNat_udiv]
    rfl
  rw [addPhysMem_eq frame] at added
  cases added
  refine offTables.put tables ((isFrame_iff page).mp frame).1
    (by omega : 0 < length.toNat / 4096) (by omega) ?_ offTables.first ?_
    (headerSize_putHeader.trans size) headerNext_putHeader rfl rfl
  · intro position below
    exact unused _ (mem_blockFrames.mpr ⟨position, below, rfl⟩)
  · exact (agreeOff_putHeader.mono Set.subset_union_right).trans
      ((agreeOff_physLook layout state page).mono Set.subset_union_left)

/-- The header of a block moves up by one frame of the block. -/
theorem allocPage_offTables (offTables : OffTables state heads)
    (tables : Tables layout state.mem state.pml4.toNat)
    (allocated : allocPage layout state = .ok (page, state')) :
    (∃ heads', OffTables state' heads') ∧
      SparesTables layout state state' := by
  have nonempty : state.firstFreeBlock ≠ 0#64 := by
    intro empty
    rw [allocPage_empty empty] at allocated
    cases allocated
  have member := offTables.first.resolve_left fun zero =>
    nonempty (BitVec.eq_of_toNat_eq zero)
  have block := offTables.blocks _ member
  have positive := block.positive
  have bounded := block.bounded
  have aligned := block.aligned
  have frame : IsFrame state.firstFreeBlock :=
    (isFrame_iff _).mpr ⟨aligned, by omega⟩
  have sizeEq := readWord_header_physLook layout state state.firstFreeBlock
    aligned (Or.inl rfl)
  have nextEq := readWord_header_physLook layout state state.firstFreeBlock
    aligned (Or.inr rfl)
  have looked := (SameButWindow.refl layout state).look state.firstFreeBlock
  have lookedOff := offTables.look tables looked
  by_cases single : readWord (physLook layout state state.firstFreeBlock).mem
      state.firstFreeBlock.toNat = 1#64
  · rw [allocPage_single nonempty frame single] at allocated
    cases allocated
    refine ⟨⟨heads, ⟨?_, lookedOff.blocks⟩⟩, rfl, ∅, ?_,
      fun _ _ => Set.disjoint_empty _⟩
    · rw [nextEq]
      exact block.next
    · exact looked.agree.mono Set.subset_union_left
  · have several : 2 ≤ headerSize state.mem state.firstFreeBlock.toNat := by
      have notOne : headerSize state.mem state.firstFreeBlock.toNat ≠ 1 := by
        intro one
        rw [sizeEq] at single
        exact single (BitVec.eq_of_toNat_eq one)
      omega
    have above : (state.firstFreeBlock + 4096#64).toNat =
        state.firstFreeBlock.toNat + 4096 := by
      rw [BitVec.toNat_add]
      simp only [BitVec.toNat_ofNat]
      omega
    have aboveFrame : IsFrame (state.firstFreeBlock + 4096#64) := by
      rw [isFrame_iff, above]
      omega
    have smaller : (readWord state.mem state.firstFreeBlock.toNat -
        1#64).toNat = headerSize state.mem state.firstFreeBlock.toNat - 1 := by
      have bound := (readWord state.mem state.firstFreeBlock.toNat).isLt
      rw [headerSize] at several ⊢
      rw [BitVec.toNat_sub]
      simp only [BitVec.toNat_ofNat]
      omega
    rw [allocPage_several nonempty frame aboveFrame single, sizeEq,
      nextEq] at allocated
    cases allocated
    refine And.imp_left (fun after => ⟨_, after⟩) (offTables.put tables
      (by omega) (by omega) (by omega) ?_ block.next ?_
      (headerSize_putHeader.trans smaller) headerNext_putHeader rfl rfl)
    · intro position below
      have inside := block.unused (position + 1) (by omega)
      rw [Nat.mul_add, Nat.mul_one, Nat.add_comm (4096 * position),
        ← Nat.add_assoc] at inside
      rw [above]
      exact inside
    · have again := agreeOff_physLook layout
        { physLook layout state state.firstFreeBlock with
          firstFreeBlock := state.firstFreeBlock + 4096#64 }
        (state.firstFreeBlock + 4096#64)
      exact (agreeOff_putHeader.mono Set.subset_union_right).trans
        ((again.trans looked.agree).mono Set.subset_union_left)

end Allocator

end BeaverOS.Reserve

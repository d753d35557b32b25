import BeaverOS.Memory.MapperState

/-!
# Flags in upper entries

On its way down `map_page` ORs flags into the three upper entries of a page.
`UpperFlagged` says which upper entries have got them, and that nothing else
about the page tables has changed.
-/

namespace BeaverOS.UpperFlags

open BeaverOS.ByteMemory
open BeaverOS.RadixTree
open BeaverOS.Paging
open BeaverOS.Window
open BeaverOS.FrameAllocator
open BeaverOS.PageTree
open BeaverOS.Mapper
open BeaverOS.MapperState

/-- The bytes of all tables. -/
def tableCells (memory : Memory) (root : Nat) : Set Nat :=
  fun cell => ∃ table, IsTable memory root table ∧ cell ∈ cells table 4096

/-- `memory'` is `memory` with `flags` OR-ed into the present upper entries
whose path is marked. The path of an entry ends with its index. -/
structure UpperFlagged (layout : Layout) (root : Nat) (flags : Word)
    (marked : Set (List Index)) (memory memory' : Memory) : Prop where
  present :
    ∀ path table index, path.length < 3 →
      walk (child memory) root path = some table →
      path ++ [index] ∈ marked → Has (readEntry memory table index) pagePBit
  flagged :
    ∀ path table index, path.length < 3 →
      walk (child memory) root path = some table →
      path ++ [index] ∈ marked →
      readEntry memory' table index = readEntry memory table index ||| flags
  unflagged :
    ∀ path table index, path.length < 3 →
      walk (child memory) root path = some table →
      path ++ [index] ∉ marked →
      readEntry memory' table index = readEntry memory table index
  leaf_eq :
    ∀ path table index, path.length = 3 →
      walk (child memory) root path = some table →
      ¬ IsSlot layout table index →
      readEntry memory' table index = readEntry memory table index
  agree :
    AgreeOff (slotCells layout ∪ tableCells memory root) memory' memory

section Flags

variable {layout : Layout} {root table : Nat} {flags : Word}
  {marked : Set (List Index)} {memory memory' memory'' : Memory}
  {path : List Index} {index : Index}

/-- Moving the window marks nothing. -/
theorem UpperFlagged.of_slots (flags : Word)
    (tables : Tables layout memory root)
    (agree : AgreeOff (slotCells layout) memory' memory) :
    UpperFlagged layout root flags ∅ memory memory' where
  present := fun _ _ _ _ _ isMarked => isMarked.elim
  flagged := fun _ _ _ _ _ isMarked => isMarked.elim
  unflagged := by
    intro path table index short reached _
    refine agree.readWord_eq (entryCells_disjoint_slots
      (walk_bounds tables.tree reached).1 ?_)
    exact tables.upper_not_isSlot short reached
  leaf_eq := by
    intro path table index _ reached notSlot
    exact agree.readWord_eq (entryCells_disjoint_slots
      (walk_bounds tables.tree reached).1 notSlot)
  agree := agree.mono Set.subset_union_left

/-- The window moves again. -/
theorem UpperFlagged.look
    (flagged : UpperFlagged layout root flags marked memory memory')
    (tables : Tables layout memory root)
    (agree : AgreeOff (slotCells layout) memory'' memory') :
    UpperFlagged layout root flags marked memory memory'' := by
  have same : ∀ path table index, path.length ≤ 3 →
      walk (child memory) root path = some table →
      ¬ IsSlot layout table index →
      readEntry memory'' table index = readEntry memory' table index := by
    intro path table index _ reached notSlot
    exact agree.readWord_eq (entryCells_disjoint_slots
      (walk_bounds tables.tree reached).1 notSlot)
  constructor
  · exact flagged.present
  · intro path table index short reached isMarked
    rw [same path table index (Nat.le_of_lt short) reached
      (tables.upper_not_isSlot short reached)]
    exact flagged.flagged path table index short reached isMarked
  · intro path table index short reached notMarked
    rw [same path table index (Nat.le_of_lt short) reached
      (tables.upper_not_isSlot short reached)]
    exact flagged.unflagged path table index short reached notMarked
  · intro path table index long reached notSlot
    rw [same path table index (Nat.le_of_eq long) reached notSlot]
    exact flagged.leaf_eq path table index long reached notSlot
  · exact (agree.mono Set.subset_union_left).trans flagged.agree

/-- One more present entry gets the flags. -/
theorem UpperFlagged.store
    (flagged : UpperFlagged layout root flags marked memory memory')
    (tables : Tables layout memory root) (short : path.length < 3)
    (reached : walk (child memory) root path = some table)
    (present : Has (readEntry memory table index) pagePBit) :
    UpperFlagged layout root flags (insert (path ++ [index]) marked) memory
      (writeWord memory' (entryAddress table index)
        (readEntry memory' table index ||| flags)) := by
  have aligned := (walk_bounds tables.tree reached).1
  have others : ∀ other upper below, other.length ≤ 3 →
      walk (child memory) root other = some upper →
      other ++ [below] ≠ path ++ [index] →
      readEntry
          (writeWord memory' (entryAddress table index)
            (readEntry memory' table index ||| flags)) upper below =
        readEntry memory' upper below := by
    intro other upper below otherShort otherReached different
    refine readWord_writeWord_of_disjoint (entryAddress_disjoint
      (walk_bounds tables.tree otherReached).1 aligned ?_)
    rintro ⟨rfl, rfl⟩
    exact different (congrArg (· ++ [below])
      (tables.tree.separated _ _ _ otherShort (by omega) otherReached
        reached))
  constructor
  · intro other upper below otherShort otherReached isMarked
    rcases Set.mem_insert_iff.mp isMarked with same | isMarked
    · obtain ⟨rfl, last⟩ := List.append_inj' same rfl
      cases List.singleton_inj.mp last
      rw [reached] at otherReached
      cases otherReached
      exact present
    · exact flagged.present other upper below otherShort otherReached isMarked
  · intro other upper below otherShort otherReached isMarked
    by_cases same : other ++ [below] = path ++ [index]
    · obtain ⟨rfl, last⟩ := List.append_inj' same rfl
      cases List.singleton_inj.mp last
      rw [reached] at otherReached
      cases otherReached
      rw [readEntry, readWord_writeWord_same]
      by_cases before : other ++ [index] ∈ marked
      · rw [flagged.flagged other table index short reached before,
          BitVec.or_assoc, BitVec.or_self]
      · rw [flagged.unflagged other table index short reached before]
    · rw [others other upper below (Nat.le_of_lt otherShort) otherReached same]
      exact flagged.flagged other upper below otherShort otherReached
        ((Set.mem_insert_iff.mp isMarked).resolve_left same)
  · intro other upper below otherShort otherReached notMarked
    have different : other ++ [below] ≠ path ++ [index] :=
      fun same => notMarked (Set.mem_insert_iff.mpr (Or.inl same))
    rw [others other upper below (Nat.le_of_lt otherShort) otherReached
      different]
    exact flagged.unflagged other upper below otherShort otherReached
      fun before => notMarked (Set.mem_insert_of_mem _ before)
  · intro other leaf below long otherReached notSlot
    rw [others other leaf below (Nat.le_of_eq long) otherReached ?_]
    · exact flagged.leaf_eq other leaf below long otherReached notSlot
    · intro same
      have lengths := congrArg List.length (List.append_inj' same rfl).1
      omega
  · refine (agreeOff_writeWord _ _ _).mono ?_ |>.trans flagged.agree
    intro cell inside
    exact Or.inr ⟨table, ⟨path, Nat.le_of_lt short, reached⟩,
      entryCells_subset inside⟩

/-- The flags do not lead elsewhere. -/
theorem UpperFlagged.keeps
    (flagged : UpperFlagged layout root flags marked memory memory')
    (noFrame : frameOf flags = 0#64) :
    KeepsPages layout root memory memory' where
  child_eq := by
    intro path table index short reached
    by_cases isMarked : path ++ [index] ∈ marked
    · have present := flagged.present path table index short reached isMarked
      have changed := flagged.flagged path table index short reached isMarked
      rw [child, child, changed, if_pos present,
        if_pos (has_or.mpr (Or.inl present)), frameOf_or, noFrame,
        BitVec.or_zero]
    · exact child_eq_of_readEntry
        (flagged.unflagged path table index short reached isMarked)
  leaf_eq := flagged.leaf_eq

/-! ## The walk of `map_page` -/

theorem present_of_child {next : Nat}
    (linked : child memory table index = some next) :
    Has (readEntry memory table index) pagePBit := by
  unfold child at linked
  split at linked
  · next present => exact present
  · cases linked

section Walk

variable {state state' : Mapper} {frame virt : Word} {low : Nat}

/-- One upper level of `map_page` on a present entry. -/
theorem UpperFlagged.descend {next : Nat}
    (flagged : UpperFlagged layout root flags marked state.mem state'.mem)
    (tables : Tables layout state.mem root) (noFrame : frameOf flags = 0#64)
    (short : path.length < 3)
    (reached : walk (child state.mem) root path = some frame.toNat)
    (linked : child state.mem frame.toNat (indexAt virt low) = some next) :
    UpperFlagged layout root flags
        (insert (path ++ [indexAt virt low]) marked) state.mem
        (Mapper.descend layout virt low flags (frame, state')).2.mem ∧
      (Mapper.descend layout virt low flags (frame, state')).1.toNat = next ∧
      walk (child state.mem) root (path ++ [indexAt virt low]) =
        some (Mapper.descend layout virt low flags (frame, state')).1.toNat := by
  have looked := flagged.look tables
    (agreeOff_physLook layout state' frame)
  have leads :
      (Mapper.descend layout virt low flags (frame, state')).1.toNat =
        next := by
    have entry : frameOf (readEntry (physLook layout state' frame).mem
        frame.toNat (indexAt virt low)) =
        frameOf (readEntry state.mem frame.toNat (indexAt virt low)) := by
      by_cases isMarked : path ++ [indexAt virt low] ∈ marked
      · rw [looked.flagged path _ _ short reached isMarked, frameOf_or,
          noFrame, BitVec.or_zero]
      · rw [looked.unflagged path _ _ short reached isMarked]
    rw [Mapper.descend, leveledEntry, frameOf_or, noFrame, BitVec.or_zero,
      entry]
    exact (frame_of_child linked).symm
  refine ⟨looked.store tables short reached (present_of_child linked), leads,
    ?_⟩
  rw [walk_snoc_of_walk reached, linked, leads]

/-- The paths of the upper entries of a page, the last one first. -/
def upperEntries (virt : Word) : Set (List Index) :=
  insert (upperPath virt)
    (insert [indexAt virt 39, indexAt virt 30] (insert [indexAt virt 39] ∅))

/-- Where all tables of a page exist, `map_page` comes to its level-1 table, and
has flagged its three upper entries. -/
theorem toPt_flagged (layout : Layout) (state : Mapper) (flags : Word)
    (tables : Tables layout state.mem state.pml4.toNat)
    (found : leafTable state.mem state.pml4.toNat virt = some table) :
    UpperFlagged layout state.pml4.toNat (flags &&& pml4FlagsMask)
        (upperEntries virt) state.mem (toPt layout state virt flags).2.mem ∧
      (toPt layout state virt flags).1.toNat = table := by
  have noFrame : frameOf (flags &&& pml4FlagsMask) = 0#64 :=
    frameOf_and_of_disjoint (by decide)
  rw [leafTable, upperPath, walk] at found
  obtain ⟨pdp, toPdpEq, found⟩ := Option.bind_eq_some_iff.mp found
  rw [walk] at found
  obtain ⟨pd, toPdEq, found⟩ := Option.bind_eq_some_iff.mp found
  rw [walk] at found
  obtain ⟨pt, toPtEq, found⟩ := Option.bind_eq_some_iff.mp found
  cases found
  have start := UpperFlagged.of_slots (flags &&& pml4FlagsMask) tables
    (AgreeOff.refl (slotCells layout) state.mem)
  obtain ⟨first, pdpEq, pdpReached⟩ := start.descend tables noFrame (by decide)
    (walk_nil state.pml4.toNat) toPdpEq
  rw [← pdpEq] at toPdEq
  obtain ⟨second, pdEq, pdReached⟩ := first.descend tables noFrame (by simp)
    pdpReached toPdEq
  rw [← pdEq] at toPtEq
  obtain ⟨third, ptEq, _⟩ := second.descend tables noFrame (by simp)
    pdReached toPtEq
  exact ⟨third, ptEq⟩

end Walk

end Flags

end BeaverOS.UpperFlags

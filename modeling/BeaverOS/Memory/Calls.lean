import BeaverOS.Memory.Populated

/-!
# Calls on populated pages

What one call of `map_page` on a page whose tables exist leaves of a
well-formed state: one new leaf entry, and the free list that goes with it.
-/

namespace BeaverOS.Calls

open BeaverOS.ByteMemory
open BeaverOS.BlockChain
open BeaverOS.RadixTree
open BeaverOS.Paging
open BeaverOS.Window
open BeaverOS.FrameAllocator
open BeaverOS.PageTree
open BeaverOS.Mapper
open BeaverOS.MapperState
open BeaverOS.UpperFlags
open BeaverOS.Unmap
open BeaverOS.Populated

/-- The leaf entry of `virt` is now `value`, the free list is `frames`, and
everything else is as before. -/
structure Updated (layout : Layout) (state state' : Mapper)
    (virt value : Word) (frames : List Nat) : Prop where
  pml4 : state'.pml4 = state.pml4
  wellFormed : WellFormed layout state' frames
  stored :
    LeafStored layout state.pml4.toNat state.mem state'.mem virt value

section Updates

variable {layout : Layout} {state state' : Mapper} {virt value other : Word}
  {frames : List Nat} {table : Nat}

theorem Updated.here (updated : Updated layout state state' virt value frames) :
    leafEntry state'.mem state'.pml4.toNat virt = some value := by
  rw [updated.pml4]
  exact updated.stored.here

theorem Updated.elsewhere
    (updated : Updated layout state state' virt value frames)
    (page : IsPage other) (different : other ≠ virt)
    (outside : ¬ InWindow layout other) :
    leafEntry state'.mem state'.pml4.toNat other =
      leafEntry state.mem state.pml4.toNat other := by
  rw [updated.pml4]
  exact updated.stored.elsewhere other page different outside

theorem Updated.isTable_iff
    (updated : Updated layout state state' virt value frames) :
    IsTable state'.mem state'.pml4.toNat table ↔
      IsTable state.mem state.pml4.toNat table := by
  rw [updated.pml4]
  exact isTable_congr updated.stored.walk_eq

theorem leafTable_of_leafEntry {entry : Word}
    (found : leafEntry state.mem state.pml4.toNat virt = some entry) :
    ∃ table, leafTable state.mem state.pml4.toNat virt = some table ∧
      entry = readEntry state.mem table (leafIndex virt) := by
  obtain ⟨table, walked, same⟩ := Option.map_eq_some_iff.mp found
  exact ⟨table, walked, same.symm⟩

end Updates

/-! ## Mapping -/

section Mapping

variable {layout : Layout} {state state' after : Mapper}
  {virt phys flags entry : Word} {frames rest : List Nat} {table : Nat}

/-- A call that returns got past its assertions. -/
theorem asserted_of_mapPage
    (mapped : mapPage layout state virt phys flags = .ok state') :
    IsPage virt ∧ IsFrame phys := by
  unfold mapPage at mapped
  split at mapped
  · cases mapped
  split at mapped
  · cases mapped
  split at mapped
  · cases mapped
  · next canonical aligned physical =>
    exact ⟨⟨not_not.mp canonical, not_not.mp aligned⟩, not_not.mp physical⟩

/-- The last stores of `map_page`, after a leaf step that leaves the tables
alone and the frames `rest` free. -/
theorem updated_of_spares (wellFormed : WellFormed layout state frames)
    (page : IsPage virt)
    (found : leafTable state.mem state.pml4.toNat virt = some table)
    (spares : SparesTables layout (lookedAt layout state virt flags) after)
    (free : FreeList after.mem after.firstFreeBlock rest)
    (distinct : rest.Nodup)
    (unused : ∀ used, IsTable state.mem state.pml4.toNat used → used ∉ rest)
    (target : Word) :
    Updated layout state
      (leafWritten layout after (toPt layout state virt flags).1 virt
        ((flags &&& ptFlagsMask) ||| target)) virt
      ((flags &&& ptFlagsMask) ||| target) rest := by
  have leafMapped : LeafMapped layout state
      (leafWritten layout after (toPt layout state virt flags).1 virt
        ((flags &&& ptFlagsMask) ||| target)) virt flags target :=
    leafMapped_of_spares wellFormed.tables page found spares
  have stored := leafMapped.stored
  have same : ∀ used,
      IsTable (leafWritten layout after (toPt layout state virt flags).1 virt
        ((flags &&& ptFlagsMask) ||| target)).mem state.pml4.toNat used ↔
      IsTable state.mem state.pml4.toNat used :=
    fun used => isTable_congr stored.walk_eq
  refine ⟨leafMapped.pml4, ⟨?_, ?_, distinct, ?_⟩, stored⟩
  · rw [leafMapped.pml4]
    exact stored.tables
  · have tableEq : (toPt layout state virt flags).1.toNat = table :=
      (toPt_flagged layout state flags wellFormed.tables found).2
    have isTable := isTable_of_leafTable found
    refine FreeList.of_agreeOff free.afterLook (agreeOff_writeWord _ _ _) ?_
    intro frame member
    have different : frame ≠ table := fun equal =>
      unused table isTable (equal ▸ member)
    rw [tableEq]
    exact (frames_disjoint (free.bounds member).2.1
      (isTable.bounds wellFormed.tables.tree).1 different (Nat.le_refl _)
      (by omega)).mono_right entryCells_subset
  · intro used isTable
    rw [leafMapped.pml4] at isTable
    exact unused used ((same used).mp isTable)

/-- An anonymous page that is not present gets the first free frame. -/
theorem mapPage_allocates (wellFormed : WellFormed layout state frames)
    (page : IsPage virt) (outside : ¬ InWindow layout virt)
    (found : leafEntry state.mem state.pml4.toNat virt = some entry)
    (absent : ¬ Has entry pagePBit) (present : Has flags pagePBit)
    (mapped : mapPage layout state virt mapAnon flags = .ok state') :
    ∃ rest, frames = state.firstFreeBlock.toNat :: rest ∧
      Updated layout state state' virt
        ((flags &&& ptFlagsMask) ||| state.firstFreeBlock) rest := by
  obtain ⟨table, walked, rfl⟩ := leafTable_of_leafEntry found
  obtain ⟨target, after, leafStep, spares, rfl⟩ :=
    leafStep_spares wellFormed page outside walked
      (fun explicit => absurd rfl explicit) isFrame_zero present mapped
  have looked := lookedAt_wellFormed wellFormed flags walked
  cases leafStep with
  | reused _ isPresent => exact absurd isPresent absent
  | released explicit _ _ _ => exact absurd rfl explicit
  | placed explicit _ => exact absurd rfl explicit
  | allocated _ _ allocated =>
      cases frames with
      | nil =>
          rw [allocPage_empty (looked.free.first_eq_zero_iff.mpr rfl)]
            at allocated
          cases allocated
      | cons frame rest =>
          obtain ⟨result, returned, taken⟩ : ∃ result,
              allocPage layout (lookedAt layout state virt flags) =
                .ok (state.firstFreeBlock, result) ∧
              Taken layout (lookedAt layout state virt flags) result rest :=
            allocPage_spec looked.free looked.distinct
          rw [returned] at allocated
          cases allocated
          have first : state.firstFreeBlock.toNat = frame :=
            wellFormed.free.first_eq
          refine ⟨rest, by rw [first], ?_⟩
          exact updated_of_spares wellFormed page walked spares taken.free
            (List.nodup_cons.mp wellFormed.distinct).2
            (fun used isTable member => wellFormed.tables_used used isTable
              (List.mem_cons_of_mem frame member)) _

/-- A page keeps its frame, or it gets a frame for an entry that frees
nothing. -/
theorem mapPage_replaces (wellFormed : WellFormed layout state frames)
    (page : IsPage virt) (outside : ¬ InWindow layout virt)
    (found : leafEntry state.mem state.pml4.toNat virt = some entry)
    (keeps : phys = mapAnon → Has entry pagePBit)
    (unmarked : phys ≠ mapAnon → phys ≠ frameOf entry →
      ¬ Has entry pageFBit)
    (frame : IsFrame phys) (present : Has flags pagePBit) :
    ∃ state', mapPage layout state virt phys flags = .ok state' ∧
      Updated layout state state' virt
        ((flags &&& ptFlagsMask) |||
          if phys = mapAnon then frameOf entry else phys) frames := by
  obtain ⟨table, walked, rfl⟩ := leafTable_of_leafEntry found
  have looked := lookedAt_wellFormed wellFormed flags walked
  rcases mapPage_returns wellFormed page outside walked frame present with
    ⟨state', mapped⟩ | ⟨_, anonymous, absent, _⟩
  · refine ⟨state', mapped, ?_⟩
    have step := leafStep_of_mapPage page frame present
      wellFormed.isFrame_pml4 mapped
    have tableEq : (toPt layout state virt flags).1.toNat = table :=
      (toPt_flagged layout state flags wellFormed.tables walked).2
    have entryEq := lookedAt_leaf wellFormed.tables outside flags walked
    rw [lookedAt] at entryEq
    rw [tableEq, entryEq] at step
    obtain ⟨target, after, leafStep, rfl⟩ := step
    have same : after = lookedAt layout state virt flags ∧
        target = if phys = mapAnon then
          frameOf (readEntry state.mem table (leafIndex virt)) else phys := by
      cases leafStep with
      | reused anonymous _ => exact ⟨rfl, (if_pos anonymous).symm⟩
      | allocated anonymous absent _ =>
          exact absurd (keeps anonymous) absent
      | released explicit different marked _ =>
          exact absurd marked (unmarked explicit different)
      | placed explicit _ => exact ⟨rfl, (if_neg explicit).symm⟩
    rw [same.1, same.2]
    exact updated_of_spares wellFormed page walked
      (SparesTables.refl layout _) looked.free wellFormed.distinct
      wellFormed.tables_used _
  · exact absurd (keeps anonymous) absent

/-- The free list after `entry` gave its frame back. Frame 0 ends the list. -/
def givenBack (entry : Word) (frames : List Nat) : List Nat :=
  if frameOf entry = 0#64 then [] else (frameOf entry).toNat :: frames

theorem mem_givenBack {frame : Nat} (member : frame ∈ givenBack entry frames) :
    frame = (frameOf entry).toNat ∨ frame ∈ frames := by
  rw [givenBack] at member
  split at member
  · exact absurd member List.not_mem_nil
  · exact List.mem_cons.mp member

/-- `free_page`, frame 0 included. -/
theorem freePage_givenBack
    (free : FreeList state.mem state.firstFreeBlock frames)
    (distinct : frames.Nodup) (fresh : (frameOf entry).toNat ∉ frames)
    (freed : freePage layout state (frameOf entry) = .ok after) :
    FreeList after.mem after.firstFreeBlock (givenBack entry frames) ∧
      (givenBack entry frames).Nodup := by
  by_cases zero : frameOf entry = 0#64
  · rw [zero, freePage_eq isFrame_zero] at freed
    cases freed
    rw [givenBack, if_pos zero]
    exact ⟨Chain.nil, List.nodup_nil⟩
  · obtain ⟨result, returned, spec⟩ : ∃ result,
        freePage layout state (frameOf entry) = .ok result ∧
          Freed layout state result (frameOf entry) frames :=
      freePage_spec free (isFrame_frameOf entry) zero fresh
    rw [returned] at freed
    cases freed
    rw [givenBack, if_neg zero]
    exact ⟨spec.free, List.nodup_cons.mpr ⟨fresh, distinct⟩⟩

/-- A page gets another frame for one that its entry frees. -/
theorem mapPage_releases (wellFormed : WellFormed layout state frames)
    (page : IsPage virt) (outside : ¬ InWindow layout virt)
    (found : leafEntry state.mem state.pml4.toNat virt = some entry)
    (explicit : phys ≠ mapAnon) (different : phys ≠ frameOf entry)
    (marked : Has entry pageFBit)
    (notTable : ¬ IsTable state.mem state.pml4.toNat (frameOf entry).toNat)
    (fresh : (frameOf entry).toNat ∉ frames)
    (frame : IsFrame phys) (present : Has flags pagePBit)
    (mapped : mapPage layout state virt phys flags = .ok state') :
    Updated layout state state' virt ((flags &&& ptFlagsMask) ||| phys)
      (givenBack entry frames) := by
  obtain ⟨table, walked, rfl⟩ := leafTable_of_leafEntry found
  obtain ⟨target, after, leafStep, spares, rfl⟩ :=
    leafStep_spares wellFormed page outside walked (fun _ _ => notTable) frame
      present mapped
  have looked := lookedAt_wellFormed wellFormed flags walked
  cases leafStep with
  | reused anonymous _ => exact absurd anonymous explicit
  | allocated anonymous _ _ => exact absurd anonymous explicit
  | placed _ keeps => exact absurd ⟨different, marked⟩ keeps
  | released _ _ _ freed =>
      obtain ⟨free, distinct⟩ :=
        freePage_givenBack looked.free looked.distinct fresh freed
      refine updated_of_spares wellFormed page walked spares free distinct ?_ _
      intro used isTable member
      rcases mem_givenBack member with rfl | inFrames
      · exact notTable isTable
      · exact wellFormed.tables_used used isTable inFrames

end Mapping

/-! ## Unmapping -/

section Unmapping

variable {layout : Layout} {state state' looked : Mapper}
  {virt phys flags entry : Word} {frames : List Nat} {table : Nat}

theorem wellFormed_of_sameButWindow
    (wellFormed : WellFormed layout state frames)
    (same : SameButWindow layout state state') :
    WellFormed layout state' frames := by
  have keeps := same.keepsPages wellFormed.tables
  refine ⟨?_, wellFormed.free_looked same, wellFormed.distinct, ?_⟩
  · rw [same.pml4]
    exact keeps.tables wellFormed.tables
  · intro table isTable
    rw [same.pml4] at isTable
    exact wellFormed.tables_used table (keeps.isTable_iff.mp isTable)

/-- A store to the leaf entry after moves of the window. -/
theorem updated_of_putWord (wellFormed : WellFormed layout state frames)
    (page : IsPage virt) (same : SameButWindow layout state looked)
    (walked : leafTable state.mem state.pml4.toNat virt = some table)
    (value : Word) :
    Updated layout state
      (putWord looked (entryAddress table (leafIndex virt)) value) virt value
      frames := by
  have stored := leafStored value wellFormed.tables
    (same.keepsPages wellFormed.tables) page walked
  have pml4 : (putWord looked (entryAddress table (leafIndex virt))
      value).pml4 = state.pml4 := same.pml4
  refine ⟨pml4, ⟨?_, ?_, wellFormed.distinct, ?_⟩, stored⟩
  · rw [pml4]
    exact stored.tables
  · exact (wellFormed.free_looked same).of_agreeOff
      (agreeOff_writeWord looked.mem _ _) fun frame member =>
        wellFormed.header_disjoint_entry (isTable_of_leafTable walked) member
  · intro used isTable
    rw [pml4] at isTable
    exact wellFormed.tables_used used
      ((isTable_congr stored.walk_eq).mp isTable)

theorem clear_absent (absent : ¬ Has entry pagePBit) :
    entry &&& ~~~pagePBit = entry := by
  have split := word_split entry pagePBit
  rw [Has, not_not] at absent
  rw [absent, BitVec.zero_or] at split
  exact split.symm

/-- Moves of the window keep all leaf entries outside of it. -/
theorem updated_of_sameButWindow (wellFormed : WellFormed layout state frames)
    (outside : ¬ InWindow layout virt)
    (same : SameButWindow layout state looked)
    (found : leafEntry state.mem state.pml4.toNat virt = some entry) :
    Updated layout state looked virt entry frames := by
  have keeps := same.keepsPages wellFormed.tables
  refine ⟨same.pml4, wellFormed_of_sameButWindow wellFormed same,
    ⟨keeps.walk_eq, keeps.tables wellFormed.tables, ?_, ?_⟩⟩
  · rw [keeps.leafEntry_eq wellFormed.tables outside]
    exact found
  · intro other _ _ otherOutside
    exact keeps.leafEntry_eq wellFormed.tables otherOutside

/-- Unmapping a page clears `PAGE_P_BIT` of an entry that frees nothing. -/
theorem mapPage_clears (wellFormed : WellFormed layout state frames)
    (page : IsPage virt) (outside : ¬ InWindow layout virt)
    (found : leafEntry state.mem state.pml4.toNat virt = some entry)
    (unmarked : Has entry pagePBit → ¬ Has entry pageFBit)
    (frame : IsFrame phys) (unmap : ¬ Has flags pagePBit) :
    ∃ state', mapPage layout state virt phys flags = .ok state' ∧
      Updated layout state state' virt (entry &&& ~~~pagePBit) frames := by
  obtain ⟨state', returned, outcome⟩ := unmapPage_outcome wellFormed.tables outside
  refine ⟨state', ?_, ?_⟩
  · rw [mapPage_eq_unmapPage page frame unmap, returned]
  obtain ⟨table, walked, rfl⟩ := leafTable_of_leafEntry found
  cases outcome with
  | noTable missing _ =>
      rw [missing] at walked
      cases walked
  | absent walked' absent same =>
      cases walked.symm.trans walked'
      rw [clear_absent absent]
      exact updated_of_sameButWindow wellFormed outside same found
  | cleared walked' _ _ same =>
      cases walked.symm.trans walked'
      exact updated_of_putWord wellFormed page same walked _
  | freed walked' present marked _ _ _ =>
      cases walked.symm.trans walked'
      exact absurd marked (unmarked present)

end Unmapping

/-! ## The window's own pages -/

section OwnPages

variable {layout : Layout} {state state' looked : Mapper}
  {virt phys flags : Word}

theorem Tables.leafTable_window {memory : Memory} {root : Nat}
    (tables : Tables layout memory root) (inside : InWindow layout virt) :
    leafTable memory root virt = some layout.windowPt := by
  rw [leafTable, inside.1]
  exact tables.window

/-- `phys_look` has just written the entry of a window page. -/
theorem slot_flags (state : Mapper) (inside : InWindow layout virt)
    {pt : Word} (shown : pt.toNat = layout.windowPt) :
    Has (readEntry (physLook layout state pt).mem pt.toNat (leafIndex virt))
        pagePBit ∧
      ¬ Has (readEntry (physLook layout state pt).mem pt.toNat
        (leafIndex virt)) pageFBit := by
  have above := inside.2
  have below := (leafIndex virt).isLt
  have size := layout.windowSize_le
  have address : entryAddress pt.toNat (leafIndex virt) =
      slotAddress layout ((leafIndex virt).val -
        (pageTableSize - layout.windowSize)) := by
    rw [entryAddress, slotAddress, shown]
    omega
  have aligned : ((pageAddrBits &&& pt) + (BitVec.ofNat 64
      ((leafIndex virt).val - (pageTableSize - layout.windowSize)) <<<
        12)).toNat % 4096 = 0 := by
    have base := (toNat_frameOf_bounds pt).1
    rw [frameOf, BitVec.and_comm] at base
    rw [BitVec.toNat_add, BitVec.toNat_shiftLeft, BitVec.toNat_ofNat,
      Nat.shiftLeft_eq]
    omega
  rw [readEntry, address,
    readWord_slot (by simp only [pageTableSize] at *; omega)]
  constructor
  · exact has_or.mpr (Or.inl (has_or.mpr (Or.inr (by decide))))
  · intro marked
    rcases has_or.mp marked with marked | marked
    · rcases has_or.mp marked with marked | marked
      · exact not_has_of_aligned aligned (by decide) marked
      · exact absurd marked (by decide)
    · exact absurd marked (by decide)

/-- A store to a slot is a move of the window. -/
theorem agreeOff_putSlot (layout : Layout) (state : Mapper)
    (inside : InWindow layout virt) {pt : Word}
    (shown : pt.toNat = layout.windowPt) (value : Word) :
    AgreeOff (slotCells layout)
      (putWord (physLook layout state pt) (entryAddress pt.toNat
        (leafIndex virt)) value).mem state.mem := by
  refine ((agreeOff_writeWord _ _ _).mono ?_).trans
    (agreeOff_physLook layout state pt)
  intro cell member
  have above := inside.2
  have below := (leafIndex virt).isLt
  have size := layout.windowSize_le
  rw [mem_cells, entryAddress, shown] at member
  rw [slotCells, mem_cells, slotAddress]
  simp only [pageTableSize] at *
  omega

/-- Mapping a window page flags its upper entries and moves the window. -/
theorem mapPage_inWindow (tables : Tables layout state.mem state.pml4.toNat)
    (page : IsPage virt) (inside : InWindow layout virt)
    (frame : IsFrame phys) (present : Has flags pagePBit)
    (mapped : mapPage layout state virt phys flags = .ok state') :
    state'.pml4 = state.pml4 ∧
      state'.firstFreeBlock = state.firstFreeBlock ∧
      UpperFlagged layout state.pml4.toNat (flags &&& pml4FlagsMask)
        (upperEntries virt) state.mem state'.mem ∧
      ∃ target, IsFrame target ∧
        readEntry state'.mem layout.windowPt (leafIndex virt) =
          (flags &&& ptFlagsMask) ||| target := by
  have found := Tables.leafTable_window tables inside
  obtain ⟨flagged, shown⟩ :=
    toPt_flagged layout state flags tables found
  obtain ⟨present', unmarked⟩ :=
    slot_flags (toPt layout state virt flags).2 inside shown
  obtain ⟨target, after, leafStep, rfl⟩ :=
    leafStep_of_mapPage page frame present tables.isFrame_pml4 mapped
  have same : after = lookedAt layout state virt flags ∧
      IsFrame target := by
    cases leafStep with
    | reused _ _ => exact ⟨rfl, isFrame_frameOf _⟩
    | allocated _ absent _ => exact absurd present' absent
    | released _ _ marked _ => exact absurd marked unmarked
    | placed _ _ => exact ⟨rfl, frame⟩
  obtain ⟨rfl, targetFrame⟩ := same
  refine ⟨rfl, rfl, flagged.look tables ?_, target, targetFrame, ?_⟩
  · exact (agreeOff_putSlot layout _ inside shown _).trans
      (agreeOff_physLook layout _ _)
  · rw [leafWritten, putWord_mem, shown]
    exact readWord_writeWord_same _ _ _

/-- Unmapping a window page only moves the window. -/
theorem unmapPage_inWindow
    (tables : Tables layout state.mem state.pml4.toNat)
    (inside : InWindow layout virt)
    (unmapped : unmapPage layout state virt = .ok state') :
    SameButWindow layout state state' := by
  have found := Tables.leafTable_window tables inside
  obtain ⟨looked, same, ⟨missing, _⟩ | ⟨pt, frame, walked, returned⟩⟩ :=
    unmapPage_descends tables virt
  · rw [missing] at found
    cases found
  · have shown : pt.toNat = layout.windowPt :=
      Option.some.inj (walked.symm.trans found)
    have base := physLook_windowBase layout looked frame
    obtain ⟨present, unmarked⟩ := slot_flags looked inside shown
    have entry : load layout (physLook layout looked pt)
        (entryPointer virt 12) = .ok (readEntry
          (physLook layout looked pt).mem pt.toNat (leafIndex virt)) :=
      load_entry base frame
    have pointer :
        pointerTo (physLook layout looked pt) virt 12 21 =
          entryPointer virt 12 := pointerTo_physLook 12 frame
    rw [returned] at unmapped
    simp only [unmapLeaf, pointer, entry, bind, Except.bind, present, unmarked,
      if_true, if_false, pure, Except.pure, store_entry base frame,
      Except.ok.injEq] at unmapped
    subst unmapped
    exact ⟨(agreeOff_putSlot layout looked inside shown _).trans same.agree,
      same.pml4, same.first⟩

end OwnPages

end BeaverOS.Calls

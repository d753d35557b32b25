import BeaverOS.Memory.BootState

/-!
# Unmapping a page

`map_page` without `PAGE_P_BIT` unmaps. The four ways an unmapping can go are
listed once; what the call does to translations, to the free list and to the
rest of memory is read off them.

A leaf entry with `PAGE_F_BIT` goes wrong. `free_page` moves the window to the
freed frame, and the store that should clear the entry's `PAGE_P_BIT` goes
through a pointer computed before the move: it hits the freed frame, and the
entry stays present.
-/

namespace BeaverOS.Unmap

open BeaverOS.ByteMemory
open BeaverOS.RadixTree
open BeaverOS.Paging
open BeaverOS.Window
open BeaverOS.FrameAllocator
open BeaverOS.PageTree
open BeaverOS.Mapper
open BeaverOS.MapperState
open BeaverOS.BootState

/-- The states in which `unmap_page` can end. -/
inductive UnmapOutcome (layout : Layout) (state : Mapper) (virt : Word) :
    Mapper → Prop
  | noTable {looked : Mapper} :
      leafTable state.mem state.pml4.toNat virt = none →
      SameButWindow layout state looked →
      UnmapOutcome layout state virt looked
  | absent {looked : Mapper} {table : Nat} :
      leafTable state.mem state.pml4.toNat virt = some table →
      ¬ Has (readEntry state.mem table (leafIndex virt)) pagePBit →
      SameButWindow layout state looked →
      UnmapOutcome layout state virt looked
  | cleared {looked : Mapper} {table : Nat} :
      leafTable state.mem state.pml4.toNat virt = some table →
      Has (readEntry state.mem table (leafIndex virt)) pagePBit →
      ¬ Has (readEntry state.mem table (leafIndex virt)) pageFBit →
      SameButWindow layout state looked →
      UnmapOutcome layout state virt
        (putWord looked (entryAddress table (leafIndex virt))
          (readEntry state.mem table (leafIndex virt) &&& ~~~pagePBit))
  | freed {looked released : Mapper} {table : Nat} {page : Word} :
      leafTable state.mem state.pml4.toNat virt = some table →
      Has (readEntry state.mem table (leafIndex virt)) pagePBit →
      Has (readEntry state.mem table (leafIndex virt)) pageFBit →
      SameButWindow layout state looked →
      page = frameOf (readEntry state.mem table (leafIndex virt)) →
      freePage layout looked page = .ok released →
      UnmapOutcome layout state virt
        (putWord released (entryAddress page.toNat (leafIndex virt))
          (readEntry released.mem page.toNat (leafIndex virt) &&&
            ~~~pagePBit))

section Outcome

variable {layout : Layout} {state looked : Mapper} {frames : List Nat}
  {virt : Word}

theorem child_of_has {memory : Memory} {table : Nat} {index : Index}
    (present : Has (readEntry memory table index) pagePBit) :
    child memory table index =
      some (frameOf (readEntry memory table index)).toNat := by
  rw [child, if_pos present]

theorem child_of_not_has {memory : Memory} {table : Nat} {index : Index}
    (absent : ¬ Has (readEntry memory table index) pagePBit) :
    child memory table index = none := by
  rw [child, if_neg absent]

/-- The last level of `unmap_page`, below the page table `pt`. -/
def unmapLeaf (layout : Layout) (state : Mapper) (pt virt : Word) :
    Except Halt Mapper := do
  let state := physLook layout state pt
  let pte := pointerTo state virt 12 21
  let entry ← load layout state pte
  if Has entry pagePBit then
    let state ←
      if Has entry pageFBit then
        freePage layout state (frameOf entry)
      else
        pure state
    let entry ← load layout state pte
    store layout state pte (entry &&& ~~~pagePBit)
  else
    return state

private theorem unmapLeaf_outcome
    (tables : Tables layout state.mem state.pml4.toNat)
    (outside : ¬ InWindow layout virt)
    (same : SameButWindow layout state looked) {pt : Word}
    (frame : IsFrame pt)
    (found : leafTable state.mem state.pml4.toNat virt = some pt.toNat) :
    ∃ state', unmapLeaf layout looked pt virt = .ok state' ∧
        UnmapOutcome layout state virt state' := by
  have again := same.look pt
  have base := physLook_windowBase layout looked frame
  have pointer :
      pointerTo (physLook layout looked pt) virt 12 21 =
        entryPointer virt 12 := pointerTo_physLook 12 frame
  have entryEq :
      load layout (physLook layout looked pt) (entryPointer virt 12) =
        .ok (readEntry state.mem pt.toNat (leafIndex virt)) := by
    rw [load_entry base frame]
    exact congrArg _ (readEntry_leaf tables outside again found)
  simp only [unmapLeaf, pointer, entryEq, bind, Except.bind]
  by_cases present :
      Has (readEntry state.mem pt.toNat (leafIndex virt)) pagePBit
  · by_cases freeable :
        Has (readEntry state.mem pt.toNat (leafIndex virt)) pageFBit
    · have pageFrame :=
        isFrame_frameOf (readEntry state.mem pt.toNat (leafIndex virt))
      obtain ⟨released, freedEq, releasedBase⟩ :
          ∃ released,
            freePage layout (physLook layout looked pt)
              (frameOf (readEntry state.mem pt.toNat (leafIndex virt))) =
                .ok released ∧
            released.windowBase =
              frameOf (readEntry state.mem pt.toNat (leafIndex virt)) :=
        ⟨_, freePage_eq pageFrame,
          physLook_windowBase layout (physLook layout looked pt) pageFrame⟩
      have outcome :=
        UnmapOutcome.freed found present freeable again rfl freedEq
      simp only [present, freeable, if_true, freedEq,
        load_entry releasedBase pageFrame,
        store_entry releasedBase pageFrame]
      exact ⟨_, rfl, outcome⟩
    · have outcome :=
        UnmapOutcome.cleared found present freeable again
      simp only [present, freeable, if_true, if_false, pure, Except.pure,
        entryEq, store_entry base frame]
      exact ⟨_, rfl, outcome⟩
  · simp only [present, if_false, pure, Except.pure]
    exact ⟨_, rfl, UnmapOutcome.absent found present again⟩

/-- `unmap_page` returns where a table is missing, and comes to the last level
elsewhere. -/
theorem unmapPage_descends
    (tables : Tables layout state.mem state.pml4.toNat) (virt : Word) :
    ∃ looked, SameButWindow layout state looked ∧
      ((leafTable state.mem state.pml4.toNat virt = none ∧
          unmapPage layout state virt = .ok looked) ∨
        ∃ pt, IsFrame pt ∧
          leafTable state.mem state.pml4.toNat virt = some pt.toNat ∧
          unmapPage layout state virt = unmapLeaf layout looked pt virt) := by
  have pml4Frame := tables.isFrame_pml4
  have look4 := (SameButWindow.refl layout state).look state.pml4
  have load4 :=
    load_upper tables (SameButWindow.refl layout state) (by decide)
      virt 39 (walk_nil state.pml4.toNat) pml4Frame
  simp only [unmapPage, bind, Except.bind]
  rw [load4]
  by_cases present4 :
      Has (readEntry state.mem state.pml4.toNat (indexAt virt 39)) pagePBit
  · have step4 := child_of_has present4
    set pdp := frameOf (readEntry state.mem state.pml4.toNat
      (indexAt virt 39)) with pdpEq
    have reach4 :
        walk (child state.mem) state.pml4.toNat [indexAt virt 39] =
          some pdp.toNat := by
      simp [walk, step4]
    have load3 :=
      load_upper tables look4 (by simp) virt 30 reach4
        (isFrame_frameOf _)
    have look3 := look4.look pdp
    simp only [present4, not_true_eq_false, if_false]
    rw [load3]
    by_cases present3 :
        Has (readEntry state.mem pdp.toNat (indexAt virt 30)) pagePBit
    · have step3 := child_of_has present3
      set pd := frameOf (readEntry state.mem pdp.toNat (indexAt virt 30))
        with pdEq
      have reach3 :
          walk (child state.mem) state.pml4.toNat
              [indexAt virt 39, indexAt virt 30] =
            some pd.toNat := by
        simp [walk, step4, step3]
      have load2 :=
        load_upper tables look3 (by simp) virt 21 reach3 (isFrame_frameOf _)
      have look2 := look3.look pd
      simp only [present3, not_true_eq_false, if_false]
      rw [load2]
      by_cases present2 :
          Has (readEntry state.mem pd.toNat (indexAt virt 21)) pagePBit
      · have step2 := child_of_has present2
        have found :
            leafTable state.mem state.pml4.toNat virt =
              some (frameOf (readEntry state.mem pd.toNat
                (indexAt virt 21))).toNat := by
          simp [leafTable, upperPath, walk, step4, step3, step2]
        simp only [present2, not_true_eq_false, if_false]
        exact ⟨_, look2, Or.inr ⟨_, isFrame_frameOf _, found, rfl⟩⟩
      · simp only [present2, not_false_eq_true, if_true]
        refine ⟨_, look2, Or.inl ⟨?_, rfl⟩⟩
        simp [leafTable, upperPath, walk, step4, step3,
          child_of_not_has present2]
    · simp only [present3, not_false_eq_true, if_true]
      refine ⟨_, look3, Or.inl ⟨?_, rfl⟩⟩
      simp [leafTable, upperPath, walk, step4, child_of_not_has present3]
  · simp only [present4, not_false_eq_true, if_true]
    refine ⟨_, look4, Or.inl ⟨?_, rfl⟩⟩
    simp [leafTable, upperPath, walk, child_of_not_has present4]

/-- `unmap_page` always returns, in one of the four ways. -/
theorem unmapPage_outcome
    (tables : Tables layout state.mem state.pml4.toNat)
    (outside : ¬ InWindow layout virt) :
    ∃ state', unmapPage layout state virt = .ok state' ∧
      UnmapOutcome layout state virt state' := by
  obtain ⟨looked, same, ⟨missing, returned⟩ | ⟨pt, frame, found, returned⟩⟩ :=
    unmapPage_descends tables virt
  · exact ⟨looked, returned, UnmapOutcome.noTable missing same⟩
  · rw [returned]
    exact unmapLeaf_outcome tables outside same frame found

end Outcome

/-! ## What an unmapping should do -/

/-- The bytes of the leaf entry of `virt`. -/
def leafCells (state : Mapper) (virt : Word) : Set Nat :=
  fun cell =>
    ∃ table, leafTable state.mem state.pml4.toNat virt = some table ∧
      cell ∈ cells (entryAddress table (leafIndex virt)) 8

/-- The header bytes of the frame that goes back with `virt`. -/
def freedCells (state : Mapper) (virt : Word) : Set Nat :=
  fun cell =>
    ∃ entry, leafEntry state.mem state.pml4.toNat virt = some entry ∧
      Has entry pagePBit ∧ Has entry pageFBit ∧
      cell ∈ cells (frameOf entry).toNat 16

/-- `virt` is unmapped, its frame is freed if its entry asked for that, and
nothing else changed. -/
structure Unmapped (layout : Layout) (state state' : Mapper) (virt : Word)
    (frames : List Nat) : Prop where
  absent : translation state'.mem state'.pml4.toNat virt = none
  others :
    ∀ other, IsPage other → other ≠ virt → ¬ InWindow layout other →
      translation state'.mem state'.pml4.toNat other =
        translation state.mem state.pml4.toNat other
  freed :
    ∀ entry, leafEntry state.mem state.pml4.toNat virt = some entry →
      Has entry pagePBit → Has entry pageFBit →
      state'.firstFreeBlock = frameOf entry ∧
        readWord state'.mem (frameOf entry).toNat = 1#64 ∧
        readWord state'.mem ((frameOf entry).toNat + 8) =
          state.firstFreeBlock
  kept :
    ¬ FreesOnUnmap state virt →
      state'.firstFreeBlock = state.firstFreeBlock ∧
        FreeList state'.mem state'.firstFreeBlock frames
  memory :
    AgreeOff (slotCells layout ∪ leafCells state virt ∪ freedCells state virt)
      state'.mem state.mem

section Unmapping

variable {layout : Layout} {state state' looked : Mapper}
  {frames : List Nat} {virt phys flags : Word} {table : Nat}

theorem freesOnUnmap_iff
    (found : leafTable state.mem state.pml4.toNat virt = some table) :
    FreesOnUnmap state virt ↔
      Has (readEntry state.mem table (leafIndex virt)) pagePBit ∧
        Has (readEntry state.mem table (leafIndex virt)) pageFBit := by
  rw [FreesOnUnmap, leafEntry_of_leafTable found]
  simp only [Option.some.injEq, exists_eq_left']

theorem translation_eq_none {memory : Memory} {root : Nat}
    (absent : ∀ entry, leafEntry memory root virt = some entry →
      ¬ Has entry pagePBit) :
    translation memory root virt = none := by
  cases found : leafEntry memory root virt with
  | none => rw [translation, found]; rfl
  | some entry => rw [translation_of_leafEntry found, if_neg (absent entry found)]

/-- Where nothing is mapped, only the window moves. -/
private theorem unmapped_of_absent
    (wellFormed : WellFormed layout state frames)
    (outside : ¬ InWindow layout virt)
    (same : SameButWindow layout state looked)
    (absent : ∀ entry,
      leafEntry state.mem state.pml4.toNat virt = some entry →
      ¬ Has entry pagePBit) :
    Unmapped layout state looked virt frames := by
  have keeps := same.keepsPages wellFormed.tables
  refine ⟨?_, ?_, ?_, ?_, ?_⟩
  · rw [same.pml4]
    refine translation_eq_none fun entry found => absent entry ?_
    rw [← keeps.leafEntry_eq wellFormed.tables outside]
    exact found
  · intro other _ _ otherOutside
    rw [same.pml4]
    exact translation_congr (keeps.leafEntry_eq wellFormed.tables otherOutside)
  · intro entry found present
    exact absurd present (absent entry found)
  · exact fun _ => ⟨same.first, wellFormed.free_looked same⟩
  · exact same.agree.mono
      (Set.subset_union_left.trans Set.subset_union_left)

/-- Clearing `PAGE_P_BIT` of an entry that frees nothing. -/
private theorem unmapped_of_cleared
    (wellFormed : WellFormed layout state frames)
    (page : IsPage virt)
    (same : SameButWindow layout state looked)
    (found : leafTable state.mem state.pml4.toNat virt = some table)
    (unfreed : ¬ FreesOnUnmap state virt) :
    Unmapped layout state
      (putWord looked (entryAddress table (leafIndex virt))
        (readEntry state.mem table (leafIndex virt) &&& ~~~pagePBit))
      virt frames := by
  have keeps := same.keepsPages wellFormed.tables
  have stored := leafStored
    (readEntry state.mem table (leafIndex virt) &&& ~~~pagePBit)
    wellFormed.tables keeps page found
  refine ⟨?_, ?_, ?_, ?_, ?_⟩
  · rw [putWord_pml4, same.pml4, putWord_mem]
    refine translation_eq_none fun entry foundEntry => ?_
    rw [stored.here] at foundEntry
    cases foundEntry
    exact not_has_and_of_disjoint (by decide)
  · intro other otherPage different otherOutside
    rw [putWord_pml4, same.pml4, putWord_mem]
    exact translation_congr
      (stored.elsewhere other otherPage different otherOutside)
  · intro entry foundEntry present freeable
    exact absurd ⟨entry, foundEntry, present, freeable⟩ unfreed
  · refine fun _ => ⟨same.first, ?_⟩
    refine (wellFormed.free_looked same).of_agreeOff
      (agreeOff_writeWord looked.mem _ _) fun frame member => ?_
    exact wellFormed.header_disjoint_entry (isTable_of_leafTable found) member
  · refine ((agreeOff_writeWord looked.mem _ _).mono ?_).trans
      (same.agree.mono (Set.subset_union_left.trans Set.subset_union_left))
    exact fun cell inside => Or.inl (Or.inr ⟨table, found, inside⟩)

/-- An unmapping that frees nothing does what it should. -/
theorem unmapped_of_outcome (wellFormed : WellFormed layout state frames)
    (page : IsPage virt) (outside : ¬ InWindow layout virt)
    (unfreed : ¬ FreesOnUnmap state virt)
    (outcome : UnmapOutcome layout state virt state') :
    Unmapped layout state state' virt frames := by
  cases outcome with
  | noTable missing same =>
      refine unmapped_of_absent wellFormed outside same ?_
      intro entry found
      rw [leafEntry_eq_none missing] at found
      cases found
  | absent found notPresent same =>
      refine unmapped_of_absent wellFormed outside same ?_
      intro entry foundEntry
      rw [leafEntry_of_leafTable found] at foundEntry
      cases foundEntry
      exact notPresent
  | cleared found _ _ same =>
      exact unmapped_of_cleared wellFormed page same found unfreed
  | freed found present freeable _ _ _ =>
      exact absurd ((freesOnUnmap_iff found).mpr ⟨present, freeable⟩) unfreed

/-- The store that should clear the entry of a freed frame misses it. -/
theorem present_of_freed (wellFormed : WellFormed layout state frames)
    (freeable : FreeableLeaves state) (outside : ¬ InWindow layout virt)
    (frees : FreesOnUnmap state virt)
    (outcome : UnmapOutcome layout state virt state') :
    translation state'.mem state'.pml4.toNat virt =
      translation state.mem state.pml4.toNat virt ∧
    translation state'.mem state'.pml4.toNat virt ≠ none := by
  cases outcome with
  | noTable missing _ =>
      obtain ⟨entry, found, _⟩ := frees
      rw [leafEntry_eq_none missing] at found
      cases found
  | absent found notPresent _ =>
      exact absurd ((freesOnUnmap_iff found).mp frees).1 notPresent
  | cleared found _ notFreeable _ =>
      exact absurd ((freesOnUnmap_iff found).mp frees).2 notFreeable
  | @freed looked released table page found present marked same pageEq
      freedEq =>
      have pageFrame : IsFrame page := pageEq ▸ isFrame_frameOf _
      have notTable :
          ¬ IsTable state.mem state.pml4.toNat page.toNat := by
        rw [pageEq]
        exact freeable virt _ (leafEntry_of_leafTable found) present marked
      rw [freePage_eq pageFrame] at freedEq
      cases freedEq
      -- everything written since lies in slots or in the freed frame
      have written :
          AgreeOff (slotCells layout ∪ cells page.toNat 4096)
            (putHeader (physLook layout looked page).mem page.toNat 1#64
              looked.firstFreeBlock) state.mem := by
        refine ((agreeOff_putHeader).mono ?_).trans
          ((same.look page).agree.mono Set.subset_union_left)
        exact (cells_subset (Nat.le_refl _) (by omega)).trans
          Set.subset_union_right
      have keeps :
          KeepsPages layout state.pml4.toNat state.mem
            (writeWord
              (putHeader (physLook layout looked page).mem page.toNat 1#64
                looked.firstFreeBlock)
              (entryAddress page.toNat (leafIndex virt))
              (readEntry
                (putHeader (physLook layout looked page).mem page.toNat 1#64
                  looked.firstFreeBlock) page.toNat (leafIndex virt) &&&
                ~~~pagePBit)) := by
        refine KeepsPages.of_agreeOff (cells page.toNat 4096)
          wellFormed.tables ?_ ?_
        · exact ((agreeOff_writeWord _ _ _).mono
            (entryCells_subset.trans Set.subset_union_right)).trans written
        · intro other isTable
          exact frames_disjoint (isTable.bounds wellFormed.tables.tree).1
            ((isFrame_iff page).mp pageFrame).1
            (fun equal => notTable (equal ▸ isTable)) (Nat.le_refl _)
            (Nat.le_refl _)
      have kept := keeps.leafEntry_eq wellFormed.tables outside
      simp only [putWord_mem, putWord_pml4, physLook_pml4, same.pml4]
      refine ⟨translation_congr kept, ?_⟩
      rw [translation_congr kept,
        translation_of_leafEntry (leafEntry_of_leafTable found), if_pos present]
      exact Option.some_ne_none _

/-- A call of `map_page` without `PAGE_P_BIT` is a call of `unmap_page`. -/
theorem mapPage_eq_unmapPage (page : IsPage virt) (frame : IsFrame phys)
    (unmap : ¬ Has flags pagePBit) :
    mapPage layout state virt phys flags = unmapPage layout state virt := by
  have canonical := page.1
  have aligned := page.2
  have physical : phys &&& ~~~pageAddrBits = 0#64 := frame
  simp only [mapPage, canonical, aligned, physical, unmap, not_true_eq_false,
    not_false_eq_true, if_false, if_true]

/-- Unmapping a present page whose entry carries `PAGE_F_BIT` leaves it
mapped. -/
theorem not_unmapped_of_freesOnUnmap
    (wellFormed : WellFormed layout state frames)
    (freeable : FreeableLeaves state) (page : IsPage virt)
    (outside : ¬ InWindow layout virt) (frame : IsFrame phys)
    (unmap : ¬ Has flags pagePBit) (frees : FreesOnUnmap state virt) :
    ¬ ∃ state', mapPage layout state virt phys flags = .ok state' ∧
      Unmapped layout state state' virt frames := by
  rintro ⟨state', mapped, unmapped⟩
  obtain ⟨result, returned, outcome⟩ :=
    unmapPage_outcome wellFormed.tables outside
  rw [mapPage_eq_unmapPage page frame unmap, returned] at mapped
  cases mapped
  exact (present_of_freed wellFormed freeable outside frees outcome).2
    unmapped.absent

/-- `map_page` without `PAGE_P_BIT` unmaps exactly the pages whose entry frees
nothing. -/
theorem mapPage_unmaps_iff (wellFormed : WellFormed layout state frames)
    (freeable : FreeableLeaves state) (page : IsPage virt)
    (outside : ¬ InWindow layout virt) (frame : IsFrame phys)
    (unmap : ¬ Has flags pagePBit) :
    (∃ state', mapPage layout state virt phys flags = .ok state' ∧
      Unmapped layout state state' virt frames) ↔
      ¬ FreesOnUnmap state virt := by
  constructor
  · intro unmapped frees
    exact not_unmapped_of_freesOnUnmap wellFormed freeable page outside frame
      unmap frees unmapped
  · intro unfreed
    obtain ⟨result, returned, outcome⟩ :=
      unmapPage_outcome wellFormed.tables outside
    refine ⟨result, ?_, unmapped_of_outcome wellFormed page outside unfreed
      outcome⟩
    rw [mapPage_eq_unmapPage page frame unmap, returned]

end Unmapping

/-- The boot state whose pages all show frame `0x5000`, as `flags` say. -/
def sharedBoot (flags : Word) : Mapper :=
  bootState 3#64 (fun _ => 0x5000#64 ||| flags) 2

theorem sharedBoot_wellFormed (flags : Word) :
    WellFormed bootLayout (sharedBoot flags)
      (BlockChain.blockFrames 4096 0x10000 2) :=
  bootState_wellFormed (by decide) (by decide) (by decide)

theorem sharedBoot_freeable {flags : Word}
    (above : 0x4000 < (frameOf (0x5000#64 ||| flags)).toNat) :
    FreeableLeaves (sharedBoot flags) :=
  bootState_freeable (by decide) (by decide) fun _ => above

theorem mapPage_unmaps_iff_boot :
    (∃ state', mapPage bootLayout (sharedBoot 3#64) (bootPage 0) mapAnon 0#64 =
        .ok state' ∧
      Unmapped bootLayout (sharedBoot 3#64) state' (bootPage 0)
        (BlockChain.blockFrames 4096 0x10000 2)) ↔
      ¬ FreesOnUnmap (sharedBoot 3#64) (bootPage 0) :=
  mapPage_unmaps_iff (sharedBoot_wellFormed 3#64)
    (sharedBoot_freeable (by decide)) isPage_bootPage
    (bootPage_outside (by decide)) isFrame_zero (by decide)

/-- A page that is mapped with `PAGE_P_BIT | PAGE_RW_BIT | PAGE_F_BIT` is still
mapped after `map_page(virt, MAP_ANON, 0)`. -/
theorem freedPage_stays_mapped :
    WellFormed bootLayout (sharedBoot 0x203#64)
        (BlockChain.blockFrames 4096 0x10000 2) ∧
      FreeableLeaves (sharedBoot 0x203#64) ∧
      IsPage (bootPage 0) ∧ ¬ InWindow bootLayout (bootPage 0) ∧
      ¬ ∃ state', mapPage bootLayout (sharedBoot 0x203#64) (bootPage 0)
            mapAnon 0#64 = .ok state' ∧
          Unmapped bootLayout (sharedBoot 0x203#64) state' (bootPage 0)
            (BlockChain.blockFrames 4096 0x10000 2) := by
  have wellFormed := sharedBoot_wellFormed 0x203#64
  have freeable : FreeableLeaves (sharedBoot 0x203#64) :=
    sharedBoot_freeable (by decide)
  have outside : ¬ InWindow bootLayout (bootPage 0) :=
    bootPage_outside (by decide)
  have frees : FreesOnUnmap (sharedBoot 0x203#64) (bootPage 0) :=
    ⟨_, leafEntry_boot (by decide) (by decide), by decide, by decide⟩
  exact ⟨wellFormed, freeable, isPage_bootPage, outside,
    not_unmapped_of_freesOnUnmap wellFormed freeable isPage_bootPage outside
      isFrame_zero (by decide) frees⟩

end BeaverOS.Unmap

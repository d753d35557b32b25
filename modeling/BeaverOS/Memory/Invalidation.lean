import BeaverOS.Memory.TlbWindow

/-!
# No translation is stale

Whatever the processor keeps of translations, and whenever it drops them, the
mapper reads and writes what it means to: it comes to no page that it has
changed before `invlpg`. After each call the processor keeps nothing but what
the tables say.
-/

namespace BeaverOS.Tlb

open BeaverOS.ByteMemory
open BeaverOS.TranslationCache
open BeaverOS.RadixTree
open BeaverOS.Paging
open BeaverOS.Window
open BeaverOS.FrameAllocator
open BeaverOS.PageTree
open BeaverOS.Mapper
open BeaverOS.MapperState
open BeaverOS.UpperFlags
open BeaverOS.BootState
open BeaverOS.Unmap
open BeaverOS.Populated
open BeaverOS.Transition

/-! ## The levels of a walk -/

section Levels

variable {layout : Layout} {stale : Set Word} {cpu : Processor}
  {state looked after state' : Mapper}
  {table virt pt phys flags target : Word} {frames : List Nat} {low next : Nat}
  {path : List Index}

theorem pointerTo_eq (cpu : Processor) (virt : Word) (low : Nat) :
    pointerTo cpu virt low (low + 9) =
      cpu.physWindow + BitVec.ofNat 64 (8 * (indexAt virt low).val) := by
  have pointer := toNat_entryPointer virt low
  rw [entryPointer, BitVec.zero_add] at pointer
  rw [pointerTo, ← pointer, BitVec.ofNat_toNat, BitVec.setWidth_eq]

theorem entry_inside (index : Index) : 8 * index.val + 8 ≤ 4096 := by
  have bound := index.isLt
  omega

theorem walk_physLook (tables : Tables layout state.mem state.pml4.toNat)
    (phys : Word) (short : path.length ≤ 3) :
    walk (child (Window.physLook layout state phys).mem) state.pml4.toNat path =
      walk (child state.mem) state.pml4.toNat path :=
  (KeepsPages.of_slots tables
    (agreeOff_physLook layout state phys)).walk_eq path short

/-- The window moves to a table, and an entry is read. -/
theorem readEntry_sees (follows : Follows layout ∅ cpu state)
    (isFrame : IsFrame table) (virt : Word) (low : Nat) :
    ∃ looking, physLook layout cpu table = .ok looking ∧
      looking.physWindow = physWindowPages layout ∧
      load looking (pointerTo looking virt low (low + 9)) =
        .ok (readEntry (Window.physLook layout state table).mem table.toNat
          (indexAt virt low), looking.settle) ∧
      Sees layout ∅ looking.settle (Window.physLook layout state table)
        table := by
  obtain ⟨looking, lookedEq, sees⟩ := physLook_sees follows isFrame
  obtain ⟨loaded, sees'⟩ := sees.load (Set.notMem_empty _)
    (entry_inside (indexAt virt low))
  rw [← pointerTo_eq] at loaded
  exact ⟨looking, lookedEq, sees.pointer, loaded, sees'⟩

/-- One upper level of `map_page` on a present entry. -/
theorem mapLevel_follows (follows : Follows layout ∅ cpu state)
    (isFrame : IsFrame table) (short : path.length < 3)
    (reached : walk (child state.mem) state.pml4.toNat path =
      some table.toNat)
    (below : walk (child state.mem) state.pml4.toNat
      (path ++ [indexAt virt low]) = some next)
    (noFrame : frameOf flags = 0#64) :
    ∃ cpu', mapLevel layout cpu table virt low (low + 9) flags =
        .ok ((descend layout virt low flags (table, state)).1, cpu') ∧
      Follows layout ∅ cpu' (descend layout virt low flags (table, state)).2 ∧
      (∀ path : List Index, path.length ≤ 3 →
        walk (child (descend layout virt low flags (table, state)).2.mem)
            state.pml4.toNat path =
          walk (child state.mem) state.pml4.toNat path) ∧
      (descend layout virt low flags (table, state)).1.toNat = next := by
  obtain ⟨looking, lookedEq, pointer, loaded, sees⟩ :=
    readEntry_sees follows isFrame virt low
  have tables : Tables layout (Window.physLook layout state table).mem
      state.pml4.toNat := sees.tables
  have reached' := (walk_physLook follows.tables table
    (Nat.le_of_lt short)).trans reached
  have linked : child (Window.physLook layout state table).mem table.toNat
      (indexAt virt low) = some next := by
    rw [← walk_snoc_of_walk reached', walk_physLook follows.tables table
      (by rw [List.length_append]; exact short)]
    exact below
  have present := present_of_child linked
  have changes := ChangesOnly.of_flags tables short reached' present noFrame
  obtain ⟨stored, storedEq, pointer', seesStored⟩ :=
    sees.put (entry_inside (indexAt virt low)) changes
  obtain ⟨reloaded, seesReloaded⟩ := seesStored.load (Set.notMem_empty _)
    (entry_inside (indexAt virt low))
  obtain ⟨again, seesAgain⟩ := seesReloaded.load (Set.notMem_empty _)
    (entry_inside (indexAt virt low))
  have readBack : readWord (writeWord
      (Window.physLook layout state table).mem
      (table.toNat + 8 * (indexAt virt low).val)
      (readEntry (Window.physLook layout state table).mem table.toNat
        (indexAt virt low) ||| flags))
      (table.toNat + 8 * (indexAt virt low).val) =
      readEntry (Window.physLook layout state table).mem table.toNat
        (indexAt virt low) ||| flags := readWord_writeWord_same _ _ _
  have still : Has (readEntry (Window.physLook layout state table).mem
      table.toNat (indexAt virt low) ||| flags) pagePBit :=
    has_or.mpr (Or.inl present)
  rw [putWord_mem, readBack] at reloaded again
  rw [settle_physWindow, ← pointerTo_eq] at storedEq
  rw [pointer', settle_physWindow, ← pointerTo_eq] at reloaded
  rw [settle_physWindow, pointer', settle_physWindow, ← pointerTo_eq] at again
  refine ⟨stored.settle.settle, ?_, seesAgain.toFollows, ?_, ?_⟩
  · simp only [mapLevel, lookedEq, loaded, storedEq, reloaded, still, again,
      bind, Except.bind, pure, Except.pure, not_true_eq_false, if_false]
    rfl
  · intro other otherShort
    exact (changes.walk_eq other otherShort).trans
      (walk_physLook follows.tables table otherShort)
  · rw [descend, leveledEntry, frameOf_or, noFrame, BitVec.or_zero]
    exact (frame_of_child linked).symm

/-- The leaf step, with the window on the page table. -/
theorem leafTarget_follows (sees : Sees layout ∅ cpu looked pt)
    (wellFormed : WellFormed layout looked frames)
    (notTable : phys ≠ mapAnon →
      Has (readEntry looked.mem pt.toNat (leafIndex virt)) pageFBit →
      ¬ IsTable looked.mem looked.pml4.toNat
        (frameOf (readEntry looked.mem pt.toNat (leafIndex virt))).toNat)
    (leafStep : LeafStep layout looked
      (readEntry looked.mem pt.toNat (leafIndex virt)) phys target after) :
    ∃ cpu', leafTarget layout cpu (pointerTo cpu virt 12 21) phys =
        .ok (target, cpu') ∧ Follows layout ∅ cpu' after := by
  obtain ⟨loaded, seesLoaded⟩ := sees.load (Set.notMem_empty _)
    (entry_inside (indexAt virt 12))
  rw [← pointerTo_eq] at loaded
  have loaded' : load cpu (pointerTo cpu virt 12 21) =
      .ok (readEntry looked.mem pt.toNat (leafIndex virt), cpu.settle) := loaded
  have follows := seesLoaded.toFollows
  cases leafStep with
  | reused anonymous present =>
      refine ⟨cpu.settle, ?_, follows⟩
      simp only [leafTarget, loaded', anonymous, present, if_true, bind,
        Except.bind]
      rfl
  | allocated anonymous absent allocated =>
      obtain ⟨cpu', allocated', follows'⟩ := allocPage_follows follows
        wellFormed.free wellFormed.tables_used allocated
      refine ⟨cpu', ?_, follows'⟩
      simp only [leafTarget, loaded', anonymous, absent, if_true, if_false, bind,
        Except.bind]
      exact allocated'
  | released explicit different marked freed =>
      obtain ⟨cpu', freed', follows'⟩ := freePage_follows follows
        (isFrame_frameOf _) (notTable explicit marked) freed
      refine ⟨cpu', ?_, follows'⟩
      simp only [leafTarget, loaded', explicit, different, marked, if_false,
        ne_eq, not_false_eq_true, and_self, if_true, bind, Except.bind, freed']
      rfl
  | placed explicit keeps =>
      refine ⟨cpu.settle, ?_, follows⟩
      simp only [leafTarget, loaded', explicit, keeps, if_false, bind,
        Except.bind]
      rfl

/-- The last level of `map_page`: until `invlpg`, what is kept of the page may
be stale. -/
theorem mapLeaf_follows (follows : Follows layout ∅ cpu state)
    (page : IsPage virt) (isFrame : IsFrame pt)
    (found : leafTable state.mem state.pml4.toNat virt = some pt.toNat)
    (notTable' : virt ≠ physWindowPt layout)
    (notWindow : virt ≠ physWindowPages layout)
    (wellFormed : WellFormed layout (Window.physLook layout state pt) frames)
    (notTable : phys ≠ mapAnon →
      Has (readEntry (Window.physLook layout state pt).mem pt.toNat
        (leafIndex virt)) pageFBit →
      ¬ IsTable (Window.physLook layout state pt).mem state.pml4.toNat
        (frameOf (readEntry (Window.physLook layout state pt).mem pt.toNat
          (leafIndex virt))).toNat)
    (leafStep : LeafStep layout (Window.physLook layout state pt)
      (readEntry (Window.physLook layout state pt).mem pt.toNat
        (leafIndex virt)) phys target after) :
    ∃ cpu', mapLeaf layout cpu pt virt phys flags = .ok cpu' ∧
      Follows layout (∅ ∪ {virt}) cpu'
        (leafWritten layout after pt virt
          ((flags &&& ptFlagsMask) ||| target)) := by
  obtain ⟨looking, lookedEq, sees⟩ := physLook_sees follows isFrame
  obtain ⟨chosen, chosenEq, followsChosen⟩ :=
    leafTarget_follows sees wellFormed notTable leafStep
  obtain ⟨again, againEq, seesAgain⟩ := physLook_sees followsChosen isFrame
  have spares := Populated.LeafStep.sparesTables wellFormed notTable leafStep
  have pml4 : after.pml4 = state.pml4 := spares.pml4
  have found' : leafTable (Window.physLook layout after pt).mem
      state.pml4.toNat virt = some pt.toNat := by
    have kept := ((spares.look pt).keeps wellFormed.tables).leafTable_eq virt
    exact kept.trans ((walk_physLook follows.tables pt (by simp)).trans found)
  have tables : Tables layout (Window.physLook layout after pt).mem
      state.pml4.toNat := by
    have here := seesAgain.tables
    rwa [physLook_pml4, pml4] at here
  have first := ChangesOnly.of_leaf tables page found' (flags &&& ptFlagsMask)
  have sparedTable : physWindowPt layout ∉ ({virt} : Set Word) :=
    fun same => notTable' (Set.mem_singleton_iff.mp same).symm
  have sparedWindow : physWindowPages layout ∉ ({virt} : Set Word) :=
    fun same => notWindow (Set.mem_singleton_iff.mp same).symm
  have notStale : physWindowPages layout ∉ (∅ ∪ {virt} : Set Word) :=
    fun stale => stale.elim (Set.notMem_empty _) sparedWindow
  rw [← pml4] at first found'
  obtain ⟨stored, storedEq, pointer, seesStored⟩ := seesAgain.store
    (Set.notMem_empty _) (entry_inside (leafIndex virt)) first sparedTable
    sparedWindow
  obtain ⟨loaded, seesLoaded⟩ := seesStored.load notStale
    (entry_inside (leafIndex virt))
  have second := ChangesOnly.of_leaf first.tables page
    ((first.walk_eq _ (by simp)).trans found')
    ((flags &&& ptFlagsMask) ||| target)
  obtain ⟨written, writtenEq, -, seesWritten⟩ := seesLoaded.store notStale
    (entry_inside (leafIndex virt)) second sparedTable sparedWindow
  have readBack : readWord (writeWord
      (Window.physLook layout after pt).mem
      (pt.toNat + 8 * (leafIndex virt).val) (flags &&& ptFlagsMask))
      (pt.toNat + 8 * (leafIndex virt).val) = flags &&& ptFlagsMask :=
    readWord_writeWord_same _ _ _
  rw [putWord_mem, readBack] at loaded
  have pteEq : pointerTo looking virt 12 21 =
      again.physWindow + BitVec.ofNat 64 (8 * (leafIndex virt).val) := by
    rw [seesAgain.pointer, ← sees.pointer]
    exact pointerTo_eq looking virt 12
  rw [← pteEq] at storedEq
  rw [pointer, ← pteEq] at loaded
  rw [settle_physWindow, pointer, ← pteEq] at writtenEq
  refine ⟨written, ?_, ?_⟩
  · simp only [mapLeaf, lookedEq, chosenEq, againEq, storedEq, loaded, bind,
      Except.bind]
    exact writtenEq
  · have follows' := seesWritten.toFollows
    rwa [Set.union_assoc, Set.union_self, putWord_putWord] at follows'

/-- The way of `map_page` down to the page table. -/
theorem toPt_follows (follows : Follows layout ∅ cpu state)
    {leaf : Nat} (flags : Word)
    (found : leafTable state.mem state.pml4.toNat virt = some leaf) :
    ∃ atPdp atPd atPt,
      mapLevel layout cpu cpu.pml4 virt 39 48 (flags &&& pml4FlagsMask) =
        .ok ((toPdp layout state virt flags).1, atPdp) ∧
      mapLevel layout atPdp (toPdp layout state virt flags).1 virt 30 39
          (flags &&& pdpFlagsMask) =
        .ok ((toPd layout state virt flags).1, atPd) ∧
      mapLevel layout atPd (toPd layout state virt flags).1 virt 21 30
          (flags &&& pdFlagsMask) =
        .ok ((toPt layout state virt flags).1, atPt) ∧
      Follows layout ∅ atPt (toPt layout state virt flags).2 ∧
      leafTable (toPt layout state virt flags).2.mem state.pml4.toNat virt =
        some (toPt layout state virt flags).1.toNat := by
  have walked := found
  rw [leafTable, upperPath, walk] at found
  obtain ⟨pdp, toPdpEq, found⟩ := Option.bind_eq_some_iff.mp found
  rw [walk] at found
  obtain ⟨pd, toPdEq, -⟩ := Option.bind_eq_some_iff.mp found
  have first : walk (child state.mem) state.pml4.toNat [indexAt virt 39] =
      some pdp := by
    rw [walk, toPdpEq]
    rfl
  have second : walk (child state.mem) state.pml4.toNat
      [indexAt virt 39, indexAt virt 30] = some pd := by
    rw [walk, toPdpEq]
    simp only [Option.bind_some, walk, toPdEq]
  obtain ⟨atPdp, pdpEq, followsPdp, walksPdp, pdpTable⟩ :=
    @mapLevel_follows layout cpu state state.pml4 virt (flags &&& pml4FlagsMask)
      39 pdp [] follows follows.tables.isFrame_pml4 (by decide) (walk_nil _)
      first (frameOf_and_of_disjoint (by decide))
  rw [← pdpTable] at first
  obtain ⟨atPd, pdEq, followsPd, walksPd, pdTable⟩ :=
    @mapLevel_follows layout atPdp (toPdp layout state virt flags).2
      (toPdp layout state virt flags).1 virt (flags &&& pdpFlagsMask) 30 pd
      [indexAt virt 39] followsPdp (isFrame_toPdp layout state virt flags)
      (by simp) ((walksPdp _ (by simp)).trans first)
      ((walksPdp _ (by simp)).trans second)
      (frameOf_and_of_disjoint (by decide))
  rw [← pdTable] at second
  obtain ⟨atPt, ptEq, followsPt, walksPt, ptTable⟩ :=
    @mapLevel_follows layout atPd (toPd layout state virt flags).2
      (toPd layout state virt flags).1 virt (flags &&& pdFlagsMask) 21 leaf
      [indexAt virt 39, indexAt virt 30] followsPd
      (isFrame_toPd layout state virt flags) (by simp)
      ((walksPd _ (by simp)).trans ((walksPdp _ (by simp)).trans second))
      ((walksPd _ (by simp)).trans ((walksPdp _ (by simp)).trans walked))
      (frameOf_and_of_disjoint (by decide))
  refine ⟨atPdp, atPd, atPt, ?_, pdEq, ptEq, followsPt, ?_⟩
  · rw [follows.pml4]
    exact pdpEq
  · have same : (toPt layout state virt flags).1.toNat = leaf := ptTable
    rw [same, ← walked]
    exact (walksPt _ (by simp)).trans ((walksPd _ (by simp)).trans
      (walksPdp _ (by simp)))

/-- `map_page` of a page whose tables exist. -/
theorem mapPage_follows (follows : Follows layout ∅ cpu state)
    (wellFormed : WellFormed layout state frames) {leaf : Nat}
    (outside : ¬ InWindow layout virt) (notTable' : virt ≠ physWindowPt layout)
    (found : leafTable state.mem state.pml4.toNat virt = some leaf)
    (notTable : phys ≠ mapAnon →
      Has (readEntry state.mem leaf (leafIndex virt)) pageFBit →
      ¬ IsTable state.mem state.pml4.toNat
        (frameOf (readEntry state.mem leaf (leafIndex virt))).toNat)
    (present : Has flags pagePBit)
    (mapped : Mapper.mapPage layout state virt phys flags = .ok state') :
    ∃ cpu', mapPage layout cpu virt phys flags = .ok cpu' ∧
      Follows layout ∅ cpu' state' := by
  obtain ⟨page, isFrame⟩ := Calls.asserted_of_mapPage mapped
  have tables := wellFormed.tables
  obtain ⟨target, after, leafStep, rfl⟩ := leafStep_of_old tables page outside
    found isFrame present mapped
  obtain ⟨atPdp, atPd, atPt, pdpEq, pdEq, ptEq, followsPt, found'⟩ :=
    toPt_follows follows flags found
  have tableEq : (toPt layout state virt flags).1.toNat = leaf :=
    (toPt_flagged layout state flags tables found).2
  have entryEq : readEntry (lookedAt layout state virt flags).mem
      (toPt layout state virt flags).1.toNat (leafIndex virt) =
      readEntry state.mem leaf (leafIndex virt) := by
    rw [tableEq]
    exact lookedAt_leaf tables outside flags found
  have walked := (lookedAt_flagged layout flags tables found).keeps
    (noFrame_of_pml4Flags flags)
  have notWindow : virt ≠ physWindowPages layout := by
    rintro rfl
    rw [physWindowPages_eq] at outside
    exact outside (inWindow_windowPage layout.windowSize_pos)
  rw [← entryEq] at leafStep notTable
  obtain ⟨cpu', leafEq, follows'⟩ := mapLeaf_follows followsPt page
    (isFrame_toPt layout state virt flags) found' notTable' notWindow
    (lookedAt_wellFormed wellFormed flags found)
    (fun explicit marked isTable => notTable explicit marked
      (walked.isTable_iff.mp isTable)) leafStep
  refine ⟨invlpg cpu' virt, ?_, follows'.invlpg page⟩
  have canonical := page.1
  have aligned := page.2
  have physical : phys &&& ~~~pageAddrBits = 0#64 := isFrame
  simp only [mapPage, canonical, aligned, physical, present, not_true_eq_false,
    if_false, bind, Except.bind, pdpEq, pdEq, ptEq, leafEq]
  rfl

theorem Follows.mono {larger : Set Word}
    (follows : Follows layout stale cpu state) (subset : stale ⊆ larger) :
    Follows layout larger cpu state :=
  ⟨follows.mem, follows.pml4, follows.first, follows.tables, follows.windowPt,
    fun page target notStale => follows.fresh page target
      fun isStale => notStale (subset isStale)⟩

/-- The last level of `unmap_page`, where no frame goes back. -/
theorem unmapLeaf_follows (follows : Follows layout ∅ cpu state)
    (page : IsPage virt) (isFrame : IsFrame pt)
    (outside : ¬ InWindow layout virt)
    (notTable' : virt ≠ physWindowPt layout)
    (found : leafTable state.mem state.pml4.toNat virt = some pt.toNat)
    (unfreed : ¬ FreesOnUnmap state virt)
    (unmapped : Unmap.unmapLeaf layout state pt virt = .ok state') :
    ∃ cpu', unmapLeaf layout cpu pt virt = .ok cpu' ∧
      Follows layout (∅ ∪ {virt}) cpu' state' := by
  obtain ⟨looking, lookedEq, pointer, loaded, sees⟩ :=
    readEntry_sees follows isFrame virt 12
  have base := physLook_windowBase layout state isFrame
  have plain : Mapper.pointerTo (Window.physLook layout state pt) virt 12 21 =
      entryPointer virt 12 := pointerTo_physLook 12 isFrame
  have entryEq : readEntry (Window.physLook layout state pt).mem pt.toNat
      (indexAt virt 12) = readEntry state.mem pt.toNat (leafIndex virt) :=
    readEntry_leaf follows.tables outside
      ((SameButWindow.refl layout state).look pt) found
  simp only [Unmap.unmapLeaf, plain, load_entry base isFrame, bind,
    Except.bind] at unmapped
  rw [entryEq] at unmapped loaded
  by_cases present : Has (readEntry state.mem pt.toNat (leafIndex virt))
      pagePBit
  · have kept : ¬ Has (readEntry state.mem pt.toNat (leafIndex virt))
        pageFBit := fun marked =>
      unfreed ((freesOnUnmap_iff found).mpr ⟨present, marked⟩)
    have notWindow : virt ≠ physWindowPages layout := by
      rintro rfl
      rw [physWindowPages_eq] at outside
      exact outside (inWindow_windowPage layout.windowSize_pos)
    have sparedTable : physWindowPt layout ∉ ({virt} : Set Word) :=
      fun same => notTable' (Set.mem_singleton_iff.mp same).symm
    have sparedWindow : physWindowPages layout ∉ ({virt} : Set Word) :=
      fun same => notWindow (Set.mem_singleton_iff.mp same).symm
    have tables : Tables layout (Window.physLook layout state pt).mem
        state.pml4.toNat := sees.tables
    have short : (upperPath virt).length ≤ 3 := by simp
    have found' := (walk_physLook follows.tables pt short).trans found
    have changes := ChangesOnly.of_leaf tables page found'
      (readEntry state.mem pt.toNat (leafIndex virt) &&& ~~~pagePBit)
    obtain ⟨again, seesAgain⟩ := sees.load (Set.notMem_empty _)
      (entry_inside (leafIndex virt))
    obtain ⟨cpu', storedEq, -, seesStored⟩ := seesAgain.store
      (Set.notMem_empty _) (entry_inside (leafIndex virt)) changes sparedTable
      sparedWindow
    have pteEq : pointerTo looking virt 12 21 =
        looking.physWindow + BitVec.ofNat 64 (8 * (leafIndex virt).val) :=
      pointerTo_eq looking virt 12
    rw [settle_physWindow, ← pteEq] at again
    rw [settle_physWindow, settle_physWindow, ← pteEq] at storedEq
    have reread : readWord (Window.physLook layout state pt).mem
        (pt.toNat + 8 * (leafIndex virt).val) =
        readEntry state.mem pt.toNat (leafIndex virt) := entryEq
    rw [reread] at again
    simp only [present, kept, if_true, if_false, pure, Except.pure,
      load_entry base isFrame, entryEq, store_entry base isFrame] at unmapped
    cases unmapped
    refine ⟨cpu', ?_, seesStored.toFollows⟩
    simp only [unmapLeaf, lookedEq, loaded, present, kept, if_true, if_false,
      bind, Except.bind, pure, Except.pure, again]
    exact storedEq
  · simp only [present, if_false, pure, Except.pure] at unmapped
    cases unmapped
    refine ⟨looking.settle, ?_, sees.toFollows.mono Set.subset_union_left⟩
    simp only [unmapLeaf, lookedEq, loaded, present, if_false, bind, Except.bind]
    rfl

/-- A present entry of a table that the window shows leads on. -/
theorem walk_readEntry (tables : Tables layout state.mem state.pml4.toNat)
    {index : Index} (short : path.length ≤ 3)
    (reached : walk (child state.mem) state.pml4.toNat path =
      some table.toNat)
    (present : Has (readEntry (Window.physLook layout state table).mem
      table.toNat index) pagePBit) :
    walk (child (Window.physLook layout state table).mem) state.pml4.toNat
        (path ++ [index]) =
      some (frameOf (readEntry (Window.physLook layout state table).mem
        table.toNat index)).toNat := by
  rw [walk_snoc_of_walk ((walk_physLook tables table short).trans reached)]
  exact child_of_has present

theorem freesOnUnmap_of_looked (tables : Tables layout state.mem
      state.pml4.toNat) (outside : ¬ InWindow layout virt)
    (same : SameButWindow layout state looked)
    (frees : FreesOnUnmap looked virt) : FreesOnUnmap state virt := by
  obtain ⟨entry, found, marked⟩ := frees
  rw [same.pml4, (same.keepsPages tables).leafEntry_eq tables outside] at found
  exact ⟨entry, found, marked⟩

/-- `unmap_page`, where no frame goes back. -/
theorem unmapPage_follows (follows : Follows layout ∅ cpu state)
    (page : IsPage virt) (outside : ¬ InWindow layout virt)
    (notTable' : virt ≠ physWindowPt layout)
    (unfreed : ¬ FreesOnUnmap state virt)
    (unmapped : Mapper.unmapPage layout state virt = .ok state') :
    ∃ cpu', unmapPage layout cpu virt = .ok cpu' ∧
      Follows layout (∅ ∪ {virt}) cpu' state' := by
  have isFrame := follows.tables.isFrame_pml4
  obtain ⟨atPml4, pml4Look, -, pml4Load, seesPml4⟩ :=
    readEntry_sees follows isFrame virt 39
  rw [← follows.pml4] at pml4Look
  have load4 := @load_physLook layout state _ virt 39 isFrame
  have same4 := (SameButWindow.refl layout state).look state.pml4
  set state4 := Window.physLook layout state state.pml4 with state4Eq
  set pml4e := readEntry state4.mem state.pml4.toNat (indexAt virt 39)
    with pml4eEq
  by_cases present4 : Has pml4e pagePBit
  · have reach4 := walk_readEntry follows.tables (by decide) (walk_nil _)
      present4
    obtain ⟨atPdp, pdpLook, -, pdpLoad, seesPdp⟩ :=
      readEntry_sees seesPml4.toFollows (isFrame_frameOf pml4e) virt 30
    have load3 := @load_physLook layout state4 _ virt 30
      (isFrame_frameOf pml4e)
    have same3 := same4.look (frameOf pml4e)
    set state3 := Window.physLook layout state4 (frameOf pml4e) with state3Eq
    set pdpe := readEntry state3.mem (frameOf pml4e).toNat (indexAt virt 30)
      with pdpeEq
    by_cases present3 : Has pdpe pagePBit
    · have reach3 := walk_readEntry seesPml4.tables (by simp) reach4 present3
      obtain ⟨atPd, pdLook, -, pdLoad, seesPd⟩ :=
        readEntry_sees seesPdp.toFollows (isFrame_frameOf pdpe) virt 21
      have load2 := @load_physLook layout state3 _ virt 21
        (isFrame_frameOf pdpe)
      have same2 := same3.look (frameOf pdpe)
      set state2 := Window.physLook layout state3 (frameOf pdpe) with state2Eq
      set pde := readEntry state2.mem (frameOf pdpe).toNat (indexAt virt 21)
        with pdeEq
      by_cases present2 : Has pde pagePBit
      · have found := walk_readEntry seesPdp.tables (by simp) reach3 present2
        have plain : Mapper.unmapPage layout state virt =
            Unmap.unmapLeaf layout state2 (frameOf pde) virt := by
          simp only [Mapper.unmapPage, ← state4Eq, load4, bind, Except.bind,
            present4, not_true_eq_false, if_false, ← state3Eq, load3, present3,
            ← state2Eq, load2, present2]
          rfl
        rw [plain] at unmapped
        obtain ⟨cpu', leafEq, follows'⟩ := unmapLeaf_follows seesPd.toFollows
          page (isFrame_frameOf pde) outside notTable' found
          (fun frees => unfreed (freesOnUnmap_of_looked follows.tables outside
            same2 frees)) unmapped
        refine ⟨cpu', ?_, follows'⟩
        simp only [unmapPage, pml4Look, pml4Load, present4, not_true_eq_false,
          if_false, pdpLook, pdpLoad, present3, pdLook, pdLoad, present2, bind,
          Except.bind]
        exact leafEq
      · simp only [Mapper.unmapPage, ← state4Eq, load4, bind, Except.bind,
          present4, not_true_eq_false, if_false, ← state3Eq, load3, present3,
          ← state2Eq, load2, present2, not_false_eq_true, if_true, pure,
          Except.pure] at unmapped
        rw [← Except.ok.inj unmapped]
        refine ⟨atPd.settle, ?_, seesPd.toFollows.mono Set.subset_union_left⟩
        simp only [unmapPage, pml4Look, pml4Load, present4, not_true_eq_false,
          if_false, pdpLook, pdpLoad, present3, pdLook, pdLoad, present2,
          not_false_eq_true, if_true, bind, Except.bind]
        rfl
    · simp only [Mapper.unmapPage, ← state4Eq, load4, bind, Except.bind,
        present4, not_true_eq_false, if_false, ← state3Eq, load3, present3,
        not_false_eq_true, if_true, pure, Except.pure] at unmapped
      rw [← Except.ok.inj unmapped]
      refine ⟨atPdp.settle, ?_, seesPdp.toFollows.mono Set.subset_union_left⟩
      simp only [unmapPage, pml4Look, pml4Load, present4, not_true_eq_false,
        if_false, pdpLook, pdpLoad, present3, not_false_eq_true, if_true, bind,
        Except.bind]
      rfl
  · simp only [Mapper.unmapPage, ← state4Eq, load4, bind, Except.bind, present4,
      not_false_eq_true, if_true, pure, Except.pure] at unmapped
    rw [← Except.ok.inj unmapped]
    refine ⟨atPml4.settle, ?_, seesPml4.toFollows.mono Set.subset_union_left⟩
    simp only [unmapPage, pml4Look, pml4Load, present4, not_false_eq_true,
      if_true, bind, Except.bind]
    rfl

end Levels

/-! ## Runs -/

/-- The call maps no page that the mapper needs for itself. -/
def Apart (layout : Layout) : Ownership.Operation → Prop
  | .addPhysMem _ _ => True
  | .mapPage virt _ _ =>
      ¬ InWindow layout virt ∧ virt ≠ physWindowPt layout

/-- A call within the callers' rule that spares the mapper's own pages. -/
def Step (layout : Layout) (state : Mapper)
    (operation : Ownership.Operation) (state' : Mapper) : Prop :=
  Apart layout operation ∧ Ownership.Step layout state operation state'

section Runs

variable {layout : Layout} {cpu : Processor} {state state' : Mapper}
  {frames : List Nat} {operation : Ownership.Operation}
  {operations : List Ownership.Operation}

/-- One call. -/
theorem perform_follows (follows : Follows layout ∅ cpu state)
    (owned : Ownership.Owned layout state frames)
    (step : Step layout state operation state') :
    ∃ cpu', perform layout cpu operation = .ok cpu' ∧
      Follows layout ∅ cpu' state' := by
  obtain ⟨apart, sound, performed⟩ := step
  have wellFormed := owned.wellFormed
  cases operation with
  | addPhysMem physMemStart length =>
      obtain ⟨⟨aligned, _, long, bounded, _⟩, unused⟩ := sound
      have isFrame : IsFrame physMemStart :=
        (isFrame_iff physMemStart).mpr ⟨aligned, by omega⟩
      exact addPhysMem_follows follows isFrame
        (fun isTable => unused _ (BlockChain.start_mem_blockFrames (by omega))
          (Or.inl isTable)) performed
  | mapPage virt phys flags =>
      obtain ⟨outside, notTable'⟩ := apart
      obtain ⟨⟨table, found⟩, rule⟩ := sound
      obtain ⟨page, isFrame⟩ := Calls.asserted_of_mapPage performed
      by_cases present : Has flags pagePBit
      · refine mapPage_follows follows wellFormed outside notTable' found ?_
          present performed
        intro _ marked
        exact (owned.single virt _ ⟨page, outside, _,
          leafEntry_of_leafTable found, marked, rfl⟩).notTable
      · rw [Ownership.perform, mapPage_eq_unmapPage page isFrame present]
          at performed
        obtain ⟨cpu', unmapped, follows'⟩ := unmapPage_follows follows page
          outside notTable' ((rule outside).2 present) performed
        refine ⟨invlpg cpu' virt, ?_, follows'.invlpg page⟩
        have canonical := page.1
        have aligned := page.2
        have physical : phys &&& ~~~pageAddrBits = 0#64 := isFrame
        simp only [perform, mapPage, canonical, aligned, physical, present,
          not_true_eq_false, not_false_eq_true, if_true, if_false, bind,
          Except.bind, unmapped]
        rfl

theorem performAll_snoc :
    performAll layout cpu (operations ++ [operation]) =
      (performAll layout cpu operations).bind fun cpu =>
        perform layout cpu operation := by
  rw [performAll, List.foldlM_append]
  refine congrArg (Except.bind _) (funext fun last => ?_)
  rw [List.foldlM_cons]
  cases perform layout last operation with
  | error halt => rfl
  | ok _ => rfl

end Runs

/-- Whatever translations the processor keeps and drops at whatever time, runs
of `add_phys_mem` and `map_page` within the callers' rule do on it what they do
in the model, and leave it with no stale translation. -/
theorem run_translates (layout : Layout) (start state : Mapper)
    (operations : List Ownership.Operation) (cpu : Processor)
    (initial : Ownership.SingleOwner layout start)
    (windowPt : ∃ flags,
      translation start.mem start.pml4.toNat (physWindowPt layout) =
        some (BitVec.ofNat 64 layout.windowPt, flags))
    (mem : cpu.mem = start.mem) (pml4 : cpu.pml4 = start.pml4)
    (first : cpu.firstFreeBlock = start.firstFreeBlock)
    (fresh : Fresh (pageWalk start.mem start.pml4.toNat) ∅ cpu.cache)
    (run : Run (Step layout) start operations state) :
    ∃ cpu', performAll layout cpu operations = .ok cpu' ∧
      cpu'.mem = state.mem ∧ cpu'.pml4 = state.pml4 ∧
      cpu'.firstFreeBlock = state.firstFreeBlock ∧
      Fresh (pageWalk state.mem state.pml4.toNat) ∅ cpu'.cache ∧
      ∀ page, cpu'.translate page =
        pageWalk state.mem state.pml4.toNat page := by
  have isPage : IsPage (physWindowPt layout) := by
    rw [physWindowPt_eq]
    exact isPage_bootPage
  have followed : Ownership.SingleOwner layout state ∧
      ∃ cpu', performAll layout cpu operations = .ok cpu' ∧
        Follows layout ∅ cpu' state := by
    induction run with
    | nil =>
        obtain ⟨frames, owned⟩ := initial
        obtain ⟨flags, translated⟩ := windowPt
        refine ⟨⟨frames, owned⟩, cpu, rfl, mem, pml4, first,
          owned.wellFormed.tables, ⟨flags, ?_⟩, fresh⟩
        rw [pageWalk, if_pos isPage]
        exact translated
    | @snoc before operation here next _ step inductionHypothesis =>
        obtain ⟨⟨frames, owned⟩, middle, performed, follows⟩ :=
          inductionHypothesis
        obtain ⟨cpu', result, follows'⟩ := perform_follows follows owned step
        refine ⟨Ownership.owned_step owned step.2, cpu', ?_, follows'⟩
        rw [performAll_snoc, performed]
        exact result
  obtain ⟨-, cpu', performed, follows⟩ := followed
  refine ⟨cpu', performed, follows.mem, follows.pml4, follows.first,
    follows.fresh, fun page => ?_⟩
  rw [Processor.translate, follows.mem, follows.pml4]
  exact follows.fresh.lookup_eq (Set.notMem_empty page)

/-! ## A small run -/

/-- The boot state in which the window's page table translates itself. -/
def tableBoot : Mapper :=
  Ownership.emptyBoot fun position =>
    if position = 507 then 0x4003#64 else 0#64

/-- A processor that reads two translations before each access. -/
def tableCpu : Processor where
  mem := tableBoot.mem
  physWindow := 0#64
  pml4 := tableBoot.pml4
  firstFreeBlock := tableBoot.firstFreeBlock
  cache := fun _ => none
  activity := fun _ => [.fill (bootPage 0), .fill (bootPage 508)]
  time := 0

section Small

variable {virt entry : Word} {frame : Nat}

theorem tableBoot_leaf
    (found : leafEntry tableBoot.mem tableBoot.pml4.toNat virt = some entry) :
    entry = 0x4003#64 ∨ entry = 0#64 := by
  obtain ⟨-, rfl⟩ := leafEntry_boot_of_ne (by decide) (by decide) found
  by_cases same : (leafIndex virt).val = 507
  · exact Or.inl (if_pos same)
  · exact Or.inr (if_neg same)

theorem tableBoot_unmarked
    (names : Ownership.Names bootLayout tableBoot pageFBit virt frame) :
    False := by
  obtain ⟨entry, found, marked, -⟩ := names.entry
  rcases tableBoot_leaf found with rfl | rfl
  · exact absurd marked (by decide)
  · exact absurd marked (by decide)

theorem tableBoot_held
    (names : Ownership.Names bootLayout tableBoot pagePBit virt frame) :
    frame = 0x4000 := by
  obtain ⟨entry, found, present, rfl⟩ := names.entry
  rcases tableBoot_leaf found with rfl | rfl
  · decide
  · exact absurd present (by decide)

theorem tableBoot_sound :
    Ownership.Sound bootLayout tableBoot
      (.addPhysMem 0x10000#64 0x2000#64) := by
  refine ⟨Ownership.emptyBoot_allowed _, ?_⟩
  intro frame member inUse
  have above : 0x10000 ≤ frame := by
    obtain ⟨position, -, rfl⟩ := BlockChain.mem_blockFrames.mp member
    exact Nat.le_add_right _ _
  rcases inUse with isTable | ⟨virt, present | marked⟩
  · have bound := Ownership.emptyBoot_isTable isTable
    omega
  · have here := tableBoot_held present
    omega
  · exact tableBoot_unmarked marked

end Small

/-- Two frames are added, and one of them is mapped. -/
theorem run_translates_boot :
    ∃ (state : Mapper) (cpu' : Processor),
      performAll bootLayout tableCpu
          [.addPhysMem 0x10000#64 0x2000#64,
            .mapPage (bootPage 0) mapAnon 3#64] = .ok cpu' ∧
        cpu'.mem = state.mem ∧ cpu'.pml4 = state.pml4 ∧
        cpu'.firstFreeBlock = state.firstFreeBlock ∧
        Fresh (pageWalk state.mem state.pml4.toNat) ∅ cpu'.cache ∧
        ∀ page, cpu'.translate page =
          pageWalk state.mem state.pml4.toNat page := by
  obtain ⟨added, addedEq, wellFormed, -, leaves⟩ :=
    Ownership.emptyBoot_adds fun position =>
      if position = 507 then 0x4003#64 else 0#64
  have first : Run (Step bootLayout) tableBoot
      ([] ++ [.addPhysMem 0x10000#64 0x2000#64]) added :=
    Run.nil.snoc ⟨trivial, tableBoot_sound, addedEq⟩
  have outside : ¬ InWindow bootLayout (bootPage 0) := by decide
  have found := leaves 0 (by decide)
  obtain ⟨table, walked, -⟩ := Calls.leafTable_of_leafEntry found
  have sound : Ownership.Sound bootLayout added
      (.mapPage (bootPage 0) mapAnon 3#64) := by
    refine ⟨⟨table, walked⟩, fun _ =>
      ⟨fun _ => ?_, fun unmap => absurd (by decide) unmap⟩⟩
    refine ⟨fun explicit => absurd rfl explicit,
      fun explicit => absurd rfl explicit,
      fun marked => absurd marked (by decide),
      fun marked => absurd marked (by decide)⟩
  have owned : Ownership.SingleOwner bootLayout tableBoot :=
    ⟨[], Ownership.emptyBoot_wellFormed _, fun _ _ _ => List.not_mem_nil,
      fun _ _ names => (tableBoot_unmarked names).elim⟩
  have windowPt : ∃ flags,
      translation tableBoot.mem tableBoot.pml4.toNat
          (physWindowPt bootLayout) =
        some (BitVec.ofNat 64 bootLayout.windowPt, flags) := by
    refine ⟨0x4003#64 &&& ptFlagsMask, ?_⟩
    rw [physWindowPt_eq]
    have entry : leafEntry tableBoot.mem 0x1000
        (bootPage (tableIndex bootLayout)) = some 0x4003#64 :=
      leafEntry_boot (by decide) (by decide)
    refine (translation_of_leafEntry entry).trans ?_
    decide
  obtain ⟨state, mapped⟩ | ⟨_, _, _, empty⟩ := mapPage_returns wellFormed
    isPage_bootPage outside walked isFrame_zero (by decide : Has 3#64 pagePBit)
  · have run : Run (Step bootLayout) tableBoot
        ([.addPhysMem 0x10000#64 0x2000#64] ++
          [.mapPage (bootPage 0) mapAnon 3#64]) state :=
      first.snoc ⟨⟨outside, by decide⟩, sound, mapped⟩
    exact ⟨state, run_translates bootLayout tableBoot state _ tableCpu owned
      windowPt rfl rfl rfl fresh_empty run⟩
  · cases empty

end BeaverOS.Tlb

import BeaverOS.Memory.Unmap
import BeaverOS.Memory.UpperFlags

/-!
# Mapping a page whose tables exist

`map_page` with `PAGE_P_BIT` on a page whose three upper entries are present.
The walk flags the upper entries, the leaf step may free one frame or take one,
and the window moves before each of them and after. What the call leaves is
stated for the whole tree: the upper entries on the way, the leaf entry of the
page, and every other leaf entry outside the window.
-/

namespace BeaverOS.Populated

open BeaverOS.ByteMemory
open BeaverOS.RadixTree
open BeaverOS.Paging
open BeaverOS.Window
open BeaverOS.FrameAllocator
open BeaverOS.PageTree
open BeaverOS.Mapper
open BeaverOS.MapperState
open BeaverOS.UpperFlags
open BeaverOS.BootState
open BeaverOS.Unmap

/-- No leaf entry that carries `PAGE_F_BIT`, present or not, names a table
frame. -/
def MarkedLeaves (state : Mapper) : Prop :=
  ∀ virt entry,
    leafEntry state.mem state.pml4.toNat virt = some entry →
    Has entry pageFBit →
    ¬ IsTable state.mem state.pml4.toNat (frameOf entry).toNat

/-- The frame that `map_page` maps: the caller's one, or for `MAP_ANON` the one
already mapped, or else the head of the free list. -/
def chosenFrame (state : Mapper) (virt phys : Word) : Word :=
  if phys = mapAnon then
    match translation state.mem state.pml4.toNat virt with
    | some (frame, _) => frame
    | none => state.firstFreeBlock
  else
    phys

/-- The state in which `map_page` looks at the leaf entry. -/
def lookedAt (layout : Layout) (state : Mapper) (virt flags : Word) :
    Mapper :=
  physLook layout (toPt layout state virt flags).2
    (toPt layout state virt flags).1

/-! ## The walk -/

section Walk

variable {layout : Layout} {state looked : Mapper} {frames : List Nat}
  {virt flags : Word} {table root : Nat} {memory memory' : Memory}
  {marked : Set (List Index)}

theorem noFrame_of_pml4Flags (flags : Word) :
    frameOf (flags &&& pml4FlagsMask) = 0#64 :=
  frameOf_and_of_disjoint (by decide)

theorem lookedAt_flagged (layout : Layout) (flags : Word)
    (tables : Tables layout state.mem state.pml4.toNat)
    (found : leafTable state.mem state.pml4.toNat virt = some table) :
    UpperFlagged layout state.pml4.toNat (flags &&& pml4FlagsMask)
      (upperEntries virt) state.mem (lookedAt layout state virt flags).mem :=
  (toPt_flagged layout state flags tables found).1.look tables
    (agreeOff_physLook layout _ _)

/-- The walk of `map_page` writes no header of a frame that is no table. -/
theorem header_disjoint_of_not_table
    (tables : Tables layout state.mem state.pml4.toNat) {frame : Nat}
    (aligned : frame % 4096 = 0)
    (notTable : ¬ IsTable state.mem state.pml4.toNat frame) :
    Disjoint (cells frame 16)
      (slotCells layout ∪ tableCells state.mem state.pml4.toNat) := by
  refine Set.disjoint_union_right.mpr
    ⟨header_disjoint_slots layout aligned, ?_⟩
  rw [Set.disjoint_left]
  rintro cell inHeader ⟨other, isTable, inTable⟩
  have different : frame ≠ other := fun equal => notTable (equal ▸ isTable)
  have apart := frames_disjoint aligned (isTable.bounds tables.tree).1
    different (Nat.le_refl _) (show frame + 16 ≤ frame + 4096 by omega)
  exact Set.disjoint_left.mp apart inHeader inTable

theorem header_disjoint_tables
    (wellFormed : WellFormed layout state frames) {frame : Nat}
    (member : frame ∈ frames) :
    Disjoint (cells frame 16)
      (slotCells layout ∪ tableCells state.mem state.pml4.toNat) :=
  header_disjoint_of_not_table wellFormed.tables
    (wellFormed.free.bounds member).2.1
    fun isTable => wellFormed.tables_used frame isTable member

theorem wellFormed_of_flagged (wellFormed : WellFormed layout state frames)
    (noFrame : frameOf flags = 0#64)
    (flagged : UpperFlagged layout state.pml4.toNat flags marked state.mem
      looked.mem)
    (pml4 : looked.pml4 = state.pml4)
    (first : looked.firstFreeBlock = state.firstFreeBlock) :
    WellFormed layout looked frames := by
  have keeps := flagged.keeps noFrame
  constructor
  · rw [pml4]
    exact keeps.tables wellFormed.tables
  · rw [first]
    exact wellFormed.free.of_agreeOff flagged.agree fun _ member =>
      header_disjoint_tables wellFormed member
  · exact wellFormed.distinct
  · intro other isTable
    rw [pml4] at isTable
    exact wellFormed.tables_used other (keeps.isTable_iff.mp isTable)

theorem lookedAt_wellFormed (wellFormed : WellFormed layout state frames)
    (flags : Word)
    (found : leafTable state.mem state.pml4.toNat virt = some table) :
    WellFormed layout (lookedAt layout state virt flags) frames :=
  wellFormed_of_flagged wellFormed (noFrame_of_pml4Flags flags)
    (lookedAt_flagged layout flags wellFormed.tables found) rfl rfl

/-- The walk does not touch the leaf entry of a page outside the window. -/
theorem lookedAt_leaf (tables : Tables layout state.mem state.pml4.toNat)
    (outside : ¬ InWindow layout virt) (flags : Word)
    (found : leafTable state.mem state.pml4.toNat virt = some table) :
    readEntry (lookedAt layout state virt flags).mem table (leafIndex virt) =
      readEntry state.mem table (leafIndex virt) :=
  (lookedAt_flagged layout flags tables found).leaf_eq _ table _
    (length_upperPath virt) found (tables.not_isSlot found outside)

end Walk

/-! ## The leaf step -/

section Leaf

variable {layout : Layout} {state looked after : Mapper} {frames : List Nat}
  {entry phys target : Word}

/-- What the leaf step may change: slots, and bytes that lie in no table. -/
structure SparesTables (layout : Layout) (looked after : Mapper) : Prop where
  pml4 : after.pml4 = looked.pml4
  agree :
    ∃ changed : Set Nat,
      AgreeOff (slotCells layout ∪ changed) after.mem looked.mem ∧
      ∀ table, IsTable looked.mem looked.pml4.toNat table →
        Disjoint (cells table 4096) changed

theorem SparesTables.refl (layout : Layout) (looked : Mapper) :
    SparesTables layout looked looked :=
  ⟨rfl, ∅, AgreeOff.refl _ _, fun _ _ => Set.disjoint_empty _⟩

theorem SparesTables.look (spares : SparesTables layout looked after)
    (phys : Word) :
    SparesTables layout looked (physLook layout after phys) := by
  obtain ⟨changed, agree, spared⟩ := spares.agree
  exact ⟨spares.pml4, changed,
    ((agreeOff_physLook layout after phys).mono Set.subset_union_left).trans
      agree, spared⟩

theorem SparesTables.keeps (spares : SparesTables layout looked after)
    (tables : Tables layout looked.mem looked.pml4.toNat) :
    KeepsPages layout looked.pml4.toNat looked.mem after.mem := by
  obtain ⟨changed, agree, spared⟩ := spares.agree
  exact KeepsPages.of_agreeOff changed tables agree spared

/-- The entries of upper tables stay. -/
theorem SparesTables.readEntry_upper
    (spares : SparesTables layout looked after)
    (tables : Tables layout looked.mem looked.pml4.toNat)
    {path : List Index} {table : Nat} {index : Index}
    (short : path.length < 3)
    (reached :
      walk (child looked.mem) looked.pml4.toNat path = some table) :
    readEntry after.mem table index = readEntry looked.mem table index := by
  obtain ⟨changed, agree, spared⟩ := spares.agree
  exact readEntry_of_agreeOff tables.tree agree spared
    ⟨path, Nat.le_of_lt short, reached⟩
    (tables.upper_not_isSlot short reached)

theorem sparesTables_of_allocPage
    (wellFormed : WellFormed layout looked frames)
    (allocated : allocPage layout looked = .ok (target, after)) :
    SparesTables layout looked after := by
  cases frames with
  | nil =>
      have empty := wellFormed.free.first_eq_zero_iff.mpr rfl
      rw [allocPage_empty empty] at allocated
      cases allocated
  | cons frame rest =>
      obtain ⟨result, returned, taken⟩ : ∃ result,
          allocPage layout looked = .ok (looked.firstFreeBlock, result) ∧
            Taken layout looked result rest :=
        allocPage_spec wellFormed.free wellFormed.distinct
      rw [returned] at allocated
      cases allocated
      refine ⟨taken.pml4, headerCells rest, taken.agree, ?_⟩
      intro table isTable
      rw [Set.disjoint_left]
      rintro cell inTable ⟨other, member, inHeader⟩
      have listed : other ∈ frame :: rest := List.mem_cons_of_mem _ member
      have bounds := wellFormed.free.bounds listed
      have different : other ≠ table := fun equal =>
        wellFormed.tables_used table isTable (equal ▸ listed)
      have apart := frames_disjoint bounds.2.1
        (isTable.bounds wellFormed.tables.tree).1 different (Nat.le_refl _)
        (show other + 16 ≤ other + 4096 by omega)
      exact Set.disjoint_left.mp apart inHeader inTable

theorem sparesTables_of_freePage
    (tables : Tables layout looked.mem looked.pml4.toNat) {page : Word}
    (frame : IsFrame page)
    (notTable : ¬ IsTable looked.mem looked.pml4.toNat page.toNat)
    (freed : freePage layout looked page = .ok after) :
    SparesTables layout looked after := by
  rw [freePage_eq frame] at freed
  cases freed
  refine ⟨rfl, cells page.toNat 4096, ?_, ?_⟩
  · refine ((agreeOff_putHeader).mono ?_).trans
      ((agreeOff_physLook layout looked page).mono Set.subset_union_left)
    exact (cells_subset (Nat.le_refl _) (by omega)).trans
      Set.subset_union_right
  · intro table isTable
    exact frames_disjoint (isTable.bounds tables.tree).1
      ((isFrame_iff page).mp frame).1
      (fun equal => notTable (equal ▸ isTable)) (Nat.le_refl _) (Nat.le_refl _)

theorem LeafStep.sparesTables (wellFormed : WellFormed layout looked frames)
    (notTable : phys ≠ mapAnon → Has entry pageFBit →
      ¬ IsTable looked.mem looked.pml4.toNat (frameOf entry).toNat)
    (leafStep : LeafStep layout looked entry phys target after) :
    SparesTables layout looked after := by
  cases leafStep with
  | reused _ _ => exact SparesTables.refl layout looked
  | allocated _ _ allocated =>
      exact sparesTables_of_allocPage wellFormed allocated
  | released explicit _ marked freed =>
      exact sparesTables_of_freePage wellFormed.tables (isFrame_frameOf entry)
        (notTable explicit marked) freed
  | placed _ _ => exact SparesTables.refl layout looked

/-- The leaf step goes through, unless an anonymous page needs a frame and
none is free. -/
theorem leafTarget_returns (virt : Word)
    (wellFormed : WellFormed layout looked frames) {pt : Word}
    (frame : IsFrame pt) (phys : Word)
    (shown : looked = physLook layout state pt) :
    (∃ chosen, leafTarget layout looked (entryPointer virt 12) phys =
      .ok chosen) ∨
    (leafTarget layout looked (entryPointer virt 12) phys =
        .error (.panic "no memory availible") ∧
      phys = mapAnon ∧
      ¬ Has (readEntry looked.mem pt.toNat (leafIndex virt)) pagePBit ∧
      frames = []) := by
  subst shown
  rw [leafTarget_eq frame]
  simp only
  split
  · next anonymous =>
    split
    · exact Or.inl ⟨_, rfl⟩
    · next absent =>
      cases frames with
      | nil =>
          have empty := wellFormed.free.first_eq_zero_iff.mpr rfl
          exact Or.inr ⟨allocPage_empty empty, anonymous, absent, rfl⟩
      | cons free rest =>
          obtain ⟨result, returned, _⟩ : ∃ result,
              allocPage layout (physLook layout state pt) =
                .ok ((physLook layout state pt).firstFreeBlock, result) ∧
              Taken layout (physLook layout state pt) result rest :=
            allocPage_spec wellFormed.free wellFormed.distinct
          exact Or.inl ⟨_, returned⟩
  · split
    · rw [freePage_eq (isFrame_frameOf _)]
      exact Or.inl ⟨_, rfl⟩
    · exact Or.inl ⟨_, rfl⟩

end Leaf

/-! ## The whole call -/

/-- What `map_page` with `PAGE_P_BIT` leaves of the page tables. -/
structure LeafMapped (layout : Layout) (state state' : Mapper)
    (virt flags target : Word) : Prop where
  pml4 : state'.pml4 = state.pml4
  flagged :
    ∀ path table index, path.length < 3 →
      walk (child state.mem) state.pml4.toNat path = some table →
      path ++ [index] ∈ upperEntries virt →
      readEntry state'.mem table index =
        readEntry state.mem table index ||| (flags &&& pml4FlagsMask)
  unflagged :
    ∀ path table index, path.length < 3 →
      walk (child state.mem) state.pml4.toNat path = some table →
      path ++ [index] ∉ upperEntries virt →
      readEntry state'.mem table index = readEntry state.mem table index
  stored :
    LeafStored layout state.pml4.toNat state.mem state'.mem virt
      ((flags &&& ptFlagsMask) ||| target)

section Call

variable {layout : Layout} {state state' after : Mapper} {frames : List Nat}
  {virt phys flags target : Word} {table : Nat}

/-- A store to a leaf entry spares the entries of upper tables. -/
theorem readEntry_upper_writeWord {memory memory' : Memory} {root other : Nat}
    {path : List Index} (tables : Tables layout memory root)
    (found : leafTable memory root virt = some table)
    (short : path.length < 3)
    (reached : walk (child memory) root path = some other) (index : Index)
    (value : Word) :
    readEntry (writeWord memory' (entryAddress table (leafIndex virt)) value)
        other index =
      readEntry memory' other index := by
  have apart := tables.tree.leafTable_ne_upper short reached found
  exact readWord_writeWord_of_disjoint (entryAddress_disjoint
    (walk_bounds tables.tree reached).1 (walk_bounds tables.tree found).1
    fun both => apart both.1)

/-- The last two stores, after a leaf step that spares the tables. -/
theorem leafMapped_of_spares
    (tables : Tables layout state.mem state.pml4.toNat)
    (page : IsPage virt)
    (found : leafTable state.mem state.pml4.toNat virt = some table)
    (spares :
      SparesTables layout (lookedAt layout state virt flags) after) :
    LeafMapped layout state
      (leafWritten layout after (toPt layout state virt flags).1 virt
        ((flags &&& ptFlagsMask) ||| target)) virt flags target := by
  have flagged := lookedAt_flagged layout flags tables found
  have walked := flagged.keeps (noFrame_of_pml4Flags flags)
  have lookedTables := walked.tables tables
  have again := spares.look (toPt layout state virt flags).1
  have keeps := again.keeps lookedTables
  have tableEq : (toPt layout state virt flags).1.toNat = table :=
    (toPt_flagged layout state flags tables found).2
  have upper : ∀ path other index, path.length < 3 →
      walk (child state.mem) state.pml4.toNat path = some other →
      readEntry
          (leafWritten layout after (toPt layout state virt flags).1 virt
            ((flags &&& ptFlagsMask) ||| target)).mem other index =
        readEntry (lookedAt layout state virt flags).mem other index := by
    intro path other index short reached
    have reachedThen :
        walk (child (lookedAt layout state virt flags).mem) state.pml4.toNat
          path = some other :=
      (walked.walk_eq path (Nat.le_of_lt short)).trans reached
    rw [← again.readEntry_upper lookedTables short reachedThen,
      leafWritten, putWord_mem, tableEq]
    exact readEntry_upper_writeWord tables found short reached index _
  refine ⟨spares.pml4, ?_, ?_, ?_⟩
  · intro path other index short reached marked
    rw [upper path other index short reached]
    exact flagged.flagged path other index short reached marked
  · intro path other index short reached unmarked
    rw [upper path other index short reached]
    exact flagged.unflagged path other index short reached unmarked
  · rw [leafWritten, putWord_mem, tableEq]
    exact leafStored _ tables (walked.trans keeps) page found

/-- Every mapping that returns made one leaf step on the old entry. -/
theorem leafStep_of_old (tables : Tables layout state.mem state.pml4.toNat)
    (page : IsPage virt) (outside : ¬ InWindow layout virt)
    (found : leafTable state.mem state.pml4.toNat virt = some table)
    (frame : IsFrame phys) (present : Has flags pagePBit)
    (mapped : mapPage layout state virt phys flags = .ok state') :
    ∃ target after,
      LeafStep layout (lookedAt layout state virt flags)
        (readEntry state.mem table (leafIndex virt)) phys target after ∧
      state' =
        leafWritten layout after (toPt layout state virt flags).1 virt
          ((flags &&& ptFlagsMask) ||| target) := by
  have tableEq : (toPt layout state virt flags).1.toNat = table :=
    (toPt_flagged layout state flags tables found).2
  obtain ⟨target, after, leafStep, rfl⟩ :=
    leafStep_of_mapPage page frame present tables.isFrame_pml4 mapped
  rw [tableEq] at leafStep
  have entryEq := lookedAt_leaf tables outside flags found
  rw [lookedAt] at entryEq
  rw [entryEq] at leafStep
  exact ⟨target, after, leafStep, rfl⟩

/-- The leaf step spares the tables unless it gives one of them back. -/
theorem leafStep_spares (wellFormed : WellFormed layout state frames)
    (page : IsPage virt) (outside : ¬ InWindow layout virt)
    (found : leafTable state.mem state.pml4.toNat virt = some table)
    (notTable : phys ≠ mapAnon →
      Has (readEntry state.mem table (leafIndex virt)) pageFBit →
      ¬ IsTable state.mem state.pml4.toNat
        (frameOf (readEntry state.mem table (leafIndex virt))).toNat)
    (frame : IsFrame phys) (present : Has flags pagePBit)
    (mapped : mapPage layout state virt phys flags = .ok state') :
    ∃ target after,
      LeafStep layout (lookedAt layout state virt flags)
        (readEntry state.mem table (leafIndex virt)) phys target after ∧
      SparesTables layout (lookedAt layout state virt flags) after ∧
      state' =
        leafWritten layout after (toPt layout state virt flags).1 virt
          ((flags &&& ptFlagsMask) ||| target) := by
  have walked :=
    (lookedAt_flagged layout flags wellFormed.tables found).keeps
      (noFrame_of_pml4Flags flags)
  obtain ⟨target, after, leafStep, rfl⟩ := leafStep_of_old wellFormed.tables
    page outside found frame present mapped
  have spares := LeafStep.sparesTables
    (lookedAt_wellFormed wellFormed flags found)
    (fun explicit marked isTable => notTable explicit marked
      (walked.isTable_iff.mp isTable)) leafStep
  exact ⟨target, after, leafStep, spares, rfl⟩

theorem leafMapped_of_mapPage (wellFormed : WellFormed layout state frames)
    (markedLeaves : MarkedLeaves state) (page : IsPage virt)
    (outside : ¬ InWindow layout virt)
    (found : leafTable state.mem state.pml4.toNat virt = some table)
    (frame : IsFrame phys) (present : Has flags pagePBit)
    (mapped : mapPage layout state virt phys flags = .ok state') :
    ∃ target after,
      LeafStep layout (lookedAt layout state virt flags)
        (readEntry state.mem table (leafIndex virt)) phys target after ∧
      state' =
        leafWritten layout after (toPt layout state virt flags).1 virt
          ((flags &&& ptFlagsMask) ||| target) ∧
      LeafMapped layout state state' virt flags target := by
  obtain ⟨target, after, leafStep, spares, rfl⟩ :=
    leafStep_spares wellFormed page outside found
      (fun _ marked => markedLeaves virt _ (leafEntry_of_leafTable found)
        marked) frame present mapped
  exact ⟨target, after, leafStep, rfl,
    leafMapped_of_spares wellFormed.tables page found spares⟩

/-- The call returns, unless an anonymous page needs a frame and none is
free. -/
theorem mapPage_returns (wellFormed : WellFormed layout state frames)
    (page : IsPage virt) (outside : ¬ InWindow layout virt)
    (found : leafTable state.mem state.pml4.toNat virt = some table)
    (frame : IsFrame phys) (present : Has flags pagePBit) :
    (∃ state', mapPage layout state virt phys flags = .ok state') ∨
    (mapPage layout state virt phys flags =
        .error (.panic "no memory availible") ∧
      phys = mapAnon ∧
      ¬ Has (readEntry state.mem table (leafIndex virt)) pagePBit ∧
      frames = []) := by
  have tableEq : (toPt layout state virt flags).1.toNat = table :=
    (toPt_flagged layout state flags wellFormed.tables found).2
  have entryEq := lookedAt_leaf wellFormed.tables outside flags found
  rw [mapPage_eq_mapLeaf page frame present wellFormed.isFrame_pml4,
    mapLeaf_eq (isFrame_toPt layout state virt flags)]
  rcases leafTarget_returns virt (lookedAt_wellFormed wellFormed flags found)
      (isFrame_toPt layout state virt flags) phys rfl with
    ⟨chosen, returned⟩ | ⟨panicked, anonymous, absent, empty⟩
  · rw [lookedAt] at returned
    rw [returned]
    exact Or.inl ⟨_, rfl⟩
  · rw [lookedAt] at panicked
    rw [tableEq, entryEq] at absent
    rw [panicked]
    exact Or.inr ⟨rfl, anonymous, absent, empty⟩

theorem translation_of_leafTable
    (found : leafTable state.mem state.pml4.toNat virt = some table) :
    translation state.mem state.pml4.toNat virt =
      if Has (readEntry state.mem table (leafIndex virt)) pagePBit then
        some (frameOf (readEntry state.mem table (leafIndex virt)),
          readEntry state.mem table (leafIndex virt) &&& ptFlagsMask)
      else none :=
  translation_of_leafEntry (leafEntry_of_leafTable found)

/-- The leaf step puts in the frame that the caller is promised. -/
theorem target_eq_chosenFrame
    (found : leafTable state.mem state.pml4.toNat virt = some table)
    (free : FreeList state.mem state.firstFreeBlock frames)
    (leafStep : LeafStep layout (lookedAt layout state virt flags)
      (readEntry state.mem table (leafIndex virt)) phys target after) :
    target = chosenFrame state virt phys := by
  rw [chosenFrame, translation_of_leafTable found]
  cases leafStep with
  | reused anonymous isPresent => rw [if_pos anonymous, if_pos isPresent]
  | allocated anonymous absent allocated =>
      have first : IsFrame (lookedAt layout state virt flags).firstFreeBlock :=
        free.isFrame_first
      rw [if_pos anonymous, if_neg absent]
      exact (allocPage_popped first allocated).2.1
  | released explicit _ _ _ => rw [if_neg explicit]
  | placed explicit _ => rw [if_neg explicit]

theorem isFrame_chosenFrame (frame : IsFrame phys)
    (free : FreeList state.mem state.firstFreeBlock frames) :
    IsFrame (chosenFrame state virt phys) := by
  rw [chosenFrame]
  split
  · split
    · next chosen _ translated =>
      rw [translation] at translated
      obtain ⟨entry, _, image⟩ := Option.bind_eq_some_iff.mp translated
      split at image
      · cases image
        exact isFrame_frameOf entry
      · cases image
    · exact free.isFrame_first
  · exact frame

/-- `virt` translates to `target` with the leaf flags of `flags`, and every
other page outside the window translates as before. -/
structure PageMapped (layout : Layout) (state state' : Mapper)
    (virt flags target : Word) : Prop where
  here :
    translation state'.mem state'.pml4.toNat virt =
      some (target, flags &&& ptFlagsMask)
  others :
    ∀ other, IsPage other → other ≠ virt → ¬ InWindow layout other →
      translation state'.mem state'.pml4.toNat other =
        translation state.mem state.pml4.toNat other

theorem LeafMapped.pageMapped (present : Has flags pagePBit)
    (frame : IsFrame target)
    (mapped : LeafMapped layout state state' virt flags target) :
    PageMapped layout state state' virt flags target := by
  have flagsKept : Has ((flags &&& ptFlagsMask) ||| target) pagePBit :=
    has_or.mpr (Or.inl ((has_and_of_subset (by decide)).mpr present))
  have noFlags : target &&& ptFlagsMask = 0#64 :=
    flags_of_frame frame (by decide)
  constructor
  · rw [mapped.pml4, translation_of_leafEntry mapped.stored.here,
      if_pos flagsKept, frameOf_flags_or (by decide) frame,
      BitVec.and_or_distrib_right, BitVec.and_assoc, BitVec.and_self, noFlags,
      BitVec.or_zero]
  · intro other otherPage different otherOutside
    rw [mapped.pml4]
    exact translation_congr
      (mapped.stored.elsewhere other otherPage different otherOutside)

/-- `map_page` with `PAGE_P_BIT` on a populated path maps the page, and no
other. It stops only where an anonymous page that is not mapped finds the free
list empty. -/
theorem mapPage_maps (wellFormed : WellFormed layout state frames)
    (markedLeaves : MarkedLeaves state) (page : IsPage virt)
    (outside : ¬ InWindow layout virt)
    (found : leafTable state.mem state.pml4.toNat virt = some table)
    (frame : IsFrame phys) (present : Has flags pagePBit) :
    (∃ state', mapPage layout state virt phys flags = .ok state' ∧
      PageMapped layout state state' virt flags
        (chosenFrame state virt phys)) ∨
    (mapPage layout state virt phys flags =
        .error (.panic "no memory availible") ∧
      phys = mapAnon ∧ translation state.mem state.pml4.toNat virt = none ∧
      frames = []) := by
  rcases mapPage_returns wellFormed page outside found frame present with
    ⟨state', mapped⟩ | ⟨panicked, anonymous, absent, empty⟩
  · obtain ⟨target, after, leafStep, _, leafMapped⟩ :=
      leafMapped_of_mapPage wellFormed markedLeaves page outside found frame
        present mapped
    have targetEq := target_eq_chosenFrame found wellFormed.free leafStep
    subst targetEq
    exact Or.inl ⟨state', mapped, LeafMapped.pageMapped present
      (isFrame_chosenFrame frame wellFormed.free) leafMapped⟩
  · refine Or.inr ⟨panicked, anonymous, ?_, empty⟩
    rw [translation_of_leafTable found, if_neg absent]

end Call

theorem sharedBoot_markedLeaves : MarkedLeaves (sharedBoot 3#64) := by
  intro virt entry found marked
  obtain ⟨_, rfl⟩ := leafEntry_boot_of_ne (by decide) (by decide) found
  exact absurd marked (by decide)

/-- The boot state maps an anonymous page over the frame it shows. -/
theorem mapPage_maps_boot :
    (∃ state', mapPage bootLayout (sharedBoot 3#64) (bootPage 0) mapAnon
        3#64 = .ok state' ∧
      PageMapped bootLayout (sharedBoot 3#64) state' (bootPage 0) 3#64
        (chosenFrame (sharedBoot 3#64) (bootPage 0) mapAnon)) ∨
    (mapPage bootLayout (sharedBoot 3#64) (bootPage 0) mapAnon 3#64 =
        .error (.panic "no memory availible") ∧
      mapAnon = mapAnon ∧
      translation (sharedBoot 3#64).mem (sharedBoot 3#64).pml4.toNat
        (bootPage 0) = none ∧
      BlockChain.blockFrames 4096 0x10000 2 = []) :=
  mapPage_maps (sharedBoot_wellFormed 3#64) sharedBoot_markedLeaves
    isPage_bootPage (bootPage_outside (by decide))
    (leafTable_boot (by decide) (by decide)) isFrame_zero (by decide)

end BeaverOS.Populated

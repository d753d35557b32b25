import BeaverOS.Memory.Reserve

/-!
# What a call leaves of the page-table entries

`map_page` ORs flags into the upper entries on the way to its page and stores
one leaf entry. `unmap_page` and `add_phys_mem` leave the upper entries alone.
As long as no call gives back a table frame, every other entry outside the
window stays, and so do the headers off the tables.
-/

namespace BeaverOS.Entries

open BeaverOS.ByteMemory
open BeaverOS.RadixTree
open BeaverOS.Paging
open BeaverOS.Window
open BeaverOS.FrameAllocator
open BeaverOS.PageTree
open BeaverOS.Mapper
open BeaverOS.MapperState
open BeaverOS.UpperFlags
open BeaverOS.Unmap
open BeaverOS.Populated
open BeaverOS.Calls
open BeaverOS.Reserve

/-- `flags` have gone into the upper entries of `virt`, and all leaf entries
but those of `virt` and of the window are as before. -/
structure EntriesAfter (layout : Layout) (state state' : Mapper)
    (virt flags : Word) : Prop where
  pml4 : state'.pml4 = state.pml4
  tables : Tables layout state'.mem state'.pml4.toNat
  walk_eq :
    ∀ path : List Index, path.length ≤ 3 →
      walk (child state'.mem) state.pml4.toNat path =
        walk (child state.mem) state.pml4.toNat path
  flagged :
    ∀ path table index, path.length < 3 →
      walk (child state.mem) state.pml4.toNat path = some table →
      path ++ [index] ∈ upperEntries virt →
      readEntry state'.mem table index =
        readEntry state.mem table index ||| flags
  unflagged :
    ∀ path table index, path.length < 3 →
      walk (child state.mem) state.pml4.toNat path = some table →
      path ++ [index] ∉ upperEntries virt →
      readEntry state'.mem table index = readEntry state.mem table index
  elsewhere :
    ∀ other, IsPage other → other ≠ virt → ¬ InWindow layout other →
      leafEntry state'.mem state'.pml4.toNat other =
        leafEntry state.mem state.pml4.toNat other

/-- Some set of headers is off the tables. -/
def HeadersOffTables (state : Mapper) : Prop :=
  ∃ heads, OffTables state heads

section Entries

variable {layout : Layout} {state state' looked : Mapper}
  {virt phys flags value target : Word} {heads : Set Nat} {table : Nat}

theorem EntriesAfter.of_leafMapped
    (mapped : LeafMapped layout state state' virt flags target) :
    EntriesAfter layout state state' virt (flags &&& pml4FlagsMask) := by
  obtain ⟨pml4, flagged, unflagged, stored⟩ := mapped
  refine ⟨pml4, ?_, stored.walk_eq, flagged, unflagged, ?_⟩
  · rw [pml4]
    exact stored.tables
  · rw [pml4]
    exact stored.elsewhere

theorem EntriesAfter.of_flagged
    (tables : Tables layout state.mem state.pml4.toNat)
    (noFrame : frameOf flags = 0#64)
    (flagged : UpperFlagged layout state.pml4.toNat flags (upperEntries virt)
      state.mem state'.mem) (pml4 : state'.pml4 = state.pml4) :
    EntriesAfter layout state state' virt flags := by
  have keeps := flagged.keeps noFrame
  refine ⟨pml4, ?_, keeps.walk_eq, flagged.flagged, flagged.unflagged, ?_⟩
  · rw [pml4]
    exact keeps.tables tables
  · intro other _ _ outside
    rw [pml4]
    exact keeps.leafEntry_eq tables outside

theorem tables_of_spares (tables : Tables layout state.mem state.pml4.toNat)
    (spares : SparesTables layout state state') :
    Tables layout state'.mem state'.pml4.toNat := by
  rw [spares.pml4]
  exact (spares.keeps tables).tables tables

/-- Nothing happens to the entries outside the window. -/
theorem EntriesAfter.of_spares (virt : Word)
    (tables : Tables layout state.mem state.pml4.toNat)
    (spares : SparesTables layout state state') :
    EntriesAfter layout state state' virt 0#64 ∧
      ∀ other, ¬ InWindow layout other →
        leafEntry state'.mem state'.pml4.toNat other =
          leafEntry state.mem state.pml4.toNat other := by
  have keeps := spares.keeps tables
  have leaves : ∀ other, ¬ InWindow layout other →
      leafEntry state'.mem state'.pml4.toNat other =
        leafEntry state.mem state.pml4.toNat other := by
    intro other outside
    rw [spares.pml4]
    exact keeps.leafEntry_eq tables outside
  refine ⟨⟨spares.pml4, tables_of_spares tables spares, keeps.walk_eq, ?_, ?_,
    fun other _ _ outside => leaves other outside⟩, leaves⟩
  · intro path table index short reached _
    rw [spares.readEntry_upper tables short reached, BitVec.or_zero]
  · intro path table index short reached _
    exact spares.readEntry_upper tables short reached

theorem spares_of_sameButWindow (same : SameButWindow layout state state') :
    SparesTables layout state state' :=
  ⟨same.pml4, ∅, same.agree.mono Set.subset_union_left,
    fun _ _ => Set.disjoint_empty _⟩

theorem spares_trans (tables : Tables layout state.mem state.pml4.toNat)
    (first : SparesTables layout state looked)
    (second : SparesTables layout looked state') :
    SparesTables layout state state' := by
  have keeps := first.keeps tables
  obtain ⟨pml4, changed, agree, spared⟩ := first
  obtain ⟨pml4', changed', agree', spared'⟩ := second
  refine ⟨pml4'.trans pml4, changed ∪ changed', ?_, ?_⟩
  · exact (agree'.mono (Set.union_subset_union_right _
      Set.subset_union_right)).trans (agree.mono
        (Set.union_subset_union_right _ Set.subset_union_left))
  · intro table isTable
    refine Set.disjoint_union_right.mpr ⟨spared table isTable,
      spared' table ?_⟩
    rw [pml4]
    exact keeps.isTable_iff.mpr isTable

/-- A store to a leaf entry, after the window moved. -/
theorem OffTables.putLeaf (offTables : OffTables state heads)
    (tables : Tables layout state.mem state.pml4.toNat) (page : IsPage virt)
    (found : leafTable state.mem state.pml4.toNat virt = some table)
    (same : SameButWindow layout state looked) (value : Word) :
    OffTables (putWord looked (entryAddress table (leafIndex virt)) value)
      heads := by
  have stored := leafStored value tables (same.keepsPages tables) page found
  refine offTables.of_agreeOff tables ?_ ?_ same.first
  · refine ((agreeOff_writeWord _ _ _).mono ?_).trans
      (same.agree.mono Set.subset_union_left)
    exact fun cell inside =>
      Or.inr ⟨table, isTable_of_leafTable found, entryCells_subset inside⟩
  · intro frame
    rw [putWord_pml4, same.pml4]
    exact isTable_congr stored.walk_eq

/-- Clearing a leaf entry without giving its frame back. -/
theorem EntriesAfter.of_putLeaf
    (tables : Tables layout state.mem state.pml4.toNat) (page : IsPage virt)
    (found : leafTable state.mem state.pml4.toNat virt = some table)
    (same : SameButWindow layout state looked) (value : Word) :
    EntriesAfter layout state
      (putWord looked (entryAddress table (leafIndex virt)) value) virt 0#64 ∧
    leafEntry (putWord looked (entryAddress table (leafIndex virt)) value).mem
      state.pml4.toNat virt = some value := by
  have stored := leafStored value tables (same.keepsPages tables) page found
  have upper : ∀ path other index, path.length < 3 →
      walk (child state.mem) state.pml4.toNat path = some other →
      readEntry (putWord looked (entryAddress table (leafIndex virt))
        value).mem other index = readEntry state.mem other index := by
    intro path other index short reached
    rw [putWord_mem, readEntry_upper_writeWord tables found short reached,
      (spares_of_sameButWindow same).readEntry_upper tables short reached]
  refine ⟨⟨same.pml4, ?_, stored.walk_eq, ?_, ?_, ?_⟩, stored.here⟩
  · rw [putWord_pml4, same.pml4]
    exact stored.tables
  · intro path other index short reached _
    rw [upper path other index short reached, BitVec.or_zero]
  · intro path other index short reached _
    exact upper path other index short reached
  · rw [putWord_pml4, same.pml4]
    exact stored.elsewhere

end Entries

/-! ## Calls that give back no table -/

/-- The frame that a call of `map_page` gives back. -/
def GivesBack (state : Mapper) (virt phys flags : Word) (frame : Nat) : Prop :=
  ∃ entry, leafEntry state.mem state.pml4.toNat virt = some entry ∧
    Has entry pageFBit ∧ (frameOf entry).toNat = frame ∧
    if Has flags pagePBit then phys ≠ mapAnon ∧ phys ≠ frameOf entry
    else Has entry pagePBit

/-- The call gives back no table. Unmapping a page with `PAGE_F_BIT` clears a
bit in the frame that goes back, which is to leave the size in its header
alone. -/
structure Spares (state : Mapper) (virt phys flags : Word) : Prop where
  notTable :
    ∀ frame, GivesBack state virt phys flags frame →
      ¬ IsTable state.mem state.pml4.toNat frame
  notSize :
    ¬ Has flags pagePBit → FreesOnUnmap state virt → leafIndex virt ≠ 0

section Calls

variable {layout : Layout} {state state' : Mapper}
  {virt phys flags page : Word} {heads : Set Nat} {table : Nat}

theorem OffTables.isFrame_first (offTables : OffTables state heads) :
    IsFrame state.firstFreeBlock := by
  rw [isFrame_iff]
  rcases offTables.first with zero | member
  · rw [zero]
    decide
  · have block := offTables.blocks _ member
    have positive := block.positive
    have bounded := block.bounded
    exact ⟨block.aligned, by omega⟩

/-- `map_page` with `PAGE_P_BIT`, on a page outside the window. -/
private theorem mapPage_outside (offTables : OffTables state heads)
    (tables : Tables layout state.mem state.pml4.toNat)
    (outside : ¬ InWindow layout virt)
    (found : leafTable state.mem state.pml4.toNat virt = some table)
    (spares : Spares state virt phys flags) (present : Has flags pagePBit)
    (mapped : mapPage layout state virt phys flags = .ok state') :
    HeadersOffTables state' ∧
      EntriesAfter layout state state' virt (flags &&& pml4FlagsMask) ∧
      ∃ target, IsFrame target ∧
        leafEntry state'.mem state'.pml4.toNat virt =
          some ((flags &&& ptFlagsMask) ||| target) := by
  obtain ⟨page, frame⟩ := asserted_of_mapPage mapped
  have tableEq : (toPt layout state virt flags).1.toNat = table :=
    (toPt_flagged layout state flags tables found).2
  have flagged := lookedAt_flagged layout flags tables found
  have keeps := flagged.keeps (noFrame_of_pml4Flags flags)
  have lookedTables : Tables layout (lookedAt layout state virt flags).mem
      (lookedAt layout state virt flags).pml4.toNat := keeps.tables tables
  have lookedOff : OffTables (lookedAt layout state virt flags) heads :=
    offTables.of_agreeOff tables flagged.agree
      (fun _ => keeps.isTable_iff) rfl
  obtain ⟨target, after, leafStep, rfl⟩ :=
    leafStep_of_old tables page outside found frame present mapped
  have stepped : HeadersOffTables after ∧
      SparesTables layout (lookedAt layout state virt flags) after ∧
      IsFrame target := by
    cases leafStep with
    | reused _ _ =>
        exact ⟨⟨heads, lookedOff⟩, SparesTables.refl _ _, isFrame_frameOf _⟩
    | allocated _ _ allocated =>
        obtain ⟨after, spared⟩ :=
          allocPage_offTables lookedOff lookedTables allocated
        have targetEq := (allocPage_popped
          (OffTables.isFrame_first lookedOff) allocated).2.1
        exact ⟨after, spared, targetEq ▸ OffTables.isFrame_first lookedOff⟩
    | released explicit different marked freed =>
        have notTable := spares.notTable _ ⟨_, leafEntry_of_leafTable found,
          marked, rfl, by rw [if_pos present]; exact ⟨explicit, different⟩⟩
        obtain ⟨after, spared⟩ := freePage_offTables lookedOff lookedTables
          (isFrame_frameOf _)
          (fun isTable => notTable (keeps.isTable_iff.mp isTable)) freed
        exact ⟨⟨_, after⟩, spared, frame⟩
    | placed _ _ =>
        exact ⟨⟨heads, lookedOff⟩, SparesTables.refl _ _, frame⟩
  obtain ⟨⟨heads', afterOff⟩, spared, targetFrame⟩ := stepped
  have leafMapped : LeafMapped layout state
      (leafWritten layout after (toPt layout state virt flags).1 virt
        ((flags &&& ptFlagsMask) ||| target)) virt flags target :=
    leafMapped_of_spares tables page found spared
  have afterKeeps := spared.keeps lookedTables
  have afterTables := tables_of_spares lookedTables spared
  have afterFound : leafTable after.mem after.pml4.toNat virt = some table := by
    rw [spared.pml4]
    exact (afterKeeps.leafTable_eq virt).trans
      ((keeps.leafTable_eq virt).trans found)
  refine ⟨⟨heads', ?_⟩, EntriesAfter.of_leafMapped leafMapped, target,
    targetFrame, ?_⟩
  · rw [leafWritten, tableEq]
    exact OffTables.putLeaf afterOff afterTables page afterFound
      ((SameButWindow.refl layout after).look _) _
  · rw [leafMapped.pml4]
    exact leafMapped.stored.here

/-- `map_page` with `PAGE_P_BIT`. -/
theorem mapPage_entries (offTables : OffTables state heads)
    (tables : Tables layout state.mem state.pml4.toNat)
    (found : leafTable state.mem state.pml4.toNat virt = some table)
    (spares : ¬ InWindow layout virt → Spares state virt phys flags)
    (present : Has flags pagePBit)
    (mapped : mapPage layout state virt phys flags = .ok state') :
    HeadersOffTables state' ∧
      EntriesAfter layout state state' virt (flags &&& pml4FlagsMask) ∧
      ∃ target, IsFrame target ∧
        leafEntry state'.mem state'.pml4.toNat virt =
          some ((flags &&& ptFlagsMask) ||| target) := by
  by_cases inside : InWindow layout virt
  · obtain ⟨page, frame⟩ := asserted_of_mapPage mapped
    have noFrame := noFrame_of_pml4Flags flags
    obtain ⟨pml4, first, flagged, target, targetFrame, stored⟩ :=
      mapPage_inWindow tables page inside frame present mapped
    have keeps := flagged.keeps noFrame
    have after := EntriesAfter.of_flagged tables noFrame flagged pml4
    refine ⟨⟨heads, offTables.of_agreeOff tables flagged.agree ?_ first⟩,
      after, target, targetFrame, ?_⟩
    · intro frame
      rw [pml4]
      exact keeps.isTable_iff
    · rw [leafEntry_of_leafTable (Tables.leafTable_window after.tables inside),
        stored]
  · exact mapPage_outside offTables tables inside found (spares inside) present
      mapped

/-- Clearing a bit in a frame that has just gone back spares its header, as
long as it is not the size that is cleared. -/
private theorem offTables_putFreed (offTables : OffTables state heads)
    (tables : Tables layout state.mem state.pml4.toNat)
    (member : page.toNat ∈ heads) {index : Index} (notSize : index ≠ 0) :
    OffTables (putWord state (entryAddress page.toNat index)
        (readEntry state.mem page.toNat index &&& ~~~pagePBit)) heads ∧
      SparesTables layout state (putWord state (entryAddress page.toNat index)
        (readEntry state.mem page.toNat index &&& ~~~pagePBit)) := by
  have block := offTables.blocks _ member
  have positive : 0 < index.val := Nat.pos_of_ne_zero fun zero =>
    notSize (Fin.ext zero)
  have written : AgreeOff (cells page.toNat 4096)
      (putWord state (entryAddress page.toNat index)
        (readEntry state.mem page.toNat index &&& ~~~pagePBit)).mem state.mem :=
    (agreeOff_writeWord _ _ _).mono entryCells_subset
  have spares : SparesTables layout state
      (putWord state (entryAddress page.toNat index)
        (readEntry state.mem page.toNat index &&& ~~~pagePBit)) := by
    refine ⟨rfl, cells page.toNat 4096,
      written.mono Set.subset_union_right, ?_⟩
    intro other isTable
    exact frames_disjoint (isTable.bounds tables.tree).1 block.aligned
      (fun equal => block.notTable (equal ▸ isTable)) (Nat.le_refl _)
      (Nat.le_refl _)
  refine ⟨⟨offTables.first, ?_⟩, spares⟩
  intro head isHead
  have other := offTables.blocks head isHead
  refine other.congr ?_ (fun _ => (spares.keeps tables).isTable_iff)
    subset_rfl
  by_cases here : head = page.toNat
  · subst here
    constructor
    · exact congrArg BitVec.toNat
        (readWord_writeWord_of_disjoint (by rw [entryAddress]; omega))
    · by_cases isNext : index.val = 1
      · have address : entryAddress page.toNat index = page.toNat + 8 := by
          rw [entryAddress, isNext]
        have aligned : (readEntry state.mem page.toNat index).toNat % 4096 =
            0 := by
          rw [readEntry, address]
          rcases block.next with zero | linked
          · rw [headerNext] at zero
            omega
          · exact (offTables.blocks _ linked).aligned
        rw [clear_absent (not_has_pagePBit_of_aligned aligned), headerNext,
          putWord_mem, address, readWord_writeWord_same, readEntry, address]
        rfl
      · exact congrArg BitVec.toNat
          (readWord_writeWord_of_disjoint (by rw [entryAddress]; omega))
  · refine header_eq written ?_
    have header : head + 16 ≤ head + 4096 := by omega
    exact frames_disjoint other.aligned block.aligned here (Nat.le_refl _)
      header

/-- `unmap_page`. A page that is still present has its old entry. -/
theorem unmapPage_entries (offTables : OffTables state heads)
    (tables : Tables layout state.mem state.pml4.toNat)
    (page : IsPage virt)
    (spares : ¬ InWindow layout virt → Spares state virt phys flags)
    (unmap : ¬ Has flags pagePBit)
    (unmapped : unmapPage layout state virt = .ok state') :
    HeadersOffTables state' ∧
      EntriesAfter layout state state' virt 0#64 ∧
      (¬ InWindow layout virt → ∀ entry,
        leafEntry state'.mem state'.pml4.toNat virt = some entry →
        Has entry pagePBit →
        leafEntry state.mem state.pml4.toNat virt = some entry) := by
  by_cases inside : InWindow layout virt
  · have same := unmapPage_inWindow tables inside unmapped
    exact ⟨⟨heads, offTables.look tables same⟩,
      (EntriesAfter.of_spares virt tables (spares_of_sameButWindow same)).1,
      fun outside => absurd inside outside⟩
  obtain ⟨result, returned, outcome⟩ := unmapPage_outcome tables inside
  rw [returned] at unmapped
  cases unmapped
  have spared : ∀ after, SparesTables layout state after →
      EntriesAfter layout state after virt 0#64 ∧
      (¬ InWindow layout virt → ∀ entry,
        leafEntry after.mem after.pml4.toNat virt = some entry →
        Has entry pagePBit →
        leafEntry state.mem state.pml4.toNat virt = some entry) := by
    intro after spared
    obtain ⟨entries, leaves⟩ := EntriesAfter.of_spares virt tables spared
    exact ⟨entries, fun outside entry found _ =>
      (leaves virt outside).symm.trans found⟩
  cases outcome with
  | noTable _ same =>
      exact ⟨⟨heads, offTables.look tables same⟩,
        spared _ (spares_of_sameButWindow same)⟩
  | absent _ _ same =>
      exact ⟨⟨heads, offTables.look tables same⟩,
        spared _ (spares_of_sameButWindow same)⟩
  | @cleared looked table walked _ _ same =>
      obtain ⟨entries, here⟩ := EntriesAfter.of_putLeaf tables page walked same
        (readEntry state.mem table (leafIndex virt) &&& ~~~pagePBit)
      refine ⟨⟨heads, OffTables.putLeaf offTables tables page walked same _⟩,
        entries, ?_⟩
      intro _ entry found present
      rw [putWord_pml4, same.pml4, here] at found
      cases found
      exact absurd present (not_has_and_of_disjoint (by decide))
  | @freed looked released table freedPage walked present marked same pageEq
      freedEq =>
      have rule := spares inside
      have found := leafEntry_of_leafTable walked
      have notTable := rule.notTable _ ⟨_, found, marked, rfl, by
        rw [if_neg unmap]
        exact present⟩
      rw [← pageEq] at notTable
      have moved := spares_of_sameButWindow same
      have lookedTables := tables_of_spares tables moved
      have lookedNot :
          ¬ IsTable looked.mem looked.pml4.toNat freedPage.toNat := by
        rw [same.pml4]
        exact fun isTable =>
          notTable ((moved.keeps tables).isTable_iff.mp isTable)
      obtain ⟨releasedOff, releasing⟩ := freePage_offTables
        (offTables.look tables same) lookedTables
        (pageEq ▸ isFrame_frameOf _) lookedNot freedEq
      obtain ⟨putOff, putting⟩ := offTables_putFreed releasedOff
        (tables_of_spares lookedTables releasing) (Set.mem_insert _ _)
        (rule.notSize unmap ((freesOnUnmap_iff walked).mpr ⟨present, marked⟩))
      exact ⟨⟨_, putOff⟩, spared _ (spares_trans tables moved
        (spares_trans lookedTables releasing putting))⟩

end Calls

end BeaverOS.Entries

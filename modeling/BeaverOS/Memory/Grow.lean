import BeaverOS.Memory.BootState

/-!
# Growing the page tables

What `map_page` should do to a page whose upper tables are missing, and why it
never does it. The flags that go into an upper entry carry `PAGE_P_BIT`, and
they go in before the presence test, so the test never fails: no table is ever
allocated, and the walk goes on through whatever address the entry held.

The proof follows the free list. Growing has to take at least one frame off its
front, and no call does that: the first free block stays, or loses a single
frame to an anonymous leaf, or gets a frame in front of it.
-/

namespace BeaverOS.Grow

open BeaverOS.ByteMemory
open BeaverOS.BlockChain
open BeaverOS.RadixTree
open BeaverOS.Paging
open BeaverOS.Window
open BeaverOS.FrameAllocator
open BeaverOS.PageTree
open BeaverOS.Mapper
open BeaverOS.MapperState
open BeaverOS.BootState

/-! ## What growing should do -/

/-- The paths of the tables that `virt` lacks, root first. -/
def newPaths (state : Mapper) (virt : Word) : List (List Index) :=
  [(upperPath virt).take 1, (upperPath virt).take 2, upperPath virt].filter
    fun path => (walk (child state.mem) state.pml4.toNat path).isNone

/-- The frame that an anonymous mapping takes for the page itself. -/
def anonFrame (state' : Mapper) (virt phys : Word) : List (Option Nat) :=
  if phys = mapAnon then
    [(translation state'.mem state'.pml4.toNat virt).map
      fun target => target.1.toNat]
  else
    []

/-- The frames `taken` off the front of the free list, in the order in which
`alloc_page` hands them out, are the missing tables of `virt` and its anonymous
frame; the tables are empty but for the entries of `virt`, and nothing else
changed. -/
structure Grown (layout : Layout) (state state' : Mapper) (virt phys : Word)
    (taken rest : List Nat) : Prop where
  linked :
    (newPaths state virt).map (walk (child state'.mem) state'.pml4.toNat) ++
        anonFrame state' virt phys =
      taken.map some
  zeroed :
    ∀ path ∈ newPaths state virt, ∀ table index,
      walk (child state'.mem) state'.pml4.toNat path = some table →
      ¬ path ++ [index] <+: upperPath virt ++ [leafIndex virt] →
      readEntry state'.mem table index = 0#64
  here :
    phys ≠ mapAnon →
      (translation state'.mem state'.pml4.toNat virt).map Prod.fst = some phys
  others :
    ∀ other, IsPage other → other ≠ virt → ¬ InWindow layout other →
      translation state'.mem state'.pml4.toNat other =
        translation state.mem state.pml4.toNat other
  wellFormed : WellFormed layout state' rest

/-- `map_page` links a fresh table at every level that `virt` lacks. -/
def GrowsTree (layout : Layout) (state : Mapper) (frames : List Nat)
    (virt phys flags : Word) : Prop :=
  ∃ state' taken rest, frames = taken ++ rest ∧
    mapPage layout state virt phys flags = .ok state' ∧
    Grown layout state state' virt phys taken rest

/-! ## Header words under OR-ed flags -/

/-- `after` is `before`, perhaps with flags OR-ed in that carry
`PAGE_P_BIT`. -/
def Flagged (before after : Word) : Prop :=
  after = before ∨
    ∃ flags, Has flags pagePBit ∧ frameOf flags = 0#64 ∧
      after = before ||| flags

section Flags

variable {before middle after : Word}

theorem Flagged.trans (first : Flagged before middle)
    (second : Flagged middle after) : Flagged before after := by
  rcases second with rfl | ⟨flags, present, noFrame, rfl⟩
  · exact first
  · rcases first with rfl | ⟨earlier, _, earlierFrame, rfl⟩
    · exact Or.inr ⟨flags, present, noFrame, rfl⟩
    · refine Or.inr ⟨earlier ||| flags, has_or.mpr (Or.inr present), ?_,
        BitVec.or_assoc _ _ _⟩
      rw [frameOf_or, earlierFrame, noFrame, BitVec.or_zero]

theorem Flagged.frameOf_eq (flagged : Flagged before after) :
    frameOf after = frameOf before := by
  rcases flagged with rfl | ⟨flags, _, noFrame, rfl⟩
  · rfl
  · rw [frameOf_or, noFrame, BitVec.or_zero]

theorem Flagged.ne_zero (flagged : Flagged before after)
    (nonzero : before ≠ 0#64) : after ≠ 0#64 := by
  rcases flagged with rfl | ⟨flags, _, _, rfl⟩
  · exact nonzero
  · exact fun zero => nonzero (BitVec.or_eq_zero_iff.mp zero).1

/-- A word that is still aligned has got no flags. -/
theorem Flagged.eq_of_aligned (flagged : Flagged before after)
    (aligned : after.toNat % 4096 = 0) : after = before := by
  rcases flagged with rfl | ⟨flags, present, _, rfl⟩
  · rfl
  · have marked : Has (before ||| flags) pagePBit :=
      has_or.mpr (Or.inr present)
    exact absurd marked (not_has_pagePBit_of_aligned aligned)

/-- A size that reads as one was one before. -/
theorem Flagged.eq_one (flagged : Flagged before after)
    (nonzero : before ≠ 0#64) (one : after = 1#64) : before = 1#64 := by
  rcases flagged with rfl | ⟨flags, _, _, rfl⟩
  · exact one
  · have absorbed : before = (before ||| flags) &&& before := by
      rw [BitVec.and_or_distrib_right, BitVec.and_self]
      apply BitVec.eq_of_getLsbD_eq
      intro position bound
      simp only [BitVec.getLsbD_or, BitVec.getLsbD_and]
      cases before.getLsbD position <;> simp
    rw [one] at absorbed
    have value := congrArg BitVec.toNat absorbed
    rw [BitVec.toNat_and, BitVec.toNat_ofNat, Nat.one_mod_eq_one.mpr
      (by decide), Nat.one_and_eq_mod_two] at value
    have positive : before.toNat ≠ 0 := fun zero =>
      nonzero (BitVec.eq_of_toNat_eq zero)
    apply BitVec.eq_of_toNat_eq
    rw [BitVec.toNat_ofNat]
    omega

end Flags

section Tracking

variable {layout : Layout} {state : Mapper} {table virt flags : Word}
  {frame address low : Nat}

/-- Addresses of page-table entries and of header words either coincide or lie
apart. -/
theorem entry_apart_header {index : Index} {table : Nat}
    (tableAligned : table % 4096 = 0) (aligned : frame % 4096 = 0)
    (word : address = frame ∨ address = frame + 8)
    (different : entryAddress table index ≠ address) :
    address + 8 ≤ entryAddress table index ∨
      entryAddress table index + 8 ≤ address := by
  simp only [entryAddress] at *
  omega

/-- What one upper level does to a header word. -/
theorem leveled_header (layout : Layout) (state : Mapper) (virt : Word)
    (low : Nat) (flags : Word) (tableFrame : IsFrame table)
    (aligned : frame % 4096 = 0)
    (word : address = frame ∨ address = frame + 8) :
    (readWord (leveled layout state table virt low flags).mem address =
        readWord state.mem address) ∨
      entryAddress table.toNat (indexAt virt low) = address ∧
        leveledEntry layout state table virt low flags =
          readWord state.mem address ||| flags ∧
        readWord (leveled layout state table virt low flags).mem address =
          readWord state.mem address ||| flags := by
  have looked :=
    readWord_header_physLook layout state table aligned word
  by_cases here : entryAddress table.toNat (indexAt virt low) = address
  · have entryEq : leveledEntry layout state table virt low flags =
        readWord state.mem address ||| flags := by
      rw [leveledEntry, readEntry, here, looked]
    refine Or.inr ⟨here, entryEq, ?_⟩
    rw [leveled, here, putWord_mem, readWord_writeWord_same, entryEq]
  · left
    have apart := entry_apart_header ((isFrame_iff table).mp tableFrame).1
      aligned word here
    rw [leveled, putWord_mem, readWord_writeWord_of_disjoint apart, looked]

theorem leveled_flagged (tableFrame : IsFrame table)
    (aligned : frame % 4096 = 0)
    (word : address = frame ∨ address = frame + 8)
    {keep : Word} (present : Has flags pagePBit)
    (kept : keep &&& pagePBit = pagePBit)
    (noAddress : keep &&& pageAddrBits = 0#64) :
    Flagged (readWord state.mem address)
      (readWord (leveled layout state table virt low (flags &&& keep)).mem
        address) := by
  rcases leveled_header layout state virt low (flags &&& keep) tableFrame
      aligned word with same | ⟨_, _, changed⟩
  · exact Or.inl same
  · exact Or.inr ⟨flags &&& keep, (has_and_of_subset kept).mpr present,
      frameOf_and_of_disjoint noAddress, changed⟩

theorem toPdp_flagged (root : IsFrame state.pml4)
    (aligned : frame % 4096 = 0)
    (word : address = frame ∨ address = frame + 8)
    (present : Has flags pagePBit) :
    Flagged (readWord state.mem address)
      (readWord (toPdp layout state virt flags).2.mem address) :=
  leveled_flagged root aligned word present (by decide) (by decide)

theorem toPd_flagged (root : IsFrame state.pml4)
    (aligned : frame % 4096 = 0)
    (word : address = frame ∨ address = frame + 8)
    (present : Has flags pagePBit) :
    Flagged (readWord state.mem address)
      (readWord (toPd layout state virt flags).2.mem address) :=
  (toPdp_flagged root aligned word present).trans
    (leveled_flagged (isFrame_toPdp layout state virt flags) aligned word
      present (by decide) (by decide))

theorem toPt_flagged (layout : Layout) (virt : Word) (root : IsFrame state.pml4)
    (aligned : frame % 4096 = 0)
    (word : address = frame ∨ address = frame + 8)
    (present : Has flags pagePBit) :
    Flagged (readWord state.mem address)
      (readWord (toPt layout state virt flags).2.mem address) :=
  (toPd_flagged root aligned word present).trans
    (leveled_flagged (isFrame_toPd layout state virt flags) aligned word
      present (by decide) (by decide))

/-- The last stores of `map_page` leave a header word alone, or overwrite it
with a present entry. -/
theorem leafWritten_header (layout : Layout) (state : Mapper)
    (virt entry : Word) (tableFrame : IsFrame table)
    (aligned : frame % 4096 = 0)
    (word : address = frame ∨ address = frame + 8) :
    (readWord (leafWritten layout state table virt entry).mem address =
        readWord state.mem address) ∨
      entryAddress table.toNat (leafIndex virt) = address ∧
        readWord (leafWritten layout state table virt entry).mem address =
          entry := by
  have looked :=
    readWord_header_physLook layout state table aligned word
  by_cases here : entryAddress table.toNat (leafIndex virt) = address
  · refine Or.inr ⟨here, ?_⟩
    rw [leafWritten, here, putWord_mem, readWord_writeWord_same]
  · left
    have apart := entry_apart_header ((isFrame_iff table).mp tableFrame).1
      aligned word here
    rw [leafWritten, putWord_mem, readWord_writeWord_of_disjoint apart,
      looked]

end Tracking

/-! ## No call takes tables off the free list -/

section FreeLists

variable {layout : Layout} {state looked after : Mapper}
  {memory memory' : Memory} {first first' virt table entry page : Word}
  {taken rest : List Nat}

/-- The first free block is among the frames taken, so it is not free
afterwards. -/
theorem first_not_rest (free : FreeList memory first (taken ++ rest))
    (distinct : (taken ++ rest).Nodup) (some : taken ≠ []) :
    first.toNat ≠ 0 ∧ first.toNat ∉ rest := by
  cases taken with
  | nil => exact absurd rfl some
  | cons frame others =>
      rw [List.cons_append] at free distinct
      rw [free.first_eq]
      refine ⟨(free.bounds List.mem_cons_self).1, fun inRest => ?_⟩
      exact (List.nodup_cons.mp distinct).1
        (List.mem_append_right _ inRest)

theorem absurd_of_same_first (free : FreeList memory first (taken ++ rest))
    (distinct : (taken ++ rest).Nodup) (some : taken ≠ [])
    (free' : FreeList memory' first rest) : False := by
  obtain ⟨nonzero, notRest⟩ := first_not_rest free distinct some
  exact notRest (Chain.start_mem nonzero free')

theorem absurd_of_next (free : FreeList memory first (taken ++ rest))
    (distinct : (taken ++ rest).Nodup) (some : taken ≠ [])
    (nonzero : first'.toNat ≠ 0) (free' : FreeList memory' first' rest)
    (linked : readWord memory' (first'.toNat + 8) = first) : False := by
  obtain ⟨firstNonzero, notRest⟩ := first_not_rest free distinct some
  have nextEq : headerNext memory' first'.toNat = first.toNat := by
    rw [headerNext, linked]
  have member :=
    Chain.next_mem nonzero (by rw [nextEq]; exact firstNonzero) free'
  rw [nextEq] at member
  exact notRest member

/-- A block that is free after the last stores of `map_page` has kept its
link: an entry in its place would be no link. -/
theorem next_of_leafWritten (tableFrame : IsFrame table)
    (present : Has entry pagePBit) (nonzero : first'.toNat ≠ 0)
    (free' :
      FreeList (leafWritten layout after table virt entry).mem first' rest) :
    readWord (leafWritten layout after table virt entry).mem
        (first'.toNat + 8) =
      readWord after.mem (first'.toNat + 8) := by
  rcases leafWritten_header layout after virt entry tableFrame
      (Chain.start_aligned free') (Or.inr rfl) with same | ⟨_, overwritten⟩
  · exact same
  · have aligned := Chain.next_aligned nonzero free'
    rw [headerNext, overwritten] at aligned
    exact absurd present (not_has_pagePBit_of_aligned aligned)

/-- Freeing the old frame of the leaf puts it in front of the whole list. -/
theorem absurd_of_released
    (free : FreeList memory looked.firstFreeBlock (taken ++ rest))
    (distinct : (taken ++ rest).Nodup) (some : taken ≠ [])
    (pageFrame : IsFrame page) (nonzero : page ≠ 0#64)
    (freed : freePage layout looked page = .ok after)
    (tableFrame : IsFrame table) (present : Has entry pagePBit)
    (free' :
      FreeList (leafWritten layout after table virt entry).mem
        after.firstFreeBlock rest) : False := by
  rw [freePage_eq pageFrame] at freed
  cases freed
  have positive : page.toNat ≠ 0 := fun zero =>
    nonzero (BitVec.eq_of_toNat_eq zero)
  refine absurd_of_next free distinct some positive free' ?_
  rw [next_of_leafWritten tableFrame present positive free']
  exact readWord_putHeader_next

/-- An anonymous leaf takes one frame, but not a second one. -/
theorem absurd_of_allocated
    (free : FreeList memory looked.firstFreeBlock (taken ++ rest))
    (distinct : (taken ++ rest).Nodup) (two : 2 ≤ taken.length)
    (size :
      Flagged (readWord memory looked.firstFreeBlock.toNat)
        (readWord looked.mem looked.firstFreeBlock.toNat))
    (next :
      Flagged (readWord memory (looked.firstFreeBlock.toNat + 8))
        (readWord looked.mem (looked.firstFreeBlock.toNat + 8)))
    (popped : Popped looked after)
    (tableFrame : IsFrame table) (present : Has entry pagePBit)
    (free' :
      FreeList (leafWritten layout after table virt entry).mem
        after.firstFreeBlock rest) : False := by
  obtain ⟨frame, others, rfl⟩ : ∃ frame others, taken = frame :: others :=
    List.exists_cons_of_length_pos (by omega)
  have some : others ≠ [] := by
    rintro rfl
    simp at two
  rw [List.cons_append] at free distinct
  have firstEq := free.first_eq
  have bounds := free.bounds List.mem_cons_self
  have sizePositive := free.headerSize_pos
  have distinctOthers := (List.nodup_cons.mp distinct).2
  -- the block behind a last frame starts the frames still to be taken
  have behind (single : headerSize memory frame = 1) :
      FreeList memory
        (readWord memory (looked.firstFreeBlock.toNat + 8))
        (others ++ rest) := by
    have tail := Chain.pop_last (by rw [firstEq]; exact single) free
    exact tail
  cases popped with
  | last single firstEq' =>
      have sizeNonzero :
          readWord memory looked.firstFreeBlock.toNat ≠ 0#64 := by
        intro zero
        rw [headerSize, ← firstEq, zero] at sizePositive
        exact absurd sizePositive (by decide)
      have before := size.eq_one sizeNonzero single
      have one : headerSize memory frame = 1 := by
        rw [headerSize, ← firstEq, before]
        rfl
      have aligned := Chain.start_aligned free'
      rw [firstEq'] at aligned free'
      rw [next.eq_of_aligned aligned] at free'
      exact absurd_of_same_first (behind one) distinctOthers some free'
  | advanced several firstEq' linked =>
      have above := free'.isFrame_first
      have value : after.firstFreeBlock.toNat = frame + 4096 := by
        rw [firstEq', BitVec.toNat_add, firstEq]
        simp only [BitVec.toNat_ofNat]
        omega
      have nonzero : after.firstFreeBlock.toNat ≠ 0 := by omega
      have link := next_of_leafWritten tableFrame present nonzero free'
      rw [linked above] at link
      have aligned := Chain.next_aligned nonzero free'
      rw [headerNext, link] at aligned
      rw [next.eq_of_aligned aligned] at link
      by_cases single : headerSize memory frame = 1
      · exact absurd_of_next (behind single) distinctOthers some nonzero
          free' link
      · obtain ⟨tail, secondEq⟩ := free.second_frame single
        cases others with
        | nil => exact some rfl
        | cons second further =>
            rw [List.cons_append] at secondEq distinctOthers
            have inRest := Chain.start_mem nonzero free'
            rw [value, ← (List.cons.inj secondEq).1] at inRest
            exact (List.nodup_cons.mp distinctOthers).1
              (List.mem_append_right _ inRest)

end FreeLists

/-! ## Freeing frame zero

A leaf entry that holds `PAGE_F_BIT` and address zero makes `free_page` drop
the free list. Then all its frames would have to be the new tables, and the
header of the first block would have to be a page-table entry. -/

section FrameZero

variable {layout : Layout} {state after : Mapper} {virt phys flags : Word}
  {taken rest : List Nat} {path : List Index} {table : Nat}

theorem newPaths_length (state : Mapper) (virt : Word) :
    (newPaths state virt).length ≤ 3 :=
  List.length_filter_le _ _

theorem upperPath_mem_newPaths
    (missing : leafTable state.mem state.pml4.toNat virt = none) :
    upperPath virt ∈ newPaths state virt := by
  rw [newPaths, List.mem_filter]
  refine ⟨by simp, ?_⟩
  rw [leafTable] at missing
  rw [missing]
  rfl

/-- Below a missing table everything is missing. -/
theorem newPath_extend (member : path ∈ newPaths state virt)
    (prefixed : path ++ [0] <+: upperPath virt ++ [leafIndex virt]) :
    path ++ [0] ∈ newPaths state virt ∨
      path = upperPath virt ∧ leafIndex virt = 0 := by
  rw [newPaths, List.mem_filter, Option.isNone_iff_eq_none] at member
  obtain ⟨which, missing⟩ := member
  have below : walk (child state.mem) state.pml4.toNat (path ++ [0]) =
      none := by
    rw [walk_snoc, missing]
    rfl
  have listed (extended : path ++ [0] = (upperPath virt).take 2 ∨
      path ++ [0] = upperPath virt) :
      path ++ [0] ∈ newPaths state virt := by
    rw [newPaths, List.mem_filter, below]
    refine ⟨?_, rfl⟩
    rcases extended with equal | equal
    · rw [equal]; simp
    · rw [equal]; simp
  simp only [List.mem_cons, List.not_mem_nil, or_false] at which
  rcases which with rfl | rfl | rfl
  · left
    apply listed
    simp only [upperPath, List.take_succ_cons, List.take_zero,
      List.cons_append, List.nil_append, List.cons_prefix_cons, true_and]
      at prefixed ⊢
    rw [prefixed.1]
    exact Or.inl rfl
  · left
    apply listed
    simp only [upperPath, List.take_succ_cons, List.take_zero,
      List.cons_append, List.nil_append, List.cons_prefix_cons, true_and]
      at prefixed ⊢
    rw [prefixed.1]
    exact Or.inr rfl
  · right
    simp only [List.prefix_append_right_inj, List.cons_prefix_cons] at prefixed
    exact ⟨rfl, prefixed.1.symm⟩

/-- If the first missing table of `virt` is its level-1 table, the walk of
`map_page` starts with the level-3 table of `virt`. -/
theorem toPdp_isTable (wellFormed : WellFormed layout state taken)
    (found : walk (child state.mem) state.pml4.toNat
      ((upperPath virt).take 1) ≠ none) :
    IsTable state.mem state.pml4.toNat
      (toPdp layout state virt flags).1.toNat := by
  obtain ⟨table, reached⟩ := Option.ne_none_iff_exists'.mp found
  have linked : child state.mem state.pml4.toNat (indexAt virt 39) =
      some table := by
    have step := reached
    rw [upperPath, List.take_succ_cons, List.take_zero, walk] at step
    obtain ⟨next, stepEq, rest⟩ := Option.bind_eq_some_iff.mp step
    cases rest
    exact stepEq
  have unmoved :
      readEntry (physLook layout state state.pml4).mem state.pml4.toNat
          (indexAt virt 39) =
        readEntry state.mem state.pml4.toNat (indexAt virt 39) :=
    (agreeOff_physLook layout state state.pml4).readWord_eq
      (entryCells_disjoint_slots wellFormed.tables.tree.root_aligned
        (wellFormed.tables.upper_not_isSlot (by decide)
          (walk_nil state.pml4.toNat)))
  have tableEq : (toPdp layout state virt flags).1.toNat = table := by
    unfold child at linked
    split at linked
    · cases linked
      simp only [toPdp, descend, leveledEntry, unmoved,
        frameOf_or_flags (show pml4FlagsMask &&& pageAddrBits = 0#64 by
          decide)]
    · cases linked
  rw [tableEq]
  exact ⟨_, by simp, reached⟩

theorem small_word {word : Word} (small : word.toNat ≤ 3) :
    frameOf word = 0#64 ∧ ¬ Has word pageFBit := by
  have value : word = 0#64 ∨ word = 1#64 ∨ word = 2#64 ∨ word = 3#64 := by
    simp only [← BitVec.toNat_inj, BitVec.toNat_ofNat]
    omega
  rcases value with rfl | rfl | rfl | rfl
  · decide
  · decide
  · decide
  · decide

/-- The first missing table comes first among the frames taken. -/
theorem head_of_linked {memory' : Memory} {root frame : Nat}
    {others : List Nat}
    (linked : (newPaths state virt).map (walk (child memory') root) =
      (frame :: others).map some) :
    ∃ path paths, newPaths state virt = path :: paths ∧
      walk (child memory') root path = some frame := by
  cases pathsEq : newPaths state virt with
  | nil =>
      rw [pathsEq] at linked
      cases linked
  | cons path paths =>
      rw [pathsEq] at linked
      exact ⟨path, paths, rfl, (List.cons.inj linked).1⟩

theorem mem_of_linked {memory' : Memory} {root : Nat}
    (linked : (newPaths state virt).map (walk (child memory') root) =
      taken.map some)
    (member : path ∈ newPaths state virt) :
    ∃ frame ∈ taken, walk (child memory') root path = some frame := by
  have image : walk (child memory') root path ∈
      (newPaths state virt).map (walk (child memory') root) :=
    List.mem_map_of_mem member
  rw [linked] at image
  obtain ⟨frame, inTaken, equal⟩ := List.mem_map.mp image
  exact ⟨frame, inTaken, equal.symm⟩

/-- If the whole path but the level-1 table exists, no header of a free frame
gets flags on the way there, unless the walk ends at address zero. -/
theorem toPt_header (layout : Layout) (flags : Word)
    (wellFormed : WellFormed layout state taken)
    (found : walk (child state.mem) state.pml4.toNat
      ((upperPath virt).take 1) ≠ none)
    {frame : Nat} (member : frame ∈ taken)
    (small : (readWord state.mem frame).toNat ≤ 3) :
    readWord (toPt layout state virt flags).2.mem frame =
        readWord state.mem frame ∨
      (toPt layout state virt flags).1 = 0#64 := by
  have bounds := wellFormed.free.bounds member
  have root := wellFormed.isFrame_pml4
  have notHere : ∀ table : Nat, table % 4096 = 0 →
      IsTable state.mem state.pml4.toNat table →
      ∀ index, entryAddress table index ≠ frame := by
    intro table aligned isTable index here
    have inside := entryAddress_mem_frame table index
    have same : table = frame := by omega
    exact wellFormed.tables_used table isTable (same ▸ member)
  have first := leveled_header layout state virt 39
    (flags &&& pml4FlagsMask) root bounds.2.1 (Or.inl rfl)
  have second := leveled_header layout (toPdp layout state virt flags).2 virt
    30 (flags &&& pdpFlagsMask) (isFrame_toPdp layout state virt flags)
    bounds.2.1 (Or.inl rfl)
  have third := leveled_header layout (toPd layout state virt flags).2 virt
    21 (flags &&& pdFlagsMask) (isFrame_toPd layout state virt flags)
    bounds.2.1 (Or.inl rfl)
  have sameFirst :
      readWord (toPdp layout state virt flags).2.mem frame =
        readWord state.mem frame := by
    rcases first with same | ⟨here, _⟩
    · exact same
    · exact absurd here (notHere _ wellFormed.tables.tree.root_aligned
        ⟨[], by decide, rfl⟩ _)
  have sameSecond :
      readWord (toPd layout state virt flags).2.mem frame =
        readWord state.mem frame := by
    rcases second with same | ⟨here, _⟩
    · exact same.trans sameFirst
    · exact absurd here (notHere _
        ((isFrame_iff _).mp (isFrame_toPdp layout state virt flags)).1
        (toPdp_isTable wellFormed found) _)
  rcases third with same | ⟨_, reached, _⟩
  · exact Or.inl (same.trans sameSecond)
  · right
    have tableEq : (toPt layout state virt flags).1 =
        frameOf (readWord state.mem frame ||| flags &&& pdFlagsMask) := by
      rw [← sameSecond, ← reached]
      rfl
    rw [tableEq, frameOf_or_flags (by decide)]
    exact (small_word small).1

theorem found_of_head {paths : List (List Index)}
    (pathsEq : newPaths state virt = upperPath virt :: paths) :
    walk (child state.mem) state.pml4.toNat ((upperPath virt).take 1) ≠
      none := by
  intro missing
  rw [newPaths, List.filter_cons_of_pos (by rw [missing]; rfl)] at pathsEq
  have lengths := congrArg List.length (List.cons.inj pathsEq).1
  simp at lengths

/-- A first block that is used up by missing tables alone is short. -/
theorem first_small {frame : Nat} {others : List Nat}
    (wellFormed : WellFormed layout state (frame :: others))
    (linked : (newPaths state virt).map (walk (child after.mem) table) =
      (frame :: others).map some) :
    (readWord state.mem frame).toNat ≤ 3 := by
  have bounds := wellFormed.free.bounds List.mem_cons_self
  have firstEq := wellFormed.free.first_eq
  have size := Chain.size_le_length (by rw [firstEq]; exact bounds.1)
    wellFormed.free
  rw [firstEq, headerSize] at size
  have lengths := congrArg List.length linked
  rw [List.length_map, List.length_map] at lengths
  have few := newPaths_length state virt
  omega

/-- `free_page` of frame zero writes no header but that of frame zero. -/
theorem freePage_zero_word {looked : Mapper} {frame : Nat}
    (freed : freePage layout looked 0#64 = .ok after)
    (aligned : frame % 4096 = 0) (positive : 0 < frame) :
    readWord after.mem frame = readWord looked.mem frame := by
  rw [freePage_eq isFrame_zero] at freed
  cases freed
  refine (agreeOff_putHeader.readWord_eq (cells_disjoint (Or.inr ?_))).trans
    (readWord_header_physLook _ _ _ aligned (Or.inl rfl))
  rw [BitVec.toNat_ofNat]
  omega

/-- The entry of `virt` in the table of the first block would have to come
from the size of that block, or be the new leaf entry itself. -/
theorem absurd_of_released_zero {looked : Mapper} {entry : Word}
    {frame : Nat} {others : List Nat}
    (wellFormed : WellFormed layout state (frame :: others))
    (unfree : phys.toNat ∉ frame :: others)
    (explicit : phys ≠ mapAnon) (physFrame : IsFrame phys)
    (present : Has flags pagePBit)
    (lookedEq : looked =
      physLook layout (toPt layout state virt flags).2
        (toPt layout state virt flags).1)
    (marked : Has (readEntry looked.mem
      (toPt layout state virt flags).1.toNat (leafIndex virt)) pageFBit)
    (freed : freePage layout looked 0#64 = .ok after)
    (entryEq : entry = (flags &&& ptFlagsMask) ||| phys)
    (grown : Grown layout state
      (leafWritten layout after (toPt layout state virt flags).1 virt entry)
      virt phys (frame :: others) rest) : False := by
  have root := wellFormed.isFrame_pml4
  have bounds := wellFormed.free.bounds List.mem_cons_self
  have tableFrame := isFrame_toPt layout state virt flags
  have entryFrame : frameOf entry = phys := by
    rw [entryEq]
    exact frameOf_flags_or (by decide) physFrame
  have entryPresent : Has entry pagePBit := by
    rw [entryEq]
    exact has_or.mpr (Or.inl ((has_and_of_subset (by decide)).mpr present))
  have linked := grown.linked
  rw [anonFrame, if_neg explicit, List.append_nil] at linked
  have small := first_small wellFormed linked
  have nonzero : readWord state.mem frame ≠ 0#64 := by
    intro zero
    have positive := wellFormed.free.headerSize_pos
    rw [headerSize, zero] at positive
    exact absurd positive (by decide)
  have tracked := toPt_flagged layout virt root bounds.2.1 (Or.inl rfl)
    present
  have lookedWord : readWord looked.mem frame =
      readWord (toPt layout state virt flags).2.mem frame := by
    rw [lookedEq]
    exact readWord_header_physLook _ _ _ bounds.2.1 (Or.inl rfl)
  have afterWord : readWord after.mem frame =
      readWord (toPt layout state virt flags).2.mem frame :=
    (freePage_zero_word freed bounds.2.1 (by omega)).trans lookedWord
  obtain ⟨path, paths, pathsEq, reached⟩ := head_of_linked linked
  have pathMember : path ∈ newPaths state virt := by
    rw [pathsEq]
    exact List.mem_cons_self
  have final := leafWritten_header layout after virt entry tableFrame
    bounds.2.1
    (Or.inl (rfl : frame = frame))
  rw [afterWord] at final
  have finalNonzero :
      readEntry (leafWritten layout after
        (toPt layout state virt flags).1 virt entry).mem frame 0 ≠ 0#64 := by
    rw [readEntry_zero]
    rcases final with same | ⟨_, written⟩
    · rw [same]
      exact tracked.ne_zero nonzero
    · rw [written]
      exact fun zero => absurd entryPresent (by rw [zero]; decide)
  have prefixed : path ++ [0] <+: upperPath virt ++ [leafIndex virt] :=
    Classical.byContradiction fun notPrefix =>
      finalNonzero (grown.zeroed path pathMember frame 0 reached notPrefix)
  rcases newPath_extend pathMember prefixed with extended | ⟨pathEq, index⟩
  · -- the entry leads to another frame taken
    obtain ⟨next, inTaken, nextReached⟩ := mem_of_linked linked extended
    rw [walk_snoc_of_walk reached] at nextReached
    have nextEq := frame_of_child nextReached
    rw [readEntry_zero] at nextEq
    rcases final with same | ⟨_, written⟩
    · rw [same, tracked.frameOf_eq, (small_word small).1] at nextEq
      exact (wellFormed.free.bounds inTaken).1 nextEq
    · rw [written, entryFrame] at nextEq
      exact unfree (nextEq ▸ inTaken)
  · -- the entry is the leaf entry
    rw [pathEq] at reached pathsEq
    rcases final with same | ⟨here, _⟩
    · have target := grown.here explicit
      obtain ⟨_, translated, physEq⟩ := Option.map_eq_some_iff.mp target
      rw [translation_of_leafEntry (leafEntry_of_leafTable reached), index,
        readEntry_zero, same] at translated
      split at translated
      · cases translated
        rw [tracked.frameOf_eq, (small_word small).1] at physEq
        exact explicit physEq.symm
      · cases translated
    · rcases toPt_header layout flags wellFormed (found_of_head pathsEq)
          List.mem_cons_self small with unchanged | zero
      · rw [readEntry, here, lookedWord, unchanged] at marked
        exact (small_word small).2 marked
      · rw [zero, index] at here
        exact bounds.1 here.symm

end FrameZero

/-! ## The tables never grow -/

section Never

variable {layout : Layout} {state state' : Mapper} {virt phys flags : Word}
  {frames taken rest : List Nat}

theorem Grown.length_taken
    (grown : Grown layout state state' virt phys taken rest)
    (missing : leafTable state.mem state.pml4.toNat virt = none) :
    1 + (anonFrame state' virt phys).length ≤ taken.length := by
  have lengths := congrArg List.length grown.linked
  rw [List.length_append, List.length_map, List.length_map] at lengths
  have some := List.length_pos_of_mem (upperPath_mem_newPaths missing)
  omega

/-- Whatever a call that returns has done, it has not grown the tables. -/
theorem not_grown (wellFormed : WellFormed layout state (taken ++ rest))
    (page : IsPage virt)
    (missing : leafTable state.mem state.pml4.toNat virt = none)
    (frame : IsFrame phys) (unfree : phys.toNat ∉ taken ++ rest)
    (present : Has flags pagePBit)
    (mapped : mapPage layout state virt phys flags = .ok state') :
    ¬ Grown layout state state' virt phys taken rest := by
  intro grown
  have root := wellFormed.isFrame_pml4
  have free := wellFormed.free
  have distinct := wellFormed.distinct
  have free' := grown.wellFormed.free
  have count := grown.length_taken missing
  have some : taken ≠ [] := List.ne_nil_of_length_pos (by omega)
  have tableFrame := isFrame_toPt layout state virt flags
  have marked : ∀ target, Has ((flags &&& ptFlagsMask) ||| target) pagePBit :=
    fun target =>
      has_or.mpr (Or.inl ((has_and_of_subset (by decide)).mpr present))
  have freeLooked : FreeList state.mem
      (physLook layout (toPt layout state virt flags).2
        (toPt layout state virt flags).1).firstFreeBlock (taken ++ rest) :=
    free
  obtain ⟨target, after, step, rfl⟩ :=
    leafStep_of_mapPage page frame present root mapped
  cases step with
  | reused anonymous found =>
      exact absurd_of_same_first free distinct some free'
  | placed explicit keeps =>
      exact absurd_of_same_first free distinct some free'
  | allocated anonymous vacant allocated =>
      rw [anonFrame, if_pos anonymous, List.length_singleton] at count
      have firstFrame := freeLooked.isFrame_first
      have aligned := ((isFrame_iff _).mp firstFrame).1
      obtain ⟨_, _, popped⟩ := allocPage_popped firstFrame allocated
      have tracked : ∀ address,
          address = state.firstFreeBlock.toNat ∨
            address = state.firstFreeBlock.toNat + 8 →
          Flagged (readWord state.mem address)
            (readWord (physLook layout (toPt layout state virt flags).2
              (toPt layout state virt flags).1).mem address) := by
        intro address word
        rw [readWord_header_physLook _ _ _ aligned word]
        exact toPt_flagged layout virt root aligned word present
      exact absurd_of_allocated freeLooked distinct (by omega)
        (tracked _ (Or.inl rfl)) (tracked _ (Or.inr rfl)) popped tableFrame
        (marked _) free'
  | released explicit different freeable freed =>
      by_cases zero :
          frameOf (readEntry
            (physLook layout (toPt layout state virt flags).2
              (toPt layout state virt flags).1).mem
            (toPt layout state virt flags).1.toNat (leafIndex virt)) = 0#64
      · rw [zero] at freed
        have dropped : after.firstFreeBlock = 0#64 := by
          have freedEq := freed
          rw [freePage_eq isFrame_zero] at freedEq
          cases freedEq
          rfl
        have restEq : rest = [] := free'.first_eq_zero_iff.mp dropped
        subst restEq
        obtain ⟨first, others, rfl⟩ := List.exists_cons_of_ne_nil some
        rw [List.append_nil] at wellFormed unfree
        exact absurd_of_released_zero wellFormed unfree explicit frame
          present rfl freeable freed rfl grown
      · exact absurd_of_released freeLooked distinct some (isFrame_frameOf _) zero
          freed tableFrame (marked _) free'

/-- `map_page` never links a table that is missing. -/
theorem mapPage_never_grows (wellFormed : WellFormed layout state frames)
    (page : IsPage virt)
    (missing : leafTable state.mem state.pml4.toNat virt = none)
    (frame : IsFrame phys) (unfree : phys.toNat ∉ frames)
    (present : Has flags pagePBit) :
    ¬ GrowsTree layout state frames virt phys flags := by
  rintro ⟨state', taken, rest, rfl, mapped, grown⟩
  exact not_grown wellFormed page missing frame unfree present mapped grown

end Never

/-- A boot state without any page mapped, and eight free frames. -/
def emptyBoot : Mapper := bootState 3#64 (fun _ => 0#64) 8

theorem emptyBoot_wellFormed :
    WellFormed bootLayout emptyBoot (blockFrames 4096 0x10000 8) :=
  bootState_wellFormed (by decide) (by decide) (by decide)

/-- Address zero has no tables in a boot state. -/
theorem leafTable_emptyBoot :
    leafTable emptyBoot.mem emptyBoot.pml4.toNat 0#64 = none := by
  have missing : child emptyBoot.mem 0x1000 (indexAt 0#64 39) = none := by
    have entry := child_boot (fun _ => 0#64) 8 (indexAt 0#64 39)
      (show Has 3#64 pagePBit by decide) (by decide) (Nat.le_refl 1)
      (by decide)
    rw [if_neg (by decide)] at entry
    exact entry
  have root : emptyBoot.pml4.toNat = 0x1000 := rfl
  rw [leafTable, root, upperPath, walk, missing]
  rfl

theorem mapPage_never_grows_emptyBoot :
    ¬ GrowsTree bootLayout emptyBoot (blockFrames 4096 0x10000 8) 0#64
      mapAnon 3#64 :=
  mapPage_never_grows emptyBoot_wellFormed (by decide) leafTable_emptyBoot
    isFrame_zero (by decide) (by decide)

/-- `map_page(0, MAP_ANON, PAGE_P_BIT | PAGE_RW_BIT)` on fresh tables with
eight free frames. -/
theorem emptyBoot_not_grown :
    WellFormed bootLayout emptyBoot (blockFrames 4096 0x10000 8) ∧
      IsPage 0#64 ∧
      leafTable emptyBoot.mem emptyBoot.pml4.toNat 0#64 = none ∧
      ¬ GrowsTree bootLayout emptyBoot (blockFrames 4096 0x10000 8) 0#64
        mapAnon 3#64 := by
  refine ⟨emptyBoot_wellFormed, by decide, leafTable_emptyBoot, ?_⟩
  rintro ⟨state', taken, rest, framesEq, mapped, grown⟩
  have wellFormed := emptyBoot_wellFormed
  have unfree : mapAnon.toNat ∉ taken ++ rest := by
    rw [← framesEq]
    decide
  rw [framesEq] at wellFormed
  exact not_grown wellFormed (by decide) leafTable_emptyBoot isFrame_zero
    unfree (by decide) mapped grown

end BeaverOS.Grow

import BeaverOS.Boot.EarlyMain

/-!
# From the memory map to the free list

What `alloc_page` returns after the tag walk of `early_main`, and when that is
the available memory above `used_mem`, frame by frame.
-/

namespace BeaverOS.EarlyMain

open BeaverOS.Loop
open BeaverOS.ByteMemory
open BeaverOS.BlockChain
open BeaverOS.Paging
open BeaverOS.Window
open BeaverOS.FrameAllocator

/-- Where an entry ends. -/
def Entry.stop (entry : Entry) : Nat := entry.base.toNat + entry.length.toNat

/-- The entry is available memory, and ends above `used_mem`. -/
def Entry.Above (usedMem : Word) (entry : Entry) : Prop :=
  entry.type = 1 ∧ usedMem.toNat < entry.stop

/-- The first byte of the entry that is not in use. -/
def Entry.start (usedMem : Word) (entry : Entry) : Nat :=
  max entry.base.toNat usedMem.toNat

/-- The whole frames from the first free byte on. -/
def Entry.frames (usedMem : Word) (entry : Entry) : List Nat :=
  blockFrames 4096 (entry.start usedMem)
    ((entry.stop - entry.start usedMem) / 4096)

/-- The free part of the entry starts with a whole frame, and its frames have
addresses of 52 bits. -/
structure Entry.StartsWhole (usedMem : Word) (entry : Entry) : Prop where
  aligned : entry.start usedMem % 4096 = 0
  long : entry.start usedMem + 4096 ≤ entry.stop
  low :
    entry.start usedMem + 4096 * ((entry.stop - entry.start usedMem) / 4096) ≤
      2 ^ 52

/-- Two entries of available memory do not overlap. -/
def Entry.Apart (entry other : Entry) : Prop :=
  entry.type = 1 → other.type = 1 →
    Disjoint (cells entry.base.toNat entry.length.toNat)
      (cells other.base.toNat other.length.toNat)

/-- A frame of the memory map that is not in use. -/
def Available (usedMem : Word) (entries : List Entry) (page : Word) : Prop :=
  page.toNat % 4096 = 0 ∧ usedMem.toNat ≤ page.toNat ∧
    ∃ entry ∈ entries, entry.type = 1 ∧ entry.base.toNat ≤ page.toNat ∧
      page.toNat + 4096 ≤ entry.stop

/-- Before it panics, `alloc_page` returns each available frame once, and
nothing else. -/
def HandsOut (layout : Layout) (usedMem : Word) (entries : List Entry)
    (state : Mapper) : Prop :=
  ∃ pages, Drained layout state pages ∧ pages.Nodup ∧
    ∀ page, page ∈ pages ↔ Available usedMem entries page

/-- What `early_main` starts from. The structure lies in memory that is in
use. -/
structure Starts (layout : Layout) (multiboot usedMem : Word) (limit : Nat)
    (tags : List Tag) (state : Mapper) : Prop where
  usedAligned : usedMem.toNat % 4096 = 0
  usedPositive : 0 < usedMem.toNat
  aligned : multiboot.toNat % 8 = 0
  nonNull : multiboot ≠ 0#64
  found : TagsIn state.mem limit (multiboot.toNat + 8) tags
  upper : limit ≤ usedMem.toNat
  apart :
    Disjoint (cells (multiboot.toNat + 8) (limit - (multiboot.toNat + 8)))
      (slotCells layout)
  empty : state.firstFreeBlock = 0#64
  unwrapped :
    ∀ entry ∈ entriesOf tags,
      entry.base.toNat + entry.length.toNat < 2 ^ 64
  disjoint : (entriesOf tags).Pairwise Entry.Apart

section Entries

variable {layout : Layout} {usedMem : Word} {entry other : Entry}
  {entries : List Entry} {state state' : Mapper} {frames : List Nat}
  {frame last : Nat}

theorem Entry.Apart.not_both (apart : entry.Apart other)
    (available : entry.type = 1) (available' : other.type = 1) {cell : Nat}
    (lower : entry.base.toNat ≤ cell) (upper : cell < entry.stop)
    (lower' : other.base.toNat ≤ cell) : other.stop ≤ cell := by
  have disjoint := Set.disjoint_left.mp (apart available available')
    (mem_cells.mpr ⟨lower, upper⟩)
  by_contra inside
  exact disjoint (mem_cells.mpr ⟨lower', Nat.lt_of_not_le inside⟩)

variable (usedMem entry) in
theorem Entry.base_le_start : entry.base.toNat ≤ entry.start usedMem :=
  Nat.le_max_left _ _

variable (usedMem entry) in
theorem Entry.used_le_start : usedMem.toNat ≤ entry.start usedMem :=
  Nat.le_max_right _ _

/-- The frames of an entry lie in its free part. -/
theorem Entry.frame_bounds (member : frame ∈ entry.frames usedMem) :
    entry.start usedMem ≤ frame ∧ frame + 4096 ≤ entry.stop := by
  obtain ⟨index, inside, rfl⟩ := mem_blockFrames.mp member
  have floor := Nat.div_mul_le_self (entry.stop - entry.start usedMem) 4096
  omega

/-- A whole entry gives the aligned frames of its free part. -/
theorem Entry.mem_frames (whole : entry.StartsWhole usedMem) :
    frame ∈ entry.frames usedMem ↔
      frame % 4096 = 0 ∧ entry.start usedMem ≤ frame ∧
        frame + 4096 ≤ entry.stop := by
  constructor
  · intro member
    obtain ⟨lower, upper⟩ := frame_bounds member
    obtain ⟨index, inside, rfl⟩ := mem_blockFrames.mp member
    have aligned := whole.aligned
    exact ⟨by omega, lower, upper⟩
  · rintro ⟨isAligned, lower, upper⟩
    have aligned := whole.aligned
    refine mem_blockFrames.mpr
      ⟨(frame - entry.start usedMem) / 4096, ?_, ?_⟩
    · omega
    · omega

theorem Entry.StartsWhole.start_mem (whole : entry.StartsWhole usedMem) :
    entry.start usedMem ∈ entry.frames usedMem :=
  (mem_frames whole).mpr ⟨whole.aligned, Nat.le_refl _, whole.long⟩

variable (layout) in
/-- What the code computes for an entry. -/
theorem addType_eq (unwrapped : entry.stop < 2 ^ 64)
    (available : entry.Above usedMem) :
    ∃ physMemStart length : Word,
      physMemStart.toNat = entry.start usedMem ∧
        length.toNat = entry.stop - entry.start usedMem ∧
        ∀ state, addType layout usedMem entry state =
          addPhysMem layout state physMemStart length := by
  obtain ⟨isType, above⟩ := available
  have sum : (entry.base + entry.length).toNat = entry.stop := by
    rw [BitVec.toNat_add]
    exact Nat.mod_eq_of_lt unwrapped
  have start := toNat_ulmax entry.base usedMem
  refine ⟨ulmax entry.base usedMem,
    entry.base + entry.length - ulmax entry.base usedMem, start, ?_, ?_⟩
  · have le : entry.base.toNat ≤ entry.stop := Nat.le_add_right _ _
    rw [BitVec.toNat_sub_of_le, sum, start]
    · rfl
    · rw [BitVec.le_def, sum, start]
      exact Nat.max_le.mpr ⟨le, Nat.le_of_lt above⟩
  · intro state
    have more : entry.base + entry.length > usedMem := by
      rw [gt_iff_lt, BitVec.lt_def, sum]
      exact above
    rw [addType, if_pos isType, addAvailable, if_pos more]

theorem addType_skip (unwrapped : entry.stop < 2 ^ 64)
    (unavailable : ¬ entry.Above usedMem) :
    addType layout usedMem entry state = .ok state := by
  rw [addType]
  split
  · next isType =>
      have sum : (entry.base + entry.length).toNat = entry.stop := by
        rw [BitVec.toNat_add]
        exact Nat.mod_eq_of_lt unwrapped
      have less : ¬ entry.base + entry.length > usedMem := by
        rw [gt_iff_lt, BitVec.lt_def, sum]
        exact fun above => unavailable ⟨isType, above⟩
      rw [addAvailable, if_neg less]
  · rfl

/-- Entries that start with whole frames are added to the free list. -/
structure Added (layout : Layout) (usedMem : Word) (entries : List Entry)
    (last : Nat) (frames : List Nat) (state state' : Mapper)
    (frames' : List Nat) : Prop where
  free : FreeListTo state'.mem state'.firstFreeBlock last frames'
  distinct : frames'.Nodup
  mem_iff :
    ∀ frame, frame ∈ frames' ↔ frame ∈ frames ∨
      ∃ entry ∈ entries, entry.Above usedMem ∧ frame ∈ entry.frames usedMem
  agree :
    AgreeOff (slotCells layout ∪ headerCells frames') state'.mem state.mem

variable (layout) in
theorem addType_added (positive : 0 < usedMem.toNat)
    (unwrapped : entry.stop < 2 ^ 64)
    (whole : entry.Above usedMem → entry.StartsWhole usedMem)
    (free : FreeListTo state.mem state.firstFreeBlock last frames)
    (distinct : frames.Nodup)
    (notLast : entry.Above usedMem → entry.start usedMem ≠ last)
    (apart : entry.type = 1 → ∀ frame ∈ frames,
      entry.base.toNat ≤ frame → entry.stop ≤ frame) :
    ∃ state' frames', addType layout usedMem entry state = .ok state' ∧
      Added layout usedMem [entry] last frames state state' frames' := by
  by_cases available : entry.Above usedMem
  · have whole := whole available
    obtain ⟨physMemStart, length, startEq, lengthEq, codeEq⟩ :=
      addType_eq layout unwrapped available
    have base := entry.base_le_start usedMem
    have used := entry.used_le_start usedMem
    have long := whole.long
    have outside : ∀ frame ∈ frames, frame ∉ entry.frames usedMem ∧
        entry.start usedMem ≠ frame := by
      intro frame member
      have beyond := apart available.1 frame member
      constructor
      · intro inside
        have bounds := Entry.frame_bounds inside
        omega
      · intro same
        omega
    obtain ⟨state', added, free', agree⟩ := addPhysMem_specTo layout free
      (by rw [startEq]; exact whole.aligned)
      (by
        intro zero
        rw [zero] at startEq
        have null : (0#64).toNat = 0 := rfl
        omega)
      (by rw [lengthEq]; omega)
      (by rw [startEq, lengthEq]; exact whole.low)
      (by
        rw [startEq]
        intro member
        exact (outside _ member).2 rfl)
      (by rw [startEq]; exact notLast available)
    rw [startEq, lengthEq] at free'
    refine ⟨state', entry.frames usedMem ++ frames, (codeEq state).trans added,
      free', ?_, ?_, ?_⟩
    · refine List.nodup_append'.mpr
        ⟨blockFrames_nodup (by decide), distinct, ?_⟩
      intro frame inside member
      exact (outside frame member).1 inside
    · intro frame
      rw [List.mem_append]
      constructor
      · rintro (inside | old)
        · exact Or.inr ⟨entry, List.mem_singleton_self _, available, inside⟩
        · exact Or.inl old
      · rintro (old | ⟨other, isOther, _, inside⟩)
        · exact Or.inr old
        · rw [List.mem_singleton.mp isOther] at inside
          exact Or.inl inside
    · refine agree.mono (Set.union_subset_union_right _ ?_)
      intro cell inside
      rw [startEq] at inside
      exact ⟨_, List.mem_append_left _ whole.start_mem, inside⟩
  · refine ⟨state, frames, addType_skip unwrapped available, free, distinct, ?_,
      (AgreeOff.refl _ _)⟩
    intro frame
    constructor
    · exact Or.inl
    · rintro (old | ⟨other, isOther, above, _⟩)
      · exact old
      · rw [List.mem_singleton.mp isOther] at above
        exact absurd above available

variable (layout) in
theorem entries_added (positive : 0 < usedMem.toNat)
    (unwrapped : ∀ entry ∈ entries, entry.stop < 2 ^ 64)
    (whole : ∀ entry ∈ entries, entry.Above usedMem →
      entry.StartsWhole usedMem)
    (pairwise : entries.Pairwise Entry.Apart)
    (free : FreeListTo state.mem state.firstFreeBlock last frames)
    (distinct : frames.Nodup)
    (notLast : ∀ entry ∈ entries, entry.Above usedMem →
      entry.start usedMem ≠ last)
    (apart : ∀ entry ∈ entries, entry.type = 1 → ∀ frame ∈ frames,
      entry.base.toNat ≤ frame → entry.stop ≤ frame) :
    ∃ state' frames',
      entries.foldlM (fun state entry => addType layout usedMem entry state)
          state = .ok state' ∧
        Added layout usedMem entries last frames state state' frames' := by
  induction entries generalizing state frames with
  | nil =>
      refine ⟨state, frames, rfl, free, distinct, ?_, AgreeOff.refl _ _⟩
      intro frame
      constructor
      · exact Or.inl
      · rintro (old | ⟨entry, member, _⟩)
        · exact old
        · cases member
  | cons entry entries inductionHypothesis =>
      obtain ⟨apartHead, apartTail⟩ := List.pairwise_cons.mp pairwise
      obtain ⟨middle, framesMiddle, addedHead, first⟩ :=
        addType_added layout positive
          (unwrapped entry List.mem_cons_self)
          (whole entry List.mem_cons_self) free distinct
          (notLast entry List.mem_cons_self) (apart entry List.mem_cons_self)
      obtain ⟨state', frames', addedTail, rest⟩ :=
        inductionHypothesis
          (fun other member => unwrapped other (List.mem_cons_of_mem _ member))
          (fun other member => whole other (List.mem_cons_of_mem _ member))
          apartTail first.free first.distinct
          (fun other member => notLast other (List.mem_cons_of_mem _ member))
          (by
            intro other member available frame isFrame lower
            rcases (first.mem_iff frame).mp isFrame with
              old | ⟨same, isSame, above, inEntry⟩
            · exact apart other (List.mem_cons_of_mem _ member) available
                frame old lower
            · rw [List.mem_singleton.mp isSame] at above inEntry
              have bounds := Entry.frame_bounds inEntry
              have base := entry.base_le_start usedMem
              exact (apartHead other member).not_both above.1 available
                (by omega) (by omega) lower)
      refine ⟨state', frames', ?_, rest.free, rest.distinct, ?_, ?_⟩
      · rw [List.foldlM_cons, addedHead]
        exact addedTail
      · intro frame
        rw [rest.mem_iff, first.mem_iff]
        constructor
        · rintro ((old | ⟨same, isSame, inside⟩) | ⟨other, member, inside⟩)
          · exact Or.inl old
          · rw [List.mem_singleton.mp isSame] at inside
            exact Or.inr ⟨entry, List.mem_cons_self, inside⟩
          · exact Or.inr ⟨other, List.mem_cons_of_mem _ member, inside⟩
        · rintro (old | ⟨other, member, inside⟩)
          · exact Or.inl (Or.inl old)
          · rcases List.mem_cons.mp member with rfl | inTail
            · exact Or.inl (Or.inr ⟨other, List.mem_singleton_self _, inside⟩)
            · exact Or.inr ⟨other, inTail, inside⟩
      · have kept : framesMiddle ⊆ frames' := fun frame old =>
          (rest.mem_iff frame).mpr (Or.inl old)
        exact rest.agree.trans (first.agree.mono
          (Set.union_subset_union_right _ (headerCells_mono kept)))

end Entries

/-! ## The free list after the walk -/

section Lists

variable {layout : Layout} {usedMem : Word} {entry other : Entry}
  {entries : List Entry} {state state' : Mapper} {pages : List Word}

/-- The entries behind the last one that does not start with a whole frame. -/
theorem exists_last_broken
    (broken : ¬ ∀ entry ∈ entries, entry.Above usedMem →
      entry.StartsWhole usedMem) :
    ∃ before entry after, entries = before ++ entry :: after ∧
      entry.Above usedMem ∧ ¬ entry.StartsWhole usedMem ∧
      ∀ other ∈ after, other.Above usedMem → other.StartsWhole usedMem := by
  induction entries with
  | nil => exact absurd (fun _ member => by cases member) broken
  | cons first entries inductionHypothesis =>
      by_cases rest : ∀ entry ∈ entries, entry.Above usedMem →
          entry.StartsWhole usedMem
      · by_cases head : first.Above usedMem → first.StartsWhole usedMem
        · refine absurd (fun entry member above => ?_) broken
          rcases List.mem_cons.mp member with rfl | inTail
          · exact head above
          · exact rest entry inTail above
        · obtain ⟨above, notWhole⟩ := Classical.not_imp.mp head
          exact ⟨[], first, entries, rfl, above, notWhole, rest⟩
      · obtain ⟨before, entry, after, split, result⟩ := inductionHypothesis rest
        exact ⟨first :: before, entry, after, congrArg _ split, result⟩

/-- Whole entries are handed out frame by frame. -/
theorem handsOut_of_whole (layout : Layout) (positive : 0 < usedMem.toNat)
    (empty : state.firstFreeBlock = 0#64)
    (unwrapped : ∀ entry ∈ entries, entry.stop < 2 ^ 64)
    (pairwise : entries.Pairwise Entry.Apart)
    (whole : ∀ entry ∈ entries, entry.Above usedMem →
      entry.StartsWhole usedMem) :
    ∃ state', entries.foldlM
          (fun state entry => addType layout usedMem entry state) state =
        .ok state' ∧ HandsOut layout usedMem entries state' := by
  have none : FreeListTo state.mem state.firstFreeBlock 0 [] :=
    FreeListTo.nil (by rw [empty]; rfl)
  obtain ⟨state', frames, added, result⟩ := entries_added layout positive
    unwrapped whole pairwise none List.nodup_nil
    (fun entry _ _ isNull => by
      have used := entry.used_le_start usedMem
      omega)
    (fun entry _ _ frame old => by cases old)
  obtain ⟨pages, drained, pagesEq⟩ := drained_of_freeList layout
    (freeListTo_zero.mp result.free) result.distinct
  refine ⟨state', added, pages, drained, ?_, ?_⟩
  · have distinct := result.distinct
    rw [← pagesEq] at distinct
    exact distinct.of_map
  · intro page
    have inFrames : page ∈ pages ↔ page.toNat ∈ frames := by
      rw [← pagesEq, List.mem_map]
      constructor
      · exact fun member => ⟨page, member, rfl⟩
      · rintro ⟨other, member, same⟩
        rw [← BitVec.eq_of_toNat_eq same]
        exact member
    rw [inFrames, result.mem_iff]
    constructor
    · rintro (old | ⟨entry, member, above, inside⟩)
      · cases old
      · obtain ⟨aligned, lower, upper⟩ :=
          (Entry.mem_frames (whole entry member above)).mp inside
        have base := entry.base_le_start usedMem
        have used := entry.used_le_start usedMem
        exact ⟨aligned, by omega, entry, member, above.1, by omega, upper⟩
    · rintro ⟨aligned, used, entry, member, available, lower, upper⟩
      have above : entry.Above usedMem := ⟨available, by omega⟩
      have start : entry.start usedMem ≤ page.toNat := Nat.max_le.mpr
        ⟨lower, used⟩
      exact Or.inr ⟨entry, member, above,
        (Entry.mem_frames (whole entry member above)).mpr
          ⟨aligned, start, upper⟩⟩

/-- What an entry leaves: a block at its start, with the number of frames that
the code counts. -/
theorem addType_header (unwrapped : entry.stop < 2 ^ 64)
    (above : entry.Above usedMem)
    (added : addType layout usedMem entry state = .ok state') :
    entry.start usedMem < 2 ^ 52 ∧
      state'.firstFreeBlock.toNat = entry.start usedMem ∧
      (entry.start usedMem % 4096 = 0 →
        headerSize state'.mem (entry.start usedMem) =
            (entry.stop - entry.start usedMem) / 4096 ∧
          readWord state'.mem (entry.start usedMem + 8) =
            state.firstFreeBlock ∧
          AgreeOff (slotCells layout ∪ headerCells [entry.start usedMem])
            state'.mem state.mem) := by
  obtain ⟨physMemStart, length, startEq, lengthEq, codeEq⟩ :=
    addType_eq layout unwrapped above
  rw [codeEq] at added
  obtain ⟨low, firstEq, -⟩ := addPhysMem_reach added
  rw [startEq] at low
  refine ⟨low, by rw [firstEq, startEq], fun aligned => ?_⟩
  have frame : IsFrame physMemStart :=
    (isFrame_iff _).mpr ⟨by rw [startEq]; exact aligned, by omega⟩
  rw [addPhysMem_eq frame] at added
  cases added
  rw [← lengthEq, ← startEq]
  refine ⟨?_, readWord_putHeader_next, ?_⟩
  · refine headerSize_putHeader.trans ?_
    rw [BitVec.toNat_udiv]
    rfl
  · refine (agreeOff_putHeader.mono ?_).trans
      ((agreeOff_physLook layout state physMemStart).mono
        Set.subset_union_left)
    exact fun cell inside => Or.inr ⟨_, List.mem_singleton_self _, inside⟩

/-- The header of a frame lies in no slot and in no header of other frames. -/
theorem header_spared (layout : Layout) {frames : List Nat} {frame : Nat}
    (aligned : frame % 4096 = 0)
    (others : ∀ other ∈ frames, other % 4096 = 0 ∧ other ≠ frame) :
    Disjoint (cells frame 16) (slotCells layout ∪ headerCells frames) := by
  rw [Set.disjoint_union_right]
  refine ⟨header_disjoint_slots layout aligned, ?_⟩
  rw [Set.disjoint_left]
  rintro cell inside ⟨other, member, inOther⟩
  obtain ⟨otherAligned, different⟩ := others other member
  rw [mem_cells] at inside inOther
  omega

/-- Draining comes to the address of the last entry that does not start with a
whole frame, where no later entry covers it. -/
theorem broken_handedOut (positive : 0 < usedMem.toNat)
    (unwrapped : ∀ other ∈ entry :: entries, other.stop < 2 ^ 64)
    (pairwise : entries.Pairwise Entry.Apart)
    (above : entry.Above usedMem)
    (whole : ∀ other ∈ entries, other.Above usedMem →
      other.StartsWhole usedMem)
    (outside : ∀ other ∈ entries, other.Above usedMem →
      entry.start usedMem ∉ other.frames usedMem)
    {middle : Mapper}
    (addedHead : addType layout usedMem entry state = .ok middle)
    (addedTail : entries.foldlM
      (fun state entry => addType layout usedMem entry state) middle =
        .ok state')
    (drained : Drained layout state' pages) :
    (∃ page ∈ pages, page.toNat = entry.start usedMem) ∧
      (entry.start usedMem % 4096 = 0 → entry.StartsWhole usedMem) := by
  have used := entry.used_le_start usedMem
  obtain ⟨low, firstEq, header⟩ := addType_header
    (unwrapped entry List.mem_cons_self) above addedHead
  have here : FreeListTo middle.mem middle.firstFreeBlock
      (entry.start usedMem) [] := FreeListTo.nil firstEq
  obtain ⟨final, frames, addedAgain, result⟩ := entries_added layout positive
    (fun other member => unwrapped other (List.mem_cons_of_mem _ member)) whole
    pairwise here List.nodup_nil
    (fun other member otherAbove same => outside other member otherAbove
      (same ▸ (whole other member otherAbove).start_mem))
    (fun other _ _ frame old => by cases old)
  rw [addedTail] at addedAgain
  cases addedAgain
  have apart : entry.start usedMem ∉ frames := by
    intro member
    rcases (result.mem_iff _).mp member with old | ⟨other, isOther, covers⟩
    · cases old
    · exact outside other isOther covers.1 covers.2
  obtain ⟨rest, reached, drained', inPages, reachedEq, agree⟩ :=
    drained.reaches result.free result.distinct apart
  have nonempty : reached.firstFreeBlock ≠ 0#64 := by
    intro zero
    rw [zero] at reachedEq
    have null : (0#64).toNat = 0 := rfl
    omega
  refine ⟨⟨_, inPages.subset (drained'.first_mem nonempty), reachedEq⟩, ?_⟩
  intro aligned
  have others : ∀ other ∈ frames,
      other % 4096 = 0 ∧ other ≠ entry.start usedMem := fun other member =>
    ⟨(result.free.bounds member).2.1, fun same => apart (same ▸ member)⟩
  have kept := (header_eq (agree.trans result.agree)
    (header_spared layout aligned others)).1
  rw [(header aligned).1] at kept
  by_contra notWhole
  refine not_drained_of_high ?_ nonempty ?_ drained'
  · rw [isFrame_iff, reachedEq]
    exact ⟨aligned, by omega⟩
  · rw [reachedEq, kept]
    by_contra fits
    exact notWhole ⟨aligned, by omega, by omega⟩

/-- Entries that do not overlap have no frame in common. -/
theorem Entry.Apart.frame_ne (apart : entry.Apart other)
    (above : entry.Above usedMem) (above' : other.Above usedMem)
    {frame frame' : Nat} (member : frame ∈ entry.frames usedMem)
    (member' : frame' ∈ other.frames usedMem) : frame ≠ frame' := by
  rintro rfl
  have bounds := frame_bounds member
  have bounds' := frame_bounds member'
  have base := entry.base_le_start usedMem
  have base' := other.base_le_start usedMem
  have beyond : other.stop ≤ frame := apart.not_both above.1 above'.1
    (by omega) (by omega) (by omega)
  omega

/-- The block of an entry, when draining comes to it through the `later`
frames. -/
theorem atBlock_of_added {middle reached : Mapper} {frames later : List Nat}
    {last : Nat} (positive : 0 < usedMem.toNat)
    (unwrapped : entry.stop < 2 ^ 64) (above : entry.Above usedMem)
    (whole : entry.StartsWhole usedMem)
    (added : addType layout usedMem entry state = .ok middle)
    (free : FreeListTo state.mem state.firstFreeBlock last frames)
    (distinct : (entry.frames usedMem ++ frames).Nodup)
    (others : ∀ other ∈ later, other % 4096 = 0 ∧
      other ≠ entry.start usedMem ∧ other ∉ frames)
    (agree : AgreeOff (slotCells layout ∪ headerCells later) reached.mem
      middle.mem)
    (reachedEq : reached.firstFreeBlock.toNat = entry.start usedMem) :
    AtBlock reached ((entry.stop - entry.start usedMem) / 4096) last
      frames := by
  obtain ⟨low, -, header⟩ := addType_header unwrapped above added
  obtain ⟨sizeEq, nextEq, agreeHere⟩ := header whole.aligned
  obtain ⟨sizeKept, nextKept⟩ := header_eq agree
    (header_spared layout whole.aligned fun other member =>
      ⟨(others other member).1, (others other member).2.1⟩)
  have behind : FreeListTo reached.mem state.firstFreeBlock last frames := by
    refine (free.of_agreeOff agreeHere ?_).of_agreeOff agree ?_
    · intro frame member
      refine header_spared layout (free.bounds member).2.1 ?_
      intro other isStart
      rw [List.mem_singleton.mp isStart]
      exact ⟨whole.aligned, fun same =>
        List.disjoint_of_nodup_append distinct whole.start_mem
          (same ▸ member)⟩
    · intro frame member
      refine header_spared layout (free.bounds member).2.1 ?_
      exact fun other inLater => ⟨(others other inLater).1, fun same =>
        (others other inLater).2.2 (same ▸ member)⟩
  have next : readWord reached.mem (reached.firstFreeBlock.toNat + 8) =
      state.firstFreeBlock := by
    rw [reachedEq, ← nextEq]
    exact BitVec.eq_of_toNat_eq nextKept
  have used := entry.used_le_start usedMem
  constructor
  · rw [isFrame_iff, reachedEq]
    exact ⟨whole.aligned, by omega⟩
  · intro zero
    rw [zero] at reachedEq
    have null : (0#64).toNat = 0 := rfl
    omega
  · rw [reachedEq, sizeKept, sizeEq]
  · rw [reachedEq]
    exact whole.low
  · rw [next]
    exact behind
  · rw [reachedEq]
    exact distinct

/-- A block at an address that a later entry covers is handed out twice. -/
theorem covered_handedOutTwice (positive : 0 < usedMem.toNat)
    {before after : List Entry}
    (unwrapped : ∀ other ∈ before ++ entry :: after, other.stop < 2 ^ 64)
    (pairwise : (before ++ entry :: after).Pairwise Entry.Apart)
    (whole : ∀ other ∈ before ++ entry :: after, other.Above usedMem →
      other.StartsWhole usedMem)
    (above : entry.Above usedMem)
    (member : state.firstFreeBlock.toNat ∈ entry.frames usedMem)
    (added : (before ++ entry :: after).foldlM
      (fun state entry => addType layout usedMem entry state) state =
        .ok state')
    (drained : Drained layout state' pages) :
    ¬ pages.Nodup := by
  obtain ⟨pairwiseBefore, tail, cross⟩ := List.pairwise_append.mp pairwise
  obtain ⟨apartAfter, pairwiseAfter⟩ := List.pairwise_cons.mp tail
  have here : entry ∈ before ++ entry :: after :=
    List.mem_append_right _ List.mem_cons_self
  have inAfter : ∀ other ∈ after, other ∈ before ++ entry :: after :=
    fun other inside => List.mem_append_right _ (List.mem_cons_of_mem _ inside)
  have inBefore : ∀ other ∈ before, other ∈ before ++ entry :: after :=
    fun other inside => List.mem_append_left _ inside
  have entryWhole := whole entry here above
  obtain ⟨first, frames, addedBefore, earlier⟩ := entries_added layout positive
    (fun other inside => unwrapped other (inBefore other inside))
    (fun other inside => whole other (inBefore other inside)) pairwiseBefore
    (FreeListTo.nil rfl : FreeListTo state.mem state.firstFreeBlock
      state.firstFreeBlock.toNat []) List.nodup_nil
    (fun other inside otherAbove =>
      (cross other inside entry List.mem_cons_self).frame_ne otherAbove above
        (whole other (inBefore other inside) otherAbove).start_mem member)
    (fun other _ _ frame old => by cases old)
  rw [List.foldlM_append, addedBefore] at added
  change (entry :: after).foldlM
    (fun state entry => addType layout usedMem entry state) first = _ at added
  rw [List.foldlM_cons] at added
  obtain ⟨second, addedHere, added⟩ := ok_of_bind added
  obtain ⟨-, secondEq, -⟩ :=
    addType_header (unwrapped entry here) above addedHere
  obtain ⟨third, later, addedAfter, result⟩ := entries_added layout positive
    (fun other inside => unwrapped other (inAfter other inside))
    (fun other inside => whole other (inAfter other inside)) pairwiseAfter
    (FreeListTo.nil secondEq) List.nodup_nil
    (fun other inside otherAbove same =>
      (apartAfter other inside).frame_ne above otherAbove
        entryWhole.start_mem
        (whole other (inAfter other inside) otherAbove).start_mem same.symm)
    (fun other _ _ frame old => by cases old)
  obtain rfl : third = state' := Except.ok.inj (addedAfter.symm.trans added)
  have distinct : (entry.frames usedMem ++ frames).Nodup := by
    refine List.nodup_append'.mpr
      ⟨blockFrames_nodup (by decide), earlier.distinct, ?_⟩
    intro frame inEntry isEarlier
    rcases (earlier.mem_iff frame).mp isEarlier with
      old | ⟨other, inside, otherAbove, inOther⟩
    · cases old
    · exact (cross other inside entry List.mem_cons_self).frame_ne
        otherAbove above inOther inEntry rfl
  have others : ∀ frame ∈ later, frame % 4096 = 0 ∧
      frame ≠ entry.start usedMem ∧ frame ∉ frames := by
    intro frame isLater
    refine ⟨(result.free.bounds isLater).2.1, ?_⟩
    rcases (result.mem_iff frame).mp isLater with
      old | ⟨other, inside, otherAbove, inOther⟩
    · cases old
    · refine ⟨fun same => ?_, fun isEarlier => ?_⟩
      · exact (apartAfter other inside).frame_ne above otherAbove
          entryWhole.start_mem inOther same.symm
      · rcases (earlier.mem_iff frame).mp isEarlier with
          old | ⟨another, inside', anotherAbove, inAnother⟩
        · cases old
        · exact (cross another inside' other
            (List.mem_cons_of_mem _ inside)).frame_ne anotherAbove
              otherAbove inAnother inOther rfl
  obtain ⟨rest, reached, drained', inPages, reachedEq, agree⟩ :=
    drained.reaches result.free result.distinct
      fun isLater => (others _ isLater).2.1 rfl
  have block := atBlock_of_added positive (unwrapped entry here) above
    entryWhole addedHere earlier.free distinct others
    (agree.trans result.agree) reachedEq
  obtain ⟨index, inside, firstAt⟩ := mem_blockFrames.mp member
  intro nodup
  refine drained'.repeats block inside ?_ (nodup.sublist inPages.sublist)
  rw [reachedEq]
  exact firstAt

/-- Only whole entries are handed out frame by frame. -/
theorem whole_of_handsOut (positive : 0 < usedMem.toNat)
    (unwrapped : ∀ entry ∈ entries, entry.stop < 2 ^ 64)
    (pairwise : entries.Pairwise Entry.Apart)
    (added : entries.foldlM
      (fun state entry => addType layout usedMem entry state) state =
        .ok state')
    (handsOut : HandsOut layout usedMem entries state') :
    ∀ entry ∈ entries, entry.Above usedMem → entry.StartsWhole usedMem := by
  by_contra broken
  obtain ⟨before, entry, after, rfl, above, notWhole, whole⟩ :=
    exists_last_broken broken
  obtain ⟨pages, drained, nodup, exact⟩ := handsOut
  have inRest : ∀ other ∈ entry :: after, other ∈ before ++ entry :: after :=
    fun other inside => List.mem_append_right _ inside
  obtain ⟨-, tail, -⟩ := List.pairwise_append.mp pairwise
  have pairwiseAfter := (List.pairwise_cons.mp tail).2
  rw [List.foldlM_append] at added
  obtain ⟨first, -, added⟩ := ok_of_bind added
  rw [List.foldlM_cons] at added
  obtain ⟨second, addedHere, added⟩ := ok_of_bind added
  obtain ⟨-, firstEq, -⟩ := addType_header
    (unwrapped entry (inRest entry List.mem_cons_self)) above addedHere
  by_cases covered : ∃ other ∈ after, other.Above usedMem ∧
      entry.start usedMem ∈ other.frames usedMem
  · obtain ⟨other, inside, otherAbove, member⟩ := covered
    obtain ⟨between, later, rfl⟩ := List.append_of_mem inside
    refine covered_handedOutTwice positive
      (fun another isLater =>
        unwrapped another (inRest another (List.mem_cons_of_mem _ isLater)))
      pairwiseAfter whole otherAbove ?_ added drained nodup
    rw [firstEq]
    exact member
  · obtain ⟨⟨page, isPage, pageEq⟩, wholeIf⟩ := broken_handedOut positive
      (fun other inside => unwrapped other (inRest other inside))
      pairwiseAfter above whole
      (fun other inside otherAbove member =>
        covered ⟨other, inside, otherAbove, member⟩)
      addedHere added drained
    have aligned := ((exact page).mp isPage).1
    rw [pageEq] at aligned
    exact notWhole (wholeIf aligned)

end Lists

/-! ## The tag walk -/

section TagWalk

variable {layout : Layout} {multiboot usedMem : Word} {limit : Nat}
  {tags : List Tag} {state : Mapper}

/-- The walk adds the entries of the structure one after another. -/
theorem tagWalk_eq (starts : Starts layout multiboot usedMem limit tags state) :
    tagWalk layout multiboot usedMem state =
      (entriesOf tags).foldlM
        (fun state entry => addType layout usedMem entry state) state := by
  have aligned := starts.aligned
  have bound := starts.found.bound
  have small : limit < 2 ^ 64 :=
    Nat.lt_of_le_of_lt starts.upper usedMem.isLt
  have positive : multiboot.toNat ≠ 0 := fun zero =>
    starts.nonNull (BitVec.eq_of_toNat_eq zero)
  have below : Below layout usedMem (multiboot.toNat + 8) limit :=
    ⟨by omega, starts.upper, starts.apart⟩
  have first : multiboot + 8#64 = BitVec.ofNat 64 (multiboot.toNat + 8) := by
    apply BitVec.eq_of_toNat_eq
    rw [BitVec.toNat_add, BitVec.toNat_ofNat, BitVec.toNat_ofNat]
  rw [tagWalk, first]
  exact tagLoop_eq below starts.found (Nat.le_refl _)
    (fun _ _ _ => rfl) (by omega)

end TagWalk

/-! ### One entry -/

/-- A structure with one memory map of one entry, by its words. -/
def oneEntryWord (base length : Word) : Nat → Word
  | 513 => 0x2800000006#64
  | 514 => 0x18#64
  | 515 => base
  | 516 => length
  | 517 => 1#64
  | 518 => 0x800000000#64
  | _ => 0#64

/-- The mapper as it is linked, with that structure at `0x1000`. -/
def oneEntryState (base length : Word) : Mapper where
  mem := ofWords (oneEntryWord base length)
  windowBase := 0
  physWindow := 0
  pml4 := 0
  firstFreeBlock := 0

def oneEntryTags (base length : Word) : List Tag :=
  [.memoryMap [⟨base, length, 1⟩]]

/-- A word is two double words, the low one first. -/
theorem readDword_ofWords {word : Nat → Word} {index : Nat} {value : Word}
    (place : Word) (isWord : word index = value) :
    (place.toNat = 8 * index →
      readDword (ofWords word) place = value.extractLsb' 0 32) ∧
    (place.toNat = 8 * index + 4 →
      readDword (ofWords word) place = value.extractLsb' 32 32) := by
  have whole : readLE (ofWords word) (8 * index) 8 = value.toNat := by
    have bound := readLE_lt (ofWords word) (8 * index) 8
    have here := congrArg BitVec.toNat (readWord_ofWords word index)
    rw [readWord, BitVec.toNat_ofNat, isWord] at here
    omega
  have low := readLE_lt (ofWords word) (8 * index) 4
  rw [readLE_add _ _ 4 4] at whole
  constructor
  · intro here
    apply BitVec.eq_of_toNat_eq
    rw [readDword, here, BitVec.toNat_ofNat, BitVec.extractLsb'_toNat,
      Nat.shiftRight_zero]
    omega
  · intro here
    apply BitVec.eq_of_toNat_eq
    rw [readDword, here, BitVec.toNat_ofNat, BitVec.extractLsb'_toNat,
      Nat.shiftRight_eq_div_pow]
    omega

theorem starts_oneEntry {base length : Word}
    (unwrapped : base.toNat + length.toNat < 2 ^ 64) :
    Starts smallLayout 0x1000#64 0x200000#64 0x1038 (oneEntryTags base length)
      (oneEntryState base length) := by
  have header : oneEntryWord base length 513 = 0x2800000006#64 := rfl
  have entryHeader : oneEntryWord base length 514 = 0x18#64 := rfl
  have isType : oneEntryWord base length 517 = 1#64 := rfl
  have endTag : oneEntryWord base length 518 = 0x800000000#64 := rfl
  have map : TagIn (oneEntryState base length).mem 0x1008#64
      (.memoryMap [⟨base, length, 1⟩]) := by
    refine TagIn.memoryMap ((readDword_ofWords _ header).1 rfl)
      (congrArg BitVec.toNat ((readDword_ofWords _ header).2 rfl))
      ((readDword_ofWords _ entryHeader).1 rfl)
      ((readDword_ofWords _ entryHeader).2 rfl) ?_
    intro i inside
    obtain rfl : i = 0 := Nat.lt_one_iff.mp inside
    exact ⟨readWord_ofWords _ 515, readWord_ofWords _ 516,
      (readDword_ofWords _ isType).1 rfl⟩
  have found : TagsIn (oneEntryState base length).mem 0x1038 0x1008
      (oneEntryTags base length) := by
    refine TagsIn.next map ?_
    rw [Tag.size, List.length_singleton]
    exact TagsIn.last ((readDword_ofWords _ endTag).1 rfl)
      (Nat.le_refl 0x1038)
  have entries : entriesOf (oneEntryTags base length) =
      [⟨base, length, 1⟩] := rfl
  constructor
  · decide
  · decide
  · decide
  · decide
  · exact found
  · decide
  · exact cells_disjoint (Or.inl (by decide))
  · rfl
  · rw [entries]
    intro entry member
    rw [List.mem_singleton.mp member]
    exact unwrapped
  · rw [entries]
    exact List.pairwise_singleton _ _

/-- The walk leaves a free list that is handed out frame by frame, exactly where
every entry of available memory above `used_mem` starts with a whole frame. -/
theorem tagWalk_handsOut_iff (layout : Layout) (multiboot usedMem : Word)
    (limit : Nat) (tags : List Tag) (state : Mapper)
    (starts : Starts layout multiboot usedMem limit tags state) :
    (∃ state', tagWalk layout multiboot usedMem state = .ok state' ∧
        HandsOut layout usedMem (entriesOf tags) state') ↔
      ∀ entry ∈ entriesOf tags, entry.Above usedMem →
        entry.StartsWhole usedMem := by
  rw [tagWalk_eq starts]
  constructor
  · rintro ⟨state', added, handsOut⟩
    exact whole_of_handsOut starts.usedPositive starts.unwrapped
      starts.disjoint added handsOut
  · exact handsOut_of_whole layout starts.usedPositive starts.empty
      starts.unwrapped starts.disjoint

/-- A block of three frames is handed out. -/
theorem tagWalk_handsOut_small :
    ∃ state', tagWalk smallLayout 0x1000#64 0x200000#64
          (oneEntryState 0x200000#64 0x3000#64) = .ok state' ∧
        HandsOut smallLayout 0x200000#64
          (entriesOf (oneEntryTags 0x200000#64 0x3000#64)) state' := by
  refine (tagWalk_handsOut_iff smallLayout 0x1000#64 0x200000#64 0x1038
    (oneEntryTags 0x200000#64 0x3000#64) (oneEntryState 0x200000#64 0x3000#64)
    (starts_oneEntry (by decide))).mpr ?_
  intro entry member above
  obtain rfl : entry = ⟨0x200000#64, 0x3000#64, 1⟩ :=
    List.mem_singleton.mp member
  exact ⟨by decide, by decide, by decide⟩

/-- An entry that starts inside a page is not handed out by whole frames. -/
theorem tagWalk_unaligned :
    Starts smallLayout 0x1000#64 0x200000#64 0x1038
        (oneEntryTags 0x300800#64 0x2000#64)
        (oneEntryState 0x300800#64 0x2000#64) ∧
      ¬ ∃ state', tagWalk smallLayout 0x1000#64 0x200000#64
            (oneEntryState 0x300800#64 0x2000#64) = .ok state' ∧
          HandsOut smallLayout 0x200000#64
            (entriesOf (oneEntryTags 0x300800#64 0x2000#64)) state' := by
  have starts : Starts smallLayout 0x1000#64 0x200000#64 0x1038
      (oneEntryTags 0x300800#64 0x2000#64)
      (oneEntryState 0x300800#64 0x2000#64) := starts_oneEntry (by decide)
  refine ⟨starts, ?_⟩
  rintro ⟨state', walked, handsOut⟩
  rw [tagWalk_eq starts] at walked
  have whole := whole_of_handsOut starts.usedPositive starts.unwrapped
    starts.disjoint walked handsOut ⟨0x300800#64, 0x2000#64, 1⟩
    (List.mem_singleton_self _) ⟨rfl, by decide⟩
  exact absurd whole.aligned (by decide)

end BeaverOS.EarlyMain

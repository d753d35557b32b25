import BeaverOS.Memory.Ownership

/-!
# What the mapper stores where

`mapper.c` reaches physical memory through its window, and could overwrite any
of it. Under the rule for its callers it does not: it stores to tables and to
the headers of frames that are free before a call or after it. Every other frame
keeps its contents for as long as it is neither.
-/

namespace BeaverOS.Footprint

open BeaverOS.ByteMemory
open BeaverOS.BlockChain
open BeaverOS.RadixTree
open BeaverOS.Paging
open BeaverOS.Transition
open BeaverOS.Window
open BeaverOS.FrameAllocator
open BeaverOS.PageTree
open BeaverOS.Mapper
open BeaverOS.MapperState
open BeaverOS.UpperFlags
open BeaverOS.BootState
open BeaverOS.Unmap
open BeaverOS.Populated
open BeaverOS.Calls
open BeaverOS.Ownership

/-- A frame that the mapper has no business with: it is no table, and not
free. -/
structure Reserved (state : Mapper) (frame : Nat) : Prop where
  aligned : frame % 4096 = 0
  positive : 0 < frame
  notTable : ¬ IsTable state.mem state.pml4.toNat frame
  notFree : frame ∉ freeFrames state

section Footprint

variable {layout : Layout} {state state' looked after : Mapper}
  {virt phys flags entry target physMemStart length : Word}
  {frames frames' : List Nat} {frame table : Nat}

/-- The tables and the slots of the window lie in other frames. -/
theorem Reserved.disjoint_tables (reserved : Reserved state frame)
    (tables : Tables layout state.mem state.pml4.toNat) :
    Disjoint (cells frame 4096)
      (slotCells layout ∪ tableCells state.mem state.pml4.toNat) := by
  have inTables : slotCells layout ⊆
      tableCells state.mem state.pml4.toNat := fun cell inSlot =>
    ⟨layout.windowPt, ⟨windowPath, by decide, tables.window⟩,
      slotCells_subset_windowPt inSlot⟩
  rw [Set.union_eq_right.mpr inTables, Set.disjoint_left]
  rintro cell inFrame ⟨table, isTable, inTable⟩
  exact Set.disjoint_left.mp (frames_disjoint reserved.aligned
    (isTable.bounds tables.tree).1
    (fun equal => reserved.notTable (equal ▸ isTable)) (Nat.le_refl _)
    (Nat.le_refl _)) inFrame inTable

theorem Reserved.not_mem (reserved : Reserved state frame)
    (free : FreeList state.mem state.firstFreeBlock frames) :
    frame ∉ frames := by
  have notFree := reserved.notFree
  rw [freeFrames_eq free] at notFree
  exact notFree

/-- Headers of other frames lie in other frames. -/
theorem disjoint_header (aligned : frame % 4096 = 0) {other : Nat}
    (otherAligned : other % 4096 = 0) (different : frame ≠ other) :
    Disjoint (cells frame 4096) (cells other 16) := by
  have header : other + 16 ≤ other + 4096 := by omega
  exact (frames_disjoint otherAligned aligned different.symm (Nat.le_refl _)
    header).symm

/-- The leaf step stores to slots and to headers of frames that are free before
it, or of the one that it frees. -/
theorem LeafStep.keeps (reserved : Reserved state frame)
    (tables : Tables layout state.mem state.pml4.toNat)
    (wellFormed : WellFormed layout looked frames)
    (leafStep : LeafStep layout looked entry phys target after)
    (notBefore : frame ∉ frames)
    (notAfter : frame ≠ after.firstFreeBlock.toNat ∨
      after.firstFreeBlock = looked.firstFreeBlock) :
    AgreeOn after.mem looked.mem frame 4096 := by
  have slots : Disjoint (cells frame 4096) (slotCells layout) :=
    (reserved.disjoint_tables tables).mono_right Set.subset_union_left
  cases leafStep with
  | reused _ _ => exact fun _ _ _ => rfl
  | placed _ _ => exact fun _ _ _ => rfl
  | allocated _ _ allocated =>
      cases frames with
      | nil =>
          rw [allocPage_empty (wellFormed.free.first_eq_zero_iff.mpr rfl)]
            at allocated
          cases allocated
      | cons first rest =>
          obtain ⟨result, returned, taken⟩ : ∃ result,
              allocPage layout looked =
                .ok (looked.firstFreeBlock, result) ∧
              Taken layout looked result rest :=
            allocPage_spec wellFormed.free wellFormed.distinct
          rw [returned] at allocated
          cases allocated
          refine taken.agree.agreeOn
            (Set.disjoint_union_right.mpr ⟨slots, ?_⟩)
          rw [Set.disjoint_left]
          rintro cell inFrame ⟨other, member, inHeader⟩
          have listed : other ∈ first :: rest := List.mem_cons_of_mem _ member
          exact Set.disjoint_left.mp (disjoint_header reserved.aligned
            (wellFormed.free.bounds listed).2.1
            fun equal => notBefore (equal ▸ listed)) inFrame inHeader
  | released _ _ _ freed =>
      rw [freePage_eq (isFrame_frameOf entry)] at freed
      cases freed
      have aligned := (toNat_frameOf_bounds entry).1
      refine AgreeOn.trans
        (agreeOff_putHeader.agreeOn (disjoint_header reserved.aligned aligned
          ?_))
        ((agreeOff_physLook layout looked _).agreeOn slots)
      rintro rfl
      rcases notAfter with notFirst | same
      · exact notFirst rfl
      · -- the list begins with the frame already
        have first : looked.firstFreeBlock.toNat = (frameOf entry).toNat :=
          congrArg BitVec.toNat same.symm
        have nonempty : frames ≠ [] := fun nil => by
          have zero := wellFormed.free.first_eq_zero_iff.mpr nil
          rw [zero] at first
          have positive := reserved.positive
          have null : (0#64).toNat = 0 := rfl
          omega
        obtain ⟨head, rest, rfl⟩ := List.exists_cons_of_ne_nil nonempty
        rw [← first, wellFormed.free.first_eq] at notBefore
        exact notBefore List.mem_cons_self

/-- A frame that is not free after a call is not the first one of the list. -/
theorem Reserved.ne_first (reserved : Reserved state' frame)
    (free : FreeList state'.mem state'.firstFreeBlock frames') :
    frame ≠ state'.firstFreeBlock.toNat := by
  rintro rfl
  have positive := reserved.positive
  have notMember := reserved.not_mem free
  cases frames' with
  | nil =>
      rw [free.first_eq_zero_iff.mpr rfl] at positive
      exact absurd positive (by decide)
  | cons first rest =>
      rw [free.first_eq] at notMember
      exact notMember List.mem_cons_self

/-- A call of `map_page` that maps a page. -/
theorem mapPage_keeps (wellFormed : WellFormed layout state frames)
    (free : FreeList state'.mem state'.firstFreeBlock frames')
    (reserved : Reserved state frame) (reserved' : Reserved state' frame)
    (outside : ¬ InWindow layout virt)
    (found : leafTable state.mem state.pml4.toNat virt = some table)
    (present : Has flags pagePBit)
    (mapped : mapPage layout state virt phys flags = .ok state') :
    AgreeOn state'.mem state.mem frame 4096 := by
  obtain ⟨page, isFrame⟩ := asserted_of_mapPage mapped
  have tables := wellFormed.tables
  have apart := reserved.disjoint_tables tables
  have first := reserved'.ne_first free
  have tableEq : (toPt layout state virt flags).1.toNat = table :=
    (toPt_flagged layout state flags tables found).2
  obtain ⟨target, after, leafStep, rfl⟩ := leafStep_of_old tables page outside
    found isFrame present mapped
  -- the entry, the last move of the window, the leaf step, the walk
  refine AgreeOn.trans ((agreeOff_writeWord _ _ _).agreeOn ?_) <|
    AgreeOn.trans ((agreeOff_physLook layout after _).agreeOn
      (apart.mono_right Set.subset_union_left)) <|
    AgreeOn.trans (LeafStep.keeps reserved tables
      (lookedAt_wellFormed wellFormed flags found) leafStep
      (reserved.not_mem wellFormed.free) (Or.inl first))
      ((lookedAt_flagged layout flags tables found).agree.agreeOn apart)
  refine apart.mono_right ?_
  rw [tableEq]
  intro cell inEntry
  exact Or.inr ⟨table, isTable_of_leafTable found, entryCells_subset inEntry⟩

/-- A call of `map_page` that takes a page away. -/
theorem unmapPage_keeps (wellFormed : WellFormed layout state frames)
    (reserved : Reserved state frame) (outside : ¬ InWindow layout virt)
    (unfreed : ¬ FreesOnUnmap state virt)
    (unmapped : unmapPage layout state virt = .ok state') :
    AgreeOn state'.mem state.mem frame 4096 := by
  have apart := reserved.disjoint_tables wellFormed.tables
  have slots : Disjoint (cells frame 4096) (slotCells layout) :=
    apart.mono_right Set.subset_union_left
  obtain ⟨result, returned, outcome⟩ :=
    unmapPage_outcome wellFormed.tables outside
  rw [returned] at unmapped
  cases unmapped
  cases outcome with
  | noTable _ same => exact same.agree.agreeOn slots
  | absent _ _ same => exact same.agree.agreeOn slots
  | @cleared looked table walked _ _ same =>
      refine AgreeOn.trans ((agreeOff_writeWord _ _ _).agreeOn
        (apart.mono_right ?_)) (same.agree.agreeOn slots)
      intro cell inEntry
      exact Or.inr ⟨table, isTable_of_leafTable walked,
        entryCells_subset inEntry⟩
  | freed walked isPresent marked =>
      exact absurd ⟨_, leafEntry_of_leafTable walked, isPresent, marked⟩
        unfreed

theorem inWindow_keeps (tables : Tables layout state.mem state.pml4.toNat)
    (reserved : Reserved state frame) (inside : InWindow layout virt)
    (mapped : mapPage layout state virt phys flags = .ok state') :
    AgreeOn state'.mem state.mem frame 4096 := by
  obtain ⟨page, isFrame⟩ := asserted_of_mapPage mapped
  have apart := reserved.disjoint_tables tables
  by_cases present : Has flags pagePBit
  · obtain ⟨_, _, flagged, _⟩ :=
      mapPage_inWindow tables page inside isFrame present mapped
    exact flagged.agree.agreeOn apart
  · rw [mapPage_eq_unmapPage page isFrame present] at mapped
    exact (unmapPage_inWindow tables inside mapped).agree.agreeOn
      (apart.mono_right Set.subset_union_left)

theorem addPhysMem_keeps (owned : Owned layout state frames)
    (reserved : Reserved state frame) (reserved' : Reserved state' frame)
    (allowed : Allowed state (.addPhysMem physMemStart length))
    (added : addPhysMem layout state physMemStart length = .ok state') :
    AgreeOn state'.mem state.mem frame 4096 := by
  obtain ⟨aligned, nonzero, long, bounded, apart⟩ := allowed
  rw [freeFrames_eq owned.wellFormed.free] at apart
  have fresh : physMemStart.toNat ∉ frames := fun member =>
    Set.disjoint_left.mp apart (start_mem_blockFrames (by omega)) member
  obtain ⟨result, returned, free', agree⟩ := addPhysMem_spec layout
    owned.wellFormed.free aligned nonzero long bounded fresh
  rw [returned] at added
  cases added
  refine agree.agreeOn (Set.disjoint_union_right.mpr
    ⟨(reserved.disjoint_tables owned.wellFormed.tables).mono_right
      Set.subset_union_left, disjoint_header reserved.aligned aligned ?_⟩)
  rintro rfl
  exact reserved'.not_mem free' (List.mem_append_left _
    (start_mem_blockFrames (by omega)))

/-- One call that keeps the callers' rule. -/
theorem step_keeps (owned : Owned layout state frames)
    {operation : Ownership.Operation}
    (step : Ownership.Step layout state operation state')
    (reserved : Reserved state frame) (reserved' : Reserved state' frame) :
    AgreeOn state'.mem state.mem frame 4096 := by
  obtain ⟨frames', owned'⟩ := owned_step owned step
  have free := owned'.wellFormed.free
  obtain ⟨sound, performed⟩ := step
  cases operation with
  | addPhysMem physMemStart length =>
      exact addPhysMem_keeps owned reserved reserved' sound.1 performed
  | mapPage virt phys flags =>
      obtain ⟨⟨table, found⟩, rule⟩ := sound
      by_cases inside : InWindow layout virt
      · exact inWindow_keeps owned.wellFormed.tables reserved inside performed
      by_cases present : Has flags pagePBit
      · exact mapPage_keeps owned.wellFormed free reserved reserved' inside
          found present performed
      · obtain ⟨page, isFrame⟩ := asserted_of_mapPage performed
        rw [Ownership.perform, mapPage_eq_unmapPage page isFrame present]
          at performed
        exact unmapPage_keeps owned.wellFormed reserved inside
          ((rule inside).2 present) performed

end Footprint

/-- However `add_phys_mem` and `map_page` are called within the rule, a frame
that is never free and never a table keeps its contents. -/
theorem run_keepsContents (layout : Layout) (start state : Mapper)
    (operations : List Ownership.Operation) (frame : Nat)
    (initial : SingleOwner layout start)
    (run : Run (Ownership.Step layout) start operations state)
    (always : Always (Ownership.Step layout) start operations fun _ here =>
      Reserved here frame) :
    AgreeOn state.mem start.mem frame 4096 := by
  have kept : ∀ before after here, operations = before ++ after →
      Run (Ownership.Step layout) start before here →
      SingleOwner layout here ∧ AgreeOn here.mem start.mem frame 4096 := by
    intro before after here split run
    induction run generalizing after with
    | nil => exact ⟨initial, fun _ _ _ => rfl⟩
    | @snoc before operation here next run step inductionHypothesis =>
        have reserved' := always _ after next split (run.snoc step)
        rw [List.append_assoc, List.singleton_append] at split
        obtain ⟨⟨frames, owned⟩, agree⟩ :=
          inductionHypothesis (operation :: after) split
        exact ⟨owned_step owned step, AgreeOn.trans (step_keeps owned step
          (always before _ here split run) reserved') agree⟩
  exact (kept operations [] state (List.append_nil _).symm run).2

/-- A block is added to the boot state, and a frame behind it stays as it is. -/
theorem run_keepsContents_boot :
    ∃ state', addPhysMem bootLayout (emptyBoot fun _ => 0#64) 0x10000#64
          0x2000#64 = .ok state' ∧
        AgreeOn state'.mem (emptyBoot fun _ => 0#64).mem 0x12000 4096 := by
  obtain ⟨state', added, wellFormed, bounded, _⟩ :=
    emptyBoot_adds fun _ => 0#64
  have wellFormed' := emptyBoot_wellFormed fun _ => 0#64
  have step : Ownership.Step bootLayout (emptyBoot fun _ => 0#64)
      (.addPhysMem 0x10000#64 0x2000#64) state' := ⟨emptyBoot_sound, added⟩
  have before : Reserved (emptyBoot fun _ => 0#64) 0x12000 := by
    refine ⟨by decide, by decide, fun isTable => ?_, ?_⟩
    · exact absurd (emptyBoot_isTable isTable) (by decide)
    · rw [freeFrames_eq wellFormed'.free]
      exact List.not_mem_nil
  have after : Reserved state' 0x12000 := by
    refine ⟨by decide, by decide, fun isTable => ?_, ?_⟩
    · exact absurd (bounded _ isTable) (by decide)
    · rw [freeFrames_eq wellFormed.free]
      exact (by decide : 0x12000 ∉ [0x10000, 0x11000])
  refine ⟨state', added, run_keepsContents bootLayout _ state' _ 0x12000
    ⟨[], wellFormed', fun _ _ _ => List.not_mem_nil, fun _ _ names =>
      absurd names emptyBoot_not_names⟩ (Run.nil.snoc step) ?_⟩
  -- the two states of the run
  rintro actions later here split run
  cases actions with
  | nil =>
      rw [run.nil_eq rfl]
      exact before
  | cons first rest =>
      obtain ⟨rfl, none⟩ := List.cons.inj split
      obtain ⟨rfl, _⟩ := List.append_eq_nil_iff.mp none.symm
      obtain ⟨middle, called, run⟩ := run.head
      obtain ⟨_, performed⟩ := called
      rw [Ownership.perform, added] at performed
      cases performed
      rw [run.nil_eq rfl]
      exact after

end BeaverOS.Footprint

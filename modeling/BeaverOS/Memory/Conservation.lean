import Mathlib.Data.Set.Insert
import BeaverOS.Lib.Transition
import BeaverOS.Memory.FrameAllocator

/-!
# Conservation of free frames

The set of frames that the chain of block headers denotes, through every run of
`add_phys_mem`, `free_page` and `alloc_page` in any order.
-/

namespace BeaverOS.FrameAllocator

open BeaverOS.ByteMemory
open BeaverOS.BlockChain
open BeaverOS.Paging
open BeaverOS.Transition
open BeaverOS.Window

/-- The frames that the chain of headers denotes. -/
def freeFrames (state : Mapper) : Set Nat := fun frame =>
  ∃ frames, FreeList state.mem state.firstFreeBlock frames ∧ frame ∈ frames

/-- The chain ends, and no frame is in two of its blocks. -/
def Intact (state : Mapper) : Prop :=
  ∃ frames, FreeList state.mem state.firstFreeBlock frames ∧ frames.Nodup

/-- The frames of a block that is added. -/
def addedFrames (physMemStart length : Word) : Set Nat := fun frame =>
  frame ∈ blockFrames 4096 physMemStart.toNat (length.toNat / 4096)

/-- The headers of a set of frames. -/
def headersOf (frames : Set Nat) : Set Nat := fun cell =>
  ∃ frame ∈ frames, cell ∈ cells frame 16

inductive Operation where
  | addPhysMem (physMemStart length : Word)
  | freePage (page : Word)
  | allocPage
  deriving DecidableEq

/-- One call, with the frame that it returns. -/
def perform (layout : Layout) (state : Mapper) :
    Operation → Except Halt (Option Word × Mapper)
  | .addPhysMem physMemStart length =>
      (addPhysMem layout state physMemStart length).map fun state => (none, state)
  | .freePage page =>
      (freePage layout state page).map fun state => (none, state)
  | .allocPage =>
      (allocPage layout state).map fun result => (some result.1, result.2)

/-- What the callers keep to: physical addresses have 52 bits. -/
def Allowed (state : Mapper) : Operation → Prop
  | .addPhysMem physMemStart length =>
      physMemStart.toNat % 4096 = 0 ∧ physMemStart ≠ 0#64 ∧
        4096 ≤ length.toNat ∧ physMemStart.toNat + length.toNat ≤ 2 ^ 52 ∧
        Disjoint (addedFrames physMemStart length) (freeFrames state)
  | .freePage page =>
      IsFrame page ∧ page ≠ 0#64 ∧ page.toNat ∉ freeFrames state
  | .allocPage => (freeFrames state).Nonempty

/-- What a call does to the free frames. -/
def Accounts (before after : Set Nat) : Operation → Option Word → Prop
  | .addPhysMem physMemStart length, returned =>
      returned = none ∧ after = addedFrames physMemStart length ∪ before
  | .freePage page, returned =>
      returned = none ∧ after = insert page.toNat before
  | .allocPage, returned =>
      ∃ page, returned = some page ∧ page.toNat ∈ before ∧
        after = before \ {page.toNat}

/-- A call keeps the chain, accounts for its frames, and writes to slots of the
window and to headers of free frames only. -/
structure Conserves (layout : Layout) (state : Mapper) (operation : Operation)
    (returned : Option Word) (state' : Mapper) : Prop where
  intact : Intact state'
  accounts : Accounts (freeFrames state) (freeFrames state') operation returned
  written :
    AgreeOff (slotCells layout ∪ headersOf (freeFrames state')) state'.mem
      state.mem

section Conservation

variable {layout : Layout} {state state' : Mapper} {frames : List Nat}
  {page physMemStart length : Word}

/-- The headers spell one list. -/
theorem freeFrames_eq
    (free : FreeList state.mem state.firstFreeBlock frames) :
    freeFrames state = {frame | frame ∈ frames} := by
  ext frame
  constructor
  · rintro ⟨other, same, member⟩
    rw [free.unique same]
    exact member
  · exact fun member => ⟨frames, free, member⟩

theorem headersOf_eq
    (free : FreeList state.mem state.firstFreeBlock frames) :
    headersOf (freeFrames state) = headerCells frames := by
  rw [freeFrames_eq free]
  rfl

/-- `add_phys_mem` puts the frames of its block in front of the free list,
whatever comes behind `last`. -/
theorem addPhysMem_specTo (layout : Layout) {last : Nat}
    (free : FreeListTo state.mem state.firstFreeBlock last frames)
    (aligned : physMemStart.toNat % 4096 = 0) (nonzero : physMemStart ≠ 0#64)
    (long : 4096 ≤ length.toNat)
    (bounded : physMemStart.toNat + 4096 * (length.toNat / 4096) ≤ 2 ^ 52)
    (fresh : physMemStart.toNat ∉ frames) (notLast : physMemStart.toNat ≠ last) :
    ∃ state', addPhysMem layout state physMemStart length = .ok state' ∧
      FreeListTo state'.mem state'.firstFreeBlock last
        (blockFrames 4096 physMemStart.toNat (length.toNat / 4096) ++ frames) ∧
      AgreeOff (slotCells layout ∪ cells physMemStart.toNat 16) state'.mem
        state.mem := by
  have frame : IsFrame physMemStart :=
    (isFrame_iff physMemStart).mpr ⟨aligned, by omega⟩
  have positive : physMemStart.toNat ≠ 0 := fun zero =>
    nonzero (BitVec.eq_of_toNat_eq zero)
  have lookedFree : FreeListTo (physLook layout state physMemStart).mem
      state.firstFreeBlock last frames := free.afterLook
  have count : (length / 4096#64).toNat = length.toNat / 4096 := by
    rw [BitVec.toNat_udiv]
    rfl
  refine ⟨_, addPhysMem_eq frame, ?_, ?_⟩
  · rw [← count]
    refine lookedFree.push_block positive aligned ?_ ?_ fresh notLast
    · rw [count]
      omega
    · rw [count]
      exact bounded
  · exact (agreeOff_putHeader.mono Set.subset_union_right).trans
      ((agreeOff_physLook layout state physMemStart).mono
        Set.subset_union_left)

/-- `add_phys_mem` puts the frames of its block in front of the free list. -/
theorem addPhysMem_spec (layout : Layout)
    (free : FreeList state.mem state.firstFreeBlock frames)
    (aligned : physMemStart.toNat % 4096 = 0) (nonzero : physMemStart ≠ 0#64)
    (long : 4096 ≤ length.toNat)
    (bounded : physMemStart.toNat + length.toNat ≤ 2 ^ 52)
    (fresh : physMemStart.toNat ∉ frames) :
    ∃ state', addPhysMem layout state physMemStart length = .ok state' ∧
      FreeList state'.mem state'.firstFreeBlock
        (blockFrames 4096 physMemStart.toNat (length.toNat / 4096) ++ frames) ∧
      AgreeOff (slotCells layout ∪ cells physMemStart.toNat 16) state'.mem
        state.mem := by
  have positive : physMemStart.toNat ≠ 0 := fun zero =>
    nonzero (BitVec.eq_of_toNat_eq zero)
  have inside : physMemStart.toNat + 4096 * (length.toNat / 4096) ≤ 2 ^ 52 := by
    have floor := Nat.mul_div_le length.toNat 4096
    omega
  obtain ⟨state', added, free', agree⟩ :=
    addPhysMem_specTo layout (freeListTo_zero.mpr free) aligned nonzero long
      inside fresh positive
  exact ⟨state', added, freeListTo_zero.mp free', agree⟩

/-- A header at the start of a free frame. -/
theorem cells_subset_headersOf {frames : Set Nat} {frame : Nat}
    (member : frame ∈ frames) : cells frame 16 ⊆ headersOf frames :=
  fun _ inside => ⟨frame, member, inside⟩

theorem addPhysMem_conserves (layout : Layout) (intact : Intact state)
    (allowed : Allowed state (.addPhysMem physMemStart length)) :
    ∃ state', addPhysMem layout state physMemStart length = .ok state' ∧
      Conserves layout state (.addPhysMem physMemStart length) none state' := by
  obtain ⟨frames, free, distinct⟩ := intact
  obtain ⟨aligned, nonzero, long, bounded, apart⟩ := allowed
  rw [freeFrames_eq free] at apart
  have first : physMemStart.toNat ∈ blockFrames 4096 physMemStart.toNat
      (length.toNat / 4096) := start_mem_blockFrames (by omega)
  have fresh : physMemStart.toNat ∉ frames := fun member =>
    Set.disjoint_left.mp apart first member
  obtain ⟨state', added, free', agree⟩ :=
    addPhysMem_spec layout free aligned nonzero long bounded fresh
  refine ⟨state', added, ⟨_, free', ?_⟩, ⟨rfl, ?_⟩, ?_⟩
  · refine List.nodup_append'.mpr
      ⟨blockFrames_nodup (by decide), distinct, ?_⟩
    intro frame inBlock inFree
    exact Set.disjoint_left.mp apart inBlock inFree
  · rw [freeFrames_eq free', freeFrames_eq free]
    ext frame
    exact List.mem_append
  · refine agree.mono (Set.union_subset_union_right _ ?_)
    apply cells_subset_headersOf
    rw [freeFrames_eq free']
    exact List.mem_append_left _ first

theorem freePage_conserves (layout : Layout) (intact : Intact state)
    (allowed : Allowed state (.freePage page)) :
    ∃ state', freePage layout state page = .ok state' ∧
      Conserves layout state (.freePage page) none state' := by
  obtain ⟨frames, free, distinct⟩ := intact
  obtain ⟨frame, nonzero, fresh⟩ := allowed
  rw [freeFrames_eq free] at fresh
  obtain ⟨state', freed, result⟩ : ∃ state',
      freePage layout state page = .ok state' ∧
        Freed layout state state' page frames :=
    freePage_spec free frame nonzero fresh
  have free' := result.free
  refine ⟨state', freed, ⟨_, free', List.nodup_cons.mpr ⟨fresh, distinct⟩⟩,
    ⟨rfl, ?_⟩, ?_⟩
  · rw [freeFrames_eq free', freeFrames_eq free]
    ext frame
    exact List.mem_cons
  · refine result.agree.mono (Set.union_subset_union_right _ ?_)
    apply cells_subset_headersOf
    rw [freeFrames_eq free']
    exact List.mem_cons_self

theorem allocPage_conserves (layout : Layout) (intact : Intact state)
    (allowed : Allowed state .allocPage) :
    ∃ page state', allocPage layout state = .ok (page, state') ∧
      Conserves layout state .allocPage (some page) state' := by
  obtain ⟨frames, free, distinct⟩ := intact
  obtain ⟨some, member⟩ := allowed
  rw [freeFrames_eq free] at member
  cases frames with
  | nil => exact absurd member List.not_mem_nil
  | cons frame frames =>
      obtain ⟨state', allocated, taken⟩ : ∃ state',
          allocPage layout state = .ok (state.firstFreeBlock, state') ∧
            Taken layout state state' frames := allocPage_spec free distinct
      obtain ⟨notMember, distinct'⟩ := List.nodup_cons.mp distinct
      have headEq := free.first_eq
      refine ⟨_, state', allocated, ⟨_, taken.free, distinct'⟩,
        ⟨_, rfl, ?_, ?_⟩, ?_⟩
      · rw [freeFrames_eq free, headEq]
        exact List.mem_cons_self
      · rw [freeFrames_eq free, freeFrames_eq taken.free, headEq]
        ext other
        constructor
        · intro inRest
          exact ⟨List.mem_cons_of_mem _ inRest, fun equal =>
            notMember (equal ▸ inRest)⟩
        · rintro ⟨inAll, different⟩
          exact (List.mem_cons.mp inAll).resolve_left different
      · rw [headersOf_eq taken.free]
        exact taken.agree

/-- Every allowed call returns, and conserves the free frames. -/
theorem perform_conserves (layout : Layout) (intact : Intact state)
    (operation : Operation)
    (allowed : Allowed state operation) :
    ∃ returned state',
      perform layout state operation = .ok (returned, state') ∧
        Conserves layout state operation returned state' := by
  cases operation with
  | addPhysMem physMemStart length =>
      obtain ⟨state', added, conserves⟩ :=
        addPhysMem_conserves layout intact allowed
      exact ⟨none, state', by rw [perform, added]; rfl, conserves⟩
  | freePage page =>
      obtain ⟨state', freed, conserves⟩ :=
        freePage_conserves layout intact allowed
      exact ⟨none, state', by rw [perform, freed]; rfl, conserves⟩
  | allocPage =>
      obtain ⟨page, state', allocated, conserves⟩ :=
        allocPage_conserves layout intact allowed
      exact ⟨some page, state', by rw [perform, allocated]; rfl, conserves⟩

end Conservation

/-! ## Runs -/

/-- An allowed call that returns. -/
def Step (layout : Layout) (state : Mapper) (operation : Operation)
    (state' : Mapper) : Prop :=
  Allowed state operation ∧
    ∃ returned, perform layout state operation = .ok (returned, state')

/-- In every state that a run reaches from an intact chain, the chain is intact,
and every allowed call returns and conserves the free frames. -/
theorem run_conserves (layout : Layout) (start : Mapper)
    (initial : Intact start) (operations : List Operation) (state : Mapper)
    (run : Run (Step layout) start operations state) :
    Intact state ∧
      ∀ operation, Allowed state operation →
        ∃ returned state',
          perform layout state operation = .ok (returned, state') ∧
            Conserves layout state operation returned state' := by
  have intact : Intact state := by
    refine run.invariant initial ?_
    rintro state operation state' intact ⟨allowed, returned, performed⟩
    obtain ⟨expected, final, result, conserves⟩ :=
      perform_conserves layout intact operation allowed
    obtain ⟨-, rfl⟩ := Prod.mk.inj (Except.ok.inj (performed.symm.trans result))
    exact conserves.intact
  exact ⟨intact, fun operation allowed =>
    perform_conserves layout intact operation allowed⟩

/-! ### One block -/

/-- A window of four pages. -/
def smallLayout : Layout where
  windowPt := 0x5000
  windowSize := 4
  windowPt_aligned := by decide
  windowPt_bounded := by decide
  windowSize_pos := fourPages_pos
  windowSize_le := fourPages_le

/-- The allocator as it is linked. -/
def emptyMapper : Mapper where
  mem := fun _ => 0
  windowBase := 0
  physWindow := 0
  pml4 := 0
  firstFreeBlock := 0

theorem freeList_emptyMapper :
    FreeList emptyMapper.mem emptyMapper.firstFreeBlock [] :=
  Chain.nil

theorem intact_emptyMapper : Intact emptyMapper :=
  ⟨[], freeList_emptyMapper, List.nodup_nil⟩

theorem allowed_emptyMapper :
    Allowed emptyMapper (.addPhysMem 0x100000#64 0x3000#64) := by
  refine ⟨by decide, by decide, by decide, by decide, ?_⟩
  rw [freeFrames_eq freeList_emptyMapper, Set.disjoint_left]
  exact fun _ _ member => List.not_mem_nil member

theorem run_conserves_small :
    ∃ state,
      Run (Step smallLayout) emptyMapper
          [.addPhysMem 0x100000#64 0x3000#64] state ∧
        Intact state ∧
        ∀ operation, Allowed state operation →
          ∃ returned state',
            perform smallLayout state operation = .ok (returned, state') ∧
              Conserves smallLayout state operation returned state' := by
  obtain ⟨returned, state, performed, -⟩ := perform_conserves smallLayout
    intact_emptyMapper (.addPhysMem 0x100000#64 0x3000#64) allowed_emptyMapper
  have run : Run (Step smallLayout) emptyMapper
      ([] ++ [.addPhysMem 0x100000#64 0x3000#64]) state :=
    Run.nil.snoc ⟨allowed_emptyMapper, returned, performed⟩
  exact ⟨state, run, run_conserves smallLayout emptyMapper intact_emptyMapper
    [.addPhysMem 0x100000#64 0x3000#64] state run⟩

end BeaverOS.FrameAllocator

import BeaverOS.Memory.Conservation

/-!
# Draining the free list

The pages that `alloc_page` returns until it panics, also from chains that hold
more than whole free frames: a block that starts inside a page, an empty block,
or one that goes on where `phys_look` cannot follow.
-/

namespace BeaverOS.FrameAllocator

open BeaverOS.ByteMemory
open BeaverOS.BlockChain
open BeaverOS.Paging
open BeaverOS.Window

/-- The pages that calls of `alloc_page` return before one panics. -/
inductive Drained (layout : Layout) : Mapper → List Word → Prop
  | panics {state : Mapper} :
      allocPage layout state = .error (.panic "no memory availible") →
      Drained layout state []
  | takes {state state' : Mapper} {page : Word} {pages : List Word} :
      allocPage layout state = .ok (page, state') →
      Drained layout state' pages →
      Drained layout state (page :: pages)

section Draining

variable {layout : Layout} {state state' : Mapper} {frames : List Nat}
  {pages : List Word} {page phys pointer value physMemStart length : Word}
  {last : Nat}

/-! ## Accesses through any window -/

theorem store_cases (stored : store layout state pointer value = .ok state') :
    pointer.toNat + 8 ≤ pageSize * layout.windowSize ∧
      state' = putWord state
        ((state.windowBase.toNat + pointer.toNat) % 2 ^ 52) value := by
  obtain ⟨address, found, rfl⟩ := exists_ok_of_map stored
  rw [windowAddress] at found
  split at found
  · next inside =>
      cases found
      exact ⟨inside, rfl⟩
  · cases found

theorem load_error {halt : Halt}
    (failed : load layout state pointer = .error halt) : halt = .fault := by
  rw [load, windowAddress] at failed
  split at failed
  · cases failed
  · cases failed
    rfl

theorem store_error {halt : Halt}
    (failed : store layout state pointer value = .error halt) :
    halt = .fault := by
  rw [store, windowAddress] at failed
  split at failed
  · cases failed
  · cases failed
    rfl

/-- The window shows an address at its distance from a frame. -/
theorem physLook_toNat (layout : Layout) (state : Mapper) (phys : Word) :
    (physLook layout state phys).windowBase.toNat < 2 ^ 52 ∧
      (physLook layout state phys).windowBase.toNat +
        (physLook layout state phys).physWindow.toNat = phys.toNat := by
  have base : (physLook layout state phys).windowBase = frameOf phys :=
    BitVec.and_comm _ _
  have offset : (physLook layout state phys).physWindow =
      phys - frameOf phys := by
    rw [frameOf, BitVec.and_comm]
    rfl
  have rounded := toNat_frameOf phys
  have bound := phys.isLt
  rw [base, offset, BitVec.toNat_sub, rounded]
  omega

/-- Nothing can be stored at an address beyond 52 bits. -/
theorem store_high (high : 2 ^ 52 ≤ phys.toNat) :
    ¬ store layout (physLook layout state phys)
      (physLook layout state phys).physWindow value = .ok state' := by
  intro stored
  have inside := (store_cases stored).1
  have shown := physLook_toNat layout state phys
  have small := layout.windowSize_le
  have rounded := toNat_frameOf phys
  have base : (physLook layout state phys).windowBase = frameOf phys :=
    BitVec.and_comm _ _
  rw [base] at shown
  rw [pageSize] at inside
  omega

theorem storeHeader_high {size next : Word} (high : 2 ^ 52 ≤ phys.toNat) :
    ¬ storeHeader layout (physLook layout state phys) size next =
      .ok state' := by
  intro stored
  simp only [storeHeader, bind, Except.bind] at stored
  split at stored
  · cases stored
  · next middle first => exact store_high high first

/-- The bytes that a header at `start` may take, when the second half of it
can wrap. -/
def headerReach (start : Nat) : Set Nat := fun cell => cell < 16 ∨ start ≤ cell

/-- What `add_phys_mem` changes, wherever its block starts. -/
theorem addPhysMem_reach
    (added : addPhysMem layout state physMemStart length = .ok state') :
    physMemStart.toNat < 2 ^ 52 ∧ state'.firstFreeBlock = physMemStart ∧
      AgreeOff (slotCells layout ∪ headerReach physMemStart.toNat) state'.mem
        state.mem := by
  have low : physMemStart.toNat < 2 ^ 52 := by
    by_contra high
    simp only [addPhysMem, bind, Except.bind] at added
    split at added
    · cases added
    · next stored => exact storeHeader_high (Nat.le_of_not_lt high) stored
  have shown := physLook_toNat layout state physMemStart
  have small := layout.windowSize_le
  simp only [addPhysMem, storeHeader, bind, Except.bind] at added
  split at added
  · cases added
  · next middle stored =>
      cases added
      split at stored
      · cases stored
      · next first firstStored =>
          obtain ⟨inside, rfl⟩ := store_cases firstStored
          obtain ⟨-, rfl⟩ := store_cases stored
          refine ⟨low, rfl, ?_⟩
          have secondPlace : ((physLook layout state physMemStart).physWindow +
              8#64).toNat =
                (physLook layout state physMemStart).physWindow.toNat + 8 := by
            rw [pageSize] at inside
            rw [BitVec.toNat_add, BitVec.toNat_ofNat]
            omega
          have firstReach := agreeOff_writeWord
            (physLook layout state physMemStart).mem
            (((physLook layout state physMemStart).windowBase.toNat +
              (physLook layout state physMemStart).physWindow.toNat) % 2 ^ 52)
            (length / 4096#64)
          refine ((agreeOff_writeWord _ _ _).mono ?_).trans
            ((firstReach.mono ?_).trans
              ((agreeOff_physLook layout state physMemStart).mono
                Set.subset_union_left))
          · intro cell member
            rw [mem_cells, putWord_windowBase, putWord_physWindow, secondPlace]
              at member
            refine Or.inr ?_
            change cell < 16 ∨ physMemStart.toNat ≤ cell
            omega
          · intro cell member
            rw [mem_cells] at member
            refine Or.inr ?_
            change cell < 16 ∨ physMemStart.toNat ≤ cell
            omega

/-! ## One page after another -/

theorem allocPage_returns
    (allocated : allocPage layout state = .ok (page, state')) :
    page = state.firstFreeBlock := by
  simp only [allocPage, bind, Except.bind, pure, Except.pure, throw,
    throwThe, MonadExceptOf.throw] at allocated
  split at allocated
  · cases allocated
  · split at allocated
    · cases allocated
    · split at allocated
      · cases allocated
      · split at allocated
        · cases allocated
          rfl
        · split at allocated
          · cases allocated
          · cases allocated
            rfl

theorem storeHeader_error {size next : Word} {halt : Halt}
    (failed : storeHeader layout state size next = .error halt) :
    halt = .fault := by
  simp only [storeHeader, bind, Except.bind] at failed
  split at failed
  · next first =>
      cases failed
      exact store_error first
  · exact store_error failed

theorem allocPage_panics {message : String}
    (panics : allocPage layout state = .error (.panic message)) :
    state.firstFreeBlock = 0#64 := by
  by_contra nonempty
  simp only [allocPage, nonempty, if_false, bind, Except.bind, pure,
    Except.pure] at panics
  split at panics
  · next failed =>
      cases panics
      exact absurd (load_error failed) (by simp)
  · split at panics
    · next failed =>
        cases panics
        exact absurd (load_error failed) (by simp)
    · split at panics
      · cases panics
      · split at panics
        · next failed =>
            cases panics
            exact absurd (storeHeader_error failed) (by simp)
        · cases panics

/-- A free list is drained in its order. -/
theorem drained_of_freeList (layout : Layout)
    (free : FreeList state.mem state.firstFreeBlock frames)
    (distinct : frames.Nodup) :
    ∃ pages, Drained layout state pages ∧
      pages.map BitVec.toNat = frames := by
  induction frames generalizing state with
  | nil =>
      have empty : state.firstFreeBlock = 0#64 :=
        free.first_eq_zero_iff.mpr rfl
      exact ⟨[], Drained.panics (allocPage_empty empty), rfl⟩
  | cons frame frames inductionHypothesis =>
      obtain ⟨state', allocated, taken⟩ : ∃ state',
          allocPage layout state = .ok (state.firstFreeBlock, state') ∧
            Taken layout state state' frames := allocPage_spec free distinct
      obtain ⟨pages, drained, pagesEq⟩ :=
        inductionHypothesis taken.free (List.nodup_cons.mp distinct).2
      refine ⟨_, Drained.takes allocated drained, ?_⟩
      rw [List.map_cons, pagesEq, free.first_eq]

/-- Draining comes to the address that the free frames end with. -/
theorem Drained.reaches (drained : Drained layout state pages)
    (free : FreeListTo state.mem state.firstFreeBlock last frames)
    (distinct : frames.Nodup) (apart : last ∉ frames) :
    ∃ rest state', Drained layout state' rest ∧
      rest <:+ pages ∧ state'.firstFreeBlock.toNat = last ∧
      AgreeOff (slotCells layout ∪ headerCells frames) state'.mem
        state.mem := by
  induction frames generalizing state pages with
  | nil =>
      exact ⟨pages, state, drained, List.suffix_rfl, free.ended,
        AgreeOff.refl _ _⟩
  | cons frame frames inductionHypothesis =>
      have apart' : last ∉ frames := fun member =>
        apart (List.mem_cons_of_mem _ member)
      obtain ⟨next, allocated, free', agree, -⟩ :
          ∃ next, allocPage layout state =
              .ok (state.firstFreeBlock, next) ∧
            FreeListTo next.mem next.firstFreeBlock last frames ∧
            AgreeOff (slotCells layout ∪ headerCells frames) next.mem
              state.mem ∧
            next.pml4 = state.pml4 := allocPage_specTo free distinct apart'
      cases drained with
      | panics panics =>
          rw [allocated] at panics
          cases panics
      | takes result drained =>
          rw [allocated] at result
          cases result
          obtain ⟨rest, state', drained', inside, reached, agree'⟩ :=
            inductionHypothesis drained free' (List.nodup_cons.mp distinct).2
              apart'
          refine ⟨rest, state', drained', inside.trans
            (List.suffix_cons _ _), reached, ?_⟩
          have wider : headerCells frames ⊆ headerCells (frame :: frames) :=
            headerCells_mono (List.subset_cons_self frame frames)
          exact (agree'.mono (Set.union_subset_union_right _ wider)).trans
            (agree.mono (Set.union_subset_union_right _ wider))

/-- Draining returns the address of every block that it comes to. -/
theorem Drained.first_mem (drained : Drained layout state pages)
    (nonempty : state.firstFreeBlock ≠ 0#64) :
    state.firstFreeBlock ∈ pages := by
  cases drained with
  | panics panics => exact absurd (allocPage_panics panics) nonempty
  | takes allocated drained =>
      rw [allocPage_returns allocated]
      exact List.mem_cons_self

/-- The state after a frame is taken from a block that has more of them. -/
theorem allocPage_advanced (frame : IsFrame state.firstFreeBlock)
    (nonempty : state.firstFreeBlock ≠ 0#64)
    (several : headerSize state.mem state.firstFreeBlock.toNat ≠ 1)
    (allocated : allocPage layout state = .ok (page, state')) :
    IsFrame (state.firstFreeBlock + 4096#64) ∧
      state'.firstFreeBlock = state.firstFreeBlock + 4096#64 ∧
      ∃ looked,
        AgreeOff (slotCells layout) looked state.mem ∧
          state'.mem =
            putHeader looked (state.firstFreeBlock + 4096#64).toNat
              (readWord state.mem state.firstFreeBlock.toNat - 1#64)
              (readWord state.mem (state.firstFreeBlock.toNat + 8)) := by
  obtain ⟨aligned, bounded⟩ := (isFrame_iff _).mp frame
  have sizeEq := readWord_header_physLook layout state state.firstFreeBlock
    aligned (Or.inl rfl)
  have nextEq := readWord_header_physLook layout state state.firstFreeBlock
    aligned (Or.inr rfl)
  have notOne : readWord (physLook layout state state.firstFreeBlock).mem
      state.firstFreeBlock.toNat ≠ 1#64 := by
    intro single
    rw [sizeEq] at single
    rw [headerSize, single] at several
    exact several rfl
  have above : IsFrame (state.firstFreeBlock + 4096#64) := by
    by_contra beyond
    have moved : (state.firstFreeBlock + 4096#64).toNat =
        state.firstFreeBlock.toNat + 4096 := by
      rw [BitVec.toNat_add, BitVec.toNat_ofNat]
      omega
    have high : 2 ^ 52 ≤ (state.firstFreeBlock + 4096#64).toNat := by
      by_contra inside
      exact beyond ((isFrame_iff _).mpr ⟨by omega, by omega⟩)
    rw [allocPage_eq nonempty frame] at allocated
    simp only [notOne, if_false] at allocated
    obtain ⟨moved, stored, -⟩ := exists_ok_of_map allocated
    exact storeHeader_high high stored
  rw [allocPage_several nonempty frame above notOne, sizeEq, nextEq]
    at allocated
  cases allocated
  refine ⟨above, rfl, _, ?_, rfl⟩
  exact (agreeOff_physLook layout
    { physLook layout state state.firstFreeBlock with
      firstFreeBlock := state.firstFreeBlock + 4096#64 }
    (state.firstFreeBlock + 4096#64)).trans
      (agreeOff_physLook layout state state.firstFreeBlock)

/-- A block of no frames, or one that goes on beyond 52 bits, cannot be
drained. -/
theorem not_drained_of_high (frame : IsFrame state.firstFreeBlock)
    (nonempty : state.firstFreeBlock ≠ 0#64)
    (high : headerSize state.mem state.firstFreeBlock.toNat = 0 ∨
      2 ^ 52 < state.firstFreeBlock.toNat +
        4096 * headerSize state.mem state.firstFreeBlock.toNat) :
    ¬ Drained layout state pages := by
  intro drained
  induction drained with
  | panics panics => exact nonempty (allocPage_panics panics)
  | @takes state state' page pages allocated drained inductionHypothesis =>
      obtain ⟨aligned, bounded⟩ := (isFrame_iff _).mp frame
      have several : headerSize state.mem state.firstFreeBlock.toNat ≠ 1 := by
        omega
      obtain ⟨above, firstEq, looked, -, memEq⟩ :=
        allocPage_advanced frame nonempty several allocated
      have moved : (state.firstFreeBlock + 4096#64).toNat =
          state.firstFreeBlock.toNat + 4096 := by
        rw [BitVec.toNat_add, BitVec.toNat_ofNat]
        omega
      refine inductionHypothesis (firstEq ▸ above) ?_ (Or.inr ?_)
      · intro zero
        rw [firstEq] at zero
        rw [zero] at moved
        exact absurd moved.symm (Nat.succ_ne_zero _)
      · rw [firstEq, memEq, headerSize_putHeader, moved, BitVec.toNat_sub]
        have bound :=
          (readWord state.mem state.firstFreeBlock.toNat).isLt
        rw [headerSize] at high several
        simp only [BitVec.toNat_ofNat]
        omega

/-- The first block has `count` frames, and the chain behind it comes to
`last`. -/
structure AtBlock (state : Mapper) (count last : Nat) (frames : List Nat) :
    Prop where
  frame : IsFrame state.firstFreeBlock
  nonempty : state.firstFreeBlock ≠ 0#64
  sized : headerSize state.mem state.firstFreeBlock.toNat = count
  low : state.firstFreeBlock.toNat + 4096 * count ≤ 2 ^ 52
  behind :
    FreeListTo state.mem
      (readWord state.mem (state.firstFreeBlock.toNat + 8)) last frames
  distinct :
    (blockFrames 4096 state.firstFreeBlock.toNat count ++ frames).Nodup

/-- Behind its first frame a longer block is a block. -/
theorem AtBlock.next {count : Nat} (block : AtBlock state (count + 2) last frames)
    (allocated : allocPage layout state = .ok (page, state')) :
    state'.firstFreeBlock.toNat = state.firstFreeBlock.toNat + 4096 ∧
      AtBlock state' (count + 1) last frames := by
  have low := block.low
  have sized := block.sized
  obtain ⟨aligned, bounded⟩ := (isFrame_iff _).mp block.frame
  obtain ⟨above, firstEq, looked, sameSlots, memEq⟩ :=
    allocPage_advanced block.frame block.nonempty (by omega) allocated
  have moved : (state.firstFreeBlock + 4096#64).toNat =
      state.firstFreeBlock.toNat + 4096 := by
    rw [BitVec.toNat_add, BitVec.toNat_ofNat]
    omega
  have distinct := block.distinct
  rw [blockFrames_succ, List.cons_append] at distinct
  have distinctRest := (List.nodup_cons.mp distinct).2
  have second : state.firstFreeBlock.toNat + 4096 ∉ frames := fun member =>
    List.disjoint_of_nodup_append distinctRest
      (start_mem_blockFrames (Nat.succ_pos count)) member
  have spared : ∀ other ∈ frames, Disjoint (cells other 16)
      (cells (state.firstFreeBlock.toNat + 4096) 16) := by
    intro other member
    have bounds := block.behind.bounds member
    have different : other ≠ state.firstFreeBlock.toNat + 4096 :=
      fun same => second (same ▸ member)
    exact cells_disjoint (by omega)
  refine ⟨by rw [firstEq, moved], ?_⟩
  constructor
  · rw [firstEq]
    exact above
  · intro zero
    rw [firstEq] at zero
    rw [zero] at moved
    exact absurd moved.symm (Nat.succ_ne_zero _)
  · rw [headerSize] at sized
    rw [firstEq, memEq, headerSize_putHeader, BitVec.toNat_sub, sized]
    simp only [BitVec.toNat_ofNat]
    omega
  · have split : 4096 * (count + 2) = 4096 + 4096 * (count + 1) := by ring
    rw [firstEq, moved, Nat.add_assoc, ← split]
    exact low
  · rw [firstEq, memEq, readWord_putHeader_next, moved]
    refine FreeListTo.of_agreeOff ?_ agreeOff_putHeader spared
    exact block.behind.of_agreeOff sameSlots fun _ member =>
      header_disjoint_slots layout (block.behind.bounds member).2.1
  · rw [firstEq, moved]
    exact distinctRest

/-- Behind its first frame a block leads to `last`. -/
theorem AtBlock.goesOn {count : Nat}
    (block : AtBlock state (count + 1) state.firstFreeBlock.toNat frames)
    (allocated : allocPage layout state = .ok (page, state')) :
    FreeListTo state'.mem state'.firstFreeBlock state.firstFreeBlock.toNat
      (blockFrames 4096 (state.firstFreeBlock.toNat + 4096) count ++
        frames) := by
  obtain ⟨aligned, bounded⟩ := (isFrame_iff _).mp block.frame
  cases count with
  | zero =>
      have looked := readWord_header_physLook layout state
        state.firstFreeBlock aligned (Or.inl rfl)
      have one : readWord (physLook layout state state.firstFreeBlock).mem
          state.firstFreeBlock.toNat = 1#64 := by
        rw [looked]
        exact BitVec.eq_of_toNat_eq block.sized
      rw [allocPage_single block.nonempty block.frame one,
        readWord_header_physLook layout state state.firstFreeBlock aligned
          (Or.inr rfl)] at allocated
      cases allocated
      exact block.behind.afterLook
  | succ count =>
      obtain ⟨moved, next⟩ := block.next allocated
      have low := next.low
      have aligned' := ((isFrame_iff _).mp next.frame).1
      rw [← moved, ← next.sized]
      refine next.behind.block (by omega) aligned' ?_ ?_ (by omega)
      · rw [next.sized]
        exact Nat.succ_pos count
      · rw [next.sized]
        exact low

/-- A block whose chain leads back to one of its frames hands this frame out
twice. -/
theorem Drained.repeats {count index : Nat} (drained : Drained layout state pages)
    (block : AtBlock state count last frames) (inside : index < count)
    (back : last = state.firstFreeBlock.toNat + 4096 * index) :
    ¬ pages.Nodup := by
  have distinct := block.distinct
  induction index generalizing state pages count with
  | zero =>
      obtain ⟨count, rfl⟩ := Nat.exists_eq_succ_of_ne_zero
        (Nat.ne_of_gt inside)
      have lastEq : last = state.firstFreeBlock.toNat := back
      subst lastEq
      rw [Nat.succ_eq_add_one, blockFrames_succ, List.cons_append] at distinct
      obtain ⟨notAgain, distinctRest⟩ := List.nodup_cons.mp distinct
      cases drained with
      | panics panics => exact absurd (allocPage_panics panics) block.nonempty
      | @takes _ state' page pages allocated drained =>
          obtain ⟨rest, reached, drained', inPages, reachedEq, -⟩ :=
            drained.reaches (block.goesOn allocated) distinctRest notAgain
          have sameFirst : reached.firstFreeBlock = state.firstFreeBlock :=
            BitVec.eq_of_toNat_eq reachedEq
          have again := drained'.first_mem
            (by rw [sameFirst]; exact block.nonempty)
          rw [sameFirst, ← allocPage_returns allocated] at again
          intro nodup
          exact (List.nodup_cons.mp nodup).1 (inPages.subset again)
  | succ index inductionHypothesis =>
      obtain ⟨rest, rfl⟩ : ∃ rest, count = rest + 2 := ⟨count - 2, by omega⟩
      cases drained with
      | panics panics => exact absurd (allocPage_panics panics) block.nonempty
      | @takes _ state' page pages allocated drained =>
          obtain ⟨moved, next⟩ := block.next allocated
          have notNodup := inductionHypothesis drained next (by omega)
            (by rw [moved]; omega) next.distinct
          exact fun nodup => notNodup (List.nodup_cons.mp nodup).2

end Draining

end BeaverOS.FrameAllocator

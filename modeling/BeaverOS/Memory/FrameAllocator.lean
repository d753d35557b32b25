import BeaverOS.Lib.BlockChain
import BeaverOS.Memory.Window

/-!
# The frame allocator

Free physical memory is a chain of blocks whose headers lie inside the free
memory itself. The functions of `memory/mapper.c` that push and pop frames are
translated first; then each of them is shown to act on the list of free frames
that the chain spells, and to write nothing but window slots and headers of
free frames.
-/

namespace BeaverOS.FrameAllocator

open BeaverOS.ByteMemory
open BeaverOS.BlockChain
open BeaverOS.Paging
open BeaverOS.Window

/-- Store a `page_header_t` at the window pointer. -/
def storeHeader (layout : Layout) (state : Mapper) (size next : Word) :
    Except Halt Mapper := do
  let state ← store layout state state.physWindow size
  store layout state (state.physWindow + 8#64) next

/-- `add_phys_mem`. -/
def addPhysMem (layout : Layout) (state : Mapper)
    (physMemStart length : Word) : Except Halt Mapper := do
  let state := physLook layout state physMemStart
  let state ← storeHeader layout state (length / 4096#64) state.firstFreeBlock
  return { state with firstFreeBlock := physMemStart }

/-- `free_page`. -/
def freePage (layout : Layout) (state : Mapper) (page : Word) :
    Except Halt Mapper := do
  let state := physLook layout state page
  let state ← storeHeader layout state 1#64 state.firstFreeBlock
  return { state with firstFreeBlock := page }

/-- `alloc_page`. -/
def allocPage (layout : Layout) (state : Mapper) :
    Except Halt (Word × Mapper) := do
  if state.firstFreeBlock = 0#64 then
    throw (.panic "no memory availible")
  else
    let ret := state.firstFreeBlock
    let state := physLook layout state state.firstFreeBlock
    let size ← load layout state state.physWindow
    let next ← load layout state (state.physWindow + 8#64)
    if size = 1#64 then
      return (ret, { state with firstFreeBlock := next })
    else
      let state :=
        { state with firstFreeBlock := state.firstFreeBlock + 4096#64 }
      let state := physLook layout state state.firstFreeBlock
      let state ← storeHeader layout state (size - 1#64) next
      return (ret, state)

/-- `calloc_page`. -/
def callocPage (layout : Layout) (state : Mapper) :
    Except Halt (Word × Mapper) := do
  let (ret, state) ← allocPage layout state
  let state := physLook layout state ret
  let state ← memset layout state state.physWindow 0 4096
  return (ret, state)

/-! ## The free list -/

/-- `page_header_t::size` of the block at `frame`. -/
def headerSize (memory : Memory) (frame : Nat) : Nat :=
  (readWord memory frame).toNat

/-- `page_header_t::next` of the block at `frame`. -/
def headerNext (memory : Memory) (frame : Nat) : Nat :=
  (readWord memory (frame + 8)).toNat

/-- The chain of free blocks from `first` spells `frames`. -/
def FreeList (memory : Memory) (first : Word) (frames : List Nat) : Prop :=
  Chain 4096 (2 ^ 52) (headerSize memory) (headerNext memory) first.toNat
    frames

/-- The header bytes of the listed frames. -/
def headerCells (frames : List Nat) : Set Nat :=
  fun cell => ∃ frame ∈ frames, cell ∈ cells frame 16

theorem headerCells_mono {frames larger : List Nat}
    (subset : frames ⊆ larger) : headerCells frames ⊆ headerCells larger :=
  fun _ ⟨frame, member, inside⟩ => ⟨frame, subset member, inside⟩

/-- Page-aligned frames are disjoint. -/
theorem frames_disjoint {frame other : Nat} {start count : Nat}
    (frameAligned : frame % 4096 = 0) (otherAligned : other % 4096 = 0)
    (different : frame ≠ other) (lower : frame ≤ start)
    (upper : start + count ≤ frame + 4096) :
    Disjoint (cells start count) (cells other 4096) :=
  cells_disjoint (by omega)

section FreeLists

variable {memory memory' : Memory} {first : Word} {frames : List Nat}
  {frame : Nat}

theorem FreeList.bounds (free : FreeList memory first frames)
    (member : frame ∈ frames) :
    frame ≠ 0 ∧ frame % 4096 = 0 ∧ frame + 4096 ≤ 2 ^ 52 :=
  Chain.frame_bounds free frame member

theorem FreeList.isFrame_first (free : FreeList memory first frames) :
    IsFrame first := by
  rw [isFrame_iff]
  refine ⟨Chain.start_aligned free, ?_⟩
  by_cases zero : first.toNat = 0
  · omega
  · have := free.bounds (Chain.start_mem zero free)
    omega

theorem FreeList.unique {other : List Nat}
    (free : FreeList memory first frames)
    (same : FreeList memory first other) : frames = other :=
  Chain.unique free same

theorem FreeList.first_eq (free : FreeList memory first (frame :: frames)) :
    first.toNat = frame :=
  Chain.head_eq free

theorem FreeList.first_eq_zero_iff (free : FreeList memory first frames) :
    first = 0#64 ↔ frames = [] := by
  rw [← Chain.start_eq_zero_iff free, ← BitVec.toNat_inj]
  rfl

theorem header_eq {changed : Set Nat}
    (agree : AgreeOff changed memory' memory)
    (disjoint : Disjoint (cells frame 16) changed) :
    headerSize memory' frame = headerSize memory frame ∧
      headerNext memory' frame = headerNext memory frame := by
  have low : cells frame 8 ⊆ cells frame 16 :=
    cells_subset (by omega) (by omega)
  have high : cells (frame + 8) 8 ⊆ cells frame 16 :=
    cells_subset (by omega) (by omega)
  constructor
  · rw [headerSize, agree.readWord_eq (disjoint.mono_left low), headerSize]
  · rw [headerNext, agree.readWord_eq (disjoint.mono_left high), headerNext]

/-- A change that spares the headers of the free frames spares the list. -/
theorem FreeList.of_agreeOff {changed : Set Nat}
    (free : FreeList memory first frames)
    (agree : AgreeOff changed memory' memory)
    (spared : ∀ frame ∈ frames, Disjoint (cells frame 16) changed) :
    FreeList memory' first frames :=
  Chain.congr free
    (fun frame member => (header_eq agree (spared frame member)).1)
    (fun frame member => (header_eq agree (spared frame member)).2)

theorem FreeList.headerSize_pos
    (free : FreeList memory first (frame :: frames)) :
    0 < headerSize memory frame := by
  rw [← free.first_eq]
  exact Chain.size_pos free (List.cons_ne_nil _ _)

theorem FreeList.second_frame
    (free : FreeList memory first (frame :: frames))
    (several : headerSize memory frame ≠ 1) :
    ∃ rest, frames = (frame + 4096) :: rest := by
  rw [← free.first_eq] at several ⊢
  exact Chain.second_frame several free

/-- A free list of one block, in a memory given by its words. -/
theorem freeList_ofWords {word : Nat → Word} {count : Nat}
    (nonzero : first.toNat ≠ 0) (aligned : first.toNat % 4096 = 0)
    (positive : 0 < count) (fits : first.toNat + 4096 * count ≤ 2 ^ 52)
    (size : word (first.toNat / 8) = BitVec.ofNat 64 count)
    (next : word (first.toNat / 8 + 1) = 0#64) :
    FreeList (ofWords word) first (blockFrames 4096 first.toNat count) := by
  have sizeEq : headerSize (ofWords word) first.toNat = count := by
    have here := readWord_ofWords word (first.toNat / 8)
    rw [show 8 * (first.toNat / 8) = first.toNat by omega, size] at here
    rw [headerSize, here, BitVec.toNat_ofNat]
    omega
  have nextEq : headerNext (ofWords word) first.toNat = 0 := by
    have here := readWord_ofWords word (first.toNat / 8 + 1)
    rw [show 8 * (first.toNat / 8 + 1) = first.toNat + 8 by omega, next]
      at here
    rw [headerNext, here]
    rfl
  have tail : Chain 4096 (2 ^ 52) (headerSize (ofWords word))
      (headerNext (ofWords word)) (headerNext (ofWords word) first.toNat)
      [] := by
    rw [nextEq]
    exact Chain.nil
  have chain := Chain.block nonzero aligned (by rw [sizeEq]; exact positive)
    (by rw [sizeEq]; exact fits) tail
  rw [sizeEq, List.append_nil] at chain
  exact chain

/-- No block header lies in a slot, not even one in the window's own page
table: the slots are its last entries. -/
theorem header_disjoint_slots (layout : Layout)
    (aligned : frame % 4096 = 0) :
    Disjoint (cells frame 16) (slotCells layout) := by
  by_cases same : frame = layout.windowPt
  · have bound := layout.windowSize_le
    refine cells_disjoint (Or.inl ?_)
    simp only [slotAddress, pageTableSize]
    omega
  · exact (frames_disjoint aligned layout.windowPt_aligned same
      (Nat.le_refl _) (by omega)).mono_right slotCells_subset_windowPt

theorem FreeList.afterLook {layout : Layout} {state : Mapper} {phys : Word}
    (free : FreeList state.mem first frames) :
    FreeList (physLook layout state phys).mem first frames :=
  free.of_agreeOff (agreeOff_physLook layout state phys) fun _ member =>
    header_disjoint_slots layout (free.bounds member).2.1

end FreeLists

/-! ## Lists up to an address -/

/-- An address in a chain that is taken to end at `last`. -/
def cut (last address : Nat) : Nat :=
  if address = last then 0 else if address = 0 then 1 else address

/-- The chain of free blocks from `first` spells `frames` and then comes to
`last`. -/
def FreeListTo (memory : Memory) (first : Word) (last : Nat)
    (frames : List Nat) : Prop :=
  Chain 4096 (2 ^ 52) (headerSize memory)
    (fun frame => cut last (headerNext memory frame)) (cut last first.toNat)
    frames

section FreeListsTo

variable {memory memory' : Memory} {first : Word} {last address : Nat}
  {frames : List Nat} {frame : Nat}

theorem cut_eq_zero_iff : cut last address = 0 ↔ address = last := by
  rw [cut]
  constructor
  · intro isZero
    by_cases same : address = last
    · exact same
    · rw [if_neg same] at isZero
      split at isZero <;> omega
  · exact fun same => if_pos same

theorem cut_of_ne (different : address ≠ last) (nonzero : address ≠ 0) :
    cut last address = address := by
  rw [cut, if_neg different, if_neg nonzero]

/-- The only aligned addresses that are not cut off are those of blocks. -/
theorem cut_of_aligned (nonzero : cut last address ≠ 0)
    (aligned : cut last address % 4096 = 0) : cut last address = address := by
  have different : address ≠ last := fun same =>
    nonzero (cut_eq_zero_iff.mpr same)
  rw [cut, if_neg different] at aligned ⊢
  split at aligned
  · omega
  · next nonzero => rw [if_neg nonzero]

/-- The whole chain ends at the null pointer. -/
theorem freeListTo_zero :
    FreeListTo memory first 0 frames ↔ FreeList memory first frames := by
  have same : ∀ address, cut 0 address = address := by
    intro address
    rw [cut]
    split <;> omega
  simp only [FreeListTo, FreeList, same]

theorem FreeListTo.nil (here : first.toNat = last) :
    FreeListTo memory first last [] := by
  rw [FreeListTo, cut_eq_zero_iff.mpr here]
  exact Chain.nil

theorem FreeListTo.ended (free : FreeListTo memory first last []) :
    first.toNat = last :=
  cut_eq_zero_iff.mp ((Chain.start_eq_zero_iff free).mpr rfl)

theorem FreeListTo.bounds (free : FreeListTo memory first last frames)
    (member : frame ∈ frames) :
    frame ≠ 0 ∧ frame % 4096 = 0 ∧ frame + 4096 ≤ 2 ^ 52 :=
  Chain.frame_bounds free frame member

theorem FreeListTo.first_eq
    (free : FreeListTo memory first last (frame :: frames)) :
    cut last first.toNat = frame ∧ first.toNat = frame := by
  have headEq : cut last first.toNat = frame := Chain.head_eq free
  have bounds := free.bounds List.mem_cons_self
  rw [← headEq] at bounds
  refine ⟨headEq, ?_⟩
  rw [← headEq]
  exact (cut_of_aligned bounds.1 bounds.2.1).symm

/-- A change that spares the headers of the free frames spares the list. -/
theorem FreeListTo.of_agreeOff {changed : Set Nat}
    (free : FreeListTo memory first last frames)
    (agree : AgreeOff changed memory' memory)
    (spared : ∀ frame ∈ frames, Disjoint (cells frame 16) changed) :
    FreeListTo memory' first last frames :=
  Chain.congr free
    (fun frame member => (header_eq agree (spared frame member)).1)
    (fun frame member =>
      congrArg (cut last) (header_eq agree (spared frame member)).2)

theorem FreeListTo.afterLook {layout : Layout} {state : Mapper} {phys : Word}
    (free : FreeListTo state.mem first last frames) :
    FreeListTo (physLook layout state phys).mem first last frames :=
  free.of_agreeOff (agreeOff_physLook layout state phys) fun _ member =>
    header_disjoint_slots layout (free.bounds member).2.1

/-- A list with a block in front of it. -/
theorem FreeListTo.block {page : Word}
    (free : FreeListTo memory (readWord memory (page.toNat + 8)) last frames)
    (positive : page.toNat ≠ 0) (aligned : page.toNat % 4096 = 0)
    (long : 0 < headerSize memory page.toNat)
    (bounded : page.toNat + 4096 * headerSize memory page.toNat ≤ 2 ^ 52)
    (notLast : page.toNat ≠ last) :
    FreeListTo memory page last
      (blockFrames 4096 page.toNat (headerSize memory page.toNat) ++
        frames) := by
  rw [FreeListTo, cut_of_ne notLast positive]
  exact Chain.block positive aligned long bounded free

theorem FreeListTo.second_frame
    (free : FreeListTo memory first last (frame :: frames))
    (several : headerSize memory frame ≠ 1) :
    ∃ rest, frames = (frame + 4096) :: rest := by
  have headEq := free.first_eq.1
  rw [← headEq] at several ⊢
  exact Chain.second_frame several free

end FreeListsTo

/-! ## Pushing -/

/-- Memory after a block header is written through the window. -/
def putHeader (memory : Memory) (frame : Nat) (size next : Word) : Memory :=
  writeWord (writeWord memory frame size) (frame + 8) next

section Headers

variable {memory : Memory} {frame : Nat} {size next : Word}

theorem readWord_putHeader_size :
    readWord (putHeader memory frame size next) frame = size := by
  rw [putHeader, readWord_writeWord_of_disjoint (by omega),
    readWord_writeWord_same]

theorem readWord_putHeader_next :
    readWord (putHeader memory frame size next) (frame + 8) = next := by
  rw [putHeader, readWord_writeWord_same]

theorem headerSize_putHeader :
    headerSize (putHeader memory frame size next) frame = size.toNat := by
  rw [headerSize, readWord_putHeader_size]

theorem headerNext_putHeader :
    headerNext (putHeader memory frame size next) frame = next.toNat := by
  rw [headerNext, readWord_putHeader_next]

theorem agreeOff_putHeader :
    AgreeOff (cells frame 16) (putHeader memory frame size next) memory := by
  refine ((agreeOff_writeWord _ (frame + 8) next).mono ?_).trans
    ((agreeOff_writeWord memory frame size).mono ?_)
  · exact cells_subset (by omega) (by omega)
  · exact cells_subset (by omega) (by omega)

/-- The header of the first block moves one frame up when its first frame is
taken. -/
theorem FreeListTo.moveHeader {first first' : Word} {last : Nat}
    {frames : List Nat}
    (free : FreeListTo memory first last (frame :: frames))
    (distinct : (frame :: frames).Nodup)
    (several : headerSize memory frame ≠ 1)
    (moved : first'.toNat = frame + 4096) (notLast : frame + 4096 ≠ last)
    (sizeEq : size.toNat = headerSize memory frame - 1)
    (nextEq : next.toNat = headerNext memory frame) :
    FreeListTo (putHeader memory first'.toNat size next) first' last
      frames := by
  have headEq := free.first_eq.1
  have kept : cut last (frame + 4096) = frame + 4096 :=
    cut_of_ne notLast (by omega)
  have spared : ∀ other ∈ frames, other ≠ frame + 4096 →
      Disjoint (cells other 16) (cells (frame + 4096) 16) := by
    intro other member different
    have otherBounds := free.bounds (List.mem_cons_of_mem _ member)
    have frameBounds := free.bounds List.mem_cons_self
    exact cells_disjoint (by omega)
  have popped :=
    Chain.pop_front (headerSize (putHeader memory (frame + 4096) size next))
      (fun frame' => cut last
        (headerNext (putHeader memory (frame + 4096) size next) frame'))
      (by rw [headEq]; exact several) free distinct
      (by rw [headEq, headerSize_putHeader, sizeEq])
      (by simp only [headEq, headerNext_putHeader, nextEq])
      (fun other member different =>
        (header_eq agreeOff_putHeader
          (spared other member (by rwa [headEq] at different))).1)
      (fun other member different => congrArg (cut last)
        (header_eq agreeOff_putHeader
          (spared other member (by rwa [headEq] at different))).2)
  rw [headEq] at popped
  rw [FreeListTo, moved, kept]
  exact popped

/-- A block whose header is written in front of a list. -/
theorem FreeListTo.push_block {first page : Word} {last : Nat}
    {frames : List Nat} (free : FreeListTo memory first last frames)
    (positive : page.toNat ≠ 0) (aligned : page.toNat % 4096 = 0)
    (long : 0 < size.toNat)
    (bounded : page.toNat + 4096 * size.toNat ≤ 2 ^ 52)
    (fresh : page.toNat ∉ frames) (notLast : page.toNat ≠ last) :
    FreeListTo (putHeader memory page.toNat size first) page last
      (blockFrames 4096 page.toNat size.toNat ++ frames) := by
  have spared : ∀ other ∈ frames,
      Disjoint (cells other 16) (cells page.toNat 16) := by
    intro other member
    have different : other ≠ page.toNat := fun equal =>
      fresh (equal ▸ member)
    have bounds := free.bounds member
    exact cells_disjoint (by omega)
  have sized : headerSize (putHeader memory page.toNat size first)
      page.toNat = size.toNat := headerSize_putHeader
  have kept : FreeListTo (putHeader memory page.toNat size first)
      (readWord (putHeader memory page.toNat size first) (page.toNat + 8)) last
      frames := by
    rw [readWord_putHeader_next]
    exact free.of_agreeOff agreeOff_putHeader spared
  rw [← sized]
  apply kept.block positive aligned
  · rw [sized]
    exact long
  · rw [sized]
    exact bounded
  · exact notLast

end Headers

theorem exists_ok_of_map {α β : Type} {result : Except Halt α} {f : α → β}
    {value : β} (mapped : result.map f = .ok value) :
    ∃ inner, result = .ok inner ∧ f inner = value := by
  cases result with
  | error halt => cases mapped
  | ok inner => exact ⟨inner, rfl, Except.ok.inj mapped⟩

section Push

variable {layout : Layout} {state : Mapper} {page length : Word}

theorem storeHeader_eq {size next : Word} (frame : IsFrame page)
    (base : state.windowBase = page) (pointer : state.physWindow = 0#64) :
    storeHeader layout state size next =
      .ok { state with mem := putHeader state.mem page.toNat size next } := by
  obtain ⟨mem, windowBase, physWindow, pml4, firstFreeBlock⟩ := state
  subst pointer
  have sizeStore :=
    store_eq layout 0#64 size base frame (by simp)
  have sizeStored :
      (Mapper.mk (writeWord mem page.toNat size) windowBase 0#64 pml4
        firstFreeBlock).windowBase = page := base
  have nextStore := store_eq layout 8#64 next sizeStored frame (by simp)
  simp only [BitVec.toNat_ofNat, Nat.zero_mod, Nat.add_zero] at sizeStore
  simp only [storeHeader, sizeStore, bind, Except.bind, BitVec.zero_add]
  exact nextStore

theorem storeHeader_physLook {size next : Word} (frame : IsFrame page) :
    storeHeader layout (physLook layout state page) size next =
      .ok { physLook layout state page with
        mem := putHeader (physLook layout state page).mem page.toNat size
          next } :=
  storeHeader_eq frame (physLook_windowBase layout state frame)
    (physLook_physWindow layout state frame)

private theorem store_firstFreeBlock {state' : Mapper}
    {pointer value : Word}
    (stored : store layout state pointer value = .ok state') :
    state'.firstFreeBlock = state.firstFreeBlock := by
  obtain ⟨_, _, rfl⟩ := exists_ok_of_map stored
  rfl

private theorem storeHeader_firstFreeBlock {state' : Mapper}
    {size next : Word}
    (stored : storeHeader layout state size next = .ok state') :
    state'.firstFreeBlock = state.firstFreeBlock := by
  simp only [storeHeader, bind, Except.bind] at stored
  split at stored
  · cases stored
  · next middle first =>
    rw [store_firstFreeBlock stored, store_firstFreeBlock first]

theorem storeHeader_physLook_ok {state' : Mapper} {size next : Word}
    (stored :
      storeHeader layout (physLook layout state page) size next =
        .ok state') :
    state'.firstFreeBlock = state.firstFreeBlock ∧
      (IsFrame page → readWord state'.mem (page.toNat + 8) = next) := by
  have kept := storeHeader_firstFreeBlock stored
  rw [physLook_firstFreeBlock] at kept
  refine ⟨kept, fun frame => ?_⟩
  rw [storeHeader_physLook frame] at stored
  cases stored
  exact readWord_putHeader_next

theorem addPhysMem_eq (frame : IsFrame page) :
    addPhysMem layout state page length =
      .ok { physLook layout state page with
        mem := putHeader (physLook layout state page).mem page.toNat
          (length / 4096#64) state.firstFreeBlock
        firstFreeBlock := page } := by
  simp only [addPhysMem, storeHeader_physLook frame, bind, Except.bind]
  rfl

theorem freePage_eq (frame : IsFrame page) :
    freePage layout state page =
      .ok { physLook layout state page with
        mem := putHeader (physLook layout state page).mem page.toNat
          1#64 state.firstFreeBlock
        firstFreeBlock := page } := by
  simp only [freePage, storeHeader_physLook frame, bind, Except.bind]
  rfl

/-- What `free_page` leaves, the window on the freed frame included. -/
structure Freed (layout : Layout) (state state' : Mapper) (page : Word)
    (frames : List Nat) : Prop where
  base : state'.windowBase = page
  free : FreeList state'.mem state'.firstFreeBlock (page.toNat :: frames)
  first : state'.firstFreeBlock = page
  headerSize : readWord state'.mem page.toNat = 1#64
  headerNext : readWord state'.mem (page.toNat + 8) = state.firstFreeBlock
  agree :
    AgreeOff (slotCells layout ∪ cells page.toNat 16) state'.mem state.mem
  pml4 : state'.pml4 = state.pml4

/-- `free_page` puts the frame in front of the free list. -/
theorem freePage_spec {frames : List Nat}
    (free : FreeList state.mem state.firstFreeBlock frames)
    (frame : IsFrame page) (nonzero : page ≠ 0#64)
    (fresh : page.toNat ∉ frames) :
    ∃ state', freePage layout state page = .ok state' ∧
      Freed layout state state' page frames := by
  obtain ⟨aligned, bounded⟩ := (isFrame_iff page).mp frame
  have positive : page.toNat ≠ 0 := fun zero =>
    nonzero (BitVec.eq_of_toNat_eq zero)
  have lookedFree :
      FreeList (physLook layout state page).mem state.firstFreeBlock frames :=
    free.afterLook
  have spared : ∀ other ∈ frames,
      Disjoint (cells other 16) (cells page.toNat 16) := by
    intro other member
    have different : other ≠ page.toNat := fun equal =>
      fresh (equal ▸ member)
    have bounds := free.bounds member
    exact cells_disjoint (by omega)
  have base := physLook_windowBase layout state frame
  have inside : page.toNat + 4096 ≤ 2 ^ 52 := by omega
  refine ⟨_, freePage_eq frame, base, ?_, rfl, ?_, ?_, ?_, rfl⟩
  · refine Chain.push lookedFree positive aligned inside
      headerSize_putHeader headerNext_putHeader ?_ ?_
    · exact fun other member =>
        (header_eq agreeOff_putHeader (spared other member)).1
    · exact fun other member =>
        (header_eq agreeOff_putHeader (spared other member)).2
  · exact readWord_putHeader_size
  · exact readWord_putHeader_next
  · exact (agreeOff_putHeader.mono Set.subset_union_right).trans
      ((agreeOff_physLook layout state page).mono
        Set.subset_union_left)

end Push

/-! ## Popping -/

section Pop

variable {layout : Layout} {state : Mapper}

private theorem load_header (layout : Layout) (state : Mapper)
    {page : Word} (pointer : Word) (frame : IsFrame page)
    (inside : pointer.toNat + 8 ≤ 4096) :
    load layout (physLook layout state page) (0#64 + pointer) =
      .ok (readWord (physLook layout state page).mem
        (page.toNat + pointer.toNat)) := by
  rw [BitVec.zero_add]
  exact load_eq _ (physLook_windowBase layout state frame) frame inside

theorem allocPage_empty (empty : state.firstFreeBlock = 0#64) :
    allocPage layout state = .error (.panic "no memory availible") := by
  simp only [allocPage, empty, if_true]
  rfl

/-- The common part of both ways to take a frame: the first header is read
through the window. -/
theorem allocPage_eq (nonempty : state.firstFreeBlock ≠ 0#64)
    (frame : IsFrame state.firstFreeBlock) :
    allocPage layout state =
      (let looked := physLook layout state state.firstFreeBlock
       let size := readWord looked.mem state.firstFreeBlock.toNat
       let next := readWord looked.mem (state.firstFreeBlock.toNat + 8)
       if size = 1#64 then
         .ok (state.firstFreeBlock, { looked with firstFreeBlock := next })
       else
         (storeHeader layout
           (physLook layout
             { looked with
               firstFreeBlock := state.firstFreeBlock + 4096#64 }
             (state.firstFreeBlock + 4096#64)) (size - 1#64) next).map
           fun moved => (state.firstFreeBlock, moved)) := by
  have pointer :=
    physLook_physWindow layout state frame
  have sizeLoad :=
    load_header layout state 0#64 frame (by simp)
  have nextLoad :=
    load_header layout state 8#64 frame (by simp)
  simp only [BitVec.add_zero, BitVec.toNat_ofNat, Nat.zero_mod,
    Nat.add_zero] at sizeLoad
  simp only [allocPage, nonempty, if_false, pointer, bind, Except.bind,
    sizeLoad, nextLoad]
  split
  · rfl
  · rfl

theorem allocPage_single (nonempty : state.firstFreeBlock ≠ 0#64)
    (frame : IsFrame state.firstFreeBlock)
    (single :
      readWord (physLook layout state state.firstFreeBlock).mem
        state.firstFreeBlock.toNat = 1#64) :
    allocPage layout state =
      .ok (state.firstFreeBlock,
        { physLook layout state state.firstFreeBlock with
          firstFreeBlock :=
            readWord (physLook layout state state.firstFreeBlock).mem
              (state.firstFreeBlock.toNat + 8) }) := by
  rw [allocPage_eq nonempty frame]
  simp only [single, if_true]

theorem allocPage_several (nonempty : state.firstFreeBlock ≠ 0#64)
    (frame : IsFrame state.firstFreeBlock)
    (above : IsFrame (state.firstFreeBlock + 4096#64))
    (several :
      readWord (physLook layout state state.firstFreeBlock).mem
        state.firstFreeBlock.toNat ≠ 1#64) :
    allocPage layout state =
      .ok (state.firstFreeBlock,
        { physLook layout
            { physLook layout state state.firstFreeBlock with
              firstFreeBlock := state.firstFreeBlock + 4096#64 }
            (state.firstFreeBlock + 4096#64) with
          mem := putHeader
            (physLook layout
              { physLook layout state state.firstFreeBlock with
                firstFreeBlock := state.firstFreeBlock + 4096#64 }
              (state.firstFreeBlock + 4096#64)).mem
            (state.firstFreeBlock + 4096#64).toNat
            (readWord (physLook layout state state.firstFreeBlock).mem
              state.firstFreeBlock.toNat - 1#64)
            (readWord (physLook layout state state.firstFreeBlock).mem
              (state.firstFreeBlock.toNat + 8)) }) := by
  rw [allocPage_eq nonempty frame]
  simp only [several, if_false]
  rw [storeHeader_physLook above]
  rfl

/-- What `alloc_page` does to `first_free_block`, whatever the memory holds. -/
inductive Popped (state : Mapper) : Mapper → Prop
  | last {state' : Mapper} :
      readWord state.mem state.firstFreeBlock.toNat = 1#64 →
      state'.firstFreeBlock =
        readWord state.mem (state.firstFreeBlock.toNat + 8) →
      Popped state state'
  | advanced {state' : Mapper} :
      readWord state.mem state.firstFreeBlock.toNat ≠ 1#64 →
      state'.firstFreeBlock = state.firstFreeBlock + 4096#64 →
      (IsFrame state'.firstFreeBlock →
        readWord state'.mem (state'.firstFreeBlock.toNat + 8) =
          readWord state.mem (state.firstFreeBlock.toNat + 8)) →
      Popped state state'

theorem readWord_header_physLook (layout : Layout) (state : Mapper)
    (phys : Word) {frame address : Nat} (aligned : frame % 4096 = 0)
    (word : address = frame ∨ address = frame + 8) :
    readWord (physLook layout state phys).mem address =
      readWord state.mem address := by
  have apart := header_disjoint_slots layout aligned
  have agree := agreeOff_physLook layout state phys
  refine agree.readWord_eq (apart.mono_left ?_)
  exact cells_subset (by omega) (by omega)

theorem allocPage_popped {state' : Mapper} {page : Word}
    (frame : IsFrame state.firstFreeBlock)
    (allocated : allocPage layout state = .ok (page, state')) :
    state.firstFreeBlock ≠ 0#64 ∧ page = state.firstFreeBlock ∧
      Popped state state' := by
  have nonempty : state.firstFreeBlock ≠ 0#64 := by
    intro empty
    rw [allocPage_empty empty] at allocated
    cases allocated
  have aligned := ((isFrame_iff _).mp frame).1
  have sizeEq :=
    readWord_header_physLook layout state state.firstFreeBlock aligned
      (Or.inl rfl)
  have nextEq :=
    readWord_header_physLook layout state state.firstFreeBlock aligned
      (Or.inr rfl)
  rw [allocPage_eq nonempty frame] at allocated
  simp only [sizeEq, nextEq] at allocated
  refine ⟨nonempty, ?_⟩
  split at allocated
  · next single =>
    cases allocated
    exact ⟨rfl, Popped.last single rfl⟩
  · next several =>
    obtain ⟨moved, stored, movedEq⟩ := exists_ok_of_map allocated
    cases movedEq
    obtain ⟨kept, linked⟩ := storeHeader_physLook_ok stored
    refine ⟨rfl, Popped.advanced several kept fun above => ?_⟩
    rw [kept] at above ⊢
    exact linked above

/-- Looking at the second frame of a block and storing the shortened header
there takes the first frame off the list. -/
private theorem FreeListTo.advance (layout : Layout) {frame last : Nat}
    {frames : List Nat} {first first' : Word}
    (free : FreeListTo state.mem first last (frame :: frames))
    (distinct : (frame :: frames).Nodup)
    (several : headerSize state.mem frame ≠ 1)
    (moved : first'.toNat = frame + 4096) (notLast : frame + 4096 ≠ last) :
    FreeListTo
      (putHeader
        (physLook layout { state with firstFreeBlock := first' } first').mem
        first'.toNat (readWord state.mem frame - 1#64)
        (readWord state.mem (frame + 8)))
      first' last frames := by
  have again :
      FreeListTo (physLook layout { state with firstFreeBlock := first' }
        first').mem first last (frame :: frames) :=
    free.of_agreeOff
      (agreeOff_physLook layout { state with firstFreeBlock := first' } first')
      fun _ member => header_disjoint_slots layout (free.bounds member).2.1
  have unmoved :=
    header_eq
      (agreeOff_physLook layout { state with firstFreeBlock := first' } first')
      (header_disjoint_slots layout (free.bounds List.mem_cons_self).2.1)
  have positive : 0 < headerSize state.mem frame := by
    rw [← free.first_eq.1]
    exact Chain.size_pos free (List.cons_ne_nil _ _)
  refine again.moveHeader distinct ?_ moved notLast ?_ ?_
  · rw [unmoved.1]
    exact several
  · rw [unmoved.1]
    have bound := (readWord state.mem frame).isLt
    simp only [headerSize] at *
    rw [BitVec.toNat_sub]
    simp only [BitVec.toNat_ofNat]
    omega
  · rw [unmoved.2]
    rfl

private theorem agreeOff_advance (layout : Layout) (state : Mapper)
    {frame : Nat} {frames : List Nat} {first' : Word} (size next : Word)
    (moved : first'.toNat = frame + 4096)
    (member : frame + 4096 ∈ frames) :
    AgreeOff (slotCells layout ∪ headerCells frames)
      (putHeader
        (physLook layout { state with firstFreeBlock := first' } first').mem
        first'.toNat size next)
      state.mem := by
  refine (agreeOff_putHeader.mono ?_).trans
    ((agreeOff_physLook layout { state with firstFreeBlock := first' }
      first').mono Set.subset_union_left)
  intro cell inside
  exact Or.inr ⟨frame + 4096, member, by rw [← moved]; exact inside⟩

/-- What taking the first free frame leaves. -/
structure Taken (layout : Layout) (state state' : Mapper)
    (frames : List Nat) : Prop where
  free : FreeList state'.mem state'.firstFreeBlock frames
  agree :
    AgreeOff (slotCells layout ∪ headerCells frames) state'.mem state.mem
  pml4 : state'.pml4 = state.pml4

/-- `alloc_page` takes the first frame, whatever comes behind `last`. -/
theorem allocPage_specTo {frame last : Nat} {frames : List Nat}
    (free : FreeListTo state.mem state.firstFreeBlock last (frame :: frames))
    (distinct : (frame :: frames).Nodup) (apart : last ∉ frames) :
    ∃ state', allocPage layout state = .ok (state.firstFreeBlock, state') ∧
      FreeListTo state'.mem state'.firstFreeBlock last frames ∧
      AgreeOff (slotCells layout ∪ headerCells frames) state'.mem state.mem ∧
      state'.pml4 = state.pml4 := by
  obtain ⟨cutEq, headEq⟩ := free.first_eq
  have firstBounds := free.bounds List.mem_cons_self
  have isFrame : IsFrame state.firstFreeBlock := by
    rw [isFrame_iff, headEq]
    omega
  have nonempty : state.firstFreeBlock ≠ 0#64 := by
    intro zero
    rw [zero] at headEq
    exact firstBounds.1 headEq.symm
  let looked := physLook layout state state.firstFreeBlock
  have lookedFree : FreeListTo looked.mem state.firstFreeBlock last
      (frame :: frames) := free.afterLook
  by_cases single :
      readWord looked.mem state.firstFreeBlock.toNat = 1#64
  · refine ⟨_, allocPage_single nonempty isFrame single, ?_, ?_, rfl⟩
    · have sizeEq : headerSize looked.mem (cut last state.firstFreeBlock.toNat) =
          1 := by
        rw [cutEq, ← headEq, headerSize, single]
        rfl
      have popped := Chain.pop_last sizeEq lookedFree
      rw [cutEq, ← headEq] at popped
      exact popped
    · exact (agreeOff_physLook layout state state.firstFreeBlock).mono
        Set.subset_union_left
  · -- the block has another frame, and the header moves there
    have several : headerSize looked.mem frame ≠ 1 := by
      intro one
      rw [← headEq] at one
      exact single (BitVec.eq_of_toNat_eq one)
    obtain ⟨rest, framesEq⟩ := lookedFree.second_frame several
    have second : frame + 4096 ∈ frames := by
      rw [framesEq]
      exact List.mem_cons_self
    have nextBounds := free.bounds (List.mem_cons_of_mem _ second)
    have nextToNat :
        (state.firstFreeBlock + 4096#64).toNat = frame + 4096 := by
      rw [BitVec.toNat_add, headEq]
      simp only [BitVec.toNat_ofNat]
      omega
    have above : IsFrame (state.firstFreeBlock + 4096#64) := by
      rw [isFrame_iff, nextToNat]
      omega
    refine ⟨_, allocPage_several nonempty isFrame above single, ?_, ?_, rfl⟩
    · have advanced :=
        lookedFree.advance layout distinct several nextToNat
          fun isLast => apart (isLast ▸ second)
      rw [← headEq] at advanced
      exact advanced
    · have again := agreeOff_advance layout looked
        (readWord looked.mem state.firstFreeBlock.toNat - 1#64)
        (readWord looked.mem (state.firstFreeBlock.toNat + 8)) nextToNat
        second
      exact again.trans ((agreeOff_physLook layout state
        state.firstFreeBlock).mono Set.subset_union_left)

/-- `alloc_page` takes the first frame of a non-empty free list. -/
theorem allocPage_spec {frame : Nat} {frames : List Nat}
    (free : FreeList state.mem state.firstFreeBlock (frame :: frames))
    (distinct : (frame :: frames).Nodup) :
    ∃ state', allocPage layout state = .ok (state.firstFreeBlock, state') ∧
      Taken layout state state' frames := by
  have apart : 0 ∉ frames := fun member =>
    (free.bounds (List.mem_cons_of_mem _ member)).1 rfl
  obtain ⟨state', allocated, free', agree, sameRoot⟩ :=
    allocPage_specTo (freeListTo_zero.mpr free) distinct apart
  exact ⟨state', allocated, freeListTo_zero.mp free', agree, sameRoot⟩

end Pop

end BeaverOS.FrameAllocator

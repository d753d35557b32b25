import BeaverOS.Memory.AddressSpace
import BeaverOS.Memory.HeapFrames

/-!
# The heap as memory

What `sbrk` is for. The program stores bytes between `_prog_break_begin` and the
break, through the page tables that `sbrk` sets up with the kernel's `map_page`.
As far as the tables for the heap exist, it finds an array of bytes that grows
and shrinks at its end, and disturbs nobody else.
-/

namespace BeaverOS.HeapMemory

open BeaverOS.ByteMemory
open BeaverOS.Transition
open BeaverOS.Paging
open BeaverOS.Window
open BeaverOS.FrameAllocator
open BeaverOS.PageTree
open BeaverOS.Mapper
open BeaverOS.MapperState
open BeaverOS.Calls
open BeaverOS.Ownership
open BeaverOS.Footprint
open BeaverOS.Linker
open BeaverOS.Sbrk
open BeaverOS.HeapFrames
open BeaverOS.AddressSpace
open BeaverOS.WideState

/-- What the program does with its heap, and what it gets back. -/
inductive Event where
  | sbrk (difference prevBreak : Word)
  | store (address : Word) (value : BitVec 8)
  | load (address : Word) (value : BitVec 8)
  deriving DecidableEq, Repr

/-! ## The code -/

/-- The address lies in the heap. -/
def InHeap (base : Word) (heap : Heap Mapper) (address : Word) : Prop :=
  base.toNat ≤ address.toNat ∧ address.toNat < heap.progBreak.toNat

/-- The physical byte of an address in a present and writable page. -/
def cellOf (memory : Mapper) (address : Word) : Option Nat :=
  (physicalAddress (translation memory.mem memory.pml4.toNat) address).bind
    fun target => if Has target.2 pageRwBit then some target.1 else none

/-- A store to a physical byte. -/
def putByte (heap : Heap Mapper) (cell : Nat) (value : BitVec 8) :
    Heap Mapper :=
  { heap with
    memory :=
      { heap.memory with
        mem := Function.update heap.memory.mem cell value } }

/-- A call of `sbrk` that returns and asks for no more than `limit`, and what
the program does to its heap. -/
inductive Step (layout : Layout) (base : Word) (limit fuel : Nat) :
    Heap Mapper → Event → Heap Mapper → Prop
  | sbrk {heap heap' : Heap Mapper} {difference prevBreak : Word} :
      target heap.progBreak difference ≤ limit →
      sbrk (mapPage layout) base fuel heap difference =
        .ok (prevBreak, heap') →
      Step layout base limit fuel heap (.sbrk difference prevBreak) heap'
  | store {heap : Heap Mapper} {address : Word} {value : BitVec 8}
      {cell : Nat} :
      InHeap base heap address →
      cellOf heap.memory address = some cell →
      Step layout base limit fuel heap (.store address value)
        (putByte heap cell value)
  | load {heap : Heap Mapper} {address : Word} {cell : Nat} :
      InHeap base heap address →
      cellOf heap.memory address = some cell →
      Step layout base limit fuel heap
        (.load address (heap.memory.mem cell)) heap

/-! ## What it is for -/

/-- An array of bytes from `base` on. Whole pages come and go at its end. -/
inductive ArrayStep (base : Word) :
    List (BitVec 8) → Event → List (BitVec 8) → Prop
  | sbrk {bytes bytes' : List (BitVec 8)} {difference prevBreak : Word} :
      prevBreak.toNat = base.toNat + bytes.length →
      (bytes'.length : Int) =
        (bytes.length + difference.toInt + 4095) / 4096 * 4096 →
      bytes <+: bytes' ∨ bytes' <+: bytes →
      ArrayStep base bytes (.sbrk difference prevBreak) bytes'
  | store {bytes : List (BitVec 8)} {address : Word} {value : BitVec 8} :
      base.toNat ≤ address.toNat →
      address.toNat < base.toNat + bytes.length →
      ArrayStep base bytes (.store address value)
        (bytes.set (address.toNat - base.toNat) value)
  | load {bytes : List (BitVec 8)} {address : Word} {value : BitVec 8} :
      base.toNat ≤ address.toNat →
      bytes[address.toNat - base.toNat]? = some value →
      ArrayStep base bytes (.load address value) bytes

/-- The page tables of the heap end somewhere before `_prog_break_end`. -/
structure IsHeapLimit (base : Word) (limit : Nat) : Prop where
  aligned : limit % 4096 = 0
  low : base.toNat ≤ limit
  high : limit ≤ progBreakEnd.toNat

/-- The heap before the first call, with page tables up to `limit`. -/
structure Ready (layout : Layout) (base : Word) (limit : Nat)
    (frames : List Nat) (heap : Heap Mapper) : Prop where
  owned : Owned layout heap.memory frames
  plain :
    ∀ page, IsPage page → ¬ InWindow layout page → ∀ entry,
      leafEntry heap.memory.mem heap.memory.pml4.toNat page = some entry →
        ¬ Has entry pageFBit
  progBreak : heap.progBreak = base
  absent :
    ∀ page : Word, page.toNat % 4096 = 0 → base.toNat ≤ page.toNat →
      page.toNat < limit →
        ∃ entry,
          leafEntry heap.memory.mem heap.memory.pml4.toNat page = some entry ∧
            ¬ Has entry pagePBit

/-- What the program and everybody else find after a run. -/
structure Serves (layout : Layout) (base : Word) (limit fuel : Nat)
    (start heap : Heap Mapper) (bytes : List (BitVec 8)) : Prop where
  length : heap.progBreak.toNat = base.toNat + bytes.length
  /-- A call inside the bounds returns if each new page has a free frame. -/
  returns :
    ∀ difference frames, InBounds base heap.progBreak difference →
      target heap.progBreak difference ≤ limit →
      FreeList heap.memory.mem heap.memory.firstFreeBlock frames →
      target heap.progBreak difference ≤
        heap.progBreak.toNat + 4096 * frames.length →
        ∃ heap', sbrk (mapPage layout) base fuel heap difference =
          .ok (heap.progBreak, heap')
  /-- Every byte of the heap can be reached, and is the one of the array. -/
  shows :
    ∀ address, InHeap base heap address →
      ∃ cell, cellOf heap.memory address = some cell ∧
        bytes[address.toNat - base.toNat]? = some (heap.memory.mem cell)
  /-- Pages outside of the heap stay where they are. -/
  others :
    ∀ page, IsPage page → ¬ InWindow layout page →
      page.toNat < base.toNat ∨ limit ≤ page.toNat →
        translation heap.memory.mem heap.memory.pml4.toNat page =
          translation start.memory.mem start.memory.pml4.toNat page
  /-- Frames that were in use keep their contents. -/
  kept :
    ∀ frame, Reserved start.memory frame →
      AgreeOn heap.memory.mem start.memory.mem frame 4096

/-! ## The invariant -/

/-- The leaf entry of a heap page. -/
def heapEntry (own : Word) : Word := (heapFlags &&& ptFlagsMask) ||| own

/-- Page `n` of the heap has the frame `own n`, which nobody else has, and the
array in it. -/
structure Backed (layout : Layout) (base : Word) (limit : Nat)
    (start : Mapper) (space : Space) (own : Nat → Word)
    (bytes : List (BitVec 8)) (heap : Heap Mapper) : Prop where
  represents : Represents layout heap.memory space heap.memory
  length : heap.progBreak.toNat = base.toNat + bytes.length
  whole : bytes.length % 4096 = 0
  below : base.toNat + bytes.length ≤ limit
  leaf :
    ∀ n, 4096 * n < bytes.length →
      space.leaf (heapPage base n) = some (heapEntry (own n))
  isFrame : ∀ n, 4096 * n < bytes.length → IsFrame (own n)
  reserved :
    ∀ n, 4096 * n < bytes.length → Reserved heap.memory (own n).toNat
  apart :
    ∀ m n, 4096 * m < bytes.length → 4096 * n < bytes.length →
      own m = own n → m = n
  shows :
    ∀ n offset, 4096 * n < bytes.length → offset < 4096 →
      bytes[4096 * n + offset]? =
        some (heap.memory.mem ((own n).toNat + offset))
  absent :
    ∀ page : Word, page.toNat % 4096 = 0 →
      base.toNat + bytes.length ≤ page.toNat → page.toNat < limit →
        ∃ entry, space.leaf page = some entry ∧ ¬ Has entry pagePBit
  elsewhere :
    ∀ page, IsPage page → ¬ InWindow layout page →
      page.toNat < base.toNat ∨ limit ≤ page.toNat →
        space.leaf page = leafEntry start.mem start.pml4.toNat page
  spares :
    ∀ frame, Reserved start frame →
      Reserved heap.memory frame ∧
        AgreeOn heap.memory.mem start.mem frame 4096 ∧
        ∀ n, 4096 * n < bytes.length → (own n).toNat ≠ frame

section Invariant

variable {layout : Layout} {base address : Word} {limit fuel : Nat}
  {start : Mapper} {space : Space} {own : Nat → Word}
  {bytes : List (BitVec 8)} {heap heap' : Heap Mapper} {frames : List Nat}
  {value : BitVec 8} {n m offset cell : Nat} {call : PageCall}
  {memory : Mapper}

/-- The address space outside of the window. -/
def pageSpace (layout : Layout) (state : Mapper) (frames : List Nat) : Space :=
  ⟨fun page =>
    if IsPage page ∧ ¬ InWindow layout page then
      leafEntry state.mem state.pml4.toNat page
    else none, frames⟩

theorem Ready.represents (ready : Ready layout base limit frames heap) :
    Represents layout heap.memory (pageSpace layout heap.memory frames)
      heap.memory := by
  refine ⟨ready.owned, ?_, ?_, rfl, fun _ => Iff.rfl, ?_,
    fun _ _ _ _ _ => rfl⟩
  · exact fun page isPage outside => (if_pos ⟨isPage, outside⟩).symm
  · intro page entry found
    rw [pageSpace] at found
    simp only at found
    split at found
    · next inside => exact ready.plain page inside.1 inside.2 entry found
    · cases found
  · intro frame member
    rw [freeFrames_eq ready.owned.wellFormed.free]
    exact member

theorem Ready.backed (begin : IsProgBreakBegin base)
    (linked : layout.windowSize = physWindowSize.toNat)
    (isLimit : IsHeapLimit base limit)
    (ready : Ready layout base limit frames heap) :
    Backed layout base limit heap.memory
      (pageSpace layout heap.memory frames) (fun _ => 0#64) [] heap where
  represents := ready.represents
  length := by
    rw [ready.progBreak]
    rfl
  whole := rfl
  below := isLimit.low
  leaf := fun n inside => absurd inside (Nat.not_lt_zero _)
  isFrame := fun n inside => absurd inside (Nat.not_lt_zero _)
  reserved := fun n inside => absurd inside (Nat.not_lt_zero _)
  apart := fun m n inside => absurd inside (Nat.not_lt_zero _)
  shows := fun n offset inside => absurd inside (Nat.not_lt_zero _)
  absent := by
    intro page aligned above below
    have isHeapPage : IsHeapPage base page :=
      ⟨aligned, above, lt_of_lt_of_le below isLimit.high⟩
    obtain ⟨entry, found, absent⟩ := ready.absent page aligned above below
    exact ⟨entry, (if_pos ⟨isPage_of_isHeapPage begin isHeapPage,
      outside_of_isHeapPage linked begin isHeapPage⟩).trans found, absent⟩
  elsewhere := fun page isPage outside _ => if_pos ⟨isPage, outside⟩
  spares := fun frame reserved =>
    ⟨reserved, fun _ _ _ => rfl, fun n inside =>
      absurd inside (Nat.not_lt_zero _)⟩

/-! ## Pages and bytes of the heap -/

theorem toNat_heapPage
    (inside : base.toNat + 4096 * n < progBreakEnd.toNat) :
    (heapPage base n).toNat = base.toNat + 4096 * n := by
  have room := progBreakEnd.isLt
  rw [heapPage, BitVec.toNat_add, BitVec.toNat_ofNat]
  omega

/-- A heap page is one that `map_page` may be asked for. -/
theorem isHeapPage_heapPage (begin : IsProgBreakBegin base)
    (inside : base.toNat + 4096 * n < progBreakEnd.toNat) :
    IsHeapPage base (heapPage base n) := by
  have aligned := begin.aligned
  have page := toNat_heapPage inside
  exact ⟨by omega, by omega, by omega⟩

/-- The page and the offset of an address in the heap. -/
theorem Backed.exists_heapPage (begin : IsProgBreakBegin base)
    (isLimit : IsHeapLimit base limit)
    (backed : Backed layout base limit start space own bytes heap)
    (inHeap : InHeap base heap address) :
    ∃ n offset, 4096 * n < bytes.length ∧ offset < 4096 ∧
      address.toNat - base.toNat = 4096 * n + offset ∧
      address = heapPage base n + BitVec.ofNat 64 offset := by
  obtain ⟨above, inside⟩ := inHeap
  rw [backed.length] at inside
  have below := backed.below
  have high := isLimit.high
  have aligned := begin.aligned
  refine ⟨(address.toNat - base.toNat) / 4096,
    (address.toNat - base.toNat) % 4096, by omega, by omega, by omega, ?_⟩
  have page := @toNat_heapPage base ((address.toNat - base.toNat) / 4096)
    (by omega)
  apply BitVec.eq_of_toNat_eq
  rw [toNat_page_add (by omega) (by omega), page]
  omega

/-- An access to the heap ends up in the frame of its page. -/
theorem Backed.cellOf_eq (begin : IsProgBreakBegin base)
    (linked : layout.windowSize = physWindowSize.toNat)
    (isLimit : IsHeapLimit base limit)
    (backed : Backed layout base limit start space own bytes heap)
    (inside : 4096 * n < bytes.length) (offsetInside : offset < 4096) :
    cellOf heap.memory (heapPage base n + BitVec.ofNat 64 offset) =
      some ((own n).toNat + offset) := by
  have below := backed.below
  have high := isLimit.high
  have isHeapPage := @isHeapPage_heapPage base n begin (by omega)
  have isPage := isPage_of_isHeapPage begin isHeapPage
  have outside := outside_of_isHeapPage linked begin isHeapPage
  have present : Has (heapEntry (own n)) pagePBit :=
    has_or.mpr (Or.inl (by decide))
  have writable : Has (heapEntry (own n) &&& ptFlagsMask) pageRwBit :=
    (has_and_of_subset (by decide)).mpr (has_or.mpr (Or.inl (by decide)))
  rw [cellOf, physicalAddress_page_add isHeapPage.1 offsetInside,
    backed.represents.translation_eq isPage outside, backed.leaf n inside,
    Option.bind_some, if_pos present, Option.map_some, Option.bind_some,
    if_pos writable, heapEntry, frameOf_flags_or (by decide)
      (backed.isFrame n inside)]

/-- The physical byte that an access reaches. -/
theorem Backed.cellOf_some (begin : IsProgBreakBegin base)
    (linked : layout.windowSize = physWindowSize.toNat)
    (isLimit : IsHeapLimit base limit)
    (backed : Backed layout base limit start space own bytes heap)
    (inHeap : InHeap base heap address) :
    ∃ n offset, 4096 * n < bytes.length ∧ offset < 4096 ∧
      address.toNat - base.toNat = 4096 * n + offset ∧
      cellOf heap.memory address = some ((own n).toNat + offset) := by
  obtain ⟨n, offset, inside, offsetInside, position, rfl⟩ :=
    backed.exists_heapPage begin isLimit inHeap
  exact ⟨n, offset, inside, offsetInside, position,
    backed.cellOf_eq begin linked isLimit inside offsetInside⟩

/-! ## One page more, one page less -/

/-- A call for a page of the heap leaves the pages and frames of others as they
are. -/
theorem Backed.others
    (backed : Backed layout base limit start space own bytes heap)
    (served : Represents layout heap.memory (space.serve call) memory)
    (above : base.toNat ≤ call.virt.toNat) (below : call.virt.toNat < limit) :
    (∀ page, IsPage page → ¬ InWindow layout page →
      page.toNat < base.toNat ∨ limit ≤ page.toNat →
        (space.serve call).leaf page =
          leafEntry start.mem start.pml4.toNat page) ∧
    ∀ frame, Reserved start frame →
      Reserved memory frame ∧ AgreeOn memory.mem start.mem frame 4096 := by
  constructor
  · intro page isPage outside apart
    rw [Space.serve_elsewhere]
    · exact backed.elsewhere page isPage outside apart
    · rintro rfl
      omega
  · intro frame reserved
    obtain ⟨reservedHere, kept, _⟩ := backed.spares frame reserved
    obtain ⟨still, same⟩ := served.spares frame reservedHere
    exact ⟨still, AgreeOn.trans (same (Set.notMem_empty _)) kept⟩

/-- The other pages of the heap keep their frames and bytes. -/
theorem Backed.page_kept (isLimit : IsHeapLimit base limit)
    (backed : Backed layout base limit start space own bytes heap)
    (served : Represents layout heap.memory (space.serve call) memory)
    (inside : 4096 * n < bytes.length)
    (apart : base.toNat + 4096 * n ≠ call.virt.toNat) :
    (space.serve call).leaf (heapPage base n) = some (heapEntry (own n)) ∧
      Reserved memory (own n).toNat ∧
      ∀ offset, offset < 4096 →
        bytes[4096 * n + offset]? =
          some (memory.mem ((own n).toNat + offset)) := by
  have below := backed.below
  have high := isLimit.high
  obtain ⟨reserved, kept⟩ := served.spares _ (backed.reserved n inside)
  refine ⟨?_, reserved, ?_⟩
  · rw [Space.serve_elsewhere]
    · exact backed.leaf n inside
    · intro same
      have value := @toNat_heapPage base n (by omega)
      rw [same] at value
      exact apart value.symm
  · intro offset offsetInside
    rw [backed.shows n offset inside offsetInside,
      kept (Set.notMem_empty _) _ (Nat.le_add_right _ _) (by omega)]

/-- The call that `sbrk` makes for a new page. -/
def growCall (page : Word) : PageCall := ⟨page, mapAnon, heapFlags⟩

/-- The call that `sbrk` makes to drop a page. -/
def shrinkCall (page : Word) : PageCall := ⟨page, 0#64, 0#64⟩

theorem growCall_anonymous (page : Word) : (growCall page).anonymous :=
  decide_eq_true
    (by decide : Has heapFlags pagePBit ∧ mapAnon = mapAnon)

theorem shrinkCall_not_anonymous (page : Word) :
    ¬ (shrinkCall page).anonymous := by
  rw [PageCall.anonymous, decide_eq_true_iff]
  exact (by decide : ¬ (Has 0#64 pagePBit ∧ 0#64 = mapAnon))

/-- The bytes of a frame. -/
def frameBytes (memory : Memory) (frame : Nat) : List (BitVec 8) :=
  (List.range 4096).map fun offset => memory (frame + offset)

theorem length_frameBytes {memory : Memory} {frame : Nat} :
    (frameBytes memory frame).length = 4096 := by
  rw [frameBytes, List.length_map, List.length_range]

theorem getElem?_frameBytes {memory : Memory} {frame : Nat}
    (inside : offset < 4096) :
    (frameBytes memory frame)[offset]? = some (memory (frame + offset)) := by
  rw [frameBytes, List.getElem?_map, List.getElem?_range inside,
    Option.map_some]

/-- The break is the address of the page after the last one. -/
theorem Backed.progBreak_eq (isLimit : IsHeapLimit base limit)
    (backed : Backed layout base limit start space own bytes heap)
    (room : base.toNat + bytes.length < limit) :
    heap.progBreak = heapPage base (bytes.length / 4096) := by
  have whole := backed.whole
  have high := isLimit.high
  have page := @toNat_heapPage base (bytes.length / 4096) (by omega)
  apply BitVec.eq_of_toNat_eq
  rw [backed.length, page]
  omega

/-- `map_page` may be asked for the page at the break. -/
theorem Backed.fitting_growCall (begin : IsProgBreakBegin base)
    (linked : layout.windowSize = physWindowSize.toNat)
    (isLimit : IsHeapLimit base limit)
    (backed : Backed layout base limit start space own bytes heap)
    (room : base.toNat + bytes.length < limit) :
    Fitting layout space (growCall heap.progBreak) := by
  have whole := backed.whole
  have high := isLimit.high
  have length := backed.length
  have aligned := begin.aligned
  have isHeapPage : IsHeapPage base heap.progBreak :=
    ⟨by omega, by omega, by omega⟩
  obtain ⟨entry, found, absent⟩ := backed.absent heap.progBreak isHeapPage.1
    (by omega) (by omega)
  refine ⟨isPage_of_isHeapPage begin isHeapPage,
    outside_of_isHeapPage linked begin isHeapPage, isFrame_zero,
    (by decide : ¬ Has heapFlags pageFBit), ?_, ?_, ?_⟩
  · exact Option.isSome_iff_exists.mpr ⟨entry, found⟩
  · intro _ other foundOther
    cases found.symm.trans foundOther
    exact absent
  · exact fun explicit => absurd rfl explicit

/-- What a call for a new page leaves. -/
theorem Backed.mapped (begin : IsProgBreakBegin base)
    (linked : layout.windowSize = physWindowSize.toNat)
    (isLimit : IsHeapLimit base limit)
    (backed : Backed layout base limit start space own bytes heap)
    (room : base.toNat + bytes.length < limit)
    (mapped : mapPage layout heap.memory heap.progBreak mapAnon heapFlags =
      .ok memory) :
    ∃ frame : Word,
      frame.toNat ∈ space.free ∧ IsFrame frame ∧
      Represents layout heap.memory
        (space.serve (growCall heap.progBreak)) memory ∧
      (space.serve (growCall heap.progBreak)).leaf heap.progBreak =
        some (heapEntry frame) ∧
      Reserved memory frame.toNat := by
  have fitting := backed.fitting_growCall begin linked isLimit room
  have leaf := backed.represents.leaves _ fitting.page fitting.outside
  obtain ⟨entry, found⟩ := Option.isSome_iff_exists.mp fitting.table
  obtain ⟨rest, free, _⟩ := mapPage_allocates
    backed.represents.owned.wellFormed fitting.page fitting.outside
    (leaf.trans found) (fitting.absent (growCall_anonymous _) entry found)
    (by decide) mapped
  obtain ⟨state', mapped', represents, leaf', _, isFrame, reserved⟩ :=
    backed.represents.serve_own fitting (growCall_anonymous _) free
  cases mapped.symm.trans mapped'
  exact ⟨_, free ▸ List.mem_cons_self, isFrame, represents, leaf', reserved⟩

/-- The heap grows by a page, with the bytes that its frame happens to
hold. -/
theorem Backed.grow (begin : IsProgBreakBegin base)
    (linked : layout.windowSize = physWindowSize.toNat)
    (isLimit : IsHeapLimit base limit)
    (backed : Backed layout base limit start space own bytes heap)
    (room : base.toNat + bytes.length < limit)
    (mapped : mapPage layout heap.memory heap.progBreak mapAnon heapFlags =
      .ok memory) :
    ∃ own' bytes',
      Backed layout base limit start (space.serve (growCall heap.progBreak))
          own' bytes'
          { progBreak := heap.progBreak + 4096#64, memory := memory } ∧
        bytes <+: bytes' := by
  obtain ⟨frame, isFree, isFrame, represents, leaf, reserved⟩ :=
    backed.mapped begin linked isLimit room mapped
  have whole := backed.whole
  have length := backed.length
  have high := isLimit.high
  have limitAligned := isLimit.aligned
  have aligned := begin.aligned
  have page := backed.progBreak_eq isLimit room
  obtain ⟨elsewhere, others⟩ := backed.others represents
    (show base.toNat ≤ heap.progBreak.toNat by omega)
    (show heap.progBreak.toNat < limit by omega)
  have kept := fun n (inside : 4096 * n < bytes.length) =>
    backed.page_kept isLimit represents (n := n) inside
      (show _ ≠ heap.progBreak.toNat by omega)
  have free := backed.represents.owned.wellFormed.free
  have next : (heap.progBreak + 4096#64).toNat =
      heap.progBreak.toNat + 4096 := by
    rw [toNat_progBreakEnd] at high
    exact toNat_add_page (by omega)
  generalize countEq : bytes.length / 4096 = count at page
  have newLength :
      (bytes ++ frameBytes memory.mem frame.toNat).length =
        bytes.length + 4096 := by
    rw [List.length_append, length_frameBytes]
  have split : ∀ n, 4096 * n < bytes.length + 4096 →
      4096 * n < bytes.length ∨ n = count := fun n inside => by omega
  have notFree : ∀ n, 4096 * n < bytes.length → own n ≠ frame := by
    rintro n inside rfl
    exact (backed.reserved n inside).not_mem free isFree
  have ownOld : ∀ n, 4096 * n < bytes.length →
      Function.update own count frame n = own n := fun n inside =>
    Function.update_of_ne (by omega) _ _
  have ownNew : Function.update own count frame count = frame :=
    Function.update_self _ _ _
  refine ⟨Function.update own count frame,
    bytes ++ frameBytes memory.mem frame.toNat, ?_, List.prefix_append _ _⟩
  constructor
  case represents => exact represents.restart
  case length =>
    rw [newLength, next, length]
    omega
  case whole =>
    rw [newLength]
    omega
  case below =>
    rw [newLength]
    omega
  case leaf =>
    intro n inside
    rw [newLength] at inside
    rcases split n inside with old | rfl
    · rw [ownOld n old]
      exact (kept n old).1
    · rw [ownNew, ← page]
      exact leaf
  case isFrame =>
    intro n inside
    rw [newLength] at inside
    rcases split n inside with old | rfl
    · rw [ownOld n old]
      exact backed.isFrame n old
    · rw [ownNew]
      exact isFrame
  case reserved =>
    intro n inside
    rw [newLength] at inside
    rcases split n inside with old | rfl
    · rw [ownOld n old]
      exact (kept n old).2.1
    · rw [ownNew]
      exact reserved
  case apart =>
    intro m n insideM insideN same
    rw [newLength] at insideM insideN
    rcases split m insideM with oldM | rfl
    · rcases split n insideN with oldN | rfl
      · rw [ownOld m oldM, ownOld n oldN] at same
        exact backed.apart m n oldM oldN same
      · rw [ownOld m oldM, ownNew] at same
        exact absurd same (notFree m oldM)
    · rcases split n insideN with oldN | rfl
      · rw [ownNew, ownOld n oldN] at same
        exact absurd same.symm (notFree n oldN)
      · rfl
  case shows =>
    intro n offset inside offsetInside
    rw [newLength] at inside
    rcases split n inside with old | rfl
    · rw [ownOld n old, List.getElem?_append_left (by omega)]
      exact (kept n old).2.2 offset offsetInside
    · rw [ownNew, List.getElem?_append_right (by omega),
        show 4096 * n + offset - bytes.length = offset by omega]
      exact getElem?_frameBytes offsetInside
  case absent =>
    intro other otherAligned above below
    rw [newLength] at above
    rw [Space.serve_elsewhere]
    · exact backed.absent other otherAligned (by omega) below
    · rintro rfl
      change _ ≤ heap.progBreak.toNat at above
      omega
  case elsewhere => exact elsewhere
  case spares =>
    intro other reservedStart
    obtain ⟨reservedOther, _, apart⟩ := backed.spares other reservedStart
    obtain ⟨still, kept⟩ := others other reservedStart
    refine ⟨still, kept, ?_⟩
    intro n inside
    rw [newLength] at inside
    rcases split n inside with old | rfl
    · rw [ownOld n old]
      exact apart n old
    · rw [ownNew]
      rintro rfl
      exact reservedOther.not_mem free isFree

/-- `map_page` may be asked to drop the last page. -/
theorem Backed.fitting_shrinkCall (begin : IsProgBreakBegin base)
    (linked : layout.windowSize = physWindowSize.toNat)
    (isLimit : IsHeapLimit base limit)
    (backed : Backed layout base limit start space own bytes heap)
    (more : 0 < bytes.length) :
    Fitting layout space (shrinkCall (heap.progBreak - 4096#64)) ∧
      space.leaf (heap.progBreak - 4096#64) =
        some (heapEntry (own (bytes.length / 4096 - 1))) := by
  have whole := backed.whole
  have length := backed.length
  have belowLimit := backed.below
  have high := isLimit.high
  have aligned := begin.aligned
  have next : (heap.progBreak - 4096#64).toNat =
      heap.progBreak.toNat - 4096 := toNat_sub_page (by omega)
  generalize heap.progBreak - 4096#64 = page at next ⊢
  have isHeapPage : IsHeapPage base page := ⟨by omega, by omega, by omega⟩
  have last : page = heapPage base (bytes.length / 4096 - 1) := by
    apply BitVec.eq_of_toNat_eq
    rw [toNat_heapPage (by omega)]
    omega
  have found := backed.leaf (bytes.length / 4096 - 1) (by omega)
  rw [← last] at found
  refine ⟨⟨isPage_of_isHeapPage begin isHeapPage,
    outside_of_isHeapPage linked begin isHeapPage, isFrame_zero,
    (by decide : ¬ Has 0#64 pageFBit), ?_, ?_, ?_⟩, found⟩
  · exact Option.isSome_iff_exists.mpr ⟨_, found⟩
  · exact fun anonymous => absurd anonymous (shrinkCall_not_anonymous page)
  · exact fun explicit => absurd rfl explicit

/-- The heap loses its last page. -/
theorem Backed.shrink (begin : IsProgBreakBegin base)
    (linked : layout.windowSize = physWindowSize.toNat)
    (isLimit : IsHeapLimit base limit)
    (backed : Backed layout base limit start space own bytes heap)
    (more : 0 < bytes.length) :
    ∃ memory bytes',
      mapPage layout heap.memory (heap.progBreak - 4096#64) 0#64 0#64 =
          .ok memory ∧
        Backed layout base limit start
          (space.serve (shrinkCall (heap.progBreak - 4096#64))) own bytes'
          { progBreak := heap.progBreak - 4096#64, memory := memory } ∧
        bytes' <+: bytes := by
  have whole := backed.whole
  have length := backed.length
  have belowLimit := backed.below
  have high := isLimit.high
  have aligned := begin.aligned
  have next : (heap.progBreak - 4096#64).toNat =
      heap.progBreak.toNat - 4096 := toNat_sub_page (by omega)
  obtain ⟨fitting, found⟩ :=
    backed.fitting_shrinkCall begin linked isLimit more
  generalize heap.progBreak - 4096#64 = page at next fitting found ⊢
  obtain ⟨memory, mapped, represents⟩ := backed.represents.restart.serve
    fitting fun anonymous => absurd anonymous (shrinkCall_not_anonymous page)
  obtain ⟨elsewhere, others⟩ := backed.others represents
    (show base.toNat ≤ page.toNat by omega) (show page.toNat < limit by omega)
  have kept := fun n (inside : 4096 * n < bytes.length - 4096) =>
    backed.page_kept isLimit represents (n := n) (by omega)
      (show _ ≠ page.toNat by omega)
  have newLength : (bytes.take (bytes.length - 4096)).length =
      bytes.length - 4096 := List.length_take_of_le (Nat.sub_le _ _)
  refine ⟨memory, bytes.take (bytes.length - 4096), mapped, ?_,
    List.take_prefix _ _⟩
  constructor
  case represents => exact represents.restart
  case length =>
    rw [newLength, next]
    omega
  case whole =>
    rw [newLength]
    omega
  case below =>
    rw [newLength]
    omega
  case leaf =>
    intro n inside
    rw [newLength] at inside
    exact (kept n (by omega)).1
  case isFrame =>
    intro n inside
    rw [newLength] at inside
    exact backed.isFrame n (by omega)
  case reserved =>
    intro n inside
    rw [newLength] at inside
    exact (kept n (by omega)).2.1
  case apart =>
    intro m n insideM insideN
    rw [newLength] at insideM insideN
    exact backed.apart m n (by omega) (by omega)
  case shows =>
    intro n offset inside offsetInside
    rw [newLength] at inside
    rw [List.getElem?_take_of_lt (by omega)]
    exact (kept n (by omega)).2.2 offset offsetInside
  case absent =>
    intro other otherAligned above below
    rw [newLength] at above
    by_cases here : other = page
    · rw [here]
      refine ⟨heapEntry (own (bytes.length / 4096 - 1)) &&& ~~~pagePBit, ?_,
        not_has_and_of_disjoint (by decide)⟩
      refine (Space.serve_named (shrinkCall_not_anonymous page)).trans ?_
      refine (if_neg (by decide : ¬ Has 0#64 pagePBit)).trans ?_
      change (space.leaf page).map _ = _
      rw [found, Option.map_some]
    · have different : other.toNat ≠ page.toNat :=
        fun equal => here (BitVec.eq_of_toNat_eq equal)
      rw [Space.serve_elsewhere here]
      exact backed.absent other otherAligned (by omega) below
  case elsewhere => exact elsewhere
  case spares =>
    intro other reservedStart
    obtain ⟨_, _, apart⟩ := backed.spares other reservedStart
    obtain ⟨still, kept⟩ := others other reservedStart
    refine ⟨still, kept, ?_⟩
    intro n inside
    rw [newLength] at inside
    exact apart n (by omega)

/-! ## Stores, loads and calls -/

/-- A store to the heap changes the byte of the array, and no other byte. -/
theorem Backed.store (begin : IsProgBreakBegin base)
    (linked : layout.windowSize = physWindowSize.toNat)
    (isLimit : IsHeapLimit base limit)
    (backed : Backed layout base limit start space own bytes heap)
    (inHeap : InHeap base heap address)
    (reached : cellOf heap.memory address = some cell) :
    Backed layout base limit start space own
      (bytes.set (address.toNat - base.toNat) value)
      (putByte heap cell value) := by
  obtain ⟨n, offset, inside, offsetInside, position, found⟩ :=
    backed.cellOf_some begin linked isLimit inHeap
  cases found.symm.trans reached
  have reserved := backed.reserved n inside
  have agree : AgreeOff (cells (own n).toNat 4096)
      (Function.update heap.memory.mem ((own n).toNat + offset) value)
      heap.memory.mem := by
    intro other off
    refine Function.update_of_ne ?_ _ _
    rintro rfl
    exact off ⟨Nat.le_add_right _ _, by omega⟩
  obtain ⟨represents, spares⟩ := backed.represents.stored reserved agree
  have sameLength : ∀ index, (bytes.set index value).length = bytes.length :=
    fun index => List.length_set
  rw [position]
  constructor
  case represents => exact represents
  case length =>
    rw [sameLength]
    exact backed.length
  case whole =>
    rw [sameLength]
    exact backed.whole
  case below =>
    rw [sameLength]
    exact backed.below
  case leaf =>
    rw [sameLength]
    exact backed.leaf
  case isFrame =>
    rw [sameLength]
    exact backed.isFrame
  case reserved =>
    rw [sameLength]
    exact fun m insideM => (spares _ (backed.reserved m insideM)).1
  case apart =>
    rw [sameLength]
    exact backed.apart
  case shows =>
    intro m other insideM otherInside
    rw [sameLength] at insideM
    have alignedM := (backed.reserved m insideM).aligned
    have alignedN := reserved.aligned
    by_cases same : 4096 * n + offset = 4096 * m + other
    · have whole := backed.whole
      have sameM : m = n := by omega
      have sameOther : other = offset := by omega
      subst sameM sameOther
      rw [List.getElem?_set_self (by omega)]
      change some value = some (Function.update heap.memory.mem _ value _)
      rw [Function.update_self]
    · rw [List.getElem?_set_ne same, backed.shows m other insideM otherInside]
      refine congrArg some (Function.update_of_ne ?_ _ _).symm
      intro equal
      have sameFrame : own m = own n := BitVec.eq_of_toNat_eq (by omega)
      have sameM := backed.apart m n insideM inside sameFrame
      rw [sameFrame] at equal
      omega
  case absent =>
    rw [sameLength]
    exact backed.absent
  case elsewhere => exact backed.elsewhere
  case spares =>
    intro other reservedStart
    obtain ⟨reservedOther, kept, apart⟩ := backed.spares other reservedStart
    obtain ⟨still, same⟩ := spares other reservedOther
    rw [sameLength]
    exact ⟨still, AgreeOn.trans (same fun equal => apart n inside equal.symm)
      kept, apart⟩

/-- What a load from the heap gives. -/
theorem Backed.load (begin : IsProgBreakBegin base)
    (linked : layout.windowSize = physWindowSize.toNat)
    (isLimit : IsHeapLimit base limit)
    (backed : Backed layout base limit start space own bytes heap)
    (inHeap : InHeap base heap address) :
    ∃ cell, cellOf heap.memory address = some cell ∧
      bytes[address.toNat - base.toNat]? = some (heap.memory.mem cell) := by
  obtain ⟨n, offset, inside, offsetInside, position, found⟩ :=
    backed.cellOf_some begin linked isLimit inHeap
  rw [position]
  exact ⟨_, found, backed.shows n offset inside offsetInside⟩

/-- The loops move the end of the array to the new break, unless the frames do
not suffice. -/
theorem Backed.reaches {difference : Word} (begin : IsProgBreakBegin base)
    (linked : layout.windowSize = physWindowSize.toNat)
    (isLimit : IsHeapLimit base limit) (enough : 2 ^ 52 ≤ fuel)
    (backed : Backed layout base limit start space own bytes heap)
    (inBounds : InBounds base heap.progBreak difference)
    (room : target heap.progBreak difference ≤ limit) :
    Reaches (moveBreak (mapPage layout) fuel heap difference)
      (roundUp (heap.progBreak + difference))
      (fun _ => ¬ target heap.progBreak difference ≤
        heap.progBreak.toNat + 4096 * space.free.length)
      (fun middle => ∃ space' own' bytes',
        Backed layout base limit start space' own' bytes' middle ∧
          ((middle.progBreak.toNat : Int) ≤ target heap.progBreak difference ∧
              bytes <+: bytes' ∨
            target heap.progBreak difference ≤ middle.progBreak.toNat ∧
              bytes' <+: bytes) ∧
          (target heap.progBreak difference ≤
              heap.progBreak.toNat + 4096 * space.free.length →
            target heap.progBreak difference ≤
              middle.progBreak.toNat + 4096 * space'.free.length)) := by
  have whole := backed.whole
  have length := backed.length
  have below := backed.below
  have high := isLimit.high
  have aligned := begin.aligned
  have newAligned : target heap.progBreak difference % 4096 = 0 :=
    Int.emod_eq_zero_of_dvd (target_isLeast heap.progBreak difference).1.1
  -- only one of the loops runs, so the array only grows or only shrinks
  refine moveBreak_reaches begin (by omega) (by omega) (by omega) inBounds
    enough ⟨space, own, bytes, backed, (Int.le_total _ _).imp
      (fun lower => ⟨lower, List.prefix_rfl⟩)
      fun upper => ⟨upper, List.prefix_rfl⟩, id⟩ ?_ ?_
  · rintro middle ⟨space', own', bytes', backed', along, frames⟩ middleAligned
      more
    have middleLength := backed'.length
    have next : (middle.progBreak + 4096#64).toNat =
        middle.progBreak.toNat + 4096 := by
      rw [toNat_progBreakEnd] at high
      exact toNat_add_page (by omega)
    cases mapped : mapPage layout middle.memory middle.progBreak mapAnon
        heapFlags with
    | error halt =>
        intro suffice
        have left := frames suffice
        have free : space'.free ≠ [] := by
          intro empty
          rw [empty, List.length_nil] at left
          omega
        have fitting := backed'.fitting_growCall begin linked isLimit
          (by omega)
        obtain ⟨memory, returned, _⟩ :=
          backed'.represents.serve fitting fun _ => free
        cases mapped.symm.trans returned
    | ok memory =>
        obtain ⟨own'', bytes'', backed'', longer⟩ :=
          backed'.grow begin linked isLimit (by omega) mapped
        refine ⟨_, own'', bytes'', backed'', Or.inl ?_, fun suffice => ?_⟩
        · rcases along with ⟨_, grown⟩ | ⟨above, _⟩
          · refine ⟨?_, grown.trans longer⟩
            change ((middle.progBreak + 4096#64).toNat : Int) ≤ _
            rw [next]
            omega
          · omega
        · have left := frames suffice
          change _ ≤ ((middle.progBreak + 4096#64).toNat : Int) + _
          rw [next, Space.serve_free, if_pos (growCall_anonymous _),
            List.length_tail]
          omega
  · rintro middle ⟨space', own', bytes', backed', along, _⟩ middleAligned more
    have middleLength := backed'.length
    have low := inBounds.1
    have previous : (middle.progBreak - 4096#64).toNat =
        middle.progBreak.toNat - 4096 := toNat_sub_page (by omega)
    obtain ⟨memory, bytes'', mapped, backed'', shorter⟩ :=
      backed'.shrink begin linked isLimit (by omega)
    rw [mapped]
    refine ⟨_, own', bytes'', backed'', Or.inr ?_, fun _ => ?_⟩
    · rcases along with ⟨upper, _⟩ | ⟨_, shrunk⟩
      · omega
      · refine ⟨?_, shorter.trans shrunk⟩
        change _ ≤ ((middle.progBreak - 4096#64).toNat : Int)
        rw [previous]
        omega
    · change _ ≤ ((middle.progBreak - 4096#64).toNat : Int) + _
      rw [previous]
      omega

/-- A call that returns moves the end of the array to the new break. -/
theorem Backed.moved {difference : Word} (begin : IsProgBreakBegin base)
    (linked : layout.windowSize = physWindowSize.toNat)
    (isLimit : IsHeapLimit base limit) (enough : 2 ^ 52 ≤ fuel)
    (backed : Backed layout base limit start space own bytes heap)
    (inBounds : InBounds base heap.progBreak difference)
    (room : target heap.progBreak difference ≤ limit)
    (moved : moveBreak (mapPage layout) fuel heap difference = .ok heap') :
    ∃ space' own' bytes',
      Backed layout base limit start space' own' bytes' heap' ∧
        (heap'.progBreak.toNat : Int) = target heap.progBreak difference ∧
        (bytes <+: bytes' ∨ bytes' <+: bytes) := by
  have length := backed.length
  have below := backed.below
  have high := isLimit.high
  have rounded := (roundUp_spec begin (by omega) (by omega)).1 inBounds
  obtain ⟨result, same, ⟨space', own', bytes', backed', along, _⟩, isBreak⟩ |
      ⟨_, _, stopped, _⟩ :=
    backed.reaches begin linked isLimit enough inBounds room
  · cases moved.symm.trans same
    refine ⟨space', own', bytes', backed', ?_, along.imp And.right And.right⟩
    rw [isBreak]
    exact rounded
  · cases moved.symm.trans stopped

/-- A call with enough free frames returns. -/
theorem Backed.returns {difference : Word} (begin : IsProgBreakBegin base)
    (linked : layout.windowSize = physWindowSize.toNat)
    (isLimit : IsHeapLimit base limit) (enough : 2 ^ 52 ≤ fuel)
    (backed : Backed layout base limit start space own bytes heap)
    (inBounds : InBounds base heap.progBreak difference)
    (room : target heap.progBreak difference ≤ limit)
    (suffice : target heap.progBreak difference ≤
      heap.progBreak.toNat + 4096 * space.free.length) :
    ∃ heap', sbrk (mapPage layout) base fuel heap difference =
      .ok (heap.progBreak, heap') := by
  have length := backed.length
  have below := backed.below
  have high := isLimit.high
  rw [sbrk_eq begin (by omega) (by omega) inBounds]
  obtain ⟨result, moved, _⟩ | ⟨_, _, _, few⟩ :=
    backed.reaches begin linked isLimit enough inBounds room
  · rw [moved]
    exact ⟨result, rfl⟩
  · exact absurd suffice few

/-- Every step is one of the array. -/
theorem Backed.step {event : Event} (begin : IsProgBreakBegin base)
    (linked : layout.windowSize = physWindowSize.toNat)
    (isLimit : IsHeapLimit base limit) (enough : 2 ^ 52 ≤ fuel)
    (backed : Backed layout base limit start space own bytes heap)
    (step : Step layout base limit fuel heap event heap') :
    ∃ space' own' bytes',
      Backed layout base limit start space' own' bytes' heap' ∧
        ArrayStep base bytes event bytes' := by
  have length := backed.length
  have below := backed.below
  have high := isLimit.high
  have aligned := begin.aligned
  cases step with
  | sbrk room returned =>
      obtain ⟨inBounds, moved⟩ :=
        sbrk_returned begin (by omega) (by omega) returned
      rw [sbrk_eq begin (by omega) (by omega) inBounds, moved] at returned
      cases returned
      obtain ⟨space', own', bytes', backed', newBreak, along⟩ :=
        backed.moved begin linked isLimit enough inBounds room moved
      refine ⟨space', own', bytes', backed', .sbrk length ?_ along⟩
      rw [backed'.length, target, length] at newBreak
      omega
  | store inHeap reached =>
      refine ⟨space, own, _,
        backed.store begin linked isLimit inHeap reached, .store inHeap.1 ?_⟩
      rw [← length]
      exact inHeap.2
  | load inHeap reached =>
      obtain ⟨cell, found, shown⟩ := backed.load begin linked isLimit inHeap
      cases found.symm.trans reached
      exact ⟨space, own, bytes, backed, .load inHeap.1 shown⟩

theorem Backed.serves (begin : IsProgBreakBegin base)
    (linked : layout.windowSize = physWindowSize.toNat)
    (isLimit : IsHeapLimit base limit) (enough : 2 ^ 52 ≤ fuel)
    (backed : Backed layout base limit heap.memory space own bytes heap') :
    Serves layout base limit fuel heap heap' bytes where
  length := backed.length
  returns := by
    intro difference frames inBounds room free suffice
    rw [← backed.represents.owned.wellFormed.free.unique free] at suffice
    exact backed.returns begin linked isLimit enough inBounds room suffice
  shows := fun _ inHeap => backed.load begin linked isLimit inHeap
  others := by
    intro page isPage outside apart
    rw [backed.represents.translation_eq isPage outside,
      backed.elsewhere page isPage outside apart, translation]
  kept := fun frame reserved => (backed.spares frame reserved).2.1

end Invariant

/-! ## Runs -/

section Runs

variable {layout : Layout} {base : Word} {limit fuel : Nat}
  {frames : List Nat} {heap heap' : Heap Mapper} {events : List Event}

/-- A run of calls, stores and loads keeps the invariant. -/
theorem Ready.runs (begin : IsProgBreakBegin base)
    (linked : layout.windowSize = physWindowSize.toNat)
    (isLimit : IsHeapLimit base limit) (enough : 2 ^ 52 ≤ fuel)
    (ready : Ready layout base limit frames heap)
    (run : Run (Step layout base limit fuel) heap events heap') :
    ∃ bytes space own, Run (ArrayStep base) [] events bytes ∧
      Backed layout base limit heap.memory space own bytes heap' := by
  induction run with
  | nil => exact ⟨[], _, _, Run.nil, ready.backed begin linked isLimit⟩
  | snoc _ last inductionHypothesis =>
      obtain ⟨bytes, space, own, abstract, backed⟩ := inductionHypothesis
      obtain ⟨space', own', bytes', backed', step⟩ :=
        backed.step begin linked isLimit enough last
      exact ⟨bytes', space', own', abstract.snoc step, backed'⟩

end Runs

end BeaverOS.HeapMemory

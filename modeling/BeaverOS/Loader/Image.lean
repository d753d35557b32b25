import BeaverOS.Loader.Elf64
import BeaverOS.Loader.Growth

/-!
# What `load_kernel` leaves of a kernel image

The segment loop clears the end of file pages inside the image that it is still
reading, and allocates tables and pages as it goes. The invariant of the loop
says that the image is intact where it will be read again, and that every page
loaded so far translates to a frame with its bytes, outside of all tables.
-/

namespace BeaverOS.Elf64

open BeaverOS.ByteMemory
open BeaverOS.Loop
open BeaverOS.RadixTree
open BeaverOS.Paging
open BeaverOS.Window
open BeaverOS.PageTree
open BeaverOS.LoaderPaging

/-! ## Images -/

section Images

variable (memory : Memory) (start : Pointer)

/-- `&phdr[pi]`. -/
def programHeader (pi : Nat) : Pointer :=
  element (advance start (ePhoff memory start)) 56 pi

/-- The program header `pi` describes a segment that is loaded. -/
def IsLoad (pi : Nat) : Prop :=
  pi < (ePhnum memory start).toNat ∧
    pType memory (programHeader memory start pi) = ptLoad

def offsetOf (pi : Nat) : Nat :=
  (pOffset memory (programHeader memory start pi)).toNat

def vaddrOf (pi : Nat) : Word :=
  pVaddr memory (programHeader memory start pi)

def fileszOf (pi : Nat) : Nat :=
  (pFilesz memory (programHeader memory start pi)).toNat

def memszOf (pi : Nat) : Nat :=
  (pMemsz memory (programHeader memory start pi)).toNat

/-- The file offsets from the end of a segment's file part to the end of that
page. -/
def tailCells (pi : Nat) : Set Nat :=
  cells (offsetOf memory start pi + fileszOf memory start pi)
    ((offsetOf memory start pi + fileszOf memory start pi + 4095) / 4096 *
      4096 - (offsetOf memory start pi + fileszOf memory start pi))

/-- Page `k` of segment `pi` is one that the segment has. -/
def IsSegmentPage (pi k : Nat) : Prop :=
  IsLoad memory start pi ∧ 4096 * k < memszOf memory start pi

/-- The virtual address of that page. -/
def segmentPageAddress (pi k : Nat) : Word :=
  vaddrOf memory start pi + pageStart k

/-- Byte `j` of a segment: from the file, or 0 behind the file part. -/
def segmentByte (pi j : Nat) : BitVec 8 :=
  if j < fileszOf memory start pi then
    memory (start.toNat + offsetOf memory start pi + j)
  else
    0

/-- A page-aligned file of `size` bytes at `start` with page-aligned segments
that overlap neither in the file nor in virtual memory, and whose ELF header
and program headers are not where a file page is cleared. -/
structure Image (size : Nat) : Prop where
  aligned : start.toNat % 4096 = 0
  header_inside : 64 ≤ size
  table_inside :
    (ePhoff memory start).toNat + 56 * (ePhnum memory start).toNat ≤ size
  offset_aligned :
    ∀ pi, IsLoad memory start pi → offsetOf memory start pi % 4096 = 0
  filesz_le :
    ∀ pi, IsLoad memory start pi →
      fileszOf memory start pi ≤ memszOf memory start pi
  inside :
    ∀ pi, IsLoad memory start pi → 0 < fileszOf memory start pi →
      offsetOf memory start pi + fileszOf memory start pi ≤ size
  files_apart :
    ∀ pi other, IsLoad memory start pi → IsLoad memory start other →
      pi ≠ other →
      Disjoint (cells (offsetOf memory start pi) (fileszOf memory start pi))
        (cells (offsetOf memory start other) (fileszOf memory start other))
  pages_apart :
    ∀ pi other k below, IsSegmentPage memory start pi k →
      IsSegmentPage memory start other below → pi ≠ other →
      segmentPageAddress memory start pi k ≠
        segmentPageAddress memory start other below
  header_kept :
    ∀ pi, IsLoad memory start pi →
      Disjoint (tailCells memory start pi) (cells 0 64)
  table_kept :
    ∀ pi, IsLoad memory start pi →
      Disjoint (tailCells memory start pi)
        (cells (ePhoff memory start).toNat
          (56 * (ePhnum memory start).toNat))

/-- The bytes of the image that the segment loop reads: its headers and the
file parts of its segments. -/
def imageCells : Set Nat :=
  fun cell =>
    cell ∈ cells start.toNat 64 ∨
    cell ∈ cells (start.toNat + (ePhoff memory start).toNat)
      (56 * (ePhnum memory start).toNat) ∨
    ∃ pi, IsLoad memory start pi ∧
      cell ∈ cells (start.toNat + offsetOf memory start pi)
        (fileszOf memory start pi)

/-- The image lies below `base`, the first page that the loader allocates. -/
structure InMemory (size base : Nat) : Prop where
  image : Image memory start size
  below : start.toNat + size ≤ base
  base_aligned : base % 4096 = 0
  base_bounded : base < 2 ^ 32

end Images

/-! ## Reading the headers of an intact image -/

section Intact

variable {memory : Memory} {start : Pointer} {size base : Nat}
  {state : Loader} {pi k : Nat}

theorem toNat_add_ofNat {pointer : Pointer} {offset : Nat}
    (fits : pointer.toNat + offset < 2 ^ 32) :
    (pointer + BitVec.ofNat 32 offset).toNat = pointer.toNat + offset := by
  rw [BitVec.toNat_add, BitVec.toNat_ofNat]
  omega

theorem toNat_advance (pointer : Pointer) (offset : Word)
    (fits : pointer.toNat + offset.toNat < 2 ^ 32) :
    (advance pointer offset).toNat = pointer.toNat + offset.toNat := by
  rw [advance, BitVec.toNat_add, BitVec.toNat_setWidth]
  omega

theorem InMemory.toNat_programHeader
    (inMemory : InMemory memory start size base)
    (inTable : pi < (ePhnum memory start).toNat) :
    (programHeader memory start pi).toNat =
      start.toNat + (ePhoff memory start).toNat + 56 * pi := by
  have inside := inMemory.image.table_inside
  have below := inMemory.below
  have bounded := inMemory.base_bounded
  have table := toNat_advance start (ePhoff memory start) (by omega)
  rw [programHeader, element, toNat_add_ofNat (by omega), table]

/-- A field of a program header, read from an intact image. -/
theorem InMemory.readLE_field (inMemory : InMemory memory start size base)
    (intact : ∀ cell ∈ imageCells memory start, state.mem cell = memory cell)
    (inTable : pi < (ePhnum memory start).toNat) {offset count : Nat}
    (field : offset + count ≤ 56) (positive : 0 < count) :
    readLE state.mem
        (programHeader memory start pi + BitVec.ofNat 32 offset).toNat count =
      readLE memory
        (programHeader memory start pi + BitVec.ofNat 32 offset).toNat
        count := by
  have inside := inMemory.image.table_inside
  have below := inMemory.below
  have bounded := inMemory.base_bounded
  have header := inMemory.toNat_programHeader inTable
  refine readLE_congr fun cell lower upper => intact cell ?_
  rw [toNat_add_ofNat (by omega), header] at lower upper
  refine Or.inr (Or.inl ?_)
  rw [mem_cells]
  omega

theorem InMemory.xword_eq (inMemory : InMemory memory start size base)
    (intact : ∀ cell ∈ imageCells memory start, state.mem cell = memory cell)
    (inTable : pi < (ePhnum memory start).toNat) {offset : Nat}
    (field : offset + 8 ≤ 56) :
    elf64Xword state.mem (programHeader memory start pi) offset =
      elf64Xword memory (programHeader memory start pi) offset := by
  rw [elf64Xword, inMemory.readLE_field intact inTable field (by decide),
    elf64Xword]

theorem InMemory.pType_eq (inMemory : InMemory memory start size base)
    (intact : ∀ cell ∈ imageCells memory start, state.mem cell = memory cell)
    (inTable : pi < (ePhnum memory start).toNat) :
    pType state.mem (programHeader memory start pi) =
      pType memory (programHeader memory start pi) := by
  rw [pType, elf64Word,
    inMemory.readLE_field intact inTable (by decide) (by decide), pType,
    elf64Word]

theorem InMemory.ePhnum_eq (inMemory : InMemory memory start size base)
    (intact : ∀ cell ∈ imageCells memory start, state.mem cell = memory cell) :
    ePhnum state.mem start = ePhnum memory start := by
  have inside := inMemory.image.header_inside
  have below := inMemory.below
  have bounded := inMemory.base_bounded
  rw [ePhnum, elf64Half, ePhnum, elf64Half]
  refine congrArg _ (readLE_congr fun cell lower upper => intact cell ?_)
  rw [toNat_add_ofNat (by omega)] at lower upper
  left
  rw [mem_cells]
  omega

end Intact

/-! ## Pages in their places -/

section Places

variable (memory : Memory) (start : Pointer) (base : Nat)

/-- The flags of all leaf entries of the image and the window. -/
def imageFlags : Word := pageRwBit ||| pageGBit ||| pagePBit

/-- The frame of page `k` of segment `pi`: it holds the bytes of the page and is
no table. File pages stay where they are. -/
structure Framed (pi k frame : Nat) (state : Loader) : Prop where
  aligned : frame % 4096 = 0
  below : frame + 4096 ≤ state.usedMemory.toNat
  unlinked : ¬ LinkedTable state frame
  inFile :
    4096 * k < fileszOf memory start pi →
      frame = start.toNat + offsetOf memory start pi + 4096 * k
  fresh : fileszOf memory start pi ≤ 4096 * k → base ≤ frame
  content :
    ∀ offset, offset < 4096 →
      state.mem (frame + offset) =
        segmentByte memory start pi (4096 * k + offset)

/-- Page `k` of segment `pi` is mapped to its frame. -/
structure Placed (pi k frame : Nat) (state : Loader) : Prop where
  framed : Framed memory start base pi k frame state
  isPage : IsPage (segmentPageAddress memory start pi k)
  mapped :
    translationOf state (segmentPageAddress memory start pi k) =
      some (BitVec.ofNat 64 frame, imageFlags)

/-- The invariant of the segment loop: the pages of `done` are in place. -/
structure Loading (done : Nat → Nat → Prop) (state : Loader) : Prop where
  ready : Ready base state
  intact : ∀ cell ∈ imageCells memory start, state.mem cell = memory cell
  placed :
    ∀ pi k, IsSegmentPage memory start pi k → done pi k →
      ∃ frame, Placed memory start base pi k frame state

end Places

section Changes

variable {memory : Memory} {start : Pointer} {size base : Nat}
  {state state' : Loader} {pi k frame : Nat} {done : Nat → Nat → Prop}
  {changed : Set Nat}

/-- A frame stays when its bytes do and new tables lie elsewhere. -/
theorem Framed.keep (framed : Framed memory start base pi k frame state)
    (grown : state.usedMemory.toNat ≤ state'.usedMemory.toNat)
    (linked : ∀ table, LinkedTable state' table →
      LinkedTable state table ∨ state.usedMemory.toNat ≤ table)
    (agree : AgreeOff changed state'.mem state.mem)
    (apart : Disjoint (cells frame 4096) changed) :
    Framed memory start base pi k frame state' := by
  have below := framed.below
  refine ⟨framed.aligned, below.trans grown, ?_, framed.inFile, framed.fresh,
    ?_⟩
  · intro isLinked
    rcases linked frame isLinked with old | new
    · exact framed.unlinked old
    · omega
  · intro offset inside
    rw [agree.agreeOn apart _ (Nat.le_add_right frame offset) (by omega)]
    exact framed.content offset inside

theorem Placed.keep (placed : Placed memory start base pi k frame state)
    (same :
      translationOf state' (segmentPageAddress memory start pi k) =
        translationOf state (segmentPageAddress memory start pi k))
    (framed : Framed memory start base pi k frame state') :
    Placed memory start base pi k frame state' :=
  ⟨framed, placed.isPage, same.trans placed.mapped⟩

/-- Stores outside of the image and of all frames in place, without linking a
table. -/
theorem Loading.quiet {call : Call}
    (loading : Loading memory start base done state)
    (quiet : Quiet state state' call)
    (agree : AgreeOff changed state'.mem state.mem)
    (image : ∀ cell ∈ imageCells memory start, cell ∉ changed)
    (frames : ∀ pi k frame, IsSegmentPage memory start pi k → done pi k →
      Framed memory start base pi k frame state →
      Disjoint (cells frame 4096) changed) :
    Loading memory start base done state' := by
  refine ⟨loading.ready.quiet quiet, ?_, ?_⟩
  · intro cell inside
    rw [agree cell (image cell inside)]
    exact loading.intact cell inside
  · intro pi k segmentPage isDone
    obtain ⟨frame, placed⟩ := loading.placed pi k segmentPage isDone
    exact ⟨frame, placed.keep (quiet.translationOf_eq _)
      (placed.framed.keep quiet.grown
        (fun table linked => Or.inl (quiet.linkedTable linked)) agree
        (frames pi k frame segmentPage isDone placed.framed))⟩

/-- Such frames are disjoint from all that `map_page` writes. -/
theorem Framed.disjoint_linkedCells
    (framed : Framed memory start base pi k frame state)
    (ready : Ready base state) :
    Disjoint (cells frame 4096) (linkedCells state) := by
  rw [Set.disjoint_left]
  rintro cell inFrame (above | ⟨table, linked, inTable⟩)
  · rw [mem_cells] at inFrame
    have below := framed.below
    omega
  · have different : frame ≠ table := fun equal =>
      framed.unlinked (equal ▸ linked)
    rw [mem_cells] at inFrame inTable
    have aligned := framed.aligned
    have tableAligned := (ready.linked_bounds linked).1
    omega

/-- The image lies below the first page that the loader allocates. -/
theorem InMemory.cell_lt (inMemory : InMemory memory start size base)
    {cell : Nat} (inside : cell ∈ imageCells memory start) : cell < base := by
  have header := inMemory.image.header_inside
  have table := inMemory.image.table_inside
  have below := inMemory.below
  rcases inside with inHeader | inTable | ⟨pi, isLoad, inFile⟩
  · rw [mem_cells] at inHeader
    omega
  · rw [mem_cells] at inTable
    omega
  · rw [mem_cells] at inFile
    have file := inMemory.image.inside pi isLoad (by omega)
    omega

/-- The image lies below all that `map_page` writes. -/
theorem InMemory.not_mem_linkedCells
    (inMemory : InMemory memory start size base) (ready : Ready base state)
    {cell : Nat} (inside : cell ∈ imageCells memory start) :
    cell ∉ linkedCells state := by
  have bound := inMemory.cell_lt inside
  have baseLe := ready.base_le
  rintro (above | ⟨table, linked, inTable⟩)
  · omega
  · have above := ready.linked_above table linked
    rw [mem_cells] at inTable
    omega

/-- `map_page` for another page leaves the loaded pages in place. -/
theorem Loading.mapped (inMemory : InMemory memory start size base)
    (loading : Loading memory start base done state) {virt phys flags : Word}
    (other : ∀ pi k, IsSegmentPage memory start pi k → done pi k →
      segmentPageAddress memory start pi k ≠ virt)
    (mapped : mapPage state virt phys flags = .ok state')
    (unwrapped : state.usedMemory.toNat ≤ state'.usedMemory.toNat) :
    Loading memory start base done state' := by
  obtain ⟨ready', result, extended⟩ := loading.ready.mapped mapped unwrapped
  refine ⟨ready', ?_, ?_⟩
  · intro cell inside
    rw [extended.agree cell
      (inMemory.not_mem_linkedCells loading.ready inside)]
    exact loading.intact cell inside
  · intro pi k segmentPage isDone
    obtain ⟨frame, placed⟩ := loading.placed pi k segmentPage isDone
    exact ⟨frame, placed.keep
      (result.elsewhere _ placed.isPage (other pi k segmentPage isDone))
      (placed.framed.keep unwrapped extended.linked extended.agree
        (placed.framed.disjoint_linkedCells loading.ready))⟩

end Changes

/-! ## One page of a segment -/

section Page

variable {memory : Memory} {start page : Pointer} {size base : Nat}
  {state state' : Loader} {pi k other below frame cell : Nat}
  {done : Nat → Nat → Prop}

theorem toNat_pageStart (small : k < 2 ^ 52) :
    (pageStart k).toNat = 4096 * k := by
  rw [pageStart, BitVec.toNat_ofNat]
  omega

/-- Two file pages of segments are the same only if they are the same page of
the same segment. -/
theorem Image.filePages_apart (image : Image memory start size)
    (isLoad : IsLoad memory start pi) (otherLoad : IsLoad memory start other)
    (inFile : 4096 * k < fileszOf memory start pi)
    (otherInFile : 4096 * below < fileszOf memory start other)
    (same : offsetOf memory start pi + 4096 * k =
      offsetOf memory start other + 4096 * below) :
    pi = other ∧ k = below := by
  by_cases equal : pi = other
  · subst equal
    exact ⟨rfl, by omega⟩
  · have apart := image.files_apart pi other isLoad otherLoad equal
    rw [Set.disjoint_left] at apart
    refine absurd (mem_cells.mpr ?_)
      (apart (mem_cells.mpr (show _ ≤ offsetOf memory start pi + 4096 * k ∧ _
        by omega)))
    omega

/-- A page in which the file part of a segment ends shares no byte of the
file's other parts. -/
theorem Image.tail_not_file (image : Image memory start size)
    (isLoad : IsLoad memory start pi) (otherLoad : IsLoad memory start other)
    (inFile : 4096 * k < fileszOf memory start pi)
    (lower : offsetOf memory start pi + fileszOf memory start pi ≤ cell)
    (upper : cell < offsetOf memory start pi + 4096 * k + 4096) :
    cell ∉ cells (offsetOf memory start other)
      (fileszOf memory start other) := by
  intro inside
  rw [mem_cells] at inside
  by_cases equal : pi = other
  · subst equal
    omega
  · have aligned := image.offset_aligned pi isLoad
    have otherAligned := image.offset_aligned other otherLoad
    have apart := image.files_apart pi other isLoad otherLoad equal
    rw [Set.disjoint_left] at apart
    refine absurd (mem_cells.mpr ?_)
      (apart (mem_cells.mpr (show _ ≤ offsetOf memory start pi + 4096 * k ∧ _
        by omega)))
    omega

/-- Clearing the end of a file page touches no byte that is read again. -/
theorem InMemory.tail_not_image
    (inMemory : InMemory memory start size base)
    (isLoad : IsLoad memory start pi)
    (inFile : 4096 * k < fileszOf memory start pi)
    (ends : fileszOf memory start pi < 4096 * k + 4096)
    (inside : cell ∈ imageCells memory start) :
    cell ∉ cells
      (start.toNat + offsetOf memory start pi + fileszOf memory start pi)
      (4096 * k + 4096 - fileszOf memory start pi) := by
  intro inTail
  rw [mem_cells] at inTail
  have aligned := inMemory.image.offset_aligned pi isLoad
  have tail : cell - start.toNat ∈ tailCells memory start pi := by
    rw [tailCells, mem_cells]
    omega
  rcases inside with inHeader | inTable | ⟨other, otherLoad, inOther⟩
  · rw [mem_cells] at inHeader
    refine Set.disjoint_left.mp (inMemory.image.header_kept pi isLoad) tail ?_
    rw [mem_cells]
    omega
  · rw [mem_cells] at inTable
    refine Set.disjoint_left.mp (inMemory.image.table_kept pi isLoad) tail ?_
    rw [mem_cells]
    omega
  · rw [mem_cells] at inOther
    refine inMemory.image.tail_not_file isLoad otherLoad inFile
      (show _ ≤ cell - start.toNat by omega) (by omega) ?_
    rw [mem_cells]
    omega

/-- A frame other than that of page `k` of segment `pi` does not meet the file
page of `k`. -/
theorem InMemory.frame_not_filePage
    (inMemory : InMemory memory start size base)
    (isLoad : IsLoad memory start pi)
    (inFile : 4096 * k < fileszOf memory start pi)
    (otherLoad : IsLoad memory start other)
    (framed : Framed memory start base other below frame state)
    (different : ¬ (pi = other ∧ k = below)) :
    Disjoint (cells frame 4096)
      (cells (start.toNat + offsetOf memory start pi + 4096 * k) 4096) := by
  have aligned := inMemory.image.aligned
  have offsetAligned := inMemory.image.offset_aligned pi isLoad
  have file := inMemory.image.inside pi isLoad (by omega)
  have imageBelow := inMemory.below
  have baseAligned := inMemory.base_aligned
  by_cases otherInFile : 4096 * below < fileszOf memory start other
  · have place := framed.inFile otherInFile
    have frameAligned := framed.aligned
    have apart : offsetOf memory start pi + 4096 * k ≠
        offsetOf memory start other + 4096 * below := fun same =>
      different (inMemory.image.filePages_apart isLoad otherLoad inFile
        otherInFile same)
    exact cells_disjoint (by omega)
  · have above := framed.fresh (Nat.le_of_not_lt otherInFile)
    exact cells_disjoint (by omega)

/-- The frame of a file page, once its end is cleared. -/
theorem InMemory.framed_filePage (inMemory : InMemory memory start size base)
    (ready : Ready base state) (isLoad : IsLoad memory start pi)
    (inFile : 4096 * k < fileszOf memory start pi)
    (content :
      ∀ offset, offset < 4096 →
        state.mem (start.toNat + offsetOf memory start pi + 4096 * k + offset) =
          segmentByte memory start pi (4096 * k + offset)) :
    Framed memory start base pi k
      (start.toNat + offsetOf memory start pi + 4096 * k) state := by
  have aligned := inMemory.image.aligned
  have offsetAligned := inMemory.image.offset_aligned pi isLoad
  have file := inMemory.image.inside pi isLoad (by omega)
  have below := inMemory.below
  have baseAligned := inMemory.base_aligned
  have baseLe := ready.base_le
  refine ⟨by omega, by omega, ?_, fun _ => rfl, fun outside => by omega,
    content⟩
  intro linked
  have above := ready.linked_above _ linked
  omega

/-- The bytes of the file part are those of the intact image. -/
theorem Loading.fileByte (loading : Loading memory start base done state)
    (isLoad : IsLoad memory start pi) {byte : Nat}
    (inFile : byte < fileszOf memory start pi) :
    state.mem (start.toNat + offsetOf memory start pi + byte) =
      segmentByte memory start pi byte := by
  rw [segmentByte, if_pos inFile]
  refine loading.intact _ (Or.inr (Or.inr ⟨pi, isLoad, ?_⟩))
  rw [mem_cells]
  omega

/-- A file page whose end is cleared. -/
theorem Loading.clearTail (inMemory : InMemory memory start size base)
    (loading : Loading memory start base done state)
    (isLoad : IsLoad memory start pi) (notDone : ¬ done pi k)
    (inFile : 4096 * k < fileszOf memory start pi)
    (ends : fileszOf memory start pi < 4096 * k + 4096)
    (cleared : state' = { state with
      mem := fill state.mem
        (start.toNat + offsetOf memory start pi + fileszOf memory start pi)
        (4096 * k + 4096 - fileszOf memory start pi) 0 }) :
    Loading memory start base done state' ∧
      state.usedMemory = state'.usedMemory ∧
      Framed memory start base pi k
        (start.toNat + offsetOf memory start pi + 4096 * k) state' := by
  have aligned := inMemory.image.aligned
  have offsetAligned := inMemory.image.offset_aligned pi isLoad
  have file := inMemory.image.inside pi isLoad (by omega)
  have below := inMemory.below
  have baseAligned := inMemory.base_aligned
  have agree := agreeOff_fill state.mem
    (start.toNat + offsetOf memory start pi + fileszOf memory start pi)
    (4096 * k + 4096 - fileszOf memory start pi) 0
  have quiet := loading.ready.quiet_of_below agree (by
    intro cell inside
    rw [mem_cells] at inside
    omega)
  rw [← cleared] at quiet
  have kept : Loading memory start base done state' := by
    refine loading.quiet quiet (by rw [cleared]; exact agree) ?_ ?_
    · intro cell inside
      exact inMemory.tail_not_image isLoad inFile ends inside
    · intro other below frame segmentPage isDone framed
      refine (inMemory.frame_not_filePage isLoad inFile segmentPage.1 framed
        ?_).mono_right ?_
      · rintro ⟨rfl, rfl⟩
        exact notDone isDone
      · intro cell inside
        rw [mem_cells] at inside ⊢
        omega
  refine ⟨kept, by rw [cleared], ?_⟩
  refine inMemory.framed_filePage kept.ready isLoad inFile ?_
  intro offset inside
  by_cases inPart : 4096 * k + offset < fileszOf memory start pi
  · have byte := kept.fileByte isLoad inPart
    rw [← Nat.add_assoc] at byte
    exact byte
  · rw [cleared, segmentByte, if_neg inPart]
    exact fill_inside (by omega) (by omega)

/-- A new page. -/
theorem Loading.newPage (inMemory : InMemory memory start size base)
    (loading : Loading memory start base done state)
    (outside : fileszOf memory start pi ≤ 4096 * k)
    (allocated : allocating state (newPhysZeroPage state).2 = .ok state') :
    Loading memory start base done state' ∧
      state.usedMemory.toNat ≤ state'.usedMemory.toNat ∧
      Framed memory start base pi k state.usedMemory.toNat state' := by
  obtain ⟨after, grown⟩ := allocating_eq_ok allocated
  have ready := loading.ready
  have aligned := ready.aligned
  have baseLe := ready.base_le
  have bound := state.usedMemory.isLt
  have fits : state.usedMemory.toNat + 4096 < 2 ^ 32 := by
    rw [← after] at grown
    simp only [newPhysZeroPage, newPhysPage, BitVec.toNat_add,
      BitVec.toNat_ofNat] at grown
    omega
  have quiet := quiet_of_step aligned ready.good (Step.newZeroPage fits)
    (by simp)
  rw [after] at quiet
  have memEq : state'.mem =
      fill state.mem state.usedMemory.toNat 4096 0 := by
    rw [← after, newPhysZeroPage, newPhysPage]
  have usedEq : state'.usedMemory.toNat = state.usedMemory.toNat + 4096 := by
    rw [← after]
    exact toNat_newPage fits
  have agree := agreeOff_fill state.mem state.usedMemory.toNat 4096 0
  rw [← memEq] at agree
  refine ⟨loading.quiet quiet agree ?_ ?_, grown, aligned, by omega, ?_, ?_,
    fun _ => baseLe, ?_⟩
  · intro cell inside
    have cellBound := inMemory.cell_lt inside
    rw [mem_cells]
    omega
  · intro other below frame _ _ framed
    have frameBelow := framed.below
    exact cells_disjoint (by omega)
  · intro linked
    have bounds := ready.linked_bounds (quiet.linkedTable linked)
    omega
  · intro inFile
    omega
  · intro offset inside
    rw [memEq, segmentByte, if_neg (by omega)]
    exact fill_inside (by omega) (by omega)

/-- The page of the file at byte `4096 * k` of a segment, cleared behind the
file part if that ends in it. -/
theorem segmentPage_file {phdr : Pointer} {offset filesz : Word}
    (offsetEq : pOffset state.mem phdr = offset)
    (fileszEq : pFilesz state.mem phdr = filesz) (small : k < 2 ^ 52)
    (fits : start.toNat + offset.toNat + filesz.toNat < 2 ^ 32)
    (inFile : 4096 * k < filesz.toNat) :
    ∃ page : Pointer,
      page.toNat = start.toNat + offset.toNat + 4096 * k ∧
      Elf64.segmentPage start phdr (pageStart k) state =
        .ok (page,
          if filesz.toNat < 4096 * k + 4096 then
            { state with
              mem := fill state.mem
                (start.toNat + offset.toNat + filesz.toNat)
                (4096 * k + 4096 - filesz.toNat) 0 }
          else state) := by
  have pageStartEq := toNat_pageStart small
  have first := toNat_advance start offset (by omega)
  have filePage : (advance (advance start offset) (pageStart k)).toNat =
      start.toNat + offset.toNat + 4096 * k := by
    rw [toNat_advance _ _ (by omega), first, pageStartEq]
  refine ⟨advance (advance start offset) (pageStart k), filePage, ?_⟩
  have stop : (pageStart k + 4096#64).toNat = 4096 * k + 4096 := by
    rw [BitVec.toNat_add, pageStartEq]
    simp only [BitVec.toNat_ofNat]
    omega
  have before : pageStart k < filesz := by
    rw [BitVec.lt_def, pageStartEq]
    exact inFile
  simp only [Elf64.segmentPage, offsetEq, fileszEq, if_pos before]
  by_cases ends : filesz.toNat < 4096 * k + 4096
  · have endsWord : filesz < pageStart k + 4096#64 := by
      rw [BitVec.lt_def, stop]
      exact ends
    have distance : (filesz - pageStart k).toNat = filesz.toNat - 4096 * k := by
      rw [BitVec.toNat_sub, pageStartEq]
      omega
    have count : (pageStart k + 4096#64 - filesz).toNat =
        4096 * k + 4096 - filesz.toNat := by
      rw [BitVec.toNat_sub, stop]
      omega
    have address : (advance (advance start offset) (pageStart k) +
        (filesz - pageStart k).setWidth 32).toNat =
        start.toNat + offset.toNat + filesz.toNat := by
      rw [BitVec.toNat_add, filePage, BitVec.toNat_setWidth, distance]
      omega
    rw [if_pos endsWord, if_pos ends, address, BitVec.toNat_setWidth, count,
      Nat.mod_eq_of_lt (by omega)]
  · have wholeWord : ¬ filesz < pageStart k + 4096#64 := by
      rw [BitVec.lt_def, stop]
      exact ends
    rw [if_neg wholeWord, if_neg ends]

/-- Behind the file part a new page is made. -/
theorem segmentPage_new {phdr : Pointer} {filesz : Word}
    (fileszEq : pFilesz state.mem phdr = filesz) (small : k < 2 ^ 52)
    (outside : filesz.toNat ≤ 4096 * k) :
    Elf64.segmentPage start phdr (pageStart k) state =
      (allocating state (newPhysZeroPage state).2).map fun after =>
        (state.usedMemory, after) := by
  have behind : ¬ pageStart k < filesz := by
    rw [BitVec.lt_def, toNat_pageStart small]
    omega
  simp only [Elf64.segmentPage, fileszEq, if_neg behind]
  rfl

/-- The page that the body of the loop finds or makes for page `k` of a
segment. -/
theorem Loading.segmentPage (inMemory : InMemory memory start size base)
    (loading : Loading memory start base done state)
    (isLoad : IsLoad memory start pi) (small : k < 2 ^ 52)
    (notDone : ¬ done pi k)
    (chosen : Elf64.segmentPage start (programHeader memory start pi)
      (pageStart k) state = .ok (page, state')) :
    Loading memory start base done state' ∧
      state.usedMemory.toNat ≤ state'.usedMemory.toNat ∧
      Framed memory start base pi k page.toNat state' := by
  have offsetEq := inMemory.xword_eq loading.intact isLoad.1
    (show 8 + 8 ≤ 56 by decide)
  have fileszEq := inMemory.xword_eq loading.intact isLoad.1
    (show 32 + 8 ≤ 56 by decide)
  have file := inMemory.image.inside pi isLoad
  have below := inMemory.below
  have bounded := inMemory.base_bounded
  by_cases inFile : 4096 * k < fileszOf memory start pi
  · have fileBound := file (by omega)
    obtain ⟨filePage, pageEq, found⟩ := segmentPage_file offsetEq fileszEq
      small (show start.toNat + offsetOf memory start pi +
        fileszOf memory start pi < 2 ^ 32 by omega) inFile
    rw [found] at chosen
    obtain ⟨rfl, prepared⟩ := Prod.mk.inj (Except.ok.inj chosen)
    rw [pageEq]
    split at prepared
    · next ends =>
      obtain ⟨kept, usedEq, framed⟩ := loading.clearTail inMemory isLoad
        notDone inFile ends prepared.symm
      exact ⟨kept, Nat.le_of_eq (congrArg _ usedEq), framed⟩
    · next whole =>
      change ¬ fileszOf memory start pi < 4096 * k + 4096 at whole
      subst prepared
      refine ⟨loading, Nat.le_refl _, ?_⟩
      refine inMemory.framed_filePage loading.ready isLoad inFile ?_
      intro offset inside
      have byte := loading.fileByte isLoad
        (show 4096 * k + offset < fileszOf memory start pi by omega)
      rw [← Nat.add_assoc] at byte
      exact byte
  · rw [segmentPage_new fileszEq small (Nat.le_of_not_lt inFile)] at chosen
    cases allocated : allocating state (newPhysZeroPage state).2 with
    | error halt =>
        rw [allocated] at chosen
        cases chosen
    | ok after =>
        rw [allocated] at chosen
        cases chosen
        exact loading.newPage inMemory (Nat.le_of_not_lt inFile) allocated

end Page

/-! ## The segment loop -/

section Segments

variable {memory : Memory} {start page : Pointer} {size base : Nat}
  {state state' : Loader} {pi other k below : Nat}

/-- The pages that are done when page `k` of segment `pi` comes next. -/
def DoneBefore (pi k other below : Nat) : Prop :=
  other < pi ∨ other = pi ∧ below < k

/-- Different pages of the image have different addresses. -/
theorem Image.address_ne (image : Image memory start size)
    (segmentPage : IsSegmentPage memory start pi k)
    (otherPage : IsSegmentPage memory start other below)
    (different : ¬ (pi = other ∧ k = below)) :
    segmentPageAddress memory start other below ≠
      segmentPageAddress memory start pi k := by
  by_cases equal : pi = other
  · subst equal
    intro same
    have pages := (BitVec.add_right_inj _).mp same
    have bound := (pMemsz memory (programHeader memory start pi)).isLt
    have inSegment := segmentPage.2
    have otherIn := otherPage.2
    rw [memszOf] at inSegment otherIn
    have values := congrArg BitVec.toNat pages
    rw [toNat_pageStart (by omega), toNat_pageStart (by omega)] at values
    exact different ⟨rfl, by omega⟩
  · exact (image.pages_apart pi other k below segmentPage otherPage equal).symm

/-- The body of the loop over the pages puts one more page in its place. -/
theorem Loading.loadPage (inMemory : InMemory memory start size base)
    (loading : Loading memory start base (DoneBefore pi k) state)
    (segmentPage : IsSegmentPage memory start pi k)
    (loaded : loadPage start (programHeader memory start pi) (pageStart k)
      state = .ok state') :
    Loading memory start base (DoneBefore pi (k + 1)) state' := by
  have bound := (pMemsz memory (programHeader memory start pi)).isLt
  have inSegment := segmentPage.2
  rw [memszOf] at inSegment
  have notDone : ¬ DoneBefore pi k pi k := by
    simp [DoneBefore]
  obtain ⟨⟨page, prepared⟩, chosen, loaded⟩ := ok_of_bind loaded
  obtain ⟨after, mapped, loaded⟩ := ok_of_bind loaded
  obtain ⟨rfl, unwrapped⟩ := allocating_eq_ok loaded
  obtain ⟨ready, _, framed⟩ := loading.segmentPage inMemory segmentPage.1
    (by omega) notDone chosen
  have vaddrEq : pVaddr prepared.mem (programHeader memory start pi) +
      pageStart k = segmentPageAddress memory start pi k := by
    rw [segmentPageAddress, vaddrOf, pVaddr, pVaddr,
      inMemory.xword_eq ready.intact segmentPage.1.1 (by decide)]
  simp only [vaddrEq] at mapped
  have earlier := ready.mapped inMemory (fun other below otherPage isDone =>
    inMemory.image.address_ne segmentPage otherPage (by
      rintro ⟨rfl, rfl⟩
      exact notDone isDone)) mapped unwrapped
  obtain ⟨_, result, extended⟩ := ready.ready.mapped mapped unwrapped
  refine ⟨earlier.ready, earlier.intact, ?_⟩
  intro other below otherPage isDone
  by_cases here : pi = other ∧ k = below
  · obtain ⟨rfl, rfl⟩ := here
    refine ⟨page.toNat, framed.keep unwrapped extended.linked extended.agree
      (framed.disjoint_linkedCells ready.ready),
      (mapPage_usedMemory mapped).1, ?_⟩
    rw [result.here]
    have frame : page.setWidth 64 = BitVec.ofNat 64 page.toNat := by
      apply BitVec.eq_of_toNat_eq
      rw [BitVec.toNat_setWidth, BitVec.toNat_ofNat]
    rw [frame]
    rfl
  · refine earlier.placed other below otherPage ?_
    rcases isDone with less | ⟨rfl, less⟩
    · exact Or.inl less
    · exact Or.inr ⟨rfl, by omega⟩

/-- The condition of the loop over the pages, read from an intact image. -/
theorem Loading.morePages_iff {done : Nat → Nat → Prop}
    (inMemory : InMemory memory start size base)
    (loading : Loading memory start base done state)
    (isLoad : IsLoad memory start pi) (small : k < 2 ^ 52) :
    MorePages (programHeader memory start pi) k state ↔
      IsSegmentPage memory start pi k := by
  have memszEq : pMemsz state.mem (programHeader memory start pi) =
      pMemsz memory (programHeader memory start pi) :=
    inMemory.xword_eq loading.intact isLoad.1 (by decide)
  rw [MorePages, memszEq, BitVec.lt_def, toNat_pageStart small, IsSegmentPage,
    memszOf]
  exact (and_iff_right isLoad).symm

theorem Loading.of_pageVisits (inMemory : InMemory memory start size base)
    (loading : Loading memory start base (DoneBefore pi 0) state)
    (isLoad : IsLoad memory start pi)
    (visits : Visits (MorePages (programHeader memory start pi))
      (fun k => Elf64.loadPage start (programHeader memory start pi)
        (pageStart k)) state k state') (bound : k ≤ 2 ^ 52) :
    Loading memory start base (DoneBefore pi k) state' := by
  induction visits with
  | start => exact loading
  | next _ more step inductionHypothesis =>
      have holds := inductionHypothesis (by omega)
      exact holds.loadPage inMemory
        ((holds.morePages_iff inMemory isLoad (by omega)).mp more) step

/-- All pages of a segment are put in their places. -/
theorem Loading.loadPages (inMemory : InMemory memory start size base)
    (loading : Loading memory start base (DoneBefore pi 0) state)
    (isLoad : IsLoad memory start pi)
    (loaded : loadPages start (programHeader memory start pi) state =
      .ok state') :
    Loading memory start base (DoneBefore (pi + 1) 0) state' := by
  obtain ⟨last, bound, visits, stops⟩ := visits_of_whileLoop Visits.start loaded
  have holds := loading.of_pageVisits inMemory isLoad visits (by omega)
  rw [holds.morePages_iff inMemory isLoad (by omega)] at stops
  refine ⟨holds.ready, holds.intact, fun other below otherPage isDone => ?_⟩
  refine holds.placed other below otherPage ?_
  rcases isDone with less | ⟨_, none⟩
  · rcases Nat.lt_succ_iff_lt_or_eq.mp less with earlier | rfl
    · exact Or.inl earlier
    · have inSegment := otherPage.2
      have behind : ¬ 4096 * last < memszOf memory start other :=
        fun more => stops ⟨isLoad, more⟩
      exact Or.inr ⟨rfl, by omega⟩
  · exact absurd none (Nat.not_lt_zero below)

/-- The pages of a header that is not loaded do not matter. -/
theorem Loading.skip (loading : Loading memory start base (DoneBefore pi 0) state)
    (notLoad : ¬ IsLoad memory start pi) :
    Loading memory start base (DoneBefore (pi + 1) 0) state := by
  refine ⟨loading.ready, loading.intact, fun other below otherPage isDone => ?_⟩
  refine loading.placed other below otherPage ?_
  rcases isDone with less | ⟨_, none⟩
  · rcases Nat.lt_succ_iff_lt_or_eq.mp less with earlier | rfl
    · exact Or.inl earlier
    · exact absurd otherPage.1 notLoad
  · exact absurd none (Nat.not_lt_zero below)

theorem loading_of_visits
    (inMemory : InMemory state.mem start size state.usedMemory.toNat)
    (fresh : Fresh state)
    (visits : Visits (MoreSegments start)
      (loadSegment start (advance start (ePhoff state.mem start))) state pi
      state') :
    Loading state.mem start state.usedMemory.toNat (DoneBefore pi 0)
      state' := by
  induction visits with
  | start =>
      refine ⟨Ready.of_fresh fresh, fun _ _ => rfl, fun pi k _ isDone => ?_⟩
      rcases isDone with less | ⟨_, less⟩
      · exact absurd less (Nat.not_lt_zero pi)
      · exact absurd less (Nat.not_lt_zero k)
  | next _ more step holds =>
      rw [MoreSegments, inMemory.ePhnum_eq holds.intact] at more
      have typeEq := inMemory.pType_eq holds.intact more
      rw [programHeader] at typeEq
      rw [loadSegment, typeEq] at step
      split at step
      · next isLoad => exact holds.loadPages inMemory ⟨more, isLoad⟩ step
      · next notLoad =>
        cases step
        exact holds.skip fun isLoad => notLoad isLoad.2

/-- All segments are loaded. -/
theorem loading_of_loadSegments
    (inMemory : InMemory state.mem start size state.usedMemory.toNat)
    (fresh : Fresh state) (loaded : loadSegments start state = .ok state') :
    Loading state.mem start state.usedMemory.toNat (fun _ _ => True)
      state' := by
  obtain ⟨last, _, visits, stops⟩ := visits_of_whileLoop Visits.start loaded
  have holds := loading_of_visits inMemory fresh visits
  rw [MoreSegments, inMemory.ePhnum_eq holds.intact] at stops
  refine ⟨holds.ready, holds.intact, fun pi k segmentPage _ => ?_⟩
  exact holds.placed pi k segmentPage
    (Or.inl (Nat.lt_of_lt_of_le segmentPage.1.1 (Nat.le_of_not_lt stops)))

end Segments

/-! ## The whole call -/

section Kernel

variable {memory : Memory} {start : Pointer} {size base : Nat}
  {state state' loaded : Loader} {symbols : WindowSymbols} {entry : Word}

/-- No page of the image is one of those that `load_kernel` maps for the
window. -/
def AvoidsWindow (memory : Memory) (start : Pointer)
    (symbols : WindowSymbols) : Prop :=
  ∀ pi k, IsSegmentPage memory start pi k →
    segmentPageAddress memory start pi k ≠ symbols.physWindowPt ∧
    ∀ wi, wi < symbols.physWindowSize.toNat →
      segmentPageAddress memory start pi k ≠ windowPage symbols wi

/-- The window pages are mapped beside the image. -/
theorem Loading.mapWindowPages (inMemory : InMemory memory start size base)
    (loading : Loading memory start base (fun _ _ => True) state)
    (avoids : AvoidsWindow memory start symbols)
    (mapped : mapWindowPages symbols state = .ok state') :
    Loading memory start base (fun _ _ => True) state' := by
  refine forLoop_invariant
    (fun _ => Loading memory start base (fun _ _ => True)) (Nat.zero_le _)
    loading ?_ mapped
  intro wi before after _ inside holds step
  obtain ⟨result, stepMapped, step⟩ := ok_of_bind step
  obtain ⟨rfl, unwrapped⟩ := allocating_eq_ok step
  exact holds.mapped inMemory
    (fun pi k segmentPage _ => (avoids pi k segmentPage).2 wi inside)
    stepMapped unwrapped

theorem Loading.mapWindowPt (inMemory : InMemory memory start size base)
    (loading : Loading memory start base (fun _ _ => True) state)
    (avoids : AvoidsWindow memory start symbols)
    (mapped : mapWindowPt symbols state = .ok state') :
    Loading memory start base (fun _ _ => True) state' := by
  obtain ⟨result, stepMapped, step⟩ := ok_of_bind mapped
  obtain ⟨rfl, unwrapped⟩ := allocating_eq_ok step
  exact loading.mapped inMemory
    (fun pi k segmentPage _ => (avoids pi k segmentPage).1) stepMapped
    unwrapped

/-- A byte of a page in its place. -/
theorem Placed.byte {pi frame j : Nat}
    (placed : Placed memory start base pi (j / 4096) frame state) :
    ∃ cell flags,
      physicalAddress (translationOf state)
          (vaddrOf memory start pi + BitVec.ofNat 64 j) = some (cell, flags) ∧
        Has flags pagePBit ∧ Has flags pageRwBit ∧
        state.mem cell = segmentByte memory start pi j := by
  have split : 4096 * (j / 4096) + j % 4096 = j := Nat.div_add_mod j 4096
  have inside : j % 4096 < 4096 := Nat.mod_lt _ (by decide)
  have address : vaddrOf memory start pi + BitVec.ofNat 64 j =
      segmentPageAddress memory start pi (j / 4096) +
        BitVec.ofNat 64 (j % 4096) := by
    rw [segmentPageAddress, pageStart, BitVec.add_assoc, ← BitVec.ofNat_add,
      split]
  have below := placed.framed.below
  have bound := state.usedMemory.isLt
  have frameEq : (BitVec.ofNat 64 frame).toNat = frame := by
    rw [BitVec.toNat_ofNat, Nat.mod_eq_of_lt (by omega)]
  refine ⟨frame + j % 4096, imageFlags, ?_, by decide, by decide, ?_⟩
  · rw [address, physicalAddress_page_add placed.isPage.aligned inside,
      placed.mapped, Option.map_some, frameEq]
  · rw [placed.framed.content _ inside, split]

/-- When `load_kernel` returns true, every byte of every segment is where the
kernel expects it: the byte of the file, or 0 behind the file part. -/
theorem loadKernel_loads (fresh : Fresh state)
    (image : Image state.mem start size)
    (below : start.toNat + size ≤ state.usedMemory.toNat)
    (returned : loadKernel start state = .ok (.loaded entry, state'))
    (segments : loadSegments start state = .ok loaded)
    (found : findWindow loaded.mem start = .ok (.ok symbols))
    (avoids : AvoidsWindow state.mem start symbols) :
    ∀ pi j, IsLoad state.mem start pi → j < memszOf state.mem start pi →
      ∃ cell flags,
        physicalAddress (translationOf state')
            (vaddrOf state.mem start pi + BitVec.ofNat 64 j) =
          some (cell, flags) ∧
        Has flags pagePBit ∧ Has flags pageRwBit ∧
        state'.mem cell = segmentByte state.mem start pi j := by
  intro pi j isLoad inSegment
  obtain ⟨windowed, window, pt⟩ :=
    window_of_loadKernel returned segments found
  have inMemory : InMemory state.mem start size state.usedMemory.toNat :=
    ⟨image, below, fresh.aligned, state.usedMemory.isLt⟩
  have loading := loading_of_loadSegments inMemory fresh segments
  have last := (loading.mapWindowPages inMemory avoids window)
    |>.mapWindowPt inMemory avoids pt
  obtain ⟨frame, placed⟩ :=
    last.placed pi (j / 4096) ⟨isLoad, by omega⟩ trivial
  exact placed.byte

end Kernel

/-! ## A small image -/

/-- The number whose little-endian bytes are fields of the given values and
widths. -/
def fields : List (Nat × Nat) → Nat
  | [] => 0
  | (value, width) :: rest => value + 256 ^ width * fields rest

/-- The field of a string and its terminator. -/
def stringField (text : String) : Nat × Nat :=
  (text.toList.foldr (fun char rest => char.toNat + 256 * rest) 0,
    text.length + 1)

/-- A file of 414 bytes with one segment of 5000 bytes, whose file part is the
whole file. -/
def smallFile : Nat :=
  fields [
    -- the ELF header
    (0x00010102464c457f, 8), (0, 8), (2, 2), (62, 2), (1, 4),
    (0xffffff8000000000, 8), (64, 8), (120, 8), (0, 4), (64, 2), (56, 2),
    (1, 2), (64, 2), (2, 2), (0, 2),
    -- the program header
    (1, 4), (7, 4), (0, 8), (0xffffff8000000000, 8), (0, 8), (414, 8),
    (5000, 8), (0x1000, 8),
    -- the section headers of `.strtab` and `.symtab`
    (1, 4), (3, 4), (0, 16), (344, 8), (70, 8), (0, 24),
    (9, 4), (2, 4), (0, 16), (248, 8), (96, 8), (0, 16), (24, 8),
    -- the symbols
    (0, 24), (17, 8), (1, 16), (35, 8), (0xfffffffffffff000, 16), (54, 8),
    (0xffffffffffffe000, 16),
    stringField "", stringField ".strtab", stringField ".symtab",
    stringField "_phys_window_size", stringField "_phys_window_pages",
    stringField "_phys_window_pt"]

/-- A loader that has the file at 2 MiB. -/
def smallLoader : Loader where
  mem := fun cell =>
    if 0x200000 ≤ cell ∧ cell < 0x200000 + 414 then
      BitVec.ofNat 8 (smallFile / 256 ^ (cell - 0x200000))
    else
      0
  usedMemory := 0x300000#32
  pml4 := 0#32

theorem smallLoader_isLoad {pi : Nat}
    (isLoad : IsLoad smallLoader.mem 0x200000#32 pi) : pi = 0 := by
  have count : (ePhnum smallLoader.mem 0x200000#32).toNat = 1 := by
    decide +kernel
  have bound := isLoad.1
  omega

theorem smallLoader_image : Image smallLoader.mem 0x200000#32 414 := by
  have phoff : (ePhoff smallLoader.mem 0x200000#32).toNat = 64 := by
    decide +kernel
  have count : (ePhnum smallLoader.mem 0x200000#32).toNat = 1 := by
    decide +kernel
  have offset : offsetOf smallLoader.mem 0x200000#32 0 = 0 := by
    decide +kernel
  have filesz : fileszOf smallLoader.mem 0x200000#32 0 = 414 := by
    decide +kernel
  have memsz : memszOf smallLoader.mem 0x200000#32 0 = 5000 := by
    decide +kernel
  refine ⟨by decide, by decide, by omega, ?_, ?_, ?_, ?_, ?_, ?_, ?_⟩
  · intro pi isLoad
    rw [smallLoader_isLoad isLoad, offset]
  · intro pi isLoad
    rw [smallLoader_isLoad isLoad]
    omega
  · intro pi isLoad _
    rw [smallLoader_isLoad isLoad]
    omega
  · intro pi other isLoad otherLoad different
    rw [smallLoader_isLoad isLoad, smallLoader_isLoad otherLoad] at different
    exact absurd rfl different
  · intro pi other k below segmentPage otherPage different
    rw [smallLoader_isLoad segmentPage.1, smallLoader_isLoad otherPage.1]
      at different
    exact absurd rfl different
  · intro pi isLoad
    rw [smallLoader_isLoad isLoad, tailCells, offset, filesz]
    exact cells_disjoint (by omega)
  · intro pi isLoad
    rw [smallLoader_isLoad isLoad, tailCells, offset, filesz, phoff, count]
    exact cells_disjoint (by omega)

theorem smallLoader_address_lt {pi k : Nat}
    (segmentPage : IsSegmentPage smallLoader.mem 0x200000#32 pi k) :
    (segmentPageAddress smallLoader.mem 0x200000#32 pi k).toNat <
      0xffffff8000002000 := by
  have vaddr : (vaddrOf smallLoader.mem 0x200000#32 0).toNat =
      0xffffff8000000000 := by decide +kernel
  have memsz : memszOf smallLoader.mem 0x200000#32 0 = 5000 := by
    decide +kernel
  have inSegment := segmentPage.2
  rw [smallLoader_isLoad segmentPage.1, memsz] at inSegment
  rw [segmentPageAddress, smallLoader_isLoad segmentPage.1, BitVec.toNat_add,
    vaddr, toNat_pageStart (by omega)]
  omega

theorem smallLoader_avoids {symbols : WindowSymbols}
    (found : symbols = ⟨0xfffffffffffff000#64, 1#32, 0xffffffffffffe000#64⟩) :
    AvoidsWindow smallLoader.mem 0x200000#32 symbols := by
  intro pi k segmentPage
  have address := smallLoader_address_lt segmentPage
  subst found
  refine ⟨fun same => ?_, fun wi inWindow same => ?_⟩
  · rw [same] at address
    exact absurd address (by decide)
  · have first : wi = 0 := Nat.lt_one_iff.mp inWindow
    rw [same, first] at address
    exact absurd address (by decide)

/-- The small image is loaded. -/
theorem loadKernel_loads_small :
    ∃ state',
      loadKernel 0x200000#32 smallLoader =
        .ok (.loaded 0xffffff8000000000#64, state') ∧
      ∀ pi j, IsLoad smallLoader.mem 0x200000#32 pi →
        j < memszOf smallLoader.mem 0x200000#32 pi →
        ∃ cell flags,
          physicalAddress (translationOf state')
              (vaddrOf smallLoader.mem 0x200000#32 pi + BitVec.ofNat 64 j) =
            some (cell, flags) ∧
          Has flags pagePBit ∧ Has flags pageRwBit ∧
          state'.mem cell =
            segmentByte smallLoader.mem 0x200000#32 pi j := by
  have evaluated :
      (loadKernel 0x200000#32 smallLoader).toOption.map Prod.fst =
        some (.loaded 0xffffff8000000000#64) := by decide +kernel
  have symbolsEq :
      ((loadSegments 0x200000#32 smallLoader).toOption.bind fun loaded =>
        (findWindow loaded.mem 0x200000#32).toOption.bind
          Except.toOption) =
        some ⟨0xfffffffffffff000#64, 1#32, 0xffffffffffffe000#64⟩ := by
    decide +kernel
  cases returned : loadKernel 0x200000#32 smallLoader with
  | error halt =>
      rw [returned] at evaluated
      cases evaluated
  | ok result =>
      obtain ⟨verdict, state'⟩ := result
      rw [returned] at evaluated
      cases evaluated
      obtain ⟨loaded, segments, symbols, found⟩ :=
        symbols_of_loadKernel returned
      rw [segments] at symbolsEq
      simp only [Except.toOption, Option.bind_some, found] at symbolsEq
      exact ⟨state', rfl, loadKernel_loads ⟨rfl, by decide, by decide⟩
        smallLoader_image (by decide) returned segments found
        (smallLoader_avoids (Option.some.inj symbolsEq))⟩

end BeaverOS.Elf64

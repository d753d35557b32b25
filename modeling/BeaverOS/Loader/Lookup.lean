import Mathlib.Algebra.BigOperators.Group.Finset.Basic
import Mathlib.Algebra.Order.BigOperators.Group.Finset
import BeaverOS.Loader.Room
import BeaverOS.Loader.Symbols

/-!
# The symbols after the segments are loaded

`load_kernel` clears the last file page of a segment behind the file part, in
the image itself, and searches the section tables of this image afterwards. A
table that lies in such a tail is erased. What the segment loop leaves of the
image is the original without the tails, so the search finds the symbols of
the file just when the tails miss the tables.
-/

namespace BeaverOS.Elf64

open BeaverOS.ByteMemory
open BeaverOS.Loop
open BeaverOS.Paging
open BeaverOS.Window
open BeaverOS.PageTree
open BeaverOS.LoaderPaging

/-! ## The image without the tails -/

/-- `mem` is the image `memory` with the tails cleared that come before page
`k` of segment `pi`. -/
structure Erased (memory : Memory) (start : Pointer) (base pi k : Nat)
    (mem : Memory) : Prop where
  cleared :
    ∀ other cell, IsLoad memory start other →
      cell ∈ tailCells memory start other →
      DoneBefore pi k other (fileszOf memory start other / 4096) →
      mem (start.toNat + cell) = 0
  kept :
    ∀ cell, start.toNat + cell < base →
      (∀ other, IsLoad memory start other →
        DoneBefore pi k other (fileszOf memory start other / 4096) →
        cell ∉ tailCells memory start other) →
      mem (start.toNat + cell) = memory (start.toNat + cell)

/-- The tails meet `places` only in bytes that are 0 anyway. -/
def TailsMiss (memory : Memory) (start : Pointer) (places : Set Nat) : Prop :=
  ∀ pi cell, IsLoad memory start pi → cell ∈ tailCells memory start pi →
    cell ∈ places → memory (start.toNat + cell) = 0

section Tails

variable {memory mem mem' : Memory} {start : Pointer} {base pi k cell : Nat}
  {places : Set Nat}

theorem mem_tailCells (aligned : offsetOf memory start pi % 4096 = 0) :
    cell ∈ tailCells memory start pi ↔
      fileszOf memory start pi % 4096 ≠ 0 ∧
        offsetOf memory start pi + fileszOf memory start pi ≤ cell ∧
        cell < offsetOf memory start pi +
          (4096 * (fileszOf memory start pi / 4096) + 4096) := by
  rw [tailCells, mem_cells]
  omega

/-- In places that the tails miss, the image is as before. -/
theorem Erased.eq_of_tailsMiss (erased : Erased memory start base pi k mem)
    (miss : TailsMiss memory start places) (below : start.toNat + cell < base)
    (inside : cell ∈ places) :
    mem (start.toNat + cell) = memory (start.toNat + cell) := by
  by_cases inTail : ∃ other, IsLoad memory start other ∧
      DoneBefore pi k other (fileszOf memory start other / 4096) ∧
      cell ∈ tailCells memory start other
  · obtain ⟨other, isLoad, done, inTail⟩ := inTail
    rw [erased.cleared other cell isLoad inTail done,
      miss other cell isLoad inTail inside]
  · exact erased.kept cell below fun other isLoad done member =>
      inTail ⟨other, isLoad, done, member⟩

theorem Erased.initial : Erased memory start base 0 0 memory := by
  refine ⟨fun other cell _ _ done => ?_, fun _ _ _ => rfl⟩
  rcases done with less | ⟨_, less⟩
  · exact absurd less (Nat.not_lt_zero _)
  · exact absurd less (Nat.not_lt_zero _)

/-- Stores from the first free page on leave the image. -/
theorem Erased.agree (erased : Erased memory start base pi k mem)
    (same : ∀ cell, cell < base → mem' cell = mem cell)
    (tails : ∀ pi cell, IsLoad memory start pi →
      cell ∈ tailCells memory start pi → start.toNat + cell < base) :
    Erased memory start base pi k mem' := by
  refine ⟨fun other cell isLoad inTail done => ?_,
    fun cell below notErased => ?_⟩
  · rw [same _ (tails other cell isLoad inTail)]
    exact erased.cleared other cell isLoad inTail done
  · rw [same _ below]
    exact erased.kept cell below notErased

/-- The tails before the next page are those before this one and, if the file
part ends in this page, its tail. -/
theorem doneBefore_succ_iff {other below : Nat} :
    DoneBefore pi (k + 1) other below ↔
      DoneBefore pi k other below ∨ other = pi ∧ below = k := by
  simp only [DoneBefore]
  omega

/-- A page in which no file part ends. -/
theorem Erased.next (erased : Erased memory start base pi k mem)
    (aligned : ∀ pi, IsLoad memory start pi →
      offsetOf memory start pi % 4096 = 0)
    (noEnd : ¬ (4096 * k < fileszOf memory start pi ∧
      fileszOf memory start pi < 4096 * k + 4096)) :
    Erased memory start base pi (k + 1) mem := by
  refine ⟨fun other cell isLoad inTail done => ?_,
    fun cell below notErased => erased.kept cell below fun other isLoad done =>
      notErased other isLoad (doneBefore_succ_iff.mpr (Or.inl done))⟩
  rcases doneBefore_succ_iff.mp done with before | ⟨rfl, here⟩
  · exact erased.cleared other cell isLoad inTail before
  · rw [mem_tailCells (aligned _ isLoad)] at inTail
    omega

/-- The page in which the file part ends is cleared behind it. -/
theorem Erased.clear (erased : Erased memory start base pi k mem)
    (aligned : ∀ pi, IsLoad memory start pi →
      offsetOf memory start pi % 4096 = 0)
    (isLoad : IsLoad memory start pi)
    (inFile : 4096 * k < fileszOf memory start pi)
    (ends : fileszOf memory start pi < 4096 * k + 4096) :
    Erased memory start base pi (k + 1)
      (fill mem
        (start.toNat + offsetOf memory start pi + fileszOf memory start pi)
        (4096 * k + 4096 - fileszOf memory start pi) 0) := by
  have page : fileszOf memory start pi / 4096 = k := by omega
  have tail : ∀ cell, cell ∈ tailCells memory start pi ↔
      offsetOf memory start pi + fileszOf memory start pi ≤ cell ∧
        cell < offsetOf memory start pi + (4096 * k + 4096) := by
    intro cell
    rw [mem_tailCells (aligned pi isLoad), page]
    omega
  refine ⟨fun other cell otherLoad inTail done => ?_,
    fun cell below notErased => ?_⟩
  · by_cases inHere : cell ∈ tailCells memory start pi
    · rw [tail] at inHere
      exact fill_inside (by omega) (by omega)
    · have outside := inHere
      rw [tail] at outside
      rw [fill_outside (by omega)]
      rcases doneBefore_succ_iff.mp done with before | ⟨rfl, _⟩
      · exact erased.cleared other cell otherLoad inTail before
      · exact absurd inTail inHere
  · have outside := notErased pi isLoad
      (doneBefore_succ_iff.mpr (Or.inr ⟨rfl, page⟩))
    rw [tail] at outside
    rw [fill_outside (by omega)]
    exact erased.kept cell below fun other otherLoad done =>
      notErased other otherLoad (doneBefore_succ_iff.mpr (Or.inl done))

/-- All tails of a segment are cleared once its pages are done, and a header
that is not loaded has none. -/
theorem Erased.nextSegment (erased : Erased memory start base pi k mem)
    (aligned : ∀ pi, IsLoad memory start pi →
      offsetOf memory start pi % 4096 = 0)
    (whole : IsLoad memory start pi → fileszOf memory start pi ≤ 4096 * k) :
    Erased memory start base (pi + 1) 0 mem := by
  have done_iff : ∀ other, IsLoad memory start other →
      fileszOf memory start other % 4096 ≠ 0 →
      (DoneBefore (pi + 1) 0 other (fileszOf memory start other / 4096) ↔
        DoneBefore pi k other (fileszOf memory start other / 4096)) := by
    intro other isLoad partPage
    simp only [DoneBefore]
    by_cases here : other = pi
    · subst here
      have pages := whole isLoad
      omega
    · omega
  refine ⟨fun other cell isLoad inTail done => ?_,
    fun cell below notErased => ?_⟩
  · have partPage := ((mem_tailCells (aligned _ isLoad)).mp inTail).1
    exact erased.cleared other cell isLoad inTail
      ((done_iff other isLoad partPage).mp done)
  · refine erased.kept cell below fun other isLoad done inTail => ?_
    have partPage := ((mem_tailCells (aligned _ isLoad)).mp inTail).1
    exact notErased other isLoad ((done_iff other isLoad partPage).mpr done)
      inTail

end Tails

/-! ## Reading the program headers -/

section Headers

variable {memory mem : Memory} {start : Pointer}
  {fileSize strtab symtab pi offset count : Nat}

/-- `mem` has the bytes of the fields of the ELF header and the program
headers. -/
def SameHeaders (memory mem : Memory) (start : Pointer) : Prop :=
  ∀ cell ∈ headerCells memory start,
    mem (start.toNat + cell) = memory (start.toNat + cell)

variable (file : KernelFile memory start fileSize strtab symtab)
  (fits : start.toNat + fileSize < 2 ^ 32)
  (same : SameHeaders memory mem start)
include file fits

theorem KernelFile.toNat_programHeader
    (inTable : pi < (ePhnum memory start).toNat) :
    (programHeader memory start pi).toNat =
      start.toNat + ((ePhoff memory start).toNat + 56 * pi) := by
  have inside := file.table_inside
  exact toNat_element (toNat_advance start _ (by omega)) (by omega)

include same

omit file in
theorem SameHeaders.readLE_eq {pointer : Pointer} {place : Nat}
    (pointerEq : pointer.toNat = start.toNat + place)
    (bound : place + offset + count ≤ fileSize)
    (inside : ∀ cell, place + offset ≤ cell → cell < place + offset + count →
      cell ∈ headerCells memory start) :
    readLE mem (pointer + BitVec.ofNat 32 offset).toNat count =
      readLE memory (pointer + BitVec.ofNat 32 offset).toNat count := by
  refine readLE_congr fun cell lower upper => ?_
  rw [toNat_add_ofNat (by omega), pointerEq] at lower upper
  obtain ⟨position, rfl⟩ : ∃ position, cell = start.toNat + position :=
    ⟨cell - start.toNat, by omega⟩
  exact same position (inside position (by omega) (by omega))

theorem KernelFile.ePhnum_same : ePhnum mem start = ePhnum memory start := by
  have header := file.header_inside
  rw [ePhnum, elf64Half, same.readLE_eq fits (Nat.add_zero _).symm
    (by omega) fun cell lower upper =>
      Or.inl (mem_fieldCells (by decide) lower upper)]
  rfl

/-- A field of a program header. -/
theorem KernelFile.program_same (inTable : pi < (ePhnum memory start).toNat)
    (listed : (offset, count) ∈ programFields) :
    readLE mem (programHeader memory start pi +
        BitVec.ofNat 32 offset).toNat count =
      readLE memory (programHeader memory start pi +
        BitVec.ofNat 32 offset).toNat count := by
  have inside := file.table_inside
  have field := programFields_le _ listed
  exact same.readLE_eq fits (file.toNat_programHeader fits inTable)
    (by omega) fun cell lower upper =>
      Or.inr ⟨pi, inTable, mem_fieldCells listed lower upper⟩

theorem KernelFile.pType_same (inTable : pi < (ePhnum memory start).toNat) :
    pType mem (programHeader memory start pi) =
      pType memory (programHeader memory start pi) := by
  rw [pType, elf64Word, file.program_same fits same inTable (by decide)]
  rfl

theorem KernelFile.xword_same (inTable : pi < (ePhnum memory start).toNat)
    (listed : (offset, 8) ∈ programFields) :
    elf64Xword mem (programHeader memory start pi) offset =
      elf64Xword memory (programHeader memory start pi) offset := by
  rw [elf64Xword, file.program_same fits same inTable listed]
  rfl

end Headers

/-! ## The pages that a kernel file needs -/

section Pages

variable (memory : Memory) (start : Pointer)

instance (pi : Nat) : Decidable (IsLoad memory start pi) :=
  inferInstanceAs (Decidable (_ ∧ _))

/-- The number of pages of segment `pi`. -/
def pageCount (pi : Nat) : Nat :=
  if IsLoad memory start pi then (memszOf memory start pi + 4095) / 4096
  else 0

/-- How many of the first `k` pages of segment `pi` lie behind the file
part. -/
def newPages (pi k : Nat) : Nat :=
  k - (fileszOf memory start pi + 4095) / 4096

/-- The pages of all segments. -/
def imagePages : List Word :=
  (List.range (ePhnum memory start).toNat).flatMap fun pi =>
    (List.range (pageCount memory start pi)).map
      (segmentPageAddress memory start pi)

/-- The pages that were made before page `k` of segment `pi`. -/
def madeBefore (pi k : Nat) : Nat :=
  (Finset.range pi).sum (fun other =>
    newPages memory start other (pageCount memory start other)) +
    newPages memory start pi k

/-- The paths of all tables that `load_kernel` needs. -/
def kernelPaths (symbols : WindowSymbols) : Finset (List Index) :=
  allTablePaths (imagePages memory start ++
    (List.range symbols.physWindowSize.toNat).map (windowPage symbols) ++
    [symbols.physWindowPt])

/-- All pages that `load_kernel` makes and all tables that it links fit below
4 GiB. -/
def HasRoom (symbols : WindowSymbols) (base : Nat) : Prop :=
  base + 4096 *
    (madeBefore memory start (ePhnum memory start).toNat 0 +
      (kernelPaths memory start symbols).card) < 2 ^ 32

variable {memory start} {pi k : Nat} {symbols : WindowSymbols}

theorem isSegmentPage_iff :
    IsSegmentPage memory start pi k ↔ k < pageCount memory start pi := by
  rw [IsSegmentPage, pageCount]
  split
  · next isLoad =>
    rw [and_iff_right isLoad]
    omega
  · next notLoad => simp [notLoad]

theorem segmentPage_paths (segmentPage : IsSegmentPage memory start pi k) :
    tablePaths (segmentPageAddress memory start pi k) ⊆
      kernelPaths memory start symbols := by
  have member : segmentPageAddress memory start pi k ∈
      imagePages memory start := by
    rw [imagePages, List.mem_flatMap]
    exact ⟨pi, List.mem_range.mpr segmentPage.1.1, List.mem_map.mpr
      ⟨k, List.mem_range.mpr (isSegmentPage_iff.mp segmentPage), rfl⟩⟩
  exact tablePaths_subset (List.mem_append_left _
    (List.mem_append_left _ member))

theorem madeBefore_mono {other below : Nat} (ordered : pi < other)
    (inSegment : k ≤ pageCount memory start pi) :
    madeBefore memory start pi k ≤ madeBefore memory start other below := by
  have segment : newPages memory start pi k ≤
      newPages memory start pi (pageCount memory start pi) := by
    rw [newPages, newPages]
    omega
  have sums : (Finset.range (pi + 1)).sum (fun other =>
      newPages memory start other (pageCount memory start other)) ≤
      (Finset.range other).sum fun other =>
        newPages memory start other (pageCount memory start other) :=
    Finset.sum_le_sum_of_subset (Finset.range_mono ordered)
  rw [Finset.sum_range_succ] at sums
  rw [madeBefore, madeBefore]
  omega

end Pages

/-! ## The segment loop -/

/-- A kernel file that `load_kernel` can load, of whose headers no tail reaches
a field that is still read. `base` is the first free page. -/
structure Loadable (memory : Memory) (start : Pointer)
    (fileSize strtab symtab base : Nat) (symbols : WindowSymbols) : Prop where
  file : KernelFile memory start fileSize strtab symtab
  below : start.toNat + fileSize ≤ base
  base_aligned : base % 4096 = 0
  base_bounded : base < 2 ^ 32
  headers : TailsMiss memory start (headerCells memory start)
  room : HasRoom memory start symbols base

/-- The segment loop has come to page `k` of segment `pi`. -/
structure Loaded (memory : Memory) (start : Pointer) (base : Nat)
    (symbols : WindowSymbols) (pi k : Nat) (state : Loader) : Prop where
  built :
    ∃ paths, paths ⊆ kernelPaths memory start symbols ∧
      Built base paths (madeBefore memory start pi k) state
  erased : Erased memory start base pi k state.mem

section Rounds

variable {memory mem : Memory} {start : Pointer}
  {fileSize strtab symtab base pi k : Nat} {symbols : WindowSymbols}
  {state : Loader}
  (loadable : Loadable memory start fileSize strtab symtab base symbols)
include loadable

theorem Loadable.tail_lt {cell : Nat} (isLoad : IsLoad memory start pi)
    (inTail : cell ∈ tailCells memory start pi) :
    start.toNat + cell < base := by
  have aligned := loadable.file.aligned
  have offsetAligned := loadable.file.offset_aligned pi isLoad
  have baseAligned := loadable.base_aligned
  have below := loadable.below
  rw [mem_tailCells offsetAligned] at inTail
  have inside := loadable.file.inside pi isLoad (by omega)
  omega

theorem Loadable.sameHeaders (erased : Erased memory start base pi k mem) :
    SameHeaders memory mem start := by
  have header := loadable.file.header_inside
  have table := loadable.file.table_inside
  have below := loadable.below
  intro cell inside
  have bound := lt_of_mem_headerCells inside
  exact erased.eq_of_tailsMiss loadable.headers (by omega) inside

/-- All that is made and linked up to some page fits. -/
theorem Loadable.fits {paths : Finset (List Index)}
    (inTable : pi < (ePhnum memory start).toNat)
    (inSegment : k ≤ pageCount memory start pi)
    (part : paths ⊆ kernelPaths memory start symbols) :
    base + 4096 * (madeBefore memory start pi k + paths.card) < 2 ^ 32 := by
  have room := loadable.room
  have made := @madeBefore_mono memory start pi k
    (ePhnum memory start).toNat 0 inTable inSegment
  have tables := Finset.card_le_card part
  rw [HasRoom] at room
  omega

omit loadable in
theorem allocating_of_le {before after : Loader}
    (grown : before.usedMemory.toNat ≤ after.usedMemory.toNat) :
    allocating before after = .ok after := by
  rw [allocating, if_pos grown]

/-- The fields of a program header are still those of the file. -/
theorem Loadable.sameFields (erased : Erased memory start base pi k mem)
    (inTable : pi < (ePhnum memory start).toNat) :
    pOffset mem (programHeader memory start pi) =
        pOffset memory (programHeader memory start pi) ∧
      pFilesz mem (programHeader memory start pi) =
        pFilesz memory (programHeader memory start pi) := by
  have below := loadable.below
  have bounded := loadable.base_bounded
  have same := loadable.sameHeaders erased
  have fits : start.toNat + fileSize < 2 ^ 32 := by omega
  exact ⟨loadable.file.xword_same fits same inTable (by decide),
    loadable.file.xword_same fits same inTable (by decide)⟩

/-- A page that begins in the file part is a page of the image. Its end is
cleared where the file part ends on it. -/
theorem Loadable.segmentPage_inFile
    (loaded : Loaded memory start base symbols pi k state)
    (segmentPage : IsSegmentPage memory start pi k) (small : k < 2 ^ 52)
    (inFile : 4096 * k < fileszOf memory start pi) :
    ∃ page prepared,
      Elf64.segmentPage start (programHeader memory start pi) (pageStart k)
        state = .ok (page, prepared) ∧
      IsFrame (page.setWidth 64) ∧
      Loaded memory start base symbols pi (k + 1) prepared := by
  obtain ⟨⟨paths, part, built⟩, erased⟩ := loaded
  have isLoad := segmentPage.1
  have aligned := loadable.file.offset_aligned
  have startAligned := loadable.file.aligned
  have offsetAligned := aligned pi isLoad
  have below := loadable.below
  have bounded := loadable.base_bounded
  have used := built.used
  obtain ⟨offsetEq, fileszEq⟩ := loadable.sameFields erased isLoad.1
  have inside := loadable.file.inside pi isLoad (by omega)
  obtain ⟨page, pageEq, found⟩ := segmentPage_file offsetEq fileszEq small
    (show start.toNat + offsetOf memory start pi +
      fileszOf memory start pi < 2 ^ 32 by omega) inFile
  rw [← offsetOf] at pageEq
  rw [← offsetOf, ← fileszOf] at found
  have frame : IsFrame (page.setWidth 64) := by
    rw [isFrame_iff, BitVec.toNat_setWidth,
      Nat.mod_eq_of_lt (Nat.lt_trans page.isLt (by decide)), pageEq]
    omega
  have made : madeBefore memory start pi (k + 1) =
      madeBefore memory start pi k := by
    rw [madeBefore, madeBefore, newPages, newPages]
    omega
  refine ⟨page, _, found, frame, ?_⟩
  by_cases ends : fileszOf memory start pi < 4096 * k + 4096
  · rw [if_pos ends]
    have tail := agreeOff_fill state.mem
      (start.toNat + offsetOf memory start pi + fileszOf memory start pi)
      (4096 * k + 4096 - fileszOf memory start pi) 0
    have quiet := built.ready.quiet_of_below tail (by
      intro cell inTail
      have baseAligned := loadable.base_aligned
      rw [mem_cells] at inTail
      omega)
    refine ⟨⟨paths, part, ?_⟩, erased.clear aligned isLoad inFile ends⟩
    rw [made]
    exact built.quiet quiet
      (show _ = state.usedMemory.toNat + 4096 * 0 from rfl)
  · rw [if_neg ends]
    refine ⟨⟨paths, part, ?_⟩, erased.next aligned (by omega)⟩
    rw [made]
    exact built

/-- A page behind the file part is a new one. -/
theorem Loadable.segmentPage_behind
    (loaded : Loaded memory start base symbols pi k state)
    (segmentPage : IsSegmentPage memory start pi k) (small : k < 2 ^ 52)
    (behind : ¬ 4096 * k < fileszOf memory start pi) :
    ∃ page prepared,
      Elf64.segmentPage start (programHeader memory start pi) (pageStart k)
        state = .ok (page, prepared) ∧
      IsFrame (page.setWidth 64) ∧
      Loaded memory start base symbols pi (k + 1) prepared := by
  obtain ⟨⟨paths, part, built⟩, erased⟩ := loaded
  have isLoad := segmentPage.1
  have aligned := loadable.file.offset_aligned
  have used := built.used
  obtain ⟨-, fileszEq⟩ := loadable.sameFields erased isLoad.1
  have made : madeBefore memory start pi (k + 1) =
      madeBefore memory start pi k + 1 := by
    rw [madeBefore, madeBefore, newPages, newPages]
    omega
  have roomy : base + 4096 *
      (madeBefore memory start pi (k + 1) + paths.card) < 2 ^ 32 :=
    loadable.fits isLoad.1 (isSegmentPage_iff.mp segmentPage) part
  have newFits : state.usedMemory.toNat + 4096 < 2 ^ 32 := by omega
  have usedEq : (newPhysZeroPage state).2.usedMemory.toNat =
      state.usedMemory.toNat + 4096 := toNat_newPage newFits
  have quiet := quiet_of_step built.ready.aligned built.ready.good
    (Step.newZeroPage newFits) (by simp)
  refine ⟨state.usedMemory, (newPhysZeroPage state).2, ?_, ?_,
    ⟨paths, part, ?_⟩, ?_⟩
  · rw [segmentPage_new fileszEq small (Nat.le_of_not_lt behind),
      allocating_of_le (by omega)]
    rfl
  · have usedAligned := built.ready.aligned
    rw [isFrame_iff, BitVec.toNat_setWidth,
      Nat.mod_eq_of_lt (Nat.lt_trans state.usedMemory.isLt (by decide))]
    omega
  · rw [made]
    exact built.quiet quiet usedEq
  · refine (erased.agree ?_ fun _ _ => loadable.tail_lt).next aligned
      fun inside => behind inside.1
    intro cell beneath
    exact fill_outside (by omega)

/-- The page for the next round. -/
theorem Loadable.segmentPage
    (loaded : Loaded memory start base symbols pi k state)
    (segmentPage : IsSegmentPage memory start pi k) :
    ∃ page prepared,
      Elf64.segmentPage start (programHeader memory start pi) (pageStart k)
        state = .ok (page, prepared) ∧
      IsFrame (page.setWidth 64) ∧
      Loaded memory start base symbols pi (k + 1) prepared := by
  have small : k < 2 ^ 52 := by
    have bound := (pMemsz memory (programHeader memory start pi)).isLt
    have inSegment := segmentPage.2
    rw [memszOf] at inSegment
    omega
  by_cases inFile : 4096 * k < fileszOf memory start pi
  · exact loadable.segmentPage_inFile loaded segmentPage small inFile
  · exact loadable.segmentPage_behind loaded segmentPage small inFile

/-- The body of the loop over the pages. -/
theorem Loadable.loadPage
    (loaded : Loaded memory start base symbols pi k state)
    (segmentPage : IsSegmentPage memory start pi k) :
    ∃ state',
      Elf64.loadPage start (programHeader memory start pi) (pageStart k)
        state = .ok state' ∧
      Loaded memory start base symbols pi (k + 1) state' := by
  obtain ⟨page, prepared, found, frame, ⟨paths, part, built⟩, erased⟩ :=
    loadable.segmentPage loaded segmentPage
  have below := loadable.below
  have bounded := loadable.base_bounded
  have same := loadable.sameHeaders erased
  have address : pVaddr prepared.mem (programHeader memory start pi) +
      pageStart k = segmentPageAddress memory start pi k := by
    rw [segmentPageAddress, vaddrOf, pVaddr, pVaddr,
      loadable.file.xword_same (by omega) same segmentPage.1.1 (by decide)]
  have more : paths ∪ tablePaths (segmentPageAddress memory start pi k) ⊆
      kernelPaths memory start symbols :=
    Finset.union_subset part (segmentPage_paths segmentPage)
  obtain ⟨state', mapped, unwrapped, agree, built'⟩ :=
    @Built.mapPage prepared base _ _ _ (pageRwBit ||| pageGBit) paths built
      (loadable.file.pages pi k segmentPage) frame
      (loadable.fits segmentPage.1.1 (isSegmentPage_iff.mp segmentPage) more)
  refine ⟨state', ?_, ⟨_, more, built'⟩, ?_⟩
  · simp only [Elf64.loadPage, found, bind, Except.bind, address, mapped,
      allocating_of_le unwrapped]
  · refine erased.agree (fun cell beneath => agree cell ?_)
      fun _ _ => loadable.tail_lt
    rintro (above | ⟨table, linked, inTable⟩)
    · have baseLe := built.ready.base_le
      omega
    · have above := built.ready.linked_above table linked
      rw [mem_cells] at inTable
      omega

end Rounds

section Loops

variable {memory : Memory} {start : Pointer}
  {fileSize strtab symtab base pi k : Nat} {symbols : WindowSymbols}
  {state : Loader}
  (loadable : Loadable memory start fileSize strtab symtab base symbols)
include loadable

/-- The memory limits the number of pages. -/
theorem Loadable.pageCount_lt (inTable : pi < (ePhnum memory start).toNat) :
    pageCount memory start pi < 2 ^ 32 := by
  have below := loadable.below
  have bounded := loadable.base_bounded
  have roomy : base + 4096 * (madeBefore memory start pi
      (pageCount memory start pi) + (∅ : Finset (List Index)).card) < 2 ^ 32 :=
    loadable.fits inTable (Nat.le_refl _) (Finset.empty_subset _)
  by_cases isLoad : IsLoad memory start pi
  · have inside := loadable.file.inside pi isLoad
    rw [madeBefore, newPages] at roomy
    omega
  · rw [pageCount, if_neg isLoad]
    decide

/-- All pages of a program header are done. -/
theorem Loadable.nextSegment
    (loaded : Loaded memory start base symbols pi (pageCount memory start pi)
      state) :
    Loaded memory start base symbols (pi + 1) 0 state := by
  obtain ⟨⟨paths, part, built⟩, erased⟩ := loaded
  have made : madeBefore memory start (pi + 1) 0 =
      madeBefore memory start pi (pageCount memory start pi) := by
    have none : newPages memory start (pi + 1) 0 = 0 := Nat.zero_sub _
    rw [madeBefore, madeBefore, Finset.sum_range_succ, none, Nat.add_zero]
  refine ⟨⟨paths, part, by rw [made]; exact built⟩,
    erased.nextSegment loadable.file.offset_aligned fun isLoad => ?_⟩
  have fileszLe := loadable.file.filesz_le pi isLoad
  rw [pageCount, if_pos isLoad]
  omega

/-- The loop over the pages of a segment. -/
theorem Loadable.loadPages (isLoad : IsLoad memory start pi)
    (loaded : Loaded memory start base symbols pi 0 state) :
    ∃ state',
      loadPages start (programHeader memory start pi) state = .ok state' ∧
      Loaded memory start base symbols (pi + 1) 0 state' := by
  have few := loadable.pageCount_lt isLoad.1
  have below := loadable.below
  have bounded := loadable.base_bounded
  have goesOn : ∀ (k : Nat) (here : Loader),
      k ≤ pageCount memory start pi →
      Loaded memory start base symbols pi k here →
      (MorePages (programHeader memory start pi) k here ↔
        k < pageCount memory start pi) := by
    intro k here bound holds
    have same := loadable.sameHeaders holds.erased
    have memszEq : pMemsz here.mem (programHeader memory start pi) =
        pMemsz memory (programHeader memory start pi) :=
      loadable.file.xword_same (by omega) same isLoad.1 (by decide)
    rw [MorePages, memszEq, BitVec.lt_def, toNat_pageStart (by omega),
      ← isSegmentPage_iff, IsSegmentPage, and_iff_right isLoad, memszOf]
  obtain ⟨state', returned, holds⟩ := whileLoop_returns
    (Loaded memory start base symbols pi) Halt.fault
    (Nat.zero_le (pageCount memory start pi)) loaded goesOn
    (fun k here _ bound holds =>
      loadable.loadPage holds (isSegmentPage_iff.mpr bound))
    (show _ < 0 + 2 ^ 52 by omega)
  exact ⟨state', returned, loadable.nextSegment holds⟩

/-- The loop over the program headers. -/
theorem Loadable.loadSegments (memEq : state.mem = memory)
    (loaded : Loaded memory start base symbols 0 0 state) :
    ∃ state', Elf64.loadSegments start state = .ok state' ∧
      Loaded memory start base symbols (ePhnum memory start).toNat 0
        state' := by
  have below := loadable.below
  have bounded := loadable.base_bounded
  have few := (ePhnum memory start).isLt
  rw [Elf64.loadSegments, memEq]
  refine whileLoop_returns
    (fun pi state => Loaded memory start base symbols pi 0 state) Halt.fault
    (Nat.zero_le _) loaded ?_ ?_ (show _ < 0 + 2 ^ 16 by omega)
  · intro pi here _ holds
    have same := loadable.sameHeaders holds.erased
    rw [MoreSegments, loadable.file.ePhnum_same (by omega) same]
  · intro pi here _ inTable holds
    have same := loadable.sameHeaders holds.erased
    have typeEq := loadable.file.pType_same (by omega) same inTable
    rw [programHeader] at typeEq
    rw [loadSegment, typeEq]
    split
    · next isLoad => exact loadable.loadPages ⟨inTable, isLoad⟩ holds
    · next notLoad =>
      have none : pageCount memory start pi = 0 :=
        if_neg fun isLoad => notLoad isLoad.2
      refine ⟨here, rfl, loadable.nextSegment ?_⟩
      rw [none]
      exact holds

end Loops

/-! ## The whole call -/

/-- The symbols that the kernel exports for its window. The window consists of
canonical pages. -/
structure Exports (memory : Memory) (start : Pointer) (strtab symtab : Nat)
    (pages size pt : Word) : Prop where
  pages_defined :
    Defines memory start strtab symtab "_phys_window_pages" pages
  size_defined : Defines memory start strtab symtab "_phys_window_size" size
  pt_defined : Defines memory start strtab symtab "_phys_window_pt" pt
  pages_nonzero : pages ≠ 0
  size_nonzero : size ≠ 0
  pt_nonzero : pt ≠ 0
  window :
    ∀ wi, wi < size.toNat → IsPage (pages + BitVec.ofNat 64 (4096 * wi))
  pt_isPage : IsPage pt

/-- `load_kernel` returns true and uses the values of the file's symbols, and
its segment loop leaves the section tables. -/
def LookupSurvives (start : Pointer) (state : Loader) (strtab symtab : Nat)
    (pages size pt : Word) : Prop :=
  ∃ loaded symbols entry state',
    loadSegments start state = .ok loaded ∧
    (∀ cell ∈ tableCells state.mem start strtab symtab,
      loaded.mem (start.toNat + cell) = state.mem (start.toNat + cell)) ∧
    findWindow loaded.mem start = .ok (.ok symbols) ∧
    symbols.physWindowPages = pages ∧
    symbols.physWindowSize.toNat = size.toNat ∧
    symbols.physWindowPt = pt ∧
    loadKernel start state = .ok (.loaded entry, state')

section Whole

variable {memory : Memory} {start : Pointer} {state loaded : Loader}
  {fileSize strtab symtab base count : Nat} {pages size pt : Word}
  {symbols : WindowSymbols} {paths : Finset (List Index)}

theorem Exports.isPage_windowPage {wi : Nat}
    (exports : Exports memory start strtab symtab pages size pt)
    (sizeLt : size.toNat < 2 ^ 32) (inside : wi < size.toNat) :
    IsPage (windowPage ⟨pages, size.setWidth 32, pt⟩ wi) := by
  have shifted : ((BitVec.ofNat 32 wi) <<< 12).setWidth 64 =
      BitVec.ofNat 64 (4096 * (wi % 2 ^ 20)) := by
    apply BitVec.eq_of_toNat_eq
    rw [BitVec.toNat_setWidth, BitVec.toNat_shiftLeft, BitVec.toNat_ofNat,
      BitVec.toNat_ofNat, Nat.shiftLeft_eq]
    omega
  rw [windowPage, shifted]
  exact exports.window _ (by omega)

/-- The loop over the window pages. -/
theorem Built.mapWindowPages
    (built : Built base paths count state) (all : Finset (List Index))
    (part : paths ⊆ all)
    (pagesPart : ∀ wi, wi < symbols.physWindowSize.toNat →
      tablePaths (windowPage symbols wi) ⊆ all)
    (canonical : ∀ wi, wi < symbols.physWindowSize.toNat →
      IsPage (windowPage symbols wi))
    (fits : base + 4096 * (count + all.card) < 2 ^ 32) :
    ∃ state', mapWindowPages symbols state = .ok state' ∧
      ∃ paths, paths ⊆ all ∧ Built base paths count state' := by
  refine forLoop_returns
    (fun _ state => ∃ paths, paths ⊆ all ∧ Built base paths count state)
    (Nat.zero_le _) ⟨paths, part, built⟩ ?_
  rintro wi here _ inside ⟨before, beforePart, holds⟩
  have more := Finset.union_subset beforePart (pagesPart wi inside)
  have fewer := Finset.card_le_card more
  obtain ⟨state', mapped, unwrapped, _, holds'⟩ :=
    @Built.mapPage here base count _ 0#64 (pageRwBit ||| pageGBit) before holds
      (canonical wi inside) isFrame_zero (by omega)
  refine ⟨state', ?_, _, more, holds'⟩
  simp only [mapWindowPage, mapped, bind, Except.bind,
    allocating_of_le unwrapped]

theorem Built.mapWindowPt
    (built : Built base paths count state) (isPage : IsPage symbols.physWindowPt)
    (fits : base + 4096 *
      (count + (paths ∪ tablePaths symbols.physWindowPt).card) < 2 ^ 32) :
    ∃ state', mapWindowPt symbols state = .ok state' := by
  have aligned := built.ready.aligned
  have above := built.ready.above
  have bound := state.usedMemory.isLt
  have frame : IsFrame ((state.usedMemory - 0x1000#32).setWidth 64) := by
    rw [isFrame_iff, BitVec.toNat_setWidth, BitVec.toNat_sub]
    simp only [BitVec.toNat_ofNat]
    omega
  obtain ⟨state', mapped, unwrapped, _⟩ :=
    @Built.mapPage state base count _ _ (pageRwBit ||| pageGBit) paths built
      isPage frame fits
  refine ⟨state', ?_⟩
  simp only [Elf64.mapWindowPt, mapped, bind, Except.bind,
    allocating_of_le unwrapped]

/-- With symbols in hand, the rest of `load_kernel` goes through. -/
theorem Loadable.loadKernel
    (loadable : Loadable state.mem start fileSize strtab symtab base
      ⟨pages, size.setWidth 32, pt⟩)
    (exports : Exports state.mem start strtab symtab pages size pt)
    (sizeLt : size.toNat < 2 ^ 32)
    (segments : Elf64.loadSegments start state = .ok loaded)
    (holds : Loaded state.mem start base ⟨pages, size.setWidth 32, pt⟩
      (ePhnum state.mem start).toNat 0 loaded)
    (found : findWindow loaded.mem start =
      .ok (.ok ⟨pages, size.setWidth 32, pt⟩)) :
    ∃ state', Elf64.loadKernel start state =
      .ok (.loaded (eEntry state.mem start), state') := by
  obtain ⟨⟨paths, part, built⟩, _⟩ := holds
  have sizeEq : (size.setWidth 32).toNat = size.toNat := by
    rw [BitVec.toNat_setWidth, Nat.mod_eq_of_lt sizeLt]
  have room := loadable.room
  rw [HasRoom] at room
  obtain ⟨windowed, window, before, beforePart, builtWindow⟩ :=
    @Built.mapWindowPages loaded base _ ⟨pages, size.setWidth 32, pt⟩ paths
      built (kernelPaths state.mem start ⟨pages, size.setWidth 32, pt⟩) part
      (fun wi inside => tablePaths_subset (List.mem_append_left _
        (List.mem_append_right _ (List.mem_map.mpr
          ⟨wi, List.mem_range.mpr inside, rfl⟩))))
      (fun wi inside => exports.isPage_windowPage sizeLt
        (by rw [← sizeEq]; exact inside)) room
  have ptPart : tablePaths pt ⊆
      kernelPaths state.mem start ⟨pages, size.setWidth 32, pt⟩ :=
    tablePaths_subset (List.mem_append_right _ (List.mem_singleton_self pt))
  have fewer := Finset.card_le_card (Finset.union_subset beforePart ptPart)
  obtain ⟨state', mapped⟩ := @Built.mapWindowPt windowed base _
    ⟨pages, size.setWidth 32, pt⟩ before builtWindow exports.pt_isPage
    (by dsimp only; omega)
  refine ⟨state', ?_⟩
  simp only [Elf64.loadKernel, loadable.file.accepted, segments, found, window,
    mapped, bind, Except.bind]
  rfl

/-- For a kernel file with its symbols, `load_kernel` returns true with their
values and leaves the section tables just when the tails of the segments meet
no byte of the tables that is not 0, and the window size fits 32 bits. -/
theorem lookupSurvives_iff (fresh : Fresh state)
    (loadable : Loadable state.mem start fileSize strtab symtab
      state.usedMemory.toNat ⟨pages, size.setWidth 32, pt⟩)
    (exports : Exports state.mem start strtab symtab pages size pt) :
    LookupSurvives start state strtab symtab pages size pt ↔
      TailsMiss state.mem start (tableCells state.mem start strtab symtab) ∧
        size.toNat < 2 ^ 32 := by
  have below := loadable.below
  have bounded := loadable.base_bounded
  have fits : start.toNat + fileSize < 2 ^ 32 := by omega
  have initial : Loaded state.mem start state.usedMemory.toNat
      ⟨pages, size.setWidth 32, pt⟩ 0 0 state := by
    refine ⟨⟨∅, Finset.empty_subset _, Ready.of_fresh fresh, ?_,
      fun _ => rfl, fun nonNull => absurd fresh.pml4 nonNull⟩, Erased.initial⟩
    have none : newPages state.mem start 0 0 = 0 := Nat.zero_sub _
    rw [madeBefore, Finset.sum_range_zero, none]
    rfl
  obtain ⟨loaded, segments, holds⟩ := loadable.loadSegments rfl initial
  constructor
  · rintro ⟨after, symbols, entry, state', again, kept, found, pagesEq, sizeEq,
      ptEq, _⟩
    rw [segments] at again
    cases again
    refine ⟨fun pi cell isLoad inTail inTable => ?_, ?_⟩
    · rw [← kept cell inTable]
      exact holds.erased.cleared pi cell isLoad inTail (Or.inl isLoad.1)
    · rw [← sizeEq]
      exact symbols.physWindowSize.isLt
  · rintro ⟨miss, sizeLt⟩
    have inFile : ∀ cell ∈ tableCells state.mem start strtab symtab,
        start.toNat + cell < state.usedMemory.toNat := by
      rintro cell (inHeaders | ⟨si, named, inContent⟩)
      · have inside := loadable.file.sections_inside
        rw [mem_cells] at inHeaders
        omega
      · have inside := (loadable.file.contents_inside si named).2
        rw [mem_cells] at inContent
        omega
    have kept : ∀ cell ∈ tableCells state.mem start strtab symtab,
        loaded.mem (start.toNat + cell) = state.mem (start.toNat + cell) :=
      fun cell inTable =>
        holds.erased.eq_of_tailsMiss miss (inFile cell inTable) inTable
    have same : SameTables state.mem loaded.mem start strtab symtab := by
      rintro cell (inHeader | inTable)
      · exact loadable.sameHeaders holds.erased cell (Or.inl inHeader)
      · exact kept cell inTable
    have finds := loadable.file.finds fits same exports.pages_defined
      exports.size_defined exports.pt_defined
    have found := finds.findWindow_eq exports.pages_nonzero
      exports.size_nonzero sizeLt exports.pt_nonzero
    obtain ⟨state', returned⟩ :=
      loadable.loadKernel exports sizeLt segments holds found
    refine ⟨loaded, _, _, state', segments, kept, found, rfl, ?_, rfl,
      returned⟩
    rw [BitVec.toNat_setWidth, Nat.mod_eq_of_lt sizeLt]

end Whole

/-! ## A file whose tables lie in a tail, and one whose tables do not -/

/-- A file with one segment, whose file part is either the headers, in front of
the tables in the same page, or 16 bytes in a page of their own. -/
def tablesFile (apart : Bool) : Nat :=
  fields [
    -- the ELF header
    (0x00010102464c457f, 8), (0, 8), (2, 2), (62, 2), (1, 4),
    (0xffffff8000000000, 8), (64, 8), (120, 8), (0, 4), (64, 2), (56, 2),
    (1, 2), (64, 2), (2, 2), (0, 2),
    -- the program header
    (1, 4), (7, 4), (if apart then 4096 else 0, 8), (0xffffff8000000000, 8),
    (0, 8), (if apart then 16 else 120, 8), (5000, 8), (0x1000, 8),
    -- the section headers of `.strtab` and `.symtab`
    (1, 4), (3, 4), (0, 16), (344, 8), (70, 8), (0, 24),
    (9, 4), (2, 4), (0, 16), (248, 8), (96, 8), (0, 16), (24, 8),
    -- the symbols
    (0, 24), (17, 8), (1, 16), (35, 8), (0xfffffffffffff000, 16), (54, 8),
    (0xffffffffffffe000, 16),
    stringField "", stringField ".strtab", stringField ".symtab",
    stringField "_phys_window_size", stringField "_phys_window_pages",
    stringField "_phys_window_pt"]

/-- A loader that has the file at 2 MiB. -/
def tablesLoader (apart : Bool) : Loader where
  mem := fun cell =>
    if 0x200000 ≤ cell ∧ cell < 0x200000 + 414 then
      BitVec.ofNat 8 (tablesFile apart / 256 ^ (cell - 0x200000))
    else
      0
  usedMemory := 0x300000#32
  pml4 := 0#32

/-- The symbols of the file. -/
def tablesSymbols : WindowSymbols :=
  ⟨0xfffffffffffff000#64, 1#32, 0xffffffffffffe000#64⟩

section Files

variable (apart : Bool)

theorem tablesLoader_header :
    (ePhoff (tablesLoader apart).mem 0x200000#32).toNat = 64 ∧
      (ePhnum (tablesLoader apart).mem 0x200000#32).toNat = 1 ∧
      (eShoff (tablesLoader apart).mem 0x200000#32).toNat = 120 ∧
      (eShnum (tablesLoader apart).mem 0x200000#32).toNat = 2 ∧
      shstrtabOf (tablesLoader apart).mem 0x200000#32 = 0 := by
  cases apart <;> decide

set_option maxRecDepth 2000 in
theorem tablesLoader_segment :
    offsetOf (tablesLoader apart).mem 0x200000#32 0 =
        (if apart then 4096 else 0) ∧
      fileszOf (tablesLoader apart).mem 0x200000#32 0 =
        (if apart then 16 else 120) ∧
      memszOf (tablesLoader apart).mem 0x200000#32 0 = 5000 ∧
      vaddrOf (tablesLoader apart).mem 0x200000#32 0 =
        0xffffff8000000000#64 := by
  cases apart <;> decide

theorem tablesLoader_isLoad {pi : Nat}
    (isLoad : IsLoad (tablesLoader apart).mem 0x200000#32 pi) : pi = 0 := by
  have count := (tablesLoader_header apart).2.1
  have bound := isLoad.1
  omega

set_option maxRecDepth 2000 in
theorem tablesLoader_sections :
    sectionOffset (tablesLoader apart).mem 0x200000#32 0 = 344 ∧
      sectionSize (tablesLoader apart).mem 0x200000#32 0 = 70 ∧
      sectionOffset (tablesLoader apart).mem 0x200000#32 1 = 248 ∧
      sectionSize (tablesLoader apart).mem 0x200000#32 1 = 96 ∧
      symbolCount (tablesLoader apart).mem 0x200000#32 1 = 4 := by
  cases apart <;> decide

theorem tablesLoader_tables {cell : Nat}
    (inTable : cell ∈ tableCells (tablesLoader apart).mem 0x200000#32 0 1) :
    120 ≤ cell ∧ cell < 414 := by
  obtain ⟨_, _, shoff, shnum, names⟩ := tablesLoader_header apart
  obtain ⟨strOffset, strSize, symOffset, symSize, _⟩ :=
    tablesLoader_sections apart
  rcases inTable with inHeaders | ⟨si, named, inContent⟩
  · rw [mem_cells, shoff, shnum] at inHeaders
    omega
  · rw [names] at named
    simp only [List.mem_cons, List.not_mem_nil, or_false] at named
    rw [mem_cells] at inContent
    rcases named with rfl | rfl | rfl <;> omega

theorem tablesLoader_file :
    KernelFile (tablesLoader apart).mem 0x200000#32 4112 0 1 := by
  obtain ⟨phoff, phnum, shoff, shnum, names⟩ := tablesLoader_header apart
  obtain ⟨offset, filesz, memsz, vaddr⟩ := tablesLoader_segment apart
  obtain ⟨strOffset, strSize, symOffset, symSize, count⟩ :=
    tablesLoader_sections apart
  refine ⟨by decide, by decide, ?_, by decide, by omega, by omega, ?_, ?_, ?_,
    ?_, ?_, ?_, ?_, ?_, ?_, ?_, ?_⟩
  · cases apart <;> decide +kernel
  · intro si named
    rw [names] at named
    simp only [List.mem_cons, List.not_mem_nil, or_false] at named
    rcases named with rfl | rfl | rfl <;> omega
  · have strings : ∀ si, si < 2 → ∃ length, length < 70 ∧
        ((shName (tablesLoader apart).mem (sectionHeader
            (tablesLoader apart).mem 0x200000#32 si)).toNat + length < 70 ∧
          (tablesLoader apart).mem ((sectionContent (tablesLoader apart).mem
            0x200000#32 0).toNat + (shName (tablesLoader apart).mem
              (sectionHeader (tablesLoader apart).mem 0x200000#32
                si)).toNat + length) = 0) := by
      cases apart <;> decide +kernel
    intro si inTable
    rw [shnum] at inTable
    obtain ⟨length, _, inString⟩ := strings si inTable
    rw [names, strSize]
    exact ⟨length, inString⟩
  · have found : ∀ si, si < 2 → (strcmpIsZero (tablesLoader apart).mem
        (literal ".strtab") (sectionName (tablesLoader apart).mem
          0x200000#32 si) = true ↔ si = 0) := by
      cases apart <;> decide +kernel
    rw [shnum]
    exact found
  · have found : ∀ si, si < 2 → (strcmpIsZero (tablesLoader apart).mem
        (literal ".symtab") (sectionName (tablesLoader apart).mem
          0x200000#32 si) = true ↔ si = 1) := by
      cases apart <;> decide +kernel
    rw [shnum]
    exact found
  · cases apart <;> decide +kernel
  · have strings : ∀ index, index < 4 → ∃ length, length < 70 ∧
        ((stName (tablesLoader apart).mem (symbolAt
            (tablesLoader apart).mem 0x200000#32 1 index)).toNat + length <
              70 ∧
          (tablesLoader apart).mem ((sectionContent (tablesLoader apart).mem
            0x200000#32 0).toNat + (stName (tablesLoader apart).mem
              (symbolAt (tablesLoader apart).mem 0x200000#32 1
                index)).toNat + length) = 0) := by
      cases apart <;> decide +kernel
    intro index _ inTable
    rw [count] at inTable
    obtain ⟨length, _, inString⟩ := strings index inTable
    rw [strSize]
    exact ⟨length, inString⟩
  · intro pi isLoad
    rw [tablesLoader_isLoad apart isLoad, offset]
    cases apart <;> rfl
  · intro pi isLoad
    rw [tablesLoader_isLoad apart isLoad, filesz, memsz]
    cases apart <;> decide
  · intro pi isLoad _
    rw [tablesLoader_isLoad apart isLoad, offset, filesz]
    cases apart <;> decide
  · intro pi k segmentPage
    have bound := segmentPage.2
    rw [tablesLoader_isLoad apart segmentPage.1, memsz] at bound
    rw [segmentPageAddress, tablesLoader_isLoad apart segmentPage.1, vaddr]
    have pages : ∀ k, k < 2 →
        IsPage (0xffffff8000000000#64 + pageStart k) := by decide
    exact pages k (by omega)
  · intro pi isLoad
    rw [Set.disjoint_left]
    intro cell inFile inTable
    have bounds := tablesLoader_tables apart inTable
    rw [tablesLoader_isLoad apart isLoad, mem_cells, offset, filesz] at inFile
    cases apart
    · simp only [Bool.false_eq_true, if_false] at inFile
      omega
    · simp only [if_true] at inFile
      omega

theorem tablesLoader_exports :
    Exports (tablesLoader apart).mem 0x200000#32 0 1
      0xfffffffffffff000#64 1#64 0xffffffffffffe000#64 := by
  have count := (tablesLoader_sections apart).2.2.2.2
  have names : ∀ index, index < 4 → 1 ≤ index →
      (strcmpIsZero (tablesLoader apart).mem (literal "_phys_window_size")
        (symbolName (tablesLoader apart).mem 0x200000#32 0 1 index) = true ↔
          index = 1) ∧
      (strcmpIsZero (tablesLoader apart).mem (literal "_phys_window_pages")
        (symbolName (tablesLoader apart).mem 0x200000#32 0 1 index) = true ↔
          index = 2) ∧
      (strcmpIsZero (tablesLoader apart).mem (literal "_phys_window_pt")
        (symbolName (tablesLoader apart).mem 0x200000#32 0 1 index) = true ↔
          index = 3) := by
    cases apart <;> decide +kernel
  refine ⟨⟨⟨2, by decide, by omega, ?_, ?_⟩⟩, ⟨⟨1, by decide, by omega, ?_, ?_⟩⟩,
    ⟨⟨3, by decide, by omega, ?_, ?_⟩⟩, by decide, by decide, by decide, ?_,
    by decide⟩
  · cases apart <;> decide +kernel
  · intro other positive inTable
    exact (names other (by omega) positive).2.1
  · cases apart <;> decide +kernel
  · intro other positive inTable
    exact (names other (by omega) positive).1
  · cases apart <;> decide +kernel
  · intro other positive inTable
    exact (names other (by omega) positive).2.2
  · intro wi inside
    have first : wi = 0 := Nat.lt_one_iff.mp inside
    rw [first]
    decide

set_option maxRecDepth 2000 in
theorem tablesLoader_loadable :
    Loadable (tablesLoader apart).mem 0x200000#32 4112 0 1
      (tablesLoader apart).usedMemory.toNat tablesSymbols := by
  refine ⟨tablesLoader_file apart,
    show 0x200000 + 4112 ≤ 0x300000 by decide,
    show 0x300000 % 4096 = 0 by decide, show 0x300000 < 2 ^ 32 by decide,
    ?_, ?_⟩
  · obtain ⟨phoff, phnum, _⟩ := tablesLoader_header apart
    obtain ⟨offset, filesz, _⟩ := tablesLoader_segment apart
    intro pi cell isLoad inTail inHeader
    rw [tablesLoader_isLoad apart isLoad, tailCells, offset, filesz, mem_cells]
      at inTail
    have bound := lt_of_mem_headerCells inHeader
    rw [phoff, phnum] at bound
    cases apart
    · simp only [Bool.false_eq_true, if_false] at inTail
      omega
    · simp only [if_true] at inTail
      omega
  · rw [HasRoom]
    cases apart <;> decide

end Files

/-- The file whose tables lie behind the tail is loaded, and its symbols are
found. -/
theorem lookupSurvives_iff_apart :
    LookupSurvives 0x200000#32 (tablesLoader true) 0 1
      0xfffffffffffff000#64 1#64 0xffffffffffffe000#64 := by
  refine (lookupSurvives_iff ⟨rfl, by decide, by decide⟩
    (tablesLoader_loadable true) (tablesLoader_exports true)).mpr
    ⟨?_, by decide⟩
  obtain ⟨offset, filesz, _⟩ := tablesLoader_segment true
  intro pi cell isLoad inTail inTable
  have bounds := tablesLoader_tables true inTable
  rw [tablesLoader_isLoad true isLoad, tailCells, offset, filesz, mem_cells]
    at inTail
  simp only [if_true] at inTail
  omega

/-- The tables of the other file are erased before they are searched. -/
theorem erasedTables_refused :
    Fresh (tablesLoader false) ∧
      Loadable (tablesLoader false).mem 0x200000#32 4112 0 1
        (tablesLoader false).usedMemory.toNat tablesSymbols ∧
      Exports (tablesLoader false).mem 0x200000#32 0 1
        0xfffffffffffff000#64 1#64 0xffffffffffffe000#64 ∧
      ¬ LookupSurvives 0x200000#32 (tablesLoader false) 0 1
        0xfffffffffffff000#64 1#64 0xffffffffffffe000#64 := by
  refine ⟨⟨rfl, by decide, by decide⟩, tablesLoader_loadable false,
    tablesLoader_exports false, ?_⟩
  rintro ⟨_, _, entry, state', _, _, _, _, _, _, returned⟩
  have evaluated :
      (loadKernel 0x200000#32 (tablesLoader false)).toOption.map Prod.fst =
        some (.refused ".strtab not found\n") := by decide +kernel
  rw [returned] at evaluated
  cases evaluated


end BeaverOS.Elf64

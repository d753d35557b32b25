import BeaverOS.Boot.MainPages
import BeaverOS.Memory.HeapMemory

/-!
# The heap of the booted kernel

`main` leaves the heap empty. Its first pages share a page table with the end of
the kernel's image, so `sbrk` can be called at once, and neither `sbrk` nor the
program's stores to the heap disturb the image.
-/

namespace BeaverOS.HeapStart

open BeaverOS.ByteMemory
open BeaverOS.Transition
open BeaverOS.Paging
open BeaverOS.Window
open BeaverOS.PageTree
open BeaverOS.Mapper
open BeaverOS.MapperState
open BeaverOS.Linker
open BeaverOS.Boot
open BeaverOS.Footprint
open BeaverOS.Sbrk (Heap IsHeapPage)
open BeaverOS.HeapFrames
open BeaverOS.HeapMemory
open BeaverOS.EarlyMain (Entry Available entriesOf Tag)
open BeaverOS.Elf64 (IsSegmentPage segmentPageAddress segmentByte imageFlags
  LaidOut)
open BeaverOS.LoaderPaging (Loader)
open BeaverOS.LoaderMain (Processor Entered Kernel Boots LoadsKernel
  beforeKernel loaderMain toNat_setWidth_pointer bootLoader bootProcessor
  bootKernel bootSymbols bootTags boots_bootLoader loadsKernel_bootLoader
  bootLoader_header bootLoader_address)
open BeaverOS.Startup
open BeaverOS.MainPages

/-- `_prog_break_begin` lies behind the segments, and every page from there up
to `heapLimit` has its page table in common with a page of a segment. -/
structure BehindSegments (memory : Memory) (start : LoaderPaging.Pointer)
    (base : Word) (heapLimit : Nat) : Prop where
  behind :
    ∀ pi k, IsSegmentPage memory start pi k →
      (segmentPageAddress memory start pi k).toNat < base.toNat
  tables :
    ∀ page : Word, base.toNat ≤ page.toNat → page.toNat < heapLimit →
      ∃ pi k, IsSegmentPage memory start pi k ∧
        page.toNat / 2 ^ 21 =
          (segmentPageAddress memory start pi k).toNat / 2 ^ 21

/-- Every page of a segment is mapped, and has the bytes of the file. -/
def SegmentsIntact (memory : Memory) (start : LoaderPaging.Pointer)
    (state : Mapper) : Prop :=
  ∀ pi k, IsSegmentPage memory start pi k →
    ∃ frame, translation state.mem state.pml4.toNat
        (segmentPageAddress memory start pi k) =
        some (BitVec.ofNat 64 frame, imageFlags) ∧
      ∀ offset, offset < 4096 →
        state.mem (frame + offset) =
          segmentByte memory start pi (4096 * k + offset)

section Ready

variable {memory : Memory} {start : LoaderPaging.Pointer} {layout : Layout}
  {usedMem base page msr : Word} {link : Nat → Word} {entries : List Entry}
  {state : Mapper} {frames : List Nat} {heapLimit : Nat}

/-- No page between the segments and the special pages is mapped. -/
theorem heapPage_unmapped (begin : IsProgBreakBegin base)
    (running : Running memory start layout usedMem link msr entries state
      frames)
    (behind : BehindSegments memory start base heapLimit)
    (isHeapPage : IsHeapPage base page) :
    translation state.mem state.pml4.toNat page = none := by
  by_contra mapped
  have isPage := isPage_of_isHeapPage begin isHeapPage
  obtain ⟨_, above, below⟩ := isHeapPage
  rcases running.only page isPage (Option.isSome_iff_ne_none.mpr mapped) with
    inKernel | own | rfl | inFirstMb
  · rcases inKernel with ⟨pi, k, segmentPage, rfl⟩ | rfl | ⟨wi, inside, rfl⟩
    · have before := behind.behind pi k segmentPage
      omega
    · exact absurd below (by decide)
    · have laidOut : LaidOut linkedSymbols :=
        ⟨by decide, by decide, by decide, by decide⟩
      have pages : linkedSymbols.physWindowPages.toNat =
          0xffffffffffffc000 := by decide
      rw [laidOut.toNat_windowPage inside, toNat_progBreakEnd] at below
      omega
  · simp only [ownPages, List.mem_cons, List.not_mem_nil, or_false] at own
    rcases own with rfl | rfl | rfl | rfl | rfl <;>
      exact absurd below (by decide)
  · exact absurd below (by decide)
  · exact absurd below (Nat.not_lt.mpr inFirstMb.1)

/-- The heap may be used up to the end of the last segment's page table. -/
theorem heap_ready (begin : IsProgBreakBegin base)
    (isLimit : IsHeapLimit base heapLimit)
    (running : Running memory start layout usedMem link msr entries state
      frames)
    (settled : Settled memory start layout state)
    (behind : BehindSegments memory start base heapLimit) :
    Ready layout base heapLimit frames
      { progBreak := base, memory := state } where
  owned := running.owned
  plain := settled.plain
  progBreak := rfl
  absent := by
    intro page aligned above below
    have unmapped := heapPage_unmapped begin running behind
      ⟨aligned, above, lt_of_lt_of_le below isLimit.high⟩
    obtain ⟨pi, k, segmentPage, region⟩ := behind.tables page above below
    obtain ⟨_, _, frame, _, mapped, _⟩ :=
      settled.segments pi k segmentPage
    cases found : leafTable state.mem state.pml4.toNat page with
    | none =>
        rw [leafTable, Elf64.upperPath_congr region, ← leafTable] at found
        rw [translation, leafEntry_eq_none found] at mapped
        cases mapped
    | some table =>
        have entry := leafEntry_of_leafTable found
        refine ⟨_, entry, fun present => ?_⟩
        rw [translation_of_leafEntry entry, if_pos present] at unmapped
        cases unmapped

/-- The heap does not disturb the image. -/
theorem segmentsIntact_of_serves {heap : Heap Mapper}
    {bytes : List (BitVec 8)} {fuel : Nat}
    (settled : Settled memory start layout state)
    (behind : BehindSegments memory start base heapLimit)
    (serves : Serves layout base heapLimit fuel
      { progBreak := base, memory := state } heap bytes) :
    SegmentsIntact memory start heap.memory := by
  intro pi k segmentPage
  obtain ⟨isPage, outside, frame, reserved, mapped, content⟩ :=
    settled.segments pi k segmentPage
  have before := behind.behind pi k segmentPage
  refine ⟨frame, (serves.others _ isPage outside (Or.inl before)).trans mapped,
    fun offset inside => ?_⟩
  rw [serves.kept frame reserved _ (Nat.le_add_right _ _) (by omega)]
  exact content offset inside

end Ready

/-! ## From the loader to the program's memory -/

section Boot

variable {processor : Processor} {eax multiboot : LoaderPaging.Pointer}
  {state loaded kernelState loader : Loader}
  {limit size bound heapLimit fuel : Nat} {tags : List Tag} {kernel : Kernel}
  {entry msr base : Word} {entered : Entered}

/-- Once the kernel is up, whatever it asks of `sbrk` and stores to the heap,
the heap is the array of bytes that it takes it for, and the kernel's segments
stay as they were. -/
theorem kernelStart_serves
    (boots : Boots processor eax multiboot state limit tags kernel size)
    (loads : LoadsKernel kernel.start (beforeKernel multiboot kernel state)
      loaded linkedSymbols entry bound kernelState)
    (aligned : multiboot.toNat % 8 = 0) (given : multiboot ≠ 0#32)
    (returned : loaderMain processor eax multiboot state =
      .ok (entered, loader))
    (spacious : Spacious entered.rsi (entriesOf tags))
    (explicit : msr &&& pageAddrBits ≠ 0#64)
    (device : ¬ Available entered.rsi (entriesOf tags) (msr &&& pageAddrBits))
    (begin : IsProgBreakBegin base) (isLimit : IsHeapLimit base heapLimit)
    (behind : BehindSegments state.mem kernel.start base heapLimit)
    (enough : 2 ^ 52 ≤ fuel) (link : Nat → Word) :
    ∃ layout mapper,
      kernelStart layout entered.rdi entered.rsi (entered.cr3.setWidth 64) link
          msr (linkedMapper loader.mem) = .ok mapper ∧
      ∀ events heap,
        Run (Step layout base heapLimit fuel)
            { progBreak := base, memory := mapper } events heap →
          ∃ bytes, Run (ArrayStep base) [] events bytes ∧
            Serves layout base heapLimit fuel
              { progBreak := base, memory := mapper } heap bytes ∧
            SegmentsIntact state.mem kernel.start heap.memory := by
  obtain ⟨layout, mapper, frames, returns, running, settled⟩ :=
    kernelStart_settles boots loads aligned given returned spacious explicit
      device link
  refine ⟨layout, mapper, returns, fun events heap run => ?_⟩
  have ready := heap_ready begin isLimit running settled behind
  obtain ⟨bytes, space, own, abstract, backed⟩ :=
    ready.runs begin settled.linked isLimit enough run
  have serves := backed.serves begin settled.linked isLimit enough
  exact ⟨bytes, abstract, serves,
    segmentsIntact_of_serves settled behind serves⟩

set_option maxRecDepth 4000 in
/-- The rest of the small image's 2 MiB. -/
theorem behindSegments_small :
    BehindSegments bootLoader.mem bootKernel.start 0xffffff8000002000#64
      0xffffff8000200000 := by
  have start : bootKernel.start = 0x200000#32 := rfl
  have base : (0xffffff8000002000#64).toNat = 0xffffff8000002000 := by decide
  obtain ⟨_, phnum, _, _, memsz, _⟩ := bootLoader_header
  have first : IsSegmentPage bootLoader.mem 0x200000#32 0 0 := by
    refine ⟨⟨?_, by decide⟩, ?_⟩
    · rw [phnum]
      exact Nat.one_pos
    · rw [memsz]
      decide
  rw [start]
  constructor
  · intro pi k segmentPage
    have bounds := bootLoader_address segmentPage
    omega
  · intro page above below
    have bounds := bootLoader_address first
    exact ⟨0, 0, first, by omega⟩

theorem kernelStart_serves_small :
    ∃ entered loader,
      loaderMain bootProcessor 0x36d76289#32 0x10000#32 bootLoader =
        .ok (entered, loader) ∧
      ∃ layout mapper,
        kernelStart layout entered.rdi entered.rsi (entered.cr3.setWidth 64)
            Isr.smallLink 0xfee00900#64 (linkedMapper loader.mem) =
          .ok mapper ∧
        ∀ events heap,
          Run (Step layout 0xffffff8000002000#64 0xffffff8000200000 (2 ^ 52))
              { progBreak := 0xffffff8000002000#64, memory := mapper } events
              heap →
            ∃ bytes, Run (ArrayStep 0xffffff8000002000#64) [] events bytes ∧
              Serves layout 0xffffff8000002000#64 0xffffff8000200000 (2 ^ 52)
                { progBreak := 0xffffff8000002000#64, memory := mapper } heap
                bytes ∧
              SegmentsIntact bootLoader.mem bootKernel.start heap.memory := by
  obtain ⟨loaded, kernelState, loads⟩ := loadsKernel_bootLoader
  have symbolsEq : bootSymbols = linkedSymbols := by decide
  rw [symbolsEq] at loads
  obtain ⟨loader, returned, _, _, upper⟩ :=
    LoaderMain.loaderMain_ready boots_bootLoader loads
  have used := toNat_setWidth_pointer loader.usedMemory
  refine ⟨_, loader, returned, kernelStart_serves boots_bootLoader loads
    (by decide) (by decide) returned (spacious_bootTags ?_) (by decide) ?_
    ⟨by decide, by decide, by decide⟩ ⟨by decide, by decide, by decide⟩
    behindSegments_small (Nat.le_refl _) _⟩
  · rw [LoaderMain.enableLongMode, used]
    exact upper
  · rintro ⟨_, _, entry, member, _, _, inside⟩
    rw [List.mem_singleton.mp member] at inside
    exact absurd inside (by decide)

end Boot

end BeaverOS.HeapStart

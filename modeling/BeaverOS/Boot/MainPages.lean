import BeaverOS.Boot.Startup
import BeaverOS.Gdt.Descriptors
import BeaverOS.Memory.AddressSpace
import Mathlib.Data.List.Perm.Subperm

/-!
# The pages of `main`

After `early_main`, `main` maps the first megabyte behind the image, takes the
loader's identity mapping away, and `gdt_init`, `isr_init` and `apic_init` map
and fill their pages. In the end every page is accounted for.
-/

namespace BeaverOS.MainPages

open BeaverOS.Loop
open BeaverOS.ByteMemory
open BeaverOS.RadixTree
open BeaverOS.Paging
open BeaverOS.Window
open BeaverOS.FrameAllocator
open BeaverOS.PageTree
open BeaverOS.Mapper
open BeaverOS.Unmap
open BeaverOS.MapperState
open BeaverOS.Populated
open BeaverOS.Calls
open BeaverOS.Linker
open BeaverOS.Ownership
open BeaverOS.Boot
open BeaverOS.Footprint
open BeaverOS.AddressSpace
open BeaverOS.EarlyMain (Entry Available entriesOf Tag)
open BeaverOS.Elf64 (IsSegmentPage segmentPageAddress segmentByte imageFlags
  LaidOut windowPage)
open BeaverOS.LoaderPaging (Loader)
open BeaverOS.LoaderMain (Processor Entered Kernel Boots LoadsKernel
  beforeKernel kernelPages loaderMain toNat_setWidth_pointer bootLoader
  bootProcessor bootKernel bootSymbols bootTags boots_bootLoader
  loadsKernel_bootLoader)
open BeaverOS.Startup

/-! ## The code -/

/-- Stores to the page `virt`. -/
def storePage (state : Mapper) (virt : Word) (stores : List Store) :
    Except Halt Mapper :=
  match translation state.mem state.pml4.toNat virt with
  | some (frame, _) =>
      .ok { state with mem := storeAll state.mem frame.toNat stores }
  | none => .error .fault

/-- What `isr_init` stores to `idt_page` with `install_asm_isr`. -/
def gateStores (link : Nat → Word) : List Store :=
  (List.range 256).map fun i =>
    ⟨16 * i, 16, (Isr.asmIsr ((Isr.isrTable link).getD i 0)).pack.toNat⟩

/-- `gdt_init`, up to `_lgdt`. -/
def gdtInit (layout : Layout) (state : Mapper) : Except Halt Mapper := do
  let state ← mapPage layout state gdtPage mapAnon stackFlags
  storePage state gdtPage (Gdt.gdtInit gdtPage kernelStackBottom)

/-- `isr_init`, up to `lidt`. -/
def isrInit (layout : Layout) (link : Nat → Word) (state : Mapper) :
    Except Halt Mapper := do
  let state ← mapPage layout state idtPage mapAnon stackFlags
  let state ← mapPage layout state isrStackBottom mapAnon stackFlags
  let state ← storePage state idtPage [⟨0, 4096, 0⟩]
  storePage state idtPage (gateStores link)

/-- The page that `apic_init` maps, where `msr` is the value of
`APIC_BASE_MSR`. -/
def apicInit (layout : Layout) (msr : Word) (state : Mapper) :
    Except Halt Mapper :=
  mapPage layout state apicPage (msr &&& pageAddrBits) stackFlags

/-- `main` up to `apic_init`. -/
def mainPages (layout : Layout) (usedMem : Word) (link : Nat → Word)
    (msr : Word) (state : Mapper) : Except Halt Mapper := do
  let state ← remap layout usedMem state
  let state ← gdtInit layout state
  let state ← isrInit layout link state
  apicInit layout msr state

/-- `start` in `boot/boot.s`: `early_main` and `main` one after the other. -/
def kernelStart (layout : Layout) (multiboot usedMem cr3 : Word)
    (link : Nat → Word) (msr : Word) (state : Mapper) : Except Halt Mapper := do
  let state ← earlyMain layout multiboot usedMem cr3 state
  mainPages layout usedMem link msr state

/-! ## What it is for -/

/-- The pages that have a frame of their own. -/
def ownPages : List Word :=
  [kernelStackBottom, firstMb, gdtPage, idtPage, isrStackBottom]

/-- The kernel's address space when its interrupt tables are in place. -/
structure Running (memory : Memory) (start : LoaderPaging.Pointer)
    (layout : Layout) (usedMem : Word) (link : Nat → Word) (msr : Word)
    (entries : List Entry) (state : Mapper) (frames : List Nat) : Prop where
  owned : Owned layout state frames
  own :
    ∃ owns : List Word, owns.Nodup ∧
      List.Forall₂ (fun page frame => Available usedMem entries frame ∧
        translation state.mem state.pml4.toNat page = some (frame, stackFlags))
        ownPages owns ∧
      ∀ frame : Word, frame.toNat ∈ frames ↔
        frame ∉ owns ∧ Available usedMem entries frame
  firstMb :
    ∀ k, 0 < k → k < 256 →
      translation state.mem state.pml4.toNat (Linker.firstMb + pg k) =
        some (pg k, stackFlags)
  apic :
    translation state.mem state.pml4.toNat apicPage =
      some (msr &&& pageAddrBits, stackFlags)
  identity :
    ∀ page : Word, page.toNat % 4096 = 0 → page.toNat < usedMem.toNat →
      translation state.mem state.pml4.toNat page = none
  only :
    ∀ virt, IsPage virt →
      (translation state.mem state.pml4.toNat virt).isSome →
      virt ∈ kernelPages memory start linkedSymbols ∨ virt ∈ ownPages ∨
        virt = apicPage ∨ IsFirstMbPage virt
  gdt :
    ∃ frame, translation state.mem state.pml4.toNat gdtPage =
        some (frame, stackFlags) ∧
      Gdt.Ready state.mem frame.toNat gdtPage kernelStackBottom
  idt :
    ∃ frame, translation state.mem state.pml4.toNat idtPage =
        some (frame, stackFlags) ∧
      ∀ vector, vector < 256 →
        readLE state.mem (frame.toNat + 16 * vector) 16 =
          (Isr.isrInit link vector).toNat
  placed :
    ∀ pi k, IsSegmentPage memory start pi k →
      ∃ frame, frame + 4096 ≤ usedMem.toNat ∧
        translation state.mem state.pml4.toNat
            (segmentPageAddress memory start pi k) =
          some (BitVec.ofNat 64 frame, imageFlags) ∧
        ∀ offset, offset < 4096 →
          state.mem (frame + offset) =
            segmentByte memory start pi (4096 * k + offset)

/-- What the rest of the kernel finds apart from that: no page gives its frame
back when it is unmapped, and the segments have frames that are no tables and
not free. -/
structure Settled (memory : Memory) (start : LoaderPaging.Pointer)
    (layout : Layout) (state : Mapper) : Prop where
  linked : layout.windowSize = physWindowSize.toNat
  plain :
    ∀ page, IsPage page → ¬ InWindow layout page → ∀ entry,
      leafEntry state.mem state.pml4.toNat page = some entry →
        ¬ Has entry pageFBit
  segments :
    ∀ pi k, IsSegmentPage memory start pi k →
      IsPage (segmentPageAddress memory start pi k) ∧
      ¬ InWindow layout (segmentPageAddress memory start pi k) ∧
      ∃ frame, Reserved state frame ∧
        translation state.mem state.pml4.toNat
            (segmentPageAddress memory start pi k) =
          some (BitVec.ofNat 64 frame, imageFlags) ∧
        ∀ offset, offset < 4096 →
          state.mem (frame + offset) =
            segmentByte memory start pi (4096 * k + offset)

/-! ## The calls -/

/-- Round `k` of the first loop. -/
def firstMbCall (k : Nat) : PageCall := ⟨firstMb + pg k, pg k, firstMbFlags⟩

/-- Round `k` of the second loop. -/
def identityCall (k : Nat) : PageCall := ⟨pg k, 0#64, 0#64⟩

def anonymousCall (page : Word) : PageCall := ⟨page, mapAnon, stackFlags⟩

def apicCall (msr : Word) : PageCall :=
  ⟨apicPage, msr &&& pageAddrBits, stackFlags⟩

def remapCalls (usedMem : Word) : List PageCall :=
  (List.range 256).map firstMbCall ++
    (List.range (usedMem.toNat / 4096)).map identityCall

/-- The calls behind the loops. -/
def tableCalls (msr : Word) : List PageCall :=
  [anonymousCall gdtPage, anonymousCall idtPage, anonymousCall isrStackBottom,
    apicCall msr]

/-- All calls of `main`. -/
abbrev mainCalls (usedMem msr : Word) : List PageCall :=
  remapCalls usedMem ++ tableCalls msr

section Loops

variable {layout : Layout} {usedMem : Word} {state : Mapper}

/-- A loop over pages is a sequence of calls. -/
theorem pageLoop_eq {stop : Word} {call : Nat → PageCall}
    (aligned : stop.toNat % 4096 = 0) (bound : stop.toNat ≤ 2 ^ 47) :
    whileLoop (MorePages stop)
        (fun k state => mapPage layout state (call k).virt (call k).phys
          (call k).flags) Halt.fault (2 ^ 52) 0 state =
      mapPages layout ((List.range (stop.toNat / 4096)).map call) state := by
  refine (whileLoop_eq_foldlM ((List.range (stop.toNat / 4096)).map call)
    (fun call state => mapPage layout state call.virt call.phys call.flags)
    (fun _ => True) ?_ ?_ (fun _ _ _ _ _ _ => trivial) trivial
    (Nat.zero_le _) ?_)
  · intro k state inside _
    rw [List.length_map, List.length_range] at inside ⊢
    rw [MorePages, BitVec.lt_def, toNat_pg (by omega)]
    omega
  · intro k inside state _
    rw [List.getElem_map, List.getElem_range]
  · rw [List.length_map, List.length_range]
    omega

theorem mapPages_append {first last : List PageCall} :
    mapPages layout (first ++ last) state =
      (mapPages layout first state >>= mapPages layout last) := by
  rw [mapPages, List.foldlM_append]
  rfl

/-- The two loops of `main`. -/
theorem remap_eq (aligned : usedMem.toNat % 4096 = 0)
    (bound : usedMem.toNat ≤ 2 ^ 47) :
    remap layout usedMem state =
      mapPages layout (remapCalls usedMem) state := by
  rw [remapCalls, mapPages_append]
  have first : mapFirstMb layout state =
      mapPages layout ((List.range 256).map firstMbCall) state :=
    @pageLoop_eq layout state 0x100000#64 firstMbCall (by decide) (by decide)
  have second : unmapIdentity layout usedMem = mapPages layout
      ((List.range (usedMem.toNat / 4096)).map identityCall) :=
    funext fun state => @pageLoop_eq layout state usedMem identityCall aligned
      bound
  rw [remap, first, second]

end Loops

/-! ## The special pages -/

/-- The pages below those of the window, and their table's. -/
structure Special (page : Word) : Prop where
  aligned : page.toNat % 4096 = 0
  lower : 0xffffffffffe00000 ≤ page.toNat
  upper : page.toNat < 0xffffffffffffb000

section Special

variable {layout : Layout} {page virt : Word} {k : Nat}

theorem special_firstMb (inside : k < 256) : Special (firstMb + pg k) := by
  have value := toNat_firstMb_add inside
  exact ⟨by omega, by omega, by omega⟩

theorem special_gdtPage : Special gdtPage :=
  ⟨by decide, by decide, by decide⟩

theorem special_idtPage : Special idtPage :=
  ⟨by decide, by decide, by decide⟩

theorem special_isrStackBottom : Special isrStackBottom :=
  ⟨by decide, by decide, by decide⟩

theorem special_apicPage : Special apicPage :=
  ⟨by decide, by decide, by decide⟩

theorem special_kernelStackBottom : Special kernelStackBottom :=
  ⟨by decide, by decide, by decide⟩

theorem Special.isPage (special : Special page) : IsPage page := by
  have lower := special.lower
  have bound := page.isLt
  exact isPage_of_toNat (Or.inr (by omega)) special.aligned

/-- The page table of the window serves them all. -/
theorem Special.upperPath_eq (special : Special page) :
    upperPath page = windowPath := by
  have lower := special.lower
  have bound := page.isLt
  have value : physWindowPages.toNat = 0xffffffffffffc000 := by decide
  have path : upperPath physWindowPages = windowPath := by decide
  rw [← path]
  exact Elf64.upperPath_congr (by omega)

theorem Special.outside (special : Special page)
    (linked : layout.windowSize = physWindowSize.toNat) :
    ¬ InWindow layout page := by
  rintro ⟨_, last⟩
  have upper := special.upper
  have lower := special.lower
  have size : physWindowSize.toNat = 4 := rfl
  rw [linked, size] at last
  simp only [leafIndex, indexAt_val, pageTableSize] at last
  omega

theorem Special.high (special : Special page) : 2 ^ 47 ≤ page.toNat := by
  have lower := special.lower
  omega

end Special

/-! ## The calls fit -/

section Fits

variable {memory : Memory} {start : LoaderPaging.Pointer} {layout : Layout}
  {usedMem msr page virt : Word} {entries : List Entry} {state : Mapper}
  {frames : List Nat} {k : Nat}

/-- The kernel's segments lie in the upper half, and apart from the special
pages. -/
structure SegmentsApart (memory : Memory) (start : LoaderPaging.Pointer) :
    Prop where
  high :
    ∀ pi k, IsSegmentPage memory start pi k →
      2 ^ 47 ≤ (segmentPageAddress memory start pi k).toNat
  outside :
    ∀ pi k, IsSegmentPage memory start pi k →
      (segmentPageAddress memory start pi k).toNat / 2 ^ 21 ≠
        physWindowPages.toNat / 2 ^ 21

theorem Special.not_segment (special : Special page)
    (apart : SegmentsApart memory start) {pi : Nat}
    (segmentPage : IsSegmentPage memory start pi k) :
    page ≠ segmentPageAddress memory start pi k := by
  rintro rfl
  have lower := special.lower
  have bound := (segmentPageAddress memory start pi k).isLt
  have value : physWindowPages.toNat = 0xffffffffffffc000 := by decide
  refine apart.outside pi k segmentPage ?_
  omega

variable (ready : MainReady memory start layout usedMem entries state frames)
  (apart : SegmentsApart memory start)
include ready

theorem frame_available {frame : Word} (member : frame.toNat ∈ frames) :
    Available usedMem entries frame := by
  obtain ⟨_, _, _, exactly⟩ := ready.stack
  exact ((exactly frame).mp member).2

include apart

/-- A special page is not mapped yet, unless it is that of the stack. -/
theorem special_unmapped (special : Special page)
    (notStack : page ≠ kernelStackBottom) :
    translation state.mem state.pml4.toNat page = none := by
  by_contra mapped
  have lower := special.lower
  have upper := special.upper
  have bound := ready.booted.lowerHalf
  have pt : linkedSymbols.physWindowPt.toNat = 0xffffffffffffb000 := by decide
  rcases ready.only page special.isPage
      (Option.isSome_iff_ne_none.mpr mapped) with low | inKernel | here
  · omega
  · rcases inKernel with ⟨pi, k, segmentPage, here⟩ | here | ⟨wi, inside, here⟩
    · exact special.not_segment apart segmentPage here
    · rw [here] at upper
      omega
    · have size : linkedSymbols.physWindowSize.toNat = 4 := by decide
      have laidOut : LaidOut linkedSymbols :=
        ⟨by decide, by decide, by decide, by decide⟩
      have value := laidOut.toNat_windowPage inside
      have pages : linkedSymbols.physWindowPages.toNat =
          0xffffffffffffc000 := by decide
      rw [here] at upper
      omega
  · exact notStack here

/-- A page that the caller names a frame for, or an anonymous one. -/
theorem fitting_special (special : Special page)
    (notStack : page ≠ kernelStackBottom) {phys : Word} (frame : IsFrame phys)
    (notFree : phys ≠ mapAnon → phys.toNat ∉ frames) :
    Fitting layout (spaceOf state frames)
      ⟨page, phys, stackFlags⟩ := by
  have found : leafTable state.mem state.pml4.toNat page =
      some layout.windowPt := by
    rw [leafTable, special.upperPath_eq]
    exact ready.booted.wellFormed.tables.window
  have unmapped := special_unmapped ready apart special notStack
  refine ⟨special.isPage, special.outside ready.booted.linked, frame,
    (by decide : ¬ Has stackFlags pageFBit), ?_, ?_, notFree⟩
  · exact Option.isSome_iff_exists.mpr ⟨_, leafEntry_of_leafTable found⟩
  · intro _ entry foundEntry present
    rw [translation_of_leafEntry foundEntry, if_pos present] at unmapped
    cases unmapped

theorem fitting_firstMbCall (inside : k < 256) :
    Fitting layout (spaceOf state frames)
      (firstMbCall k) := by
  have value := toNat_firstMb_add inside
  have above := ready.booted.above
  have small := @toNat_pg k (by omega)
  refine fitting_special ready apart (special_firstMb inside) ?_
    ((isFrame_iff _).mpr ⟨by omega, by omega⟩) ?_
  · intro same
    have stack := toNat_kernelStackBottom
    rw [← same] at stack
    omega
  · intro _ member
    have used := (frame_available ready member).2.1
    omega

omit apart in
theorem fitting_identityCall (inside : k < usedMem.toNat / 4096) :
    Fitting layout (spaceOf state frames)
      (identityCall k) := by
  have lower := ready.booted.lowerHalf
  have value := @toNat_pg k (by omega)
  obtain ⟨flags, mapped⟩ :=
    ready.booted.identity (pg k) (by omega) (by omega)
  rw [translation] at mapped
  obtain ⟨entry, found, _⟩ := Option.bind_eq_some_iff.mp mapped
  have noFlags : ¬ Has (0#64) pageFBit ∧ ¬ Has (0#64) pagePBit := by decide
  refine ⟨isPage_pg (by omega), pg_outside (by omega), isFrame_zero,
    noFlags.1, Option.isSome_iff_exists.mpr ⟨entry, found⟩, ?_, ?_⟩
  · exact fun anonymous => absurd (of_decide_eq_true anonymous).1 noFlags.2
  · exact fun explicit => absurd rfl explicit

/-! ### All of them together -/

omit ready apart in
/-- Only round 0 of the loops is for an anonymous page. -/
theorem filter_remapCalls :
    (remapCalls usedMem).filter PageCall.anonymous =
      [anonymousCall firstMb] := by
  have first : (List.range 256).map firstMbCall =
      anonymousCall firstMb ::
        (List.range 255).map fun k => firstMbCall (k + 1) := by
    rw [List.range_succ_eq_map, List.map_cons, List.map_map]
    rfl
  have named : ((List.range 255).map fun k => firstMbCall (k + 1)).filter
      PageCall.anonymous = [] := by
    rw [List.filter_eq_nil_iff]
    intro call member anonymous
    obtain ⟨k, inside, rfl⟩ := List.mem_map.mp member
    have below := List.mem_range.mp inside
    have isNull := congrArg BitVec.toNat (of_decide_eq_true anonymous).2
    change (pg (k + 1)).toNat = 0 at isNull
    rw [toNat_pg (by omega)] at isNull
    omega
  have cleared : ((List.range (usedMem.toNat / 4096)).map identityCall).filter
      PageCall.anonymous = [] := by
    rw [List.filter_eq_nil_iff]
    intro call member anonymous
    obtain ⟨k, inside, rfl⟩ := List.mem_map.mp member
    exact absurd (of_decide_eq_true anonymous).1
      (by decide : ¬ Has (0#64) pagePBit)
  have isAnonymous : (anonymousCall firstMb).anonymous = true := by decide
  rw [remapCalls, List.filter_append, first,
    List.filter_cons_of_pos isAnonymous, named, cleared, List.append_nil]

omit ready apart in
theorem filter_calls (explicit : msr &&& pageAddrBits ≠ 0#64) :
    (mainCalls usedMem msr).filter PageCall.anonymous =
      [anonymousCall firstMb, anonymousCall gdtPage, anonymousCall idtPage,
        anonymousCall isrStackBottom] := by
  have apic : ¬ (apicCall msr).anonymous = true := fun anonymous =>
    explicit (of_decide_eq_true anonymous).2
  have table : (tableCalls msr).filter PageCall.anonymous =
      [anonymousCall gdtPage, anonymousCall idtPage,
        anonymousCall isrStackBottom] := by
    have isAnonymous : ∀ page, (anonymousCall page).anonymous = true :=
      fun page => decide_eq_true ⟨(by decide : Has stackFlags pagePBit), rfl⟩
    rw [tableCalls, List.filter_cons_of_pos (isAnonymous _),
      List.filter_cons_of_pos (isAnonymous _),
      List.filter_cons_of_pos (isAnonymous _), List.filter_cons_of_neg apic]
    rfl
  rw [List.filter_append, filter_remapCalls, table]
  rfl

omit ready apart in
/-- The calls are for different pages. -/
theorem distinct_calls (bound : usedMem.toNat ≤ 2 ^ 47) :
    ((mainCalls usedMem msr).map PageCall.virt).Nodup := by
  have high : ((List.range 256).map fun k => firstMb + pg k).Nodup := by
    refine List.Nodup.map_on (fun j jInside k kInside same => ?_)
      List.nodup_range
    exact firstMb_injective (List.mem_range.mp jInside)
      (List.mem_range.mp kInside) same
  have low : ((List.range (usedMem.toNat / 4096)).map pg).Nodup := by
    refine List.Nodup.map_on (fun j jInside k kInside same => ?_)
      List.nodup_range
    have first := List.mem_range.mp jInside
    have second := List.mem_range.mp kInside
    exact pg_injective (by omega) (by omega) same
  have last : ([gdtPage, idtPage, isrStackBottom, apicPage] : List Word).Nodup :=
    by decide
  have lastHigh : ∀ page ∈
      ([gdtPage, idtPage, isrStackBottom, apicPage] : List Word),
      0xffffffffffff6000 ≤ page.toNat := by
    intro page member
    simp only [List.mem_cons, List.not_mem_nil, or_false] at member
    rcases member with rfl | rfl | rfl | rfl <;> decide
  simp only [remapCalls, tableCalls, List.map_append, List.map_map]
  refine List.nodup_append'.mpr ⟨List.nodup_append'.mpr
    ⟨high, low, ?_⟩, last, ?_⟩
  · intro page inHigh inLow
    obtain ⟨j, jInside, rfl⟩ := List.mem_map.mp inHigh
    obtain ⟨k, kInside, same⟩ := List.mem_map.mp inLow
    have below := List.mem_range.mp kInside
    exact pg_ne_firstMb (by omega) (List.mem_range.mp jInside) same
  · intro page inLoops inLast
    have above := lastHigh page inLast
    rcases List.mem_append.mp inLoops with inHigh | inLow
    · obtain ⟨k, inside, rfl⟩ := List.mem_map.mp inHigh
      have below := List.mem_range.mp inside
      have value := toNat_firstMb_add below
      simp only [Function.comp_apply, firstMbCall] at above
      omega
    · obtain ⟨k, inside, rfl⟩ := List.mem_map.mp inLow
      have below := List.mem_range.mp inside
      have value := @toNat_pg k (by omega)
      simp only [Function.comp_apply, identityCall] at above
      omega

theorem fits_calls (room : 4 ≤ frames.length)
    (explicit : msr &&& pageAddrBits ≠ 0#64)
    (device : ¬ Available usedMem entries (msr &&& pageAddrBits)) :
    Fits layout (spaceOf state frames)
      (mainCalls usedMem msr) := by
  refine ⟨distinct_calls ready.booted.lowerHalf, ?_, ?_⟩
  · intro call member
    rcases List.mem_append.mp member with inLoops | inLast
    · rcases List.mem_append.mp inLoops with inFirst | inSecond
      · obtain ⟨k, inside, rfl⟩ := List.mem_map.mp inFirst
        exact fitting_firstMbCall ready apart (List.mem_range.mp inside)
      · obtain ⟨k, inside, rfl⟩ := List.mem_map.mp inSecond
        exact fitting_identityCall ready (List.mem_range.mp inside)
    · have anonymous : ∀ page, Special page → page ≠ kernelStackBottom →
          Fitting layout (spaceOf state frames)
            (anonymousCall page) := fun page special notStack =>
        fitting_special ready apart special notStack isFrame_zero
          fun explicit => absurd rfl explicit
      simp only [tableCalls, List.mem_cons, List.not_mem_nil, or_false]
        at inLast
      rcases inLast with rfl | rfl | rfl | rfl
      · exact anonymous _ special_gdtPage (by decide)
      · exact anonymous _ special_idtPage (by decide)
      · exact anonymous _ special_isrStackBottom (by decide)
      · exact fitting_special ready apart special_apicPage (by decide)
          (isFrame_frameOf msr)
          fun _ member => device (frame_available ready member)
  · rw [List.countP_eq_length_filter, filter_calls explicit]
    exact room

end Fits

/-! ## The stores -/

section Stores

variable {memory : Memory} {state : Mapper} {page frame flags : Word}
  {link : Nat → Word} {base vector : Nat}

theorem storePage_eq {stores : List Store}
    (found : translation state.mem state.pml4.toNat page =
      some (frame, flags)) :
    storePage state page stores =
      .ok { state with mem := storeAll state.mem frame.toNat stores } := by
  rw [storePage, found]

/-- The gates are stored side by side. -/
theorem readLE_gateStores (inside : vector < 256) :
    readLE (storeAll memory base (gateStores link)) (base + 16 * vector) 16 =
      (Isr.isrInit link vector).toNat := by
  have apart : (gateStores link).Pairwise Store.Apart := by
    refine List.pairwise_map.mpr (List.pairwise_lt_range.imp
      fun {first second} less => Or.inl ?_)
    change 16 * first + 16 ≤ 16 * second
    omega
  have member : (⟨16 * vector, 16, (Isr.asmIsr ((Isr.isrTable link).getD vector
      0)).pack.toNat⟩ : Store) ∈ gateStores link :=
    List.mem_map.mpr ⟨vector, List.mem_range.mpr inside, rfl⟩
  have gate := (Isr.asmIsr ((Isr.isrTable link).getD vector 0)).pack.isLt
  refine (readLE_storeAll apart member).trans ((Nat.mod_eq_of_lt gate).trans ?_)
  rw [Isr.isrInit_eq inside, Isr.getD_isrTable inside]

theorem agreeOff_gateStores :
    AgreeOff (cells base 4096) (storeAll memory base (gateStores link))
      memory := by
  refine agreeOff_storeAll fun store member => ?_
  obtain ⟨vector, inRange, rfl⟩ := List.mem_map.mp member
  have inside := List.mem_range.mp inRange
  change 16 * vector + 16 ≤ 4096
  omega

end Stores

/-! ## The whole of it -/

section Runs

variable {memory : Memory} {start : LoaderPaging.Pointer} {layout : Layout}
  {usedMem msr page : Word} {entries : List Entry}
  {state state' first middle : Mapper} {link : Nat → Word}
  {frames rest : List Nat} {space : Space} {calls : List PageCall}

/-- A page with a frame of its own is filled. -/
theorem storePage_own {own : Word} {stores : List Store}
    (represents : Represents layout first space state)
    (special : Special page)
    (linked : layout.windowSize = physWindowSize.toNat)
    (leaf : space.leaf page = some ((anonymousCall page).entry own))
    (reserved : Reserved state own.toNat) (isFrame : IsFrame own)
    (inside : AgreeOff (cells own.toNat 4096)
      (storeAll state.mem own.toNat stores) state.mem) :
    ∃ state', storePage state page stores = .ok state' ∧
      state'.mem = storeAll state.mem own.toNat stores ∧
      Represents layout state' space state' ∧
      Spares {own.toNat} state state' := by
  have found : leafEntry state.mem state.pml4.toNat page =
      some ((stackFlags &&& ptFlagsMask) ||| own) :=
    (represents.leaves page special.isPage (special.outside linked)).trans leaf
  obtain ⟨represents', spares⟩ := represents.stored reserved inside
  exact ⟨_, storePage_eq (translation_stackFlags found isFrame), rfl,
    represents', spares⟩

theorem bind_of_ok {Result Result' : Type} {result : Except Halt Result}
    {value : Result} {after : Result → Except Halt Result'}
    {outcome : Except Halt Result'} (returned : result = .ok value)
    (rest : after value = outcome) : (result >>= after) = outcome := by
  rw [returned]
  exact rest

/-- Stores to a frame that was free spare the frames that were reserved. -/
theorem spares_of_free {own : Nat} (free : own ∈ space.free)
    (represents : Represents layout first space state)
    (taken : Spares ∅ state middle) (stored : Spares {own} middle state') :
    Spares ∅ state state' := by
  intro frame reserved
  obtain ⟨reserved', kept⟩ := taken.trans stored frame reserved
  refine ⟨reserved', fun _ => kept ?_⟩
  rintro (isEmpty | rfl)
  · exact isEmpty
  · exact reserved.not_mem represents.owned.wellFormed.free free

variable (linked : layout.windowSize = physWindowSize.toNat)
include linked

/-- What `gdt_init` leaves. -/
theorem gdtInit_returns {own : Word} {later : List Nat}
    (represents : Represents layout first space state)
    (fitting : Fitting layout space (anonymousCall gdtPage))
    (free : space.free = own.toNat :: later) :
    ∃ state', gdtInit layout state = .ok state' ∧
      Represents layout state' (space.serve (anonymousCall gdtPage)) state' ∧
      Spares ∅ state state' ∧ Reserved state' own.toNat ∧
      Gdt.Ready state'.mem own.toNat gdtPage kernelStackBottom := by
  obtain ⟨taken, mapped, represents₁, leaf, _, isFrame, reserved⟩ :=
    represents.serve_own fitting (by decide) free
  obtain ⟨ready, agree⟩ := Gdt.gdtInit_ready taken.mem own.toNat gdtPage
    kernelStackBottom
  obtain ⟨state', stored, memEq, represents₂, spares⟩ :=
    storePage_own represents₁ special_gdtPage linked leaf reserved isFrame
      (agree.mono (cells_subset (Nat.le_refl _) (by omega)))
  refine ⟨state', ?_, represents₂, spares_of_free (free ▸ List.mem_cons_self)
    represents represents₁.spares spares, (spares _ reserved).1, memEq ▸ ready⟩
  exact bind_of_ok mapped stored

/-- What `isr_init` leaves. -/
theorem isrInit_returns {own stack : Word} {later : List Nat}
    (represents : Represents layout first space state)
    (fits : Fits layout space
      [anonymousCall idtPage, anonymousCall isrStackBottom])
    (free : space.free = own.toNat :: stack.toNat :: later) :
    ∃ state', isrInit layout link state = .ok state' ∧
      Represents layout state'
        (space.serveAll [anonymousCall idtPage, anonymousCall isrStackBottom])
        state' ∧
      Spares ∅ state state' ∧ Reserved state' own.toNat ∧
      ∀ vector, vector < 256 →
        readLE state'.mem (own.toNat + 16 * vector) 16 =
          (Isr.isrInit link vector).toNat := by
  obtain ⟨withGates, mapped, represents₁, leaf, free₁, isFrame, reserved⟩ :=
    represents.serve_own (fits.fitting _ List.mem_cons_self) (by decide) free
  obtain ⟨withStack, mapped', represents₂, _, _, _, _⟩ :=
    represents₁.serve_own (fits.tail.fitting _ List.mem_cons_self) (by decide)
      free₁
  have reserved₂ := (represents₂.spares _ reserved).1
  have leaf₂ : ((space.serve (anonymousCall idtPage)).serve
      (anonymousCall isrStackBottom)).leaf idtPage =
        some ((anonymousCall idtPage).entry own) :=
    (Space.serve_elsewhere (by decide : idtPage ≠ isrStackBottom)).trans leaf
  -- `memset`, and the gates
  have zeros : AgreeOff (cells own.toNat 4096)
      (storeAll withStack.mem own.toNat [⟨0, 4096, 0⟩]) withStack.mem :=
    agreeOff_storeAll (by simp)
  obtain ⟨cleared, clear, _, represents₃, spares₃⟩ := storePage_own
    represents₂ special_idtPage linked leaf₂ reserved₂ isFrame zeros
  have reserved₃ := (spares₃ _ reserved₂).1
  obtain ⟨state', stored, memEq, represents₄, spares₄⟩ := storePage_own
    represents₃ special_idtPage linked leaf₂ reserved₃ isFrame
    (@agreeOff_gateStores cleared.mem link own.toNat)
  refine ⟨state', ?_, represents₄, ?_, (spares₄ _ reserved₃).1, ?_⟩
  · exact bind_of_ok mapped (bind_of_ok mapped' (bind_of_ok clear stored))
  · have taken := represents₁.spares.trans represents₂.spares
    have filled := spares₃.trans spares₄
    rw [Set.union_self] at taken filled
    exact spares_of_free (free ▸ List.mem_cons_self) represents taken filled
  · intro vector inside
    rw [memEq]
    exact readLE_gateStores inside

/-- What the calls and the stores of `main` leave. -/
structure Filled (layout : Layout) (link : Nat → Word) (space : Space)
    (gdtFrame idtFrame : Nat) (state state' : Mapper) : Prop where
  represents : ∃ first, Represents layout first space state'
  spares : Spares ∅ state state'
  gdt : Gdt.Ready state'.mem gdtFrame gdtPage kernelStackBottom
  idt :
    ∀ vector, vector < 256 →
      readLE state'.mem (idtFrame + 16 * vector) 16 =
        (Isr.isrInit link vector).toNat

theorem mainPages_returns {round gdt idt stack : Word}
    (represents : Represents layout first space state)
    (usedAligned : usedMem.toNat % 4096 = 0) (lower : usedMem.toNat ≤ 2 ^ 47)
    (explicit : msr &&& pageAddrBits ≠ 0#64)
    (fits : Fits layout space (mainCalls usedMem msr))
    (free : space.free =
      round.toNat :: gdt.toNat :: idt.toNat :: stack.toNat :: rest) :
    ∃ state', mainPages layout usedMem link msr state = .ok state' ∧
      Filled layout link
        (space.serveAll (mainCalls usedMem msr)) gdt.toNat
        idt.toNat state state' := by
  obtain ⟨fitsLoops, fitsTables⟩ := fits.append
  have fitsIsr : Fits layout ((space.serveAll (remapCalls usedMem)).serve
      (anonymousCall gdtPage))
      ([anonymousCall idtPage, anonymousCall isrStackBottom] ++
        [apicCall msr]) := fitsTables.tail
  obtain ⟨fitsIsr, fitsApic⟩ := fitsIsr.append
  obtain ⟨remapped, loops, represents₁⟩ :=
    represents.restart.serveAll fitsLoops
  rw [← remap_eq usedAligned lower] at loops
  have free₁ : (space.serveAll (remapCalls usedMem)).free =
      gdt.toNat :: idt.toNat :: stack.toNat :: rest := by
    rw [Space.serveAll_free, List.countP_eq_length_filter, filter_remapCalls,
      free]
    rfl
  obtain ⟨withGdt, gdtInit, represents₂, spares₂, reservedGdt, ready⟩ :=
    gdtInit_returns linked represents₁
      (fitsTables.fitting _ List.mem_cons_self) free₁
  have free₂ : ((space.serveAll (remapCalls usedMem)).serve
      (anonymousCall gdtPage)).free =
        idt.toNat :: stack.toNat :: rest := by
    rw [Space.serve_free, free₁]
    rfl
  obtain ⟨withIdt, isrInit, represents₃, spares₃, reservedIdt, gates⟩ :=
    isrInit_returns linked represents₂ fitsIsr free₂
  obtain ⟨state', apicInit, represents₄⟩ :=
    represents₃.serve (fitsApic.fitting _ List.mem_cons_self)
      fun anonymous => absurd (of_decide_eq_true anonymous).2 explicit
  have spaceEq : space.serveAll (mainCalls usedMem msr) =
      (((space.serveAll (remapCalls usedMem)).serve
        (anonymousCall gdtPage)).serveAll [anonymousCall idtPage,
          anonymousCall isrStackBottom]).serve (apicCall msr) := by
    rw [Space.serveAll_append]
    rfl
  have spares₄ := represents₄.spares
  have later := spares₃.trans spares₄
  have all := (represents₁.spares.trans spares₂).trans later
  rw [Set.union_self] at later
  rw [Set.union_self, Set.union_self] at all
  refine ⟨state', bind_of_ok loops (bind_of_ok gdtInit
    (bind_of_ok isrInit apicInit)), ⟨withIdt, spaceEq ▸ represents₄⟩, all,
    ready.congr ((later _ reservedGdt).2 id), ?_⟩
  · intro vector inside
    rw [← gates vector inside]
    exact readLE_congr (((spares₄ _ reservedIdt).2 id).mono
      (Nat.le_add_right _ _) (by omega))

end Runs

section Running

variable {memory : Memory} {start : LoaderPaging.Pointer} {layout : Layout}
  {usedMem msr page round gdt idt stack : Word} {entries : List Entry}
  {state state' : Mapper} {link : Nat → Word} {frames rest : List Nat}
  {call : PageCall} {k : Nat}

theorem mem_calls (member : call ∈ mainCalls usedMem msr) :
    (∃ k, k < 256 ∧ call = firstMbCall k) ∨
      (∃ k, k < usedMem.toNat / 4096 ∧ call = identityCall k) ∨
      call ∈ tableCalls msr := by
  rcases List.mem_append.mp member with inLoops | inTables
  · rcases List.mem_append.mp inLoops with inFirst | inSecond
    · obtain ⟨k, inside, rfl⟩ := List.mem_map.mp inFirst
      exact Or.inl ⟨k, List.mem_range.mp inside, rfl⟩
    · obtain ⟨k, inside, rfl⟩ := List.mem_map.mp inSecond
      exact Or.inr (Or.inl ⟨k, List.mem_range.mp inside, rfl⟩)
  · exact Or.inr (Or.inr inTables)

theorem firstMbCall_mem (inside : k < 256) :
    firstMbCall k ∈ mainCalls usedMem msr :=
  List.mem_append_left _ (List.mem_append_left _
    (List.mem_map_of_mem (List.mem_range.mpr inside)))

theorem identityCall_mem (inside : k < usedMem.toNat / 4096) :
    identityCall k ∈ mainCalls usedMem msr :=
  List.mem_append_left _ (List.mem_append_right _
    (List.mem_map_of_mem (List.mem_range.mpr inside)))

theorem tableCall_mem (member : call ∈ tableCalls msr) :
    call ∈ mainCalls usedMem msr :=
  List.mem_append_right _ member

/-- A page of a table call is one of four. -/
theorem virt_tableCalls (member : call ∈ tableCalls msr) :
    call.virt = gdtPage ∨ call.virt = idtPage ∨ call.virt = isrStackBottom ∨
      call.virt = apicPage := by
  simp only [tableCalls, List.mem_cons, List.not_mem_nil, or_false] at member
  rcases member with rfl | rfl | rfl | rfl
  · exact Or.inl rfl
  · exact Or.inr (Or.inl rfl)
  · exact Or.inr (Or.inr (Or.inl rfl))
  · exact Or.inr (Or.inr (Or.inr rfl))

/-- The pages of the calls are special, or in the lower half. -/
theorem virt_calls (lower : usedMem.toNat ≤ 2 ^ 47)
    (member : call ∈ mainCalls usedMem msr) :
    (Special call.virt ∧ call.virt ≠ kernelStackBottom) ∨
      call.virt.toNat < 2 ^ 47 := by
  rcases mem_calls member with
    ⟨k, inside, rfl⟩ | ⟨k, inside, rfl⟩ | inTables
  · refine Or.inl ⟨special_firstMb inside, fun same => ?_⟩
    have value := toNat_firstMb_add inside
    have stack := toNat_kernelStackBottom
    rw [← same] at stack
    change (firstMb + pg k).toNat = _ at stack
    omega
  · refine Or.inr ?_
    have value := @toNat_pg k (by omega)
    change (pg k).toNat < _
    omega
  · left
    rcases virt_tableCalls inTables with here | here | here | here <;> rw [here]
    · exact ⟨special_gdtPage, by decide⟩
    · exact ⟨special_idtPage, by decide⟩
    · exact ⟨special_isrStackBottom, by decide⟩
    · exact ⟨special_apicPage, by decide⟩

variable (ready : MainReady memory start layout usedMem entries state frames)
  (filled : Filled layout link
    ((spaceOf state frames).serveAll (mainCalls usedMem msr)) gdt.toNat idt.toNat
    state state')
include ready filled

omit ready in
/-- Other pages are as `early_main` has left them. -/
theorem translation_kept (isPage : IsPage page)
    (outside : ¬ InWindow layout page)
    (different : ∀ call ∈ mainCalls usedMem msr, page ≠ call.virt) :
    translation state'.mem state'.pml4.toNat page =
      translation state.mem state.pml4.toNat page := by
  obtain ⟨first, represents⟩ := filled.represents
  rw [represents.translation_eq isPage outside,
    Space.serveAll_elsewhere different]
  rfl

/-- A page that a call has named a frame for. -/
theorem translation_named (member : call ∈ mainCalls usedMem msr)
    (special : Special call.virt) (named : ¬ call.anonymous)
    (flags : call.flags = stackFlags) (isFrame : IsFrame call.phys) :
    translation state'.mem state'.pml4.toNat call.virt =
      some (call.phys, stackFlags) := by
  obtain ⟨first, represents⟩ := filled.represents
  refine translation_stackFlags (((represents.leaves call.virt special.isPage
    (special.outside ready.booted.linked)).trans
      (Space.serveAll_named (distinct_calls ready.booted.lowerHalf) member
        named)).trans ?_) isFrame
  rw [PageCall.named, PageCall.entry, flags, if_pos (by decide)]

/-- The pages of the identity mapping are gone. -/
theorem identity_gone (aligned : page.toNat % 4096 = 0)
    (inUse : page.toNat < usedMem.toNat) :
    translation state'.mem state'.pml4.toNat page = none := by
  have lower := ready.booted.lowerHalf
  have usedAligned := ready.booted.aligned
  obtain ⟨k, inside, rfl⟩ : ∃ k, k < usedMem.toNat / 4096 ∧ page = pg k := by
    refine ⟨page.toNat / 4096, by omega, BitVec.eq_of_toNat_eq ?_⟩
    rw [toNat_pg (by omega)]
    omega
  obtain ⟨first, represents⟩ := filled.represents
  have cleared : ¬ (identityCall k).anonymous := fun anonymous =>
    absurd (of_decide_eq_true anonymous).1 (by decide : ¬ Has (0#64) pagePBit)
  refine translation_eq_none fun entry found => ?_
  rw [represents.leaves _ (isPage_pg (by omega)) (pg_outside (by omega))]
    at found
  have leaf := found.symm.trans (Space.serveAll_named (distinct_calls lower)
    (identityCall_mem inside) cleared)
  have unmap : ¬ Has (identityCall k).flags pagePBit :=
    (by decide : ¬ Has (0#64) pagePBit)
  rw [PageCall.named, if_neg unmap] at leaf
  obtain ⟨old, _, rfl⟩ := Option.map_eq_some_iff.mp leaf.symm
  exact not_has_and_of_disjoint (by decide)

/-- The anonymous pages got the first frames. -/
theorem own_served (explicit : msr &&& pageAddrBits ≠ 0#64)
    (fits : Fits layout (spaceOf state frames) (mainCalls usedMem msr))
    (framesEq : frames =
      round.toNat :: gdt.toNat :: idt.toNat :: stack.toNat :: rest) :
    List.Forall₂ (fun page frame => frame.toNat ∈ frames ∧
      translation state'.mem state'.pml4.toNat page = some (frame, stackFlags))
      [firstMb, gdtPage, idtPage, isrStackBottom] [round, gdt, idt, stack] := by
  obtain ⟨first, represents⟩ := filled.represents
  have served := Space.serveAll_anonymous fits.distinct fits.room
  rw [List.countP_eq_length_filter, filter_calls explicit] at served
  have free : (spaceOf state frames).free.take 4 =
      [round.toNat, gdt.toNat, idt.toNat, stack.toNat] := by
    rw [spaceOf, framesEq]
    rfl
  change List.Forall₂ _ _ ((spaceOf state frames).free.take 4) at served
  rw [free] at served
  have shown : ∀ {page frame : Word}, Special page → frame.toNat ∈ frames →
      ((spaceOf state frames).serveAll (mainCalls usedMem msr)).leaf
          (anonymousCall page).virt =
        some ((anonymousCall page).entry (BitVec.ofNat 64 frame.toNat)) →
      frame.toNat ∈ frames ∧
      translation state'.mem state'.pml4.toNat page =
        some (frame, stackFlags) := by
    intro page frame special member leaf
    have bounds := ready.booted.wellFormed.free.bounds member
    rw [BitVec.ofNat_toNat, BitVec.setWidth_eq] at leaf
    refine ⟨member, ?_⟩
    exact translation_stackFlags ((represents.leaves page special.isPage
      (special.outside ready.booted.linked)).trans leaf)
      ((isFrame_iff frame).mpr ⟨bounds.2.1, by omega⟩)
  obtain ⟨onFirstMb, served⟩ := List.forall₂_cons.mp served
  obtain ⟨onGdt, served⟩ := List.forall₂_cons.mp served
  obtain ⟨onIdt, served⟩ := List.forall₂_cons.mp served
  obtain ⟨onStack, _⟩ := List.forall₂_cons.mp served
  refine List.Forall₂.cons (shown ?_ ?_ onFirstMb) (List.Forall₂.cons
    (shown special_gdtPage ?_ onGdt) (List.Forall₂.cons
      (shown special_idtPage ?_ onIdt) (List.Forall₂.cons
        (shown special_isrStackBottom ?_ onStack) List.Forall₂.nil)))
  · exact special_firstMb (by decide : 0 < 256)
  all_goals
    rw [framesEq]
    simp

/-- No page is left but these. -/
theorem only_of_filled (isPage : IsPage page)
    (found : (translation state'.mem state'.pml4.toNat page).isSome) :
    page ∈ kernelPages memory start linkedSymbols ∨ page ∈ ownPages ∨
      page = apicPage ∨ IsFirstMbPage page := by
  have lower := ready.booted.lowerHalf
  have present : ¬ page.toNat < usedMem.toNat := fun inUse => by
    rw [identity_gone ready filled isPage.aligned inUse] at found
    cases found
  by_cases inside : InWindow layout page
  · have laidOut : LaidOut linkedSymbols :=
      ⟨by decide, by decide, by decide, by decide⟩
    obtain ⟨wi, wiSmall, same⟩ := windowPage_of_inWindow ready.booted.linked
      laidOut isPage inside
    exact Or.inl (Or.inr (Or.inr ⟨wi, wiSmall, same⟩))
  by_cases asked : ∃ call ∈ mainCalls usedMem msr, page = call.virt
  · obtain ⟨call, member, rfl⟩ := asked
    right
    rcases mem_calls member with
      ⟨k, small, rfl⟩ | ⟨k, small, rfl⟩ | inTables
    · have value := toNat_firstMb_add small
      have base := toNat_firstMb
      refine Or.inr (Or.inr ⟨?_, ?_⟩)
      · change _ ≤ (firstMb + pg k).toNat
        omega
      · change (firstMb + pg k).toNat < _
        omega
    · have value := @toNat_pg k (by omega)
      refine absurd ?_ present
      change (pg k).toNat < _
      omega
    · rcases virt_tableCalls inTables with here | here | here | here
      · exact Or.inl (here ▸ by simp [ownPages])
      · exact Or.inl (here ▸ by simp [ownPages])
      · exact Or.inl (here ▸ by simp [ownPages])
      · exact Or.inr (Or.inl here)
  · rw [translation_kept filled isPage inside fun call member same =>
      asked ⟨call, member, same⟩] at found
    rcases ready.only page isPage found with low | inKernel | here
    · exact absurd low present
    · exact Or.inl inKernel
    · exact Or.inr (Or.inl (here ▸ by simp [ownPages]))

/-- The segments keep their frames and bytes. -/
theorem placed_of_filled {pi k : Nat} (apart : SegmentsApart memory start)
    (segmentPage : IsSegmentPage memory start pi k) :
    IsPage (segmentPageAddress memory start pi k) ∧
      ∃ frame, Reserved state' frame ∧ frame + 4096 ≤ usedMem.toNat ∧
        translation state'.mem state'.pml4.toNat
            (segmentPageAddress memory start pi k) =
          some (BitVec.ofNat 64 frame, imageFlags) ∧
        ∀ offset, offset < 4096 →
          state'.mem (frame + offset) =
            segmentByte memory start pi (4096 * k + offset) := by
  have lower := ready.booted.lowerHalf
  obtain ⟨isPage, frame, reserved, below, mapped, content⟩ :=
    ready.placed pi k segmentPage
  obtain ⟨reserved', spared⟩ := filled.spares frame reserved
  have kept := spared id
  have high := apart.high pi k segmentPage
  have region := apart.outside pi k segmentPage
  refine ⟨isPage, frame, reserved', below, ?_, ?_⟩
  · rw [translation_kept filled isPage (segmentPage_outside isPage region)]
    · exact mapped
    · intro call member same
      rcases virt_calls lower member with ⟨special, _⟩ | low
      · exact special.not_segment apart segmentPage same.symm
      · rw [← same] at low
        omega
  · intro offset inside
    rw [kept _ (Nat.le_add_right _ _) (by omega)]
    exact content offset inside

/-- Every page is accounted for. -/
theorem running_of_filled (apart : SegmentsApart memory start)
    (explicit : msr &&& pageAddrBits ≠ 0#64)
    (fits : Fits layout (spaceOf state frames) (mainCalls usedMem msr))
    (framesEq : frames =
      round.toNat :: gdt.toNat :: idt.toNat :: stack.toNat :: rest) :
    Running memory start layout usedMem link msr entries state' rest := by
  have lower := ready.booted.lowerHalf
  have linked := ready.booted.linked
  have served := own_served ready filled explicit fits framesEq
  obtain ⟨own, stackAvailable, stackMapped, exactly⟩ := ready.stack
  have stackKept := (translation_kept filled special_kernelStackBottom.isPage
    (special_kernelStackBottom.outside linked) (fun call member same => by
      rcases virt_calls lower member with ⟨_, notStack⟩ | low
      · exact notStack same.symm
      · have high := special_kernelStackBottom.high
        rw [same] at high
        omega)).trans stackMapped
  constructor
  · obtain ⟨first, represents⟩ := filled.represents
    have owned := represents.owned
    rw [Space.serveAll_free, List.countP_eq_length_filter,
      filter_calls explicit, spaceOf, framesEq] at owned
    exact owned
  · have distinct := ready.booted.wellFormed.distinct
    rw [framesEq] at distinct
    have split : (([round, gdt, idt, stack] : List Word).map BitVec.toNat ++
        rest).Nodup := distinct
    obtain ⟨fresh, _, disjoint⟩ := List.nodup_append'.mp split
    have taken : ∀ frame ∈ ([round, gdt, idt, stack] : List Word),
        frame.toNat ∈ frames := fun frame member => framesEq ▸
      List.mem_append_left rest (List.mem_map_of_mem member)
    refine ⟨own :: [round, gdt, idt, stack], List.nodup_cons.mpr ⟨?_,
      List.Nodup.of_map _ fresh⟩, List.Forall₂.cons
        ⟨stackAvailable, stackKept⟩ (served.imp fun page frame shown =>
          ⟨frame_available ready shown.1, shown.2⟩), fun frame => ?_⟩
    · exact fun member => ((exactly own).mp (taken own member)).1 rfl
    · have free : frame.toNat ∈ frames ↔
          frame ∈ ([round, gdt, idt, stack] : List Word) ∨
            frame.toNat ∈ rest := by
        have toNat : ∀ other : Word, frame.toNat = other.toNat ↔
            frame = other := fun other => BitVec.toNat_inj
        simp only [framesEq, List.mem_cons, toNat, List.not_mem_nil, or_false,
          or_assoc]
      rw [List.mem_cons, not_or]
      constructor
      · intro member
        obtain ⟨notOwn, available⟩ :=
          (exactly frame).mp (free.mpr (Or.inr member))
        exact ⟨⟨notOwn, fun inFour => disjoint (List.mem_map_of_mem inFour)
          member⟩, available⟩
      · rintro ⟨⟨notOwn, notFour⟩, available⟩
        exact (free.mp ((exactly frame).mpr ⟨notOwn, available⟩)).resolve_left
          notFour
  · intro k positive inside
    have value := @toNat_pg k (by omega)
    have named : ¬ (firstMbCall k).anonymous = true := by
      intro anonymous
      have isNull := congrArg BitVec.toNat (of_decide_eq_true anonymous).2
      change (pg k).toNat = 0 at isNull
      omega
    have isFrame : IsFrame (firstMbCall k).phys :=
      (isFrame_iff (pg k)).mpr ⟨by omega, by omega⟩
    have special : Special (firstMbCall k).virt := special_firstMb inside
    have mapped := translation_named ready filled (firstMbCall_mem inside)
      special named rfl isFrame
    exact mapped
  · have inTables : apicCall msr ∈ tableCalls msr := by
      simp only [tableCalls, List.mem_cons, or_true, true_or]
    have named : ¬ (apicCall msr).anonymous = true := fun anonymous =>
      explicit (of_decide_eq_true anonymous).2
    have isFrame : IsFrame (apicCall msr).phys := isFrame_frameOf msr
    have special : Special (apicCall msr).virt := special_apicPage
    have mapped := translation_named ready filled (tableCall_mem inTables)
      special named rfl isFrame
    exact mapped
  · exact fun page aligned inUse => identity_gone ready filled aligned inUse
  · exact fun page isPage found => only_of_filled ready filled isPage found
  · obtain ⟨_, onTables⟩ := List.forall₂_cons.mp served
    exact ⟨gdt, (List.forall₂_cons.mp onTables).1.2, filled.gdt⟩
  · obtain ⟨_, onTables⟩ := List.forall₂_cons.mp served
    obtain ⟨_, onTables⟩ := List.forall₂_cons.mp onTables
    exact ⟨idt, (List.forall₂_cons.mp onTables).1.2, filled.idt⟩
  · intro pi k segmentPage
    obtain ⟨_, frame, _, placed⟩ :=
      placed_of_filled ready filled apart segmentPage
    exact ⟨frame, placed⟩

/-- What a later call of `map_page` may rely on. -/
theorem settled_of_filled (apart : SegmentsApart memory start) :
    Settled memory start layout state' := by
  obtain ⟨first, represents⟩ := filled.represents
  refine ⟨ready.booted.linked, ?_, ?_⟩
  · intro page isPage outside entry found
    rw [represents.leaves page isPage outside] at found
    exact represents.plain page entry found
  · intro pi k segmentPage
    obtain ⟨isPage, frame, reserved, _, placed⟩ :=
      placed_of_filled ready filled apart segmentPage
    exact ⟨isPage, segmentPage_outside isPage
      (apart.outside pi k segmentPage), frame, reserved, placed⟩

end Running

/-! ## From the loader to the kernel's tasks -/

section Boot

variable {processor : Processor} {eax multiboot : LoaderPaging.Pointer}
  {state loaded kernelState loader : Loader} {limit size bound : Nat}
  {tags : List Tag} {kernel : Kernel} {entry msr : Word} {entered : Entered}
  {memory : Memory} {start : LoaderPaging.Pointer} {layout : Layout}
  {usedMem : Word} {entries : List Entry} {mapper : Mapper}
  {frames : List Nat}

/-- One frame is the stack's, the others are free. -/
theorem four_free
    (ready : MainReady memory start layout usedMem entries mapper frames)
    (spacious : Spacious usedMem entries) : 4 ≤ frames.length := by
  obtain ⟨own, _, _, exactly⟩ := ready.stack
  obtain ⟨pages, distinct, count, available⟩ := spacious.room
  have others : ((pages.erase own).map BitVec.toNat).Nodup :=
    (distinct.erase own).map fun _ _ same => BitVec.eq_of_toNat_eq same
  have free : (pages.erase own).map BitVec.toNat ⊆ frames := by
    intro frame member
    obtain ⟨page, inPages, rfl⟩ := List.mem_map.mp member
    obtain ⟨notOwn, inPages⟩ := distinct.mem_erase_iff.mp inPages
    exact (exactly page).mpr ⟨notOwn, available page inPages⟩
  have few := (others.subperm free).length_le
  rw [List.length_map, List.length_erase, count] at few
  split at few <;> omega

/-- The first four of them. -/
theorem exists_four {list : Memory} {first : Word}
    (free : FreeList list first frames) (enough : 4 ≤ frames.length) :
    ∃ (round gdt idt stack : Word) (rest : List Nat),
      frames = round.toNat :: gdt.toNat :: idt.toNat :: stack.toNat ::
        rest := by
  have words : (frames.map (BitVec.ofNat 64)).map BitVec.toNat = frames := by
    rw [List.map_map]
    refine (List.map_congr_left fun frame member => ?_).trans (List.map_id _)
    have bounds := free.bounds member
    rw [Function.comp_apply, BitVec.toNat_ofNat]
    exact Nat.mod_eq_of_lt (by omega)
  rw [← @List.length_map _ _ frames (BitVec.ofNat 64)] at enough
  rw [← words]
  match frames.map (BitVec.ofNat 64), enough with
  | round :: gdt :: idt :: stack :: rest, _ =>
      exact ⟨round, gdt, idt, stack, rest.map BitVec.toNat, rfl⟩

/-- `early_main` and `main` return. -/
theorem kernelStart_settles
    (boots : Boots processor eax multiboot state limit tags kernel size)
    (loads : LoadsKernel kernel.start (beforeKernel multiboot kernel state)
      loaded linkedSymbols entry bound kernelState)
    (aligned : multiboot.toNat % 8 = 0) (given : multiboot ≠ 0#32)
    (returned : loaderMain processor eax multiboot state =
      .ok (entered, loader))
    (spacious : Spacious entered.rsi (entriesOf tags))
    (explicit : msr &&& pageAddrBits ≠ 0#64)
    (device : ¬ Available entered.rsi (entriesOf tags) (msr &&& pageAddrBits))
    (link : Nat → Word) :
    ∃ layout mapper frames,
      kernelStart layout entered.rdi entered.rsi (entered.cr3.setWidth 64) link
          msr (linkedMapper loader.mem) = .ok mapper ∧
      Running state.mem kernel.start layout entered.rsi link msr
        (entriesOf tags) mapper frames ∧
      Settled state.mem kernel.start layout mapper := by
  obtain ⟨layout, early, frames, started, ready⟩ :=
    earlyMain_readies boots loads aligned given returned spacious
  have high := loads.high
  have outside := loads.outside
  rw [boots.beforeKernel.1] at high outside
  have apart : SegmentsApart state.mem kernel.start := ⟨high, outside⟩
  have enough := four_free ready spacious
  have fits := fits_calls ready apart enough explicit device
  obtain ⟨round, gdt, idt, stack, rest, framesEq⟩ :=
    exists_four ready.booted.wellFormed.free enough
  obtain ⟨mapper, returns, filled⟩ := mainPages_returns ready.booted.linked
    (Represents.initial ready.owned ready.booted.unmarked)
    ready.booted.aligned ready.booted.lowerHalf explicit fits framesEq
  exact ⟨layout, mapper, rest, bind_of_ok started returns,
    running_of_filled ready filled apart explicit fits framesEq,
    settled_of_filled ready filled apart⟩

/-- When the loader has booted a kernel with the linker script's symbols, the
kernel comes up: `early_main` and `main` return, every page of the address space
is accounted for, and the processor's tables are filled. -/
theorem kernelStart_runs
    (boots : Boots processor eax multiboot state limit tags kernel size)
    (loads : LoadsKernel kernel.start (beforeKernel multiboot kernel state)
      loaded linkedSymbols entry bound kernelState)
    (aligned : multiboot.toNat % 8 = 0) (given : multiboot ≠ 0#32)
    (returned : loaderMain processor eax multiboot state =
      .ok (entered, loader))
    (spacious : Spacious entered.rsi (entriesOf tags))
    (explicit : msr &&& pageAddrBits ≠ 0#64)
    (device : ¬ Available entered.rsi (entriesOf tags) (msr &&& pageAddrBits))
    (link : Nat → Word) :
    ∃ layout mapper frames,
      kernelStart layout entered.rdi entered.rsi (entered.cr3.setWidth 64) link
          msr (linkedMapper loader.mem) = .ok mapper ∧
      Running state.mem kernel.start layout entered.rsi link msr
        (entriesOf tags) mapper frames := by
  obtain ⟨layout, mapper, frames, returns, running, _⟩ := kernelStart_settles
    boots loads aligned given returned spacious explicit device link
  exact ⟨layout, mapper, frames, returns, running⟩

/-- The memory map of the small boot is spacious. -/
theorem spacious_bootTags {usedMem : Word} (upper : usedMem.toNat ≤ 0x400000) :
    Spacious usedMem (entriesOf bootTags) := by
  have entries : entriesOf bootTags = [⟨0x400000#64, 0x100000#64, 1#32⟩] := rfl
  have start : EarlyMain.Entry.start usedMem
      ⟨0x400000#64, 0x100000#64, 1#32⟩ = 0x400000 := Nat.max_eq_left upper
  rw [entries]
  refine ⟨?_, List.pairwise_singleton _ _, ?_,
    [0x400000#64, 0x401000#64, 0x402000#64, 0x403000#64, 0x404000#64],
    by decide, rfl, ?_⟩
  · intro entry member
    rw [List.mem_singleton.mp member]
    decide
  · intro entry member _
    rw [List.mem_singleton.mp member]
    constructor
    · rw [start]
    · rw [start]
      decide
    · rw [start]
      decide
  · intro page member
    have inside : page.toNat % 4096 = 0 ∧ 0x400000 ≤ page.toNat ∧
        page.toNat + 4096 ≤ 0x500000 := by
      simp only [List.mem_cons, List.not_mem_nil, or_false] at member
      rcases member with rfl | rfl | rfl | rfl | rfl <;> decide
    exact ⟨inside.1, upper.trans inside.2.1, _, List.mem_singleton_self _, rfl,
      inside.2.1, inside.2.2⟩

/-- The kernel of the small image comes up. -/
theorem kernelStart_runs_small :
    ∃ entered loader,
      loaderMain bootProcessor 0x36d76289#32 0x10000#32 bootLoader =
        .ok (entered, loader) ∧
      ∃ layout mapper frames,
        kernelStart layout entered.rdi entered.rsi (entered.cr3.setWidth 64)
            Isr.smallLink 0xfee00900#64 (linkedMapper loader.mem) =
          .ok mapper ∧
        Running bootLoader.mem bootKernel.start layout entered.rsi
          Isr.smallLink 0xfee00900#64 (entriesOf bootTags) mapper frames := by
  obtain ⟨loaded, kernelState, loads⟩ := loadsKernel_bootLoader
  have symbolsEq : bootSymbols = linkedSymbols := by decide
  rw [symbolsEq] at loads
  obtain ⟨loader, returned, _, _, upper⟩ :=
    LoaderMain.loaderMain_ready boots_bootLoader loads
  have used := toNat_setWidth_pointer loader.usedMemory
  refine ⟨_, loader, returned, kernelStart_runs boots_bootLoader loads
    (by decide) (by decide) returned (spacious_bootTags ?_) (by decide) ?_ _⟩
  · rw [LoaderMain.enableLongMode, used]
    exact upper
  · rintro ⟨_, _, entry, member, _, _, inside⟩
    rw [List.mem_singleton.mp member] at inside
    exact absurd inside (by decide)

end Boot

end BeaverOS.MainPages

import BeaverOS.Boot.MemoryMap
import BeaverOS.Boot.Remap
import BeaverOS.Loader.Boot
import BeaverOS.Memory.Footprint

/-!
# From the loader to `main`

`early_main` on the memory that the loader has left: the mapper takes over the
loader's tables, the free list gets the memory above the memory in use, and the
kernel's stack gets its page. What `main` and all later calls of the mapper
start from is true then, and the kernel's image is where it was.
-/

namespace BeaverOS.Startup

open BeaverOS.Loop
open BeaverOS.ByteMemory
open BeaverOS.BlockChain
open BeaverOS.RadixTree
open BeaverOS.Paging
open BeaverOS.Window
open BeaverOS.FrameAllocator
open BeaverOS.PageTree
open BeaverOS.Mapper
open BeaverOS.MapperState
open BeaverOS.Populated
open BeaverOS.Calls
open BeaverOS.Linker
open BeaverOS.Ownership
open BeaverOS.Boot
open BeaverOS.Footprint
open BeaverOS.EarlyMain
open BeaverOS.LoaderPaging (Loader LinkedTable translationOf)
open BeaverOS.Elf64
open BeaverOS.LoaderMain (Processor Entered Kernel Boots LoadsKernel KernelReady
  beforeKernel kernelPages loaderMain infoCells Unmarked
  toNat_setWidth_pointer)

/-! ## The code -/

/-- The symbols of the kernel as the linker script defines them. -/
def linkedSymbols : WindowSymbols where
  physWindowPages := physWindowPages
  physWindowSize := physWindowSize.setWidth 32
  physWindowPt := physWindowPt

/-- The variables of `memory/mapper.c` in the kernel's image. They are fields of
the state, and not bytes of its memory. -/
def linkedMapper (memory : Memory) : Mapper where
  mem := memory
  windowBase := 0#64
  physWindow := 0#64
  pml4 := 0#64
  firstFreeBlock := 0#64

/-- `mapper_init`. -/
def mapperInit (cr3 : Word) (state : Mapper) : Mapper :=
  { state with pml4 := cr3 }

/-- The flags of the kernel's stack. -/
def stackFlags : Word := pagePBit ||| pageRwBit ||| pageGBit

/-- `early_main`. The screen is left out. -/
def earlyMain (layout : Layout) (multiboot usedMem cr3 : Word)
    (state : Mapper) : Except Halt Mapper := do
  let state ← tagWalk layout multiboot usedMem (mapperInit cr3 state)
  mapPage layout state kernelStackBottom mapAnon stackFlags

/-! ## What is left for `main` -/

/-- What `early_main` leaves: what the loops of `main` start from, no frame with
two owners, the available memory on the free list up to the frame of the stack,
the kernel's segments in their places, and no page but these. -/
structure MainReady (memory : Memory) (start : LoaderPaging.Pointer)
    (layout : Layout) (usedMem : Word) (entries : List Entry)
    (state : Mapper) (frames : List Nat) : Prop where
  booted : Booted layout usedMem frames state
  owned : Owned layout state frames
  stack :
    ∃ frame, Available usedMem entries frame ∧
      translation state.mem state.pml4.toNat kernelStackBottom =
        some (frame, stackFlags) ∧
      ∀ page : Word, page.toNat ∈ frames ↔
        page ≠ frame ∧ Available usedMem entries page
  only :
    ∀ virt, IsPage virt →
      (translation state.mem state.pml4.toNat virt).isSome →
      virt.toNat < usedMem.toNat ∨
        virt ∈ kernelPages memory start linkedSymbols ∨
        virt = kernelStackBottom
  placed :
    ∀ pi k, IsSegmentPage memory start pi k →
      IsPage (segmentPageAddress memory start pi k) ∧
      ∃ frame, Reserved state frame ∧ frame + 4096 ≤ usedMem.toNat ∧
        translation state.mem state.pml4.toNat
            (segmentPageAddress memory start pi k) =
          some (BitVec.ofNat 64 frame, imageFlags) ∧
        ∀ offset, offset < 4096 →
          state.mem (frame + offset) =
            segmentByte memory start pi (4096 * k + offset)

/-! ## Pages and addresses -/

section Addresses

variable {layout : Layout} {virt : Word}

/-- Every address has the walk and the leaf entry of some page. -/
theorem exists_isPage (virt : Word) :
    ∃ page, IsPage page ∧ upperPath page = upperPath virt ∧
      leafIndex page = leafIndex virt := by
  have bound := virt.isLt
  have indices : ∀ page : Word,
      page.toNat % 2 ^ 48 / 4096 = virt.toNat % 2 ^ 48 / 4096 →
      upperPath page = upperPath virt ∧ leafIndex page = leafIndex virt := by
    intro page same
    simp only [upperPath, leafIndex, List.cons.injEq, Fin.ext_iff, indexAt_val,
      and_true]
    omega
  by_cases low : virt.toNat % 2 ^ 48 < 2 ^ 47
  · refine ⟨BitVec.ofNat 64 (virt.toNat % 2 ^ 48 / 4096 * 4096), ?_,
      indices _ ?_⟩
    · exact isPage_of_toNat (Or.inl (by rw [BitVec.toNat_ofNat]; omega))
        (by rw [BitVec.toNat_ofNat]; omega)
    · rw [BitVec.toNat_ofNat]
      omega
  · refine ⟨BitVec.ofNat 64 (2 ^ 64 - 2 ^ 48 +
      virt.toNat % 2 ^ 48 / 4096 * 4096), ?_, indices _ ?_⟩
    · exact isPage_of_toNat (Or.inr (by rw [BitVec.toNat_ofNat]; omega))
        (by rw [BitVec.toNat_ofNat]; omega)
    · rw [BitVec.toNat_ofNat]
      omega

theorem toNat_kernelStackBottom :
    kernelStackBottom.toNat = 0xffffffffffff7000 := by
  decide

theorem isPage_kernelStackBottom : IsPage kernelStackBottom := by
  decide

theorem upperPath_kernelStackBottom :
    upperPath kernelStackBottom = windowPath := by
  decide

theorem kernelStackBottom_outside
    (linked : layout.windowSize = physWindowSize.toNat) :
    ¬ InWindow layout kernelStackBottom := by
  rintro ⟨_, last⟩
  have size : physWindowSize.toNat = 4 := rfl
  have index : (leafIndex kernelStackBottom).val = 503 := by decide
  rw [linked, size, index] at last
  exact absurd last (by decide)

/-- The slots of the window are the pages that the loader has mapped for it. -/
theorem windowPage_of_inWindow
    (linked : layout.windowSize = physWindowSize.toNat)
    (laidOut : LaidOut linkedSymbols) (page : IsPage virt)
    (inside : InWindow layout virt) :
    ∃ wi, wi < linkedSymbols.physWindowSize.toNat ∧
      virt = windowPage linkedSymbols wi := by
  obtain ⟨path, last⟩ := inside
  have index := (leafIndex virt).isLt
  have size : linkedSymbols.physWindowSize.toNat = 4 := by decide
  have linkedSize : physWindowSize.toNat = 4 := rfl
  rw [linked, linkedSize, pageTableSize] at last
  obtain ⟨wi, wiEq⟩ : ∃ wi, (leafIndex virt).val = 508 + wi :=
    ⟨_, (Nat.add_sub_of_le last).symm⟩
  have wiSmall : wi < linkedSymbols.physWindowSize.toNat := by omega
  have value := laidOut.toNat_windowPage wiSmall
  have pages : linkedSymbols.physWindowPages.toNat = 0xffffffffffffc000 := by
    decide
  have windowIsPage : IsPage (windowPage linkedSymbols wi) :=
    isPage_of_toNat (Or.inr (by omega)) (by omega)
  refine ⟨wi, wiSmall, page.ext windowIsPage ?_ (Fin.ext ?_)⟩
  · rw [path, laidOut.upperPath_windowPage wiSmall]
    decide
  · rw [wiEq, laidOut.leafIndex_windowPage wiSmall, size]

theorem low_outside (low : virt.toNat < 2 ^ 47) : ¬ InWindow layout virt := by
  rintro ⟨path, _⟩
  have first := congrArg Fin.val (List.cons.inj path).1
  rw [indexAt_val] at first
  change _ = 511 at first
  omega

end Addresses

/-! ## The loader's tables -/

section Tables

variable {memory : Memory} {multiboot start : LoaderPaging.Pointer}
  {base : Nat} {loader : Loader} {layout : Layout} {virt : Word}

/-- The mapper after `mapper_init` on the loader's tables. -/
def onTables (loader : Loader) : Mapper :=
  mapperInit (loader.pml4.setWidth 64) (linkedMapper loader.mem)

theorem onTables_root : (onTables loader).pml4.toNat = loader.pml4.toNat :=
  toNat_setWidth_pointer loader.pml4

theorem translation_onTables (nonNull : loader.pml4 ≠ 0#32) (virt : Word) :
    translation (onTables loader).mem (onTables loader).pml4.toNat virt =
      translationOf loader virt := by
  rw [onTables_root, translationOf, if_neg nonNull]
  rfl

variable (ready : KernelReady memory multiboot start linkedSymbols base loader)
include ready

/-- The layout that the kernel runs with. -/
theorem exists_layout :
    ∃ layout : Layout, layout.windowSize = physWindowSize.toNat ∧
      loader.pml4 ≠ 0#32 ∧ IsTable loader.mem loader.pml4.toNat
        layout.windowPt ∧
      MapperState.Tables layout (onTables loader).mem
        (onTables loader).pml4.toNat := by
  obtain ⟨table, shares⟩ := ready.window
  have walked := shares.translates 0 (by decide)
  rw [LoaderPaging.leafTableOf_of_nonNull shares.nonNull] at walked
  have isTable := isTable_of_leafTable walked
  have bounds := isTable.bounds shares.good.tree
  refine ⟨⟨table, physWindowSize.toNat, bounds.1, bounds.2, by decide,
    by decide⟩, rfl, shares.nonNull, isTable, ?_⟩
  rw [onTables_root]
  exact ⟨shares.good.tree, walked⟩

/-- Nothing of the mapper is in use yet but the tables and the mapped
pages. -/
theorem owned_onTables (nonNull : loader.pml4 ≠ 0#32)
    (tables : MapperState.Tables layout (onTables loader).mem
      (onTables loader).pml4.toNat) :
    Owned layout (onTables loader) [] := by
  refine ⟨⟨tables, Chain.nil, List.nodup_nil, fun _ _ => List.not_mem_nil⟩,
    fun _ _ _ => List.not_mem_nil, ?_⟩
  intro virt frame names
  obtain ⟨entry, found, marked, _⟩ := names.entry
  rw [onTables_root] at found
  exact absurd marked (ready.unmarked nonNull virt entry found)

/-- All frames that are in use lie below the end of the memory in use. -/
theorem inUse_lt (nonNull : loader.pml4 ≠ 0#32) {frame : Nat}
    (inUse : InUse layout (onTables loader) frame) :
    frame < loader.usedMemory.toNat := by
  rcases inUse with isTable | ⟨virt, names | names⟩
  · rw [onTables_root] at isTable
    have bounds := ready.tables frame ⟨nonNull, isTable⟩
    omega
  · obtain ⟨entry, found, present, rfl⟩ := names.entry
    refine ready.images virt _ (entry &&& ptFlagsMask) names.page ?_
    rw [← translation_onTables nonNull, translation_of_leafEntry found,
      if_pos present]
  · obtain ⟨entry, found, marked, _⟩ := names.entry
    rw [onTables_root] at found
    exact absurd marked (ready.unmarked nonNull virt entry found)

end Tables

/-! ## The tag walk -/

section Walk

variable {layout : Layout} {usedMem multiboot : Word} {limit : Nat}
  {state state' : Mapper} {entry : Entry} {entries : List Entry}
  {frames : List Nat} {pages pages' : List Word} {memory memory' : Memory}
  {tags : List Tag}

theorem addPhysMem_pml4 {physMemStart length : Word}
    (added : addPhysMem layout state physMemStart length = .ok state') :
    state'.pml4 = state.pml4 := by
  simp only [addPhysMem, storeHeader] at added
  obtain ⟨stored, second, added⟩ := ok_of_bind added
  obtain ⟨first, size, next⟩ := ok_of_bind second
  cases added
  rw [(store_cases next).2, (store_cases size).2]
  rfl

theorem addType_pml4
    (added : addType layout usedMem entry state = .ok state') :
    state'.pml4 = state.pml4 := by
  simp only [addType, addAvailable] at added
  split at added
  · split at added
    · exact addPhysMem_pml4 added
    · cases added
      rfl
  · cases added
    rfl

theorem entries_pml4
    (added : entries.foldlM
      (fun state entry => addType layout usedMem entry state) state =
        .ok state') :
    state'.pml4 = state.pml4 := by
  induction entries generalizing state with
  | nil =>
      cases added
      rfl
  | cons entry entries inductionHypothesis =>
      rw [List.foldlM_cons] at added
      obtain ⟨middle, first, rest⟩ := ok_of_bind added
      exact (inductionHypothesis rest).trans (addType_pml4 first)

theorem drained_unique (drained : Drained layout state pages)
    (drained' : Drained layout state pages') : pages' = pages := by
  induction drained generalizing pages' with
  | panics panics =>
      cases drained' with
      | panics _ => rfl
      | takes allocated _ =>
          rw [panics] at allocated
          cases allocated
  | takes allocated _ inductionHypothesis =>
      cases drained' with
      | panics panics =>
          rw [allocated] at panics
          cases panics
      | takes again rest =>
          rw [allocated] at again
          cases again
          rw [inductionHypothesis rest]

/-- A structure stays readable where its memory does. -/
theorem tagsIn_congr {first address : Nat}
    (found : TagsIn memory limit address tags)
    (agree : AgreeOn memory' memory first (limit - first))
    (lower : first ≤ address) (small : limit < 2 ^ 64) :
    TagsIn memory' limit address tags := by
  induction found with
  | @last address isEnd inside =>
      have here : (BitVec.ofNat 64 address).toNat = address := by
        rw [BitVec.toNat_ofNat]
        omega
      refine TagsIn.last (Eq.trans ?_ isEnd) inside
      exact readDword_congr agree (by omega) (by omega)
  | @next address tag tags found rest inductionHypothesis =>
      have bound := rest.bound
      have here : (BitVec.ofNat 64 address).toNat = address := by
        rw [BitVec.toNat_ofNat]
        omega
      exact TagsIn.next (found.congr agree (by omega) (by omega) small)
        (inductionHypothesis (by omega))

/-- The walk puts the available memory on the free list. -/
theorem tagWalk_adds (starts : Starts layout multiboot usedMem limit tags state)
    (whole : ∀ entry ∈ entriesOf tags, entry.Above usedMem →
      entry.StartsWhole usedMem) :
    ∃ state' frames, tagWalk layout multiboot usedMem state = .ok state' ∧
      state'.pml4 = state.pml4 ∧
      Added layout usedMem (entriesOf tags) 0 [] state state' frames ∧
      ∀ page : Word,
        page.toNat ∈ frames ↔ Available usedMem (entriesOf tags) page := by
  have none : FreeListTo state.mem state.firstFreeBlock 0 [] :=
    FreeListTo.nil (by rw [starts.empty]; rfl)
  have positive := starts.usedPositive
  obtain ⟨state', frames, added, result⟩ := entries_added layout positive
    starts.unwrapped whole starts.disjoint none List.nodup_nil
    (fun entry _ _ isNull => by
      have used := entry.used_le_start usedMem
      omega)
    (fun entry _ _ frame old => by cases old)
  refine ⟨state', frames, (tagWalk_eq starts).trans added, entries_pml4 added,
    result, ?_⟩
  obtain ⟨same, addedToo, pages, drained, _, exactly⟩ := handsOut_of_whole layout
    positive starts.empty starts.unwrapped starts.disjoint whole
  rw [added] at addedToo
  cases addedToo
  obtain ⟨pages', drained', pagesEq⟩ := drained_of_freeList layout
    (freeListTo_zero.mp result.free) result.distinct
  rw [drained_unique drained drained'] at pagesEq
  intro page
  rw [← exactly, ← pagesEq, List.mem_map]
  constructor
  · rintro ⟨other, member, same⟩
    rw [← BitVec.eq_of_toNat_eq same]
    exact member
  · exact fun member => ⟨page, member, rfl⟩

end Walk

/-! ## The free list and the tables -/

section Ready

variable {memory : Memory} {multiboot start : LoaderPaging.Pointer}
  {base : Nat} {loader : Loader} {layout : Layout} {usedMem : Word}
  {entries : List Entry} {frames : List Nat} {state state' : Mapper}

/-- Free frames lie above the memory in use. -/
theorem added_ge (added : Added layout usedMem entries 0 [] state state' frames)
    {frame : Nat} (member : frame ∈ frames) : usedMem.toNat ≤ frame := by
  rcases (added.mem_iff frame).mp member with old | ⟨entry, _, _, inEntry⟩
  · cases old
  · exact (entry.used_le_start usedMem).trans (Entry.frame_bounds inEntry).1

variable (ready : KernelReady memory multiboot start linkedSymbols base loader)
include ready

/-- The walk leaves the loader's tables alone, and takes no frame that is in
use. -/
theorem owned_of_added (nonNull : loader.pml4 ≠ 0#32)
    (tables : MapperState.Tables layout (onTables loader).mem
      (onTables loader).pml4.toNat)
    (added : Added layout (loader.usedMemory.setWidth 64) entries 0 []
      (onTables loader) state frames)
    (pml4 : state.pml4 = (onTables loader).pml4) :
    KeepsPages layout (onTables loader).pml4.toNat (onTables loader).mem
        state.mem ∧
      Owned layout state frames := by
  have above : ∀ frame ∈ frames, loader.usedMemory.toNat ≤ frame := by
    intro frame member
    rw [← toNat_setWidth_pointer]
    exact added_ge added member
  have keeps : KeepsPages layout (onTables loader).pml4.toNat
      (onTables loader).mem state.mem := by
    refine KeepsPages.of_agreeOff _ tables added.agree ?_
    intro table isTable
    rw [onTables_root] at isTable
    have bounds := ready.tables table ⟨nonNull, isTable⟩
    rw [Set.disjoint_left]
    rintro cell inTable ⟨frame, member, inHeader⟩
    have lower := above frame member
    rw [mem_cells] at inTable inHeader
    omega
  refine ⟨keeps, owned_of_keeps (owned_onTables ready nonNull tables) pml4
    keeps (freeListTo_zero.mp added.free) added.distinct ?_⟩
  intro frame member
  right
  intro inUse
  have lower := above frame member
  have upper := inUse_lt ready nonNull inUse
  omega

/-- The loader has mapped nothing to the kernel's stack. -/
theorem stack_unmapped (laidOut : LaidOut linkedSymbols)
    (outside : ∀ pi k, IsSegmentPage memory start pi k →
      (segmentPageAddress memory start pi k).toNat / 2 ^ 21 ≠
        linkedSymbols.physWindowPages.toNat / 2 ^ 21) :
    translationOf loader kernelStackBottom = none := by
  by_contra mapped
  have value := toNat_kernelStackBottom
  have pages : linkedSymbols.physWindowPages.toNat = 0xffffffffffffc000 := by
    decide
  rcases ready.only _ isPage_kernelStackBottom
      (Option.isSome_iff_ne_none.mpr mapped) with
    low | ⟨pi, k, segmentPage, here⟩ | here | ⟨wi, inside, here⟩
  · have bound := loader.usedMemory.isLt
    omega
  · refine outside pi k segmentPage ?_
    rw [← here, value, pages]
    rfl
  · exact absurd here (by decide)
  · have page := laidOut.toNat_windowPage inside
    rw [← here, value, pages] at page
    omega

end Ready

/-! ## The kernel's stack -/

section Stack

variable {layout : Layout} {state state' : Mapper} {frames rest : List Nat}
  {entry virt : Word}

/-- The call of `early_main` keeps the callers' rule. -/
theorem step_stack {table : Nat}
    (found : leafTable state.mem state.pml4.toNat kernelStackBottom =
      some table)
    (mapped : mapPage layout state kernelStackBottom mapAnon stackFlags =
      .ok state') :
    Ownership.Step layout state (.mapPage kernelStackBottom mapAnon stackFlags)
      state' := by
  refine ⟨⟨⟨table, found⟩, fun _ => ⟨fun _ => ?_, ?_⟩⟩, mapped⟩
  · exact ⟨fun explicit => absurd rfl explicit,
      fun explicit => absurd rfl explicit,
      fun marked => absurd marked (by decide),
      fun marked => absurd marked (by decide)⟩
  · exact fun absent => absurd (by decide) absent

/-- A call for a page behind the window's table leaves the entries of the window
as `phys_look` has written them. -/
theorem mapPage_window_unmarked {phys flags : Word}
    (tables : MapperState.Tables layout state.mem state.pml4.toNat)
    (page : IsPage virt) (path : upperPath virt = windowPath)
    (outside : ¬ InWindow layout virt) (frame : IsFrame phys)
    (present : Has flags pagePBit)
    (mapped : mapPage layout state virt phys flags = .ok state')
    {slot : Word} (inside : InWindow layout slot) :
    ¬ Has (readEntry state'.mem layout.windowPt (leafIndex slot)) pageFBit := by
  have found : leafTable state.mem state.pml4.toNat virt =
      some layout.windowPt := by
    rw [leafTable, path]
    exact tables.window
  have tableEq : (toPt layout state virt flags).1.toNat = layout.windowPt :=
    (UpperFlags.toPt_flagged layout state flags tables found).2
  obtain ⟨target, after, _, rfl⟩ :=
    leafStep_of_old tables page outside found frame present mapped
  have different : leafIndex slot ≠ leafIndex virt := by
    intro same
    refine outside ⟨path, ?_⟩
    rw [← same]
    exact inside.2
  have kept : readEntry (leafWritten layout after
        (toPt layout state virt flags).1 virt
        ((flags &&& ptFlagsMask) ||| target)).mem layout.windowPt
        (leafIndex slot) =
      readEntry (physLook layout after (toPt layout state virt flags).1).mem
        layout.windowPt (leafIndex slot) := by
    rw [leafWritten, putWord_mem, tableEq]
    refine readWord_writeWord_of_disjoint (entryAddress_disjoint
      layout.windowPt_aligned layout.windowPt_aligned ?_)
    exact fun both => different both.2
  rw [kept, ← tableEq]
  exact (slot_flags after inside tableEq).2

/-- The entries of all pages, from those of pages outside of the window. -/
theorem unmarked_of_pages
    (tables : MapperState.Tables layout state.mem state.pml4.toNat)
    (inWindow : ∀ slot, InWindow layout slot →
      ¬ Has (readEntry state.mem layout.windowPt (leafIndex slot)) pageFBit)
    (others : ∀ page entry, IsPage page → ¬ InWindow layout page →
      leafEntry state.mem state.pml4.toNat page = some entry →
        ¬ Has entry pageFBit)
    (found : leafEntry state.mem state.pml4.toNat virt = some entry) :
    ¬ Has entry pageFBit := by
  obtain ⟨page, isPage, upper, leaf⟩ := exists_isPage virt
  have same : leafEntry state.mem state.pml4.toNat page = some entry := by
    rw [← found, leafEntry, leafEntry, leafTable, leafTable, upper, leaf]
  by_cases inside : InWindow layout page
  · rw [leafEntry_of_leafTable (Tables.leafTable_window tables inside)] at same
    cases same
    exact inWindow page inside
  · exact others page entry isPage inside same

end Stack

/-! ## The whole startup -/

section Startup

variable {memory : Memory} {multiboot start : LoaderPaging.Pointer}
  {base : Nat} {loader : Loader} {layout : Layout} {entries : List Entry}
  {frames rest : List Nat} {state state' : Mapper} {page : Word}

/-- The free list without the frame of the stack, and the other pages as the
loader has mapped them. -/
structure StackMapped (layout : Layout) (loader : Loader) (state : Mapper)
    (frames : List Nat) (state' : Mapper) (rest : List Nat) : Prop where
  split : frames = state.firstFreeBlock.toNat :: rest
  updated :
    Updated layout state state' kernelStackBottom
      ((stackFlags &&& ptFlagsMask) ||| state.firstFreeBlock) rest
  owned : Owned layout state' rest
  same :
    ∀ page, IsPage page → ¬ InWindow layout page → page ≠ kernelStackBottom →
      leafEntry state'.mem state'.pml4.toNat page =
        leafEntry loader.mem loader.pml4.toNat page
  window :
    ∀ slot, InWindow layout slot →
      ¬ Has (readEntry state'.mem layout.windowPt (leafIndex slot)) pageFBit
  kept :
    ∀ frame, Reserved state frame → Reserved state' frame →
      AgreeOn state'.mem state.mem frame 4096

/-- The stack gets the first free frame. -/
theorem mapPage_stack (nonNull : loader.pml4 ≠ 0#32)
    (linked : layout.windowSize = physWindowSize.toNat)
    (tables : MapperState.Tables layout (onTables loader).mem
      (onTables loader).pml4.toNat)
    (keeps : KeepsPages layout (onTables loader).pml4.toNat
      (onTables loader).mem state.mem)
    (pml4 : state.pml4 = (onTables loader).pml4)
    (owned : Owned layout state frames) (nonempty : frames ≠ [])
    (unmapped : translationOf loader kernelStackBottom = none) :
    ∃ state' rest,
      mapPage layout state kernelStackBottom mapAnon stackFlags = .ok state' ∧
      StackMapped layout loader state frames state' rest := by
  have wellFormed := owned.wellFormed
  have page := isPage_kernelStackBottom
  have outside := kernelStackBottom_outside linked
  have found : leafTable state.mem state.pml4.toNat kernelStackBottom =
      some layout.windowPt := by
    rw [leafTable, upperPath_kernelStackBottom]
    exact wellFormed.tables.window
  have absent : ¬ Has (readEntry state.mem layout.windowPt
      (leafIndex kernelStackBottom)) pagePBit := by
    intro present
    have here := translation_of_leafEntry (leafEntry_of_leafTable found)
    rw [if_pos present, pml4,
      translation_congr (keeps.leafEntry_eq tables outside),
      translation_onTables nonNull, unmapped] at here
    cases here
  have asked : Has stackFlags pagePBit := by decide
  obtain ⟨state', mapped⟩ : ∃ state', mapPage layout state kernelStackBottom
      mapAnon stackFlags = .ok state' := by
    rcases mapPage_returns wellFormed page outside found isFrame_zero asked with
      returned | ⟨_, _, _, empty⟩
    · exact returned
    · exact absurd empty nonempty
  obtain ⟨rest, split, updated⟩ := mapPage_allocates wellFormed page outside
    (leafEntry_of_leafTable found) absent asked mapped
  have step := step_stack found mapped
  obtain ⟨rest', owned'⟩ := owned_step owned step
  obtain rfl : rest = rest' :=
    updated.wellFormed.free.unique owned'.wellFormed.free
  refine ⟨state', rest, mapped, split, updated, owned', ?_, ?_, ?_⟩
  · intro other otherPage otherOutside different
    rw [updated.elsewhere otherPage different otherOutside, pml4,
      keeps.leafEntry_eq tables otherOutside, onTables_root]
    rfl
  · exact fun slot inside => mapPage_window_unmarked wellFormed.tables page
      upperPath_kernelStackBottom outside isFrame_zero asked mapped inside
  · exact fun frame reserved reserved' =>
      step_keeps owned step reserved reserved'

theorem StackMapped.translation_eq
    (mapped : StackMapped layout loader state frames state' rest)
    (nonNull : loader.pml4 ≠ 0#32) (isPage : IsPage page)
    (outside : ¬ InWindow layout page) (different : page ≠ kernelStackBottom) :
    translation state'.mem state'.pml4.toNat page =
      translationOf loader page := by
  rw [translationOf, if_neg nonNull, translation,
    mapped.same page isPage outside different, translation]

/-- A page of a segment lies outside of the window. -/
theorem segmentPage_outside {pi k : Nat}
    (isPage : IsPage (segmentPageAddress memory start pi k))
    (outside : (segmentPageAddress memory start pi k).toNat / 2 ^ 21 ≠
      linkedSymbols.physWindowPages.toNat / 2 ^ 21) :
    ¬ InWindow layout (segmentPageAddress memory start pi k) := by
  rintro ⟨path, _⟩
  have windowPage : IsPage linkedSymbols.physWindowPages := by decide
  exact outside (region_eq_of_upperPath isPage windowPage
    (path.trans (by decide)))

/-- What an entry with the flags of the stack maps. -/
theorem translation_stackFlags {root : Nat} {virt frame : Word}
    (found : leafEntry memory root virt =
      some ((stackFlags &&& ptFlagsMask) ||| frame))
    (isFrame : IsFrame frame) :
    translation memory root virt = some (frame, stackFlags) := by
  have present : Has ((stackFlags &&& ptFlagsMask) ||| frame) pagePBit :=
    has_or.mpr (Or.inl (by decide))
  have flags : (stackFlags &&& ptFlagsMask) &&& ptFlagsMask = stackFlags := by
    decide
  rw [translation_of_leafEntry found, if_pos present,
    frameOf_stored stackFlags isFrame, BitVec.and_or_distrib_right,
    flags_of_frame isFrame (by decide), flags, BitVec.or_zero]

/-- The frame of the stack was the first on the free list. -/
theorem stack_of_stackMapped {usedMem : Word}
    (mapped : StackMapped layout loader state frames state' rest)
    (first : IsFrame state.firstFreeBlock) (distinct : frames.Nodup)
    (available : ∀ page : Word,
      page.toNat ∈ frames ↔ Available usedMem entries page) :
    ∃ frame, Available usedMem entries frame ∧
      translation state'.mem state'.pml4.toNat kernelStackBottom =
        some (frame, stackFlags) ∧
      ∀ page : Word, page.toNat ∈ rest ↔
        page ≠ frame ∧ Available usedMem entries page := by
  have split := mapped.split
  refine ⟨state.firstFreeBlock, (available _).mp ?_, ?_, fun page => ?_⟩
  · rw [split]
    exact List.mem_cons_self
  · exact translation_stackFlags mapped.updated.here first
  · rw [split, List.nodup_cons] at distinct
    rw [← available, split, List.mem_cons]
    constructor
    · intro member
      refine ⟨?_, Or.inr member⟩
      rintro rfl
      exact distinct.1 member
    · rintro ⟨different, same | member⟩
      · exact absurd (BitVec.eq_of_toNat_eq same) different
      · exact member

variable (ready : KernelReady memory multiboot start linkedSymbols base loader)
include ready

/-- The loops of `main` can start. -/
theorem booted_of_stackMapped (nonNull : loader.pml4 ≠ 0#32)
    (above : 0x100000 < loader.usedMemory.toNat)
    (linked : layout.windowSize = physWindowSize.toNat)
    (mapped : StackMapped layout loader state frames state' rest)
    (first : IsFrame state.firstFreeBlock) :
    Booted layout (loader.usedMemory.setWidth 64) rest state' := by
  have used := toNat_setWidth_pointer loader.usedMemory
  have bound := loader.usedMemory.isLt
  have value := toNat_kernelStackBottom
  refine ⟨mapped.updated.wellFormed, linked, ?_, ?_, ?_, ?_, ?_⟩
  · rw [used]
    exact ready.aligned
  · rw [used]
    exact above
  · omega
  · intro page aligned inUse
    rw [used] at inUse
    have isPage := isPage_of_toNat (Or.inl (by omega)) aligned
    obtain ⟨_, flags, found, _⟩ := ready.identity page isPage inUse
    refine ⟨flags, ?_⟩
    rw [mapped.translation_eq nonNull isPage (low_outside (by omega))]
    · exact found
    · rintro rfl
      omega
  · intro virt entry
    refine unmarked_of_pages mapped.updated.wellFormed.tables mapped.window ?_
    intro page entry isPage outside found
    by_cases here : page = kernelStackBottom
    · subst here
      rw [mapped.updated.here] at found
      cases found
      exact fun marked => absurd (marked_of_stored first marked) (by decide)
    · rw [mapped.same page isPage outside here] at found
      exact ready.unmarked nonNull page entry found

/-- The page of the stack is the only new one. -/
theorem only_of_stackMapped (nonNull : loader.pml4 ≠ 0#32)
    (linked : layout.windowSize = physWindowSize.toNat)
    (laidOut : LaidOut linkedSymbols)
    (mapped : StackMapped layout loader state frames state' rest)
    (isPage : IsPage page)
    (found : (translation state'.mem state'.pml4.toNat page).isSome) :
    page.toNat < (loader.usedMemory.setWidth 64).toNat ∨
      page ∈ kernelPages memory start linkedSymbols ∨
      page = kernelStackBottom := by
  by_cases here : page = kernelStackBottom
  · exact Or.inr (Or.inr here)
  by_cases inside : InWindow layout page
  · obtain ⟨wi, wiSmall, same⟩ := windowPage_of_inWindow linked laidOut isPage
      inside
    exact Or.inr (Or.inl (Or.inr (Or.inr ⟨wi, wiSmall, same⟩)))
  · rw [mapped.translation_eq nonNull isPage inside here] at found
    rw [toNat_setWidth_pointer]
    exact (ready.only page isPage found).imp_right Or.inl

/-- The segments keep their places and their bytes. -/
theorem placed_of_stackMapped (nonNull : loader.pml4 ≠ 0#32)
    (startNonNull : start ≠ 0#32) (basePositive : 0 < base)
    (laidOut : LaidOut linkedSymbols)
    (outside : ∀ pi k, IsSegmentPage memory start pi k →
      (segmentPageAddress memory start pi k).toNat / 2 ^ 21 ≠
        linkedSymbols.physWindowPages.toNat / 2 ^ 21)
    (tables : MapperState.Tables layout (onTables loader).mem
      (onTables loader).pml4.toNat)
    (added : Added layout (loader.usedMemory.setWidth 64) entries 0 []
      (onTables loader) state frames)
    (keeps : KeepsPages layout (onTables loader).pml4.toNat
      (onTables loader).mem state.mem)
    (pml4 : state.pml4 = (onTables loader).pml4)
    (mapped : StackMapped layout loader state frames state' rest)
    {pi k : Nat} (segmentPage : IsSegmentPage memory start pi k) :
    IsPage (segmentPageAddress memory start pi k) ∧
    ∃ frame, Reserved state' frame ∧
      frame + 4096 ≤ (loader.usedMemory.setWidth 64).toNat ∧
      translation state'.mem state'.pml4.toNat
          (segmentPageAddress memory start pi k) =
        some (BitVec.ofNat 64 frame, imageFlags) ∧
      ∀ offset, offset < 4096 →
        state'.mem (frame + offset) =
          segmentByte memory start pi (4096 * k + offset) := by
  obtain ⟨frame, placed⟩ := ready.placed pi k segmentPage
  have framed := placed.framed
  have below := framed.below
  have used := toNat_setWidth_pointer loader.usedMemory
  have outsidePage :=
    outside pi k segmentPage
  have free := freeListTo_zero.mp added.free
  have positive : 0 < frame := by
    have nonzero : start.toNat ≠ 0 := fun zero =>
      startNonNull (BitVec.eq_of_toNat_eq zero)
    by_cases inFile : 4096 * k < fileszOf memory start pi
    · have place := framed.inFile inFile
      omega
    · have place := framed.fresh (Nat.le_of_not_lt inFile)
      omega
  -- the frame is no table, and lies below all free frames
  have notFree : frame ∉ frames := fun member => by
    have lower := added_ge added member
    omega
  have notTable : ¬ IsTable state.mem state.pml4.toNat frame := by
    rw [pml4, keeps.isTable_iff, onTables_root]
    exact fun isTable => framed.unlinked ⟨nonNull, isTable⟩
  have reserved : Reserved state frame := by
    refine ⟨framed.aligned, positive, notTable, ?_⟩
    rw [freeFrames_eq free]
    exact notFree
  have reserved' : Reserved state' frame := by
    refine ⟨framed.aligned, positive, fun isTable =>
      notTable (mapped.updated.isTable_iff.mp isTable), ?_⟩
    rw [freeFrames_eq mapped.updated.wellFormed.free]
    exact fun member => notFree (mapped.split ▸ List.mem_cons_of_mem _ member)
  have walked : AgreeOn state.mem loader.mem frame 4096 := by
    refine added.agree.agreeOn (Set.disjoint_union_right.mpr ⟨?_, ?_⟩)
    · refine frame_disjoint_slots framed.aligned fun same => notTable ?_
      rw [same, pml4]
      exact keeps.isTable_iff.mpr ⟨windowPath, by decide, tables.window⟩
    · rw [Set.disjoint_left]
      rintro cell inFrame ⟨other, member, inHeader⟩
      have lower := added_ge added member
      rw [mem_cells] at inFrame inHeader
      omega
  refine ⟨placed.isPage, frame, reserved', by omega, ?_, ?_⟩
  · rw [mapped.translation_eq nonNull placed.isPage
      (segmentPage_outside placed.isPage outsidePage), placed.mapped]
    intro here
    have unmapped := stack_unmapped ready laidOut outside
    rw [← here, placed.mapped] at unmapped
    cases unmapped
  · intro offset inside
    rw [mapped.kept frame reserved reserved' _ (Nat.le_add_right _ _)
      (by omega), walked _ (Nat.le_add_right _ _) (by omega)]
    exact framed.content offset inside

end Startup

/-! ## Loader and kernel together -/

/-- A memory map without entries that wrap around or overlap, in which the
memory above the memory in use starts with whole frames, and has five of
them. -/
structure Spacious (usedMem : Word) (entries : List Entry) : Prop where
  unwrapped :
    ∀ entry ∈ entries, entry.base.toNat + entry.length.toNat < 2 ^ 64
  disjoint : entries.Pairwise Entry.Apart
  whole : ∀ entry ∈ entries, entry.Above usedMem → entry.StartsWhole usedMem
  room :
    ∃ pages : List Word, pages.Nodup ∧ pages.length = 5 ∧
      ∀ page ∈ pages, Available usedMem entries page

section Boot

variable {processor : Processor} {eax multiboot : LoaderPaging.Pointer}
  {state loaded kernelState loader : Loader} {limit size bound : Nat}
  {tags : List Tag} {kernel : Kernel} {entry : Word} {entered : Entered}
  {layout : Layout}

/-- The tag walk can start on the loader's tables. -/
theorem starts_onTables
    (boots : Boots processor eax multiboot state limit tags kernel size)
    (ready : KernelReady state.mem multiboot kernel.start linkedSymbols
      (beforeKernel multiboot kernel state).usedMemory.toNat loader)
    (limitLe : limit ≤
      (beforeKernel multiboot kernel state).usedMemory.toNat)
    (nonNull : loader.pml4 ≠ 0#32)
    (isTable : IsTable loader.mem loader.pml4.toNat layout.windowPt)
    (aligned : multiboot.toNat % 8 = 0) (given : multiboot ≠ 0#32)
    (spacious : Spacious (loader.usedMemory.setWidth 64) (entriesOf tags)) :
    Starts layout (multiboot.setWidth 64) (loader.usedMemory.setWidth 64)
      limit tags (onTables loader) := by
  have used := toNat_setWidth_pointer loader.usedMemory
  have first := toNat_setWidth_pointer multiboot
  have tableBounds := ready.tables layout.windowPt ⟨nonNull, isTable⟩
  have baseLe := ready.base_le
  have limitLt := boots.limit_le
  have limitEq := boots.limit_eq
  have found := boots.found.bound
  refine ⟨?_, ?_, ?_, ?_, ?_, ?_, ?_, rfl, spacious.unwrapped,
    spacious.disjoint⟩
  · rw [used]
    exact ready.aligned
  · omega
  · rw [first]
    exact aligned
  · intro zero
    rw [zero] at first
    exact given (BitVec.eq_of_toNat_eq first.symm)
  · rw [first]
    have agree : AgreeOn loader.mem state.mem multiboot.toNat
        (limit - multiboot.toNat) := by
      intro cell lower upper
      refine ready.info cell ?_
      rw [infoCells, mem_cells]
      omega
    exact tagsIn_congr boots.found agree (Nat.le_add_right _ _) (by omega)
  · omega
  · refine Set.disjoint_of_subset_right slotCells_subset_windowPt ?_
    exact cells_disjoint (by omega)

/-- When the loader has booted a kernel with the linker script's symbols,
`early_main` returns and leaves what `main` and the mapper start from. -/
theorem earlyMain_readies
    (boots : Boots processor eax multiboot state limit tags kernel size)
    (loads : LoadsKernel kernel.start (beforeKernel multiboot kernel state)
      loaded linkedSymbols entry bound kernelState)
    (aligned : multiboot.toNat % 8 = 0) (given : multiboot ≠ 0#32)
    (returned : loaderMain processor eax multiboot state =
      .ok (entered, loader))
    (spacious : Spacious entered.rsi (entriesOf tags)) :
    ∃ layout mapper frames,
      earlyMain layout entered.rdi entered.rsi (entered.cr3.setWidth 64)
        (linkedMapper loader.mem) = .ok mapper ∧
      MainReady state.mem kernel.start layout entered.rsi (entriesOf tags)
        mapper frames := by
  obtain ⟨loader', returned', ready, _, _⟩ :=
    LoaderMain.loaderMain_ready boots loads
  rw [returned] at returned'
  obtain ⟨rfl, rfl⟩ := Prod.mk.inj (Except.ok.inj returned')
  obtain ⟨memEq, fresh, limitLe, _⟩ := boots.beforeKernel
  have outside := loads.outside
  rw [memEq] at outside
  obtain ⟨layout, linked, nonNull, isTable, tables⟩ := exists_layout ready
  have starts := starts_onTables boots ready limitLe nonNull isTable aligned
    given spacious
  -- the free list
  obtain ⟨walked, frames, walk, pml4, added, available⟩ :=
    tagWalk_adds starts spacious.whole
  obtain ⟨keeps, owned⟩ := owned_of_added ready nonNull tables added pml4
  have nonempty : frames ≠ [] := by
    obtain ⟨pages, _, count, isAvailable⟩ := spacious.room
    obtain ⟨page, rest, rfl⟩ :=
      List.exists_cons_of_length_pos (by omega : 0 < pages.length)
    exact List.ne_nil_of_mem
      ((available page).mpr (isAvailable page List.mem_cons_self))
  -- the stack
  obtain ⟨mapper, rest, stackMapped, mapped⟩ := mapPage_stack nonNull linked
    tables keeps pml4 owned nonempty
    (stack_unmapped ready loads.laidOut outside)
  have first := owned.wellFormed.free.isFrame_first
  have tableBounds := ready.tables layout.windowPt ⟨nonNull, isTable⟩
  have above := fresh.above
  refine ⟨layout, mapper, rest, ?_,
    booted_of_stackMapped ready nonNull (by omega) linked mapped first,
    mapped.owned, stack_of_stackMapped mapped first added.distinct available,
    fun virt isPage found => only_of_stackMapped ready nonNull linked
      loads.laidOut mapped isPage found,
    fun pi k segmentPage => placed_of_stackMapped ready nonNull boots.nonNull
      (by omega) loads.laidOut outside tables added keeps pml4 mapped
      segmentPage⟩
  simp only [earlyMain]
  exact (congrArg (· >>= _) walk).trans stackMapped

end Boot

end BeaverOS.Startup

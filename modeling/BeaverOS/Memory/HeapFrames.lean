import BeaverOS.Memory.Calls
import BeaverOS.Memory.Sbrk
import BeaverOS.Memory.WideState

/-!
# The frames of the heap

`sbrk` over the kernel's own `map_page`. Growing takes its frames from the free
list, one for each page. Shrinking clears entries that do not carry
`PAGE_F_BIT`, so no frame goes back.
-/

namespace BeaverOS.HeapFrames

open BeaverOS.Transition
open BeaverOS.Paging
open BeaverOS.Window
open BeaverOS.FrameAllocator
open BeaverOS.PageTree
open BeaverOS.Mapper
open BeaverOS.MapperState
open BeaverOS.Calls
open BeaverOS.Linker
open BeaverOS.Sbrk
open BeaverOS.WideState

/-- The page number `n` of the heap. -/
def heapPage (progBreakBegin : Word) (n : Nat) : Word :=
  progBreakBegin + BitVec.ofNat 64 (4096 * n)

/-- The number of present pages in [`_prog_break_begin`, `prog_break`). -/
def presentPages (progBreakBegin : Word) (heap : Heap Mapper) : Nat :=
  ((List.range
    ((heap.progBreak.toNat - progBreakBegin.toNat) / 4096)).filter fun n =>
      (translation heap.memory.mem heap.memory.pml4.toNat
        (heapPage progBreakBegin n)).isSome).length

/-- The frames on the free list and the present pages of the heap add up to
`total`. -/
def Balances (progBreakBegin : Word) (total : Nat) (heap : Heap Mapper) :
    Prop :=
  ∃ frames,
    FreeList heap.memory.mem heap.memory.firstFreeBlock frames ∧
      frames.length + presentPages progBreakBegin heap = total

/-- The heap before the first call, with page tables for its whole range. -/
structure Start (layout : Layout) (progBreakBegin : Word) (frames : List Nat)
    (heap : Heap Mapper) : Prop where
  wellFormed : WellFormed layout heap.memory frames
  progBreak_eq : heap.progBreak = progBreakBegin
  absent :
    ∀ page, IsHeapPage progBreakBegin page →
      ∃ entry,
        leafEntry heap.memory.mem heap.memory.pml4.toNat page = some entry ∧
          ¬ Has entry pagePBit

/-- A call that returns. -/
def Call (layout : Layout) (progBreakBegin : Word) (fuel : Nat)
    (heap : Heap Mapper) (difference : Word) (heap' : Heap Mapper) : Prop :=
  ∃ prevBreak, sbrk (mapPage layout) progBreakBegin fuel heap difference =
    .ok (prevBreak, heap')

/-- The call does not lower the break. -/
def Raises (heap : Heap Mapper) (difference : Word) (_heap' : Heap Mapper) :
    Prop :=
  (heap.progBreak.toNat : Int) ≤ target heap.progBreak difference

/-! ## Invariant -/

/-- The pages below the break are present and free nothing, those from the
break on are absent. -/
structure HeapInvariant (layout : Layout) (progBreakBegin : Word)
    (frames : List Nat) (heap : Heap Mapper) : Prop where
  wellFormed : WellFormed layout heap.memory frames
  aligned : heap.progBreak.toNat % 4096 = 0
  low : progBreakBegin.toNat ≤ heap.progBreak.toNat
  high : heap.progBreak.toNat ≤ progBreakEnd.toNat
  entries :
    ∀ page, IsHeapPage progBreakBegin page →
      ∃ entry,
        leafEntry heap.memory.mem heap.memory.pml4.toNat page = some entry ∧
          (page.toNat < heap.progBreak.toNat →
            Has entry pagePBit ∧ ¬ Has entry pageFBit) ∧
          (heap.progBreak.toNat ≤ page.toNat → ¬ Has entry pagePBit)

section Pages

variable {layout : Layout} {progBreakBegin page : Word}

theorem isPage_of_isHeapPage (begin : IsProgBreakBegin progBreakBegin)
    (isHeapPage : IsHeapPage progBreakBegin page) : IsPage page := by
  obtain ⟨aligned, above, _⟩ := isHeapPage
  have image := begin.image
  have bound := page.isLt
  exact isPage_of_toNat (Or.inr (by omega)) aligned

/-- The window lies above the heap. -/
theorem outside_of_isHeapPage
    (linked : layout.windowSize = physWindowSize.toNat)
    (begin : IsProgBreakBegin progBreakBegin)
    (isHeapPage : IsHeapPage progBreakBegin page) :
    ¬ InWindow layout page := by
  rintro ⟨path, last⟩
  obtain ⟨_, above, below⟩ := isHeapPage
  have image := begin.image
  have size : physWindowSize.toNat = 4 := rfl
  rw [toNat_progBreakEnd] at below
  rw [linked, size] at last
  simp only [upperPath, windowPath, List.cons.injEq, Fin.ext_iff, indexAt_val,
    and_true] at path
  simp only [leafIndex, indexAt_val, pageTableSize] at last
  obtain ⟨first, second, third⟩ := path
  change _ = 511 at first
  change _ = 511 at second
  change _ = 511 at third
  omega

end Pages

section Invariant

variable {layout : Layout} {progBreakBegin difference : Word} {fuel : Nat}
  {frames : List Nat} {heap heap' : Heap Mapper} {bound : Int}

theorem Start.invariant (begin : IsProgBreakBegin progBreakBegin)
    (start : Start layout progBreakBegin frames heap) :
    HeapInvariant layout progBreakBegin frames heap := by
  obtain ⟨wellFormed, isBegin, absent⟩ := start
  refine ⟨wellFormed, ?_, ?_, ?_, ?_⟩
  · rw [isBegin]
    exact begin.aligned
  · rw [isBegin]
  · rw [isBegin]
    exact begin.room
  · intro page isPage
    obtain ⟨entry, found, notPresent⟩ := absent page isPage
    refine ⟨entry, found, fun below => ?_, fun _ => notPresent⟩
    rw [isBegin] at below
    exact absurd isPage.2.1 (Nat.not_le.mpr below)

theorem presentPages_eq (begin : IsProgBreakBegin progBreakBegin)
    (invariant : HeapInvariant layout progBreakBegin frames heap) :
    presentPages progBreakBegin heap =
      (heap.progBreak.toNat - progBreakBegin.toNat) / 4096 := by
  have aligned := invariant.aligned
  have high := invariant.high
  have beginAligned := begin.aligned
  rw [presentPages, List.filter_eq_self.mpr, List.length_range]
  intro n member
  rw [List.mem_range] at member
  have value : (heapPage progBreakBegin n).toNat =
      progBreakBegin.toNat + 4096 * n := by
    have room := progBreakEnd.isLt
    rw [heapPage, BitVec.toNat_add, BitVec.toNat_ofNat]
    omega
  obtain ⟨entry, found, present, _⟩ :=
    invariant.entries (heapPage progBreakBegin n)
      ⟨by omega, by omega, by omega⟩
  rw [translation_of_leafEntry found, if_pos (present (by omega)).1]
  rfl

theorem balances_iff (begin : IsProgBreakBegin progBreakBegin)
    (invariant : HeapInvariant layout progBreakBegin frames heap)
    (total : Nat) :
    Balances progBreakBegin total heap ↔
      frames.length +
        (heap.progBreak.toNat - progBreakBegin.toNat) / 4096 = total := by
  rw [← presentPages_eq begin invariant]
  constructor
  · rintro ⟨other, free, sum⟩
    rw [invariant.wellFormed.free.unique free]
    exact sum
  · exact fun sum => ⟨frames, invariant.wellFormed.free, sum⟩

/-- One page more, with a frame from the free list. -/
theorem grow_round (linked : layout.windowSize = physWindowSize.toNat)
    (begin : IsProgBreakBegin progBreakBegin)
    (invariant : HeapInvariant layout progBreakBegin frames heap)
    (more : (heap.progBreak.toNat : Int) < bound)
    (newAligned : bound % 4096 = 0) (bounded : bound ≤ progBreakEnd.toNat) :
    (∃ memory rest,
      mapPage layout heap.memory heap.progBreak mapAnon heapFlags =
          .ok memory ∧
        frames.length = rest.length + 1 ∧
        HeapInvariant layout progBreakBegin rest
          { progBreak := heap.progBreak + 4096#64, memory := memory }) ∨
      (mapPage layout heap.memory heap.progBreak mapAnon heapFlags =
          .error (.panic "no memory availible") ∧ frames = []) := by
  have aligned := invariant.aligned
  have low := invariant.low
  have next : (heap.progBreak + 4096#64).toNat =
      heap.progBreak.toNat + 4096 := by
    rw [toNat_progBreakEnd] at bounded
    exact toNat_add_page (by omega)
  have isHeapPage : IsHeapPage progBreakBegin heap.progBreak :=
    ⟨aligned, low, by omega⟩
  have page := isPage_of_isHeapPage begin isHeapPage
  have outside := outside_of_isHeapPage linked begin isHeapPage
  obtain ⟨entry, found, _, absent⟩ := invariant.entries _ isHeapPage
  obtain ⟨table, walked, entryEq⟩ := leafTable_of_leafEntry found
  rcases Populated.mapPage_returns invariant.wellFormed page outside walked
      isFrame_zero (by decide : Has heapFlags pagePBit) with
    ⟨memory, mapped⟩ | ⟨panicked, _, _, empty⟩
  · left
    obtain ⟨rest, framesEq, updated⟩ := mapPage_allocates
      invariant.wellFormed page outside found (absent (Nat.le_refl _))
      (by decide) mapped
    refine ⟨memory, rest, mapped, by rw [framesEq, List.length_cons],
      updated.wellFormed, ?_, ?_, ?_, ?_⟩
    · rw [next]
      omega
    · rw [next]
      omega
    · rw [next]
      omega
    · intro other isOther
      rw [next]
      have otherAligned := isOther.1
      by_cases here : other = heap.progBreak
      · rw [here]
        have first := invariant.wellFormed.free.isFrame_first
        refine ⟨_, updated.here, fun _ => ⟨?_, ?_⟩, fun above => ?_⟩
        · exact has_or.mpr (Or.inl (by decide))
        · rw [has_or, not_or]
          exact ⟨by decide, not_has_of_isFrame first (by decide)⟩
        · omega
      · have different : other.toNat ≠ heap.progBreak.toNat :=
          fun equal => here (BitVec.eq_of_toNat_eq equal)
        obtain ⟨old, foundOld, below, above⟩ := invariant.entries other isOther
        refine ⟨old, ?_, fun lower => below (by omega),
          fun upper => above (by omega)⟩
        rw [← foundOld]
        exact updated.elsewhere (isPage_of_isHeapPage begin isOther) here
          (outside_of_isHeapPage linked begin isOther)
  · exact Or.inr ⟨panicked, empty⟩

/-- One page less, and the free list as it was. -/
theorem shrink_round (linked : layout.windowSize = physWindowSize.toNat)
    (begin : IsProgBreakBegin progBreakBegin)
    (invariant : HeapInvariant layout progBreakBegin frames heap)
    (more : bound < heap.progBreak.toNat) (newAligned : bound % 4096 = 0)
    (bounded : (progBreakBegin.toNat : Int) ≤ bound) :
    ∃ memory,
      mapPage layout heap.memory (heap.progBreak - 4096#64) 0#64 0#64 =
          .ok memory ∧
        HeapInvariant layout progBreakBegin frames
          { progBreak := heap.progBreak - 4096#64, memory := memory } := by
  have aligned := invariant.aligned
  have high := invariant.high
  have next : (heap.progBreak - 4096#64).toNat =
      heap.progBreak.toNat - 4096 := toNat_sub_page (by omega)
  have isHeapPage : IsHeapPage progBreakBegin (heap.progBreak - 4096#64) :=
    ⟨by omega, by omega, by omega⟩
  have page := isPage_of_isHeapPage begin isHeapPage
  have outside := outside_of_isHeapPage linked begin isHeapPage
  obtain ⟨entry, found, present, _⟩ := invariant.entries _ isHeapPage
  obtain ⟨memory, mapped, updated⟩ := mapPage_clears invariant.wellFormed page
    outside found (fun _ => (present (by omega)).2) isFrame_zero
    (by decide : ¬ Has 0#64 pagePBit)
  refine ⟨memory, mapped, updated.wellFormed, ?_, ?_, ?_, ?_⟩
  · rw [next]
    omega
  · rw [next]
    omega
  · rw [next]
    omega
  · intro other isOther
    rw [next]
    have otherAligned := isOther.1
    by_cases here : other = heap.progBreak - 4096#64
    · rw [here]
      refine ⟨_, updated.here, fun below => ?_, fun _ => ?_⟩
      · rw [next] at below
        omega
      · exact not_has_and_of_disjoint (by decide)
    · have different : other.toNat ≠ heap.progBreak.toNat - 4096 :=
        fun equal => here (BitVec.eq_of_toNat_eq (equal.trans next.symm))
      obtain ⟨old, foundOld, below, above⟩ := invariant.entries other isOther
      refine ⟨old, ?_, fun lower => below (by omega),
        fun upper => above (by omega)⟩
      rw [← foundOld]
      exact updated.elsewhere (isPage_of_isHeapPage begin isOther) here
        (outside_of_isHeapPage linked begin isOther)

/-! ## Calls -/

/-- A call that does not lower the break takes a frame for each new page. It
stops only where these are too few. -/
theorem moveBreak_raises (linked : layout.windowSize = physWindowSize.toNat)
    (begin : IsProgBreakBegin progBreakBegin) (enough : 2 ^ 52 ≤ fuel)
    (invariant : HeapInvariant layout progBreakBegin frames heap)
    (inBounds : InBounds progBreakBegin heap.progBreak difference)
    (raises : Raises heap difference heap') :
    Reaches (moveBreak (mapPage layout) fuel heap difference)
      (roundUp (heap.progBreak + difference))
      (fun halt => halt = .panic "no memory availible" ∧
        4096 * (frames.length : Int) + heap.progBreak.toNat <
          target heap.progBreak difference)
      (fun middle => ∃ rest,
        HeapInvariant layout progBreakBegin rest middle ∧
          4096 * rest.length + middle.progBreak.toNat =
            4096 * frames.length + heap.progBreak.toNat ∧
          (middle.progBreak.toNat : Int) ≤
            target heap.progBreak difference) := by
  have newAligned : target heap.progBreak difference % 4096 = 0 :=
    Int.emod_eq_zero_of_dvd (target_isLeast heap.progBreak difference).1.1
  refine moveBreak_reaches begin invariant.aligned invariant.low
    invariant.high inBounds enough ⟨frames, invariant, rfl, raises⟩ ?_ ?_
  · rintro middle ⟨rest, holds, sum, _⟩ aligned more
    have below := inBounds.2
    have next : (middle.progBreak + 4096#64).toNat =
        middle.progBreak.toNat + 4096 := by
      rw [toNat_progBreakEnd] at below
      exact toNat_add_page (by omega)
    obtain ⟨memory, fewer, mapped, lengths, holds'⟩ | ⟨panicked, rfl⟩ :=
      grow_round linked begin holds more newAligned below
    · have sum' : 4096 * fewer.length + (middle.progBreak + 4096#64).toNat =
          4096 * frames.length + heap.progBreak.toNat := by omega
      have upper : ((middle.progBreak + 4096#64).toNat : Int) ≤
          target heap.progBreak difference := by omega
      rw [mapped]
      exact ⟨fewer, holds', sum', upper⟩
    · rw [panicked]
      refine ⟨rfl, ?_⟩
      rw [List.length_nil] at sum
      omega
  · rintro middle ⟨_, _, _, above⟩ _ more
    omega

/-- A call that lowers the break leaves the free list alone. -/
theorem moveBreak_lowers (linked : layout.windowSize = physWindowSize.toNat)
    (begin : IsProgBreakBegin progBreakBegin) (enough : 2 ^ 52 ≤ fuel)
    (invariant : HeapInvariant layout progBreakBegin frames heap)
    (inBounds : InBounds progBreakBegin heap.progBreak difference)
    (lowers : ¬ Raises heap difference heap') :
    Reaches (moveBreak (mapPage layout) fuel heap difference)
      (roundUp (heap.progBreak + difference)) (fun _ => False)
      (fun middle => HeapInvariant layout progBreakBegin frames middle ∧
        target heap.progBreak difference ≤ middle.progBreak.toNat) := by
  have newAligned : target heap.progBreak difference % 4096 = 0 :=
    Int.emod_eq_zero_of_dvd (target_isLeast heap.progBreak difference).1.1
  refine moveBreak_reaches begin invariant.aligned invariant.low
    invariant.high inBounds enough
    ⟨invariant, Int.le_of_lt (Int.not_le.mp lowers)⟩ ?_ ?_
  · rintro middle ⟨_, above⟩ _ more
    omega
  · rintro middle ⟨holds, _⟩ aligned more
    have above := inBounds.1
    have previous : (middle.progBreak - 4096#64).toNat =
        middle.progBreak.toNat - 4096 := toNat_sub_page (by omega)
    obtain ⟨memory, mapped, holds'⟩ :=
      shrink_round linked begin holds more newAligned inBounds.1
    rw [mapped]
    refine ⟨holds', ?_⟩
    change _ ≤ ((middle.progBreak - 4096#64).toNat : Int)
    rw [previous]
    omega

theorem Call.raised (linked : layout.windowSize = physWindowSize.toNat)
    (begin : IsProgBreakBegin progBreakBegin) (enough : 2 ^ 52 ≤ fuel)
    (invariant : HeapInvariant layout progBreakBegin frames heap)
    (call : Call layout progBreakBegin fuel heap difference heap')
    (raises : Raises heap difference heap') :
    ∃ rest, HeapInvariant layout progBreakBegin rest heap' ∧
      4096 * rest.length + heap'.progBreak.toNat =
        4096 * frames.length + heap.progBreak.toNat := by
  obtain ⟨_, returned⟩ := call
  obtain ⟨inBounds, moved⟩ :=
    sbrk_returned begin invariant.low invariant.high returned
  obtain ⟨result, same, ⟨rest, holds, sum, _⟩, _⟩ | ⟨_, _, stopped, _⟩ :=
    moveBreak_raises linked begin enough invariant inBounds raises
  · cases moved.symm.trans same
    exact ⟨rest, holds, sum⟩
  · cases moved.symm.trans stopped

theorem Call.lowered (linked : layout.windowSize = physWindowSize.toNat)
    (begin : IsProgBreakBegin progBreakBegin) (enough : 2 ^ 52 ≤ fuel)
    (invariant : HeapInvariant layout progBreakBegin frames heap)
    (call : Call layout progBreakBegin fuel heap difference heap')
    (lowers : ¬ Raises heap difference heap') :
    HeapInvariant layout progBreakBegin frames heap' ∧
      heap'.progBreak.toNat < heap.progBreak.toNat := by
  obtain ⟨_, returned⟩ := call
  obtain ⟨inBounds, moved⟩ :=
    sbrk_returned begin invariant.low invariant.high returned
  have rounded := (roundUp_spec begin invariant.low invariant.high).1 inBounds
  obtain ⟨result, same, ⟨holds, _⟩, isBreak⟩ | ⟨_, _, _, never⟩ :=
    moveBreak_lowers linked begin enough invariant inBounds lowers
  · cases moved.symm.trans same
    refine ⟨holds, ?_⟩
    rw [Raises] at lowers
    rw [isBreak]
    omega
  · exact never.elim

end Invariant

/-! ## Runs of calls -/

section Runs

variable {layout : Layout} {progBreakBegin : Word} {fuel : Nat}
  {frames : List Nat} {heap : Heap Mapper} {differences : List Word}

/-- Every call of a run that returns leaves the sum of free frames and heap
pages as it was, exactly when no call lowers the break. -/
theorem run_balances_iff (linked : layout.windowSize = physWindowSize.toNat)
    (begin : IsProgBreakBegin progBreakBegin) (enough : 2 ^ 52 ≤ fuel)
    (start : Start layout progBreakBegin frames heap) :
    Always (Call layout progBreakBegin fuel) heap differences
        (fun _ heap => Balances progBreakBegin frames.length heap) ↔
      AlwaysStep (Call layout progBreakBegin fuel) heap differences
        Raises := by
  have beginAligned := begin.aligned
  refine always_iff_of_invariant
    (fun _ heap => ∃ rest, HeapInvariant layout progBreakBegin rest heap ∧
      rest.length +
        (heap.progBreak.toNat - progBreakBegin.toNat) / 4096 =
          frames.length) ?_ ?_ ?_ ?_
  · refine ⟨frames, start.invariant begin, ?_⟩
    rw [start.progBreak_eq]
    omega
  · rintro _ difference heap heap' ⟨rest, invariant, sum⟩ call raises
    obtain ⟨fewer, invariant', sum'⟩ :=
      call.raised linked begin enough invariant raises
    refine ⟨fewer, invariant', ?_⟩
    have aligned := invariant.aligned
    have aligned' := invariant'.aligned
    have low := invariant.low
    have low' := invariant'.low
    omega
  · rintro _ heap ⟨rest, invariant, sum⟩
    exact (balances_iff begin invariant _).mpr sum
  · rintro _ difference heap heap' ⟨rest, invariant, sum⟩ call balances
    by_contra lowers
    obtain ⟨invariant', lower⟩ :=
      call.lowered linked begin enough invariant lowers
    have sum' := (balances_iff begin invariant' _).mp balances
    have aligned := invariant.aligned
    have aligned' := invariant'.aligned
    have low := invariant.low
    have low' := invariant'.low
    omega

end Runs

/-- The heap behind a kernel image of one megabyte, with eight free frames. -/
def wideHeap : Heap Mapper where
  progBreak := smallBegin
  memory := wideState 8

theorem start_wideHeap :
    Start wideLayout smallBegin (BlockChain.blockFrames 4096 0x10000 8)
      wideHeap := by
  refine ⟨wideState_wellFormed (by decide) (by decide), rfl, ?_⟩
  intro page isHeapPage
  have above := isHeapPage.2.1
  have image := isProgBreakBegin_small.image
  exact ⟨0#64, leafEntry_wide (by omega), by decide⟩

theorem run_balances_iff_wide :
    Always (Call wideLayout smallBegin (2 ^ 52)) wideHeap [4096#64]
        (fun _ heap => Balances smallBegin
          (BlockChain.blockFrames 4096 0x10000 8).length heap) ↔
      AlwaysStep (Call wideLayout smallBegin (2 ^ 52)) wideHeap [4096#64]
        Raises :=
  run_balances_iff rfl isProgBreakBegin_small (Nat.le_refl _) start_wideHeap

/-- One page more, and one page less: seven frames are left. -/
theorem shrinking_leaks :
    Start wideLayout smallBegin (BlockChain.blockFrames 4096 0x10000 8)
        wideHeap ∧
      ¬ Always (Call wideLayout smallBegin (2 ^ 52)) wideHeap
        [4096#64, -4096#64] (fun _ heap => Balances smallBegin
          (BlockChain.blockFrames 4096 0x10000 8).length heap) := by
  refine ⟨start_wideHeap, fun always => ?_⟩
  have begin := isProgBreakBegin_small
  have linked : wideLayout.windowSize = physWindowSize.toNat := rfl
  have invariant := start_wideHeap.invariant begin
  have frames : (BlockChain.blockFrames 4096 0x10000 8).length = 8 := by
    decide
  have bottom : wideHeap.progBreak.toNat = 0xffffff8000100000 := by decide
  -- the first call
  have upwards : target wideHeap.progBreak 4096#64 = 0xffffff8000101000 := by
    decide
  have inBounds : InBounds smallBegin wideHeap.progBreak 4096#64 := by decide
  have raises : Raises wideHeap 4096#64 wideHeap := by
    rw [Raises, upwards, bottom]
    decide
  have newBreak := (roundUp_spec begin invariant.low invariant.high).1 inBounds
  obtain ⟨grown, moved, ⟨rest, invariant', sum, _⟩, isBreak⟩ |
      ⟨_, _, _, _, few⟩ :=
    moveBreak_raises linked begin (Nat.le_refl (2 ^ 52)) invariant inBounds
      raises
  · have top : grown.progBreak.toNat = 0xffffff8000101000 := by
      rw [isBreak]
      omega
    have first : Call wideLayout smallBegin (2 ^ 52) wideHeap 4096#64 grown := by
      refine ⟨wideHeap.progBreak, ?_⟩
      rw [sbrk_eq begin invariant.low invariant.high inBounds, moved]
      rfl
    -- the second call
    have downwards : target grown.progBreak (-4096#64) =
        0xffffff8000100000 := by
      rw [target, top]
      decide
    have inBounds' : InBounds smallBegin grown.progBreak (-4096#64) := by
      rw [InBounds, downwards]
      decide
    have lowers : ¬ Raises grown (-4096#64) grown := by
      rw [Raises, downwards, top]
      decide
    obtain ⟨shrunk, moved', ⟨invariant'', _⟩, _⟩ | ⟨_, _, _, never⟩ :=
      moveBreak_lowers linked begin (Nat.le_refl (2 ^ 52)) invariant' inBounds'
        lowers
    · have second : Call wideLayout smallBegin (2 ^ 52) grown (-4096#64)
          shrunk := by
        refine ⟨grown.progBreak, ?_⟩
        rw [sbrk_eq begin invariant'.low invariant'.high inBounds', moved']
        rfl
      have lower := (second.lowered linked begin (Nat.le_refl _) invariant'
        lowers).2
      have run : Run (Call wideLayout smallBegin (2 ^ 52)) wideHeap
          [4096#64, -4096#64] shrunk := (Run.nil.snoc first).snoc second
      have balances := (balances_iff begin invariant'' _).mp (always.last run)
      have start : smallBegin.toNat = 0xffffff8000100000 := by decide
      have low := invariant''.low
      rw [frames] at balances sum
      omega
    · exact never.elim
  · rw [frames, upwards, bottom] at few
    omega

end BeaverOS.HeapFrames

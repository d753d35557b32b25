import Mathlib.Order.Bounds.Defs
import BeaverOS.Lib.Transition
import BeaverOS.Memory.Linker
import BeaverOS.Memory.Window

/-!
# The program break

`sbrk` of `memory/memory.c`, over any `map_page`. The loops move the break page
by page; a call that stops leaves the heap as it is at that point.
-/

namespace BeaverOS.Sbrk

open BeaverOS.Linker
open BeaverOS.Paging
open BeaverOS.Transition
open BeaverOS.Window

/-- `prog_break`, with the memory that `map_page` works on. -/
structure Heap (σ : Type) where
  progBreak : Word
  memory : σ

inductive Stop where
  | halt (halt : Halt)
  | unfinished

/-! ## The source -/

section Source

variable {σ : Type} (mapPage : σ → Word → Word → Word → Except Halt σ)
  (progBreakBegin : Word)

/-- A call of `map_page`. -/
def heapMap (heap : Heap σ) (virt phys flags : Word) :
    Except (Stop × Heap σ) (Heap σ) :=
  match mapPage heap.memory virt phys flags with
  | .ok memory => .ok { heap with memory := memory }
  | .error halt => .error (.halt halt, heap)

/-- The flags of heap pages. -/
def heapFlags : Word := pagePBit ||| pageRwBit ||| pageGBit

/-- The loop for a positive difference, for at most `fuel` rounds. -/
def growLoop (newBreak : Word) :
    Nat → Heap σ → Except (Stop × Heap σ) (Heap σ)
  | 0, heap =>
      if heap.progBreak < newBreak then .error (.unfinished, heap)
      else .ok heap
  | fuel + 1, heap =>
      if heap.progBreak < newBreak then do
        let heap ← heapMap mapPage heap heap.progBreak mapAnon heapFlags
        growLoop newBreak fuel
          { heap with progBreak := heap.progBreak + 4096#64 }
      else
        .ok heap

/-- The loop for other differences, for at most `fuel` rounds. -/
def shrinkLoop (newBreak : Word) :
    Nat → Heap σ → Except (Stop × Heap σ) (Heap σ)
  | 0, heap =>
      if newBreak < heap.progBreak then .error (.unfinished, heap)
      else .ok heap
  | fuel + 1, heap =>
      if newBreak < heap.progBreak then do
        let heap ← heapMap mapPage heap (heap.progBreak - 4096#64) 0#64 0#64
        shrinkLoop newBreak fuel
          { heap with progBreak := heap.progBreak - 4096#64 }
      else
        .ok heap

/-- `(new_break + 4095) / 4096 * 4096`. -/
def roundUp (newBreak : Word) : Word :=
  (newBreak + 4095#64) / 4096#64 * 4096#64

/-- `sbrk`. -/
def sbrk (fuel : Nat) (heap : Heap σ) (difference : Word) :
    Except (Stop × Heap σ) (Word × Heap σ) := do
  let newBreak := roundUp (heap.progBreak + difference)
  let prevBreak := heap.progBreak
  if newBreak > progBreakEnd ∨ newBreak < progBreakBegin then
    throw (.halt (.panic "sbrk out of bounds"), heap)
  else if difference.toInt > 0 then
    let heap ← growLoop mapPage newBreak fuel heap
    return (prevBreak, heap)
  else
    let heap ← shrinkLoop mapPage newBreak fuel heap
    return (prevBreak, heap)

end Source

/-! ## The loops -/

theorem toNat_add_page {progBreak : Word}
    (room : progBreak.toNat < 0xfffffffffffff000) :
    (progBreak + 4096#64).toNat = progBreak.toNat + 4096 := by
  rw [BitVec.toNat_add]
  simp only [BitVec.toNat_ofNat]
  omega

theorem toNat_sub_page {progBreak : Word} (room : 4096 ≤ progBreak.toNat) :
    (progBreak - 4096#64).toNat = progBreak.toNat - 4096 := by
  have bound := progBreak.isLt
  rw [BitVec.toNat_sub]
  simp only [BitVec.toNat_ofNat]
  omega

section Loops

variable {σ : Type} {mapPage : σ → Word → Word → Word → Except Halt σ}
  {newBreak : Word} {bad : Halt → Prop} {inv : Heap σ → Prop} {heap : Heap σ}

/-- A round has left the invariant, or it has stopped as expected. -/
def Round (result : Except Halt σ) (progBreak : Word) (bad : Halt → Prop)
    (inv : Heap σ → Prop) : Prop :=
  match result with
  | .ok memory => inv { progBreak := progBreak, memory := memory }
  | .error halt => bad halt

/-- The loop has reached the new break, or it has stopped as expected. -/
def Reaches (result : Except (Stop × Heap σ) (Heap σ)) (newBreak : Word)
    (bad : Halt → Prop) (inv : Heap σ → Prop) : Prop :=
  (∃ heap, result = .ok heap ∧ inv heap ∧ heap.progBreak = newBreak) ∨
    ∃ halt heap, result = .error (.halt halt, heap) ∧ bad halt

theorem growLoop_reaches {fuel : Nat}
    (round : ∀ heap : Heap σ, inv heap → heap.progBreak.toNat % 4096 = 0 →
      heap.progBreak < newBreak →
        Round (mapPage heap.memory heap.progBreak mapAnon heapFlags)
          (heap.progBreak + 4096#64) bad inv)
    (newAligned : newBreak.toNat % 4096 = 0)
    (aligned : heap.progBreak.toNat % 4096 = 0)
    (below : heap.progBreak.toNat ≤ newBreak.toNat)
    (enough : newBreak.toNat ≤ heap.progBreak.toNat + 4096 * fuel)
    (holds : inv heap) :
    Reaches (growLoop mapPage newBreak fuel heap) newBreak bad inv := by
  induction fuel generalizing heap with
  | zero =>
      have equal : heap.progBreak = newBreak :=
        BitVec.eq_of_toNat_eq (by omega)
      rw [growLoop, if_neg (by rw [equal]; exact BitVec.lt_irrefl _)]
      exact .inl ⟨heap, rfl, holds, equal⟩
  | succ fuel inductionHypothesis =>
      rw [growLoop]
      by_cases more : heap.progBreak < newBreak
      · have below' := BitVec.lt_def.mp more
        have bound := newBreak.isLt
        have next := @toNat_add_page heap.progBreak (by omega)
        have result := round heap holds aligned more
        rw [if_pos more, heapMap]
        cases mapped : mapPage heap.memory heap.progBreak mapAnon heapFlags with
        | error halt =>
            rw [mapped] at result
            exact .inr ⟨halt, heap, rfl, result⟩
        | ok memory =>
            rw [mapped] at result
            change Reaches (growLoop mapPage newBreak fuel
              { progBreak := heap.progBreak + 4096#64, memory := memory })
              newBreak bad inv
            refine inductionHypothesis ?_ ?_ ?_ result
            · rw [next]
              omega
            · rw [next]
              omega
            · rw [next]
              omega
      · rw [if_neg more]
        rw [BitVec.lt_def] at more
        exact .inl ⟨heap, rfl, holds, BitVec.eq_of_toNat_eq (by omega)⟩

theorem shrinkLoop_reaches {fuel : Nat}
    (round : ∀ heap : Heap σ, inv heap → heap.progBreak.toNat % 4096 = 0 →
      newBreak < heap.progBreak →
        Round (mapPage heap.memory (heap.progBreak - 4096#64) 0#64 0#64)
          (heap.progBreak - 4096#64) bad inv)
    (newAligned : newBreak.toNat % 4096 = 0)
    (aligned : heap.progBreak.toNat % 4096 = 0)
    (above : newBreak.toNat ≤ heap.progBreak.toNat)
    (enough : heap.progBreak.toNat ≤ newBreak.toNat + 4096 * fuel)
    (holds : inv heap) :
    Reaches (shrinkLoop mapPage newBreak fuel heap) newBreak bad inv := by
  induction fuel generalizing heap with
  | zero =>
      have equal : heap.progBreak = newBreak :=
        BitVec.eq_of_toNat_eq (by omega)
      rw [shrinkLoop, if_neg (by rw [equal]; exact BitVec.lt_irrefl _)]
      exact .inl ⟨heap, rfl, holds, equal⟩
  | succ fuel inductionHypothesis =>
      rw [shrinkLoop]
      by_cases more : newBreak < heap.progBreak
      · have above' := BitVec.lt_def.mp more
        have next := @toNat_sub_page heap.progBreak (by omega)
        have result := round heap holds aligned more
        rw [if_pos more, heapMap]
        cases mapped : mapPage heap.memory (heap.progBreak - 4096#64) 0#64
            0#64 with
        | error halt =>
            rw [mapped] at result
            exact .inr ⟨halt, heap, rfl, result⟩
        | ok memory =>
            rw [mapped] at result
            change Reaches (shrinkLoop mapPage newBreak fuel
              { progBreak := heap.progBreak - 4096#64, memory := memory })
              newBreak bad inv
            refine inductionHypothesis ?_ ?_ ?_ result
            · rw [next]
              omega
            · rw [next]
              omega
            · rw [next]
              omega
      · rw [if_neg more]
        rw [BitVec.lt_def] at more
        exact .inl ⟨heap, rfl, holds, BitVec.eq_of_toNat_eq (by omega)⟩

end Loops

/-! ## The new break -/

/-- The least multiple of the page size from the wanted break on, among all
integers. -/
def target (progBreak difference : Word) : Int :=
  (progBreak.toNat + difference.toInt + 4095) / 4096 * 4096

/-- The wanted break lies between the bounds. -/
def InBounds (progBreakBegin progBreak difference : Word) : Prop :=
  progBreakBegin.toNat ≤ target progBreak difference ∧
    target progBreak difference ≤ progBreakEnd.toNat

instance (progBreakBegin progBreak difference : Word) :
    Decidable (InBounds progBreakBegin progBreak difference) :=
  inferInstanceAs (Decidable (_ ∧ _))

theorem target_isLeast (progBreak difference : Word) :
    IsLeast {bound : Int | 4096 ∣ bound ∧
      progBreak.toNat + difference.toInt ≤ bound}
      (target progBreak difference) := by
  constructor
  · refine ⟨Int.dvd_mul_left _ _, ?_⟩
    rw [target]
    omega
  · rintro bound ⟨⟨pages, rfl⟩, above⟩
    rw [target]
    omega

section Rounding

variable {progBreakBegin progBreak difference : Word}

theorem toNat_roundUp (newBreak : Word) :
    (roundUp newBreak).toNat =
      (newBreak.toNat + 4095) % 2 ^ 64 / 4096 * 4096 := by
  rw [roundUp, BitVec.toNat_mul, BitVec.toNat_udiv, BitVec.toNat_add]
  simp only [BitVec.toNat_ofNat, show 4095 % 2 ^ 64 = 4095 from rfl,
    show 4096 % 2 ^ 64 = 4096 from rfl]
  omega

theorem roundUp_aligned (newBreak : Word) :
    (roundUp newBreak).toNat % 4096 = 0 := by
  rw [toNat_roundUp]
  omega

/-- The comparisons of `sbrk` reject exactly the breaks outside of the bounds,
also where the additions wrap around. -/
theorem roundUp_spec (begin : IsProgBreakBegin progBreakBegin)
    (low : progBreakBegin.toNat ≤ progBreak.toNat)
    (high : progBreak.toNat ≤ progBreakEnd.toNat) :
    (InBounds progBreakBegin progBreak difference →
        ((roundUp (progBreak + difference)).toNat : Int) =
          target progBreak difference) ∧
      (¬InBounds progBreakBegin progBreak difference →
        roundUp (progBreak + difference) > progBreakEnd ∨
          roundUp (progBreak + difference) < progBreakBegin) := by
  have image := begin.image
  have lower := @BitVec.le_toInt 64 difference
  have upper := @BitVec.toInt_lt 64 difference
  have value := BitVec.toInt_eq_toNat_cond difference
  have bound := difference.isLt
  have sum : (progBreak + difference).toNat =
      (progBreak.toNat + difference.toNat) % 2 ^ 64 :=
    BitVec.toNat_add _ _
  rw [toNat_progBreakEnd] at high
  constructor
  · rintro ⟨above, below⟩
    rw [toNat_roundUp, sum]
    rw [toNat_progBreakEnd] at below
    rw [target] at above below ⊢
    omega
  · intro outside
    rw [InBounds, toNat_progBreakEnd, target] at outside
    rw [gt_iff_lt, BitVec.lt_def, BitVec.lt_def, toNat_progBreakEnd,
      toNat_roundUp, sum]
    omega

/-- The loop that a difference takes. -/
def moveBreak {σ : Type} (mapPage : σ → Word → Word → Word → Except Halt σ)
    (fuel : Nat) (heap : Heap σ) (difference : Word) :
    Except (Stop × Heap σ) (Heap σ) :=
  if difference.toInt > 0 then
    growLoop mapPage (roundUp (heap.progBreak + difference)) fuel heap
  else
    shrinkLoop mapPage (roundUp (heap.progBreak + difference)) fuel heap

section Calls

variable {σ : Type} {mapPage : σ → Word → Word → Word → Except Halt σ}
  {fuel : Nat} {heap heap' : Heap σ} {prevBreak : Word}

/-- A call inside the bounds does what its loop does. -/
theorem sbrk_eq (begin : IsProgBreakBegin progBreakBegin)
    (low : progBreakBegin.toNat ≤ heap.progBreak.toNat)
    (high : heap.progBreak.toNat ≤ progBreakEnd.toNat)
    (inBounds : InBounds progBreakBegin heap.progBreak difference) :
    sbrk mapPage progBreakBegin fuel heap difference =
      (moveBreak mapPage fuel heap difference).map
        fun heap' => (heap.progBreak, heap') := by
  have rounded := (roundUp_spec begin low high).1 inBounds
  obtain ⟨above, below⟩ := inBounds
  have accepted : ¬(roundUp (heap.progBreak + difference) > progBreakEnd ∨
      roundUp (heap.progBreak + difference) < progBreakBegin) := by
    rw [gt_iff_lt, BitVec.lt_def, BitVec.lt_def]
    omega
  by_cases positive : difference.toInt > 0
  · rw [moveBreak, if_pos positive]
    simp only [sbrk, accepted, positive, if_true, if_false]
    rfl
  · rw [moveBreak, if_neg positive]
    simp only [sbrk, accepted, positive, if_false]
    rfl

theorem sbrk_rejects (begin : IsProgBreakBegin progBreakBegin)
    (low : progBreakBegin.toNat ≤ heap.progBreak.toNat)
    (high : heap.progBreak.toNat ≤ progBreakEnd.toNat)
    (outside : ¬InBounds progBreakBegin heap.progBreak difference) :
    sbrk mapPage progBreakBegin fuel heap difference =
      .error (.halt (.panic "sbrk out of bounds"), heap) := by
  have rejected := (roundUp_spec begin low high).2 outside
  simp only [sbrk, rejected, if_true]
  rfl

/-- How a call that returns has gone. -/
theorem sbrk_returned (begin : IsProgBreakBegin progBreakBegin)
    (low : progBreakBegin.toNat ≤ heap.progBreak.toNat)
    (high : heap.progBreak.toNat ≤ progBreakEnd.toNat)
    (returned : sbrk mapPage progBreakBegin fuel heap difference =
      .ok (prevBreak, heap')) :
    InBounds progBreakBegin heap.progBreak difference ∧
      moveBreak mapPage fuel heap difference = .ok heap' := by
  by_cases inBounds : InBounds progBreakBegin heap.progBreak difference
  · refine ⟨inBounds, ?_⟩
    rw [sbrk_eq begin low high inBounds] at returned
    cases moved : moveBreak mapPage fuel heap difference with
    | error stop =>
        rw [moved] at returned
        cases returned
    | ok heap'' =>
        rw [moved] at returned
        cases returned
        rfl
  · rw [sbrk_rejects begin low high inBounds] at returned
    cases returned

/-- Where the rounds keep an invariant, so does a call inside the bounds. -/
theorem moveBreak_reaches {bad : Halt → Prop} {inv : Heap σ → Prop}
    (begin : IsProgBreakBegin progBreakBegin)
    (aligned : heap.progBreak.toNat % 4096 = 0)
    (low : progBreakBegin.toNat ≤ heap.progBreak.toNat)
    (high : heap.progBreak.toNat ≤ progBreakEnd.toNat)
    (inBounds : InBounds progBreakBegin heap.progBreak difference)
    (enough : 2 ^ 52 ≤ fuel) (holds : inv heap)
    (grow : ∀ middle : Heap σ, inv middle →
      middle.progBreak.toNat % 4096 = 0 →
      (middle.progBreak.toNat : Int) < target heap.progBreak difference →
        Round (mapPage middle.memory middle.progBreak mapAnon heapFlags)
          (middle.progBreak + 4096#64) bad inv)
    (shrink : ∀ middle : Heap σ, inv middle →
      middle.progBreak.toNat % 4096 = 0 →
      target heap.progBreak difference < middle.progBreak.toNat →
        Round (mapPage middle.memory (middle.progBreak - 4096#64) 0#64 0#64)
          (middle.progBreak - 4096#64) bad inv) :
    Reaches (moveBreak mapPage fuel heap difference)
      (roundUp (heap.progBreak + difference)) bad inv := by
  have rounded := (roundUp_spec begin low high).1 inBounds
  have newAligned := roundUp_aligned (heap.progBreak + difference)
  have least := target_isLeast heap.progBreak difference
  have above := least.1.2
  have small := (roundUp (heap.progBreak + difference)).isLt
  have oldSmall := heap.progBreak.isLt
  rw [moveBreak]
  split
  · refine growLoop_reaches ?_ newAligned aligned (by omega) (by omega) holds
    intro middle middleHolds middleAligned more
    rw [BitVec.lt_def] at more
    exact grow middle middleHolds middleAligned (by omega)
  · have below : target heap.progBreak difference ≤ heap.progBreak.toNat :=
      least.2 ⟨by omega, by omega⟩
    refine shrinkLoop_reaches ?_ newAligned aligned (by omega) (by omega)
      holds
    intro middle middleHolds middleAligned more
    rw [BitVec.lt_def] at more
    exact shrink middle middleHolds middleAligned (by omega)

end Calls

end Rounding

/-! ## The contract -/

/-- The page update that a call of `map_page` asks for, on the flags of the
pages. -/
def updatePage (flagsOf : Word → Word) (virt _phys flags : Word) :
    Except Halt (Word → Word) :=
  .ok (Function.update flagsOf virt flags)

/-- The page of an address. -/
def pageOf (address : Nat) : Word := BitVec.ofNat 64 (address / 4096 * 4096)

/-- A page that the heap may use. -/
def IsHeapPage (progBreakBegin page : Word) : Prop :=
  page.toNat % 4096 = 0 ∧ progBreakBegin.toNat ≤ page.toNat ∧
    page.toNat < progBreakEnd.toNat

/-- The break is a page inside the bounds, and exactly the heap pages below it
are present. -/
structure BreakInvariant (progBreakBegin : Word) (heap : Heap (Word → Word)) :
    Prop where
  aligned : heap.progBreak.toNat % 4096 = 0
  low : progBreakBegin.toNat ≤ heap.progBreak.toNat
  high : heap.progBreak.toNat ≤ progBreakEnd.toNat
  present_iff :
    ∀ page, IsHeapPage progBreakBegin page →
      (Has (heap.memory page) pagePBit ↔
        page.toNat < heap.progBreak.toNat)

/-- The heap before the first call. -/
structure Fresh (progBreakBegin : Word) (heap : Heap (Word → Word)) :
    Prop where
  progBreak_eq : heap.progBreak = progBreakBegin
  absent :
    ∀ page, IsHeapPage progBreakBegin page →
      ¬Has (heap.memory page) pagePBit

/-- What a call returns, and what it leaves. -/
structure Contract (heap : Heap (Word → Word)) (difference prevBreak : Word)
    (heap' : Heap (Word → Word)) : Prop where
  returned : prevBreak = heap.progBreak
  isLeast :
    IsLeast {bound : Int | 4096 ∣ bound ∧
      heap.progBreak.toNat + difference.toInt ≤ bound} heap'.progBreak.toNat
  mapped :
    0 < difference.toInt → ∀ address : Nat, prevBreak.toNat ≤ address →
      (address : Int) < prevBreak.toNat + difference.toInt →
        Has (heap'.memory (pageOf address)) pagePBit

section Invariant

variable {progBreakBegin : Word} {heap : Heap (Word → Word)} {fuel : Nat}
  {difference : Word} {bound : Int}

theorem Fresh.invariant (begin : IsProgBreakBegin progBreakBegin)
    (fresh : Fresh progBreakBegin heap) : BreakInvariant progBreakBegin heap := by
  obtain ⟨isBegin, absent⟩ := fresh
  refine ⟨?_, ?_, ?_, ?_⟩
  · rw [isBegin]
    exact begin.aligned
  · rw [isBegin]
  · rw [isBegin]
    exact begin.room
  · intro page isPage
    rw [isBegin]
    exact iff_of_false (absent page isPage) (not_lt.mpr isPage.2.1)

theorem grow_round (invariant : BreakInvariant progBreakBegin heap)
    (more : (heap.progBreak.toNat : Int) < bound)
    (newAligned : bound % 4096 = 0) (bounded : bound ≤ progBreakEnd.toNat) :
    BreakInvariant progBreakBegin
      { progBreak := heap.progBreak + 4096#64
        memory := Function.update heap.memory heap.progBreak heapFlags } := by
  have aligned := invariant.aligned
  have low := invariant.low
  have next : (heap.progBreak + 4096#64).toNat =
      heap.progBreak.toNat + 4096 := by
    rw [toNat_progBreakEnd] at bounded
    exact toNat_add_page (by omega)
  refine ⟨?_, ?_, ?_, ?_⟩
  · rw [next]
    omega
  · rw [next]
    omega
  · rw [next]
    omega
  · intro page isPage
    rw [next]
    have pageAligned := isPage.1
    by_cases here : page = heap.progBreak
    · change Has (Function.update heap.memory heap.progBreak heapFlags page)
        pagePBit ↔ _
      rw [here, Function.update_self]
      exact iff_of_true (by decide) (by omega)
    · change Has (Function.update heap.memory heap.progBreak heapFlags page)
        pagePBit ↔ _
      rw [Function.update_of_ne here, invariant.present_iff page isPage]
      have different : page.toNat ≠ heap.progBreak.toNat := fun equal =>
        here (BitVec.eq_of_toNat_eq equal)
      omega

theorem shrink_round (invariant : BreakInvariant progBreakBegin heap)
    (more : bound < heap.progBreak.toNat) (newAligned : bound % 4096 = 0)
    (bounded : (progBreakBegin.toNat : Int) ≤ bound) :
    BreakInvariant progBreakBegin
      { progBreak := heap.progBreak - 4096#64
        memory :=
          Function.update heap.memory (heap.progBreak - 4096#64) 0#64 } := by
  have aligned := invariant.aligned
  have high := invariant.high
  have next : (heap.progBreak - 4096#64).toNat =
      heap.progBreak.toNat - 4096 := toNat_sub_page (by omega)
  refine ⟨?_, ?_, ?_, ?_⟩
  · rw [next]
    omega
  · rw [next]
    omega
  · rw [next]
    omega
  · intro page isPage
    rw [next]
    have pageAligned := isPage.1
    by_cases here : page = heap.progBreak - 4096#64
    · change Has (Function.update heap.memory (heap.progBreak - 4096#64) 0#64
        page) pagePBit ↔ _
      rw [here, Function.update_self, next]
      exact iff_of_false (by decide) (Nat.lt_irrefl _)
    · change Has (Function.update heap.memory (heap.progBreak - 4096#64) 0#64
        page) pagePBit ↔ _
      rw [Function.update_of_ne here, invariant.present_iff page isPage]
      have different : page.toNat ≠ heap.progBreak.toNat - 4096 :=
        fun equal => here (BitVec.eq_of_toNat_eq (equal.trans next.symm))
      omega

/-- A call inside the bounds meets the contract. -/
theorem sbrk_contract (begin : IsProgBreakBegin progBreakBegin)
    (invariant : BreakInvariant progBreakBegin heap)
    (inBounds : InBounds progBreakBegin heap.progBreak difference)
    (enough : 2 ^ 52 ≤ fuel) :
    ∃ prevBreak heap',
      sbrk updatePage progBreakBegin fuel heap difference =
          .ok (prevBreak, heap') ∧
        BreakInvariant progBreakBegin heap' ∧
        Contract heap difference prevBreak heap' := by
  have rounded := (roundUp_spec begin invariant.low invariant.high).1 inBounds
  have least := target_isLeast heap.progBreak difference
  have newAligned : target heap.progBreak difference % 4096 = 0 :=
    Int.emod_eq_zero_of_dvd least.1.1
  have reaches : Reaches (moveBreak updatePage fuel heap difference)
      (roundUp (heap.progBreak + difference)) (fun _ => False)
      (BreakInvariant progBreakBegin) :=
    moveBreak_reaches begin invariant.aligned invariant.low invariant.high
      inBounds enough invariant
      (fun _ holds _ more => grow_round holds more newAligned inBounds.2)
      (fun _ holds _ more => shrink_round holds more newAligned inBounds.1)
  obtain ⟨heap', moved, invariant', isBreak⟩ | ⟨_, _, _, stopped⟩ := reaches
  · refine ⟨heap.progBreak, heap', ?_, invariant', rfl, ?_, ?_⟩
    · rw [sbrk_eq begin invariant.low invariant.high inBounds, moved]
      rfl
    · rw [isBreak, rounded]
      exact least
    · intro positive address first last
      have high := invariant'.high
      have inside := least.1.2
      rw [isBreak] at high
      have page : (pageOf address).toNat = address / 4096 * 4096 := by
        have small := (roundUp (heap.progBreak + difference)).isLt
        rw [pageOf, BitVec.toNat_ofNat]
        omega
      have heapLow := invariant.low
      have beginAligned := begin.aligned
      refine (invariant'.present_iff (pageOf address) ⟨?_, ?_, ?_⟩).mpr ?_
      · rw [page]
        omega
      · rw [page]
        omega
      · rw [page]
        omega
      · rw [page, isBreak]
        omega
  · exact stopped.elim

end Invariant

/-! ## Runs of calls -/

section Runs

variable {progBreakBegin : Word} {fuel : Nat} {heap heap' : Heap (Word → Word)}
  {differences : List Word} {difference : Word}

/-- A call that returns. -/
def Call (progBreakBegin : Word) (fuel : Nat) (heap : Heap (Word → Word))
    (difference : Word) (heap' : Heap (Word → Word)) : Prop :=
  ∃ prevBreak, sbrk updatePage progBreakBegin fuel heap difference =
    .ok (prevBreak, heap')

/-- Every difference is served or rejected as it should. -/
structure Serves (progBreakBegin : Word) (fuel : Nat)
    (heap : Heap (Word → Word)) : Prop where
  meets :
    ∀ difference, InBounds progBreakBegin heap.progBreak difference →
      ∃ prevBreak heap',
        sbrk updatePage progBreakBegin fuel heap difference =
            .ok (prevBreak, heap') ∧
          Contract heap difference prevBreak heap'
  rejects :
    ∀ difference, ¬InBounds progBreakBegin heap.progBreak difference →
      sbrk updatePage progBreakBegin fuel heap difference =
        .error (.halt (.panic "sbrk out of bounds"), heap)

theorem Call.invariant (begin : IsProgBreakBegin progBreakBegin)
    (enough : 2 ^ 52 ≤ fuel) (invariant : BreakInvariant progBreakBegin heap)
    (call : Call progBreakBegin fuel heap difference heap') :
    BreakInvariant progBreakBegin heap' := by
  obtain ⟨prevBreak, returned⟩ := call
  by_cases inBounds : InBounds progBreakBegin heap.progBreak difference
  · obtain ⟨prevBreak', heap'', served, invariant', _⟩ :=
      sbrk_contract begin invariant inBounds enough
    cases returned.symm.trans served
    exact invariant'
  · cases returned.symm.trans
      (sbrk_rejects begin invariant.low invariant.high inBounds)

theorem BreakInvariant.serves (begin : IsProgBreakBegin progBreakBegin)
    (enough : 2 ^ 52 ≤ fuel)
    (invariant : BreakInvariant progBreakBegin heap) :
    Serves progBreakBegin fuel heap := by
  constructor
  · intro difference inBounds
    obtain ⟨prevBreak, heap', served, _, contract⟩ :=
      sbrk_contract begin invariant inBounds enough
    exact ⟨prevBreak, heap', served, contract⟩
  · intro difference outside
    exact sbrk_rejects begin invariant.low invariant.high outside

/-- After every sequence of calls the break is a page inside the bounds, the
heap pages below it and no others are present, and the next call meets its
contract or is rejected. -/
theorem run_serves {start : Heap (Word → Word)}
    (begin : IsProgBreakBegin progBreakBegin) (enough : 2 ^ 52 ≤ fuel)
    (fresh : Fresh progBreakBegin start)
    (run : Run (Call progBreakBegin fuel) start differences heap) :
    BreakInvariant progBreakBegin heap ∧ Serves progBreakBegin fuel heap := by
  have invariant : BreakInvariant progBreakBegin heap :=
    run.invariant (fresh.invariant begin) fun _ _ _ holds call =>
      call.invariant begin enough holds
  exact ⟨invariant, invariant.serves begin enough⟩

/-- A kernel image of one megabyte. -/
def smallBegin : Word := 0xffffff8000100000#64

def smallHeap : Heap (Word → Word) where
  progBreak := smallBegin
  memory := fun _ => 0#64

theorem isProgBreakBegin_small : IsProgBreakBegin smallBegin :=
  ⟨by decide, by decide, by decide⟩

theorem fresh_small : Fresh smallBegin smallHeap :=
  ⟨rfl, fun _ _ => (by decide : ¬Has 0#64 pagePBit)⟩

theorem run_serves_small : ∃ heap,
    Run (Call smallBegin (2 ^ 52)) smallHeap [5000#64] heap ∧
      BreakInvariant smallBegin heap ∧ Serves smallBegin (2 ^ 52) heap := by
  have begin := isProgBreakBegin_small
  have invariant := fresh_small.invariant begin
  have inBounds : InBounds smallBegin smallHeap.progBreak 5000#64 := by
    decide
  obtain ⟨prevBreak, heap, served, _⟩ :=
    sbrk_contract begin invariant inBounds (Nat.le_refl (2 ^ 52))
  have run : Run (Call smallBegin (2 ^ 52)) smallHeap ([] ++ [5000#64]) heap :=
    Run.nil.snoc ⟨prevBreak, served⟩
  exact ⟨heap, run, run_serves begin (Nat.le_refl _) fresh_small run⟩

end Runs

end BeaverOS.Sbrk

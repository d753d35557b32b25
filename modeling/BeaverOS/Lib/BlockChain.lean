import Mathlib.Data.List.Nodup
import Mathlib.Data.List.Range

/-!
# Chains of free blocks

A free list is kept inside the memory it describes: the first frame of every
free block holds a header with the number of frames of the block and the
address of the next block, and address `0` ends the chain. `Chain` spells the
frames of such a chain in the order in which they are handed out.

The headers are two arbitrary functions `size` and `next`, so that the chain
can be followed through any change of the memory behind them. The frame size
`page` and the end `limit` of the address space are parameters.
-/

namespace BeaverOS.BlockChain

/-- The frames of a block of `count` frames at `start`. -/
def blockFrames (page start count : Nat) : List Nat :=
  (List.range count).map fun index => start + page * index

/-- The chain of blocks from `start` has exactly these frames, in order. -/
inductive Chain (page limit : Nat) (size next : Nat → Nat) :
    Nat → List Nat → Prop
  | nil : Chain page limit size next 0 []
  | block {start : Nat} {rest : List Nat} :
      start ≠ 0 →
      start % page = 0 →
      0 < size start →
      start + page * size start ≤ limit →
      Chain page limit size next (next start) rest →
      Chain page limit size next start
        (blockFrames page start (size start) ++ rest)

section Frames

variable {page start count frame : Nat}

theorem mem_blockFrames :
    frame ∈ blockFrames page start count ↔
      ∃ index, index < count ∧ frame = start + page * index := by
  simp only [blockFrames, List.mem_map, List.mem_range]
  constructor
  · rintro ⟨index, bound, rfl⟩
    exact ⟨index, bound, rfl⟩
  · rintro ⟨index, bound, rfl⟩
    exact ⟨index, bound, rfl⟩

@[simp]
theorem length_blockFrames :
    (blockFrames page start count).length = count := by
  simp [blockFrames]

@[simp]
theorem blockFrames_zero : blockFrames page start 0 = [] := rfl

theorem blockFrames_succ (page start count : Nat) :
    blockFrames page start (count + 1) =
      start :: blockFrames page (start + page) count := by
  simp only [blockFrames, List.range_succ_eq_map, List.map_cons,
    Nat.mul_zero, Nat.add_zero, List.map_map, List.cons.injEq, true_and]
  apply List.map_congr_left
  intro index _
  simp only [Function.comp_apply, Nat.succ_eq_add_one, Nat.mul_add,
    Nat.mul_one]
  omega

theorem start_mem_blockFrames (positive : 0 < count) :
    start ∈ blockFrames page start count :=
  mem_blockFrames.mpr ⟨0, positive, by simp⟩

theorem blockFrames_nodup (pagePositive : 0 < page) :
    (blockFrames page start count).Nodup := by
  refine List.Nodup.map_on ?_ List.nodup_range
  intro left _ right _ equal
  exact Nat.eq_of_mul_eq_mul_left pagePositive (by omega)

end Frames

section Chains

variable {page limit : Nat} {size next size' next' : Nat → Nat}
  {start frame : Nat} {frames : List Nat}

/-- Every frame of a chain is a non-zero aligned frame inside the limit. -/
theorem Chain.frame_bounds
    (chain : Chain page limit size next start frames) :
    ∀ frame ∈ frames,
      frame ≠ 0 ∧ frame % page = 0 ∧ frame + page ≤ limit := by
  induction chain with
  | nil => simp
  | @block start rest nonzero aligned positive bounded tail
      inductionHypothesis =>
      intro frame member
      rcases List.mem_append.mp member with inBlock | inRest
      · obtain ⟨index, bound, rfl⟩ := mem_blockFrames.mp inBlock
        have fits : page * (index + 1) ≤ page * size start :=
          Nat.mul_le_mul_left page bound
        rw [Nat.mul_add, Nat.mul_one] at fits
        refine ⟨by omega, ?_, by omega⟩
        rw [Nat.add_mul_mod_self_left]
        exact aligned
      · exact inductionHypothesis frame inRest

/-- A chain with frames starts with its first frame. -/
theorem Chain.head_eq
    (chain : Chain page limit size next start (frame :: frames)) :
    start = frame := by
  generalize whole : frame :: frames = all at chain
  cases chain with
  | nil => cases whole
  | block nonzero aligned positive bounded tail =>
      obtain ⟨count, same⟩ := Nat.exists_eq_succ_of_ne_zero positive.ne'
      rw [same, Nat.succ_eq_add_one, blockFrames_succ] at whole
      exact (List.cons.inj whole).1.symm

theorem Chain.start_mem (nonzero : start ≠ 0)
    (chain : Chain page limit size next start frames) :
    start ∈ frames := by
  cases chain with
  | nil => exact absurd rfl nonzero
  | block _ _ positive _ _ =>
      exact List.mem_append_left _ (start_mem_blockFrames positive)

theorem Chain.start_eq_zero_iff
    (chain : Chain page limit size next start frames) :
    start = 0 ↔ frames = [] := by
  constructor
  · rintro rfl
    cases chain with
    | nil => rfl
    | block nonzero => exact absurd rfl nonzero
  · rintro rfl
    apply Classical.byContradiction
    intro nonzero
    exact absurd (chain.start_mem nonzero) List.not_mem_nil

theorem Chain.size_pos
    (chain : Chain page limit size next start frames)
    (nonempty : frames ≠ []) :
    0 < size start := by
  cases chain with
  | nil => exact absurd rfl nonempty
  | block _ _ positive => exact positive

theorem Chain.start_aligned
    (chain : Chain page limit size next start frames) :
    start % page = 0 := by
  cases chain with
  | nil => exact Nat.zero_mod page
  | block _ aligned => exact aligned

/-- Behind its first block a chain goes on with the next one. -/
theorem Chain.split (nonzero : start ≠ 0)
    (chain : Chain page limit size next start frames) :
    ∃ rest, frames = blockFrames page start (size start) ++ rest ∧
      Chain page limit size next (next start) rest := by
  cases chain with
  | nil => exact absurd rfl nonzero
  | block _ _ _ _ tail => exact ⟨_, rfl, tail⟩

theorem Chain.next_aligned (nonzero : start ≠ 0)
    (chain : Chain page limit size next start frames) :
    next start % page = 0 := by
  obtain ⟨rest, _, tail⟩ := chain.split nonzero
  exact tail.start_aligned

theorem Chain.next_mem (nonzero : start ≠ 0) (more : next start ≠ 0)
    (chain : Chain page limit size next start frames) :
    next start ∈ frames := by
  obtain ⟨rest, framesEq, tail⟩ := chain.split nonzero
  rw [framesEq]
  exact List.mem_append_right _ (tail.start_mem more)

theorem Chain.size_le_length (nonzero : start ≠ 0)
    (chain : Chain page limit size next start frames) :
    size start ≤ frames.length := by
  obtain ⟨rest, framesEq, _⟩ := chain.split nonzero
  rw [framesEq, List.length_append, length_blockFrames]
  exact Nat.le_add_right _ _

/-- The chain from an address is determined by its headers. -/
theorem Chain.unique {other : List Nat}
    (first : Chain page limit size next start frames)
    (second : Chain page limit size next start other) :
    frames = other := by
  induction first generalizing other with
  | nil => exact (second.start_eq_zero_iff.mp rfl).symm
  | @block start rest nonzero _ _ _ _ inductionHypothesis =>
      cases second with
      | nil => exact absurd rfl nonzero
      | block _ _ _ _ tail =>
          exact congrArg _ (inductionHypothesis tail)

/-- Only the headers of the chain's own frames matter. -/
theorem Chain.congr
    (chain : Chain page limit size next start frames)
    (sameSize : ∀ frame ∈ frames, size' frame = size frame)
    (sameNext : ∀ frame ∈ frames, next' frame = next frame) :
    Chain page limit size' next' start frames := by
  induction chain with
  | nil => exact Chain.nil
  | @block start rest nonzero aligned positive bounded tail
      inductionHypothesis =>
      have here : start ∈ blockFrames page start (size start) ++ rest :=
        List.mem_append_left _ (start_mem_blockFrames positive)
      have rebuilt : Chain page limit size' next' (next start) rest :=
        inductionHypothesis
          (fun frame member =>
            sameSize frame (List.mem_append_right _ member))
          (fun frame member =>
            sameNext frame (List.mem_append_right _ member))
      have headSize := sameSize start here
      have headNext := sameNext start here
      rw [← headSize]
      rw [← headNext] at rebuilt
      exact Chain.block nonzero aligned (by omega)
        (by rw [headSize]; exact bounded) rebuilt

/-- Taking the only frame of the first block. -/
theorem Chain.pop_last
    (single : size start = 1)
    (chain : Chain page limit size next start (frame :: frames)) :
    Chain page limit size next (next start) frames := by
  generalize whole : frame :: frames = all at chain
  cases chain with
  | nil => cases whole
  | block nonzero aligned positive bounded tail =>
      rw [single, blockFrames_succ, blockFrames_zero,
        List.cons_append, List.nil_append] at whole
      rw [(List.cons.inj whole).2]
      exact tail

/-- In a longer block the second frame comes right after the first. -/
theorem Chain.second_frame
    (several : size start ≠ 1)
    (chain : Chain page limit size next start (frame :: frames)) :
    ∃ rest, frames = (start + page) :: rest := by
  generalize whole : frame :: frames = all at chain
  cases chain with
  | nil => cases whole
  | @block start rest nonzero aligned positive bounded tail =>
      obtain ⟨count, sized⟩ : ∃ count, size start = count + 2 :=
        ⟨size start - 2, by omega⟩
      rw [sized, blockFrames_succ, blockFrames_succ] at whole
      exact ⟨_, (List.cons.inj whole).2⟩

/-- Taking the first frame of a longer block, whose header moves one frame
up. -/
theorem Chain.pop_front (size' next' : Nat → Nat)
    (several : size start ≠ 1)
    (chain : Chain page limit size next start (frame :: frames))
    (distinct : (frame :: frames).Nodup)
    (movedSize : size' (start + page) = size start - 1)
    (movedNext : next' (start + page) = next start)
    (sameSize :
      ∀ other ∈ frames, other ≠ start + page → size' other = size other)
    (sameNext :
      ∀ other ∈ frames, other ≠ start + page → next' other = next other) :
    Chain page limit size' next' (start + page) frames := by
  generalize whole : frame :: frames = all at chain
  cases chain with
  | nil => cases whole
  | @block start rest nonzero aligned positive bounded tail =>
      obtain ⟨count, sized⟩ : ∃ count, size start = count + 2 :=
        ⟨size start - 2, by omega⟩
      rw [sized, blockFrames_succ, List.cons_append] at whole
      obtain ⟨sameHead, sameTail⟩ := List.cons.inj whole
      have movedCount : size' (start + page) = count + 1 := by omega
      have movedNotRest : start + page ∉ rest := by
        intro inRest
        have split := (List.nodup_cons.mp distinct).2
        rw [sameTail] at split
        exact List.disjoint_of_nodup_append split
          (start_mem_blockFrames (Nat.succ_pos count)) inRest
      have kept : Chain page limit size' next' (next start) rest := by
        refine tail.congr ?_ ?_
        · intro other member
          exact sameSize other
            (by rw [sameTail]; exact List.mem_append_right _ member)
            (fun equal => movedNotRest (equal ▸ member))
        · intro other member
          exact sameNext other
            (by rw [sameTail]; exact List.mem_append_right _ member)
            (fun equal => movedNotRest (equal ▸ member))
      rw [sameTail, ← movedCount]
      rw [← movedNext] at kept
      refine Chain.block (by omega) ?_ (by omega) ?_ kept
      · rw [Nat.add_mod_right]
        exact aligned
      · rw [movedCount]
        rw [sized] at bounded
        have expand : page * (count + 2) = page + page * (count + 1) := by
          rw [show count + 2 = (count + 1) + 1 from rfl, Nat.mul_add,
            Nat.mul_one, Nat.add_comm]
        omega

/-- A new block. -/
theorem Chain.push_block
    (chain : Chain page limit size next start frames)
    (nonzero : frame ≠ 0) (aligned : frame % page = 0)
    (positive : 0 < size' frame)
    (bounded : frame + page * size' frame ≤ limit)
    (linked : next' frame = start)
    (sameSize : ∀ other ∈ frames, size' other = size other)
    (sameNext : ∀ other ∈ frames, next' other = next other) :
    Chain page limit size' next' frame
      (blockFrames page frame (size' frame) ++ frames) := by
  have kept : Chain page limit size' next' (next' frame) frames := by
    rw [linked]
    exact chain.congr sameSize sameNext
  exact Chain.block nonzero aligned positive bounded kept

/-- A one-frame block. -/
theorem Chain.push
    (chain : Chain page limit size next start frames)
    (nonzero : frame ≠ 0) (aligned : frame % page = 0)
    (bounded : frame + page ≤ limit)
    (single : size' frame = 1) (linked : next' frame = start)
    (sameSize : ∀ other ∈ frames, size' other = size other)
    (sameNext : ∀ other ∈ frames, next' other = next other) :
    Chain page limit size' next' frame (frame :: frames) := by
  have pushed := chain.push_block nonzero aligned (by omega)
    (by rw [single]; omega) linked sameSize sameNext
  rw [single] at pushed
  exact pushed

end Chains

end BeaverOS.BlockChain

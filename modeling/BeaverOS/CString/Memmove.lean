import BeaverOS.Lib.ByteMemory

/-!
# Moving bytes

`memmove` of `string.c`. The directions of its two loops are exchanged: where
the ranges overlap, bytes of the source are overwritten before they are copied.
-/

namespace BeaverOS.Memmove

open BeaverOS.ByteMemory

/-! ## The code -/

/-- `*dest = *src`. -/
def copyByte (memory : Memory) (dest src : Nat) : Memory := fun cell =>
  if cell = dest then memory src else memory cell

/-- `while (num--) dest_copy[num] = src_copy[num];`. -/
def copyDown (dest src : Nat) : Nat → Memory → Memory
  | 0, memory => memory
  | num + 1, memory =>
      copyDown dest src num (copyByte memory (dest + num) (src + num))

/-- `while (num--) *dest_copy++ = *src_copy++;`. -/
def copyUp : Nat → Nat → Nat → Memory → Memory
  | _, _, 0, memory => memory
  | dest, src, num + 1, memory =>
      copyUp (dest + 1) (src + 1) num (copyByte memory dest src)

/-- `memmove`. The ranges do not wrap around the address space. -/
def memmove (memory : Memory) (dest src num : Nat) : Memory :=
  if dest < src then copyDown dest src num memory
  else if dest > src then copyUp dest src num memory
  else memory

/-! ## What is copied -/

/-- A move of `num` bytes. -/
structure Moves (memory memory' : Memory) (dest src num : Nat) : Prop where
  moved : ∀ i, i < num → memory' (dest + i) = memory (src + i)
  kept : AgreeOff (cells dest num) memory' memory

/-- The distance between the ranges. -/
def distance (dest src : Nat) : Nat := max dest src - min dest src

/-- The bytes of the source repeat themselves where the ranges overlap. -/
def Repeats (memory : Memory) (dest src num : Nat) : Prop :=
  ∀ i, i + distance dest src < num →
    memory (src + i) = memory (src + i + distance dest src)

section Copies

variable {memory : Memory} {dest src num cell i : Nat}

theorem copyByte_dest : copyByte memory dest src dest = memory src :=
  if_pos rfl

theorem copyByte_of_ne (different : cell ≠ dest) :
    copyByte memory dest src cell = memory cell :=
  if_neg different

/-- The loop down writes its range only. -/
theorem copyDown_kept (memory : Memory) (dest src num : Nat) :
    AgreeOff (cells dest num) (copyDown dest src num memory) memory := by
  induction num generalizing memory with
  | zero => exact AgreeOff.refl _ _
  | succ num inductionHypothesis =>
      intro cell outside
      rw [mem_cells] at outside
      rw [copyDown, inductionHypothesis _ cell (by rw [mem_cells]; omega),
        copyByte_of_ne (by omega)]

theorem copyUp_kept (memory : Memory) (dest src num : Nat) :
    AgreeOff (cells dest num) (copyUp dest src num memory) memory := by
  induction num generalizing memory dest src with
  | zero => exact AgreeOff.refl _ _
  | succ num inductionHypothesis =>
      intro cell outside
      rw [mem_cells] at outside
      rw [copyUp, inductionHypothesis _ _ _ cell (by rw [mem_cells]; omega),
        copyByte_of_ne (by omega)]

/-- The loop down copies a byte of the source that it has written before. -/
theorem copyDown_byte (below : dest < src) (inside : i < num) :
    copyDown dest src num memory (dest + i) =
      if src + i < dest + num then copyDown dest src num memory (src + i)
      else memory (src + i) := by
  induction num generalizing memory with
  | zero => omega
  | succ num inductionHypothesis =>
      rw [copyDown]
      have kept := copyDown_kept (copyByte memory (dest + num) (src + num)) dest
        src num
      by_cases last : i = num
      · subst last
        rw [kept _ (by rw [mem_cells]; omega), copyByte_dest, if_neg (by omega)]
      · rw [inductionHypothesis (by omega)]
        by_cases beyond : src + i < dest + num
        · rw [if_pos beyond, if_pos (by omega)]
        rw [if_neg beyond]
        by_cases first : src + i = dest + num
        · rw [if_pos (by omega), kept _ (by rw [mem_cells]; omega)]
        · rw [if_neg (by omega), copyByte_of_ne first]

/-- The loop up copies a byte of the source that it has written before. -/
theorem copyUp_byte (above : src < dest) (inside : i < num) :
    copyUp dest src num memory (dest + i) =
      if dest ≤ src + i then copyUp dest src num memory (src + i)
      else memory (src + i) := by
  induction num generalizing memory dest src i with
  | zero => omega
  | succ num inductionHypothesis =>
      rw [copyUp]
      have kept := copyUp_kept (copyByte memory dest src) (dest + 1) (src + 1)
        num
      cases i with
      | zero =>
          simp only [Nat.add_zero]
          rw [kept _ (by rw [mem_cells]; omega), copyByte_dest,
            if_neg (by omega)]
      | succ i =>
          have shifted : dest + (i + 1) = dest + 1 + i := by omega
          have shifted' : src + (i + 1) = src + 1 + i := by omega
          rw [shifted, shifted', inductionHypothesis (by omega) (by omega)]
          by_cases beyond : dest + 1 ≤ src + 1 + i
          · rw [if_pos beyond, if_pos (by omega)]
          rw [if_neg beyond]
          by_cases first : src + 1 + i = dest
          · rw [if_pos (by omega), kept _ (by rw [mem_cells]; omega)]
          · rw [if_neg (by omega), copyByte_of_ne first]

/-- Either loop copies a byte that it has written before where the source lies
in the destination. -/
theorem memmove_byte (different : dest ≠ src) (inside : i < num) :
    memmove memory dest src num (dest + i) =
      if dest ≤ src + i ∧ src + i < dest + num then
        memmove memory dest src num (src + i)
      else memory (src + i) := by
  rw [memmove]
  by_cases below : dest < src
  · rw [if_pos below, copyDown_byte below inside]
    by_cases covered : src + i < dest + num
    · rw [if_pos covered, if_pos ⟨by omega, covered⟩]
    · rw [if_neg covered, if_neg fun both => covered both.2]
  · have above : src < dest := by omega
    rw [if_neg below, if_pos above, copyUp_byte above inside]
    by_cases covered : dest ≤ src + i
    · rw [if_pos covered, if_pos ⟨covered, by omega⟩]
    · rw [if_neg covered, if_neg fun both => covered both.1]

theorem memmove_kept (memory : Memory) (dest src num : Nat) :
    AgreeOff (cells dest num) (memmove memory dest src num) memory := by
  rw [memmove]
  split
  · exact copyDown_kept memory dest src num
  · split
    · exact copyUp_kept memory dest src num
    · exact AgreeOff.refl _ _

/-- Where the move is right, the overlap repeats the source. -/
theorem repeats_of_moves
    (moves : Moves memory (memmove memory dest src num) dest src num) :
    Repeats memory dest src num := by
  intro i inside
  rcases Nat.lt_trichotomy dest src with below | same | above
  · have apart : distance dest src = src - dest := by
      rw [distance]
      omega
    rw [apart] at inside ⊢
    have place : src + i = dest + (i + (src - dest)) := by omega
    have copied := @memmove_byte memory dest src num i (by omega) (by omega)
    rw [if_pos ⟨by omega, by omega⟩, moves.moved i (by omega), place,
      moves.moved _ inside] at copied
    rw [Nat.add_assoc, ← copied, ← place]
  · rw [distance, same, Nat.max_self, Nat.min_self, Nat.sub_self, Nat.add_zero]
  · have apart : distance dest src = dest - src := by
      rw [distance]
      omega
    rw [apart] at inside ⊢
    have place : src + (i + (dest - src)) = dest + i := by omega
    have copied := @memmove_byte memory dest src num (i + (dest - src))
      (by omega) inside
    rw [moves.moved _ inside, place, if_pos ⟨by omega, by omega⟩,
      moves.moved i (by omega)] at copied
    rw [Nat.add_assoc, place, copied]

/-- The loop down is right if the overlap repeats the source: from the last
byte on, each byte that it copies is the one that the source held. -/
theorem moved_of_repeats_down (below : dest < src)
    (repeats : Repeats memory dest src num) (inside : i < num) :
    memmove memory dest src num (dest + i) = memory (src + i) := by
  have apart : distance dest src = src - dest := by
    rw [distance]
    omega
  induction rest : num - i using Nat.strong_induction_on generalizing i with
  | h rest inductionHypothesis =>
      rw [memmove_byte (by omega) inside]
      split
      · next covered =>
          have place : src + i = dest + (i + (src - dest)) := by omega
          have source := repeats i (by omega)
          rw [apart, Nat.add_assoc] at source
          rw [source, ← inductionHypothesis (num - (i + (src - dest)))
            (by omega) (by omega) rfl, place]
      · rfl

/-- The loop up is right if the overlap repeats the source. -/
theorem moved_of_repeats_up (above : src < dest)
    (repeats : Repeats memory dest src num) (inside : i < num) :
    memmove memory dest src num (dest + i) = memory (src + i) := by
  have apart : distance dest src = dest - src := by
    rw [distance]
    omega
  induction i using Nat.strong_induction_on with
  | h i inductionHypothesis =>
      rw [memmove_byte (by omega) inside]
      split
      · next covered =>
          have place : src + i = dest + (i - (dest - src)) := by omega
          have back : src + (i - (dest - src)) + (dest - src) = src + i := by
            omega
          have source := repeats (i - (dest - src)) (by omega)
          rw [apart, back] at source
          rw [← source, ← inductionHypothesis (i - (dest - src)) (by omega)
            (by omega), place]
      · rfl

end Copies

/-- `memmove` moves exactly the ranges whose overlap repeats the source. -/
theorem memmove_moves_iff (memory : Memory) (dest src num : Nat) :
    Moves memory (memmove memory dest src num) dest src num ↔
      Repeats memory dest src num := by
  constructor
  · exact repeats_of_moves
  · intro repeats
    refine ⟨fun i inside => ?_, memmove_kept memory dest src num⟩
    rcases Nat.lt_trichotomy dest src with below | same | above
    · exact moved_of_repeats_down below repeats inside
    · rw [memmove, if_neg (by omega), if_neg (by omega), same]
    · exact moved_of_repeats_up above repeats inside

/-- Disjoint ranges are moved. -/
theorem repeats_of_disjoint {memory : Memory} {dest src num : Nat}
    (apart : dest + num ≤ src ∨ src + num ≤ dest) :
    Repeats memory dest src num := by
  intro i inside
  rw [distance] at inside
  omega

/-- Three bytes moved by one place: the last of them fills the range. -/
theorem memmove_overlapping :
    ¬ Moves (fun cell => BitVec.ofNat 8 cell)
      (memmove (fun cell => BitVec.ofNat 8 cell) 0x1000 0x1001 3)
      0x1000 0x1001 3 := by
  intro moves
  have first := moves.moved 0 (by decide)
  exact absurd first (by decide)

end BeaverOS.Memmove

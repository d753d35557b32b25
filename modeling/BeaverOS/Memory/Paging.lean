import Mathlib.Data.Nat.Bitwise
import BeaverOS.Lib.ByteMemory

/-!
# Page-table words

The constants of `memory/mapper.h` and the arithmetic of page-table entries.
An entry is a 64-bit word: twelve flag bits at the bottom, the address of a
4 KiB frame in bits 12 to 51, and more flag bits above. The code takes entries
apart with masks only, so the lemmas here are about masks.
-/

namespace BeaverOS.Paging

open BeaverOS.ByteMemory

/-- `uint64_t`, and every pointer of the 64-bit kernel. -/
abbrev Word := BitVec 64

def pagePBit : Word := 1#64 <<< 0
def pageRwBit : Word := 1#64 <<< 1
def pageUsBit : Word := 1#64 <<< 2
def pageGBit : Word := 1#64 <<< 8
def pageNxBit : Word := 1#64 <<< 63
def pageAddrBits : Word := 0x000ffffffffff000#64

/-- Free on unmap. -/
def pageFBit : Word := 1#64 <<< 9

def pml4FlagsMask : Word := 0xfff0000000000e3f#64
def pdpFlagsMask : Word := 0xfff0000000000e3f#64
def pdFlagsMask : Word := 0xfff0000000000e3f#64
def ptFlagsMask : Word := 0xfff0000000000fff#64

def pageSize : Nat := 4096
def pageTableSize : Nat := 512

/-- `MAP_ANON`, the null pointer. -/
def mapAnon : Word := 0#64

/-- The macro `BITS(X, L, H)`. -/
def bits (word : Word) (low high : Nat) : Word :=
  (word >>> low) &&& BitVec.ofNat 64 (2 ^ (high - low) - 1)

/-- Some bit of `mask` is set in `entry`: the test `entry & mask` of the
source. -/
def Has (entry mask : Word) : Prop := entry &&& mask ≠ 0#64

instance (entry mask : Word) : Decidable (Has entry mask) :=
  inferInstanceAs (Decidable (entry &&& mask ≠ 0#64))

/-- The frame address in an entry. -/
def frameOf (entry : Word) : Word := entry &&& pageAddrBits

/-- The test of the assertion "page is aligned and address is 52-bit". -/
def IsFrame (address : Word) : Prop := address &&& ~~~pageAddrBits = 0#64

instance (address : Word) : Decidable (IsFrame address) :=
  inferInstanceAs (Decidable (address &&& ~~~pageAddrBits = 0#64))

/-! ## Masks -/

section Masks

variable {entry other flags mask keep address : Word}

theorem has_or : Has (entry ||| other) mask ↔ Has entry mask ∨ Has other mask := by
  simp only [Has, BitVec.and_or_distrib_right, ne_eq, BitVec.or_eq_zero_iff,
    not_and_or]

/-- A kept mask keeps the bits inside it. -/
theorem has_and_of_subset (inside : keep &&& mask = mask) :
    Has (entry &&& keep) mask ↔ Has entry mask := by
  simp only [Has, BitVec.and_assoc, inside]

/-- A kept mask drops the bits outside it. -/
theorem not_has_and_of_disjoint (outside : keep &&& mask = 0#64) :
    ¬ Has (entry &&& keep) mask := by
  simp only [Has, BitVec.and_assoc, outside, BitVec.and_zero, ne_eq,
    not_true_eq_false, not_false_eq_true]

theorem has_and_iff_of_subset (inside : keep &&& mask = mask) :
    Has (other ||| (flags &&& keep)) mask ↔ Has other mask ∨ Has flags mask := by
  rw [has_or, has_and_of_subset inside]

theorem frameOf_or :
    frameOf (entry ||| other) = frameOf entry ||| frameOf other := by
  simp only [frameOf, BitVec.and_or_distrib_right]

theorem frameOf_and_of_disjoint (outside : keep &&& pageAddrBits = 0#64) :
    frameOf (entry &&& keep) = 0#64 := by
  simp only [frameOf, BitVec.and_assoc, outside, BitVec.and_zero]

/-- Flags OR-ed into an entry leave its frame. -/
theorem frameOf_or_flags (outside : keep &&& pageAddrBits = 0#64) :
    frameOf (entry ||| (flags &&& keep)) = frameOf entry := by
  rw [frameOf_or, frameOf_and_of_disjoint outside, BitVec.or_zero]

theorem word_split {width : Nat} (word mask : BitVec width) :
    word = (word &&& mask) ||| (word &&& ~~~mask) := by
  apply BitVec.eq_of_getLsbD_eq
  intro position bound
  simp only [BitVec.getLsbD_or, BitVec.getLsbD_and, BitVec.getLsbD_not, bound,
    decide_true, Bool.true_and]
  cases word.getLsbD position <;> cases mask.getLsbD position <;> rfl

/-- A word is the sum of its bits inside and outside of a mask. -/
theorem toNat_split {width : Nat} (word mask : BitVec width) :
    word.toNat = (word &&& mask).toNat + (word &&& ~~~mask).toNat := by
  have disjoint :
      (word &&& mask) &&& (word &&& ~~~mask) = BitVec.ofNat width 0 := by
    apply BitVec.eq_of_getLsbD_eq
    intro position bound
    simp only [BitVec.getLsbD_and, BitVec.getLsbD_not, BitVec.getLsbD_zero]
    cases word.getLsbD position <;> cases mask.getLsbD position <;> simp
  rw [← BitVec.toNat_add_of_and_eq_zero disjoint,
    BitVec.add_eq_or_of_and_eq_zero _ _ disjoint, ← word_split word mask]

theorem frameOf_of_isFrame (frame : IsFrame address) :
    frameOf address = address := by
  have split := word_split address pageAddrBits
  rw [frame, BitVec.or_zero] at split
  exact split.symm

theorem isFrame_frameOf (entry : Word) : IsFrame (frameOf entry) := by
  rw [IsFrame, frameOf, BitVec.and_assoc, BitVec.and_not_self]
  exact BitVec.and_zero

theorem isFrame_zero : IsFrame 0#64 := by decide

/-- The frame of a leaf entry built as the code builds it. -/
theorem frameOf_flags_or (outside : keep &&& pageAddrBits = 0#64)
    (frame : IsFrame address) :
    frameOf ((flags &&& keep) ||| address) = address := by
  rw [frameOf_or, frameOf_and_of_disjoint outside, BitVec.zero_or,
    frameOf_of_isFrame frame]

/-- A frame address carries no flag. -/
theorem not_has_of_isFrame (frame : IsFrame address)
    (outside : pageAddrBits &&& mask = 0#64) :
    ¬ Has address mask := by
  rw [← frameOf_of_isFrame frame]
  exact not_has_and_of_disjoint outside

theorem flags_of_frame (frame : IsFrame address)
    (outside : pageAddrBits &&& mask = 0#64) :
    address &&& mask = 0#64 := by
  rw [← frameOf_of_isFrame frame, frameOf, BitVec.and_assoc, outside,
    BitVec.and_zero]

end Masks

/-! ## Addresses -/

private theorem addrBits_testBit (position : Nat) :
    (2 ^ 52 - 4096).testBit position =
      (decide (12 ≤ position) && decide (position < 52)) := by
  have shifted : 2 ^ 52 - 4096 = (2 ^ 40 - 1) <<< 12 := by decide
  rw [shifted, Nat.testBit_shiftLeft, Nat.testBit_two_pow_sub_one]
  by_cases low : 12 ≤ position
  · simp only [ge_iff_le, low, decide_true, Bool.true_and, decide_eq_decide]
    omega
  · simp [low]

/-- The address mask rounds down to a page below 2^52. -/
theorem toNat_frameOf (word : Word) :
    (frameOf word).toNat = word.toNat % 2 ^ 52 / 4096 * 4096 := by
  have mask : pageAddrBits.toNat = 2 ^ 52 - 4096 := by decide
  rw [frameOf, BitVec.toNat_and, mask]
  apply Nat.eq_of_testBit_eq
  intro position
  have quotient :
      word.toNat % 2 ^ 52 / 4096 * 4096 =
        ((word.toNat % 2 ^ 52) >>> 12) <<< 12 := by
    rw [Nat.shiftLeft_eq, Nat.shiftRight_eq_div_pow]
  rw [quotient, Nat.testBit_and, addrBits_testBit, Nat.testBit_shiftLeft,
    Nat.testBit_shiftRight]
  by_cases low : 12 ≤ position
  · have back : 12 + (position - 12) = position := by omega
    rw [back, Nat.testBit_mod_two_pow]
    simp only [low, decide_true, Bool.true_and, Bool.and_comm]
  · simp [low]

theorem isFrame_iff (address : Word) :
    IsFrame address ↔
      address.toNat % 4096 = 0 ∧ address.toNat < 2 ^ 52 := by
  constructor
  · intro frame
    have rounded := toNat_frameOf address
    rw [frameOf_of_isFrame frame] at rounded
    omega
  · rintro ⟨aligned, bounded⟩
    have rounded : frameOf address = address := by
      apply BitVec.eq_of_toNat_eq
      rw [toNat_frameOf]
      omega
    rw [← rounded]
    exact isFrame_frameOf address

/-- An aligned word has no bit below 4096. -/
theorem not_has_of_aligned {word mask : Word}
    (aligned : word.toNat % 4096 = 0) (low : mask.toNat < 4096) :
    ¬ Has word mask := by
  intro has
  apply has
  apply BitVec.eq_of_toNat_eq
  apply Nat.eq_of_testBit_eq
  intro position
  rw [BitVec.toNat_and, Nat.testBit_and, BitVec.toNat_ofNat, Nat.zero_mod,
    Nat.zero_testBit]
  by_cases above : 12 ≤ position
  · have bound : mask.toNat < 2 ^ position :=
      Nat.lt_of_lt_of_le low
        (Nat.pow_le_pow_right (by decide : 0 < 2) above)
    rw [Nat.testBit_lt_two_pow bound, Bool.and_false]
  · have multiple : word.toNat = 2 ^ 12 * (word.toNat / 4096) := by omega
    rw [multiple, Nat.testBit_two_pow_mul, decide_eq_false above,
      Bool.false_and, Bool.false_and]

/-- An aligned word is no present entry. -/
theorem not_has_pagePBit_of_aligned {word : Word}
    (aligned : word.toNat % 4096 = 0) : ¬ Has word pagePBit :=
  not_has_of_aligned aligned (by decide)

theorem toNat_frameOf_bounds (word : Word) :
    (frameOf word).toNat % 4096 = 0 ∧ (frameOf word).toNat < 2 ^ 52 :=
  (isFrame_iff _).mp (isFrame_frameOf word)

theorem toNat_bits (word : Word) (low high : Nat) (narrow : high - low < 64) :
    (bits word low high).toNat =
      word.toNat / 2 ^ low % 2 ^ (high - low) := by
  have small : 2 ^ (high - low) - 1 < 2 ^ 64 := by
    have := Nat.pow_lt_pow_right (by decide : 1 < 2) narrow
    omega
  rw [bits, BitVec.toNat_and, BitVec.toNat_ushiftRight, BitVec.toNat_ofNat,
    Nat.mod_eq_of_lt small, Nat.and_two_pow_sub_one_eq_mod,
    Nat.shiftRight_eq_div_pow]

/-! ## Indices and entries -/

/-- A nine-bit index into a page table. -/
abbrev Index := Fin 512

instance index_neZero : NeZero 512 := ⟨by decide⟩

/-- The index that `virt` has in the table whose entries span `2 ^ low`
bytes: `BITS(virt, low, low + 9)`. -/
def indexAt (virt : Word) (low : Nat) : Index :=
  ⟨(bits virt low (low + 9)).toNat, by
    rw [toNat_bits virt low (low + 9) (by omega)]
    have nine : low + 9 - low = 9 := by omega
    rw [nine]
    exact Nat.mod_lt _ (by decide)⟩

theorem toNat_bits_eq_index (virt : Word) (low : Nat) :
    (bits virt low (low + 9)).toNat = (indexAt virt low).val := rfl

theorem indexAt_val (virt : Word) (low : Nat) :
    (indexAt virt low).val = virt.toNat / 2 ^ low % 512 := by
  rw [← toNat_bits_eq_index, toNat_bits virt low (low + 9) (by omega)]
  have nine : low + 9 - low = 9 := by omega
  rw [nine]
  rfl

/-- The physical address of an entry of a table. -/
def entryAddress (table : Nat) (index : Index) : Nat := table + 8 * index.val

/-- The entry of a table, as it stands in memory. -/
def readEntry (memory : Memory) (table : Nat) (index : Index) : Word :=
  readWord memory (entryAddress table index)

theorem readEntry_zero (memory : Memory) (table : Nat) :
    readEntry memory table 0 = readWord memory table := rfl

/-- The table or frame that a present entry leads to. -/
def child (memory : Memory) (table : Nat) (index : Index) : Option Nat :=
  if Has (readEntry memory table index) pagePBit then
    some (frameOf (readEntry memory table index)).toNat
  else
    none

theorem frame_of_child {memory : Memory} {table next : Nat} {index : Index}
    (linked : child memory table index = some next) :
    next = (frameOf (readEntry memory table index)).toNat := by
  unfold child at linked
  split at linked
  · cases linked
    rfl
  · cases linked

/-- Distinct entries of page-aligned tables occupy disjoint bytes. -/
theorem entryAddress_disjoint {table other : Nat} {index below : Index}
    (tableAligned : table % 4096 = 0) (otherAligned : other % 4096 = 0)
    (different : ¬ (table = other ∧ index = below)) :
    entryAddress table index + 8 ≤ entryAddress other below ∨
      entryAddress other below + 8 ≤ entryAddress table index := by
  have indexBound := index.isLt
  have belowBound := below.isLt
  simp only [entryAddress] at *
  by_cases sameTable : table = other
  · have : index.val ≠ below.val := fun equal =>
      different ⟨sameTable, Fin.ext equal⟩
    omega
  · omega

theorem entryAddress_mem_frame (table : Nat) (index : Index) :
    table ≤ entryAddress table index ∧
      entryAddress table index + 8 ≤ table + 4096 := by
  have indexBound := index.isLt
  simp only [entryAddress] at *
  omega

end BeaverOS.Paging

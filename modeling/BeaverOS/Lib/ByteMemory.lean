import Mathlib.Data.Nat.Basic
import Mathlib.Order.CompletePartialOrder
import Mathlib.Data.Set.Lattice
import Mathlib.Tactic.Ring

/-!
# Little-endian byte memory

A memory is a total map from addresses to bytes. Multi-byte values are stored
least significant byte first. The lemmas are the usual ones of a store: reading
what was just written, reading past a write that touches other bytes, and the
fact that a read depends on nothing but the bytes it covers.
-/

namespace BeaverOS.ByteMemory

/-- A memory of bytes, indexed by natural-number addresses. -/
abbrev Memory := Nat → BitVec 8

/-- Read `count` bytes from `address`, least significant byte first. -/
def readLE (memory : Memory) (address : Nat) : Nat → Nat
  | 0 => 0
  | count + 1 =>
      (memory address).toNat + 256 * readLE memory (address + 1) count

/-- Store the low `count` bytes of `value` at `address`. -/
def writeLE (memory : Memory) (address count value : Nat) : Memory :=
  fun cell =>
    if address ≤ cell ∧ cell < address + count then
      BitVec.ofNat 8 (value / 256 ^ (cell - address))
    else
      memory cell

/-- Store `byte` into `count` cells from `address` on. -/
def fill (memory : Memory) (address count : Nat) (byte : BitVec 8) : Memory :=
  fun cell =>
    if address ≤ cell ∧ cell < address + count then byte else memory cell

/-- Two memories hold the same bytes in `[address, address + count)`. -/
def AgreeOn (left right : Memory) (address count : Nat) : Prop :=
  ∀ cell, address ≤ cell → cell < address + count → left cell = right cell

theorem AgreeOn.trans {left middle right : Memory} {address count : Nat}
    (first : AgreeOn left middle address count)
    (second : AgreeOn middle right address count) :
    AgreeOn left right address count :=
  fun cell lower upper =>
    (first cell lower upper).trans (second cell lower upper)

theorem AgreeOn.mono {left right : Memory}
    {address count start length : Nat}
    (agree : AgreeOn left right address count)
    (lower : address ≤ start)
    (upper : start + length ≤ address + count) :
    AgreeOn left right start length :=
  fun cell cellLower cellUpper => agree cell (by omega) (by omega)

theorem readLE_lt (memory : Memory) (address count : Nat) :
    readLE memory address count < 256 ^ count := by
  induction count generalizing address with
  | zero => simp [readLE]
  | succ count inductionHypothesis =>
      have tailBound := inductionHypothesis (address + 1)
      have headBound := (memory address).isLt
      simp only [readLE, Nat.pow_succ]
      omega

theorem readLE_add (memory : Memory) (address first second : Nat) :
    readLE memory address (first + second) =
      readLE memory address first +
        256 ^ first * readLE memory (address + first) second := by
  induction first generalizing address with
  | zero => simp [readLE]
  | succ first inductionHypothesis =>
      rw [Nat.succ_add, readLE, readLE, inductionHypothesis,
        Nat.add_assoc address, Nat.add_comm 1 first]
      ring

theorem readLE_congr {left right : Memory} {address count : Nat}
    (agree : AgreeOn left right address count) :
    readLE left address count = readLE right address count := by
  induction count generalizing address with
  | zero => rfl
  | succ count inductionHypothesis =>
      have tail :
          readLE left (address + 1) count = readLE right (address + 1) count :=
        inductionHypothesis (agree.mono (by omega) (by omega))
      have head := agree address (Nat.le_refl _) (by omega)
      simp only [readLE, tail, head]

theorem writeLE_outside {memory : Memory} {address count value cell : Nat}
    (outside : cell < address ∨ address + count ≤ cell) :
    writeLE memory address count value cell = memory cell := by
  have missed : ¬ (address ≤ cell ∧ cell < address + count) := by omega
  simp only [writeLE, missed, if_false]

theorem writeLE_inside {memory : Memory} {address count value cell : Nat}
    (lower : address ≤ cell) (upper : cell < address + count) :
    writeLE memory address count value cell =
      BitVec.ofNat 8 (value / 256 ^ (cell - address)) := by
  simp only [writeLE, lower, upper, and_self, if_true]

theorem fill_outside {memory : Memory} {address count cell : Nat}
    {byte : BitVec 8}
    (outside : cell < address ∨ address + count ≤ cell) :
    fill memory address count byte cell = memory cell := by
  have missed : ¬ (address ≤ cell ∧ cell < address + count) := by omega
  simp only [fill, missed, if_false]

theorem fill_inside {memory : Memory} {address count cell : Nat}
    {byte : BitVec 8}
    (lower : address ≤ cell) (upper : cell < address + count) :
    fill memory address count byte cell = byte := by
  simp only [fill, lower, upper, and_self, if_true]

/-- The bytes seen from `start` on of a value stored at `address`. -/
private theorem readLE_writeLE_from
    (memory : Memory) (address width value : Nat) :
    ∀ count start,
      address ≤ start → start + count = address + width →
        readLE (writeLE memory address width value) start count =
          value / 256 ^ (start - address) % 256 ^ count
  | 0, start, _, _ => by
      simp [readLE, Nat.mod_one]
  | count + 1, start, lower, upper => by
      have head :
          (writeLE memory address width value start).toNat =
            value / 256 ^ (start - address) % 256 := by
        rw [writeLE_inside lower (by omega)]
        simp
      have tail := readLE_writeLE_from memory address width value count
        (start + 1) (by omega) (by omega)
      have shift : start + 1 - address = start - address + 1 := by omega
      rw [shift, Nat.pow_succ, ← Nat.div_div_eq_div_mul] at tail
      rw [readLE, head, tail, Nat.pow_succ, Nat.mul_comm (256 ^ count) 256,
        Nat.mod_mul]

/-- Reading back a stored value. -/
theorem readLE_writeLE_same (memory : Memory) (address count value : Nat) :
    readLE (writeLE memory address count value) address count =
      value % 256 ^ count := by
  have whole :=
    readLE_writeLE_from memory address count value count address
      (Nat.le_refl _) rfl
  simpa using whole

/-- A read sees nothing of a write to other bytes. -/
theorem readLE_writeLE_of_disjoint
    {memory : Memory} {address count value start width : Nat}
    (disjoint : start + width ≤ address ∨ address + count ≤ start) :
    readLE (writeLE memory address count value) start width =
      readLE memory start width :=
  readLE_congr fun cell lower upper => writeLE_outside (by omega)

theorem readLE_fill_of_disjoint
    {memory : Memory} {address count start width : Nat} {byte : BitVec 8}
    (disjoint : start + width ≤ address ∨ address + count ≤ start) :
    readLE (fill memory address count byte) start width =
      readLE memory start width :=
  readLE_congr fun cell lower upper => fill_outside (by omega)

/-- A cleared region reads as zero. -/
theorem readLE_eq_zero_of_clear {memory : Memory} {address count : Nat}
    (clear : ∀ cell, address ≤ cell → cell < address + count →
      memory cell = 0) :
    readLE memory address count = 0 := by
  induction count generalizing address with
  | zero => rfl
  | succ count inductionHypothesis =>
      have head := clear address (Nat.le_refl _) (by omega)
      have tail : readLE memory (address + 1) count = 0 :=
        inductionHypothesis
          fun cell lower upper => clear cell (by omega) (by omega)
      simp [readLE, head, tail]

/-! ## Changed cells -/

/-- Two memories differ at most in the cells of `changed`. -/
def AgreeOff (changed : Set Nat) (left right : Memory) : Prop :=
  ∀ cell, cell ∉ changed → left cell = right cell

/-- The cells of `[address, address + count)`. -/
def cells (address count : Nat) : Set Nat :=
  fun cell => address ≤ cell ∧ cell < address + count

theorem mem_cells {address count cell : Nat} :
    cell ∈ cells address count ↔ address ≤ cell ∧ cell < address + count :=
  Iff.rfl

theorem AgreeOff.refl (changed : Set Nat) (memory : Memory) :
    AgreeOff changed memory memory :=
  fun _ _ => rfl

theorem AgreeOff.trans {changed : Set Nat} {left middle right : Memory}
    (first : AgreeOff changed left middle)
    (second : AgreeOff changed middle right) :
    AgreeOff changed left right :=
  fun cell outside => (first cell outside).trans (second cell outside)

theorem AgreeOff.mono {changed larger : Set Nat} {left right : Memory}
    (agree : AgreeOff changed left right) (subset : changed ⊆ larger) :
    AgreeOff larger left right :=
  fun cell outside => agree cell fun inside => outside (subset inside)

theorem AgreeOff.agreeOn {changed : Set Nat} {left right : Memory}
    {address count : Nat} (agree : AgreeOff changed left right)
    (disjoint : Disjoint (cells address count) changed) :
    AgreeOn left right address count :=
  fun cell lower upper =>
    agree cell fun inside =>
      Set.disjoint_left.mp disjoint ⟨lower, upper⟩ inside

theorem cells_disjoint {address count start length : Nat}
    (apart : address + count ≤ start ∨ start + length ≤ address) :
    Disjoint (cells address count) (cells start length) := by
  rw [Set.disjoint_left]
  intro cell inLeft inRight
  rw [mem_cells] at inLeft inRight
  omega

theorem cells_subset {address count start length : Nat}
    (lower : start ≤ address) (upper : address + count ≤ start + length) :
    cells address count ⊆ cells start length := by
  intro cell inside
  rw [mem_cells] at *
  omega

theorem agreeOff_writeLE (memory : Memory) (address count value : Nat) :
    AgreeOff (cells address count)
      (writeLE memory address count value) memory := by
  intro cell outside
  rw [mem_cells] at outside
  exact writeLE_outside (by omega)

theorem agreeOff_fill (memory : Memory) (address count : Nat)
    (byte : BitVec 8) :
    AgreeOff (cells address count)
      (fill memory address count byte) memory := by
  intro cell outside
  rw [mem_cells] at outside
  exact fill_outside (by omega)

/-! ## Words of 64 bits -/

/-- The 64-bit word at `address`. -/
def readWord (memory : Memory) (address : Nat) : BitVec 64 :=
  BitVec.ofNat 64 (readLE memory address 8)

/-- Store a 64-bit word at `address`. -/
def writeWord (memory : Memory) (address : Nat) (word : BitVec 64) : Memory :=
  writeLE memory address 8 word.toNat

@[simp]
theorem readWord_writeWord_same
    (memory : Memory) (address : Nat) (word : BitVec 64) :
    readWord (writeWord memory address word) address = word := by
  have inRange : word.toNat % 256 ^ 8 = word.toNat :=
    Nat.mod_eq_of_lt (by have := word.isLt; omega)
  rw [readWord, writeWord, readLE_writeLE_same, inRange]
  exact BitVec.ofNat_toNat 64 word |>.trans (BitVec.setWidth_eq word)

/-- Of two stores to one place the second remains. -/
theorem writeWord_writeWord_same
    (memory : Memory) (address : Nat) (first second : BitVec 64) :
    writeWord (writeWord memory address first) address second =
      writeWord memory address second := by
  funext cell
  by_cases inside : address ≤ cell ∧ cell < address + 8
  · simp only [writeWord, writeLE, inside, and_self, if_true]
  · simp only [writeWord, writeLE, inside, if_false]

theorem readWord_writeWord_of_disjoint
    {memory : Memory} {address start : Nat} {word : BitVec 64}
    (disjoint : start + 8 ≤ address ∨ address + 8 ≤ start) :
    readWord (writeWord memory address word) start =
      readWord memory start := by
  rw [readWord, writeWord, readLE_writeLE_of_disjoint disjoint, readWord]

theorem agreeOff_writeWord
    (memory : Memory) (address : Nat) (word : BitVec 64) :
    AgreeOff (cells address 8) (writeWord memory address word) memory :=
  agreeOff_writeLE memory address 8 word.toNat

theorem readWord_congr {left right : Memory} {address : Nat}
    (agree : AgreeOn left right address 8) :
    readWord left address = readWord right address := by
  rw [readWord, readLE_congr agree, readWord]

theorem AgreeOff.readWord_eq {changed : Set Nat} {left right : Memory}
    {address : Nat} (agree : AgreeOff changed left right)
    (disjoint : Disjoint (cells address 8) changed) :
    readWord left address = readWord right address :=
  readWord_congr (agree.agreeOn disjoint)

theorem readWord_fill_of_disjoint
    {memory : Memory} {address count start : Nat} {byte : BitVec 8}
    (disjoint : start + 8 ≤ address ∨ address + count ≤ start) :
    readWord (fill memory address count byte) start =
      readWord memory start := by
  rw [readWord, readLE_fill_of_disjoint disjoint, readWord]

theorem readWord_fill_zero
    {memory : Memory} {address count start : Nat}
    (lower : address ≤ start) (upper : start + 8 ≤ address + count) :
    readWord (fill memory address count 0) start = 0 := by
  rw [readWord, readLE_eq_zero_of_clear]
  · rfl
  · intro cell cellLower cellUpper
    exact fill_inside (by omega) (by omega)

/-- Storing the high half of a word. -/
theorem readWord_writeHigh (memory : Memory) (address : Nat)
    (value : BitVec 32) :
    readWord (writeLE memory (address + 4) 4 value.toNat) address =
      value ++ (readWord memory address).setWidth 32 := by
  have low : readLE (writeLE memory (address + 4) 4 value.toNat) address 4 =
      readLE memory address 4 :=
    readLE_writeLE_of_disjoint (Or.inl (Nat.le_refl _))
  have lowBound := readLE_lt memory address 4
  have bound := value.isLt
  apply BitVec.eq_of_toNat_eq
  rw [readWord, readWord, readLE_add _ address 4 4, readLE_add _ address 4 4,
    low, readLE_writeLE_same, BitVec.toNat_append, BitVec.toNat_ofNat,
    BitVec.toNat_setWidth, BitVec.toNat_ofNat,
    ← Nat.shiftLeft_add_eq_or_of_lt (by omega), Nat.shiftLeft_eq]
  omega

/-- Stores to different places commute. -/
theorem writeWord_comm {memory : Memory} {address start : Nat}
    {word other : BitVec 64}
    (apart : address + 8 ≤ start ∨ start + 8 ≤ address) :
    writeWord (writeWord memory address word) start other =
      writeWord (writeWord memory start other) address word := by
  funext cell
  by_cases inFirst : address ≤ cell ∧ cell < address + 8
  · have notSecond : ¬ (start ≤ cell ∧ cell < start + 8) := by omega
    simp only [writeWord, writeLE, inFirst, notSecond, if_true, if_false,
      and_self]
  · simp only [writeWord, writeLE, inFirst, if_false]

theorem fill_writeWord_comm {memory : Memory} {address start count : Nat}
    {word : BitVec 64} {byte : BitVec 8}
    (apart : address + 8 ≤ start ∨ start + count ≤ address) :
    fill (writeWord memory address word) start count byte =
      writeWord (fill memory start count byte) address word := by
  funext cell
  by_cases inWord : address ≤ cell ∧ cell < address + 8
  · have notFilled : ¬ (start ≤ cell ∧ cell < start + count) := by omega
    simp only [writeWord, writeLE, fill, inWord, notFilled, if_true, if_false,
      and_self]
  · simp only [writeWord, writeLE, fill, inWord, if_false]

/-! ## Memories given by their words -/

/-- The memory whose aligned 64-bit words are the values of `word`. -/
def ofWords (word : Nat → BitVec 64) : Memory :=
  fun cell => BitVec.ofNat 8 ((word (cell / 8)).toNat / 256 ^ (cell % 8))

theorem readWord_ofWords (word : Nat → BitVec 64) (index : Nat) :
    readWord (ofWords word) (8 * index) = word index := by
  have sameBytes :
      AgreeOn (ofWords word) (writeWord (ofWords word) (8 * index)
        (word index)) (8 * index) 8 := by
    intro cell lower upper
    have quotient : cell / 8 = index := by omega
    have remainder : cell % 8 = cell - 8 * index := by omega
    rw [writeWord, writeLE_inside lower upper, ofWords, quotient, remainder]
  rw [readWord_congr sameBytes, readWord_writeWord_same]

-- Words are read through the lemmas above; unfolding them to bytes during
-- unification is never useful and very slow.
attribute [irreducible] readWord writeWord fill

end BeaverOS.ByteMemory

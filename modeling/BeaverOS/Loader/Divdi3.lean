import BeaverOS.Lib.Division
import BeaverOS.Lib.Loop

/-!
# Division of 64-bit integers

`loader/divdi3.c`, which the compiled loader calls for `/` and `%` on 64-bit
integers. `__udivmoddi4` shifts the divisor up to the top bit and then divides
by restoring.
-/

namespace BeaverOS.Divdi3

open BeaverOS.Division
open BeaverOS.Loop

abbrev Word := BitVec 64

/-- A loop that is taken not to end. -/
inductive Unfinished where
  | unfinished
  deriving DecidableEq, Repr

/-! ## The code -/

/-- The variables of `__udivmoddi4`. -/
structure Division where
  num : Word
  den : Word
  quot : Word
  qbit : Word
  deriving DecidableEq, Repr

/-- `while ((int64_t) den >= 0)`. -/
def TopBitClear (_ : Nat) (division : Division) : Prop :=
  0 ≤ division.den.toInt

instance decidableTopBitClear (i : Nat) (division : Division) :
    Decidable (TopBitClear i division) :=
  inferInstanceAs (Decidable (_ ≤ _))

/-- A round of the first loop. -/
def shiftUp (_ : Nat) (division : Division) : Except Unfinished Division :=
  .ok { division with
    den := division.den <<< 1
    qbit := division.qbit <<< 1 }

/-- `while (qbit)`. -/
def MoreBits (_ : Nat) (division : Division) : Prop := division.qbit ≠ 0

instance decidableMoreBits (i : Nat) (division : Division) :
    Decidable (MoreBits i division) :=
  inferInstanceAs (Decidable (_ ≠ _))

/-- A round of the second loop. -/
def restore (_ : Nat) (division : Division) : Except Unfinished Division :=
  let division :=
    if division.den ≤ division.num then
      { division with
        num := division.num - division.den
        quot := division.quot + division.qbit }
    else
      division
  .ok { division with
    den := division.den >>> 1
    qbit := division.qbit >>> 1 }

/-- `__udivmoddi4`, with the value for `*rem_p`. Each loop may take `fuel`
rounds. -/
def udivmoddi4 (fuel : Nat) (num den : Word) :
    Except Unfinished (Word × Word) := do
  let division : Division := { num := num, den := den, quot := 0, qbit := 1 }
  let division ← whileLoop TopBitClear shiftUp .unfinished fuel 0 division
  let division ← whileLoop MoreBits restore .unfinished fuel 0 division
  return (division.quot, division.num)

/-- `if (num < 0) { num = -num; neg ^= 1; }`. -/
def makePositive (num : Word) (neg : Bool) : Word × Bool :=
  if num.toInt < 0 then (-num, !neg) else (num, neg)

/-- `__divdi3`. -/
def divdi3 (fuel : Nat) (num den : Word) : Except Unfinished Word := do
  let (num, neg) := makePositive num false
  let (den, neg) := makePositive den neg
  let result ← udivmoddi4 fuel num den
  let v := result.1
  return if neg then -v else v

/-- `__moddi3`. -/
def moddi3 (fuel : Nat) (num den : Word) : Except Unfinished Word := do
  let (num, neg) := makePositive num false
  let (den, neg) := makePositive den neg
  let result ← udivmoddi4 fuel num den
  let v := result.2
  return if neg then -v else v

/-! ## Unsigned division -/

section Unsigned

variable {num den : Word} {i shift : Nat} {division : Division}

/-- The divisor and the bit of the quotient have been shifted up alike. -/
structure Shifted (num den : Word) (i : Nat) (division : Division) : Prop where
  sameNum : division.num = num
  noQuot : division.quot = 0
  denEq : division.den.toNat = den.toNat * 2 ^ i
  qbitEq : division.qbit.toNat = 2 ^ i

theorem topBitClear_iff :
    TopBitClear i division ↔ division.den.toNat < 2 ^ 63 := by
  have bound := division.den.isLt
  rw [TopBitClear, BitVec.toInt_eq_toNat_cond]
  split <;> omega

theorem Shifted.next (shifted : Shifted num den i division)
    (clear : TopBitClear i division) (few : i < 63) :
    ∃ division', shiftUp i division = .ok division' ∧
      Shifted num den (i + 1) division' := by
  have low := topBitClear_iff.mp clear
  have smaller : 2 ^ i < 2 ^ 63 := Nat.pow_lt_pow_right (by decide) few
  refine ⟨_, rfl, shifted.sameNum, shifted.noQuot, ?_, ?_⟩
  · change (division.den <<< 1).toNat = _
    rw [BitVec.toNat_shiftLeft, Nat.shiftLeft_eq, pow_one,
      Nat.mod_eq_of_lt (by omega), shifted.denEq, pow_succ, Nat.mul_assoc]
  · change (division.qbit <<< 1).toNat = _
    rw [BitVec.toNat_shiftLeft, Nat.shiftLeft_eq, pow_one, shifted.qbitEq,
      Nat.mod_eq_of_lt (by omega), pow_succ]

/-- The first loop ends with the top bit of the divisor set. -/
theorem shiftUp_ends (num : Word) (nonzero : den ≠ 0) {fuel : Nat}
    (enough : 63 < fuel) :
    ∃ shift division, shift ≤ 63 ∧
      whileLoop TopBitClear shiftUp .unfinished fuel 0
          { num := num, den := den, quot := 0, qbit := 1 } = .ok division ∧
      Shifted num den shift division ∧ 2 ^ 63 ≤ division.den.toNat := by
  have positive : 0 < den.toNat := by
    refine Nat.pos_of_ne_zero fun isZero => nonzero ?_
    exact BitVec.eq_of_toNat_eq isZero
  have initial : Shifted num den 0
      { num := num, den := den, quot := 0, qbit := 1 } :=
    ⟨rfl, rfl, (Nat.mul_one _).symm, rfl⟩
  obtain ⟨shift, division, few, ended, shifted, notClear⟩ :
      ∃ shift division, shift ≤ 63 ∧
        whileLoop TopBitClear shiftUp Unfinished.unfinished fuel 0
            { num := num, den := den, quot := 0, qbit := 1 } = .ok division ∧
        Shifted num den shift division ∧ ¬ TopBitClear shift division := by
    refine whileLoop_ends (Shifted num den) _ (Nat.zero_le 63) initial ?_ ?_
      (by omega)
    · intro division shifted clear
      have low := topBitClear_iff.mp clear
      rw [shifted.denEq] at low
      omega
    · exact fun i division few shifted clear => shifted.next clear few
  exact ⟨shift, division, few, ended, shifted,
    Nat.le_of_not_lt fun low => notClear (topBitClear_iff.mpr low)⟩

/-- The bits of the quotient before round `i` are decided. -/
structure Restored (num den : Word) (shift i : Nat) (division : Division) :
    Prop where
  denEq : division.den.toNat = den.toNat * 2 ^ shift / 2 ^ i
  qbitEq : division.qbit.toNat = 2 ^ shift / 2 ^ i
  part :
    Partial num.toNat den.toNat (2 ^ (shift + 1 - i)) division.num.toNat
      division.quot.toNat

theorem toNat_half (word : Word) : (word >>> 1).toNat = word.toNat / 2 := by
  rw [BitVec.toNat_ushiftRight, Nat.shiftRight_eq_div_pow, pow_one]

theorem div_two_pow_succ (number i : Nat) :
    number / 2 ^ i / 2 = number / 2 ^ (i + 1) := by
  rw [Nat.div_div_eq_div_mul, pow_succ]

theorem Restored.next (restored : Restored num den shift i division)
    (nonzero : 0 < den.toNat) (few : i ≤ shift) :
    ∃ division', restore i division = .ok division' ∧
      Restored num den shift (i + 1) division' := by
  -- the weight of the bit that this round decides
  obtain ⟨weight, isWeight⟩ : ∃ weight, weight = 2 ^ (shift - i) := ⟨_, rfl⟩
  have split : 2 ^ shift = weight * 2 ^ i := by
    rw [isWeight, ← pow_add, Nat.sub_add_cancel few]
  have power : 0 < 2 ^ i := Nat.two_pow_pos i
  have qbit : division.qbit.toNat = weight := by
    rw [restored.qbitEq, split, Nat.mul_div_cancel _ power]
  have denEq : division.den.toNat = den.toNat * weight := by
    rw [restored.denEq, split, ← Nat.mul_assoc, Nat.mul_div_cancel _ power]
  have part : Partial num.toNat den.toNat (2 * weight) division.num.toNat
      division.quot.toNat := by
    have rest : shift + 1 - i = shift - i + 1 := by omega
    have weights := restored.part
    rw [rest, pow_succ, ← isWeight, Nat.mul_comm weight] at weights
    exact weights
  have finalWeight : 2 ^ (shift + 1 - (i + 1)) = weight := by
    rw [isWeight, Nat.add_sub_add_right]
  have halves : ∀ division' : Division,
      division'.den = division.den >>> 1 →
      division'.qbit = division.qbit >>> 1 →
      Partial num.toNat den.toNat weight division'.num.toNat
        division'.quot.toNat →
      Restored num den shift (i + 1) division' := by
    intro division' denHalf qbitHalf part'
    refine ⟨?_, ?_, ?_⟩
    · rw [denHalf, toNat_half, restored.denEq, div_two_pow_succ]
    · rw [qbitHalf, toNat_half, restored.qbitEq, div_two_pow_succ]
    · rw [finalWeight]
      exact part'
  rw [restore]
  by_cases goesIn : division.den ≤ division.num
  · simp only [goesIn, if_true]
    refine ⟨_, rfl, halves _ rfl rfl ?_⟩
    have enough : den.toNat * weight ≤ division.num.toNat := by
      rw [← denEq]
      exact goesIn
    have taken := part.take enough
    have bounded := taken.quot_le nonzero
    have limit := num.isLt
    change Partial _ _ _ (division.num - division.den).toNat
      (division.quot + division.qbit).toNat
    rw [BitVec.toNat_sub_of_le goesIn, denEq, BitVec.toNat_add, qbit,
      Nat.mod_eq_of_lt (by omega)]
    exact taken
  · simp only [goesIn, if_false]
    refine ⟨_, rfl, halves _ rfl rfl (part.skip ?_)⟩
    rw [← denEq]
    exact Nat.lt_of_not_le goesIn

/-- The second loop ends with the quotient and the remainder. -/
theorem restore_ends (nonzero : 0 < den.toNat)
    (shifted : Shifted num den shift division)
    (top : 2 ^ 63 ≤ division.den.toNat) (few : shift ≤ 63) {fuel : Nat}
    (enough : 64 < fuel) :
    ∃ division',
      whileLoop MoreBits restore Unfinished.unfinished fuel 0 division =
          .ok division' ∧
        Partial num.toNat den.toNat 1 division'.num.toNat
          division'.quot.toNat := by
  have initial : Restored num den shift 0 division := by
    have bound := num.isLt
    have scaled := shifted.denEq
    refine ⟨?_, ?_, ?_⟩
    · rw [shifted.denEq, pow_zero, Nat.div_one]
    · rw [shifted.qbitEq, pow_zero, Nat.div_one]
    · rw [shifted.sameNum, shifted.noQuot]
      refine Partial.start ?_
      rw [Nat.sub_zero, pow_succ, ← Nat.mul_assoc]
      omega
  obtain ⟨division', ended, restored⟩ : ∃ division',
      whileLoop MoreBits restore Unfinished.unfinished fuel 0 division =
          .ok division' ∧
        Restored num den shift (shift + 1) division' := by
    refine whileLoop_returns (Restored num den shift) _ (Nat.zero_le _) initial
      ?_ ?_ (by omega)
    · intro i division bound restored
      have isZero : division.qbit = 0 ↔ 2 ^ shift / 2 ^ i = 0 := by
        rw [← restored.qbitEq, ← BitVec.toNat_inj]
        rfl
      rw [MoreBits, Ne, isZero, Nat.div_eq_zero_iff_lt (Nat.two_pow_pos i),
        Nat.pow_lt_pow_iff_right (by decide)]
      omega
    · intro i division _ bound restored
      exact restored.next nonzero (Nat.le_of_lt_succ bound)
  have part := restored.part
  rw [Nat.sub_self, pow_zero] at part
  exact ⟨division', ended, part⟩

/-- `__udivmoddi4` returns the quotient and the remainder. -/
theorem udivmoddi4_eq (num : Word) (nonzero : den ≠ 0) {fuel : Nat}
    (enough : 64 < fuel) :
    ∃ quot rem : Word, udivmoddi4 fuel num den = .ok (quot, rem) ∧
      num.toNat = quot.toNat * den.toNat + rem.toNat ∧
      rem.toNat < den.toNat := by
  have positive : 0 < den.toNat := by
    refine Nat.pos_of_ne_zero fun isZero => nonzero ?_
    exact BitVec.eq_of_toNat_eq isZero
  obtain ⟨shift, division, few, first, shifted, top⟩ :=
    shiftUp_ends num nonzero (by omega : 63 < fuel)
  obtain ⟨division', second, part⟩ :=
    restore_ends positive shifted top few enough
  refine ⟨division'.quot, division'.num, ?_, part.finished⟩
  simp only [udivmoddi4, first, second, bind, Except.bind, pure, Except.pure]

end Unsigned

/-- The loops of the unsigned division end, with the quotient and the
remainder. -/
theorem udivmoddi4_divides (num den : Word) (nonzero : den ≠ 0) (fuel : Nat)
    (enough : 64 < fuel) :
    ∃ quot rem : Word, udivmoddi4 fuel num den = .ok (quot, rem) ∧
      num.toNat = quot.toNat * den.toNat + rem.toNat ∧
      rem.toNat < den.toNat :=
  udivmoddi4_eq num nonzero enough

theorem udivmoddi4_divides_small :
    ∃ quot rem : Word,
      udivmoddi4 65 0xffffffffffffffff#64 0x8000000000000001#64 =
          .ok (quot, rem) ∧
        (0xffffffffffffffff#64).toNat =
          quot.toNat * (0x8000000000000001#64).toNat + rem.toNat ∧
        rem.toNat < (0x8000000000000001#64).toNat :=
  udivmoddi4_divides 0xffffffffffffffff#64 0x8000000000000001#64 (by decide) 65
    (by decide)

/-! ## Signed division -/

section Signed

variable {num den v : Word} {neg : Bool}

theorem toNat_makePositive (num : Word) (neg : Bool) :
    (makePositive num neg).1.toNat = num.toInt.natAbs ∧
      (makePositive num neg).2 = (neg ^^ decide (num.toInt < 0)) := by
  have bound := num.isLt
  have signed := BitVec.toInt_eq_toNat_cond num
  rw [makePositive]
  by_cases negative : num.toInt < 0
  · rw [if_pos negative, decide_eq_true negative, Bool.xor_true]
    refine ⟨?_, rfl⟩
    rw [BitVec.toNat_neg]
    split at signed <;> omega
  · rw [if_neg negative, decide_eq_false negative, Bool.xor_false]
    refine ⟨?_, rfl⟩
    change num.toNat = _
    split at signed <;> omega

/-- The result with its sign. -/
theorem toInt_signed (small : v.toNat < 2 ^ 63 ∨ neg = true ∧ v.toNat = 2 ^ 63) :
    (if neg then -v else v).toInt =
      if neg then -(v.toNat : Int) else v.toNat := by
  have bound := v.isLt
  cases neg with
  | true =>
      have signed := BitVec.toInt_eq_toNat_cond (-v)
      rw [BitVec.toNat_neg] at signed
      simp only [if_true]
      split at signed <;> omega
  | false =>
      have signed := BitVec.toInt_eq_toNat_cond v
      simp only [Bool.false_eq_true, if_false, false_and, or_false] at small ⊢
      split at signed <;> omega

/-- A number is its absolute value with its sign. -/
theorem sign_cases (number : Int) :
    number < 0 ∧ (number.natAbs : Int) = -number ∨
      ¬ number < 0 ∧ (number.natAbs : Int) = number := by
  omega

/-- The quotient from the quotient of the absolute values. -/
theorem tdiv_eq (num den : Int) :
    num.tdiv den =
      if decide (num < 0) ^^ decide (den < 0) then
        -((num.natAbs / den.natAbs : Nat) : Int)
      else ((num.natAbs / den.natAbs : Nat) : Int) := by
  have quotient := Int.ofNat_tdiv num.natAbs den.natAbs
  rcases sign_cases num with ⟨numSign, numEq⟩ | ⟨numSign, numEq⟩ <;>
    rcases sign_cases den with ⟨denSign, denEq⟩ | ⟨denSign, denEq⟩ <;>
    rw [quotient, numEq, denEq] <;> simp [numSign, denSign]

/-- The remainder from the remainder of the absolute values. -/
theorem tmod_eq (num den : Int) :
    num.tmod den =
      if num < 0 then -((num.natAbs % den.natAbs : Nat) : Int)
      else ((num.natAbs % den.natAbs : Nat) : Int) := by
  have remainder := Int.ofNat_tmod num.natAbs den.natAbs
  rcases sign_cases num with ⟨numSign, numEq⟩ | ⟨numSign, numEq⟩ <;>
    rcases sign_cases den with ⟨denSign, denEq⟩ | ⟨denSign, denEq⟩ <;>
    rw [remainder, numEq, denEq] <;> simp [numSign]

/-- What C requires of `/` and `%`. -/
structure DividesLikeC (num den quot rem : Int) : Prop where
  truncated : quot = num.tdiv den
  sum : num = quot * den + rem
  small : rem.natAbs < den.natAbs
  signed : rem = 0 ∨ rem.sign = num.sign

/-- The remainder is determined. -/
theorem dividesLikeC_iff {num den rem : Int} (nonzero : den ≠ 0) :
    DividesLikeC num den (num.tdiv den) rem ↔ rem = num.tmod den := by
  have sum := Int.tdiv_mul_add_tmod num den
  constructor
  · intro divides
    have same := divides.sum
    omega
  · rintro rfl
    refine ⟨rfl, sum.symm, ?_, ?_⟩
    · rw [Int.natAbs_tmod]
      exact Nat.mod_lt _ (Int.natAbs_pos.mpr nonzero)
    · by_cases divides : den ∣ num
      · exact Or.inl (Int.tmod_eq_zero_of_dvd divides)
      · exact Or.inr ((Int.sign_tmod num den).trans (if_neg divides))

/-- The quotient fits, but for the least number divided by -1. -/
theorem quot_small {quot rem : Word}
    (representable : ¬ (num = BitVec.intMin 64 ∧ den = -1))
    (nonzero : den.toInt ≠ 0)
    (total : rem.toNat + den.toInt.natAbs * quot.toNat = num.toInt.natAbs) :
    quot.toNat < 2 ^ 63 ∨
      (decide (num.toInt < 0) ^^ decide (den.toInt < 0)) = true ∧
        quot.toNat = 2 ^ 63 := by
  have numUpper : num.toInt < 2 ^ 63 := BitVec.toInt_lt
  have numLower : -2 ^ 63 ≤ num.toInt := BitVec.le_toInt num
  rcases Nat.lt_or_ge quot.toNat (2 ^ 63) with fits | large
  · exact Or.inl fits
  have once : den.toInt.natAbs = 1 := by
    by_contra notOne
    have two : 2 ≤ den.toInt.natAbs := by omega
    have product := Nat.mul_le_mul two large
    omega
  rw [once, Nat.one_mul] at total
  have numEq : num.toInt = -2 ^ 63 := by omega
  have isMin : num = BitVec.intMin 64 := BitVec.eq_of_toInt_eq numEq
  have denEq : den.toInt = 1 := by
    rcases Int.natAbs_eq_iff.mp once with isOne | isMinusOne
    · exact isOne
    · exact absurd ⟨isMin, BitVec.eq_of_toInt_eq isMinusOne⟩ representable
  refine Or.inr ⟨?_, by omega⟩
  rw [numEq, denEq]
  rfl

end Signed

/-- `__divdi3` and `__moddi3` together divide as C requires exactly if the
divisor is positive or there is no remainder. -/
theorem divdi3_moddi3_iff (num den : Word) (nonzero : den ≠ 0)
    (representable : ¬ (num = BitVec.intMin 64 ∧ den = -1)) (fuel : Nat)
    (enough : 64 < fuel) :
    ∃ quot rem : Word, divdi3 fuel num den = .ok quot ∧
      moddi3 fuel num den = .ok rem ∧
      (DividesLikeC num.toInt den.toInt quot.toInt rem.toInt ↔
        0 < den.toInt ∨ den.toInt ∣ num.toInt) := by
  obtain ⟨numAbs, numNeg⟩ := toNat_makePositive num false
  obtain ⟨denAbs, denNeg⟩ := toNat_makePositive den (makePositive num false).2
  have negEq : (makePositive den (makePositive num false).2).2 =
      (decide (num.toInt < 0) ^^ decide (den.toInt < 0)) := by
    rw [denNeg, numNeg, Bool.false_xor]
  have denNonzero : den.toInt ≠ 0 := fun isZero =>
    nonzero (BitVec.eq_of_toInt_eq isZero)
  have absNonzero : (makePositive den (makePositive num false).2).1 ≠ 0 := by
    intro isZero
    rw [isZero] at denAbs
    exact denNonzero (Int.natAbs_eq_zero.mp denAbs.symm)
  obtain ⟨quot, rem, divided, sum, small⟩ :=
    udivmoddi4_eq (makePositive num false).1 absNonzero enough
  rw [numAbs, denAbs] at sum
  rw [denAbs] at small
  have absPositive : 0 < den.toInt.natAbs := Int.natAbs_pos.mpr denNonzero
  have total : rem.toNat + den.toInt.natAbs * quot.toNat =
      num.toInt.natAbs := by
    rw [sum]
    ring
  obtain ⟨quotEq, remEq⟩ :=
    (Nat.div_mod_unique absPositive).mpr ⟨total, small⟩
  have numUpper : num.toInt < 2 ^ 63 := BitVec.toInt_lt
  have numLower : -2 ^ 63 ≤ num.toInt := BitVec.le_toInt num
  have denUpper : den.toInt < 2 ^ 63 := BitVec.toInt_lt
  have denLower : -2 ^ 63 ≤ den.toInt := BitVec.le_toInt den
  have quotSmall := quot_small representable denNonzero total
  have remSmall : rem.toNat < 2 ^ 63 := by omega
  have divides : den.toInt ∣ num.toInt ↔ rem.toNat = 0 := by
    rw [← Int.natAbs_dvd_natAbs, Nat.dvd_iff_mod_eq_zero, remEq]
  refine ⟨if decide (num.toInt < 0) ^^ decide (den.toInt < 0) then -quot
      else quot,
    if decide (num.toInt < 0) ^^ decide (den.toInt < 0) then -rem else rem,
    ?_, ?_, ?_⟩
  · simp only [divdi3, bind, Except.bind, pure, Except.pure, divided, negEq]
  · simp only [moddi3, bind, Except.bind, pure, Except.pure, divided, negEq]
  rw [toInt_signed quotSmall, toInt_signed (Or.inl remSmall), ← quotEq,
    ← tdiv_eq, dividesLikeC_iff denNonzero, tmod_eq, remEq, divides]
  by_cases denNegative : den.toInt < 0
  · -- the sign of the divisor is taken to the remainder as well
    rw [decide_eq_true denNegative, Bool.xor_true]
    by_cases numNegative : num.toInt < 0
    · simp only [numNegative, decide_true, Bool.not_true, Bool.false_eq_true,
        if_false, if_true]
      omega
    · simp only [numNegative, decide_false, Bool.not_false, if_true, if_false]
      omega
  · rw [decide_eq_false denNegative, Bool.xor_false]
    simp only [decide_eq_true_eq]
    exact iff_of_true trivial (Or.inl (by omega))

theorem divdi3_moddi3_iff_small :
    ∃ quot rem : Word, divdi3 65 (-7) 2 = .ok quot ∧
      moddi3 65 (-7) 2 = .ok rem ∧
      (DividesLikeC (-7 : Word).toInt (2 : Word).toInt quot.toInt rem.toInt ↔
        0 < (2 : Word).toInt ∨ (2 : Word).toInt ∣ (-7 : Word).toInt) :=
  divdi3_moddi3_iff (-7) 2 (by decide) (by decide) 65 (by decide)

/-- The remainder of 7 and -2 is said to be -1. -/
theorem moddi3_wrong_sign :
    divdi3 65 7 (-2) = .ok (-3) ∧ moddi3 65 7 (-2) = .ok (-1) ∧
      ¬ DividesLikeC (7 : Word).toInt (-2 : Word).toInt (-3 : Word).toInt
        (-1 : Word).toInt := by
  refine ⟨by decide +kernel, by decide +kernel, fun divides => ?_⟩
  exact absurd divides.sum (by decide)

end BeaverOS.Divdi3

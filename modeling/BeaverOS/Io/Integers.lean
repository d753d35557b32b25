import Mathlib.Tactic.NormNum
import BeaverOS.Io.Printf
import BeaverOS.Lib.Numeral

/-!
# Printed integers

The text that the functions of `INTEGER_PRINTER` emit, for every type, base and
format specifier.
-/

namespace BeaverOS.Io

open BeaverOS.Numeral

/-! ## The printers -/

/-- The characters of a string of digits. -/
def digitText (uppercase : Bool) (digits : List Nat) : List Byte :=
  digits.map fun digit => (digitTable uppercase).getD digit 0

/-- The number whose digits are printed. -/
def printedNumber (type : CType) (signCheck : Bool) (d : Int) : Int :=
  if signCheck && decide (d < 0) then type.wrap (-d) else d

section Printers

variable {base : Nat} {uppercase signCheck : Bool} {type : CType}
  {ocdev : Ocdev} {spec : FormatSpecifier} {pref written : List Byte}
  {signC : Option Byte} {d : Int}

theorem digitText_append (first second : List Nat) :
    digitText uppercase (first ++ second) =
      digitText uppercase first ++ digitText uppercase second :=
  List.map_append

theorem digitLoop_eq (uppercase : Bool) (large : 1 < base) (room : Nat)
    (bound : d.toNat < base ^ room) (written : List Byte) :
    digitLoop (digitTable uppercase) base room d written =
      .ok (digitText uppercase (numeral base d.toNat) ++ written) := by
  induction room generalizing d written with
  | zero =>
      have isZero : d.toNat = 0 := by
        rw [pow_zero] at bound
        omega
      rw [digitLoop, if_neg (by omega), isZero, numeral_zero]
      rfl
  | succ room inductionHypothesis =>
      rw [digitLoop]
      by_cases positive : 0 < d
      · obtain ⟨number, rfl⟩ := Int.eq_ofNat_of_zero_le positive.le
        have numberPositive : 0 < number := by omega
        have quotient : ((number : Int) / (base : Int)).toNat =
            number / base := by
          rw [← Int.natCast_div, Int.toNat_natCast]
        have remainder : ((number : Int) % (base : Int)).toNat =
            number % base := by
          rw [← Int.natCast_mod, Int.toNat_natCast]
        have smaller : number / base < base ^ room := by
          rw [Nat.div_lt_iff_lt_mul (by omega), ← pow_succ]
          exact bound
        rw [if_pos positive, inductionHypothesis (by rw [quotient]; exact smaller),
          quotient, remainder, Int.toNat_natCast,
          numeral_of_pos large numberPositive, digitText_append,
          List.append_assoc]
        rfl
      · have isZero : d.toNat = 0 := by omega
        rw [if_neg positive, isZero, numeral_zero]
        rfl

/-! ### Integer types -/

theorem ofInt_eq_of_emod_eq {bits : Nat} {first second : Int}
    (same : first % (2 ^ bits : Nat) = second % (2 ^ bits : Nat)) :
    BitVec.ofInt bits first = BitVec.ofInt bits second := by
  apply BitVec.eq_of_toNat_eq
  rw [BitVec.toNat_ofInt, BitVec.toNat_ofInt, same]

/-- The values of a type. -/
def CType.InRange (type : CType) (value : Int) : Prop :=
  if type.signed then
    -2 ^ (type.bits - 1) ≤ value ∧ value < 2 ^ (type.bits - 1)
  else
    0 ≤ value ∧ value < 2 ^ type.bits

theorem wrap_eq_self (positive : 0 < type.bits) (inRange : type.InRange d) :
    type.wrap d = d := by
  rw [CType.wrap]
  rw [CType.InRange] at inRange
  by_cases signed : type.signed = true
  · rw [if_pos signed] at inRange ⊢
    exact BitVec.toInt_ofInt_eq_self positive inRange.1 inRange.2
  · rw [if_neg signed] at inRange ⊢
    have bound : d < ((2 ^ type.bits : Nat) : Int) := by
      push_cast
      exact inRange.2
    rw [BitVec.toNat_ofInt, Int.emod_eq_of_lt inRange.1 bound,
      Int.toNat_of_nonneg inRange.1]

/-- An argument that was promoted to more bits is converted back. -/
theorem wrap_toInt_ofInt {wide : Nat} (narrow : type.bits ≤ wide)
    (positive : 0 < type.bits) (inRange : type.InRange d) :
    type.wrap (BitVec.ofInt wide d).toInt = d := by
  have divides : ((2 ^ type.bits : Nat) : Int) ∣ ((2 ^ wide : Nat) : Int) :=
    Int.natCast_dvd_natCast.mpr (Nat.pow_dvd_pow 2 narrow)
  have same : BitVec.ofInt type.bits (BitVec.ofInt wide d).toInt =
      BitVec.ofInt type.bits d := by
    apply ofInt_eq_of_emod_eq
    rw [BitVec.toInt_ofInt, ← Int.emod_emod_of_dvd _ divides, Int.bmod_emod,
      Int.emod_emod_of_dvd _ divides]
  rw [CType.wrap, same]
  exact wrap_eq_self positive inRange

/-- The negation of the least value is that value. -/
theorem wrap_neg_minimum (signed : type.signed = true)
    (positive : 0 < type.bits) :
    type.wrap (-(-2 ^ (type.bits - 1))) = -2 ^ (type.bits - 1) := by
  have double : (2 : Int) ^ type.bits = 2 ^ (type.bits - 1) * 2 := by
    rw [← pow_succ, Nat.sub_add_cancel positive]
  have half : (0 : Int) < 2 ^ (type.bits - 1) := by positivity
  have same : BitVec.ofInt type.bits (-(-2 ^ (type.bits - 1))) =
      BitVec.ofInt type.bits (-2 ^ (type.bits - 1)) := by
    apply ofInt_eq_of_emod_eq
    push_cast
    rw [double, Int.emod_eq_emod_iff_emod_sub_eq_zero]
    ring_nf
    exact Int.emod_self
  rw [CType.wrap, same, if_pos signed]
  exact BitVec.toInt_ofInt_eq_self positive le_rfl (by omega)

theorem wrap_lt (value : Int) : type.wrap value < 2 ^ type.bits := by
  rw [CType.wrap]
  have positive : (0 : Int) < 2 ^ type.bits := by positivity
  by_cases signed : type.signed = true
  · rw [if_pos signed]
    have bound := @BitVec.two_mul_toInt_lt _ (BitVec.ofInt type.bits value)
    omega
  · rw [if_neg signed]
    exact_mod_cast (BitVec.ofInt type.bits value).isLt

/-! ### The emitted text -/

@[simp]
theorem text_append (first second : Printed) :
    (first ++ second).text = first.text ++ second.text :=
  rfl

/-- The buffer is large enough for the numbers of 64 bits. -/
theorem integerPrinter_eq (large : 8 ≤ base)
    (bound : printedNumber type signCheck d < 2 ^ 64) :
    integerPrinter type base pref uppercase signCheck ocdev spec d =
      .ok (printFields ocdev spec (signCharacter signCheck spec d) pref
        (digitText uppercase
          (numeral base (printedNumber type signCheck d).toNat))) := by
  have room : (printedNumber type signCheck d).toNat < base ^ 24 :=
    calc
      (printedNumber type signCheck d).toNat < 2 ^ 64 := by omega
      _ ≤ 8 ^ 24 := by norm_num
      _ ≤ base ^ 24 := Nat.pow_le_pow_left large 24
  have loop := digitLoop_eq uppercase (by omega : 1 < base) 24
    room []
  rw [List.append_nil] at loop
  change (do
    let written ← digitLoop (digitTable uppercase) base 24
      (printedNumber type signCheck d) []
    return printFields ocdev spec (signCharacter signCheck spec d) pref
      written) = _
  rw [loop]
  rfl

/-- The text of a field with no precision that is not aligned to the left. -/
theorem text_printFields (right : spec.has FLAG_MINUS = false)
    (noPrecision : spec.has FLAG_PRECISION_SPECIFIED = false) :
    (printFields ocdev spec signC pref written).text =
      List.replicate
          (spec.width.toNat -
            (signC.toList.length + max 1 written.length +
              if spec.has FLAG_SHARP then pref.length else 0))
          (if spec.has FLAG_ZERO then byte '0' else byte ' ') ++
        signC.toList ++
        (if spec.has FLAG_SHARP then pref else []) ++
        List.replicate (1 - written.length) (byte '0') ++ written := by
  have taken : pref.take (if spec.has FLAG_SHARP then pref.length else 0) =
      if spec.has FLAG_SHARP then pref else [] := by
    split
    · exact List.take_length
    · exact List.take_zero
  simp only [printFields, right, noPrecision, text_append, taken, putcLoop, nothing,
    Bool.false_eq_true, if_false, List.append_nil]
  cases signC <;> rfl

end Printers

end BeaverOS.Io

import Mathlib.Data.Nat.Digits.Lemmas

/-!
# Numerals

Natural numbers written in a base, the most significant digit first, and the
value of a string of digits. The numeral of zero is empty; `shown` is the
customary way to write a number, with a digit for zero.
-/

namespace BeaverOS.Numeral

variable {base number : Nat}

/-- The digits of a number, the most significant one first. -/
def numeral (base number : Nat) : List Nat := (Nat.digits base number).reverse

/-- The value of a string of digits. -/
def value (base : Nat) (digits : List Nat) : Nat :=
  digits.foldl (fun total digit => total * base + digit) 0

theorem numeral_zero (base : Nat) : numeral base 0 = [] := by
  rw [numeral, Nat.digits_zero, List.reverse_nil]

/-- The last digit is the remainder. -/
theorem numeral_of_pos (large : 1 < base) (positive : 0 < number) :
    numeral base number =
      numeral base (number / base) ++ [number % base] := by
  rw [numeral, Nat.digits_def' large positive, List.reverse_cons, numeral]

theorem value_append_singleton (digits : List Nat) (digit : Nat) :
    value base (digits ++ [digit]) = value base digits * base + digit := by
  rw [value, List.foldl_append]
  rfl

theorem value_numeral (large : 1 < base) (number : Nat) :
    value base (numeral base number) = number := by
  induction number using Nat.strong_induction_on with
  | h number inductionHypothesis =>
      rcases Nat.eq_zero_or_pos number with isZero | positive
      · rw [isZero, numeral_zero]
        rfl
      · rw [numeral_of_pos large positive, value_append_singleton,
          inductionHypothesis _ (Nat.div_lt_self positive large)]
        exact Nat.div_add_mod' number base

theorem lt_of_mem_numeral (large : 1 < base) {digit : Nat}
    (member : digit ∈ numeral base number) : digit < base :=
  Nat.digits_lt_base large (List.mem_reverse.mp member)

theorem numeral_eq_nil_iff : numeral base number = [] ↔ number = 0 := by
  rw [numeral, List.reverse_eq_nil_iff, Nat.digits_eq_nil_iff_eq_zero]

/-- A numeral has no superfluous zeros. -/
theorem head?_numeral_ne (base number : Nat) :
    (numeral base number).head? ≠ some 0 := by
  intro isZero
  rw [numeral, List.head?_reverse] at isZero
  obtain ⟨member, last⟩ := List.mem_getLast?_eq_getLast isZero
  have nonzero : number ≠ 0 := fun equal =>
    member (Nat.digits_eq_nil_iff_eq_zero.mpr equal)
  exact Nat.getLast_digit_ne_zero base nonzero last.symm

theorem length_numeral_le (large : 1 < base) {count : Nat}
    (bound : number < base ^ count) :
    (numeral base number).length ≤ count := by
  rw [numeral, List.length_reverse]
  exact (Nat.digits_length_le_iff large number).mpr bound

/-! ## With a digit for zero -/

/-- A number with at least one digit. -/
def shown (base number : Nat) : List Nat :=
  if number = 0 then [0] else numeral base number

theorem shown_zero (base : Nat) : shown base 0 = [0] :=
  if_pos rfl

theorem shown_of_ne (nonzero : number ≠ 0) :
    shown base number = numeral base number :=
  if_neg nonzero

/-- One digit is the least that is printed. -/
theorem replicate_append_numeral (base number : Nat) :
    List.replicate (1 - (numeral base number).length) 0 ++ numeral base number =
      shown base number := by
  by_cases isZero : number = 0
  · rw [isZero, numeral_zero, shown_zero]
    rfl
  · have nonempty : 0 < (numeral base number).length :=
      List.length_pos_of_ne_nil fun empty =>
        isZero (numeral_eq_nil_iff.mp empty)
    rw [shown_of_ne isZero, Nat.sub_eq_zero_of_le nonempty]
    rfl

theorem shown_ne_nil (base number : Nat) : shown base number ≠ [] := by
  by_cases isZero : number = 0
  · rw [isZero, shown_zero]
    exact List.cons_ne_nil _ _
  · rw [shown_of_ne isZero]
    exact fun empty => isZero (numeral_eq_nil_iff.mp empty)

theorem lt_of_mem_shown (large : 1 < base) {digit : Nat}
    (member : digit ∈ shown base number) : digit < base := by
  by_cases isZero : number = 0
  · rw [isZero, shown_zero, List.mem_singleton] at member
    omega
  · rw [shown_of_ne isZero] at member
    exact lt_of_mem_numeral large member

theorem value_shown (large : 1 < base) (number : Nat) :
    value base (shown base number) = number := by
  by_cases isZero : number = 0
  · rw [isZero, shown_zero]
    exact Nat.zero_mul base
  · rw [shown_of_ne isZero, value_numeral large]

/-- Only the number zero begins with a zero. -/
theorem head?_shown_ne (long : 1 < (shown base number).length) :
    (shown base number).head? ≠ some 0 := by
  by_cases isZero : number = 0
  · rw [isZero, shown_zero] at long
    exact absurd long (Nat.lt_irrefl 1)
  · rw [shown_of_ne isZero]
    exact head?_numeral_ne base number

theorem length_shown_le (large : 1 < base) {count : Nat} (positive : 0 < count)
    (bound : number < base ^ count) : (shown base number).length ≤ count := by
  by_cases isZero : number = 0
  · rw [isZero, shown_zero]
    exact positive
  · rw [shown_of_ne isZero]
    exact length_numeral_le large bound

end BeaverOS.Numeral

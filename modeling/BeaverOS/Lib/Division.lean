import Mathlib.Algebra.Ring.Nat
import Mathlib.Tactic.Ring

/-!
# Restoring division

The digits of a quotient are found from the greatest weight on: where the
divisor, taken with the weight, goes into what is left, it is taken off.
-/

namespace BeaverOS.Division

variable {num den weight rem quot : Nat}

/-- The digits of the quotient from `weight` on are decided. -/
structure Partial (num den weight rem quot : Nat) : Prop where
  sum : num = quot * den + rem
  small : rem < den * weight

theorem Partial.start (bounded : num < den * weight) :
    Partial num den weight num 0 :=
  ⟨by rw [Nat.zero_mul, Nat.zero_add], bounded⟩

/-- The divisor goes into what is left. -/
theorem Partial.take (part : Partial num den (2 * weight) rem quot)
    (enough : den * weight ≤ rem) :
    Partial num den weight (rem - den * weight) (quot + weight) := by
  have small := part.small
  have double : den * (2 * weight) = den * weight + den * weight := by ring
  refine ⟨?_, by omega⟩
  calc
    num = quot * den + rem := part.sum
    _ = quot * den + (den * weight + (rem - den * weight)) := by
      rw [Nat.add_sub_cancel' enough]
    _ = (quot + weight) * den + (rem - den * weight) := by ring

/-- The divisor does not go into what is left. -/
theorem Partial.skip (part : Partial num den (2 * weight) rem quot)
    (short : rem < den * weight) : Partial num den weight rem quot :=
  ⟨part.sum, short⟩

/-- The quotient stays below the number that is divided. -/
theorem Partial.quot_le (part : Partial num den weight rem quot)
    (positive : 0 < den) : quot ≤ num := by
  have sum := part.sum
  have grows := Nat.le_mul_of_pos_right quot positive
  omega

/-- All digits are decided. -/
theorem Partial.finished (part : Partial num den 1 rem quot) :
    num = quot * den + rem ∧ rem < den := by
  have small := part.small
  rw [Nat.mul_one] at small
  exact ⟨part.sum, small⟩

end BeaverOS.Division

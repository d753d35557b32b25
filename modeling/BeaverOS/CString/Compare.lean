import Mathlib.Data.Nat.Basic

/-!
# Comparing strings

`strncmp` of `string.c`, over any way to read the characters. Two strings are
told apart up to the first NUL, and within the given number of characters.
-/

namespace BeaverOS.CString

universe u

variable {Error : Type u}

/-! ## The code -/

section Code

variable (str1 str2 : Nat → Except Error (BitVec 8))

/-- `return (int) *str1 - (int) *str2;`. -/
def difference (i : Nat) : Except Error Int := do
  let left ← str1 i
  let right ← str2 i
  return left.toInt - right.toInt

/-- The loop of `strncmp`, with `n` as it stands after `--n`. -/
def strncmpFrom : Nat → Nat → Except Error Int
  | i, 0 => difference str1 str2 i
  | i, n + 1 => do
      let left ← str1 i
      if left = 0 then difference str1 str2 i
      else
        let right ← str2 i
        if left = right then strncmpFrom (i + 1) n
        else difference str1 str2 i

/-- `strncmp`. -/
def strncmp : Nat → Except Error Int
  | 0 => .ok 0
  | n + 1 => strncmpFrom str1 str2 0 n

end Code

/-! ## The strings that compare equal -/

/-- The strings from character `i` on are the same for `count` characters, or
up to a NUL before that. -/
def SameFrom (left right : Nat → BitVec 8) (i count : Nat) : Prop :=
  ∀ k, k < count → (∀ j, j < k → left (i + j) ≠ 0) →
    left (i + k) = right (i + k)

/-- The strings are the same for `count` characters, or up to a NUL. -/
def SameText (left right : Nat → BitVec 8) (count : Nat) : Prop :=
  SameFrom left right 0 count

section Strings

variable {left right : Nat → BitVec 8} {i n count : Nat}
  {str1 str2 : Nat → Except Error (BitVec 8)}

theorem sameFrom_succ :
    SameFrom left right i (count + 1) ↔
      left i = right i ∧ (left i ≠ 0 → SameFrom left right (i + 1) count) := by
  constructor
  · intro same
    have first : left i = right i :=
      same 0 (Nat.succ_pos count) fun j before => absurd before (Nat.not_lt_zero j)
    refine ⟨first, fun nonzero k inside before => ?_⟩
    rw [Nat.add_right_comm]
    refine same (k + 1) (by omega) fun j upTo => ?_
    cases j with
    | zero => exact nonzero
    | succ j =>
        rw [Nat.add_comm j 1, ← Nat.add_assoc]
        exact before j (by omega)
  · rintro ⟨first, rest⟩ k inside before
    cases k with
    | zero => exact first
    | succ k =>
        rw [Nat.add_comm k 1, ← Nat.add_assoc]
        refine rest (before 0 (Nat.succ_pos k)) k (by omega) fun j upTo => ?_
        rw [Nat.add_right_comm]
        exact before (j + 1) (by omega)

theorem sameFrom_one : SameFrom left right i 1 ↔ left i = right i := by
  rw [sameFrom_succ]
  refine ⟨And.left, fun first => ⟨first, fun _ k inside => ?_⟩⟩
  exact absurd inside (Nat.not_lt_zero k)

/-- A text without NUL is compared in all its characters. -/
theorem sameText_iff_of_left (nonzero : ∀ k, k < count → left k ≠ 0) :
    SameText left right count ↔ ∀ k, k < count → left k = right k := by
  constructor
  · intro same k inside
    have here := same k inside fun j before => by
      rw [Nat.zero_add]
      exact nonzero j (by omega)
    rwa [Nat.zero_add] at here
  · intro equal k inside _
    rw [Nat.zero_add]
    exact equal k inside

/-- The same where the other text has no NUL. -/
theorem sameText_iff (nonzero : ∀ k, k < count → right k ≠ 0) :
    SameText left right count ↔ ∀ k, k < count → left k = right k := by
  constructor
  · intro same k
    induction k using Nat.strong_induction_on with
    | h k inductionHypothesis =>
        intro inside
        have here := same k inside fun j before => by
          rw [Nat.zero_add, inductionHypothesis j before (by omega)]
          exact nonzero j (by omega)
        rwa [Nat.zero_add] at here
  · intro equal k inside _
    rw [Nat.zero_add]
    exact equal k inside

theorem difference_ok (read1 : str1 i = .ok (left i))
    (read2 : str2 i = .ok (right i)) :
    difference str1 str2 i = .ok ((left i).toInt - (right i).toInt) := by
  rw [difference, read1, read2]
  rfl

theorem difference_eq_zero :
    (left i).toInt - (right i).toInt = 0 ↔ left i = right i := by
  rw [Int.sub_eq_zero]
  exact BitVec.toInt_inj

/-- The loop reads inside the two strings, and tells whether they are the same
from where it stands. -/
theorem strncmpFrom_ok
    (read1 : ∀ k, i ≤ k → k < i + (n + 1) → str1 k = .ok (left k))
    (read2 : ∀ k, i ≤ k → k < i + (n + 1) → str2 k = .ok (right k)) :
    ∃ result, strncmpFrom str1 str2 i n = .ok result ∧
      (result = 0 ↔ SameFrom left right i (n + 1)) := by
  have decided : ∀ j, i ≤ j → j < i + (n + 1) →
      difference str1 str2 j = .ok ((left j).toInt - (right j).toInt) :=
    fun j lower upper =>
      difference_ok (read1 j lower upper) (read2 j lower upper)
  induction n generalizing i with
  | zero =>
      refine ⟨_, decided i (Nat.le_refl i) (by omega), ?_⟩
      rw [sameFrom_one, difference_eq_zero]
  | succ n inductionHypothesis =>
      rw [sameFrom_succ, strncmpFrom, read1 i (Nat.le_refl i) (by omega),
        decided i (Nat.le_refl i) (by omega)]
      change ∃ result, (if left i = 0 then _ else _) = _ ∧ _
      by_cases zero : left i = 0
      · rw [if_pos zero]
        refine ⟨_, rfl, ?_⟩
        rw [difference_eq_zero]
        exact ⟨fun same => ⟨same, fun nonzero => absurd zero nonzero⟩, And.left⟩
      rw [if_neg zero, read2 i (Nat.le_refl i) (by omega)]
      change ∃ result, (if left i = right i then _ else _) = _ ∧ _
      by_cases same : left i = right i
      · rw [if_pos same]
        obtain ⟨result, returned, decides⟩ :=
          @inductionHypothesis (i + 1)
            (fun k lower upper => read1 k (by omega) (by omega))
            (fun k lower upper => read2 k (by omega) (by omega))
            (fun k lower upper => decided k (by omega) (by omega))
        refine ⟨result, returned, decides.trans ?_⟩
        exact ⟨fun rest => ⟨same, fun _ => rest⟩, fun both => both.2 zero⟩
      · rw [if_neg same]
        refine ⟨_, rfl, ?_⟩
        rw [difference_eq_zero]
        exact ⟨fun equal => absurd equal same, And.left⟩

/-- `strncmp` is zero exactly for strings that are the same for `count`
characters. -/
theorem strncmp_ok (read1 : ∀ k, k < count → str1 k = .ok (left k))
    (read2 : ∀ k, k < count → str2 k = .ok (right k)) :
    ∃ result, strncmp str1 str2 count = .ok result ∧
      (result = 0 ↔ SameText left right count) := by
  cases count with
  | zero =>
      refine ⟨0, rfl, ?_⟩
      exact ⟨fun _ k inside => absurd inside (Nat.not_lt_zero k), fun _ => rfl⟩
  | succ n =>
      exact strncmpFrom_ok (fun k _ upper => read1 k (by omega))
        (fun k _ upper => read2 k (by omega))

end Strings

end BeaverOS.CString

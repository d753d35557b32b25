import BeaverOS.CString.Compare
import Mathlib.Data.List.Basic
import Mathlib.Data.Nat.Find

/-!
# The order of strings

`strcmp` and `strncmp` of `string.c` against the lexicographic order of the
bytes. Both come to the end of the common prefix and subtract the two
characters there. `char` is signed on both targets, so the result has the
right sign as long as both characters are on the same side of 0x80.
-/

namespace BeaverOS.CString

universe u

variable {Error : Type u}

/-! ## The code -/

section Code

variable (exhausted : Error) (str1 str2 : Nat → Except Error (BitVec 8))

/-- The loop of `strcmp`, for at most `fuel` rounds. -/
def strcmpFrom : Nat → Nat → Except Error Int
  | 0, _ => .error exhausted
  | fuel + 1, i => do
      let left ← str1 i
      if left = 0 then difference str1 str2 i
      else
        let right ← str2 i
        if left = right then strcmpFrom fuel (i + 1)
        else difference str1 str2 i

/-- `strcmp`. -/
def strcmp (fuel : Nat) : Except Error Int :=
  strcmpFrom exhausted str1 str2 fuel 0

end Code

/-! ## Where the loops stop -/

section Loops

variable {exhausted : Error} {left right : Nat → BitVec 8}
  {str1 str2 : Nat → Except Error (BitVec 8)} {i last n fuel : Nat}

/-- From character `i` up to `last` the strings are the same and go on. -/
def GoesOn (left right : Nat → BitVec 8) (i last : Nat) : Prop :=
  ∀ j, i ≤ j → j < last → left j ≠ 0 ∧ left j = right j

/-- The strings differ at a character, or end there. -/
def Stops (left right : Nat → BitVec 8) (last : Nat) : Prop :=
  left last = 0 ∨ left last ≠ right last

theorem GoesOn.tail (goesOn : GoesOn left right i last) :
    GoesOn left right (i + 1) last :=
  fun j lower upper => goesOn j (Nat.le_of_succ_le lower) upper

/-- One round of either loop, with what the next one returns. -/
def compareAt (str1 str2 : Nat → Except Error (BitVec 8)) (i : Nat)
    (next : Except Error Int) : Except Error Int := do
  let left ← str1 i
  if left = 0 then difference str1 str2 i
  else
    let right ← str2 i
    if left = right then next else difference str1 str2 i

theorem strcmpFrom_succ :
    strcmpFrom exhausted str1 str2 (fuel + 1) i =
      compareAt str1 str2 i (strcmpFrom exhausted str1 str2 fuel (i + 1)) :=
  rfl

theorem strncmpFrom_succ :
    strncmpFrom str1 str2 i (n + 1) =
      compareAt str1 str2 i (strncmpFrom str1 str2 (i + 1) n) :=
  rfl

theorem compareAt_stops {next : Except Error Int}
    (stops : Stops left right i) (read1 : str1 i = .ok (left i))
    (read2 : str2 i = .ok (right i)) :
    compareAt str1 str2 i next =
      .ok ((left i).toInt - (right i).toInt) := by
  rw [compareAt, difference_ok read1 read2, read1, read2]
  change (if left i = 0 then _ else if left i = right i then _ else _) = _
  rcases stops with zero | different
  · rw [if_pos zero]
  · rw [if_neg different, ite_self]

theorem compareAt_goesOn {next : Except Error Int} (nonzero : left i ≠ 0)
    (same : left i = right i) (read1 : str1 i = .ok (left i))
    (read2 : str2 i = .ok (right i)) :
    compareAt str1 str2 i next = next := by
  rw [compareAt, read1, read2]
  change (if left i = 0 then _ else if left i = right i then _ else _) = _
  rw [if_neg nonzero, if_pos same]

/-- `strcmp` reads up to the first character where the strings stop. -/
theorem strcmpFrom_eq (exhausted : Error) (bound : i ≤ last)
    (goesOn : GoesOn left right i last) (stops : Stops left right last)
    (read1 : ∀ k, i ≤ k → k ≤ last → str1 k = .ok (left k))
    (read2 : ∀ k, i ≤ k → k ≤ last → str2 k = .ok (right k))
    (enough : last < i + fuel) :
    strcmpFrom exhausted str1 str2 fuel i =
      .ok ((left last).toInt - (right last).toInt) := by
  induction fuel generalizing i with
  | zero => omega
  | succ fuel inductionHypothesis =>
      have first := read1 i (Nat.le_refl i) bound
      have second := read2 i (Nat.le_refl i) bound
      rw [strcmpFrom_succ]
      by_cases here : i = last
      · subst here
        exact compareAt_stops stops first second
      · obtain ⟨nonzero, same⟩ := goesOn i (Nat.le_refl i) (by omega)
        rw [compareAt_goesOn nonzero same first second]
        exact inductionHypothesis (by omega) goesOn.tail
          (fun k lower => read1 k (Nat.le_of_succ_le lower))
          (fun k lower => read2 k (Nat.le_of_succ_le lower)) (by omega)

/-- `strncmp` reads up to there, or up to its last character. -/
theorem strncmpFrom_eq (bound : i ≤ last) (inside : last ≤ i + n)
    (goesOn : GoesOn left right i last)
    (stops : last = i + n ∨ Stops left right last)
    (read1 : ∀ k, i ≤ k → k ≤ last → str1 k = .ok (left k))
    (read2 : ∀ k, i ≤ k → k ≤ last → str2 k = .ok (right k)) :
    strncmpFrom str1 str2 i n =
      .ok ((left last).toInt - (right last).toInt) := by
  induction n generalizing i with
  | zero =>
      obtain rfl : last = i := by omega
      exact difference_ok (read1 last (Nat.le_refl last) (Nat.le_refl last))
        (read2 last (Nat.le_refl last) (Nat.le_refl last))
  | succ n inductionHypothesis =>
      have first := read1 i (Nat.le_refl i) bound
      have second := read2 i (Nat.le_refl i) bound
      rw [strncmpFrom_succ]
      by_cases here : i = last
      · subst here
        exact compareAt_stops (stops.resolve_left (by omega)) first second
      · obtain ⟨nonzero, same⟩ := goesOn i (Nat.le_refl i) (by omega)
        rw [compareAt_goesOn nonzero same first second]
        exact inductionHypothesis (by omega) (by omega) goesOn.tail
          (stops.imp_left fun full => by omega)
          (fun k lower => read1 k (Nat.le_of_succ_le lower))
          (fun k lower => read2 k (Nat.le_of_succ_le lower))

/-- Where one string ends the strings stop, if they have not before. -/
theorem exists_stops (ends : left n = 0) :
    ∃ last, last ≤ n ∧ GoesOn left right 0 last ∧ Stops left right last := by
  classical
  have stop : ∃ last, Stops left right last := ⟨n, Or.inl ends⟩
  refine ⟨Nat.find stop, Nat.find_min' stop (Or.inl ends), ?_,
    Nat.find_spec stop⟩
  intro j _ below
  have goesOn := Nat.find_min stop below
  rw [Stops, not_or, not_not] at goesOn
  exact goesOn

/-- `strcmp` of a string of `n` characters is zero if the other one is the
same, the NUL included. -/
theorem strcmp_zero_iff (exhausted : Error) (ends : left n = 0)
    (noNul : ∀ k, k < n → left k ≠ 0)
    (read1 : ∀ k, k ≤ n → str1 k = .ok (left k))
    (read2 : ∀ k, k ≤ n → str2 k = .ok (right k)) (enough : n < fuel) :
    ∃ result, strcmp exhausted str1 str2 fuel = .ok result ∧
      (result = 0 ↔ ∀ k, k ≤ n → left k = right k) := by
  obtain ⟨last, inside, goesOn, stops⟩ := @exists_stops left right n ends
  refine ⟨_, strcmpFrom_eq exhausted (Nat.zero_le last) goesOn stops
    (fun k _ upper => read1 k (by omega)) (fun k _ upper => read2 k (by omega))
    (by omega), ?_⟩
  rw [difference_eq_zero]
  constructor
  · intro same k upTo
    -- They stop at the same character, so it is the NUL.
    have zero : left last = 0 :=
      stops.resolve_right fun different => different same
    have atEnd : last = n := by
      by_contra earlier
      exact noNul last (by omega) zero
    by_cases here : k = last
    · rw [here]
      exact same
    · exact (goesOn k (Nat.zero_le k) (by omega)).2
  · intro same
    exact same last inside

end Loops

/-! ## Lexicographic order -/

/-- A string without its terminating NUL. -/
structure Text where
  chars : List (BitVec 8)
  noNul : 0 ∉ chars

/-- The character at a position, with the NUL behind the last one. -/
def charAt (chars : List (BitVec 8)) (k : Nat) : BitVec 8 :=
  chars.getD k 0

/-- The length of the longest common prefix. -/
def commonLength : List (BitVec 8) → List (BitVec 8) → Nat
  | x :: left, y :: right =>
      if x = y then commonLength left right + 1 else 0
  | _, _ => 0

/-- The sign of a result tells how the first string stands to the second. -/
structure Orders (result : Int) (left right : List (BitVec 8)) : Prop where
  before : result < 0 ↔ left < right
  equal : result = 0 ↔ left = right
  after : 0 < result ↔ right < left

/-- The characters behind the common prefix are both below 0x80, or both are
not. -/
def SameSide (left right : List (BitVec 8)) : Prop :=
  (charAt left (commonLength left right)).msb =
    (charAt right (commonLength left right)).msb

section Order

variable {left right : List (BitVec 8)} {x y : BitVec 8} {k n : Nat}

@[simp]
theorem charAt_nil : charAt [] k = 0 := rfl

@[simp]
theorem charAt_zero : charAt (x :: left) 0 = x := rfl

@[simp]
theorem charAt_succ : charAt (x :: left) (k + 1) = charAt left k := rfl

@[simp]
theorem commonLength_nil : commonLength [] right = 0 := by
  cases right with
  | nil => rfl
  | cons y right => rfl

@[simp]
theorem commonLength_nil_right : commonLength left [] = 0 := by
  cases left with
  | nil => rfl
  | cons x left => rfl

theorem commonLength_cons_self :
    commonLength (x :: left) (x :: right) = commonLength left right + 1 :=
  if_pos rfl

theorem commonLength_cons_of_ne (different : x ≠ y) :
    commonLength (x :: left) (y :: right) = 0 :=
  if_neg different

theorem commonLength_comm :
    commonLength left right = commonLength right left := by
  induction left generalizing right with
  | nil => simp
  | cons x left inductionHypothesis =>
      cases right with
      | nil => simp
      | cons y right =>
          by_cases same : x = y
          · subst same
            rw [commonLength_cons_self, commonLength_cons_self,
              inductionHypothesis]
          · rw [commonLength_cons_of_ne same,
              commonLength_cons_of_ne fun equal => same equal.symm]

/-- The characters behind the common prefix decide the order. -/
theorem lt_iff_charAt (noNul : 0 ∉ right) :
    left < right ↔
      charAt left (commonLength left right) <
        charAt right (commonLength left right) := by
  induction left generalizing right with
  | nil =>
      cases right with
      | nil => simp
      | cons y right =>
          simp only [commonLength_nil, charAt_nil, charAt_zero]
          exact iff_of_true (List.nil_lt_cons y right)
            ((BitVec.pos_iff_ne_zero y).mpr
              (List.ne_of_not_mem_cons noNul).symm)
  | cons x left inductionHypothesis =>
      cases right with
      | nil => simp
      | cons y right =>
          by_cases same : x = y
          · subst same
            rw [commonLength_cons_self, charAt_succ, charAt_succ,
              ← inductionHypothesis (List.not_mem_of_not_mem_cons noNul),
              List.cons_lt_cons_iff, or_iff_right (BitVec.lt_irrefl x),
              and_iff_right rfl]
          · rw [commonLength_cons_of_ne same, charAt_zero, charAt_zero,
              List.cons_lt_cons_iff]
            exact or_iff_left fun both => same both.1

/-- Strings are equal if their characters behind the common prefix are. -/
theorem eq_iff_charAt (noNul : 0 ∉ left) (noNul' : 0 ∉ right) :
    left = right ↔
      charAt left (commonLength left right) =
        charAt right (commonLength left right) := by
  induction left generalizing right with
  | nil =>
      cases right with
      | nil => simp
      | cons y right =>
          simp only [commonLength_nil, charAt_nil, charAt_zero]
          exact iff_of_false (List.cons_ne_nil _ _).symm
            (List.ne_of_not_mem_cons noNul')
  | cons x left inductionHypothesis =>
      cases right with
      | nil =>
          simp only [commonLength_nil_right, charAt_nil, charAt_zero]
          exact iff_of_false (List.cons_ne_nil _ _)
            (List.ne_of_not_mem_cons noNul).symm
      | cons y right =>
          by_cases same : x = y
          · subst same
            rw [commonLength_cons_self, charAt_succ, charAt_succ,
              ← inductionHypothesis (List.not_mem_of_not_mem_cons noNul)
                (List.not_mem_of_not_mem_cons noNul')]
            exact List.cons_inj_right x
          · rw [commonLength_cons_of_ne same, charAt_zero, charAt_zero]
            exact iff_of_false (fun equal => same (List.cons.inj equal).1) same

theorem charAt_take (inside : k < n) :
    charAt (left.take n) k = charAt left k := by
  rw [charAt, charAt, List.getD_eq_getElem?_getD, List.getD_eq_getElem?_getD,
    List.getElem?_take_of_lt inside]

theorem charAt_of_length_le (beyond : left.length ≤ k) : charAt left k = 0 := by
  rw [charAt, List.getD_eq_getElem?_getD, List.getElem?_eq_none beyond]
  rfl

theorem charAt_ne_nul (noNul : 0 ∉ left) (inside : k < left.length) :
    charAt left k ≠ 0 := by
  rw [charAt, List.getD_eq_getElem?_getD, List.getElem?_eq_getElem inside]
  exact fun zero => noNul (zero ▸ List.getElem_mem inside)

theorem charAt_take_self : charAt (left.take n) n = 0 :=
  charAt_of_length_le (List.length_take_le n left)

/-- Cutting both strings cuts their common prefix. -/
theorem commonLength_take :
    commonLength (left.take n) (right.take n) =
      min n (commonLength left right) := by
  induction n generalizing left right with
  | zero => simp
  | succ n inductionHypothesis =>
      cases left with
      | nil => simp
      | cons x left =>
          cases right with
          | nil => simp
          | cons y right =>
              rw [List.take_succ_cons, List.take_succ_cons]
              by_cases same : x = y
              · subst same
                rw [commonLength_cons_self, commonLength_cons_self,
                  inductionHypothesis, Nat.add_min_add_right]
              · rw [commonLength_cons_of_ne same, commonLength_cons_of_ne same,
                  Nat.min_zero]

/-- Up to the end of the common prefix the strings are the same, without
NUL. -/
theorem goesOn_charAt (noNul : 0 ∉ left) :
    GoesOn (charAt left) (charAt right) 0 (commonLength left right) := by
  intro j _ below
  induction left generalizing right j with
  | nil =>
      rw [commonLength_nil] at below
      omega
  | cons x left inductionHypothesis =>
      cases right with
      | nil =>
          rw [commonLength_nil_right] at below
          omega
      | cons y right =>
          by_cases same : x = y
          · subst same
            rw [commonLength_cons_self] at below
            cases j with
            | zero => exact ⟨(List.ne_of_not_mem_cons noNul).symm, rfl⟩
            | succ j =>
                exact inductionHypothesis (List.not_mem_of_not_mem_cons noNul) j
                  (Nat.zero_le j) (Nat.lt_of_succ_lt_succ below)
          · rw [commonLength_cons_of_ne same] at below
            omega

/-- There they stop. -/
theorem stops_charAt (noNul : 0 ∉ left) (noNul' : 0 ∉ right) :
    Stops (charAt left) (charAt right) (commonLength left right) := by
  by_cases same : left = right
  · subst same
    refine Or.inl ?_
    induction left with
    | nil => rfl
    | cons x left inductionHypothesis =>
        rw [commonLength_cons_self, charAt_succ]
        have noNul := List.not_mem_of_not_mem_cons noNul
        exact inductionHypothesis noNul noNul
  · exact Or.inr (mt (eq_iff_charAt noNul noNul').mpr same)

/-- The difference of two characters, taken as signed, has the sign of their
difference as unsigned ones exactly if they are on the same side of 0x80. -/
theorem signed_iff :
    ((x.toInt - y.toInt < 0 ↔ x < y) ∧ (0 < x.toInt - y.toInt ↔ y < x)) ↔
      x.msb = y.msb := by
  have xBound := x.isLt
  have yBound := y.isLt
  have xInt := BitVec.toInt_eq_toNat_cond x
  have yInt := BitVec.toInt_eq_toNat_cond y
  have xMsb : x.msb = decide (128 ≤ x.toNat) := BitVec.msb_eq_decide x
  have yMsb : y.msb = decide (128 ≤ y.toNat) := BitVec.msb_eq_decide y
  rw [xMsb, yMsb, decide_eq_decide, BitVec.lt_def, BitVec.lt_def]
  omega

/-- A difference of the characters behind the common prefix orders the strings
exactly if these are on the same side. -/
theorem orders_iff (noNul : 0 ∉ left) (noNul' : 0 ∉ right) :
    Orders ((charAt left (commonLength left right)).toInt -
        (charAt right (commonLength left right)).toInt) left right ↔
      SameSide left right := by
  have zero : (charAt left (commonLength left right)).toInt -
      (charAt right (commonLength left right)).toInt = 0 ↔ left = right := by
    rw [eq_iff_charAt noNul noNul', Int.sub_eq_zero, BitVec.toInt_inj]
  have before := @lt_iff_charAt left right noNul'
  have after := @lt_iff_charAt right left noNul
  rw [commonLength_comm] at after
  rw [SameSide, ← signed_iff, ← before, ← after]
  exact ⟨fun orders => ⟨orders.before, orders.after⟩,
    fun both => ⟨both.1, zero, both.2⟩⟩

end Order

/-! ## Both functions -/

/-- `str` gives the first `count` characters of the string. Nothing is known of
the others. -/
def Shows {Error : Type u} (str : Nat → Except Error (BitVec 8)) (text : Text)
    (count : Nat) : Prop :=
  ∀ k, k < count → str k = .ok (charAt text.chars k)

section Texts

variable {left right : Text} {str1 str2 : Nat → Except Error (BitVec 8)}
  {n fuel : Nat}

theorem strcmp_eq (exhausted : Error)
    (shows1 : Shows str1 left (commonLength left.chars right.chars + 1))
    (shows2 : Shows str2 right (commonLength left.chars right.chars + 1))
    (enough : commonLength left.chars right.chars < fuel) :
    strcmp exhausted str1 str2 fuel =
      .ok ((charAt left.chars (commonLength left.chars right.chars)).toInt -
        (charAt right.chars (commonLength left.chars right.chars)).toInt) :=
  strcmpFrom_eq exhausted (Nat.zero_le _) (goesOn_charAt left.noNul)
    (stops_charAt left.noNul right.noNul)
    (fun k _ upper => shows1 k (Nat.lt_succ_of_le upper))
    (fun k _ upper => shows2 k (Nat.lt_succ_of_le upper)) (by omega)

theorem take_noNul (text : Text) (n : Nat) : 0 ∉ text.chars.take n :=
  fun member => text.noNul (List.mem_of_mem_take member)

/-- `strncmp` compares what is left of the strings after `n` characters. -/
theorem strncmp_eq
    (shows1 : Shows str1 left
      (min n (commonLength left.chars right.chars + 1)))
    (shows2 : Shows str2 right
      (min n (commonLength left.chars right.chars + 1))) :
    strncmp str1 str2 n =
      .ok ((charAt (left.chars.take n) (commonLength (left.chars.take n)
          (right.chars.take n))).toInt -
        (charAt (right.chars.take n) (commonLength (left.chars.take n)
          (right.chars.take n))).toInt) := by
  cases n with
  | zero => rfl
  | succ n =>
      have goesOn := @goesOn_charAt left.chars right.chars left.noNul
      rw [strncmp, commonLength_take]
      by_cases inside : commonLength left.chars right.chars ≤ n
      · rw [Nat.min_eq_right (Nat.le_succ_of_le inside),
          charAt_take (Nat.lt_succ_of_le inside),
          charAt_take (Nat.lt_succ_of_le inside)]
        exact strncmpFrom_eq (Nat.zero_le _) (by omega) goesOn
          (Or.inr (stops_charAt left.noNul right.noNul))
          (fun k _ upper => shows1 k (by omega))
          (fun k _ upper => shows2 k (by omega))
      · -- All characters were the same, and the last ones are subtracted.
        have same := (goesOn n (Nat.zero_le n) (by omega)).2
        rw [Nat.min_eq_left (Nat.lt_of_not_le inside), charAt_take_self,
          charAt_take_self, strncmpFrom_eq (Nat.zero_le n) (by omega)
            (fun j lower upper => goesOn j lower (by omega))
            (Or.inl (Nat.zero_add n).symm)
            (fun k _ upper => shows1 k (by omega))
            (fun k _ upper => shows2 k (by omega)), same, Int.sub_self]
        rfl

end Texts

/-- `strcmp` and `strncmp` read no further than the first NUL, the first
difference and `n` characters, and return the order of the strings exactly if
the characters behind the common prefix are on the same side of 0x80. -/
theorem compare_orders_iff (exhausted : Error) (a b : Text) (n : Nat) :
    (∀ str1 str2 : Nat → Except Error (BitVec 8),
      Shows str1 a (commonLength a.chars b.chars + 1) →
      Shows str2 b (commonLength a.chars b.chars + 1) →
      ∃ result,
        (∀ fuel, commonLength a.chars b.chars < fuel →
          strcmp exhausted str1 str2 fuel = .ok result) ∧
        (Orders result a.chars b.chars ↔ SameSide a.chars b.chars)) ∧
    ∀ str1 str2 : Nat → Except Error (BitVec 8),
      Shows str1 a (min n (commonLength a.chars b.chars + 1)) →
      Shows str2 b (min n (commonLength a.chars b.chars + 1)) →
      ∃ result, strncmp str1 str2 n = .ok result ∧
        (Orders result (a.chars.take n) (b.chars.take n) ↔
          SameSide (a.chars.take n) (b.chars.take n)) := by
  refine ⟨?_, ?_⟩
  · intro str1 str2 shows1 shows2
    exact ⟨_, fun _ enough => strcmp_eq exhausted shows1 shows2 enough,
      orders_iff a.noNul b.noNul⟩
  · intro str1 str2 shows1 shows2
    exact ⟨_, strncmp_eq shows1 shows2,
      orders_iff (take_noNul a n) (take_noNul b n)⟩

/-- A character from 0x80 on comes before a letter. -/
theorem compare_highByte :
    strcmp () (fun k => .ok (charAt [0x80] k)) (fun k => .ok (charAt [0x61] k))
        1 = .ok (-225) ∧
      strncmp (fun k => Except.ok (charAt [0x80] k))
        (fun k => (Except.ok (charAt [0x61] k) : Except Unit _)) 1 =
          .ok (-225) ∧
      ([0x61] : List (BitVec 8)) < [0x80] := by
  decide

end BeaverOS.CString

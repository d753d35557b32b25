import BeaverOS.Lib.Loop
import BeaverOS.Io.Scanner

/-!
# Widths and precisions

The numbers that a directive gives for its width and its precision, and what
the parser of `printf.c` keeps of them: sixteen bits.
-/

namespace BeaverOS.Io

open BeaverOS.Loop
open BeaverOS.Numeral

/-! ## The numbers of a directive -/

/-- The width of a directive, and its precision if it has one. -/
structure Measures where
  width : Int
  precision : Option Int

/-- The precision: one, if none is given. -/
def Measures.precisionOrOne (measures : Measures) : Int :=
  measures.precision.getD 1

/-- The number that a string of digits stands for. -/
def decimalValue (digits : List Byte) : Nat :=
  value 10 (digits.map fun digit => digit.toNat - 48)

section Numbers

variable {arch : Arch}

/-- The integer that comes next among the arguments. -/
def nextInteger : List (Argument arch) → Int
  | .int value :: _ => value.toInt
  | .longInt value :: _ => value.toInt
  | .longLongInt value :: _ => value.toInt
  | _ => 0

/-- A number as it is written in the format, or as it is passed for a star. -/
def givenNumber (format : List Byte) (vlist : List (Argument arch)) : Int :=
  if format.head? = some (byte '*') then nextInteger vlist
  else decimalValue (format.takeWhile isDigit)

/-- The arguments behind a number. -/
def behindNumber (format : List Byte) (vlist : List (Argument arch)) :
    List (Argument arch) :=
  if format.head? = some (byte '*') then vlist.tail else vlist

/-- The number behind a dot. -/
def givenPrecision (format : List Byte) (vlist : List (Argument arch)) :
    Option Int :=
  if format.head? = some (byte '.') then some (givenNumber format.tail vlist)
  else none

/-- The width and the precision of the directive behind a percent sign. Those of
`%p` are zero and all digits of a pointer. -/
def measuresOf (rest : List Byte) (vlist : List (Argument arch)) : Measures :=
  if (fromSpecifier rest).head? = some (byte 'p') then
    { width := 0, precision := some (2 * arch.sizeofPointer) }
  else
    { width := givenNumber (afterFlags rest) vlist
      precision := givenPrecision (afterNumber (afterFlags rest))
        (behindNumber (afterFlags rest) vlist) }

end Numbers

/-! ## What the parser keeps of them -/

/-- A number in a `uint16_t`. -/
def kept (number : Int) : Int := number % 2 ^ 16

/-- The specifier has sixteen bits of the numbers. -/
structure Stored (measures : Measures) (spec : FormatSpecifier) : Prop where
  width : spec.width = BitVec.ofInt 16 measures.width
  given : spec.has FLAG_PRECISION_SPECIFIED = measures.precision.isSome
  precision : spec.precision = BitVec.ofInt 16 (measures.precision.getD 0)

theorem toNat_ofInt_kept (number : Int) :
    ((BitVec.ofInt 16 number).toNat : Int) = kept number := by
  rw [BitVec.toNat_ofInt, kept]
  exact Int.toNat_of_nonneg (Int.emod_nonneg _ (by decide))

theorem kept_bounds (number : Int) : 0 ≤ kept number ∧ kept number < 65536 :=
  ⟨Int.emod_nonneg _ (by decide), Int.emod_lt_of_pos _ (by decide)⟩

theorem kept_of_lt {number : Int} (positive : 0 ≤ number)
    (small : number < 65536) : kept number = number :=
  Int.emod_eq_of_lt positive small

section Parsing

variable {arch : Arch} {format rest : List Byte}
  {vlist remaining : List (Argument arch)} {spec : FormatSpecifier}
  {number : BitVec 16} {head : Byte} {pointer : Pointer}

theorem digit_value (head : Byte) (digit : isDigit head = true) :
    (head - byte '0').setWidth 16 = BitVec.ofNat 16 (head.toNat - 48) := by
  have zero : (byte '0').toNat = 48 := rfl
  have bound := head.isLt
  have lower : 48 ≤ head.toNat := by
    rw [isDigit, Bool.and_eq_true, decide_eq_true_eq] at digit
    exact digit.1
  apply BitVec.eq_of_toNat_eq
  rw [BitVec.toNat_setWidth, BitVec.toNat_sub, BitVec.toNat_ofNat, zero]
  omega

/-- `atoi` counts modulo `2 ^ 16`. -/
theorem atoiLoop_fst (rest : List Byte) (total : Nat) :
    (atoiLoop rest (BitVec.ofNat 16 total)).1 =
      BitVec.ofNat 16
        (((rest.takeWhile isDigit).map fun digit => digit.toNat - 48).foldl
          (fun total digit => total * 10 + digit) total) := by
  induction rest generalizing total with
  | nil => rfl
  | cons head rest inductionHypothesis =>
      rw [atoiLoop, List.takeWhile_cons]
      cases digit : isDigit head with
      | false => rfl
      | true =>
          have shifted : BitVec.ofNat 16 total * 10 +
              (head - byte '0').setWidth 16 =
                BitVec.ofNat 16 (total * 10 + (head.toNat - 48)) := by
            rw [digit_value head digit, BitVec.ofNat_add, BitVec.ofNat_mul]
            rfl
          rw [if_pos rfl, shifted, inductionHypothesis]
          rfl

theorem vaInt_ok {argument : BitVec 32 × List (Argument arch)}
    (read : vaInt vlist = .ok argument) :
    nextInteger vlist = argument.1.toInt ∧ argument.2 = vlist.tail := by
  cases vlist with
  | nil => cases read
  | cons first vlist =>
      cases first <;> cases read
      exact ⟨rfl, rfl⟩

/-- The parser keeps sixteen bits of a number. -/
theorem parseNumber_given
    (read : parseNumber (.inside format) vlist =
      .ok (number, pointer, remaining)) :
    number = BitVec.ofInt 16 (givenNumber format vlist) ∧
      pointer = .inside (afterNumber format) ∧
      remaining = behindNumber format vlist := by
  have place : pointer = .inside (afterNumber format) := by
    rcases parseNumber_leaves format vlist with bad | ⟨_, _, good⟩
    · rw [bad] at read
      cases read
    · cases read.symm.trans good
      rfl
  rw [givenNumber, behindNumber, place]
  cases format with
  | nil =>
      cases read
      exact ⟨rfl, rfl, rfl⟩
  | cons head rest =>
      by_cases star : head = byte '*'
      · rw [star] at read ⊢
        obtain ⟨argument, isRead, done⟩ := ok_of_bind
          (show (vaInt vlist >>= fun argument =>
            Except.ok (argument.1.setWidth 16, Pointer.inside rest,
              argument.2)) = _ from read)
        obtain ⟨next, behind⟩ := vaInt_ok isRead
        cases done
        refine ⟨?_, rfl, behind⟩
        rw [List.head?_cons, if_pos rfl, next]
        exact (BitVec.signExtend_eq_setWidth_of_le _ (by decide)).symm
      · have noStar : (head :: rest).head? ≠ some (byte '*') :=
          fun same => star (Option.some.inj same)
        rw [parseNumber_of_ne star] at read
        cases read
        rw [if_neg noStar, if_neg noStar]
        refine ⟨?_, rfl, rfl⟩
        rw [BitVec.ofInt_natCast]
        exact atoiLoop_fst (head :: rest) 0

/-- The parser keeps sixteen bits of a precision. -/
theorem parsePrecision_given {flag : BitVec 8}
    (read : parsePrecision (.inside format) vlist =
      .ok ((number, flag), pointer, remaining)) :
    number = BitVec.ofInt 16 ((givenPrecision format vlist).getD 0) ∧
      flag = (if (givenPrecision format vlist).isSome then
        FLAG_PRECISION_SPECIFIED else 0) ∧
      pointer = .inside (afterPrecision format) := by
  rw [givenPrecision]
  cases format with
  | nil =>
      cases read
      exact ⟨rfl, rfl, rfl⟩
  | cons head rest =>
      rw [afterPrecision]
      by_cases dot : head = byte '.'
      · rw [dot] at read ⊢
        obtain ⟨⟨digits, behind, vlist'⟩, isRead, done⟩ := ok_of_bind
          (show (parseNumber (.inside rest) vlist >>= fun number =>
            Except.ok ((number.1, FLAG_PRECISION_SPECIFIED), number.2)) = _
            from read)
        obtain ⟨isNumber, isPointer, -⟩ := parseNumber_given isRead
        cases done
        exact ⟨isNumber, rfl, isPointer⟩
      · have noDot : (head :: rest).head? ≠ some (byte '.') :=
          fun same => dot (Option.some.inj same)
        change (if head = byte '.' then _ else _) = _ at read
        rw [if_neg dot] at read
        cases read
        rw [if_neg noDot, if_neg dot]
        exact ⟨rfl, rfl, rfl⟩

theorem flagOf_and {flag : BitVec 8} (isFlag : flagOf head = some flag) :
    flag &&& FLAG_PRECISION_SPECIFIED = 0 := by
  rw [flagOf] at isFlag
  split_ifs at isFlag <;> cases isFlag <;> rfl

/-- None of the flags is the one for a precision. -/
theorem flagLoop_and (rest : List Byte) {flags : BitVec 8}
    (none : flags &&& FLAG_PRECISION_SPECIFIED = 0) :
    (flagLoop rest flags).1 &&& FLAG_PRECISION_SPECIFIED = 0 := by
  induction rest generalizing flags with
  | nil => exact none
  | cons head rest inductionHypothesis =>
      rw [flagLoop]
      cases isFlag : flagOf head with
      | none => exact none
      | some flag =>
          apply inductionHypothesis
          rw [BitVec.and_or_distrib_right, none, flagOf_and isFlag]
          rfl

theorem has_or_precision (flags : BitVec 8) :
    ((flags ||| FLAG_PRECISION_SPECIFIED) &&& FLAG_PRECISION_SPECIFIED != 0) =
      true := by
  rw [BitVec.and_or_distrib_right, bne_zero_or, Bool.or_eq_true]
  exact Or.inr (by decide)

theorem has_precision {flags : BitVec 8}
    (none : flags &&& FLAG_PRECISION_SPECIFIED = 0) (given : Bool) :
    ((flags ||| if given then FLAG_PRECISION_SPECIFIED else 0) &&&
      FLAG_PRECISION_SPECIFIED != 0) = given := by
  rw [BitVec.and_or_distrib_right, none]
  cases given <;> rfl

/-- What the parser returns has sixteen bits of the numbers that are given. -/
theorem parseFormatSpecifier_stored
    (parsed : parseFormatSpecifier (.inside (head :: rest)) vlist =
      .ok (spec, pointer, remaining)) :
    Stored (measuresOf rest vlist) spec := by
  have flagsLeft := flagLoop_snd rest 0
  have noFlag := @flagLoop_and rest 0 rfl
  obtain ⟨flags, flagsRead, parsed⟩ := ok_of_bind parsed
  cases flagsRead
  obtain ⟨⟨width, behind, vlist'⟩, widthRead, parsed⟩ := ok_of_bind parsed
  rw [flagsLeft] at widthRead
  obtain ⟨rfl, rfl, rfl⟩ := parseNumber_given widthRead
  obtain ⟨⟨⟨precision, flag⟩, behind', vlist''⟩, precisionRead, parsed⟩ :=
    ok_of_bind parsed
  obtain ⟨rfl, rfl, rfl⟩ := parsePrecision_given precisionRead
  obtain ⟨⟨length, behind''⟩, lengthRead, parsed⟩ := ok_of_bind parsed
  obtain ⟨specifier, specifierRead, parsed⟩ := ok_of_bind parsed
  obtain ⟨_, lengthRead'⟩ :=
    parseLength_inside (afterPrecision (afterNumber (afterFlags rest)))
  cases lengthRead.symm.trans lengthRead'
  have isP : (fromSpecifier rest).head? = some (byte 'p') ↔
      specifier = byte 'p' := by
    rw [← fromSpecifier] at specifierRead
    cases split : fromSpecifier rest with
    | nil =>
        rw [split] at specifierRead
        cases specifierRead
        exact iff_of_false (by decide) (by decide)
    | cons first next =>
        rw [split] at specifierRead
        cases specifierRead
        rw [List.head?_cons, Option.some.injEq]
  cases parsed
  rw [measuresOf]
  by_cases pointerDirective : specifier = byte 'p'
  · rw [if_pos (isP.mpr pointerDirective), pointerSpecifier,
      if_pos pointerDirective]
    refine ⟨rfl, has_or_precision _, ?_⟩
    cases arch <;> rfl
  · rw [if_neg (mt isP.mp pointerDirective), pointerSpecifier,
      if_neg pointerDirective]
    exact ⟨rfl, has_precision noFlag _, rfl⟩

end Parsing

end BeaverOS.Io

import BeaverOS.Io.Directives

/-!
# Rendered directives

Directives of all shapes, as they are written in a format string, and what
`parse_format_specifier` reads back from them.
-/

namespace BeaverOS.Io

open BeaverOS.Numeral

/-! ## The parts of a directive -/

/-- The characters of the flags. -/
inductive FlagLetter where
  | minus
  | plus
  | space
  | sharp
  | zero
  deriving DecidableEq, Repr

def FlagLetter.character : FlagLetter → Byte
  | .minus => byte '-'
  | .plus => byte '+'
  | .space => byte ' '
  | .sharp => byte '#'
  | .zero => byte '0'

def FlagLetter.flag : FlagLetter → BitVec 8
  | .minus => FLAG_MINUS
  | .plus => FLAG_PLUS
  | .space => FLAG_SPACE
  | .sharp => FLAG_SHARP
  | .zero => FLAG_ZERO

/-- A number in a directive: a string of digits, which may be empty, or a star
and its argument. -/
inductive Number where
  | decimal (digits : List Nat) (small : ∀ digit ∈ digits, digit < 10)
      (bounded : value 10 digits < 2 ^ 16)
  | star (argument : BitVec 16)

namespace Number

def text : Number → List Byte
  | decimal digits _ _ => digitText false digits
  | star _ => [byte '*']

def value : Number → Nat
  | decimal digits _ _ => Numeral.value 10 digits
  | star argument => argument.toNat

/-- The argument of a star is an `int`. -/
def arguments (arch : Arch) : Number → List (Argument arch)
  | decimal _ _ _ => []
  | star argument => [.int (argument.setWidth 32)]

/-- A number that does not begin with the digit zero. -/
def Leading : Number → Prop
  | decimal digits _ _ => digits.head? ≠ some 0
  | star _ => True

end Number

/-- The length modifiers. -/
inductive LengthModifier where
  | none
  | hh
  | h
  | l
  | ll
  | j
  | z
  | t
  deriving DecidableEq, Repr

def LengthModifier.text : LengthModifier → List Byte
  | .none => []
  | .hh => [byte 'h', byte 'h']
  | .h => [byte 'h']
  | .l => [byte 'l']
  | .ll => [byte 'l', byte 'l']
  | .j => [byte 'j']
  | .z => [byte 'z']
  | .t => [byte 't']

/-- The class of lengths that a modifier stands for. -/
def LengthModifier.length : LengthModifier → Length
  | .none => .none
  | .hh => .hh
  | .h => .h
  | .l => .l
  | .ll => .ll
  | .j => .ll
  | .z => .l
  | .t => .l

/-- The specifiers, but for `p`. -/
inductive SpecifierLetter where
  | d
  | i
  | u
  | o
  | x
  | upperX
  | s
  | c
  | percent
  deriving DecidableEq, Repr

def SpecifierLetter.character : SpecifierLetter → Byte
  | .d => byte 'd'
  | .i => byte 'i'
  | .u => byte 'u'
  | .o => byte 'o'
  | .x => byte 'x'
  | .upperX => byte 'X'
  | .s => byte 's'
  | .c => byte 'c'
  | .percent => byte '%'

/-- `%[flags][width][.precision][length]specifier`. A width without digits is
none, and a precision without digits is a dot alone. -/
structure Rendering where
  flags : List FlagLetter
  width : Number
  leading : width.Leading
  precision : Option Number
  modifier : LengthModifier
  specifier : SpecifierLetter

namespace Rendering

/-- The dot and the precision. -/
def precisionText (rendering : Rendering) : List Byte :=
  rendering.precision.elim [] fun number => byte '.' :: number.text

/-- The length modifier, the specifier, and what follows. -/
def tail (rendering : Rendering) (rest : List Byte) : List Byte :=
  rendering.modifier.text ++ rendering.specifier.character :: rest

/-- The directive, followed by `rest`. -/
def format (rendering : Rendering) (rest : List Byte) : List Byte :=
  byte '%' ::
    (rendering.flags.map FlagLetter.character ++
      (rendering.width.text ++
        (rendering.precisionText ++ rendering.tail rest)))

/-- The arguments of the stars, in order. -/
def arguments (arch : Arch) (rendering : Rendering) : List (Argument arch) :=
  rendering.width.arguments arch ++
    rendering.precision.elim [] (Number.arguments arch)

/-- The bit of a flag, if the flag occurs. -/
def flagIf (letter : FlagLetter) (flags : List FlagLetter) : BitVec 8 :=
  if letter ∈ flags then letter.flag else 0

/-- The bits of the flags that occur. -/
def flagSet (flags : List FlagLetter) : BitVec 8 :=
  flagIf .minus flags ||| flagIf .plus flags ||| flagIf .space flags |||
    flagIf .sharp flags ||| flagIf .zero flags

/-- What the directive says. -/
def spec (rendering : Rendering) : FormatSpecifier where
  flags := flagSet rendering.flags |||
    if rendering.precision.isSome then FLAG_PRECISION_SPECIFIED else 0
  specifier := rendering.specifier.character
  width := BitVec.ofNat 16 rendering.width.value
  precision := BitVec.ofNat 16 (rendering.precision.elim 0 Number.value)
  length := rendering.modifier.length

end Rendering

/-! ## Reading the parts -/

section Reading

variable {arch : Arch} {rest : List Byte} {vlist : List (Argument arch)}
  {number : Number} {rendering : Rendering}

theorem flagOf_character (letter : FlagLetter) :
    flagOf letter.character = some letter.flag := by
  cases letter <;> decide

open Rendering in
theorem flagIf_cons (letter first : FlagLetter) (flags : List FlagLetter) :
    flagIf letter (first :: flags) =
      (if letter = first then first.flag else 0) ||| flagIf letter flags := by
  simp only [flagIf, List.mem_cons]
  by_cases same : letter = first
  · rw [if_pos (Or.inl same), if_pos same, same]
    split
    · exact (BitVec.or_self).symm
    · exact (BitVec.or_zero).symm
  · rw [if_neg same]
    simp only [same, false_or]
    exact (BitVec.zero_or).symm

open Rendering in
/-- One more flag. -/
theorem flagSet_cons (first : FlagLetter) (flags : List FlagLetter) :
    flagSet (first :: flags) = first.flag ||| flagSet flags := by
  have clear : ∀ flag : BitVec 8, (0 : BitVec 8) ||| flag = flag :=
    fun flag => BitVec.zero_or
  simp only [flagSet, flagIf_cons]
  cases first <;>
    simp only [reduceCtorEq, if_false, if_true, clear] <;> ac_rfl

open Rendering in
/-- The loop over the flags reads all of them. -/
theorem flagLoop_map (ends : ∀ head ∈ rest.head?, flagOf head = none)
    (flags : List FlagLetter) :
    flagLoop (flags.map FlagLetter.character ++ rest) 0 =
      (flagSet flags, rest) := by
  have fold : ∀ total : BitVec 8,
      (flags.map FlagLetter.character).foldl
          (fun total flag => total ||| (flagOf flag).getD 0) total =
        total ||| flagSet flags := by
    induction flags with
    | nil => exact fun total => BitVec.or_zero.symm
    | cons first flags inductionHypothesis =>
        intro total
        rw [List.map_cons, List.foldl_cons, inductionHypothesis,
          flagOf_character, flagSet_cons, ← BitVec.or_assoc]
        rfl
  rw [flagLoop_append ?_ ends, fold]
  · exact congrArg (fun flags => (flags, rest)) BitVec.zero_or
  · intro flag member
    obtain ⟨letter, -, rfl⟩ := List.mem_map.mp member
    rw [flagOf_character]
    rfl

/-- A number is read up to the first other character. -/
theorem parseNumber_text (number : Number)
    (noDigit : ∀ head ∈ rest.head?, isDigit head = false)
    (noStar : ∀ head ∈ rest.head?, head ≠ byte '*') :
    parseNumber (.inside (number.text ++ rest))
        (number.arguments arch ++ vlist) =
      .ok (BitVec.ofNat 16 number.value, .inside rest, vlist) := by
  cases number with
  | decimal digits small bounded =>
      have read := atoiLoop_append small noDigit 0
      have start : ∀ head ∈ (digitText false digits ++ rest).head?,
          head ≠ byte '*' := by
        cases digits with
        | nil => exact noStar
        | cons digit digits =>
            intro head isHead
            cases isHead
            have table : ∀ digit < 10,
                (digitTable false).getD digit 0 ≠ byte '*' := by decide
            exact table digit (small digit List.mem_cons_self)
      rw [Number.text, Number.arguments, List.nil_append]
      cases text : digitText false digits ++ rest with
      | nil =>
          rw [text] at read
          have result := congrArg (fun result : BitVec 16 × List Byte =>
            (Except.ok (result.1, Pointer.inside result.2, vlist) :
              Except Fault _)) read
          exact result
      | cons head others =>
          rw [text] at read start
          rw [parseNumber_of_ne (start head rfl)]
          exact congrArg (fun result : BitVec 16 × List Byte =>
            Except.ok (result.1, Pointer.inside result.2, vlist)) read
  | star argument =>
      have narrowed : (argument.setWidth 32).setWidth 16 = argument :=
        BitVec.setWidth_setWidth_of_le _ (by decide) |>.trans
          (BitVec.setWidth_eq _)
      change Except.ok ((argument.setWidth 32).setWidth 16, Pointer.inside rest,
        vlist) = _
      rw [narrowed, Number.value, BitVec.ofNat_toNat, BitVec.setWidth_eq]

theorem stops_character (letter : SpecifierLetter) :
    Stops letter.character := by
  cases letter <;>
    exact ⟨by decide, by decide, by decide, by decide⟩

/-- Neither a flag nor a number goes on into the tail. -/
theorem tail_stops (rendering : Rendering) (rest : List Byte) :
    ∃ head others, rendering.tail rest = head :: others ∧ Stops head := by
  rw [Rendering.tail]
  cases rendering.modifier with
  | none => exact ⟨_, rest, rfl, stops_character rendering.specifier⟩
  | hh => exact ⟨_, _, rfl, by decide, by decide, by decide, by decide⟩
  | h => exact ⟨_, _, rfl, by decide, by decide, by decide, by decide⟩
  | l => exact ⟨_, _, rfl, by decide, by decide, by decide, by decide⟩
  | ll => exact ⟨_, _, rfl, by decide, by decide, by decide, by decide⟩
  | j => exact ⟨_, _, rfl, by decide, by decide, by decide, by decide⟩
  | z => exact ⟨_, _, rfl, by decide, by decide, by decide, by decide⟩
  | t => exact ⟨_, _, rfl, by decide, by decide, by decide, by decide⟩

/-- A length modifier is read with the letter that it doubles. -/
theorem parseLength_tail (rendering : Rendering) (rest : List Byte) :
    parseLength (.inside (rendering.tail rest)) =
      .ok (rendering.modifier.length,
        .inside (rendering.specifier.character :: rest)) := by
  rw [Rendering.tail]
  cases rendering.modifier <;> cases rendering.specifier <;> rfl

/-- A precision is there, or none. -/
theorem parsePrecision_text (rendering : Rendering) (rest : List Byte) :
    parsePrecision
        (.inside (rendering.precisionText ++ rendering.tail rest))
        ((rendering.precision.elim [] (Number.arguments arch)) ++ vlist) =
      .ok ((rendering.spec.precision,
          if rendering.precision.isSome then FLAG_PRECISION_SPECIFIED else 0),
        .inside (rendering.tail rest), vlist) := by
  obtain ⟨head, others, isTail, stops⟩ := tail_stops rendering rest
  rw [Rendering.precisionText, Rendering.spec]
  cases rendering.precision with
  | none =>
      change parsePrecision (.inside (rendering.tail rest)) vlist = _
      rw [isTail]
      change (if head = byte '.' then _ else _) = _
      rw [if_neg stops.notDot]
      rfl
  | some number =>
      have read : parseNumber (.inside (number.text ++ rendering.tail rest))
          (number.arguments arch ++ vlist) = .ok (BitVec.ofNat 16 number.value,
            .inside (rendering.tail rest), vlist) := by
        apply parseNumber_text
        · intro first isFirst
          rw [isTail] at isFirst
          cases isFirst
          exact stops.notDigit
        · intro first isFirst
          rw [isTail] at isFirst
          cases isFirst
          exact stops.notStar
      change (do
        let number ← parseNumber (.inside (number.text ++ rendering.tail rest))
          (number.arguments arch ++ vlist)
        return ((number.1, FLAG_PRECISION_SPECIFIED), number.2)) = _
      rw [read]
      rfl

/-- What follows the width begins with neither a flag nor a digit nor a
star. -/
theorem afterWidth_stops (rendering : Rendering) (rest : List Byte) :
    ∃ head others,
      rendering.precisionText ++ rendering.tail rest = head :: others ∧
        flagOf head = none ∧ isDigit head = false ∧ head ≠ byte '*' := by
  rw [Rendering.precisionText]
  cases rendering.precision with
  | none =>
      obtain ⟨head, others, isTail, stops⟩ := tail_stops rendering rest
      exact ⟨head, others, isTail, stops.notFlag, stops.notDigit,
        stops.notStar⟩
  | some number =>
      exact ⟨byte '.', _, rfl, by decide, by decide, by decide⟩

/-- What follows the flags does not begin with a flag. -/
theorem afterFlags_ends (rendering : Rendering) (rest : List Byte) :
    ∀ head ∈ (rendering.width.text ++
      (rendering.precisionText ++ rendering.tail rest)).head?,
      flagOf head = none := by
  obtain ⟨first, others, isRest, notFlag, -⟩ := afterWidth_stops rendering rest
  intro head isHead
  have leading := rendering.leading
  cases width : rendering.width with
  | star argument =>
      rw [width] at isHead
      cases isHead
      decide
  | decimal digits small bounded =>
      rw [width] at isHead leading
      cases digits with
      | nil =>
          change head ∈ (rendering.precisionText ++ rendering.tail rest).head?
            at isHead
          rw [isRest] at isHead
          cases isHead
          exact notFlag
      | cons digit digits =>
          cases isHead
          have nonzero : digit ≠ 0 := fun isZero =>
            leading (congrArg some isZero)
          exact (head_digit (small digit List.mem_cons_self) nonzero).1

theorem parseFormatSpecifier_format_append (rendering : Rendering)
    (rest : List Byte) (vlist : List (Argument arch)) :
    parseFormatSpecifier (.inside (rendering.format rest))
        (rendering.arguments arch ++ vlist) =
      .ok (rendering.spec, .inside rest, vlist) := by
  have flags : parseFlags (.inside (rendering.format rest)) =
      .ok (Rendering.flagSet rendering.flags, .inside (rendering.width.text ++
        (rendering.precisionText ++ rendering.tail rest))) := by
    have loop := flagLoop_map (afterFlags_ends rendering rest) rendering.flags
    change Except.ok _ = _
    rw [loop]
  have width : parseNumber (.inside (rendering.width.text ++
        (rendering.precisionText ++ rendering.tail rest)))
      (rendering.arguments arch ++ vlist) =
        .ok (rendering.spec.width,
          .inside (rendering.precisionText ++ rendering.tail rest),
          rendering.precision.elim [] (Number.arguments arch) ++ vlist) := by
    obtain ⟨first, others, isRest, -, notDigit, notStar⟩ :=
      afterWidth_stops rendering rest
    rw [Rendering.arguments, List.append_assoc]
    apply parseNumber_text
    · intro head isHead
      rw [isRest] at isHead
      cases isHead
      exact notDigit
    · intro head isHead
      rw [isRest] at isHead
      cases isHead
      exact notStar
  have notPointer : rendering.specifier.character ≠ byte 'p' := by
    cases rendering.specifier <;> decide
  simp only [parseFormatSpecifier, flags, width, parsePrecision_text,
    parseLength_tail, bind, Except.bind, pure, Except.pure, Pointer.deref,
    Pointer.next, pointerSpecifier, if_neg notPointer]
  rfl

end Reading

theorem Number.value_lt (number : Number) : number.value < 2 ^ 16 := by
  cases number with
  | decimal digits small bounded => exact bounded
  | star argument => exact argument.isLt

/-- The parser reads every rendered directive back, with the numbers that it
gives, and stops behind it and its arguments. -/
theorem parseFormatSpecifier_rendering (arch : Arch) (rendering : Rendering)
    (rest : List Byte) (vlist : List (Argument arch)) :
    parseFormatSpecifier (.inside (rendering.format rest))
        (rendering.arguments arch ++ vlist) =
      .ok (rendering.spec, .inside rest, vlist) ∧
    rendering.spec.width.toNat = rendering.width.value ∧
    rendering.spec.precision.toNat =
      rendering.precision.elim 0 Number.value := by
  refine ⟨parseFormatSpecifier_format_append rendering rest vlist, ?_, ?_⟩
  · exact Nat.mod_eq_of_lt rendering.width.value_lt
  · refine Nat.mod_eq_of_lt ?_
    cases rendering.precision with
    | none => exact Nat.two_pow_pos 16
    | some number => exact number.value_lt

end BeaverOS.Io

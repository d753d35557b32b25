import BeaverOS.Io.Integers

/-!
# The directives for integers

What `vdprintf` prints for a directive that consists of flags, a width, a length
modifier and an integer conversion.
-/

namespace BeaverOS.Io

open BeaverOS.Numeral

/-! ## Directives -/

/-- The conversions of integers. -/
inductive Conversion where
  | d
  | i
  | u
  | o
  | x
  | upperX
  deriving DecidableEq, Repr

namespace Conversion

def character : Conversion → Byte
  | d => byte 'd'
  | i => byte 'i'
  | u => byte 'u'
  | o => byte 'o'
  | x => byte 'x'
  | upperX => byte 'X'

def signed : Conversion → Bool
  | d => true
  | i => true
  | _ => false

def base : Conversion → Nat
  | o => 8
  | x => 16
  | upperX => 16
  | _ => 10

def uppercase : Conversion → Bool
  | upperX => true
  | _ => false

/-- The prefix of the alternate form. -/
def pref : Conversion → List Byte
  | o => [byte '0']
  | x => [byte '0', byte 'x']
  | upperX => [byte '0', byte 'X']
  | _ => []

end Conversion

/-- The letters of a length modifier. -/
def Length.text : Length → List Byte
  | .none => []
  | .hh => [byte 'h', byte 'h']
  | .h => [byte 'h']
  | .l => [byte 'l']
  | .ll => [byte 'l', byte 'l']

/-- The bits of the type that a length modifier selects. -/
def Length.bits (arch : Arch) : Length → Nat
  | .none => 32
  | .hh => 8
  | .h => 16
  | .l => arch.longBits
  | .ll => 64

/-- The type of the values that a directive prints. -/
def valueType (arch : Arch) (length : Length) (conversion : Conversion) :
    CType where
  signed := conversion.signed
  bits := length.bits arch

/-- The argument for a value. -/
def argumentOf (arch : Arch) (length : Length) (value : Int) : Argument arch :=
  match length with
  | .none => .int (BitVec.ofInt 32 value)
  | .hh => .int (BitVec.ofInt 32 value)
  | .h => .int (BitVec.ofInt 32 value)
  | .l => .longInt (BitVec.ofInt arch.longBits value)
  | .ll => .longLongInt (BitVec.ofInt 64 value)

/-- A directive for an integer. Its width is given in the string, or as an
argument when it is starred. -/
structure Directive where
  flags : List Byte
  width : Nat
  starred : Bool
  length : Length
  conversion : Conversion

/-- The text of the width. -/
def Directive.widthText (directive : Directive) : List Byte :=
  if directive.starred then [byte '*']
  else digitText false (numeral 10 directive.width)

/-- The end of a directive. -/
def tailText (length : Length) (conversion : Conversion) : List Byte :=
  length.text ++ [conversion.character]

/-- The directive as it stands in a format string. -/
def Directive.format (directive : Directive) : List Byte :=
  byte '%' ::
    (directive.flags ++
      (directive.widthText ++ tailText directive.length directive.conversion))

/-- The arguments for a directive and a value. -/
def Directive.arguments (arch : Arch) (directive : Directive) (value : Int) :
    List (Argument arch) :=
  (if directive.starred then [.int (BitVec.ofNat 32 directive.width)] else []) ++
    [argumentOf arch directive.length value]

/-- The flags that a list of characters sets. -/
def flagsOf (flags : List Byte) : BitVec 8 :=
  flags.foldl (fun total flag => total ||| (flagOf flag).getD 0) 0

/-- The specifier that the parser makes of a directive. -/
def Directive.specifier (directive : Directive) : FormatSpecifier where
  flags := flagsOf directive.flags
  specifier := directive.conversion.character
  width := BitVec.ofNat 16 directive.width
  precision := 0
  length := directive.length

theorem bne_zero_or (first second : BitVec 8) :
    (first ||| second != 0) = (first != 0 || second != 0) := by
  rw [Bool.eq_iff_iff, Bool.or_eq_true, bne_iff_ne, bne_iff_ne, bne_iff_ne,
    Ne, show (first ||| second = 0) ↔ first = 0 ∧ second = 0 from
      BitVec.or_eq_zero_iff, not_and_or]

/-- A flag is set if one of the characters sets it. -/
theorem Directive.has_specifier (directive : Directive) (bit : BitVec 8) :
    directive.specifier.has bit =
      directive.flags.any fun flag => (flagOf flag).getD 0 &&& bit != 0 := by
  have fold : ∀ (flags : List Byte) (total : BitVec 8),
      (flags.foldl (fun total flag => total ||| (flagOf flag).getD 0) total &&&
          bit != 0) =
        (total &&& bit != 0 ||
          flags.any fun flag => (flagOf flag).getD 0 &&& bit != 0) := by
    intro flags
    induction flags with
    | nil => exact fun total => (Bool.or_false _).symm
    | cons flag flags inductionHypothesis =>
        intro total
        rw [List.foldl_cons, inductionHypothesis,
          BitVec.and_or_distrib_right, bne_zero_or, List.any_cons,
          Bool.or_assoc]
  have cleared : ((0 : BitVec 8) &&& bit != 0) = false := by
    rw [show (0 : BitVec 8) &&& bit = 0 from BitVec.zero_and]
    rfl
  have all := fold directive.flags 0
  rw [cleared, Bool.false_or] at all
  exact all

/-! ## The parser on directives -/

section Parsing

variable {arch : Arch} {directive : Directive} {flags rest : List Byte}
  {vlist : List (Argument arch)}

/-- A character that ends the flags, the width and the precision. -/
structure Stops (head : Byte) : Prop where
  notFlag : flagOf head = none
  notDigit : isDigit head = false
  notStar : head ≠ byte '*'
  notDot : head ≠ byte '.'

theorem stops_tailText (length : Length) (conversion : Conversion) :
    ∃ head rest, tailText length conversion = head :: rest ∧ Stops head := by
  cases length <;> cases conversion <;>
    exact ⟨_, _, rfl, by decide, by decide, by decide, by decide⟩

theorem flagLoop_append (allFlags : ∀ flag ∈ flags, (flagOf flag).isSome)
    (ends : ∀ head ∈ rest.head?, flagOf head = none) (total : BitVec 8) :
    flagLoop (flags ++ rest) total =
      (flags.foldl (fun total flag => total ||| (flagOf flag).getD 0) total,
        rest) := by
  induction flags generalizing total with
  | nil =>
      cases rest with
      | nil => rfl
      | cons head rest =>
          rw [List.nil_append, flagLoop, ends head rfl]
          rfl
  | cons flag flags inductionHypothesis =>
      obtain ⟨bit, isFlag⟩ := Option.isSome_iff_exists.mp
        (allFlags flag List.mem_cons_self)
      have others := inductionHypothesis
        (fun other member => allFlags other (List.mem_cons_of_mem _ member))
        (total ||| bit)
      rw [List.cons_append, flagLoop, List.foldl_cons, isFlag]
      exact others

/-- Digits are read up to the first other character. -/
theorem atoiLoop_append {digits : List Nat}
    (small : ∀ digit ∈ digits, digit < 10)
    (ends : ∀ head ∈ rest.head?, isDigit head = false) (total : Nat) :
    atoiLoop (digitText false digits ++ rest) (BitVec.ofNat 16 total) =
      (BitVec.ofNat 16
        (digits.foldl (fun total digit => total * 10 + digit) total), rest) := by
  induction digits generalizing total with
  | nil =>
      cases rest with
      | nil => rfl
      | cons head rest =>
          change atoiLoop (head :: rest) _ = _
          rw [atoiLoop, ends head rfl]
          rfl
  | cons digit digits inductionHypothesis =>
      have table : ∀ digit < 10,
          isDigit ((digitTable false).getD digit 0) = true ∧
            ((digitTable false).getD digit 0 - byte '0').setWidth 16 =
              BitVec.ofNat 16 digit := by decide
      obtain ⟨isDigit, subtracted⟩ := table digit (small digit List.mem_cons_self)
      have others := inductionHypothesis
        (fun other member => small other (List.mem_cons_of_mem _ member))
        (total * 10 + digit)
      have shifted : BitVec.ofNat 16 total * 10 + BitVec.ofNat 16 digit =
          BitVec.ofNat 16 (total * 10 + digit) := by
        rw [BitVec.ofNat_add, BitVec.ofNat_mul]
        rfl
      change atoiLoop ((digitTable false).getD digit 0 ::
        (digitText false digits ++ rest)) _ = _
      rw [atoiLoop, isDigit, if_pos rfl, subtracted, shifted, others]
      rfl

/-- The first digit of a width is no flag, as it is not zero. -/
theorem head_digit {digit : Nat} (small : digit < 10) (nonzero : digit ≠ 0) :
    flagOf ((digitTable false).getD digit 0) = none ∧
      (digitTable false).getD digit 0 ≠ byte '*' := by
  have table : ∀ digit < 10, digit ≠ 0 →
      flagOf ((digitTable false).getD digit 0) = none ∧
        (digitTable false).getD digit 0 ≠ byte '*' := by decide
  exact table digit small nonzero

/-- The width is empty, or it begins with a star or a digit. -/
theorem widthText_cases (directive : Directive) :
    directive.starred = true ∧ directive.widthText = [byte '*'] ∨
      directive.starred = false ∧
        (directive.width = 0 ∧ directive.widthText = [] ∨
          ∃ head rest, directive.widthText = head :: rest ∧
            flagOf head = none ∧ head ≠ byte '*') := by
  rw [Directive.widthText]
  by_cases starred : directive.starred = true
  · exact .inl ⟨starred, if_pos starred⟩
  · rw [if_neg starred]
    refine .inr ⟨Bool.eq_false_iff.mpr starred, ?_⟩
    cases digits : numeral 10 directive.width with
    | nil => exact .inl ⟨numeral_eq_nil_iff.mp digits, rfl⟩
    | cons digit others =>
        have member : digit ∈ numeral 10 directive.width := by
          rw [digits]
          exact List.mem_cons_self
        have nonzero : digit ≠ 0 := by
          intro isZero
          apply head?_numeral_ne 10 directive.width
          rw [digits, isZero]
          rfl
        exact .inr ⟨_, _, rfl,
          head_digit (lt_of_mem_numeral (by decide) member) nonzero⟩

theorem parseFlags_format (allFlags : ∀ flag ∈ directive.flags,
      (flagOf flag).isSome) :
    parseFlags (.inside directive.format) =
      .ok (flagsOf directive.flags,
        .inside (directive.widthText ++
          tailText directive.length directive.conversion)) := by
  obtain ⟨head, rest, isTail, stops⟩ :=
    stops_tailText directive.length directive.conversion
  have ends : ∀ head ∈ (directive.widthText ++
      tailText directive.length directive.conversion).head?,
      flagOf head = none := by
    intro first isFirst
    rcases widthText_cases directive with
      ⟨-, isWidth⟩ | ⟨-, ⟨-, isWidth⟩ | ⟨digit, others, isWidth, notFlag, -⟩⟩
    · rw [isWidth] at isFirst
      cases isFirst
      decide
    · rw [isWidth, isTail] at isFirst
      cases isFirst
      exact stops.notFlag
    · rw [isWidth] at isFirst
      cases isFirst
      exact notFlag
  have loop := flagLoop_append allFlags ends 0
  change Except.ok _ = _
  rw [loop]
  rfl

/-- The arguments of a directive, without a value. -/
def widthArguments (arch : Arch) (directive : Directive) :
    List (Argument arch) :=
  if directive.starred then [.int (BitVec.ofNat 32 directive.width)] else []

theorem parseNumber_of_ne {head : Byte} (notStar : head ≠ byte '*') :
    parseNumber (.inside (head :: rest)) vlist =
      .ok ((atoiLoop (head :: rest) 0).1,
        .inside (atoiLoop (head :: rest) 0).2, vlist) := by
  change (if head = byte '*' then _ else _) = _
  rw [if_neg notStar]
  rfl

theorem parseNumber_width (directive : Directive)
    (vlist : List (Argument arch)) :
    parseNumber
        (.inside (directive.widthText ++
          tailText directive.length directive.conversion))
        (widthArguments arch directive ++ vlist) =
      .ok (BitVec.ofNat 16 directive.width,
        .inside (tailText directive.length directive.conversion), vlist) := by
  obtain ⟨head, rest, isTail, stops⟩ :=
    stops_tailText directive.length directive.conversion
  rw [isTail]
  rcases widthText_cases directive with
    ⟨starred, isWidth⟩ | ⟨notStarred, plain⟩
  · have narrowed : (BitVec.ofNat 32 directive.width).setWidth 16 =
        BitVec.ofNat 16 directive.width :=
      BitVec.setWidth_ofNat_of_le (by decide) _
    rw [widthArguments, if_pos starred, isWidth, ← narrowed]
    rfl
  · have ends : ∀ first ∈ (head :: rest).head?, isDigit first = false := by
      intro first isFirst
      cases isFirst
      exact stops.notDigit
    have small : ∀ digit ∈ numeral 10 directive.width, digit < 10 :=
      fun digit member => lt_of_mem_numeral (by decide) member
    have number := atoiLoop_append small ends 0
    have total : (numeral 10 directive.width).foldl
        (fun total digit => total * 10 + digit) 0 = directive.width :=
      value_numeral (by decide) directive.width
    rw [total] at number
    have isText : directive.widthText =
        digitText false (numeral 10 directive.width) := by
      rw [Directive.widthText, if_neg (by rw [notStarred]; decide)]
    rw [← isText] at number
    rw [widthArguments, if_neg (by rw [notStarred]; decide), List.nil_append]
    rcases plain with ⟨-, empty⟩ | ⟨digit, others, isDigits, -, notStar⟩
    · rw [empty, List.nil_append] at number ⊢
      rw [parseNumber_of_ne stops.notStar]
      exact congrArg (fun result : BitVec 16 × List Byte =>
        Except.ok (result.1, Pointer.inside result.2, vlist)) number
    · rw [isDigits, List.cons_append] at number ⊢
      rw [parseNumber_of_ne notStar]
      exact congrArg (fun result : BitVec 16 × List Byte =>
        Except.ok (result.1, Pointer.inside result.2, vlist)) number

theorem parsePrecision_tailText (length : Length) (conversion : Conversion) :
    parsePrecision (.inside (tailText length conversion)) vlist =
      .ok ((0, 0), .inside (tailText length conversion), vlist) := by
  obtain ⟨head, rest, isTail, stops⟩ := stops_tailText length conversion
  rw [isTail]
  change (if head = byte '.' then _ else _) = _
  rw [if_neg stops.notDot]
  rfl

theorem parseLength_tailText (length : Length) (conversion : Conversion) :
    parseLength (.inside (tailText length conversion)) =
      .ok (length, .inside [conversion.character]) := by
  cases length <;> cases conversion <;> rfl

theorem parseFormatSpecifier_format (directive : Directive)
    (allFlags : ∀ flag ∈ directive.flags, (flagOf flag).isSome)
    (vlist : List (Argument arch)) :
    parseFormatSpecifier (.inside directive.format)
        (widthArguments arch directive ++ vlist) =
      .ok (directive.specifier, .inside [], vlist) := by
  have notPointer : directive.conversion.character ≠ byte 'p' := by
    cases directive.conversion <;> decide
  simp only [parseFormatSpecifier, parseFlags_format allFlags,
    parseNumber_width, parsePrecision_tailText, parseLength_tailText,
    bind, Except.bind, pure, Except.pure, Pointer.deref, Pointer.next,
    pointerSpecifier, if_neg notPointer]
  have kept : flagsOf directive.flags ||| (0 : BitVec 8) =
      flagsOf directive.flags := BitVec.or_zero
  rw [kept]
  rfl

end Parsing

/-! ## The text of a directive -/

section Printing

variable {arch : Arch} {ocdev : Ocdev} {directive : Directive} {value : Int}
  {spec : FormatSpecifier} {length : Length} {conversion : Conversion}

/-- The printers that a conversion uses. -/
def Conversion.printer (conversion : Conversion) :
    Nat → Ocdev → FormatSpecifier → Int → Except Fault Printed :=
  match conversion with
  | .d => printS
  | .i => printS
  | .u => printU
  | .o => printO
  | .x => printH
  | .upperX => printUpperH

theorem printDirective_eq (isConversion :
      spec.specifier = conversion.character) (vlist : List (Argument arch)) :
    printDirective ocdev spec vlist =
      genSubroutine conversion.printer ocdev spec vlist := by
  rw [printDirective]
  cases conversion <;> (rw [isConversion]; rfl)

theorem printer_eq (bits : Nat) (value : Int) :
    conversion.printer bits ocdev spec value =
      integerPrinter { signed := conversion.signed, bits := bits }
        conversion.base conversion.pref conversion.uppercase conversion.signed
        ocdev spec
        (CType.wrap { signed := conversion.signed, bits := bits } value) := by
  cases conversion <;> rfl

theorem bits_pos (arch : Arch) (length : Length) : 0 < length.bits arch := by
  cases arch <;> cases length <;> decide

theorem bits_le (arch : Arch) (length : Length) : length.bits arch ≤ 64 := by
  cases arch <;> cases length <;> decide

theorem genSubroutine_argumentOf (arch : Arch) (ocdev : Ocdev) (value : Int)
    (printer : Nat → Ocdev → FormatSpecifier → Int → Except Fault Printed)
    (isLength : spec.length = length) (vlist : List (Argument arch)) :
    ∃ wide, length.bits arch ≤ wide ∧
      genSubroutine printer ocdev spec (argumentOf arch length value :: vlist) =
        (printer (length.bits arch) ocdev spec
          (BitVec.ofInt wide value).toInt).map fun printed =>
            (printed, vlist) := by
  rw [genSubroutine, isLength]
  cases length with
  | none => exact ⟨32, le_rfl, rfl⟩
  | hh => exact ⟨32, show 8 ≤ 32 by decide, rfl⟩
  | h => exact ⟨32, show 16 ≤ 32 by decide, rfl⟩
  | l => exact ⟨arch.longBits, le_rfl, rfl⟩
  | ll => exact ⟨64, le_rfl, rfl⟩

theorem base_ge (conversion : Conversion) : 8 ≤ conversion.base := by
  cases conversion <;> decide

theorem printedNumber_lt (inRange :
      (valueType arch length conversion).InRange value) :
    printedNumber (valueType arch length conversion) conversion.signed value <
      2 ^ 64 := by
  have positive := bits_pos arch length
  have narrow : (2 : Int) ^ length.bits arch ≤ 2 ^ 64 :=
    pow_le_pow_right₀ (by decide) (bits_le arch length)
  rw [printedNumber]
  split
  · exact (wrap_lt _).trans_le narrow
  · have kept := wrap_eq_self positive inRange
    rw [← kept]
    exact (wrap_lt _).trans_le narrow

/-- The fields that a directive prints for a value. -/
def Directive.printed (arch : Arch) (ocdev : Ocdev) (directive : Directive)
    (value : Int) : Printed :=
  let conversion := directive.conversion
  printFields ocdev directive.specifier
    (signCharacter conversion.signed directive.specifier value) conversion.pref
    (digitText conversion.uppercase
      (numeral conversion.base
        (printedNumber (valueType arch directive.length conversion)
          conversion.signed value).toNat))

theorem printDirective_specifier (ocdev : Ocdev) (inRange :
      (valueType arch directive.length directive.conversion).InRange value)
    (vlist : List (Argument arch)) :
    printDirective ocdev directive.specifier
        (argumentOf arch directive.length value :: vlist) =
      .ok (directive.printed arch ocdev value, vlist) := by
  obtain ⟨wide, narrow, called⟩ := genSubroutine_argumentOf arch ocdev value
    directive.conversion.printer
    (show directive.specifier.length = directive.length from rfl) vlist
  have converted : CType.wrap (valueType arch directive.length
      directive.conversion) (BitVec.ofInt wide value).toInt = value :=
    wrap_toInt_ofInt narrow (bits_pos arch directive.length) inRange
  have isConversion : directive.specifier.specifier =
      directive.conversion.character := rfl
  rw [printDirective_eq isConversion, called, printer_eq]
  change Except.map _ (integerPrinter (valueType arch directive.length
    directive.conversion) _ _ _ _ _ _ (CType.wrap (valueType arch
    directive.length directive.conversion) _)) = _
  rw [converted, integerPrinter_eq (base_ge directive.conversion)
    (printedNumber_lt inRange)]
  rfl

theorem digitText_shown (uppercase : Bool) (base number : Nat) :
    List.replicate (1 - (digitText uppercase (numeral base number)).length)
        (byte '0') ++ digitText uppercase (numeral base number) =
      digitText uppercase (shown base number) := by
  have zero : (digitTable uppercase).getD 0 0 = byte '0' := by
    cases uppercase <;> rfl
  rw [← replicate_append_numeral, digitText_append, digitText, digitText,
    List.map_replicate, zero, List.length_map]

theorem length_digitText_shown (uppercase : Bool) (base number : Nat) :
    (digitText uppercase (shown base number)).length =
      max 1 (digitText uppercase (numeral base number)).length := by
  rw [← digitText_shown, List.length_append, List.length_replicate]
  omega

/-- The sign that a directive prints. -/
def Directive.sign (directive : Directive) (number : Int) : List Byte :=
  (signCharacter directive.conversion.signed directive.specifier number).toList

/-- The prefix that a directive prints. -/
def Directive.prefixText (directive : Directive) : List Byte :=
  if directive.specifier.has FLAG_SHARP then directive.conversion.pref else []

/-- The digits that a directive prints, of a natural number. -/
def Directive.digits (directive : Directive) (number : Nat) : List Byte :=
  digitText directive.conversion.uppercase
    (shown directive.conversion.base number)

/-- No character of the flags stands for a precision. -/
theorem Directive.noPrecision (directive : Directive) :
    directive.specifier.has FLAG_PRECISION_SPECIFIED = false := by
  rw [directive.has_specifier, List.any_eq_false]
  intro flag _
  rw [flagOf]
  repeat' split
  all_goals decide

/-- A directive that is not aligned to the left. -/
theorem Directive.text_printed
    (right : directive.specifier.has FLAG_MINUS = false) :
    (directive.printed arch ocdev value).text =
      List.replicate
          (directive.width % 2 ^ 16 -
            ((directive.sign value).length + directive.prefixText.length +
              (directive.digits (printedNumber (valueType arch directive.length
                directive.conversion) directive.conversion.signed
                  value).toNat).length))
          (if directive.specifier.has FLAG_ZERO then byte '0' else byte ' ') ++
        (directive.sign value ++ (directive.prefixText ++
          directive.digits (printedNumber (valueType arch directive.length
            directive.conversion) directive.conversion.signed value).toNat)) := by
  have width : directive.specifier.width.toNat = directive.width % 2 ^ 16 :=
    BitVec.toNat_ofNat _ _
  have prefixLength : directive.prefixText.length =
      if directive.specifier.has FLAG_SHARP then directive.conversion.pref.length
      else 0 := by
    rw [Directive.prefixText]
    split <;> rfl
  rw [Directive.printed, text_printFields right directive.noPrecision, width,
    Directive.digits, length_digitText_shown, prefixLength, ← digitText_shown]
  simp only [List.append_assoc, Nat.add_assoc, Nat.add_comm (max 1 _)]
  rfl

/-- A directive alone in a format string. -/
theorem vdprintf_format (ocdev : Ocdev) (directive : Directive)
    (allFlags : ∀ flag ∈ directive.flags,
      (flagOf flag).isSome)
    (inRange :
      (valueType arch directive.length directive.conversion).InRange value)
    {fuel : Nat} (enough : 2 ≤ fuel) :
    vdprintf ocdev fuel directive.format (directive.arguments arch value) =
      .ok (nothing ++ directive.printed arch ocdev value) := by
  obtain ⟨fuel, rfl⟩ := Nat.exists_eq_add_of_le' enough
  have parsed := parseFormatSpecifier_format directive allFlags
    [argumentOf arch directive.length value]
  have written := printDirective_specifier ocdev inRange []
  rw [vdprintf, vdprintfLoop]
  change (do
    let spec ← parseFormatSpecifier (.inside directive.format)
      (widthArguments arch directive ++ [argumentOf arch directive.length value])
    let printed ← printDirective ocdev spec.1 spec.2.2
    vdprintfLoop ocdev (fuel + 1) spec.2.1 printed.2 (nothing ++ printed.1)) = _
  rw [parsed]
  change (do
    let printed ← printDirective ocdev directive.specifier
      [argumentOf arch directive.length value]
    vdprintfLoop ocdev (fuel + 1) (.inside []) printed.2
      (nothing ++ printed.1)) = _
  rw [written]
  rfl

end Printing

/-! ## The number that is printed -/

/-- The least value of a type, if the type is signed. -/
def IsMinimum (arch : Arch) (length : Length) (conversion : Conversion)
    (value : Int) : Prop :=
  conversion.signed = true ∧ value = -2 ^ (length.bits arch - 1)

section Magnitude

variable {arch : Arch} {number : Int} {length : Length}
  {conversion : Conversion}

theorem inRange_signed (signed : conversion.signed = true) :
    (valueType arch length conversion).InRange number ↔
      -2 ^ (length.bits arch - 1) ≤ number ∧
        number < 2 ^ (length.bits arch - 1) := by
  have isSigned : (valueType arch length conversion).signed = true := signed
  rw [CType.InRange, if_pos isSigned]
  rfl

theorem nonneg_of_unsigned (unsigned : ¬conversion.signed = true)
    (inRange : (valueType arch length conversion).InRange number) :
    0 ≤ number := by
  have isUnsigned : ¬(valueType arch length conversion).signed = true :=
    unsigned
  rw [CType.InRange, if_neg isUnsigned] at inRange
  exact inRange.1

/-- The number that is printed, but for the least value. -/
theorem printedNumber_toNat
    (inRange : (valueType arch length conversion).InRange number)
    (notMinimum : ¬IsMinimum arch length conversion number) :
    (printedNumber (valueType arch length conversion) conversion.signed
      number).toNat = number.natAbs := by
  rw [printedNumber]
  by_cases negated : (conversion.signed && decide (number < 0)) = true
  · rw [if_pos negated]
    rw [Bool.and_eq_true, decide_eq_true_eq] at negated
    obtain ⟨signed, negative⟩ := negated
    rw [inRange_signed signed] at inRange
    have above : number ≠ -2 ^ (length.bits arch - 1) := fun isMinimum =>
      notMinimum ⟨signed, isMinimum⟩
    have negation : (valueType arch length conversion).InRange (-number) := by
      rw [inRange_signed signed]
      omega
    rw [wrap_eq_self (bits_pos arch length) negation]
    omega
  · rw [if_neg negated]
    have nonnegative : 0 ≤ number := by
      rw [Bool.and_eq_true, decide_eq_true_eq] at negated
      by_cases signed : conversion.signed = true
      · exact not_lt.mp fun negative => negated ⟨signed, negative⟩
      · exact nonneg_of_unsigned signed inRange
    omega

/-- The negation of the least value is negative, and no digit of it is
printed. -/
theorem printedNumber_minimum
    (isMinimum : IsMinimum arch length conversion number) :
    (printedNumber (valueType arch length conversion) conversion.signed
      number).toNat = 0 := by
  obtain ⟨signed, rfl⟩ := isMinimum
  have half : (0 : Int) < 2 ^ (length.bits arch - 1) := by positivity
  have negated : (conversion.signed &&
      decide (-2 ^ (length.bits arch - 1) < (0 : Int))) = true := by
    rw [Bool.and_eq_true, decide_eq_true_eq]
    exact ⟨signed, by omega⟩
  have wrapped : (valueType arch length conversion).wrap
      (-(-2 ^ (length.bits arch - 1))) = -2 ^ (length.bits arch - 1) :=
    wrap_neg_minimum signed (bits_pos arch length)
  rw [printedNumber, if_pos negated, wrapped]
  omega

end Magnitude

end BeaverOS.Io

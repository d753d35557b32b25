import BeaverOS.Lib.Loop
import BeaverOS.Io.Measures
import BeaverOS.Io.ReadBack

/-!
# Lengths

How many characters `vdprintf` sends for a directive, and that it returns the
number of all of them. The count is kept in an `int`, so that only outputs of
less than `2 ^ 31` characters are counted right. What a directive is to send is
measured by the width and the precision that it gives, not by what the parser
keeps of them.
-/

namespace BeaverOS.Io

open BeaverOS.Numeral
open BeaverOS.Loop

/-! ## Counted output -/

/-- A device that forwards and counts the characters up to the NUL or the
limit. It returns an `int`. -/
structure Forwards (ocdev : Ocdev) : Prop where
  puts : ∀ text : List Byte, text.length < 2 ^ 31 →
    ocdev.puts text = text.length
  putns : ∀ (text : List Byte) (limit : Nat),
    min limit text.length < 2 ^ 31 →
      ocdev.putns text limit = (min limit text.length : Nat)

/-- What was sent is counted, while the count fits. -/
def Printed.Counted (printed : Printed) : Prop :=
  printed.text.length < 2 ^ 31 → printed.ret = printed.text.length

section Counting

variable {ocdev : Ocdev} {spec : FormatSpecifier} {signC : Option Byte}
  {pref written : List Byte} {first second : Printed}

@[simp]
theorem ret_append (first second : Printed) :
    (first ++ second).ret = first.ret + second.ret :=
  rfl

theorem Printed.Counted.append (counted : first.Counted)
    (counted' : second.Counted) : (first ++ second).Counted := by
  intro bound
  rw [text_append, List.length_append] at bound
  have left := counted (by omega)
  have right := counted' (by omega)
  rw [ret_append, text_append, List.length_append, left, right]
  exact (Int.natCast_add _ _).symm

theorem counted_nothing : nothing.Counted := fun _ => rfl

theorem counted_putc (character : Byte) : (putc character).Counted :=
  fun _ => rfl

theorem counted_putcLoop (character : Byte) (start stop : Nat) :
    (putcLoop character start stop).Counted := by
  intro _
  rw [putcLoop, List.length_replicate]

theorem counted_printFields (forwards : Forwards ocdev) :
    (printFields ocdev spec signC pref written).Counted := by
  have padding : ∀ (padded : Bool) (character : Byte) (start stop : Nat),
      (if padded = true then nothing
        else putcLoop character start stop).Counted := by
    intro padded character start stop
    cases padded with
    | true => exact counted_nothing
    | false => exact counted_putcLoop character start stop
  unfold printFields
  refine Printed.Counted.append (Printed.Counted.append
    (Printed.Counted.append (Printed.Counted.append
      (Printed.Counted.append (padding _ _ _ _) ?_) ?_)
      (counted_putcLoop _ _ _)) (forwards.puts written)) ?_
  · cases signC with
    | none => exact counted_nothing
    | some character => exact counted_putc character
  · intro _
    split
    · rw [List.take_length]
    · rw [List.take_zero]
      rfl
  · split
    · exact counted_putcLoop _ _ _
    · exact counted_nothing

end Counting

/-! ## The lengths of the directives -/

/-- The precision that the parser keeps: one, if none is given. -/
def FormatSpecifier.precisionOrOne (spec : FormatSpecifier) : Nat :=
  if spec.has FLAG_PRECISION_SPECIFIED then spec.precision.toNat else 1

/-- The characters before the digits: the sign and the prefix. -/
def leadLength (spec : FormatSpecifier) (conversion : Conversion)
    (value : Int) : Nat :=
  (if conversion.signed = true ∧ value < 0 ∨ spec.has FLAG_PLUS = true ∨
      spec.has FLAG_SPACE = true then 1 else 0) +
    if spec.has FLAG_SHARP then conversion.pref.length else 0

/-- The digits of a value. -/
def digitCount (conversion : Conversion) (value : Int) : Nat :=
  (numeral conversion.base value.natAbs).length

/-- The characters that a directive for an integer is to send. -/
def integerLength (measures : Measures) (spec : FormatSpecifier)
    (conversion : Conversion) (value : Int) : Int :=
  max measures.width
    (leadLength spec conversion value +
      max measures.precisionOrOne (digitCount conversion value))

/-- The characters of the string that `%s` is to send. -/
def charsToSend (measures : Measures) (text : List Byte) : Int :=
  match measures.precision with
  | some precision => min text.length precision
  | none => text.length

/-- The characters that `%s` is to send. -/
def stringLength (measures : Measures) (text : List Byte) : Int :=
  max measures.width (charsToSend measures text)

/-- The conversion of a specifier. -/
def conversionOf (specifier : Byte) : Option Conversion :=
  if specifier = byte 'd' then some .d
  else if specifier = byte 'i' then some .i
  else if specifier = byte 'u' then some .u
  else if specifier = byte 'o' then some .o
  else if specifier = byte 'x' then some .x
  else if specifier = byte 'X' then some .upperX
  else none

section Arguments

variable {arch : Arch}

/-- The string that comes next among the arguments. -/
def nextString : List (Argument arch) → List Byte
  | .string value :: _ => value
  | _ => []

/-- The integer, in the type that the directive prints. -/
def nextValue (spec : FormatSpecifier) (conversion : Conversion)
    (vlist : List (Argument arch)) : Int :=
  (valueType arch spec.length conversion).wrap (nextInteger vlist)

/-- The characters that a directive is to send. -/
def directiveLength (measures : Measures) (spec : FormatSpecifier)
    (vlist : List (Argument arch)) : Int :=
  match conversionOf spec.specifier with
  | some conversion =>
      integerLength measures spec conversion (nextValue spec conversion vlist)
  | none =>
      if spec.specifier = byte 's' then
        stringLength measures (nextString vlist)
      else if spec.specifier = byte 'c' ∨ spec.specifier = byte '%' then 1
      else 0

end Arguments

/-! ## When they are sent -/

/-- Sixteen bits of the width and the precision do for `digits` digits behind
`lead` characters: the precision has no more, and a wider or a negative number
makes no difference. -/
structure NumbersFit (measures : Measures) (lead digits : Nat) : Prop where
  precision : measures.precisionOrOne < 2 ^ 16
  wide :
    2 ^ 16 ≤ measures.width →
      measures.width ≤ lead + max (kept measures.precisionOrOne) digits
  negativeWidth :
    measures.width < 0 →
      kept measures.width ≤ lead + max measures.precisionOrOne digits
  negativePrecision :
    measures.precisionOrOne < 0 →
      lead + kept measures.precisionOrOne ≤ max measures.width (lead + digits)

/-- The numbers fit, and the digits of the least value of a type, which are not
printed, make no difference. -/
structure IntegerFits (arch : Arch) (measures : Measures)
    (spec : FormatSpecifier) (conversion : Conversion) (value : Int) :
    Prop where
  numbers :
    NumbersFit measures (leadLength spec conversion value)
      (digitCount conversion value)
  minimum :
    IsMinimum arch spec.length conversion value →
      leadLength spec conversion value + digitCount conversion value ≤
        max (kept measures.width)
          (leadLength spec conversion value + kept measures.precisionOrOne)

/-- The characters of a string that 32 bits of its length and 16 bits of the
precision leave. -/
def charsKept (measures : Measures) (text : List Byte) : Int :=
  match measures.precision with
  | some precision => min ((text.length : Int) % 2 ^ 32) (kept precision)
  | none => (text.length : Int) % 2 ^ 32

/-- The bits of the length that `uint32_t` loses make no difference, and neither
do those of the width and the precision that `uint16_t` loses. -/
structure StringFits (measures : Measures) (text : List Byte) : Prop where
  chars :
    charsToSend measures text ≤
      max (kept measures.width) (charsKept measures text)
  wide : 2 ^ 16 ≤ measures.width → measures.width ≤ charsKept measures text
  negativeWidth :
    measures.width < 0 → kept measures.width ≤ charsToSend measures text
  negativePrecision :
    ∀ precision, measures.precision = some precision → precision < 0 →
      charsKept measures text ≤ measures.width

/-- The directive can be printed in full. -/
def DirectiveFits {arch : Arch} (measures : Measures) (spec : FormatSpecifier)
    (vlist : List (Argument arch)) : Prop :=
  match conversionOf spec.specifier with
  | some conversion =>
      IntegerFits arch measures spec conversion
        (nextValue spec conversion vlist)
  | none =>
      spec.specifier = byte 's' → StringFits measures (nextString vlist)

section Numbers

variable {measures : Measures} {lead digits : Nat} {text : List Byte}

/-- The numbers fit exactly if sixteen bits of them give the same length. -/
theorem numbersFit_iff (short : digits < 2 ^ 16) :
    max (kept measures.width)
        (lead + max (kept measures.precisionOrOne) digits) =
        max measures.width (lead + max measures.precisionOrOne digits) ↔
      NumbersFit measures lead digits := by
  have widthBounds := kept_bounds measures.width
  have precisionBounds := kept_bounds measures.precisionOrOne
  have width := @kept_of_lt measures.width
  have precision := @kept_of_lt measures.precisionOrOne
  constructor
  · intro same
    refine ⟨?_, fun wide => ?_, fun negative => ?_, fun negative => ?_⟩
    · omega
    · omega
    · omega
    · omega
  · rintro ⟨small, wide, negativeWidth, negativePrecision⟩
    omega

/-- With a precision that is not negative, the bits that are left are no more
characters. -/
theorem charsKept_le
    (positive : ∀ precision, measures.precision = some precision →
      0 ≤ precision) :
    charsKept measures text ≤ charsToSend measures text ∧
      0 ≤ charsToSend measures text := by
  rw [charsKept, charsToSend]
  cases given : measures.precision with
  | none =>
      simp only
      omega
  | some precision =>
      have nonneg := positive precision given
      have bounds := kept_bounds precision
      have less : kept precision ≤ precision := by
        rw [kept]
        omega
      simp only
      omega

theorem charsKept_nonneg : 0 ≤ charsKept measures text := by
  rw [charsKept]
  cases measures.precision with
  | none =>
      simp only
      omega
  | some precision =>
      have bounds := kept_bounds precision
      simp only
      omega

/-- The string fits exactly if the bits that are left give the same length. -/
theorem stringFits_iff :
    max (kept measures.width) (charsKept measures text) =
        stringLength measures text ↔
      StringFits measures text := by
  have widthBounds := kept_bounds measures.width
  have width := @kept_of_lt measures.width
  have some_chars := @charsKept_nonneg measures text
  rw [stringLength]
  by_cases positive : ∀ precision, measures.precision = some precision →
      0 ≤ precision
  · have less := @charsKept_le measures text positive
    constructor
    · intro same
      refine ⟨?_, fun wide => ?_, fun negative => ?_,
        fun precision given negative => ?_⟩
      · omega
      · omega
      · omega
      · exact absurd (positive precision given) (by omega)
    · rintro ⟨chars, wide, negativeWidth, -⟩
      omega
  · -- a negative precision leaves no characters to send
    push Not at positive
    obtain ⟨precision, given, negative⟩ := positive
    have none : charsToSend measures text < 0 := by
      rw [charsToSend, given]
      simp only
      omega
    constructor
    · intro same
      refine ⟨?_, fun wide => ?_, fun negative => ?_, fun _ _ _ => ?_⟩
      · omega
      · omega
      · omega
      · omega
    · rintro ⟨chars, wide, negativeWidth, negativePrecision⟩
      have less := negativePrecision precision given negative
      omega

end Numbers

section Lengths

variable {arch : Arch} {ocdev : Ocdev} {spec : FormatSpecifier}
  {conversion : Conversion} {vlist remaining : List (Argument arch)}
  {printed : Printed} {measures : Measures}

theorem Stored.toNat_width (stored : Stored measures spec) :
    (spec.width.toNat : Int) = kept measures.width := by
  rw [stored.width]
  exact toNat_ofInt_kept measures.width

theorem Stored.precisionOrOne (stored : Stored measures spec) :
    (spec.precisionOrOne : Int) = kept measures.precisionOrOne := by
  rw [FormatSpecifier.precisionOrOne, Measures.precisionOrOne, stored.given,
    stored.precision]
  cases measures.precision with
  | none => rfl
  | some precision => exact toNat_ofInt_kept precision

theorem length_printFields (signC : Option Byte) (pref written : List Byte) :
    (printFields ocdev spec signC pref written).text.length =
      max spec.width.toNat
        (signC.toList.length +
          (if spec.has FLAG_SHARP then pref.length else 0) +
            max spec.precisionOrOne written.length) := by
  have taken : ∀ alternate : Bool,
      min (if alternate = true then pref.length else 0) pref.length =
        if alternate = true then pref.length else 0 := by
    intro alternate
    cases alternate with
    | true => exact Nat.min_self _
    | false => exact Nat.zero_min _
  rw [FormatSpecifier.precisionOrOne]
  cases minus : spec.has FLAG_MINUS <;> cases signC <;>
    simp only [printFields, minus, putcLoop, putc, nothing, text_append,
      List.length_append, List.length_replicate, List.length_take, taken,
      Bool.false_eq_true, if_true, if_false, Option.toList, List.length_nil,
      List.length_singleton] <;> omega

theorem length_signCharacter (spec : FormatSpecifier)
    (conversion : Conversion) (value : Int) :
    (signCharacter conversion.signed spec value).toList.length =
      if conversion.signed = true ∧ value < 0 ∨ spec.has FLAG_PLUS = true ∨
          spec.has FLAG_SPACE = true then 1 else 0 := by
  simp only [signCharacter, Bool.and_eq_true, decide_eq_true_eq]
  by_cases negative : conversion.signed = true ∧ value < 0
  · rw [if_pos negative, if_pos (Or.inl negative)]
    rfl
  by_cases plus : spec.has FLAG_PLUS = true
  · rw [if_neg negative, if_pos plus, if_pos (Or.inr (Or.inl plus))]
    rfl
  by_cases space : spec.has FLAG_SPACE = true
  · rw [if_neg negative, if_neg plus, if_pos space,
      if_pos (Or.inr (Or.inr space))]
    rfl
  · rw [if_neg negative, if_neg plus, if_neg space, if_neg]
    · rfl
    · rintro (isNegative | isPlus | isSpace)
      · exact negative isNegative
      · exact plus isPlus
      · exact space isSpace

/-- The fields that a conversion prints. -/
def conversionFields (arch : Arch) (ocdev : Ocdev) (spec : FormatSpecifier)
    (conversion : Conversion) (value : Int) : Printed :=
  printFields ocdev spec (signCharacter conversion.signed spec value)
    conversion.pref
    (digitText conversion.uppercase (numeral conversion.base
      (printedNumber (valueType arch spec.length conversion)
        conversion.signed value).toNat))

theorem length_conversionFields (value : Int) :
    (conversionFields arch ocdev spec conversion value).text.length =
      max spec.width.toNat
        (leadLength spec conversion value +
          max spec.precisionOrOne
            (numeral conversion.base
              (printedNumber (valueType arch spec.length conversion)
                conversion.signed value).toNat).length) := by
  rw [conversionFields, length_printFields, length_signCharacter, digitText,
    List.length_map, leadLength]

theorem wrap_inRange (arch : Arch) (length : Length) (conversion : Conversion)
    (value : Int) :
    (valueType arch length conversion).InRange
      ((valueType arch length conversion).wrap value) := by
  have positive := bits_pos arch length
  rw [CType.InRange, CType.wrap]
  split
  · exact ⟨BitVec.le_toInt _, BitVec.toInt_lt⟩
  · refine ⟨Int.natCast_nonneg _, ?_⟩
    exact_mod_cast (BitVec.ofInt _ value).isLt

theorem natAbs_le_of_inRange {type : CType} {value : Int}
    (narrow : type.bits ≤ 64) (inRange : type.InRange value) :
    value.natAbs ≤ 2 ^ 64 := by
  have powers : (2 : Int) ^ type.bits ≤ 2 ^ 64 :=
    pow_le_pow_right₀ (by decide) narrow
  have halves : (2 : Int) ^ (type.bits - 1) ≤ 2 ^ 64 :=
    pow_le_pow_right₀ (by decide) (by omega)
  rw [CType.InRange] at inRange
  split at inRange
  · omega
  · omega

theorem digitCount_lt {value : Int}
    (inRange : (valueType arch spec.length conversion).InRange value) :
    digitCount conversion value < 2 ^ 16 := by
  have large := base_ge conversion
  have narrow := bits_le arch spec.length
  have bound : value.natAbs < conversion.base ^ 24 :=
    calc
      value.natAbs ≤ 2 ^ 64 := natAbs_le_of_inRange narrow inRange
      _ < 8 ^ 24 := by norm_num
      _ ≤ conversion.base ^ 24 := Nat.pow_le_pow_left large 24
  have digits : digitCount conversion value ≤ 24 :=
    length_numeral_le (by omega) bound
  omega

/-- A directive for an integer sends what it is to send, if sixteen bits do for
its numbers and no digits of a least value are missing. -/
theorem length_conversionFields_iff {value : Int}
    (stored : Stored measures spec)
    (inRange : (valueType arch spec.length conversion).InRange value) :
    ((conversionFields arch ocdev spec conversion value).text.length : Int) =
        integerLength measures spec conversion value ↔
      IntegerFits arch measures spec conversion value := by
  have short := digitCount_lt inRange
  have numbers := @numbersFit_iff measures (leadLength spec conversion value)
    (digitCount conversion value) short
  rw [length_conversionFields, Nat.cast_max, Nat.cast_add, Nat.cast_max,
    stored.toNat_width, stored.precisionOrOne, integerLength]
  by_cases isMinimum : IsMinimum arch spec.length conversion value
  · rw [printedNumber_minimum isMinimum, numeral_zero, List.length_nil]
    have bounds := kept_bounds measures.precisionOrOne
    constructor
    · intro same
      have enough : leadLength spec conversion value +
          digitCount conversion value ≤ max (kept measures.width)
            (leadLength spec conversion value +
              kept measures.precisionOrOne) := by
        omega
      exact ⟨numbers.mp (by omega), fun _ => enough⟩
    · rintro ⟨fits, enough⟩
      have same := numbers.mpr fits
      have covered := enough isMinimum
      omega
  · rw [printedNumber_toNat inRange isMinimum]
    constructor
    · exact fun same =>
        ⟨numbers.mp same, fun minimum => absurd minimum isMinimum⟩
    · exact fun fits => numbers.mpr fits.numbers

theorem vaLongInt_ok {argument : BitVec arch.longBits × List (Argument arch)}
    (read : vaLongInt vlist = .ok argument) :
    nextInteger vlist = argument.1.toInt := by
  cases vlist with
  | nil => cases read
  | cons first vlist =>
      cases first <;> cases read
      rfl

theorem vaLongLongInt_ok {argument : BitVec 64 × List (Argument arch)}
    (read : vaLongLongInt vlist = .ok argument) :
    nextInteger vlist = argument.1.toInt := by
  cases vlist with
  | nil => cases read
  | cons first vlist =>
      cases first <;> cases read
      rfl

theorem vaString_ok {argument : List Byte × List (Argument arch)}
    (read : vaString vlist = .ok argument) :
    nextString vlist = argument.1 := by
  cases vlist with
  | nil => cases read
  | cons first vlist =>
      cases first <;> cases read
      rfl

theorem printer_fields (value : Int)
    (prints : conversion.printer (spec.length.bits arch) ocdev spec value =
      .ok printed) :
    printed = conversionFields arch ocdev spec conversion
      ((valueType arch spec.length conversion).wrap value) := by
  have inRange := wrap_inRange arch spec.length conversion value
  rw [printer_eq] at prints
  change integerPrinter (valueType arch spec.length conversion) _ _ _ _ _ _
    ((valueType arch spec.length conversion).wrap value) = _ at prints
  rw [integerPrinter_eq (base_ge conversion) (printedNumber_lt inRange)]
    at prints
  exact (Except.ok.inj prints).symm

/-- One case of the switch over the lengths. -/
theorem subroutine_fields {α : Type}
    {read : Except Fault (α × List (Argument arch))} {toInt : α → Int}
    {bits : Nat} (isBits : spec.length.bits arch = bits)
    (next : ∀ argument, read = .ok argument →
      nextInteger vlist = toInt argument.1)
    (called : (do
        let argument ← read
        let fields ← conversion.printer bits ocdev spec (toInt argument.1)
        return (fields, argument.2)) = .ok (printed, remaining)) :
    printed = conversionFields arch ocdev spec conversion
      (nextValue spec conversion vlist) := by
  obtain ⟨argument, isRead, called⟩ := ok_of_bind called
  obtain ⟨fields, prints, called⟩ := ok_of_bind called
  cases called
  rw [nextValue, next argument isRead]
  rw [← isBits] at prints
  exact printer_fields _ prints

/-- What the subroutine of a conversion prints. -/
theorem genSubroutine_fields
    (called : genSubroutine conversion.printer ocdev spec vlist =
      .ok (printed, remaining)) :
    printed = conversionFields arch ocdev spec conversion
      (nextValue spec conversion vlist) := by
  have bits : ∀ length, spec.length = length →
      spec.length.bits arch = length.bits arch := fun length same => by
    rw [same]
  rw [genSubroutine] at called
  cases length : spec.length with
  | none =>
      rw [length] at called
      exact subroutine_fields (bits _ length)
        (fun _ read => (vaInt_ok read).1) called
  | hh =>
      rw [length] at called
      exact subroutine_fields (bits _ length)
        (fun _ read => (vaInt_ok read).1) called
  | h =>
      rw [length] at called
      exact subroutine_fields (bits _ length)
        (fun _ read => (vaInt_ok read).1) called
  | l =>
      rw [length] at called
      exact subroutine_fields (bits _ length) (fun _ => vaLongInt_ok) called
  | ll =>
      rw [length] at called
      exact subroutine_fields (bits _ length) (fun _ => vaLongLongInt_ok) called

theorem genSubroutine_counts (forwards : Forwards ocdev)
    (stored : Stored measures spec)
    (called : genSubroutine conversion.printer ocdev spec vlist =
      .ok (printed, remaining)) :
    printed.Counted ∧
      ((printed.text.length : Int) =
          integerLength measures spec conversion
            (nextValue spec conversion vlist) ↔
        IntegerFits arch measures spec conversion
          (nextValue spec conversion vlist)) := by
  rw [genSubroutine_fields called]
  exact ⟨counted_printFields forwards, length_conversionFields_iff stored
    (wrap_inRange arch spec.length conversion _)⟩

/-- The characters of a string that `%s` prints. -/
def charsOf (spec : FormatSpecifier) (text : List Byte) : Nat :=
  if spec.has FLAG_PRECISION_SPECIFIED then
    min (text.length % 2 ^ 32) spec.precision.toNat
  else text.length % 2 ^ 32

theorem charsOf_le (spec : FormatSpecifier) (text : List Byte) :
    charsOf spec text ≤ text.length := by
  have less := Nat.mod_le text.length (2 ^ 32)
  rw [charsOf]
  split <;> omega

theorem Stored.charsOf (stored : Stored measures spec) (text : List Byte) :
    (charsOf spec text : Int) = charsKept measures text := by
  rw [BeaverOS.Io.charsOf, charsKept, stored.given, stored.precision]
  cases measures.precision with
  | none => rfl
  | some precision =>
      have keeps := toNat_ofInt_kept precision
      simp only [Option.isSome_some, if_true, Option.getD_some]
      omega

/-- The part of the string that `%s` prints. -/
def stringField (ocdev : Ocdev) (spec : FormatSpecifier) (text : List Byte) :
    Printed where
  text := text.take (charsOf spec text)
  ret := ocdev.putns text (charsOf spec text)

theorem length_stringField (text : List Byte) :
    (stringField ocdev spec text).text.length = charsOf spec text := by
  rw [stringField, List.length_take, Nat.min_eq_left (charsOf_le spec text)]

theorem counted_stringField (forwards : Forwards ocdev) (text : List Byte) :
    (stringField ocdev spec text).Counted := by
  intro bound
  have chars := Nat.min_eq_left (charsOf_le spec text)
  rw [length_stringField] at bound ⊢
  rw [stringField, forwards.putns text _ (by omega), chars]

theorem printfSubroutineS_counts (forwards : Forwards ocdev)
    (stored : Stored measures spec)
    (called : printfSubroutineS ocdev spec vlist = .ok (printed, remaining)) :
    printed.Counted ∧
      ((printed.text.length : Int) = stringLength measures (nextString vlist) ↔
        StringFits measures (nextString vlist)) := by
  obtain ⟨⟨text, vlist'⟩, read, called⟩ := ok_of_bind called
  rw [vaString_ok read]
  change _ ∧ (_ = stringLength measures text ↔ StringFits measures text)
  rw [← stringFits_iff, ← stored.charsOf, ← stored.toNat_width]
  have counted : (stringField ocdev spec text).Counted :=
    counted_stringField forwards text
  have spaces := counted_putcLoop (byte ' ') (charsOf spec text)
    spec.width.toNat
  have length : (stringField ocdev spec text).text.length = charsOf spec text :=
    length_stringField text
  have padding : (putcLoop (byte ' ') (charsOf spec text)
      spec.width.toNat).text.length =
        spec.width.toNat - charsOf spec text := List.length_replicate
  change (if spec.has FLAG_MINUS = true then
      Except.ok (stringField ocdev spec text ++
        putcLoop (byte ' ') (charsOf spec text) spec.width.toNat, vlist')
    else
      Except.ok (putcLoop (byte ' ') (charsOf spec text) spec.width.toNat ++
        stringField ocdev spec text, vlist')) = _ at called
  split at called
  · cases called
    refine ⟨counted.append spaces, ?_⟩
    rw [text_append, List.length_append, length, padding]
    omega
  · cases called
    refine ⟨spaces.append counted, ?_⟩
    rw [text_append, List.length_append, length, padding]
    omega

theorem character_of_conversionOf {specifier : Byte}
    (isConversion : conversionOf specifier = some conversion) :
    specifier = conversion.character := by
  rw [conversionOf] at isConversion
  split_ifs at isConversion with d i u o x upperX <;> cases isConversion
  · exact d
  · exact i
  · exact u
  · exact o
  · exact x
  · exact upperX

/-- The switch behind the conversions. -/
theorem printDirective_of_none
    (noConversion : conversionOf spec.specifier = none) :
    printDirective ocdev spec vlist =
      if spec.specifier = byte 's' then printfSubroutineS ocdev spec vlist
      else if spec.specifier = byte 'c' then do
        let argument ← vaInt vlist
        return (putc (argument.1.setWidth 8), argument.2)
      else if spec.specifier = byte '%' then .ok (putc (byte '%'), vlist)
      else .ok (nothing, vlist) := by
  rw [conversionOf] at noConversion
  split_ifs at noConversion with d i u o x upperX
  rw [printDirective, if_neg (not_or.mpr ⟨d, i⟩), if_neg u, if_neg o, if_neg x,
    if_neg upperX]
  rfl

/-- Each directive is counted, and it sends what it is to send if it fits. -/
theorem printDirective_counts (forwards : Forwards ocdev)
    (stored : Stored measures spec)
    (called : printDirective ocdev spec vlist = .ok (printed, remaining)) :
    printed.Counted ∧
      ((printed.text.length : Int) = directiveLength measures spec vlist ↔
        DirectiveFits measures spec vlist) := by
  cases isConversion : conversionOf spec.specifier with
  | some conversion =>
      rw [printDirective_eq (character_of_conversionOf isConversion)] at called
      rw [directiveLength, DirectiveFits, isConversion]
      exact genSubroutine_counts forwards stored called
  | none =>
      rw [printDirective_of_none isConversion] at called
      rw [directiveLength, DirectiveFits, isConversion]
      by_cases isS : spec.specifier = byte 's'
      · simp only [isS, if_true, true_implies] at called ⊢
        exact printfSubroutineS_counts forwards stored called
      simp only [isS, if_false, false_implies, iff_true] at called ⊢
      by_cases isC : spec.specifier = byte 'c'
      · rw [if_pos isC] at called
        obtain ⟨argument, -, called⟩ := ok_of_bind called
        cases called
        exact ⟨counted_putc _, (if_pos (Or.inl isC)).symm⟩
      rw [if_neg isC] at called
      by_cases isPercent : spec.specifier = byte '%'
      · rw [if_pos isPercent] at called
        cases called
        exact ⟨counted_putc _, (if_pos (Or.inr isPercent)).symm⟩
      · rw [if_neg isPercent] at called
        cases called
        exact ⟨counted_nothing, (if_neg (not_or.mpr ⟨isC, isPercent⟩)).symm⟩

end Lengths

/-! ## The directives of a run -/

/-- The run of `vdprintf` comes to the directive behind a percent sign, with
these arguments left. -/
inductive Reaches {arch : Arch} (ocdev : Ocdev) :
    List Byte → List (Argument arch) → List Byte → List (Argument arch) → Prop
  | here {rest : List Byte} {vlist : List (Argument arch)} :
      Reaches ocdev (byte '%' :: rest) vlist rest vlist
  | plain {head : Byte} {format rest : List Byte}
      {vlist vlist' : List (Argument arch)} :
      head ≠ 0 → head ≠ byte '%' →
      Reaches ocdev format vlist rest vlist' →
      Reaches ocdev (head :: format) vlist rest vlist'
  | behind {first next rest : List Byte} {spec : FormatSpecifier}
      {printed : Printed}
      {vlist remaining remaining' vlist' : List (Argument arch)} :
      parseFormatSpecifier (.inside (byte '%' :: first)) vlist =
        .ok (spec, .inside next, remaining) →
      printDirective ocdev spec remaining = .ok (printed, remaining') →
      Reaches ocdev next remaining' rest vlist' →
      Reaches ocdev (byte '%' :: first) vlist rest vlist'

/-- `%p` counts as `%x`, with the numbers that `measuresOf` gives it. -/
def CountsAsX (rest : List Byte) (spec : FormatSpecifier) : Prop :=
  (fromSpecifier rest).head? = some (byte 'p') → spec.specifier = byte 'x'

/-- The directive behind a percent sign sends what it is to send. -/
def Sends {arch : Arch} (ocdev : Ocdev) (rest : List Byte)
    (vlist : List (Argument arch)) : Prop :=
  ∃ spec next remaining printed remaining',
    parseFormatSpecifier (.inside (byte '%' :: rest)) vlist =
        .ok (spec, .inside next, remaining) ∧
      printDirective ocdev spec remaining = .ok (printed, remaining') ∧
      CountsAsX rest spec ∧
      (printed.text.length : Int) =
        directiveLength (measuresOf rest vlist) spec remaining

/-- The directive behind a percent sign can be printed in full. -/
def Fits {arch : Arch} (rest : List Byte) (vlist : List (Argument arch)) :
    Prop :=
  ∀ spec next remaining,
    parseFormatSpecifier (.inside (byte '%' :: rest)) vlist =
        .ok (spec, .inside next, remaining) →
      DirectiveFits (measuresOf rest vlist) spec remaining

section Runs

variable {arch : Arch} {ocdev : Ocdev} {fuel : Nat} {format rest : List Byte}
  {vlist vlist' : List (Argument arch)} {printed result : Printed}

/-- A round of the loop that is followed by a result. -/
theorem vdprintfLoop_ok
    (returned : vdprintfLoop ocdev (fuel + 1) (.inside (byte '%' :: rest)) vlist
      printed = .ok result) :
    ∃ spec next remaining more remaining',
      parseFormatSpecifier (.inside (byte '%' :: rest)) vlist =
          .ok (spec, .inside next, remaining) ∧
        printDirective ocdev spec remaining = .ok (more, remaining') ∧
        CountsAsX rest spec ∧
        vdprintfLoop ocdev fuel (.inside next) remaining' (printed ++ more) =
          .ok result := by
  have round : (do
      let spec ← parseFormatSpecifier (.inside (byte '%' :: rest)) vlist
      let more ← printDirective ocdev spec.1 spec.2.2
      vdprintfLoop ocdev fuel spec.2.1 more.2 (printed ++ more.1)) =
        .ok result := returned
  obtain ⟨⟨spec, pointer, remaining⟩, parsed, round⟩ := ok_of_bind round
  obtain ⟨⟨more, remaining'⟩, prints, round⟩ := ok_of_bind round
  rcases parseFormatSpecifier_inside (byte '%') rest vlist with
    bad | ⟨ans, _, isSpecifier, parsed'⟩
  · rw [bad] at parsed
    cases parsed
  rw [parsed'] at parsed
  cases parsed
  cases split : fromSpecifier rest with
  | nil =>
      -- the loop goes on behind the NUL, and reads there
      rw [split] at round
      cases fuel <;> cases round
  | cons specifier next =>
      rw [split] at parsed' isSpecifier round
      refine ⟨_, next, remaining, more, remaining', parsed', prints, ?_,
        round⟩
      intro isP
      rw [split] at isP
      cases isP
      have specifierEq : ans.specifier = byte 'p' :=
        (Except.ok.inj isSpecifier).symm
      rw [pointerSpecifier, if_pos specifierEq]

/-- Every directive of a run that returns is counted, and it sends what it is to
send exactly if it fits. -/
theorem vdprintfLoop_counts (forwards : Forwards ocdev)
    (returned : vdprintfLoop ocdev fuel (.inside format) vlist printed =
      .ok result) (counted : printed.Counted) :
    result.Counted ∧
      ∀ rest vlist', Reaches ocdev format vlist rest vlist' →
        (Sends ocdev rest vlist' ↔ Fits rest vlist') := by
  induction fuel generalizing format vlist printed with
  | zero => cases returned
  | succ fuel inductionHypothesis =>
      cases format with
      | nil =>
          cases returned
          refine ⟨counted, fun rest vlist' reached => ?_⟩
          cases reached
      | cons head format =>
          by_cases isNul : head = 0
          · rw [isNul] at returned ⊢
            cases returned
            refine ⟨counted, fun rest vlist' reached => ?_⟩
            cases reached with
            | plain nonzero => exact absurd rfl nonzero
          by_cases percent : head = byte '%'
          · rw [percent] at returned ⊢
            obtain ⟨spec, next, remaining, more, remaining', parsed, prints,
              countsAsX, returned⟩ := vdprintfLoop_ok returned
            obtain ⟨moreCounted, sendsIff⟩ :=
              printDirective_counts forwards
                (parseFormatSpecifier_stored parsed) prints
            obtain ⟨resultCounted, others⟩ :=
              inductionHypothesis returned (counted.append moreCounted)
            refine ⟨resultCounted, fun rest vlist' reached => ?_⟩
            cases reached with
            | here =>
                constructor
                · rintro ⟨_, _, _, _, _, parsed', prints', -, sends⟩
                  cases parsed.symm.trans parsed'
                  cases prints.symm.trans prints'
                  intro _ _ _ parsed'
                  cases parsed.symm.trans parsed'
                  exact sendsIff.mp sends
                · intro fits
                  exact ⟨spec, next, remaining, more, remaining', parsed,
                    prints, countsAsX, sendsIff.mpr (fits _ _ _ parsed)⟩
            | plain _ notPercent => exact absurd rfl notPercent
            | behind parsed' prints' reached =>
                cases parsed.symm.trans parsed'
                cases prints.symm.trans prints'
                exact others rest vlist' reached
          · rw [vdprintfLoop_plain isNul percent] at returned
            obtain ⟨resultCounted, others⟩ := inductionHypothesis returned
              (counted.append (counted_putc head))
            refine ⟨resultCounted, fun rest vlist' reached => ?_⟩
            cases reached with
            | here => exact absurd rfl percent
            | plain _ _ reached => exact others rest vlist' reached
            | behind => exact absurd rfl percent

end Runs

/-- `vdprintf` returns the number of characters it has sent, and each directive
sends as many as it is to send, exactly if the run comes only to directives that
can be printed in full. -/
theorem vdprintf_lengths_iff (arch : Arch) (ocdev : Ocdev)
    (forwards : Forwards ocdev) (format : List Byte)
    (nonzero : (0 : Byte) ∉ format) (complete : Complete format)
    (vlist : List (Argument arch)) (fuel : Nat) (enough : format.length < fuel)
    (matching : vdprintf ocdev fuel format vlist ≠ .error .badArgument) :
    ∃ printed, vdprintf ocdev fuel format vlist = .ok printed ∧
      (printed.text.length < 2 ^ 31 →
        ((printed.ret = printed.text.length ∧
            ∀ rest vlist', Reaches ocdev format vlist rest vlist' →
              Sends ocdev rest vlist') ↔
          ∀ rest vlist', Reaches ocdev format vlist rest vlist' →
            Fits rest vlist')) := by
  rcases vdprintfLoop_ends enough nonzero vlist nothing with bad | ends
  · exact absurd bad matching
  obtain ⟨printed, returned⟩ := ends.ok complete
  obtain ⟨counted, sendsIff⟩ :=
    vdprintfLoop_counts forwards returned counted_nothing
  refine ⟨printed, returned, fun bound => ?_⟩
  constructor
  · rintro ⟨-, sends⟩ rest vlist' reached
    exact (sendsIff rest vlist' reached).mp (sends rest vlist' reached)
  · intro fits
    refine ⟨counted bound, fun rest vlist' reached => ?_⟩
    exact (sendsIff rest vlist' reached).mpr (fits rest vlist' reached)

/-! ### Two values -/

theorem forwards_countingOcdev : Forwards countingOcdev where
  puts _ _ := rfl
  putns text limit _ := by
    rw [Nat.min_comm]
    exact (Nat.cast_min text.length limit).symm

theorem vdprintf_lengths_iff_small :
    ∃ printed,
      vdprintf countingOcdev 4 [byte 'a', byte '%', byte 'd']
          ([.int 7] : List (Argument .x86_64)) = .ok printed ∧
        (printed.text.length < 2 ^ 31 →
          ((printed.ret = printed.text.length ∧
              ∀ rest vlist', Reaches countingOcdev
                [byte 'a', byte '%', byte 'd']
                ([.int 7] : List (Argument .x86_64)) rest vlist' →
                  Sends countingOcdev rest vlist') ↔
            ∀ rest vlist', Reaches countingOcdev
              [byte 'a', byte '%', byte 'd']
              ([.int 7] : List (Argument .x86_64)) rest vlist' →
                Fits rest vlist')) :=
  vdprintf_lengths_iff .x86_64 countingOcdev forwards_countingOcdev
    [byte 'a', byte '%', byte 'd'] (by decide)
    (.plain (by decide) (.directive rfl .empty)) [.int 7] 4 (by decide)
    (by decide)

/-- The least `signed char` is printed as minus zero, in two characters of
four. -/
theorem minimum_not_sent :
    vdprintf countingOcdev 5 [byte '%', byte 'h', byte 'h', byte 'd']
        ([.int 0xffffff80] : List (Argument .x86_64)) =
      .ok ⟨[byte '-', byte '0'], 2⟩ ∧
    ¬ ∀ rest vlist', Reaches countingOcdev
        [byte '%', byte 'h', byte 'h', byte 'd']
        ([.int 0xffffff80] : List (Argument .x86_64)) rest vlist' →
          Sends countingOcdev rest vlist' := by
  refine ⟨rfl, fun sends => ?_⟩
  obtain ⟨spec, next, remaining, printed, remaining', parsed, prints, -,
    sent⟩ := sends _ _ .here
  cases parsed
  cases prints
  have digits : digitCount .d (-128) = 3 := by
    norm_num [digitCount, numeral, Conversion.base]
  change (2 : Int) = max 0 (((1 : Nat) : Int) +
    max 1 (digitCount .d (-128) : Int)) at sent
  rw [digits] at sent
  exact absurd sent (by decide)

end BeaverOS.Io

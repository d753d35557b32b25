import BeaverOS.Io.Directives

/-!
# Integers without flags and width

What a directive with neither flags nor a width prints reads back as the value,
for every value but the least one of a signed type.
-/

namespace BeaverOS.Io

open BeaverOS.Numeral

/-- `%d` and the like. -/
def plainDirective (length : Length) (conversion : Conversion) : Directive where
  flags := []
  width := 0
  starred := false
  length := length
  conversion := conversion

/-- The digit that a character stands for. -/
def Conversion.readDigit (conversion : Conversion) (character : Byte) :
    Option Nat :=
  ((digitTable conversion.uppercase).take conversion.base).idxOf? character

def Conversion.readDigits (conversion : Conversion) (text : List Byte) :
    Option Int :=
  if text = [] then none
  else
    (text.mapM conversion.readDigit).map fun digits =>
      (value conversion.base digits : Int)

/-- Parse a number with an optional minus sign. -/
def Conversion.read (conversion : Conversion) : List Byte → Option Int
  | [] => none
  | head :: rest =>
      if head = byte '-' then (conversion.readDigits rest).map fun number => -number
      else conversion.readDigits (head :: rest)

/-- The text is a numeral for the value, with a sign if it is negative. -/
structure ReadsBack (conversion : Conversion) (number : Int)
    (text : List Byte) : Prop where
  numeral :
    ∃ digits,
      text = (if number < 0 then [byte '-'] else []) ++
          digitText conversion.uppercase digits ∧
        digits ≠ [] ∧ (∀ digit ∈ digits, digit < conversion.base) ∧
        (1 < digits.length → digits.head? ≠ some 0) ∧
        value conversion.base digits = number.natAbs
  read : conversion.read text = some number

section Plain

variable {arch : Arch} {ocdev : Ocdev} {number : Int} {length : Length}
  {conversion : Conversion}

theorem readDigits_digitText {digits : List Nat} (nonempty : digits ≠ [])
    (small : ∀ digit ∈ digits, digit < conversion.base) :
    conversion.readDigits (digitText conversion.uppercase digits) =
      some (value conversion.base digits : Int) := by
  have table : ∀ digit < conversion.base,
      conversion.readDigit ((digitTable conversion.uppercase).getD digit 0) =
        some digit := by
    cases conversion <;> decide
  have read : (digitText conversion.uppercase digits).mapM
      conversion.readDigit = some digits := by
    clear nonempty
    induction digits with
    | nil => rfl
    | cons digit digits inductionHypothesis =>
        have others := inductionHypothesis fun other member =>
          small other (List.mem_cons_of_mem _ member)
        rw [digitText] at others
        rw [digitText, List.map_cons, List.mapM_cons,
          table digit (small digit List.mem_cons_self), others]
        rfl
  have textNonempty : digitText conversion.uppercase digits ≠ [] := by
    rw [digitText]
    exact fun empty => nonempty (List.map_eq_nil_iff.mp empty)
  rw [Conversion.readDigits, if_neg textNonempty, read]
  rfl

/-- The sign that is printed if there is no flag for it. -/
theorem signCharacter_plain
    (inRange : (valueType arch length conversion).InRange number)
    {spec : FormatSpecifier} (noPlus : spec.has FLAG_PLUS = false)
    (noSpace : spec.has FLAG_SPACE = false) :
    (signCharacter conversion.signed spec number).toList =
      if number < 0 then [byte '-'] else [] := by
  rw [signCharacter, noPlus, noSpace]
  by_cases negative : number < 0
  · have signed : conversion.signed = true := by
      by_contra unsigned
      exact absurd (nonneg_of_unsigned unsigned inRange) (not_le.mpr negative)
    rw [if_pos negative, signed, decide_eq_true negative]
    rfl
  · rw [if_neg negative, decide_eq_false negative, Bool.and_false]
    rfl

theorem text_plain
    (inRange : (valueType arch length conversion).InRange number) :
    ((plainDirective length conversion).printed arch ocdev number).text =
      (if number < 0 then [byte '-'] else []) ++
        digitText conversion.uppercase
          (shown conversion.base
            (printedNumber (valueType arch length conversion)
              conversion.signed number).toNat) := by
  have noFlag : ∀ bit,
      (plainDirective length conversion).specifier.has bit = false :=
    (plainDirective length conversion).has_specifier
  have sign : (plainDirective length conversion).sign number = _ :=
    signCharacter_plain inRange (noFlag _) (noFlag _)
  have noPrefix : (plainDirective length conversion).prefixText = [] := by
    rw [Directive.prefixText, noFlag]
    rfl
  have noWidth : (plainDirective length conversion).width % 2 ^ 16 = 0 := rfl
  rw [Directive.text_printed (noFlag _), noWidth, Nat.zero_sub, sign, noPrefix]
  rfl

theorem readsBack_shown (conversion : Conversion) (number : Int) :
    ReadsBack conversion number
      ((if number < 0 then [byte '-'] else []) ++
        digitText conversion.uppercase
          (shown conversion.base number.natAbs)) := by
  have large : 1 < conversion.base := by
    have := base_ge conversion
    omega
  have small : ∀ digit ∈ shown conversion.base number.natAbs,
      digit < conversion.base := fun digit member =>
    lt_of_mem_shown large member
  have nonempty := shown_ne_nil conversion.base number.natAbs
  have digitsRead := readDigits_digitText nonempty small
  rw [value_shown large] at digitsRead
  refine ⟨⟨_, rfl, nonempty, small, head?_shown_ne, value_shown large _⟩, ?_⟩
  by_cases negative : number < 0
  · rw [if_pos negative]
    change (conversion.readDigits (digitText conversion.uppercase
      (shown conversion.base number.natAbs))).map _ = _
    rw [digitsRead]
    refine congrArg some ?_
    change -(number.natAbs : Int) = number
    omega
  · rw [if_neg negative, List.nil_append]
    have notMinus : ∀ digit < conversion.base,
        (digitTable conversion.uppercase).getD digit 0 ≠ byte '-' := by
      cases conversion <;> decide
    cases digits : shown conversion.base number.natAbs with
    | nil => exact absurd digits nonempty
    | cons digit others =>
        have member : digit ∈ shown conversion.base number.natAbs := by
          rw [digits]
          exact List.mem_cons_self
        rw [digits] at digitsRead
        change (if _ = byte '-' then _ else _) = _
        rw [if_neg (notMinus digit (small digit member))]
        refine digitsRead.trans (congrArg some ?_)
        omega

/-- What is printed for the least value of a signed type reads as zero. -/
theorem vdprintf_readsBack_iff (arch : Arch) (ocdev : Ocdev) (length : Length)
    (conversion : Conversion) (number : Int)
    (inRange : (valueType arch length conversion).InRange number) (fuel : Nat)
    (enough : 2 ≤ fuel) :
    (∃ printed,
        vdprintf ocdev fuel (plainDirective length conversion).format
            [argumentOf arch length number] = .ok printed ∧
          ReadsBack conversion number printed.text) ↔
      ¬IsMinimum arch length conversion number := by
  have run := vdprintf_format ocdev (plainDirective length conversion)
    (fun flag member => absurd member List.not_mem_nil) inRange enough
  have isText : (nothing ++ (plainDirective length conversion).printed arch
      ocdev number).text = _ := text_plain inRange
  constructor
  · rintro ⟨printed, isRun, readsBack⟩ isMinimum
    obtain rfl : nothing ++ _ = printed := Except.ok.inj (run.symm.trans isRun)
    have read := readsBack.read
    rw [isText, printedNumber_minimum isMinimum] at read
    have negative : number < 0 := by
      rw [isMinimum.2]
      have : (0 : Int) < 2 ^ (length.bits arch - 1) := by positivity
      omega
    have isZero : conversion.read ((if number < 0 then [byte '-'] else []) ++
        digitText conversion.uppercase (shown conversion.base 0)) =
          some 0 := by
      rw [if_pos negative]
      cases conversion <;> rfl
    have := Option.some.inj (read.symm.trans isZero)
    omega
  · intro notMinimum
    refine ⟨_, run, ?_⟩
    rw [isText, printedNumber_toNat inRange notMinimum]
    exact readsBack_shown conversion number

end Plain

/-! ### Two values -/

/-- A device that returns the number of bytes it has printed. -/
def countingOcdev : Ocdev where
  puts text := text.length
  putns text count := min text.length count

theorem vdprintf_readsBack_iff_small :
    (∃ printed,
        vdprintf countingOcdev 2 (plainDirective .hh .d).format
            [argumentOf .x86_64 .hh (-5)] = .ok printed ∧
          ReadsBack .d (-5) printed.text) ↔
      ¬IsMinimum .x86_64 .hh .d (-5) :=
  vdprintf_readsBack_iff .x86_64 countingOcdev .hh .d (-5)
    ⟨by decide, by decide⟩ 2 le_rfl

/-- A `signed char` of -128 is printed as minus zero. -/
theorem minimum_not_readsBack :
    ∃ printed,
      vdprintf countingOcdev 2 [byte '%', byte 'h', byte 'h', byte 'd']
          [argumentOf .x86_64 .hh (-128)] = .ok printed ∧
        printed.text = [byte '-', byte '0'] ∧
        ¬ReadsBack .d (-128) printed.text := by
  refine ⟨⟨[byte '-', byte '0'], 2⟩, rfl, rfl, ?_⟩
  intro readsBack
  have read : some (0 : Int) = some (-128) := readsBack.read
  cases read

end BeaverOS.Io

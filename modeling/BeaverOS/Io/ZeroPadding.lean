import BeaverOS.Io.ReadBack

/-!
# Zero padding

A directive with the flag `0`, any other flags but `-`, and any width. The loop
for the width comes first in `INTEGER_PRINTER`, so the zeros are emitted before
the sign and the prefix.
-/

namespace BeaverOS.Io

open BeaverOS.Numeral

/-- The flags of a directive that is padded with zeros. -/
structure ZeroFlags (flags : List Byte) : Prop where
  known :
    ∀ flag ∈ flags, flag = byte '+' ∨ flag = byte ' ' ∨ flag = byte '#' ∨
      flag = byte '0'
  zero : byte '0' ∈ flags

/-- The sign that the flags ask for. -/
def signText (flags : List Byte) (number : Int) : List Byte :=
  if number < 0 then [byte '-']
  else if byte '+' ∈ flags then [byte '+']
  else if byte ' ' ∈ flags then [byte ' ']
  else []

/-- The prefix that the flags ask for. -/
def alternateText (flags : List Byte) (conversion : Conversion) : List Byte :=
  if byte '#' ∈ flags then conversion.pref else []

/-- The characters of a field apart from padding. -/
def contentLength (directive : Directive) (number : Int) : Nat :=
  (signText directive.flags number).length +
    (alternateText directive.flags directive.conversion).length +
    (directive.digits number.natAbs).length

/-- The sign, the prefix, the padding zeros and the digits, in this order. -/
structure ZeroPadded (directive : Directive) (number : Int)
    (text : List Byte) : Prop where
  text_eq :
    text =
      signText directive.flags number ++
        (alternateText directive.flags directive.conversion ++
          (List.replicate (directive.width - contentLength directive number)
              (byte '0') ++ directive.digits number.natAbs))
  length_eq : text.length = max directive.width (contentLength directive number)

section Flags

variable {arch : Arch} {directive : Directive} {number : Int}

theorem ZeroFlags.isFlag {flags : List Byte} (zeroFlags : ZeroFlags flags) :
    ∀ flag ∈ flags, (flagOf flag).isSome := by
  intro flag member
  rcases zeroFlags.known flag member with rfl | rfl | rfl | rfl <;> rfl

/-- A flag is set if and only if its character is there. -/
theorem has_iff_mem (zeroFlags : ZeroFlags directive.flags) {bit : BitVec 8}
    {character : Byte}
    (sets : ∀ flag ∈ [byte '+', byte ' ', byte '#', byte '0'],
      ((flagOf flag).getD 0 &&& bit != 0) = decide (flag = character)) :
    directive.specifier.has bit = decide (character ∈ directive.flags) := by
  have known : ∀ flag ∈ directive.flags,
      ((flagOf flag).getD 0 &&& bit != 0) = decide (flag = character) := by
    intro flag member
    apply sets
    rcases zeroFlags.known flag member with rfl | rfl | rfl | rfl <;> decide
  rw [directive.has_specifier, Bool.eq_iff_iff, List.any_eq_true,
    decide_eq_true_eq]
  constructor
  · rintro ⟨flag, member, isSet⟩
    rw [known flag member, decide_eq_true_eq] at isSet
    exact isSet ▸ member
  · intro member
    refine ⟨character, member, ?_⟩
    rw [known character member, decide_eq_true_eq]

theorem has_minus (zeroFlags : ZeroFlags directive.flags) :
    directive.specifier.has FLAG_MINUS = false := by
  rw [directive.has_specifier, List.any_eq_false]
  intro flag member
  rcases zeroFlags.known flag member with rfl | rfl | rfl | rfl <;> decide

theorem sign_eq (zeroFlags : ZeroFlags directive.flags)
    (inRange :
      (valueType arch directive.length directive.conversion).InRange number) :
    directive.sign number = signText directive.flags number := by
  have plus : directive.specifier.has FLAG_PLUS =
      decide (byte '+' ∈ directive.flags) :=
    has_iff_mem zeroFlags (by decide)
  have space : directive.specifier.has FLAG_SPACE =
      decide (byte ' ' ∈ directive.flags) :=
    has_iff_mem zeroFlags (by decide)
  have negative : (directive.conversion.signed && decide (number < 0)) =
      decide (number < 0) := by
    by_cases signed : directive.conversion.signed = true
    · rw [signed, Bool.true_and]
    · rw [decide_eq_false (not_lt.mpr (nonneg_of_unsigned signed inRange)),
        Bool.and_false]
  rw [Directive.sign, signCharacter, negative, plus, space, signText]
  simp only [decide_eq_true_eq]
  split_ifs <;> rfl

theorem prefixText_eq (zeroFlags : ZeroFlags directive.flags) :
    directive.prefixText =
      alternateText directive.flags directive.conversion := by
  have sharp : directive.specifier.has FLAG_SHARP =
      decide (byte '#' ∈ directive.flags) :=
    has_iff_mem zeroFlags (by decide)
  rw [Directive.prefixText, sharp, alternateText]
  simp only [decide_eq_true_eq]

theorem has_zero (zeroFlags : ZeroFlags directive.flags) :
    directive.specifier.has FLAG_ZERO = true := by
  rw [directive.has_specifier, List.any_eq_true]
  exact ⟨byte '0', zeroFlags.zero, by decide⟩

/-- The field that is printed: the zeros come first. -/
theorem text_zeroFlags {ocdev : Ocdev} (zeroFlags : ZeroFlags directive.flags)
    (inRange :
      (valueType arch directive.length directive.conversion).InRange number)
    (notMinimum :
      ¬IsMinimum arch directive.length directive.conversion number) :
    (directive.printed arch ocdev number).text =
      List.replicate (directive.width % 2 ^ 16 - contentLength directive number)
          (byte '0') ++
        (signText directive.flags number ++
          (alternateText directive.flags directive.conversion ++
            directive.digits number.natAbs)) := by
  rw [Directive.text_printed (has_minus zeroFlags),
    printedNumber_toNat inRange notMinimum, sign_eq zeroFlags inRange,
    prefixText_eq zeroFlags, has_zero zeroFlags]
  rfl

end Flags

/-! ## The order of the parts -/

/-- The zeros can come first where they stand before digits only. -/
def ZerosFirst (directive : Directive) (number : Int) : Prop :=
  directive.width < 2 ^ 16 ∧ signText directive.flags number = [] ∧
    (alternateText directive.flags directive.conversion = [] ∨
      directive.conversion = .o)

section Order

variable {arch : Arch} {directive : Directive} {number : Int}

theorem length_signText_le (flags : List Byte) (number : Int) :
    (signText flags number).length ≤ 1 := by
  rw [signText]
  split_ifs <;> decide

theorem alternateText_cases (flags : List Byte) (conversion : Conversion) :
    alternateText flags conversion = [] ∨
      conversion = .o ∧ alternateText flags conversion = [byte '0'] ∨
      ∃ second, second ≠ byte '0' ∧
        alternateText flags conversion = [byte '0', second] := by
  rw [alternateText]
  by_cases sharp : byte '#' ∈ flags
  · rw [if_pos sharp]
    cases conversion with
    | d => exact .inl rfl
    | i => exact .inl rfl
    | u => exact .inl rfl
    | o => exact .inr (.inl ⟨rfl, rfl⟩)
    | x => exact .inr (.inr ⟨byte 'x', by decide, rfl⟩)
    | upperX => exact .inr (.inr ⟨byte 'X', by decide, rfl⟩)
  · exact .inl (if_neg sharp)

theorem contentLength_lt
    (inRange :
      (valueType arch directive.length directive.conversion).InRange number)
    (notMinimum :
      ¬IsMinimum arch directive.length directive.conversion number) :
    contentLength directive number < 2 ^ 16 := by
  have magnitude := printedNumber_lt inRange
  have equal := printedNumber_toNat inRange notMinimum
  have large := base_ge directive.conversion
  have bound : number.natAbs < directive.conversion.base ^ 24 :=
    calc
      number.natAbs < 2 ^ 64 := by omega
      _ ≤ 8 ^ 24 := by norm_num
      _ ≤ directive.conversion.base ^ 24 := Nat.pow_le_pow_left large 24
  have digits : (directive.digits number.natAbs).length ≤ 24 := by
    rw [Directive.digits, digitText, List.length_map]
    exact length_shown_le (by omega) (by decide) bound
  have sign := length_signText_le directive.flags number
  have alternate :
      (alternateText directive.flags directive.conversion).length ≤ 2 := by
    rcases alternateText_cases directive.flags directive.conversion with
      none | ⟨-, octal⟩ | ⟨second, -, hexadecimal⟩
    · rw [none]
      decide
    · rw [octal]
      decide
    · rw [hexadecimal]
      rfl
  rw [contentLength]
  omega

/-- A sign is no zero. -/
theorem signText_head (flags : List Byte) (number : Int) :
    ∀ head ∈ (signText flags number).head?, head ≠ byte '0' := by
  intro head isHead
  rw [signText] at isHead
  split_ifs at isHead <;> cases isHead <;> decide

theorem octal_alternate (flags : List Byte) (conversion : Conversion)
    (octal : conversion = .o) :
    alternateText flags conversion = [] ∨
      alternateText flags conversion = [byte '0'] := by
  rw [alternateText, octal]
  split_ifs
  · exact .inr rfl
  · exact .inl rfl

/-- Zeros commute with zeros only. -/
theorem replicate_append_comm {count : Nat} (zero : Byte) (rest : List Byte) :
    List.replicate count zero ++ zero :: rest =
      zero :: (List.replicate count zero ++ rest) := by
  rw [← List.singleton_append, ← List.append_assoc,
    ← List.replicate_succ', List.replicate_succ, List.cons_append]

/-- The text is as in C exactly if there are no zeros to print, or if they are
not separated from the digits. -/
theorem zeros_first_iff (count : Nat) {sign alternate : List Byte}
    (digits : List Byte) {conversion : Conversion}
    (signHead : ∀ head ∈ sign.head?, head ≠ byte '0')
    (alternateCases : alternate = [] ∨
      conversion = .o ∧ alternate = [byte '0'] ∨
      ∃ second, second ≠ byte '0' ∧ alternate = [byte '0', second])
    (octal : conversion = .o → alternate = [] ∨ alternate = [byte '0']) :
    List.replicate count (byte '0') ++ (sign ++ (alternate ++ digits)) =
        sign ++ (alternate ++ (List.replicate count (byte '0') ++ digits)) ↔
      count = 0 ∨ sign = [] ∧ (alternate = [] ∨ conversion = .o) := by
  constructor
  · intro equal
    cases count with
    | zero => exact .inl rfl
    | succ count =>
        right
        cases sign with
        | cons head rest =>
            have heads := congrArg List.head? equal
            exact absurd (Option.some.inj heads).symm (signHead head rfl)
        | nil =>
            refine ⟨rfl, ?_⟩
            rcases alternateCases with none | ⟨isOctal, -⟩ |
              ⟨second, notZero, hexadecimal⟩
            · exact .inl none
            · exact .inr isOctal
            · rw [hexadecimal] at equal
              have seconds := congrArg (fun text => text[1]?) equal
              cases count with
              | zero =>
                  exact absurd (Option.some.inj seconds).symm notZero
              | succ count =>
                  exact absurd (Option.some.inj seconds).symm notZero
  · rintro (rfl | ⟨rfl, none | isOctal⟩)
    · rfl
    · rw [none]
      rfl
    · rcases octal isOctal with none | zero
      · rw [none]
        rfl
      · rw [zero]
        exact replicate_append_comm _ _

/-- The field is as in C exactly if nothing is padded, or if the width fits
into 16 bits and there is neither a sign nor a hexadecimal prefix. -/
theorem vdprintf_zeroPadded_iff (arch : Arch) (ocdev : Ocdev)
    (directive : Directive) (number : Int)
    (zeroFlags : ZeroFlags directive.flags)
    (inRange :
      (valueType arch directive.length directive.conversion).InRange number)
    (notMinimum :
      ¬IsMinimum arch directive.length directive.conversion number)
    (fuel : Nat) (enough : 2 ≤ fuel) :
    (∃ printed,
        vdprintf ocdev fuel directive.format
            (directive.arguments arch number) = .ok printed ∧
          ZeroPadded directive number printed.text) ↔
      directive.width ≤ contentLength directive number ∨
        ZerosFirst directive number := by
  have run := vdprintf_format ocdev directive zeroFlags.isFlag inRange enough
  have isText : (nothing ++ directive.printed arch ocdev number).text = _ :=
    text_zeroFlags zeroFlags inRange notMinimum
  have short := contentLength_lt inRange notMinimum
  have order := zeros_first_iff
    (directive.width - contentLength directive number)
    (directive.digits number.natAbs) (signText_head directive.flags number)
    (alternateText_cases directive.flags directive.conversion)
    (octal_alternate directive.flags directive.conversion)
  have whole : ((signText directive.flags number) ++
      (alternateText directive.flags directive.conversion ++
        directive.digits number.natAbs)).length =
      contentLength directive number := by
    rw [List.length_append, List.length_append, contentLength, Nat.add_assoc]
  constructor
  · rintro ⟨printed, isRun, zeroPadded⟩
    obtain rfl : nothing ++ _ = printed := Except.ok.inj (run.symm.trans isRun)
    have lengthEq := zeroPadded.length_eq
    have textEq := zeroPadded.text_eq
    rw [isText] at lengthEq textEq
    rw [List.length_append, List.length_replicate, whole] at lengthEq
    by_cases fits : directive.width ≤ contentLength directive number
    · exact .inl fits
    · have narrow : directive.width % 2 ^ 16 = directive.width := by omega
      rw [narrow] at textEq
      rcases order.mp textEq with none | ⟨noSign, noPrefix⟩
      · omega
      · exact .inr ⟨by omega, noSign, noPrefix⟩
  · intro condition
    have narrow : directive.width % 2 ^ 16 = directive.width := by
      rcases condition with fits | ⟨narrow, -, -⟩
      · exact Nat.mod_eq_of_lt (by omega)
      · exact Nat.mod_eq_of_lt narrow
    refine ⟨_, run, ?_⟩
    rw [isText, narrow]
    constructor
    · apply order.mpr
      rcases condition with fits | ⟨-, noSign, noPrefix⟩
      · exact .inl (Nat.sub_eq_zero_of_le fits)
      · exact .inr ⟨noSign, noPrefix⟩
    · rw [List.length_append, List.length_replicate, whole]
      omega

end Order

/-! ### Two fields -/

/-- Directives such as `%08lx`. -/
def paddedDirective (flags : List Byte) (conversion : Conversion) :
    Directive where
  flags := flags
  width := 8
  starred := false
  length := .l
  conversion := conversion

theorem vdprintf_zeroPadded_iff_small :
    (∃ printed,
        vdprintf countingOcdev 2 (paddedDirective [byte '0'] .x).format
            ((paddedDirective [byte '0'] .x).arguments .x86_64 255) =
              .ok printed ∧
          ZeroPadded (paddedDirective [byte '0'] .x) 255 printed.text) ↔
      (paddedDirective [byte '0'] .x).width ≤
          contentLength (paddedDirective [byte '0'] .x) 255 ∨
        ZerosFirst (paddedDirective [byte '0'] .x) 255 :=
  vdprintf_zeroPadded_iff .x86_64 countingOcdev (paddedDirective [byte '0'] .x)
    255 ⟨by decide, by decide⟩ ⟨by decide, by decide⟩
    (fun isMinimum => Bool.false_ne_true isMinimum.1) 2 le_rfl

/-- `%0+8ld` prints 42 as `00000+42`. -/
theorem plus_not_zeroPadded :
    ∃ printed,
      vdprintf countingOcdev 2
          (paddedDirective [byte '0', byte '+'] .d).format
          ((paddedDirective [byte '0', byte '+'] .d).arguments .x86_64 42) =
            .ok printed ∧
        printed.text =
          ['0', '0', '0', '0', '0', '+', '4', '2'].map byte ∧
        ¬ZeroPadded (paddedDirective [byte '0', byte '+'] .d) 42
          printed.text := by
  refine ⟨⟨['0', '0', '0', '0', '0', '+', '4', '2'].map byte, 8⟩, ?_, rfl, ?_⟩
  · have width : numeral 10 8 = [8] := by
      rw [numeral, Nat.digits_of_lt 10 8 (by decide) (by decide)]
      rfl
    have isFormat : (paddedDirective [byte '0', byte '+'] .d).format =
        ['%', '0', '+', '8', 'l', 'd'].map byte := by
      change byte '%' :: ([byte '0', byte '+'] ++
        (digitText false (numeral 10 8) ++ tailText .l .d)) = _
      rw [width]
      rfl
    rw [isFormat]
    rfl
  · intro zeroPadded
    have heads := congrArg List.head? zeroPadded.text_eq
    exact absurd (Option.some.inj heads) (by decide)

end BeaverOS.Io

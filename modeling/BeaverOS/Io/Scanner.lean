import BeaverOS.Io.Directives

/-!
# The scan of the format string

Where the parser of `printf.c` leaves the pointer after a directive, and when
`vdprintf` stays inside its format string: exactly when no directive is cut off
by the terminating NUL.
-/

namespace BeaverOS.Io

/-! ## The parts of a directive -/

/-- What is left after the flags. -/
def afterFlags (rest : List Byte) : List Byte :=
  rest.dropWhile fun head => (flagOf head).isSome

/-- What is left after a number or a star. -/
def afterNumber : List Byte → List Byte
  | [] => []
  | head :: rest =>
      if head = byte '*' then rest else (head :: rest).dropWhile isDigit

/-- What is left after a dot and a precision. -/
def afterPrecision : List Byte → List Byte
  | [] => []
  | head :: rest => if head = byte '.' then afterNumber rest else head :: rest

/-- What is left after a letter that may be doubled. -/
def afterDoubled (letter : Byte) : List Byte → List Byte
  | [] => []
  | head :: rest => if head = letter then rest else head :: rest

/-- What is left after a length modifier. -/
def afterLength : List Byte → List Byte
  | [] => []
  | head :: rest =>
      if head = byte 'h' then afterDoubled (byte 'h') rest
      else if head = byte 'l' then afterDoubled (byte 'l') rest
      else if head = byte 'j' then rest
      else if head = byte 'z' ∨ head = byte 't' then rest
      else head :: rest

/-- The specifier of a directive and what follows it, after a percent sign. -/
def fromSpecifier (rest : List Byte) : List Byte :=
  afterLength (afterPrecision (afterNumber (afterFlags rest)))

/-- No directive of the string is cut off by its end. -/
inductive Complete : List Byte → Prop
  | empty : Complete []
  | plain {head : Byte} {rest : List Byte} (notPercent : head ≠ byte '%')
      (complete : Complete rest) : Complete (head :: rest)
  | directive {rest next : List Byte} {specifier : Byte}
      (hasSpecifier : fromSpecifier rest = specifier :: next)
      (complete : Complete next) : Complete (byte '%' :: rest)

section Parts

variable {rest : List Byte}

theorem afterNumber_suffix (rest : List Byte) : afterNumber rest <:+ rest := by
  cases rest with
  | nil => exact List.suffix_rfl
  | cons head rest =>
      rw [afterNumber]
      split
      · exact List.suffix_cons head rest
      · exact List.dropWhile_suffix _

theorem afterPrecision_suffix (rest : List Byte) :
    afterPrecision rest <:+ rest := by
  cases rest with
  | nil => exact List.suffix_rfl
  | cons head rest =>
      rw [afterPrecision]
      split
      · exact (afterNumber_suffix rest).trans (List.suffix_cons head rest)
      · exact List.suffix_rfl

theorem afterDoubled_suffix (letter : Byte) (rest : List Byte) :
    afterDoubled letter rest <:+ rest := by
  cases rest with
  | nil => exact List.suffix_rfl
  | cons head rest =>
      rw [afterDoubled]
      split
      · exact List.suffix_cons head rest
      · exact List.suffix_rfl

theorem afterLength_suffix (rest : List Byte) : afterLength rest <:+ rest := by
  cases rest with
  | nil => exact List.suffix_rfl
  | cons head rest =>
      rw [afterLength]
      split_ifs
      · exact (afterDoubled_suffix _ rest).trans (List.suffix_cons head rest)
      · exact (afterDoubled_suffix _ rest).trans (List.suffix_cons head rest)
      · exact List.suffix_cons head rest
      · exact List.suffix_cons head rest
      · exact List.suffix_rfl

/-- The parser goes forward. -/
theorem fromSpecifier_suffix (rest : List Byte) :
    fromSpecifier rest <:+ rest :=
  (afterLength_suffix _).trans ((afterPrecision_suffix _).trans
    ((afterNumber_suffix _).trans (List.dropWhile_suffix _)))

end Parts

/-! ## The parser -/

section Parser

variable {arch : Arch} {α : Type} {rest : List Byte}

/-- A part of the parser has read an argument of another type, or it has left
the pointer inside the string. -/
def Leaves (result : Except Fault (α × Pointer × List (Argument arch)))
    (rest : List Byte) : Prop :=
  result = .error .badArgument ∨
    ∃ parsed vlist, result = .ok (parsed, .inside rest, vlist)

theorem flagLoop_snd (rest : List Byte) (flags : BitVec 8) :
    (flagLoop rest flags).2 = afterFlags rest := by
  induction rest generalizing flags with
  | nil => rfl
  | cons head rest inductionHypothesis =>
      rw [flagLoop, afterFlags, List.dropWhile_cons]
      cases isFlag : flagOf head with
      | none => rfl
      | some flag => exact inductionHypothesis (flags ||| flag)

theorem atoiLoop_snd (rest : List Byte) (total : BitVec 16) :
    (atoiLoop rest total).2 = rest.dropWhile isDigit := by
  induction rest generalizing total with
  | nil => rfl
  | cons head rest inductionHypothesis =>
      rw [atoiLoop, List.dropWhile_cons]
      split
      · exact inductionHypothesis _
      · rfl

theorem parseFlags_inside (head : Byte) (rest : List Byte) :
    ∃ flags, parseFlags (.inside (head :: rest)) =
      .ok (flags, .inside (afterFlags rest)) :=
  ⟨(flagLoop rest 0).1, by rw [← flagLoop_snd rest 0]; rfl⟩

/-- An argument has another type, or it is read. -/
def Reads (result : Except Fault (α × List (Argument arch))) : Prop :=
  result = .error .badArgument ∨ ∃ argument, result = .ok argument

/-- Only the first argument counts. -/
theorem reads_of_first {read : List (Argument arch) →
      Except Fault (α × List (Argument arch))}
    (noArgument : read [] = .error .badArgument)
    (first : ∀ argument vlist, Reads (read (argument :: vlist)))
    (vlist : List (Argument arch)) : Reads (read vlist) := by
  cases vlist with
  | nil => exact .inl noArgument
  | cons argument vlist => exact first argument vlist

theorem vaInt_reads : ∀ vlist : List (Argument arch), Reads (vaInt vlist) := by
  apply reads_of_first rfl
  intro argument vlist
  cases argument <;> first | exact .inr ⟨_, rfl⟩ | exact .inl rfl

theorem vaLongInt_reads :
    ∀ vlist : List (Argument arch), Reads (vaLongInt vlist) := by
  apply reads_of_first rfl
  intro argument vlist
  cases argument <;> first | exact .inr ⟨_, rfl⟩ | exact .inl rfl

theorem vaLongLongInt_reads :
    ∀ vlist : List (Argument arch), Reads (vaLongLongInt vlist) := by
  apply reads_of_first rfl
  intro argument vlist
  cases argument <;> first | exact .inr ⟨_, rfl⟩ | exact .inl rfl

theorem vaString_reads :
    ∀ vlist : List (Argument arch), Reads (vaString vlist) := by
  apply reads_of_first rfl
  intro argument vlist
  cases argument <;> first | exact .inr ⟨_, rfl⟩ | exact .inl rfl

theorem parseNumber_leaves (rest : List Byte) (vlist : List (Argument arch)) :
    Leaves (parseNumber (.inside rest) vlist) (afterNumber rest) := by
  cases rest with
  | nil => exact .inr ⟨0, vlist, rfl⟩
  | cons head rest =>
      rw [afterNumber]
      by_cases star : head = byte '*'
      · have read : parseNumber (.inside (head :: rest)) vlist =
            (vaInt vlist).map fun argument =>
              (argument.1.setWidth 16, .inside rest, argument.2) := by
          rw [star]
          rfl
        rw [if_pos star, read]
        rcases vaInt_reads vlist with bad | ⟨argument, good⟩
        · rw [bad]
          exact .inl rfl
        · rw [good]
          exact .inr ⟨_, _, rfl⟩
      · rw [if_neg star, parseNumber_of_ne star, ← atoiLoop_snd _ 0]
        exact .inr ⟨_, _, rfl⟩

theorem parsePrecision_leaves (rest : List Byte)
    (vlist : List (Argument arch)) :
    Leaves (parsePrecision (.inside rest) vlist) (afterPrecision rest) := by
  cases rest with
  | nil => exact .inr ⟨(0, 0), vlist, rfl⟩
  | cons head rest =>
      rw [afterPrecision]
      by_cases dot : head = byte '.'
      · have read : parsePrecision (.inside (head :: rest)) vlist =
            (parseNumber (.inside rest) vlist).map fun number =>
              ((number.1, FLAG_PRECISION_SPECIFIED), number.2) := by
          rw [dot]
          rfl
        rw [if_pos dot, read]
        rcases parseNumber_leaves rest vlist with bad | ⟨number, vlist', good⟩
        · rw [bad]
          exact .inl rfl
        · rw [good]
          exact .inr ⟨_, _, rfl⟩
      · have read : parsePrecision (.inside (head :: rest)) vlist =
            .ok ((0, 0), .inside (head :: rest), vlist) := by
          change (if head = byte '.' then _ else _) = _
          rw [if_neg dot]
          rfl
        rw [if_neg dot, read]
        exact .inr ⟨_, _, rfl⟩

/-- A letter, and the same letter once more. -/
theorem doubled_letter (letter : Byte) (single double : Length)
    (rest : List Byte) (isLetter : letter ≠ 0) :
    ∃ length : Length,
      (do
        if (← (Pointer.inside rest).deref) = letter then
          return (double, (Pointer.inside rest).next)
        else
          return (single, Pointer.inside rest) :
          Except Fault (Length × Pointer)) =
        .ok (length, .inside (afterDoubled letter rest)) := by
  cases rest with
  | nil => exact ⟨single, if_neg isLetter.symm⟩
  | cons head rest =>
      rw [afterDoubled]
      by_cases same : head = letter
      · rw [if_pos same]
        exact ⟨double, if_pos same⟩
      · rw [if_neg same]
        exact ⟨single, if_neg same⟩

theorem parseLength_inside (rest : List Byte) :
    ∃ length, parseLength (.inside rest) =
      .ok (length, .inside (afterLength rest)) := by
  cases rest with
  | nil => exact ⟨.none, rfl⟩
  | cons head rest =>
      rw [afterLength]
      by_cases isH : head = byte 'h'
      · rw [if_pos isH, isH]
        exact doubled_letter (byte 'h') .h .hh rest (by decide)
      by_cases isL : head = byte 'l'
      · rw [if_neg isH, if_pos isL, isL]
        exact doubled_letter (byte 'l') .l .ll rest (by decide)
      change ∃ length, (if head = byte 'h' then _ else if head = byte 'l' then _
        else if head = byte 'j' then _
        else if head = byte 'z' ∨ head = byte 't' then _ else _) = _
      rw [if_neg isH, if_neg isL, if_neg isH, if_neg isL]
      split_ifs
      · exact ⟨_, rfl⟩
      · exact ⟨_, rfl⟩
      · exact ⟨_, rfl⟩

/-- A directive leaves the pointer behind its specifier. -/
theorem parseFormatSpecifier_inside (head : Byte) (rest : List Byte)
    (vlist : List (Argument arch)) :
    parseFormatSpecifier (.inside (head :: rest)) vlist =
        .error .badArgument ∨
      ∃ ans remaining,
        (Pointer.inside (fromSpecifier rest)).deref = .ok ans.specifier ∧
        parseFormatSpecifier (.inside (head :: rest)) vlist =
          .ok (pointerSpecifier arch ans,
            (Pointer.inside (fromSpecifier rest)).next, remaining) := by
  obtain ⟨flags, flagsRead⟩ := parseFlags_inside head rest
  rcases parseNumber_leaves (afterFlags rest) vlist with
    bad | ⟨width, afterWidth, widthRead⟩
  · left
    simp only [parseFormatSpecifier, flagsRead, bad, bind, Except.bind]
  rcases parsePrecision_leaves (afterNumber (afterFlags rest)) afterWidth with
    bad | ⟨precision, remaining, precisionRead⟩
  · left
    simp only [parseFormatSpecifier, flagsRead, widthRead, bad, bind,
      Except.bind]
  obtain ⟨length, lengthRead⟩ :=
    parseLength_inside (afterPrecision (afterNumber (afterFlags rest)))
  have specifierRead : ∃ specifier,
      (Pointer.inside (fromSpecifier rest)).deref = .ok specifier := by
    cases fromSpecifier rest with
    | nil => exact ⟨0, rfl⟩
    | cons specifier next => exact ⟨specifier, rfl⟩
  obtain ⟨specifier, specifierRead⟩ := specifierRead
  right
  refine ⟨{ flags := flags ||| precision.2
            specifier := specifier
            width := width
            precision := precision.1
            length := length }, remaining, specifierRead, ?_⟩
  rw [fromSpecifier] at specifierRead
  simp only [parseFormatSpecifier, flagsRead, widthRead, precisionRead,
    lengthRead, specifierRead, bind, Except.bind, pure, Except.pure]
  rfl

end Parser

/-! ## The conversions -/

section Conversions

variable {arch : Arch} {ocdev : Ocdev} {spec : FormatSpecifier}

theorem Reads.bind {α β : Type}
    {read : Except Fault (α × List (Argument arch))}
    {next : α × List (Argument arch) → Except Fault (β × List (Argument arch))}
    (reads : Reads read) (others : ∀ argument, Reads (next argument)) :
    Reads (do
      let argument ← read
      next argument) := by
  rcases reads with bad | ⟨argument, good⟩
  · rw [bad]
    exact .inl rfl
  · rw [good]
    exact others argument

theorem printer_ok (ocdev : Ocdev) (spec : FormatSpecifier)
    (conversion : Conversion) {bits : Nat} (narrow : bits ≤ 64) (value : Int) :
    ∃ printed, conversion.printer bits ocdev spec value = .ok printed := by
  have powers : (2 : Int) ^ bits ≤ 2 ^ 64 :=
    pow_le_pow_right₀ (by decide) narrow
  rw [printer_eq]
  refine ⟨_, integerPrinter_eq (base_ge conversion) ?_⟩
  rw [printedNumber]
  split
  · exact (wrap_lt _).trans_le powers
  · exact (wrap_lt _).trans_le powers

theorem printer_reads (ocdev : Ocdev) (spec : FormatSpecifier)
    (conversion : Conversion) {bits : Nat} (narrow : bits ≤ 64) (value : Int)
    (vlist : List (Argument arch)) :
    Reads (do
      let printed ← conversion.printer bits ocdev spec value
      return (printed, vlist)) := by
  obtain ⟨printed, prints⟩ := printer_ok ocdev spec conversion narrow value
  rw [prints]
  exact .inr ⟨_, rfl⟩

theorem genSubroutine_reads (conversion : Conversion)
    (vlist : List (Argument arch)) :
    Reads (genSubroutine conversion.printer ocdev spec vlist) := by
  rw [genSubroutine]
  cases spec.length with
  | none =>
      exact (vaInt_reads vlist).bind fun argument =>
        printer_reads ocdev spec conversion (by decide) _ argument.2
  | hh =>
      exact (vaInt_reads vlist).bind fun argument =>
        printer_reads ocdev spec conversion (by decide) _ argument.2
  | h =>
      exact (vaInt_reads vlist).bind fun argument =>
        printer_reads ocdev spec conversion (by decide) _ argument.2
  | l =>
      exact (vaLongInt_reads vlist).bind fun argument =>
        printer_reads ocdev spec conversion (bits_le arch .l) _ argument.2
  | ll =>
      exact (vaLongLongInt_reads vlist).bind fun argument =>
        printer_reads ocdev spec conversion le_rfl _ argument.2

theorem printfSubroutineS_reads (vlist : List (Argument arch)) :
    Reads (printfSubroutineS ocdev spec vlist) := by
  refine (vaString_reads vlist).bind fun argument => ?_
  by_cases minus : spec.has FLAG_MINUS = true
  · exact .inr ⟨_, if_pos minus⟩
  · exact .inr ⟨_, if_neg minus⟩

/-- A directive reads its argument, and prints. -/
theorem printDirective_reads (vlist : List (Argument arch)) :
    Reads (printDirective ocdev spec vlist) := by
  rw [printDirective]
  split_ifs
  · exact genSubroutine_reads .d vlist
  · exact genSubroutine_reads .u vlist
  · exact genSubroutine_reads .o vlist
  · exact genSubroutine_reads .x vlist
  · exact genSubroutine_reads .upperX vlist
  · exact printfSubroutineS_reads vlist
  · exact (vaInt_reads vlist).bind fun argument => .inr ⟨_, rfl⟩
  · exact .inr ⟨_, rfl⟩
  · exact .inr ⟨_, rfl⟩

end Conversions

/-! ## The main loop -/

section Loop

variable {arch : Arch} {ocdev : Ocdev}

theorem complete_directive_iff {rest : List Byte} :
    Complete (byte '%' :: rest) ↔
      ∃ specifier next, fromSpecifier rest = specifier :: next ∧
        Complete next := by
  constructor
  · intro complete
    cases complete with
    | plain notPercent _ => exact absurd rfl notPercent
    | directive hasSpecifier complete => exact ⟨_, _, hasSpecifier, complete⟩
  · rintro ⟨specifier, next, hasSpecifier, complete⟩
    exact .directive hasSpecifier complete

theorem complete_plain_iff {head : Byte} {rest : List Byte}
    (notPercent : head ≠ byte '%') :
    Complete (head :: rest) ↔ Complete rest := by
  constructor
  · intro complete
    cases complete with
    | plain _ complete => exact complete
    | directive _ _ => exact absurd rfl notPercent
  · exact .plain notPercent

/-- How a run ends, if every argument that it reads has the right type. -/
structure Ends (result : Except Fault Printed) (format : List Byte) : Prop where
  ok : Complete format → ∃ printed, result = .ok printed
  fault : ¬Complete format → result = .error .outOfString

theorem Ends.of_iff {result : Except Fault Printed}
    {format other : List Byte} (ends : Ends result other)
    (same : Complete format ↔ Complete other) : Ends result format :=
  ⟨fun complete => ends.ok (same.mp complete), fun incomplete =>
    ends.fault fun complete => incomplete (same.mpr complete)⟩

/-- One round of the loop on a directive. -/
theorem vdprintfLoop_percent (ocdev : Ocdev) (fuel : Nat) (rest : List Byte)
    (vlist : List (Argument arch)) (printed : Printed) :
    vdprintfLoop ocdev (fuel + 1) (.inside (byte '%' :: rest)) vlist printed =
        .error .badArgument ∨
      ∃ (remaining : List (Argument arch)) (more : Printed),
        vdprintfLoop ocdev (fuel + 1) (.inside (byte '%' :: rest)) vlist
            printed =
          vdprintfLoop ocdev fuel (Pointer.inside (fromSpecifier rest)).next
            remaining more := by
  have round : vdprintfLoop ocdev (fuel + 1) (.inside (byte '%' :: rest)) vlist
      printed =
      (do
        let spec ← parseFormatSpecifier (.inside (byte '%' :: rest)) vlist
        let more ← printDirective ocdev spec.1 spec.2.2
        vdprintfLoop ocdev fuel spec.2.1 more.2 (printed ++ more.1)) := rfl
  rw [round]
  rcases parseFormatSpecifier_inside (byte '%') rest vlist with
    bad | ⟨ans, remaining, -, parsed⟩
  · left
    rw [bad]
    rfl
  · have continued :
        (do
          let spec ← parseFormatSpecifier (.inside (byte '%' :: rest)) vlist
          let more ← printDirective ocdev spec.1 spec.2.2
          vdprintfLoop ocdev fuel spec.2.1 more.2 (printed ++ more.1)) =
        (do
          let more ← printDirective ocdev (pointerSpecifier arch ans) remaining
          vdprintfLoop ocdev fuel (Pointer.inside (fromSpecifier rest)).next
            more.2 (printed ++ more.1)) := by
      rw [parsed]
      rfl
    rw [continued]
    rcases printDirective_reads remaining with bad | ⟨more, prints⟩
    · left
      rw [bad]
      rfl
    · right
      rw [prints]
      exact ⟨_, _, rfl⟩

/-- One round of the loop on another character. -/
theorem vdprintfLoop_plain {head : Byte} (nonzero : head ≠ 0)
    (notPercent : head ≠ byte '%') (fuel : Nat) (rest : List Byte)
    (vlist : List (Argument arch)) (printed : Printed) :
    vdprintfLoop ocdev (fuel + 1) (.inside (head :: rest)) vlist printed =
      vdprintfLoop ocdev fuel (.inside rest) vlist (printed ++ putc head) := by
  rw [vdprintfLoop]
  change (if head = 0 then _ else if head = byte '%' then _ else _) = _
  rw [if_neg nonzero, if_neg notPercent]
  rfl

/-- The loop stops at the NUL unless a directive is cut off by it. -/
theorem vdprintfLoop_ends {fuel : Nat} {format : List Byte}
    (enough : format.length < fuel) (nonzero : (0 : Byte) ∉ format)
    (vlist : List (Argument arch)) (printed : Printed) :
    vdprintfLoop ocdev fuel (.inside format) vlist printed =
        .error .badArgument ∨
      Ends (vdprintfLoop ocdev fuel (.inside format) vlist printed) format := by
  induction fuel generalizing format vlist printed with
  | zero => exact absurd enough (Nat.not_lt_zero _)
  | succ fuel inductionHypothesis =>
      cases format with
      | nil =>
          exact .inr ⟨fun _ => ⟨printed, rfl⟩, fun incomplete =>
            absurd .empty incomplete⟩
      | cons head rest =>
          rw [List.length_cons] at enough
          rw [List.mem_cons, not_or] at nonzero
          obtain ⟨headNonzero, restNonzero⟩ := nonzero
          by_cases percent : head = byte '%'
          · rw [percent]
            rcases vdprintfLoop_percent ocdev fuel rest vlist
              printed with bad | ⟨remaining, more, round⟩
            · exact .inl bad
            rw [round]
            have suffix := fromSpecifier_suffix rest
            cases split : fromSpecifier rest with
            | nil =>
                have notComplete : ¬Complete (byte '%' :: rest) := by
                  rw [complete_directive_iff, split]
                  rintro ⟨specifier, next, isNil, -⟩
                  cases isNil
                obtain ⟨less, rfl⟩ : ∃ less, fuel = less + 1 :=
                  ⟨fuel - 1, by omega⟩
                exact .inr ⟨fun complete => absurd complete notComplete,
                  fun _ => rfl⟩
            | cons specifier next =>
                rw [split] at suffix
                have shorter := suffix.length_le
                rw [List.length_cons] at shorter
                have same : Complete (byte '%' :: rest) ↔ Complete next := by
                  rw [complete_directive_iff, split]
                  constructor
                  · rintro ⟨_, _, isCons, complete⟩
                    cases isCons
                    exact complete
                  · exact fun complete => ⟨specifier, next, rfl, complete⟩
                have others := inductionHypothesis
                  (show next.length < fuel by omega)
                  (fun member => restNonzero (suffix.mem
                    (List.mem_cons_of_mem _ member))) remaining more
                exact others.imp_right fun ends => ends.of_iff same
          · rw [vdprintfLoop_plain (Ne.symm headNonzero) percent]
            have others := inductionHypothesis
              (show rest.length < fuel by omega) restNonzero vlist
              (printed ++ putc head)
            exact others.imp_right fun ends =>
              ends.of_iff (complete_plain_iff percent)

end Loop

/-- With arguments of matching types, `vdprintf` ends at the NUL of its format
string if no directive is cut off by it, and reads beyond it otherwise. -/
theorem vdprintf_complete_iff (arch : Arch) (ocdev : Ocdev)
    (format : List Byte) (nonzero : (0 : Byte) ∉ format)
    (vlist : List (Argument arch)) (fuel : Nat) (enough : format.length < fuel)
    (matching : vdprintf ocdev fuel format vlist ≠ .error .badArgument) :
    ((∃ printed, vdprintf ocdev fuel format vlist = .ok printed) ↔
        Complete format) ∧
      (vdprintf ocdev fuel format vlist = .error .outOfString ↔
        ¬Complete format) := by
  rcases vdprintfLoop_ends enough nonzero vlist nothing with bad | ends
  · exact absurd bad matching
  · refine ⟨⟨?_, ends.ok⟩, ?_, ends.fault⟩
    · rintro ⟨printed, isOk⟩
      by_contra incomplete
      cases isOk.symm.trans (ends.fault incomplete)
    · intro isFault complete
      obtain ⟨printed, isOk⟩ := ends.ok complete
      cases isOk.symm.trans isFault

/-- A device that counts nothing. -/
def silentOcdev : Ocdev where
  puts _ := 0
  putns _ _ := 0

theorem vdprintf_complete_iff_small :
    ((∃ printed,
        vdprintf silentOcdev 4 [byte 'a', byte '%', byte 'd']
            ([.int 7] : List (Argument .x86_64)) = .ok printed) ↔
        Complete [byte 'a', byte '%', byte 'd']) ∧
      (vdprintf silentOcdev 4 [byte 'a', byte '%', byte 'd']
            ([.int 7] : List (Argument .x86_64)) = .error .outOfString ↔
        ¬Complete [byte 'a', byte '%', byte 'd']) :=
  vdprintf_complete_iff .x86_64 silentOcdev [byte 'a', byte '%', byte 'd']
    (by decide) [.int 7] 4 (by decide) (by decide)

/-- The string of one percent sign is left. -/
theorem percent_outOfString :
    (0 : Byte) ∉ [byte '%'] ∧
      vdprintf silentOcdev 2 [byte '%'] ([] : List (Argument .x86_64)) =
        .error .outOfString := by
  decide

end BeaverOS.Io

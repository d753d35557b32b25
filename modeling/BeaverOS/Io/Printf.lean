import Mathlib.Algebra.Order.Ring.Int

/-!
# Formatted output

`io/printf.c`. A pointer into a string is what is left of it, and to read beyond
the NUL is a fault. An output device is given by what its functions return, and
the bytes that are passed to it are the emitted text.
-/

namespace BeaverOS.Io

abbrev Byte := BitVec 8

/-- A character constant. -/
def byte (character : Char) : Byte := BitVec.ofNat 8 character.toNat

/-- The two architectures that the code is compiled for. -/
inductive Arch where
  | i386
  | x86_64
  deriving DecidableEq, Repr

/-- The bits of a `long int`. -/
def Arch.longBits : Arch → Nat
  | .i386 => 32
  | .x86_64 => 64

/-- `sizeof(void *)`. -/
def Arch.sizeofPointer : Arch → Nat
  | .i386 => 4
  | .x86_64 => 8

inductive Fault where
  | outOfString
  | badArgument
  | bufferOverflow
  | unfinished
  deriving DecidableEq, Repr

/-! ## Strings and arguments -/

/-- A pointer into a string whose NUL comes after the bytes that are left. -/
inductive Pointer where
  | inside (rest : List Byte)
  | beyond
  deriving DecidableEq, Repr

/-- `*format`. -/
def Pointer.deref : Pointer → Except Fault Byte
  | .inside [] => .ok 0
  | .inside (head :: _) => .ok head
  | .beyond => .error .outOfString

/-- `++format`. -/
def Pointer.next : Pointer → Pointer
  | .inside [] => .beyond
  | .inside (_ :: rest) => .inside rest
  | .beyond => .beyond

/-- An argument, with its type. -/
inductive Argument (arch : Arch) where
  | int (value : BitVec 32)
  | longInt (value : BitVec arch.longBits)
  | longLongInt (value : BitVec 64)
  | string (value : List Byte)
  deriving DecidableEq

section Arguments

variable {arch : Arch}

/-- `va_arg(vlist, int)`. -/
def vaInt : List (Argument arch) →
    Except Fault (BitVec 32 × List (Argument arch))
  | .int value :: vlist => .ok (value, vlist)
  | _ => .error .badArgument

/-- `va_arg(vlist, long int)`. -/
def vaLongInt : List (Argument arch) →
    Except Fault (BitVec arch.longBits × List (Argument arch))
  | .longInt value :: vlist => .ok (value, vlist)
  | _ => .error .badArgument

/-- `va_arg(vlist, long long int)`. -/
def vaLongLongInt : List (Argument arch) →
    Except Fault (BitVec 64 × List (Argument arch))
  | .longLongInt value :: vlist => .ok (value, vlist)
  | _ => .error .badArgument

/-- `va_arg(vlist, char *)`. -/
def vaString : List (Argument arch) →
    Except Fault (List Byte × List (Argument arch))
  | .string value :: vlist => .ok (value, vlist)
  | _ => .error .badArgument

end Arguments

/-! ## Format specifiers -/

def FLAG_PLUS : BitVec 8 := 1
def FLAG_MINUS : BitVec 8 := 2
def FLAG_SPACE : BitVec 8 := 4
def FLAG_SHARP : BitVec 8 := 8
def FLAG_ZERO : BitVec 8 := 16
def FLAG_PRECISION_SPECIFIED : BitVec 8 := 32

/-- The values of `LENGTH_*`. -/
inductive Length where
  | none
  | hh
  | h
  | l
  | ll
  deriving DecidableEq, Repr

/-- `printf_format_specifier_t`. -/
structure FormatSpecifier where
  flags : BitVec 8
  specifier : Byte
  width : BitVec 16
  precision : BitVec 16
  length : Length
  deriving DecidableEq, Repr

/-- `spec.flags & flag`, as a condition. -/
def FormatSpecifier.has (spec : FormatSpecifier) (flag : BitVec 8) : Bool :=
  spec.flags &&& flag != 0

def isDigit (character : Byte) : Bool :=
  byte '0' ≤ character && character ≤ byte '9'

/-- The loop of `atoi`. -/
def atoiLoop : List Byte → BitVec 16 → BitVec 16 × List Byte
  | [], ans => (ans, [])
  | head :: rest, ans =>
      if isDigit head then
        atoiLoop rest (ans * 10 + (head - byte '0').setWidth 16)
      else
        (ans, head :: rest)

/-- `atoi`, with the pointer that it leaves in `*str`. -/
def atoi : Pointer → Except Fault (BitVec 16 × Pointer)
  | .inside rest =>
      let result := atoiLoop rest 0
      .ok (result.1, .inside result.2)
  | .beyond => .error .outOfString

/-- The cases of the switch over flags. -/
def flagOf (character : Byte) : Option (BitVec 8) :=
  if character = byte '-' then some FLAG_MINUS
  else if character = byte '+' then some FLAG_PLUS
  else if character = byte ' ' then some FLAG_SPACE
  else if character = byte '#' then some FLAG_SHARP
  else if character = byte '0' then some FLAG_ZERO
  else none

/-- The loop over the flags, after its first `++format`. -/
def flagLoop : List Byte → BitVec 8 → BitVec 8 × List Byte
  | [], flags => (flags, [])
  | head :: rest, flags =>
      match flagOf head with
      | some flag => flagLoop rest (flags ||| flag)
      | none => (flags, head :: rest)

/-- The flags. -/
def parseFlags (format : Pointer) : Except Fault (BitVec 8 × Pointer) :=
  match format.next with
  | .inside rest =>
      let result := flagLoop rest 0
      .ok (result.1, .inside result.2)
  | .beyond => .error .outOfString

section Parser

variable {arch : Arch}

/-- The width, or the precision after its dot. -/
def parseNumber (format : Pointer) (vlist : List (Argument arch)) :
    Except Fault (BitVec 16 × Pointer × List (Argument arch)) := do
  if (← format.deref) = byte '*' then
    let argument ← vaInt vlist
    return (argument.1.setWidth 16, format.next, argument.2)
  else
    let number ← atoi format
    return (number.1, number.2, vlist)

/-- The precision and the flag for it. -/
def parsePrecision (format : Pointer) (vlist : List (Argument arch)) :
    Except Fault
      ((BitVec 16 × BitVec 8) × Pointer × List (Argument arch)) := do
  if (← format.deref) = byte '.' then
    let number ← parseNumber format.next vlist
    return ((number.1, FLAG_PRECISION_SPECIFIED), number.2)
  else
    return ((0, 0), format, vlist)

/-- The length modifier. -/
def parseLength (format : Pointer) : Except Fault (Length × Pointer) := do
  let first ← format.deref
  if first = byte 'h' then
    if (← format.next.deref) = byte 'h' then
      return (.hh, format.next.next)
    else
      return (.h, format.next)
  else if first = byte 'l' then
    if (← format.next.deref) = byte 'l' then
      return (.ll, format.next.next)
    else
      return (.l, format.next)
  else if first = byte 'j' then
    return (.ll, format.next)
  else if first = byte 'z' ∨ first = byte 't' then
    return (.l, format.next)
  else
    return (.none, format)

variable (arch) in
/-- The case of `%p`. -/
def pointerSpecifier (ans : FormatSpecifier) : FormatSpecifier :=
  if ans.specifier = byte 'p' then
    { flags := ans.flags ||| FLAG_PRECISION_SPECIFIED
      specifier := byte 'x'
      width := 0
      precision := BitVec.ofNat 16 (arch.sizeofPointer * 2)
      length := .l }
  else
    ans

/-- `parse_format_specifier`, with the pointer that it leaves in `*format_ptr`
and the arguments that are left. -/
def parseFormatSpecifier (format : Pointer) (vlist : List (Argument arch)) :
    Except Fault (FormatSpecifier × Pointer × List (Argument arch)) := do
  let flags ← parseFlags format
  let width ← parseNumber flags.2 vlist
  let precision ← parsePrecision width.2.1 width.2.2
  let length ← parseLength precision.2.1
  let specifier ← length.2.deref
  let ans : FormatSpecifier :=
    { flags := flags.1 ||| precision.1.2
      specifier := specifier
      width := width.1
      precision := precision.1.1
      length := length.1 }
  return (pointerSpecifier arch ans, length.2.next, precision.2.2)

end Parser

/-! ## Output -/

/-- What the functions of an `ocdev_t` return for the bytes they are given. -/
structure Ocdev where
  puts : List Byte → Int
  putns : List Byte → Nat → Int

/-- The emitted text, and the value of `ret`. -/
structure Printed where
  text : List Byte
  ret : Int
  deriving DecidableEq

instance : Append Printed where
  append first second :=
    { text := first.text ++ second.text
      ret := first.ret + second.ret }

def nothing : Printed where
  text := []
  ret := 0

/-- `ocdev.putc(character); ++ret`. -/
def putc (character : Byte) : Printed where
  text := [character]
  ret := 1

/-- `putc` for `i` from `start`, while `i < stop`. -/
def putcLoop (character : Byte) (start stop : Nat) : Printed where
  text := List.replicate (stop - start) character
  ret := (stop - start : Nat)

/-! ## Integers -/

/-- An integer type. -/
structure CType where
  signed : Bool
  bits : Nat

/-- The conversion to a type. The negation of the least `int` or `long int` is
undefined in C; the processor's wraps, as the conversion to `char` does. -/
def CType.wrap (type : CType) (value : Int) : Int :=
  if type.signed then (BitVec.ofInt type.bits value).toInt
  else (BitVec.ofInt type.bits value).toNat

/-- `DIGITS`. -/
def digitTable (uppercase : Bool) : List Byte :=
  (if uppercase then
    ['0', '1', '2', '3', '4', '5', '6', '7', '8', '9', 'A', 'B', 'C', 'D', 'E',
      'F']
  else
    ['0', '1', '2', '3', '4', '5', '6', '7', '8', '9', 'a', 'b', 'c', 'd', 'e',
      'f']).map byte

def BUF_SIZE : Nat := 25

/-- The digit loop, with the room that is left in the buffer. -/
def digitLoop (digits : List Byte) (base : Int) :
    Nat → Int → List Byte → Except Fault (List Byte)
  | 0, d, written => if 0 < d then .error .bufferOverflow else .ok written
  | room + 1, d, written =>
      if 0 < d then
        digitLoop digits base room (d / base)
          (digits.getD (d % base).toNat 0 :: written)
      else
        .ok written

/-- The character `sign_c`, where it is not NUL. -/
def signCharacter (signCheck : Bool) (spec : FormatSpecifier) (d : Int) :
    Option Byte :=
  if signCheck && decide (d < 0) then some (byte '-')
  else if spec.has FLAG_PLUS then some (byte '+')
  else if spec.has FLAG_SPACE then some (byte ' ')
  else none

/-- The fields that `INTEGER_PRINTER` prints, one after another. -/
def printFields (ocdev : Ocdev) (spec : FormatSpecifier)
    (signC : Option Byte) (pref written : List Byte) : Printed :=
  let prefixLen := if spec.has FLAG_SHARP then pref.length else 0
  let precision :=
    if spec.has FLAG_PRECISION_SPECIFIED then spec.precision.toNat else 1
  let digits := written.length
  let nonSpaceCharacters :=
    signC.toList.length + max precision digits + prefixLen
  let widthPadder := if spec.has FLAG_ZERO then byte '0' else byte ' '
  (if spec.has FLAG_MINUS then nothing
    else putcLoop widthPadder nonSpaceCharacters spec.width.toNat) ++
  (match signC with
    | some character => putc character
    | none => nothing) ++
  { text := pref.take prefixLen, ret := prefixLen } ++
  putcLoop (byte '0') digits precision ++
  { text := written, ret := ocdev.puts written } ++
  (if spec.has FLAG_MINUS then
    putcLoop (byte ' ') nonSpaceCharacters spec.width.toNat
  else nothing)

/-- `INTEGER_PRINTER`. -/
def integerPrinter (type : CType) (base : Nat) (pref : List Byte)
    (uppercase signCheck : Bool) (ocdev : Ocdev) (spec : FormatSpecifier)
    (d : Int) : Except Fault Printed := do
  let signC := signCharacter signCheck spec d
  let d := if signCheck && decide (d < 0) then type.wrap (-d) else d
  let written ← digitLoop (digitTable uppercase) base (BUF_SIZE - 1) d []
  return printFields ocdev spec signC pref written

/-- The printers that one use of `GEN_PRINTERS` makes: one for each width. -/
def genPrinters (base : Nat) (signed : Bool) (pref : List Char)
    (uppercase signCheck : Bool) (bits : Nat) (ocdev : Ocdev)
    (spec : FormatSpecifier) (value : Int) : Except Fault Printed :=
  let type : CType := { signed := signed, bits := bits }
  integerPrinter type base (pref.map byte) uppercase signCheck ocdev spec
    (type.wrap value)

/-- `print_s_*`. -/
def printS := genPrinters 10 true [] false true

/-- `print_u_*`. -/
def printU := genPrinters 10 false [] false false

/-- `print_o_*`. -/
def printO := genPrinters 8 false ['0'] false false

/-- `print_h_*`. -/
def printH := genPrinters 16 false ['0', 'x'] false false

/-- `print_H_*`. -/
def printUpperH := genPrinters 16 false ['0', 'X'] true false

section Subroutines

variable {arch : Arch}

/-- `GEN_SUBROUTINE`. -/
def genSubroutine
    (printer : Nat → Ocdev → FormatSpecifier → Int → Except Fault Printed)
    (ocdev : Ocdev) (spec : FormatSpecifier) (vlist : List (Argument arch)) :
    Except Fault (Printed × List (Argument arch)) := do
  match spec.length with
  | .none =>
      let argument ← vaInt vlist
      let printed ← printer 32 ocdev spec argument.1.toInt
      return (printed, argument.2)
  | .hh =>
      let argument ← vaInt vlist
      let printed ← printer 8 ocdev spec argument.1.toInt
      return (printed, argument.2)
  | .h =>
      let argument ← vaInt vlist
      let printed ← printer 16 ocdev spec argument.1.toInt
      return (printed, argument.2)
  | .l =>
      let argument ← vaLongInt vlist
      let printed ← printer arch.longBits ocdev spec argument.1.toInt
      return (printed, argument.2)
  | .ll =>
      let argument ← vaLongLongInt vlist
      let printed ← printer 64 ocdev spec argument.1.toInt
      return (printed, argument.2)

/-- `printf_subroutine_d`, and its alias `printf_subroutine_i`. -/
def printfSubroutineD (ocdev : Ocdev) (spec : FormatSpecifier)
    (vlist : List (Argument arch)) :
    Except Fault (Printed × List (Argument arch)) :=
  genSubroutine printS ocdev spec vlist

/-- `printf_subroutine_u`. -/
def printfSubroutineU (ocdev : Ocdev) (spec : FormatSpecifier)
    (vlist : List (Argument arch)) :
    Except Fault (Printed × List (Argument arch)) :=
  genSubroutine printU ocdev spec vlist

/-- `printf_subroutine_o`. -/
def printfSubroutineO (ocdev : Ocdev) (spec : FormatSpecifier)
    (vlist : List (Argument arch)) :
    Except Fault (Printed × List (Argument arch)) :=
  genSubroutine printO ocdev spec vlist

/-- `printf_subroutine_x`. -/
def printfSubroutineX (ocdev : Ocdev) (spec : FormatSpecifier)
    (vlist : List (Argument arch)) :
    Except Fault (Printed × List (Argument arch)) :=
  genSubroutine printH ocdev spec vlist

/-- `printf_subroutine_X`. -/
def printfSubroutineUpperX (ocdev : Ocdev) (spec : FormatSpecifier)
    (vlist : List (Argument arch)) :
    Except Fault (Printed × List (Argument arch)) :=
  genSubroutine printUpperH ocdev spec vlist

/-- `printf_subroutine_s`. -/
def printfSubroutineS (ocdev : Ocdev) (spec : FormatSpecifier)
    (vlist : List (Argument arch)) :
    Except Fault (Printed × List (Argument arch)) := do
  let argument ← vaString vlist
  let len := argument.1.length % 2 ^ 32
  let chars :=
    if spec.has FLAG_PRECISION_SPECIFIED then min len spec.precision.toNat
    else len
  let spaces := putcLoop (byte ' ') chars spec.width.toNat
  let printed : Printed :=
    { text := argument.1.take chars, ret := ocdev.putns argument.1 chars }
  if spec.has FLAG_MINUS then
    return (printed ++ spaces, argument.2)
  else
    return (spaces ++ printed, argument.2)

/-! ## The format string -/

/-- The switch of `vdprintf` over `spec.specifier`. -/
def printDirective (ocdev : Ocdev) (spec : FormatSpecifier)
    (vlist : List (Argument arch)) :
    Except Fault (Printed × List (Argument arch)) := do
  if spec.specifier = byte 'd' ∨ spec.specifier = byte 'i' then
    printfSubroutineD ocdev spec vlist
  else if spec.specifier = byte 'u' then
    printfSubroutineU ocdev spec vlist
  else if spec.specifier = byte 'o' then
    printfSubroutineO ocdev spec vlist
  else if spec.specifier = byte 'x' then
    printfSubroutineX ocdev spec vlist
  else if spec.specifier = byte 'X' then
    printfSubroutineUpperX ocdev spec vlist
  else if spec.specifier = byte 's' then
    printfSubroutineS ocdev spec vlist
  else if spec.specifier = byte 'c' then
    let argument ← vaInt vlist
    return (putc (argument.1.setWidth 8), argument.2)
  else if spec.specifier = byte '%' then
    return (putc (byte '%'), vlist)
  else
    return (nothing, vlist)

/-- The loop of `vdprintf`, for at most `fuel` rounds. -/
def vdprintfLoop (ocdev : Ocdev) :
    Nat → Pointer → List (Argument arch) → Printed → Except Fault Printed
  | 0, _, _, _ => .error .unfinished
  | fuel + 1, format, vlist, printed => do
      let character ← format.deref
      if character = 0 then
        return printed
      else if character = byte '%' then
        let spec ← parseFormatSpecifier format vlist
        let directive ← printDirective ocdev spec.1 spec.2.2
        vdprintfLoop ocdev fuel spec.2.1 directive.2 (printed ++ directive.1)
      else
        vdprintfLoop ocdev fuel format.next vlist (printed ++ putc character)

/-- `vdprintf`. -/
def vdprintf (ocdev : Ocdev) (fuel : Nat) (format : List Byte)
    (vlist : List (Argument arch)) : Except Fault Printed :=
  vdprintfLoop ocdev fuel (.inside format) vlist nothing

end Subroutines

end BeaverOS.Io

import Mathlib.Logic.Function.Basic
import BeaverOS.Lib.Loop

/-!
# The text screen

`io/vga.c`. The buffer can be accessed below `vga_width * vga_height` only; an
index beyond is a fault. A `char` is signed, as it is on this processor, and a
string is the list of its bytes, with a NUL after the last one.
-/

namespace BeaverOS.Screen

open BeaverOS.Loop

/-- A cell of the buffer. -/
abbrev Cell := BitVec 16

/-- The variables of `vga.c`, and the cursor location registers (14 and 15) of
the display controller. -/
structure Vga where
  vgaBuffer : Nat → Cell
  vgaWidth : BitVec 16
  vgaHeight : BitVec 16
  vgaX : BitVec 16
  vgaY : BitVec 16
  vgaColor : BitVec 8
  cursor : BitVec 16

inductive Stop where
  | outOfBounds
  | unfinished
  deriving DecidableEq, Repr

/-- A read of `vga_buffer[index]`. -/
def load (vga : Vga) (index : Nat) : Except Stop Cell :=
  if index < vga.vgaWidth.toNat * vga.vgaHeight.toNat then
    .ok (vga.vgaBuffer index)
  else
    .error .outOfBounds

/-- `vga_buffer[index] = cell`. -/
def store (vga : Vga) (index : Nat) (cell : Cell) : Except Stop Vga :=
  if index < vga.vgaWidth.toNat * vga.vgaHeight.toNat then
    .ok { vga with vgaBuffer := Function.update vga.vgaBuffer index cell }
  else
    .error .outOfBounds

/-- The index `vga_x + vga_width * vga_y`. -/
def position (vga : Vga) : Nat :=
  vga.vgaX.toNat + vga.vgaWidth.toNat * vga.vgaY.toNat

/-- `vga_update_cursor`: the two bytes of the index, which is cut to 16 bits. -/
def vgaUpdateCursor (vga : Vga) : Vga :=
  { vga with cursor := BitVec.ofNat 16 (position vga) }

/-- The local variable `blank`. -/
def blankCell (vga : Vga) : Cell :=
  vga.vgaColor.setWidth 16 <<< 8 ||| 0x20

/-- The inner loop of `vga_scroll` that copies a row. -/
def copyRow (yTo yFrom : Nat) (vga : Vga) : Except Stop Vga :=
  forLoop 0 vga.vgaWidth.toNat
    (fun x vga => do
      let cell ← load vga (vga.vgaWidth.toNat * yFrom + x)
      store vga (vga.vgaWidth.toNat * yTo + x) cell)
    vga

/-- The inner loop of `vga_scroll` that blanks a row. -/
def blankRow (blank : Cell) (yTo : Nat) (vga : Vga) : Except Stop Vga :=
  forLoop 0 vga.vgaWidth.toNat
    (fun x vga => store vga (vga.vgaWidth.toNat * yTo + x) blank) vga

/-- `vga_scroll`. The loop variables stay below `vga_height`, so they do not
overflow. -/
def vgaScroll (vga : Vga) : Except Stop Vga := do
  let blank := blankCell vga
  let vga ←
    if vga.vgaHeight ≤ vga.vgaY then do
      let yFrom := (vga.vgaY - vga.vgaHeight + 1).toNat
      let yTo := vga.vgaHeight.toNat - yFrom
      let vga ← forLoop 0 yTo (fun y => copyRow y (yFrom + y)) vga
      let vga := { vga with vgaX := 0, vgaY := BitVec.ofNat 16 yTo }
      forLoop yTo vga.vgaHeight.toNat (blankRow blank) vga
    else
      pure vga
  return vgaUpdateCursor vga

/-- The end of `vga_putc`, after its branches. -/
def putcEnd (vga : Vga) : Except Stop Vga := do
  let vga :=
    if vga.vgaX ≥ vga.vgaWidth then { vga with vgaX := 0, vgaY := vga.vgaY + 1 }
    else vga
  let vga ← vgaScroll vga
  return vgaUpdateCursor vga

/-- `vga_putc`, with the loop of the branch for `\t` as a parameter. -/
def putcWith (tab : Vga → Except Stop Vga) (vga : Vga) (c : BitVec 8) :
    Except Stop Vga := do
  let vga ←
    if c = 0x08 then
      pure (if vga.vgaX > 0 then { vga with vgaX := vga.vgaX - 1 } else vga)
    else if c = 0x09 then
      tab vga
    else if c = 0x0d then
      pure { vga with vgaX := 0 }
    else if c = 0x0a then
      pure { vga with vgaX := 0, vgaY := vga.vgaY + 1 }
    else if (0x20#8).sle c then do
      let vga ← store vga (position vga)
        (c.signExtend 16 ||| vga.vgaColor.setWidth 16 <<< 8)
      pure { vga with vgaX := vga.vgaX + 1 }
    else
      pure vga
  putcEnd vga

/-- `vga_putc(' ')`, which does not come to the branch for `\t`. -/
def putSpace (vga : Vga) : Except Stop Vga :=
  putcWith (fun _ => .error .unfinished) vga 0x20

/-- `do { vga_putc(' '); } while (vga_x & 7)`. -/
def putTab : Nat → Vga → Except Stop Vga
  | 0, _ => .error .unfinished
  | fuel + 1, vga => do
      let vga ← putSpace vga
      if vga.vgaX &&& 7 ≠ 0 then putTab fuel vga else return vga

/-- `vga_putc`. The loop has as many rounds as `vga_x` has values. -/
def vgaPutc (vga : Vga) (c : BitVec 8) : Except Stop Vga :=
  putcWith (putTab 65536) vga c

/-- `vga_clear`. -/
def vgaClear (vga : Vga) : Except Stop Vga := do
  let blank := blankCell vga
  let vga ← forLoop 0 (vga.vgaWidth.toNat * vga.vgaHeight.toNat)
    (fun i vga => store vga i blank) vga
  return vgaUpdateCursor { vga with vgaX := 0, vgaY := 0 }

/-- `vga_puts`, with the number of bytes so far. -/
def vgaPuts (vga : Vga) (ret : BitVec 32) :
    List (BitVec 8) → Except Stop (BitVec 32 × Vga)
  | [] => return (ret, vga)
  | c :: str =>
      if c ≠ 0 then do
        let vga ← vgaPutc vga c
        vgaPuts vga (ret + 1) str
      else
        return (ret, vga)

/-- `vga_putns`, with the number of bytes so far. -/
def vgaPutns (vga : Vga) (ret : BitVec 32) (length : BitVec 64) :
    List (BitVec 8) → Except Stop (BitVec 32 × Vga)
  | [] => return (ret, vga)
  | c :: str =>
      if c ≠ 0 ∧ length ≠ 0 then do
        let vga ← vgaPutc vga c
        vgaPutns vga (ret + 1) (length - 1) str
      else
        return (ret, vga)

/-- `vga_move_cursor`. -/
def vgaMoveCursor (vga : Vga) (x y : BitVec 16) : Vga :=
  vgaUpdateCursor { vga with vgaX := x, vgaY := y }

/-- `vga_set_color`. -/
def vgaSetColor (vga : Vga) (color : BitVec 8) : Vga :=
  { vga with vgaColor := color }

/-- `vga_set_foreground`. -/
def vgaSetForeground (vga : Vga) (color : BitVec 8) : Vga :=
  { vga with vgaColor := vga.vgaColor &&& 0xf0 ||| color }

/-- `vga_set_background`. -/
def vgaSetBackground (vga : Vga) (color : BitVec 8) : Vga :=
  { vga with vgaColor := vga.vgaColor &&& 0x0f ||| color <<< 4 }

/-- `vga_init`, on a buffer with some contents. -/
def vgaInit (vga : Vga) : Except Stop Vga := do
  let vga := { vga with vgaWidth := 80, vgaHeight := 25 }
  let vga ← vgaClear (vgaSetColor vga 0x0f)
  return vgaMoveCursor vga 0 0

/-- The calls that draw. -/
inductive Call where
  | putc (c : BitVec 8)
  | puts (str : List (BitVec 8))
  | putns (str : List (BitVec 8)) (length : BitVec 64)
  | clear
  | setColor (color : BitVec 8)
  | setForeground (color : BitVec 8)
  | setBackground (color : BitVec 8)

def perform (vga : Vga) : Call → Except Stop Vga
  | .putc c => vgaPutc vga c
  | .puts str => do return (← vgaPuts vga 0 str).2
  | .putns str length => do return (← vgaPutns vga 0 length str).2
  | .clear => vgaClear vga
  | .setColor color => return vgaSetColor vga color
  | .setForeground color => return vgaSetForeground vga color
  | .setBackground color => return vgaSetBackground vga color

/-- `vga_init`, and then these calls. -/
def performAll (vga : Vga) (calls : List Call) : Except Stop Vga := do
  calls.foldlM perform (← vgaInit vga)

end BeaverOS.Screen

import Mathlib.Algebra.GroupWithZero.Nat
import Mathlib.Logic.Function.Basic
import Mathlib.Logic.Function.Iterate

/-!
# An unbounded terminal

A terminal that never forgets: it has a fixed number of columns, and as many
rows as were needed so far. The last `height` rows are the ones on the screen,
and the cursor is always on one of them.
-/

namespace BeaverOS.Text

universe u v

/-- A cell is a character in a color, and `cells row column` is what was stored
there. -/
structure Terminal (width height : Nat) (Symbol : Type u) (Color : Type v) where
  cells : Nat → Nat → Symbol × Color
  rows : Nat
  row : Nat
  column : Nat
  color : Color
  row_lt : row < rows
  column_lt : column < width
  height_le : height ≤ rows
  row_visible : rows ≤ row + height

namespace Terminal

variable {width height : Nat} {Symbol : Type u} {Color : Type v}

/-- A terminal with `height` blank rows. -/
def blank [NeZero width] [NeZero height] (space : Symbol) (color : Color) :
    Terminal width height Symbol Color where
  cells := fun _ _ => (space, color)
  rows := height
  row := 0
  column := 0
  color := color
  row_lt := Nat.pos_of_ne_zero (NeZero.ne height)
  column_lt := Nat.pos_of_ne_zero (NeZero.ne width)
  height_le := Nat.le_refl height
  row_visible := Nat.le_add_left height 0

variable (terminal : Terminal width height Symbol Color)

/-- The row of the screen with the number `y`. -/
def screen (y : Nat) : Nat → Symbol × Color :=
  terminal.cells (terminal.rows - height + y)

/-- The cursor goes to another column. -/
def goto (column : Nat) (column_lt : column < width) :
    Terminal width height Symbol Color :=
  { terminal with column := column, column_lt := column_lt }

def home : Terminal width height Symbol Color :=
  terminal.goto 0 (Nat.zero_lt_of_lt terminal.column_lt)

def back : Terminal width height Symbol Color :=
  terminal.goto (terminal.column - 1)
    (Nat.lt_of_le_of_lt (Nat.sub_le _ _) terminal.column_lt)

/-- The cursor goes to the start of the next row, and if there is none, a blank
one is appended. -/
def newline (space : Symbol) : Terminal width height Symbol Color :=
  if more : terminal.row + 1 < terminal.rows then
    { terminal.home with
      row := terminal.row + 1
      row_lt := more
      row_visible :=
        Nat.le_trans terminal.row_visible
          (Nat.add_le_add_right (Nat.le_succ _) height) }
  else
    { terminal.home with
      cells := Function.update terminal.cells terminal.rows
        fun _ => (space, terminal.color)
      rows := terminal.rows + 1
      row := terminal.rows
      row_lt := Nat.lt_succ_self _
      height_le := Nat.le_succ_of_le terminal.height_le
      row_visible := by
        have visible := terminal.row_visible
        have above := terminal.row_lt
        have known := terminal.height_le
        change terminal.rows + 1 ≤ terminal.rows + height
        omega }

/-- A character is stored at the cursor, in the current color. -/
def store (symbol : Symbol) : Terminal width height Symbol Color :=
  { terminal with
    cells := Function.update terminal.cells terminal.row
      (Function.update (terminal.cells terminal.row) terminal.column
        (symbol, terminal.color)) }

/-- A character is stored, and the cursor moves on. -/
def write (space symbol : Symbol) : Terminal width height Symbol Color :=
  if more : terminal.column + 1 < width then
    (terminal.store symbol).goto (terminal.column + 1) more
  else
    (terminal.store symbol).newline space

theorem newline_column (space : Symbol) :
    (terminal.newline space).column = 0 := by
  rw [newline]
  split <;> rfl

theorem write_column (space symbol : Symbol) :
    (terminal.write space symbol).column =
      if terminal.column + 1 < width then terminal.column + 1 else 0 := by
  rw [write]
  split
  · rfl
  · exact newline_column _ space

/-- Spaces up to the next column that is a multiple of `stop`. -/
def tab (space : Symbol) (stop : Nat) : Terminal width height Symbol Color :=
  (fun terminal => terminal.write space space)^[stop - terminal.column % stop]
    terminal

def setColor (color : Color) : Terminal width height Symbol Color :=
  { terminal with color := color }

end Terminal

end BeaverOS.Text

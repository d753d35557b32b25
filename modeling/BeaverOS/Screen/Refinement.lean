import BeaverOS.Lib.Terminal
import BeaverOS.Screen.Vga

/-!
# The text screen shows a terminal

The screen has 25 rows, and what it shows are the last 25 rows of a terminal
that never forgets. The two are related by `Refines`, which every call keeps.
-/

namespace BeaverOS.Screen

open BeaverOS.Loop
open BeaverOS.Text

/-- The terminal that the screen shows, with bytes for characters and
attributes. -/
abbrev Tty := Terminal 80 25 (BitVec 8) (BitVec 8)

/-! ## The calls on the terminal -/

/-- The characters that are stored: no control characters, and no bytes beyond
ASCII. -/
def Printable (c : BitVec 8) : Prop :=
  0x20 ≤ c.toNat ∧ c.toNat < 0x80

instance (c : BitVec 8) : Decidable (Printable c) :=
  inferInstanceAs (Decidable (_ ∧ _))

/-- A byte sent to the terminal. -/
def ttyPutc (tty : Tty) (c : BitVec 8) : Tty :=
  if c = 0x08 then tty.back
  else if c = 0x09 then tty.tab 0x20 8
  else if c = 0x0d then tty.home
  else if c = 0x0a then tty.newline 0x20
  else if Printable c then tty.write 0x20 c
  else tty

/-- The bytes of a string up to its end. -/
def untilNul (str : List (BitVec 8)) : List (BitVec 8) :=
  str.takeWhile (· ≠ 0)

/-- A call on the terminal; `vga_clear` starts it again. -/
def ttyPerform (tty : Tty) : Call → Tty
  | .putc c => ttyPutc tty c
  | .puts str => (untilNul str).foldl ttyPutc tty
  | .putns str length => ((untilNul str).take length.toNat).foldl ttyPutc tty
  | .clear => Terminal.blank 0x20 tty.color
  | .setColor color => tty.setColor color
  | .setForeground color => tty.setColor (tty.color &&& 0xf0 ||| color)
  | .setBackground color => tty.setColor (tty.color &&& 0x0f ||| color <<< 4)

/-! ## The relation -/

/-- The word for a character in a color. -/
def encode (cell : BitVec 8 × BitVec 8) : Cell :=
  cell.2 ++ cell.1

/-- The screen shows the terminal, and its row is the one of the cursor. -/
structure Shows (vga : Vga) (tty : Tty) : Prop where
  width : vga.vgaWidth = 80
  height : vga.vgaHeight = 25
  row : tty.rows + vga.vgaY.toNat = tty.row + 25
  color : vga.vgaColor = tty.color
  cells :
    ∀ y < 25, ∀ x < 80, vga.vgaBuffer (80 * y + x) = encode (tty.screen y x)

/-- The screen shows the terminal, with the cursors at the same place. -/
structure Refines (vga : Vga) (tty : Tty) : Prop extends Shows vga tty where
  column : vga.vgaX.toNat = tty.column
  cursor : vga.cursor.toNat = 80 * vga.vgaY.toNat + vga.vgaX.toNat

section Screen

variable {vga : Vga} {tty : Tty} {index : Nat} {cell blank : Cell}
  {c : BitVec 8}

theorem encode_eq_or (symbol color : BitVec 8) :
    encode (symbol, color) =
      symbol.setWidth 16 ||| color.setWidth 16 <<< 8 := by
  apply BitVec.eq_of_getLsbD_eq
  intro i bound
  simp only [encode, BitVec.getLsbD_append, BitVec.getLsbD_or,
    BitVec.getLsbD_setWidth, BitVec.getLsbD_shiftLeft]
  by_cases low : i < 8
  · simp [low, bound]
  · have none : symbol.getLsbD i = false :=
      BitVec.getLsbD_of_ge _ _ (Nat.le_of_not_lt low)
    simp [low, bound, none]
    omega

theorem blankCell_eq (vga : Vga) :
    blankCell vga = encode (0x20, vga.vgaColor) := by
  rw [encode_eq_or, BitVec.or_comm, blankCell]
  rfl

/-- The screen with other cells. -/
def withBuffer (vga : Vga) (buffer : Nat → Cell) : Vga :=
  { vga with vgaBuffer := buffer }

theorem columns_withBuffer {buffer : Nat → Cell} (width : vga.vgaWidth = 80) :
    (withBuffer vga buffer).vgaWidth.toNat = 80 := by
  rw [withBuffer, width]
  rfl

theorem size_withBuffer {buffer : Nat → Cell} (width : vga.vgaWidth = 80)
    (height : vga.vgaHeight = 25) :
    (withBuffer vga buffer).vgaWidth.toNat *
      (withBuffer vga buffer).vgaHeight.toNat = 2000 := by
  rw [columns_withBuffer width, withBuffer, height]
  rfl

theorem load_withBuffer {buffer : Nat → Cell} (width : vga.vgaWidth = 80)
    (height : vga.vgaHeight = 25) (bound : index < 2000) :
    load (withBuffer vga buffer) index = .ok (buffer index) := by
  rw [load, size_withBuffer width height, if_pos bound]
  rfl

theorem store_withBuffer {buffer : Nat → Cell} (width : vga.vgaWidth = 80)
    (height : vga.vgaHeight = 25) (bound : index < 2000) :
    store (withBuffer vga buffer) index cell =
      .ok (withBuffer vga (Function.update buffer index cell)) := by
  rw [store, size_withBuffer width height, if_pos bound]
  rfl

/-- The signed comparison of `vga_putc` excludes the bytes beyond ASCII. -/
theorem sle_iff_printable : (0x20#8).sle c = true ↔ Printable c := by
  have bound := c.isLt
  simp only [BitVec.sle_eq_decide, decide_eq_true_eq,
    BitVec.toInt_eq_toNat_cond, Printable]
  simp
  split <;> omega

/-! ## Scrolling -/

/-- The cells from `start` to `stop` have moved up by one row. -/
def movedUp (buffer : Nat → Cell) (stop : Nat) : Nat → Cell :=
  fun index => if index < stop then buffer (index + 80) else buffer index

/-- The cells from `start` to `stop` are blank. -/
def blanked (buffer : Nat → Cell) (blank : Cell) (start stop : Nat) :
    Nat → Cell :=
  fun index =>
    if start ≤ index ∧ index < stop then blank else buffer index

theorem update_movedUp (buffer : Nat → Cell) (stop : Nat) :
    Function.update (movedUp buffer stop) stop (buffer (stop + 80)) =
      movedUp buffer (stop + 1) := by
  funext index
  by_cases same : index = stop
  · subst same
    rw [Function.update_self, movedUp, if_pos (Nat.lt_succ_self index)]
  · rw [Function.update_of_ne same, movedUp, movedUp]
    congr 1
    exact propext (by omega)

theorem update_blanked {start stop : Nat} (buffer : Nat → Cell) (blank : Cell)
    (bound : start ≤ stop) :
    Function.update (blanked buffer blank start stop) stop blank =
      blanked buffer blank start (stop + 1) := by
  funext index
  by_cases same : index = stop
  · subst same
    rw [Function.update_self, blanked,
      if_pos ⟨bound, Nat.lt_succ_self index⟩]
  · rw [Function.update_of_ne same, blanked, blanked]
    congr 1
    exact propext (by omega)

theorem copyRow_ok {buffer : Nat → Cell} {y : Nat}
    (width : vga.vgaWidth = 80) (height : vga.vgaHeight = 25) (bound : y < 24) :
    copyRow y (1 + y) (withBuffer vga (movedUp buffer (80 * y))) =
      .ok (withBuffer vga (movedUp buffer (80 * (y + 1)))) := by
  rw [copyRow, columns_withBuffer width]
  refine forLoop_states
    (fun x => withBuffer vga (movedUp buffer (80 * y + x))) (Nat.zero_le 80) ?_
  intro x _ inRow
  have source : 80 * (1 + y) + x = 80 * y + x + 80 := by omega
  have inside : 80 * y + x + 80 < 2000 := by omega
  have unmoved : movedUp buffer (80 * y + x) (80 * y + x + 80) =
      buffer (80 * y + x + 80) :=
    if_neg (by omega)
  rw [columns_withBuffer width, source, load_withBuffer width height inside,
    unmoved]
  refine (store_withBuffer width height (by omega)).trans ?_
  rw [update_movedUp]
  rfl

theorem blankRow_ok {buffer : Nat → Cell} {y first : Nat}
    (width : vga.vgaWidth = 80) (height : vga.vgaHeight = 25) (bound : y < 25)
    (above : first ≤ y) :
    blankRow blank y
        (withBuffer vga (blanked buffer blank (80 * first) (80 * y))) =
      .ok (withBuffer vga
        (blanked buffer blank (80 * first) (80 * (y + 1)))) := by
  rw [blankRow, columns_withBuffer width]
  refine forLoop_states
    (fun x => withBuffer vga
      (blanked buffer blank (80 * first) (80 * y + x))) (Nat.zero_le 80) ?_
  intro x _ inRow
  have inside : 80 * y + x < 2000 := by omega
  rw [columns_withBuffer width, store_withBuffer width height inside,
    update_blanked _ _ (by omega)]
  rfl

/-- The cells after the screen has scrolled. -/
def scrolled (buffer : Nat → Cell) (blank : Cell) : Nat → Cell :=
  blanked (movedUp buffer 1920) blank 1920 2000

/-- With the cursor below the last row, all rows move up. -/
theorem vgaScroll_below (width : vga.vgaWidth = 80) (height : vga.vgaHeight = 25)
    (below : vga.vgaY = 25) :
    vgaScroll vga =
      .ok { vga with
        vgaBuffer := scrolled vga.vgaBuffer (blankCell vga)
        vgaX := 0
        vgaY := 24
        cursor := 1920 } := by
  have copied : forLoop 0 24 (fun y => copyRow y (1 + y)) vga =
      .ok (withBuffer vga (movedUp vga.vgaBuffer 1920)) :=
    forLoop_states
      (fun y => withBuffer vga (movedUp vga.vgaBuffer (80 * y)))
      (Nat.zero_le 24) fun y _ bound => copyRow_ok width height bound
  obtain ⟨top, topEq⟩ : ∃ top : Vga,
      top = { vga with vgaX := 0, vgaY := 24 } := ⟨_, rfl⟩
  have blankLoop : forLoop 24 25 (blankRow (blankCell vga))
      (withBuffer top (movedUp vga.vgaBuffer 1920)) =
      .ok (withBuffer top (scrolled vga.vgaBuffer (blankCell vga))) := by
    have whole : movedUp vga.vgaBuffer 1920 =
        blanked (movedUp vga.vgaBuffer 1920) (blankCell vga) (80 * 24)
          (80 * 24) := by
      funext index
      exact (if_neg (by omega)).symm
    rw [whole]
    refine forLoop_states
      (fun y => withBuffer top (blanked (movedUp vga.vgaBuffer 1920)
        (blankCell vga) (80 * 24) (80 * y))) (by decide) ?_
    intro y above bound
    refine blankRow_ok ?_ ?_ bound above
    · rw [topEq]
      exact width
    · rw [topEq]
      exact height
  have yFrom : (vga.vgaY - vga.vgaHeight + 1).toNat = 1 := by
    rw [below, height]
    rfl
  have isBelow : vga.vgaHeight ≤ vga.vgaY := by
    rw [below, height]
    exact BitVec.le_refl _
  have rows : vga.vgaHeight.toNat = 25 := by
    rw [height]
    rfl
  have second : forLoop 24 (withBuffer top
      (movedUp vga.vgaBuffer 1920)).vgaHeight.toNat (blankRow (blankCell vga))
      (withBuffer top (movedUp vga.vgaBuffer 1920)) =
      .ok (withBuffer top (scrolled vga.vgaBuffer (blankCell vga))) := by
    rw [show (withBuffer top _).vgaHeight.toNat = 25 from topEq ▸ rows]
    exact blankLoop
  rw [vgaScroll, if_pos isBelow, yFrom, rows]
  change (forLoop 0 24 (fun y => copyRow y (1 + y)) vga >>= fun vga' =>
    forLoop 24 vga'.vgaHeight.toNat (blankRow (blankCell vga))
      { vga' with vgaX := 0, vgaY := 24 } >>=
        fun vga' => pure (vgaUpdateCursor vga')) = _
  rw [copied]
  subst topEq
  refine (congrArg (· >>= fun vga' => pure (vgaUpdateCursor vga'))
    second).trans ?_
  change Except.ok _ = Except.ok _
  congr 1
  simp [vgaUpdateCursor, withBuffer, position, width]

/-- With the cursor on the screen, nothing moves. -/
theorem vgaScroll_inside (height : vga.vgaHeight = 25)
    (inside : vga.vgaY.toNat < 25) :
    vgaScroll vga = .ok (vgaUpdateCursor vga) := by
  have notBelow : ¬ vga.vgaHeight ≤ vga.vgaY := by
    rw [height, BitVec.le_def]
    exact Nat.not_le_of_lt inside
  rw [vgaScroll, if_neg notBelow]
  rfl

/-! ## The end of `vga_putc` -/

theorem Shows.row_eq (shows : Shows vga tty) :
    tty.rows - 25 + vga.vgaY.toNat = tty.row := by
  have row := shows.row
  have known := tty.height_le
  omega

theorem Shows.row_lt (shows : Shows vga tty) : vga.vgaY.toNat < 25 := by
  have row := shows.row
  have known := tty.row_lt
  omega

/-- The cursor has moved within the row. -/
theorem Shows.stay (shows : Shows vga tty)
    (column : vga.vgaX.toNat = tty.column) :
    ∃ vga', putcEnd vga = .ok vga' ∧ Refines vga' tty := by
  have inside : ¬ vga.vgaX ≥ vga.vgaWidth := by
    rw [shows.width, ge_iff_le, BitVec.le_def, column]
    exact Nat.not_le_of_lt tty.column_lt
  refine ⟨vgaUpdateCursor (vgaUpdateCursor vga), ?_, ?_⟩
  · rw [putcEnd, if_neg inside, vgaScroll_inside shows.height shows.row_lt]
    rfl
  · refine ⟨⟨shows.width, shows.height, shows.row, shows.color, shows.cells⟩,
      column, ?_⟩
    have rowBound := shows.row_lt
    have columnBound := tty.column_lt
    simp only [vgaUpdateCursor, position, BitVec.toNat_ofNat, shows.width,
      column]
    change (tty.column + 80 * vga.vgaY.toNat) % 2 ^ 16 = _
    omega

theorem toNat_add_one {y : BitVec 16} (bound : y.toNat < 25) :
    (y + 1).toNat = y.toNat + 1 := by
  rw [BitVec.toNat_add]
  change (y.toNat + 1) % 2 ^ 16 = _
  omega

/-- The cursor has moved to the start of the next row. -/
theorem Shows.next (shows : Shows vga tty) :
    ∃ vga', putcEnd { vga with vgaX := 0, vgaY := vga.vgaY + 1 } = .ok vga' ∧
      Refines vga' (tty.newline 0x20) := by
  have below := toNat_add_one shows.row_lt
  have row := shows.row
  by_cases more : tty.row + 1 < tty.rows
  · apply Shows.stay
    · rw [Terminal.newline, dif_pos more]
      refine ⟨shows.width, shows.height, ?_, shows.color, shows.cells⟩
      change tty.rows + (vga.vgaY + 1).toNat = tty.row + 1 + 25
      rw [below]
      omega
    · rw [Terminal.newline, dif_pos more]
      rfl
  · have isLast : tty.row + 1 = tty.rows :=
      Nat.le_antisymm tty.row_lt (Nat.le_of_not_lt more)
    have bottom : vga.vgaY + 1 = 25 := by
      apply BitVec.eq_of_toNat_eq
      rw [below]
      change _ = 25
      omega
    have inside : ¬ (0 : BitVec 16) ≥ vga.vgaWidth := by
      rw [shows.width]
      decide
    have scrolls : vgaScroll { vga with vgaX := 0, vgaY := vga.vgaY + 1 } =
        .ok { vga with
          vgaBuffer := scrolled vga.vgaBuffer (blankCell vga)
          vgaX := 0
          vgaY := 24
          cursor := 1920 } :=
      vgaScroll_below shows.width shows.height bottom
    refine ⟨vgaUpdateCursor
      { vga with
        vgaBuffer := scrolled vga.vgaBuffer (blankCell vga)
        vgaX := 0
        vgaY := 24
        cursor := 1920 }, ?_, ?_⟩
    · rw [putcEnd, if_neg inside, scrolls]
      rfl
    · have known := tty.height_le
      rw [Terminal.newline, dif_neg more]
      refine ⟨⟨shows.width, shows.height, ?_, shows.color, ?_⟩, rfl, ?_⟩
      · change tty.rows + 1 + 24 = tty.rows + 25
        rfl
      · intro y yBound x xBound
        change scrolled vga.vgaBuffer (blankCell vga) (80 * y + x) =
          encode (Function.update tty.cells tty.rows
            (fun _ => (0x20, tty.color)) (tty.rows + 1 - 25 + y) x)
        rw [scrolled, blanked]
        by_cases last : y = 24
        · have index : tty.rows + 1 - 25 + y = tty.rows := by omega
          rw [if_pos (by omega), index, Function.update_self,
            blankCell_eq, shows.color]
        · have index : tty.rows + 1 - 25 + y = tty.rows - 25 + (y + 1) := by
            omega
          have moved : 80 * y + x + 80 = 80 * (y + 1) + x := by omega
          rw [if_neg (by omega), movedUp, if_pos (by omega), moved,
            shows.cells (y + 1) (by omega) x xBound, Terminal.screen, index,
            Function.update_of_ne (by omega)]
      · simp only [vgaUpdateCursor, position, shows.width]
        rfl

/-- The cursor has moved beyond the last column. -/
theorem Shows.wrap (shows : Shows vga tty) (beyond : vga.vgaX = 80) :
    ∃ vga', putcEnd vga = .ok vga' ∧ Refines vga' (tty.newline 0x20) := by
  obtain ⟨vga', result, refines⟩ := shows.next
  refine ⟨vga', ?_, refines⟩
  have outside : vga.vgaX ≥ vga.vgaWidth := by
    rw [beyond, shows.width]
    exact BitVec.le_refl _
  have inside : ¬ (0 : BitVec 16) ≥ vga.vgaWidth := by
    rw [shows.width]
    decide
  rw [putcEnd, if_neg inside] at result
  rw [putcEnd, if_pos outside]
  exact result

/-! ## The branches of `vga_putc` -/

theorem position_eq (refines : Refines vga tty) :
    position vga = 80 * vga.vgaY.toNat + tty.column := by
  rw [position, refines.column, refines.width, Nat.add_comm]
  rfl

/-- The store of a character. -/
theorem Refines.store (refines : Refines vga tty) (symbol : BitVec 8) :
    Screen.store vga (position vga) (encode (symbol, vga.vgaColor)) =
        .ok (withBuffer vga (Function.update vga.vgaBuffer (position vga)
          (encode (symbol, vga.vgaColor)))) ∧
      Shows (withBuffer vga (Function.update vga.vgaBuffer (position vga)
        (encode (symbol, vga.vgaColor)))) (tty.store symbol) := by
  have rowBound := refines.row_lt
  have columnBound := tty.column_lt
  have place := position_eq refines
  have rowEq := refines.row_eq
  constructor
  · exact store_withBuffer refines.width refines.height (by omega)
  · refine ⟨refines.width, refines.height, refines.row, refines.color, ?_⟩
    intro y yBound x xBound
    change Function.update vga.vgaBuffer (position vga)
        (encode (symbol, vga.vgaColor)) (80 * y + x) =
      encode (Function.update tty.cells tty.row
        (Function.update (tty.cells tty.row) tty.column (symbol, tty.color))
        (tty.rows - 25 + y) x)
    by_cases sameRow : y = vga.vgaY.toNat
    · rw [show tty.rows - 25 + y = tty.row by omega, Function.update_self]
      by_cases sameColumn : x = tty.column
      · rw [show 80 * y + x = position vga by omega, Function.update_self,
          sameColumn, Function.update_self, refines.color]
      · rw [Function.update_of_ne (by omega), Function.update_of_ne sameColumn,
          refines.cells y yBound x xBound, Terminal.screen,
          show tty.rows - 25 + y = tty.row by omega]
    · rw [Function.update_of_ne (by omega), Function.update_of_ne (by omega)]
      exact refines.cells y yBound x xBound

theorem toNat_vgaX_add_one (refines : Refines vga tty) :
    (vga.vgaX + 1).toNat = tty.column + 1 := by
  have bound := tty.column_lt
  rw [BitVec.toNat_add, refines.column]
  change (tty.column + 1) % 2 ^ 16 = _
  omega

/-- A character is written. -/
theorem Refines.write (refines : Refines vga tty) (symbol : BitVec 8) :
    ∃ vga', (do
        let vga ← Screen.store vga (position vga)
          (encode (symbol, vga.vgaColor))
        putcEnd { vga with vgaX := vga.vgaX + 1 }) = .ok vga' ∧
      Refines vga' (tty.write 0x20 symbol) := by
  obtain ⟨stored, shows⟩ := refines.store symbol
  have next := toNat_vgaX_add_one refines
  rw [stored]
  by_cases more : tty.column + 1 < 80
  · rw [Terminal.write, dif_pos more]
    apply Shows.stay
    · exact ⟨shows.width, shows.height, shows.row, shows.color, shows.cells⟩
    · exact next
  · have columnBound := tty.column_lt
    rw [Terminal.write, dif_neg more]
    apply Shows.wrap
    · exact ⟨shows.width, shows.height, shows.row, shows.color, shows.cells⟩
    · apply BitVec.eq_of_toNat_eq
      change (vga.vgaX + 1).toNat = 80
      omega

theorem signExtend_of_printable (printable : Printable c) :
    c.signExtend 16 = c.setWidth 16 := by
  apply BitVec.signExtend_eq_setWidth_of_msb_false
  rw [BitVec.msb_eq_false_iff_two_mul_lt]
  have small := printable.2
  omega

/-- `vga_putc`, but for a tab. -/
theorem Refines.putcWith (refines : Refines vga tty)
    (tab : Vga → Except Stop Vga) (notTab : c ≠ 0x09) :
    ∃ vga', Screen.putcWith tab vga c = .ok vga' ∧
      Refines vga' (ttyPutc tty c) := by
  have shows := refines.toShows
  by_cases isBack : c = 0x08
  · rw [Screen.putcWith, if_pos isBack, ttyPutc, if_pos isBack]
    apply Shows.stay
    · split <;>
        exact ⟨shows.width, shows.height, shows.row, shows.color, shows.cells⟩
    · have column := refines.column
      have columnBound := tty.column_lt
      split
      · next positive =>
          have above : 0 < vga.vgaX.toNat := BitVec.lt_def.mp positive
          change (vga.vgaX - 1).toNat = tty.column - 1
          rw [BitVec.toNat_sub]
          change (2 ^ 16 - 1 + vga.vgaX.toNat) % 2 ^ 16 = _
          omega
      · next notPositive =>
          have atStart : ¬ 0 < vga.vgaX.toNat :=
            fun above => notPositive (BitVec.lt_def.mpr above)
          change vga.vgaX.toNat = tty.column - 1
          omega
  · by_cases isReturn : c = 0x0d
    · rw [Screen.putcWith, if_neg isBack, if_neg notTab, if_pos isReturn,
        ttyPutc, if_neg isBack, if_neg notTab, if_pos isReturn]
      exact Shows.stay
        ⟨shows.width, shows.height, shows.row, shows.color, shows.cells⟩ rfl
    · by_cases isNewline : c = 0x0a
      · rw [Screen.putcWith, if_neg isBack, if_neg notTab, if_neg isReturn,
          if_pos isNewline, ttyPutc, if_neg isBack, if_neg notTab,
          if_neg isReturn, if_pos isNewline]
        exact shows.next
      · rw [Screen.putcWith, if_neg isBack, if_neg notTab, if_neg isReturn,
          if_neg isNewline, ttyPutc, if_neg isBack, if_neg notTab,
          if_neg isReturn, if_neg isNewline]
        by_cases printable : Printable c
        · rw [if_pos (sle_iff_printable.mpr printable), if_pos printable,
            signExtend_of_printable printable, ← encode_eq_or]
          obtain ⟨vga', result, refines'⟩ := refines.write c
          exact ⟨vga', result, refines'⟩
        · rw [if_neg (fun holds => printable (sle_iff_printable.mp holds)),
            if_neg printable]
          exact shows.stay refines.column

theorem Refines.putSpace (refines : Refines vga tty) :
    ∃ vga', Screen.putSpace vga = .ok vga' ∧
      Refines vga' (tty.write 0x20 0x20) :=
  refines.putcWith _ (by decide)

theorem and_seven_eq_zero_iff {x : BitVec 16} :
    x &&& 7 = 0 ↔ x.toNat % 8 = 0 := by
  rw [← BitVec.toNat_inj, BitVec.toNat_and]
  change x.toNat &&& (2 ^ 3 - 1) = 0 ↔ _
  rw [Nat.and_two_pow_sub_one_eq_mod]

/-- The loop for a tab stops at a multiple of 8. -/
theorem Refines.putTab (refines : Refines vga tty) (fuel spaces : Nat)
    (enough : spaces < fuel) (stop : (tty.column + spaces + 1) % 8 = 0)
    (least : spaces < 8) (inRow : tty.column + spaces < 80) :
    ∃ vga', Screen.putTab fuel vga = .ok vga' ∧
      Refines vga' ((fun tty => tty.write 0x20 0x20)^[spaces + 1] tty) := by
  induction spaces generalizing fuel vga tty with
  | zero =>
      obtain ⟨fuel, rfl⟩ := Nat.exists_eq_succ_of_ne_zero
        (Nat.ne_of_gt enough)
      obtain ⟨vga', first, refines'⟩ := refines.putSpace
      have done : vga'.vgaX &&& 7 = 0 := by
        rw [and_seven_eq_zero_iff, refines'.column, Terminal.write_column]
        split <;> omega
      refine ⟨vga', ?_, refines'⟩
      rw [Screen.putTab, first]
      exact if_neg (not_not_intro done)
  | succ spaces inductionHypothesis =>
      obtain ⟨fuel, rfl⟩ := Nat.exists_eq_succ_of_ne_zero
        (Nat.ne_of_gt (Nat.zero_lt_of_lt enough))
      obtain ⟨middle, first, refines'⟩ := refines.putSpace
      have column : (tty.write 0x20 0x20).column = tty.column + 1 := by
        rw [Terminal.write_column, if_pos (by omega)]
      have more : ¬ middle.vgaX &&& 7 = 0 := by
        rw [and_seven_eq_zero_iff, refines'.column, column]
        omega
      obtain ⟨vga', rest, refines''⟩ := inductionHypothesis refines' fuel
        (Nat.lt_of_succ_lt_succ enough) (by rw [column]; omega) (by omega)
        (by rw [column]; omega)
      refine ⟨vga', ?_, refines''⟩
      rw [Screen.putTab, first]
      exact (if_pos more).trans rest

/-- `vga_putc`. -/
theorem Refines.putc (refines : Refines vga tty) (c : BitVec 8) :
    ∃ vga', vgaPutc vga c = .ok vga' ∧ Refines vga' (ttyPutc tty c) := by
  by_cases isTab : c = 0x09
  · subst isTab
    have bound := tty.column_lt
    obtain ⟨spaces, count⟩ : ∃ spaces, 8 - tty.column % 8 = spaces + 1 :=
      ⟨7 - tty.column % 8, by omega⟩
    obtain ⟨middle, loop, refines'⟩ := refines.putTab 65536 spaces
      (by omega) (by omega) (by omega) (by omega)
    obtain ⟨vga', last, final⟩ := refines'.toShows.stay refines'.column
    refine ⟨vga', ?_, ?_⟩
    · rw [vgaPutc, Screen.putcWith]
      change (Screen.putTab 65536 vga >>= putcEnd) = _
      rw [loop]
      exact last
    · change Refines vga' (tty.tab 0x20 8)
      rw [Terminal.tab, count]
      exact final
  · exact refines.putcWith _ isTab

/-! ## All calls -/

theorem Refines.puts (refines : Refines vga tty) (ret : BitVec 32)
    (str : List (BitVec 8)) :
    ∃ ret' vga', vgaPuts vga ret str = .ok (ret', vga') ∧
      Refines vga' ((untilNul str).foldl ttyPutc tty) := by
  induction str generalizing vga tty ret with
  | nil => exact ⟨ret, vga, rfl, refines⟩
  | cons c str inductionHypothesis =>
      rw [vgaPuts, untilNul, List.takeWhile_cons]
      by_cases ended : c = 0
      · rw [if_neg (not_not_intro ended), ended]
        exact ⟨ret, vga, rfl, refines⟩
      · obtain ⟨middle, first, refines'⟩ := refines.putc c
        rw [if_pos ended, first, if_pos (decide_eq_true ended),
          List.foldl_cons]
        exact inductionHypothesis refines' _

theorem Refines.putns (refines : Refines vga tty) (ret : BitVec 32)
    (length : BitVec 64) (str : List (BitVec 8)) :
    ∃ ret' vga', vgaPutns vga ret length str = .ok (ret', vga') ∧
      Refines vga'
        (((untilNul str).take length.toNat).foldl ttyPutc tty) := by
  induction str generalizing vga tty ret length with
  | nil =>
      rw [untilNul, List.takeWhile_nil, List.take_nil]
      exact ⟨ret, vga, rfl, refines⟩
  | cons c str inductionHypothesis =>
      rw [vgaPutns, untilNul, List.takeWhile_cons]
      by_cases ended : c = 0
      · rw [if_neg (fun both => both.1 ended), ended, if_neg (by decide),
          List.take_nil]
        exact ⟨ret, vga, rfl, refines⟩
      · rw [if_pos (decide_eq_true ended)]
        by_cases noMore : length = 0
        · rw [if_neg (fun both => both.2 noMore), noMore]
          exact ⟨ret, vga, rfl, refines⟩
        · obtain ⟨middle, first, refines'⟩ := refines.putc c
          have less : length.toNat = (length - 1).toNat + 1 := by
            have positive : length.toNat ≠ 0 := by
              intro none
              exact noMore (BitVec.eq_of_toNat_eq none)
            have bound := length.isLt
            rw [BitVec.toNat_sub]
            change _ = (2 ^ 64 - 1 + length.toNat) % 2 ^ 64 + 1
            omega
          rw [if_pos ⟨ended, noMore⟩, first, less, List.take_succ_cons,
            List.foldl_cons]
          exact inductionHypothesis refines' _ _

/-- Clearing restarts the terminal, whatever the screen did show. -/
theorem vgaClear_ok (vga : Vga) (width : vga.vgaWidth = 80)
    (height : vga.vgaHeight = 25) :
    ∃ vga', vgaClear vga = .ok vga' ∧
      Refines vga' (Terminal.blank 0x20 vga.vgaColor) := by
  have start : withBuffer vga (blanked vga.vgaBuffer (blankCell vga) 0 0) =
      vga := by
    have same : blanked vga.vgaBuffer (blankCell vga) 0 0 = vga.vgaBuffer := by
      funext index
      exact if_neg (by omega)
    rw [same]
    rfl
  have loop : forLoop 0 2000 (fun i vga' => Screen.store vga' i (blankCell vga))
      (withBuffer vga (blanked vga.vgaBuffer (blankCell vga) 0 0)) =
      .ok (withBuffer vga (blanked vga.vgaBuffer (blankCell vga) 0 2000)) := by
    refine forLoop_states
      (fun index => withBuffer vga
        (blanked vga.vgaBuffer (blankCell vga) 0 index)) (Nat.zero_le 2000) ?_
    intro index _ bound
    rw [store_withBuffer width height bound,
      update_blanked _ _ (Nat.zero_le index)]
  have size : vga.vgaWidth.toNat * vga.vgaHeight.toNat = 2000 := by
    rw [width, height]
    rfl
  rw [start] at loop
  refine ⟨vgaUpdateCursor
    { withBuffer vga (blanked vga.vgaBuffer (blankCell vga) 0 2000) with
      vgaX := 0, vgaY := 0 }, ?_, ⟨⟨width, height, rfl, rfl, ?_⟩, rfl, ?_⟩⟩
  · rw [vgaClear, size]
    change (forLoop 0 2000
      (fun i vga' => Screen.store vga' i (blankCell vga)) vga >>= fun vga' =>
        pure (vgaUpdateCursor { vga' with vgaX := 0, vgaY := 0 })) = _
    rw [loop]
    rfl
  · intro y yBound x xBound
    change blanked vga.vgaBuffer (blankCell vga) 0 2000 (80 * y + x) = _
    rw [blanked, if_pos (by omega)]
    exact blankCell_eq vga
  · simp only [vgaUpdateCursor, withBuffer, position, width]
    rfl

/-- Every call returns, and keeps the relation. -/
theorem Refines.perform (refines : Refines vga tty) (call : Call) :
    ∃ vga', Screen.perform vga call = .ok vga' ∧
      Refines vga' (ttyPerform tty call) := by
  have recolored : ∀ color, Refines (vgaSetColor vga color)
      (tty.setColor color) := fun color =>
    ⟨⟨refines.width, refines.height, refines.row, rfl, refines.cells⟩,
      refines.column, refines.cursor⟩
  cases call with
  | putc c => exact refines.putc c
  | puts str =>
      obtain ⟨ret, vga', result, refines'⟩ := refines.puts 0 str
      refine ⟨vga', ?_, refines'⟩
      rw [Screen.perform, result]
      rfl
  | putns str length =>
      obtain ⟨ret, vga', result, refines'⟩ := refines.putns 0 length str
      refine ⟨vga', ?_, refines'⟩
      rw [Screen.perform, result]
      rfl
  | clear =>
      rw [ttyPerform, ← refines.color]
      exact vgaClear_ok vga refines.width refines.height
  | setColor color => exact ⟨_, rfl, recolored color⟩
  | setForeground color =>
      refine ⟨_, rfl, ?_⟩
      rw [ttyPerform, ← refines.color]
      exact recolored _
  | setBackground color =>
      refine ⟨_, rfl, ?_⟩
      rw [ttyPerform, ← refines.color]
      exact recolored _

end Screen

/-! ## Runs -/

theorem vgaInit_ok (vga : Vga) :
    ∃ vga', vgaInit vga = .ok vga' ∧
      Refines vga' (Terminal.blank 0x20 0x0f) := by
  obtain ⟨middle, result, refines⟩ :=
    vgaClear_ok
      (vgaSetColor { vga with vgaWidth := 80, vgaHeight := 25 } 0x0f) rfl rfl
  refine ⟨vgaMoveCursor middle 0 0, ?_, ?_⟩
  · rw [vgaInit, result]
    rfl
  · refine ⟨⟨refines.width, refines.height, rfl, refines.color,
      refines.cells⟩, rfl, ?_⟩
    simp only [vgaMoveCursor, vgaUpdateCursor, position, refines.width]
    rfl

theorem Refines.performAll {vga : Vga} {tty : Tty} (refines : Refines vga tty)
    (calls : List Call) :
    ∃ vga', calls.foldlM Screen.perform vga = .ok vga' ∧
      Refines vga' (calls.foldl ttyPerform tty) := by
  induction calls generalizing vga tty with
  | nil => exact ⟨vga, rfl, refines⟩
  | cons call calls inductionHypothesis =>
      obtain ⟨middle, first, refines'⟩ := refines.perform call
      obtain ⟨vga', rest, final⟩ := inductionHypothesis refines'
      refine ⟨vga', ?_, final⟩
      rw [List.foldlM_cons, first]
      exact rest

/-- After `vga_init`, all calls return without leaving the buffer, the cursor is
on the screen, and the screen shows what an unbounded terminal would. -/
theorem vga_refines_terminal (vga : Vga) (calls : List Call) :
    ∃ vga', performAll vga calls = .ok vga' ∧
      vga'.vgaX < vga'.vgaWidth ∧ vga'.vgaY < vga'.vgaHeight ∧
        Refines vga' (calls.foldl ttyPerform (Terminal.blank 0x20 0x0f)) := by
  obtain ⟨middle, init, start⟩ := vgaInit_ok vga
  obtain ⟨vga', result, refines⟩ := start.performAll calls
  refine ⟨vga', ?_, ?_, ?_, refines⟩
  · rw [performAll, init]
    exact result
  · rw [BitVec.lt_def, refines.column, refines.width]
    exact Terminal.column_lt _
  · rw [BitVec.lt_def, refines.height]
    exact refines.row_lt

end BeaverOS.Screen

import Pcern.Editor
import Pcern.Keyed
import Pcern.Screen
import Pcern.Texts

/-!
The editor's text on the screen: what a text looks like, one byte after the other, and the numbers of an escape sequence.
-/
namespace Pcern.Console

open Bytes
open Texts (lines)

/-! ## Texts -/

abbrev newline : UInt8 := 0x0A

/-- The row of the place behind a text. -/
def rowBehind (text : List UInt8) : Nat := Texts.rowAt newline text text.length

/-- The column of the place behind a text, which is the width of its last row. -/
def colBehind (text : List UInt8) : Nat := Texts.width newline text (rowBehind text)

/-- The character of a text at a row and column, a blank where it has none. -/
def charAt (text : List UInt8) (row col : Nat) : UInt8 := ((lines newline text).getD row []).getD col 0x20

section Appending
variable {b : UInt8} {text : List UInt8}

private theorem lines_newline (text : List UInt8) : lines newline (text ++ [newline]) = lines newline text ++ [[]] := by
  obtain ⟨above, left, right, below, cut, one, whole⟩ := Texts.lines_append newline text [newline]
  rw [Texts.lines_separator, Texts.lines_nil] at one
  obtain ⟨rfl, rfl⟩ := List.cons.inj one
  rw [whole, cut, List.append_nil, List.append_assoc]
  rfl

theorem lines_other (other : b ≠ newline) (text : List UInt8) :
    ∃ front last, lines newline text = front ++ [last] ∧ lines newline (text ++ [b]) = front ++ [last ++ [b]] := by
  obtain ⟨above, left, right, below, cut, one, whole⟩ := Texts.lines_append newline text [b]
  rw [Texts.lines_other other, Texts.lines_nil, List.modifyHead_cons] at one
  obtain ⟨rfl, rfl⟩ := List.cons.inj one
  exact ⟨above, left, cut, whole⟩

private theorem rowBehind_eq_count (text : List UInt8) : rowBehind text = text.count newline := by
  rw [rowBehind, Texts.rowAt, List.take_length]

theorem behind {front : List (List UInt8)} {last : List UInt8} (lined : lines newline text = front ++ [last]) :
    rowBehind text = front.length ∧ colBehind text = last.length := by
  have count := Texts.length_lines newline text
  have row : rowBehind text = front.length := by
    rw [lined, List.length_append, List.length_singleton] at count
    rw [rowBehind_eq_count]
    exact (Nat.succ.inj count).symm
  refine ⟨row, ?_⟩
  rw [colBehind, row, Texts.width, lined]
  simp

@[simp] theorem rowBehind_newline (text : List UInt8) : rowBehind (text ++ [newline]) = rowBehind text + 1 := by
  rw [rowBehind_eq_count, rowBehind_eq_count, List.count_append, List.count_singleton_self]

@[simp] theorem colBehind_newline (text : List UInt8) : colBehind (text ++ [newline]) = 0 :=
  (behind (lines_newline text)).2

@[simp] theorem charAt_newline (text : List UInt8) (row col : Nat) : charAt (text ++ [newline]) row col = charAt text row col := by
  rw [charAt, charAt, lines_newline]
  congr 1
  by_cases inside : row < (lines newline text).length
  · exact List.getD_append _ _ _ _ inside
  · rw [List.getD_append_right _ _ _ _ (Nat.not_lt.mp inside), List.getD_eq_default _ _ (Nat.not_lt.mp inside)]
    cases row - (lines newline text).length <;> rfl

private theorem rowBehind_other (other : b ≠ newline) (text : List UInt8) : rowBehind (text ++ [b]) = rowBehind text := by
  obtain ⟨front, last, before, after⟩ := lines_other other text
  rw [(behind after).1, (behind before).1]

private theorem colBehind_other (other : b ≠ newline) (text : List UInt8) : colBehind (text ++ [b]) = colBehind text + 1 := by
  obtain ⟨front, last, before, after⟩ := lines_other other text
  rw [(behind after).2, (behind before).2, List.length_append, List.length_singleton]

private theorem charAt_other (other : b ≠ newline) (text : List UInt8) (row col : Nat) :
    charAt (text ++ [b]) row col = if row = rowBehind text ∧ col = colBehind text then b else charAt text row col := by
  obtain ⟨front, last, before, after⟩ := lines_other other text
  rw [(behind before).1, (behind before).2, charAt, charAt, before, after]
  rcases Nat.lt_trichotomy row front.length with above | rfl | below
  · rw [if_neg (by omega), List.getD_append _ _ _ _ above, List.getD_append _ _ _ _ above]
  · simp only [List.getD_eq_getElem?_getD, List.getElem?_concat_length, Option.getD_some, true_and]
    rcases Nat.lt_trichotomy col last.length with left | rfl | right
    · rw [if_neg (by omega), List.getElem?_append_left left]
    · simp
    · rw [if_neg (by omega), List.getElem?_eq_none (by simp; omega), List.getElem?_eq_none (by omega)]
  · rw [if_neg (by omega), List.getD_eq_default (front ++ _) _ (by simp; omega), List.getD_eq_default (front ++ _) _ (by simp; omega)]

end Appending

variable {b : UInt8} {text : List UInt8}

/-- A text of printable characters that the screen has room for. -/
structure Fits (text : List UInt8) : Prop where
  printable : ∀ b ∈ text, b = newline ∨ 0x20 ≤ b ∧ b ≤ 0x7E
  rows : (lines newline text).length ≤ vgaHeight
  columns : ∀ line ∈ lines newline text, line.length < vgaWidth

namespace Fits

theorem before (fits : Fits (text ++ [b])) : Fits text := by
  obtain ⟨printable, rows, columns⟩ := fits
  have fewer : ∀ c ∈ text, c = newline ∨ 0x20 ≤ c ∧ c ≤ 0x7E := fun c member => printable c (List.mem_append_left _ member)
  by_cases ends : b = newline
  · subst ends
    rw [lines_newline] at rows columns
    exact ⟨fewer, by simp at rows; omega, fun line member => columns line (List.mem_append_left _ member)⟩
  · obtain ⟨front, last, lined, longer⟩ := lines_other ends text
    rw [longer] at rows columns
    refine ⟨fewer, by simp [lined] at rows ⊢; omega, fun line member => ?_⟩
    rw [lined, List.mem_append, List.mem_singleton] at member
    rcases member with member | rfl
    · exact columns line (List.mem_append_left _ member)
    · have := columns (line ++ [b]) (by simp)
      simp at this
      omega

private theorem of_append {rest : List UInt8} (fits : Fits (text ++ rest)) : Fits text := by
  induction rest using List.reverseRecOn with
  | nil => rwa [List.append_nil] at fits
  | append_singleton rest b shorter =>
    rw [← List.append_assoc] at fits
    exact shorter fits.before

theorem row_lt (fits : Fits text) : rowBehind text < vgaHeight :=
  Nat.lt_of_lt_of_le (Texts.rowAt_lt newline (Nat.le_refl _)) fits.rows

private theorem col_lt (fits : Fits text) : colBehind text < vgaWidth :=
  fits.columns _ (Keyed.getD_mem (Texts.rowAt_lt newline (Nat.le_refl _)) [])

end Fits

/-! ## A text on the screen -/

/-- The screen shows a text in some attributes, which are the current ones, and the cursor is behind it. -/
structure Shows (glyph : UInt8 → UInt16) (w : Writer) (text : List UInt8) : Prop where
  attributes : w.glyph = glyph
  cells : ∀ row < vgaHeight, ∀ col < vgaWidth, w.readCell row col = glyph (charAt text row col)
  row : w.row = rowBehind text
  col : w.col = colBehind text

theorem Writer.shows_clearScreen (w : Writer) : Shows w.glyph w.clearScreen [] where
  attributes := w.glyph_clearScreen
  cells row inside col within := by
    rw [w.readCell_clearScreen inside within]
    cases row <;> rfl
  row := rfl
  col := rfl

theorem Writer.setCursorPos_home {w : Writer} (row : w.row = 0) (col : w.col = 0) : w.setCursorPos 0 0 = w := by
  obtain ⟨_, _, _, _, _, _⟩ := w
  subst row col
  rfl

theorem Writer.putChar_newline {w : Writer} (inside : w.row + 1 < vgaHeight) :
    w.putChar newline = { w with col := 0, row := w.row + 1 } := by
  rw [putChar, if_pos rfl, newLine, if_neg (Nat.not_le.mpr inside)]

theorem Writer.putChar_printable {w : Writer} (printable : 0x20 ≤ b) (within : w.col < vgaWidth) :
    w.putChar b = { w.writeCell w.row w.col (w.glyph b) with col := w.col + 1 } := by
  have ne {c : UInt8} (control : c < 0x20) : b ≠ c := fun same => UInt8.not_le.mpr control (same ▸ printable)
  rw [putChar, if_neg (ne (by decide)), if_neg (ne (by decide)), if_neg (ne (by decide)), if_neg (ne (by decide)), putGlyph,
    if_neg (Nat.not_le.mpr within)]

variable {glyph : UInt8 → UInt16} {w : Writer}

theorem Shows.putChar (shows : Shows glyph w text) (fits : Fits (text ++ [b])) : Shows glyph (w.putChar b) (text ++ [b]) := by
  by_cases ends : b = newline
  · subst ends
    have inside := fits.row_lt
    rw [rowBehind_newline, ← shows.row] at inside
    rw [Writer.putChar_newline inside]
    refine ⟨shows.attributes, fun row inside col within => ?_, ?_, (colBehind_newline text).symm⟩
    · rw [charAt_newline]
      exact shows.cells row inside col within
    · rw [rowBehind_newline, ← shows.row]
  · have printable := (fits.printable b (by simp)).resolve_left ends
    have within : w.col < vgaWidth := shows.col ▸ fits.before.col_lt
    rw [Writer.putChar_printable printable.1 within]
    refine ⟨shows.attributes, fun row inside col within' => ?_, ?_, ?_⟩
    · refine (w.readCell_writeCell (w.glyph b) within within').trans ?_
      rw [charAt_other ends, ← shows.row, ← shows.col, shows.cells row inside col within', shows.attributes]
      exact (apply_ite glyph _ _ _).symm
    · rw [rowBehind_other ends]
      exact shows.row
    · rw [colBehind_other ends, ← shows.col]

theorem Shows.prints (shows : Shows glyph w []) (fits : Fits text) : Shows glyph (text.foldl Writer.putChar w) text := by
  induction text using List.reverseRecOn with
  | nil => exact shows
  | append_singleton text b before =>
    rw [List.foldl_append]
    exact (before fits.before).putChar fits

/-! ## The bytes of an escape sequence -/

namespace AnsiState

theorem feedAll_append (a : AnsiState) (w : Writer) (bytes more : List UInt8) :
    a.feedAll w (bytes ++ more) = (a.feedAll w bytes).1.feedAll (a.feedAll w bytes).2 more := by
  induction bytes generalizing a w with
  | nil => rfl
  | cons b bytes rest => exact rest _ _

private theorem feedAll_text {a : AnsiState} (ground : a.state = .ground) (w : Writer) (text : List UInt8)
    (plain : 0x1B ∉ text) : a.feedAll w text = (a, text.foldl Writer.putChar w) := by
  induction text generalizing w with
  | nil => rfl
  | cons b text more =>
    rw [List.mem_cons, not_or] at plain
    have one : a.feed b w = (a, w.putChar b) := by
      simp only [feed, ground]
      exact if_neg (Ne.symm plain.1)
    rw [feedAll, one]
    exact more (w.putChar b) plain.2

/-- The parser with a number as the parameter that is being read. -/
def withParam (a : AnsiState) (n : Nat) : AnsiState :=
  { a with nparams := max 1 a.nparams, params := Function.update a.params (a.nparams - 1) n }

private theorem feed_digit {a : AnsiState} (csi : a.state = .csi) (few : a.nparams ≤ maxParams) (w : Writer) {d : Nat} (decimal : d < 10)
    (small : a.params (a.nparams - 1) * 10 + d ≤ 65535) :
    a.feed (0x30 + UInt8.ofNat d) w = (a.withParam (a.params (a.nparams - 1) * 10 + d), w) := by
  have value : (0x30 + UInt8.ofNat d).toNat = 48 + d := by
    simp [UInt8.toNat_add]
    omega
  have isDigit : 0x30 ≤ 0x30 + UInt8.ofNat d ∧ 0x30 + UInt8.ofNat d ≤ 0x39 := by
    rw [UInt8.le_iff_toNat_le, UInt8.le_iff_toNat_le, value]
    simp
    omega
  have back : (0x30 + UInt8.ofNat d - 0x30).toNat = d := by
    rw [UInt8.toNat_sub, value]
    simp
    omega
  have count : (if a.nparams = 0 then 1 else a.nparams) = max 1 a.nparams := by
    split <;> omega
  have here : max 1 a.nparams - 1 = a.nparams - 1 := by omega
  have inside : a.nparams - 1 < maxParams := by
    simp only [maxParams] at *
    omega
  simp only [feed, csi, if_pos isDigit, back, digit, count, here, withParam]
  rw [if_pos inside, Nat.min_eq_left (by omega : a.params (a.nparams - 1) * 10 ≤ 65535), Nat.min_eq_left small]

variable {a : AnsiState} (csi : a.state = .csi) (few : a.nparams ≤ maxParams) (fresh : a.params (a.nparams - 1) = 0) (w : Writer)
include csi few fresh

private theorem feedAll_digits (room : Nat) {n : Nat} (some : n ≠ 0) (short : n < 10 ^ room) (small : n ≤ 65535) :
    a.feedAll w (Libpcern.digits room n).reverse = (a.withParam n, w) := by
  induction room generalizing n with
  | zero => omega
  | succ room shorter =>
    rw [Libpcern.digits, if_neg some, List.reverse_cons, feedAll_append]
    by_cases one : n / 10 = 0
    · have none : Libpcern.digits room (n / 10) = [] := by
        rw [one]
        cases room <;> rfl
      rw [none, List.reverse_nil, feedAll, feedAll, feed_digit csi few w (Nat.mod_lt n (by omega)) (by omega), feedAll]
      rw [fresh, show 0 * 10 + n % 10 = n by omega]
    · rw [shorter one (by rw [Nat.pow_succ] at short; omega) (by omega)]
      have here : max 1 a.nparams - 1 = a.nparams - 1 := by omega
      have read : (a.withParam (n / 10)).params ((a.withParam (n / 10)).nparams - 1) = n / 10 := by simp [withParam, here]
      rw [feedAll, feedAll, feed_digit (a := a.withParam (n / 10)) csi (Nat.max_le.mpr ⟨by decide, few⟩) w (Nat.mod_lt n (by omega)) (by omega), read,
        show n / 10 * 10 + n % 10 = n by omega]
      simp [withParam, here]

private theorem feedAll_printU32 {n : UInt32} (small : n.toNat ≤ 65535) : a.feedAll w (Libpcern.printU32 n) = (a.withParam n.toNat, w) := by
  unfold Libpcern.printU32
  split
  next zero =>
    subst zero
    have := feed_digit csi few w (d := 0) (by decide) (by omega)
    rw [feedAll, feedAll]
    refine this.trans ?_
    rw [fresh]
    rfl
  next some =>
    refine feedAll_digits csi few fresh w 10 (fun zero => some (UInt32.toNat_inj.mp zero)) ?_ small
    omega

omit csi few fresh

private theorem feedAll_clear (ground : a.state = .ground) :
    a.feedAll w [0x1B, 0x5B, 0x32, 0x4A, 0x1B, 0x5B, 0x48] = (init, w.clearScreen) := by
  have home : w.clearScreen.setCursorPos 0 0 = w.clearScreen := Writer.setCursorPos_home rfl rfl
  simp [feedAll, feed, ground, digit, execute, rawParam, param, Writer.eraseInDisplay, home, init]

def placeCursor (row col : Nat) : List UInt8 :=
  [0x1B, 0x5B] ++ Libpcern.printU32 (UInt32.ofNat (row + 1)) ++ [0x3B] ++ Libpcern.printU32 (UInt32.ofNat (col + 1)) ++ [0x48]

private theorem feedAll_placeCursor (ground : a.state = .ground) {row col : Nat} (inside : row < vgaHeight) (within : col < vgaWidth) :
    ∃ a', a'.state = .ground ∧ a.feedAll w (placeCursor row col) = (a', { w with row := row, col := col }) := by
  have few : row < 25 := inside
  have narrow : col < 80 := within
  have rowWord : (UInt32.ofNat (row + 1)).toNat = row + 1 := UInt32.toNat_ofNat_of_lt' (by change _ < 2 ^ 32; omega)
  have colWord : (UInt32.ofNat (col + 1)).toNat = col + 1 := UInt32.toNat_ofNat_of_lt' (by change _ < 2 ^ 32; omega)
  obtain ⟨opened, isOpened⟩ : ∃ opened : AnsiState, opened = { init with state := .csi } := ⟨_, rfl⟩
  have begins : a.feedAll w [0x1B, 0x5B] = (opened, w) := by
    obtain ⟨state, params, nparams⟩ := a
    subst ground isOpened
    rfl
  have first : opened.feedAll w (Libpcern.printU32 (UInt32.ofNat (row + 1))) = (opened.withParam (row + 1), w) := by
    subst isOpened
    rw [feedAll_printU32 rfl (by decide) rfl w (by omega), rowWord]
  obtain ⟨between, isBetween⟩ : ∃ between : AnsiState, between = { opened.withParam (row + 1) with nparams := 2 } := ⟨_, rfl⟩
  have separates : (opened.withParam (row + 1)).feedAll w [0x3B] = (between, w) := by
    subst isBetween isOpened
    rfl
  have second : between.feedAll w (Libpcern.printU32 (UInt32.ofNat (col + 1))) = (between.withParam (col + 1), w) := by
    subst isBetween isOpened
    rw [feedAll_printU32 rfl (show 2 ≤ maxParams by decide) rfl w (by omega), colWord]
  have places : (between.withParam (col + 1)).feedAll w [0x48] =
      ({ between.withParam (col + 1) with state := .ground }, w.setCursorPos row col) := by
    subst isBetween isOpened
    rfl
  have unclamped : w.setCursorPos row col = { w with row := row, col := col } := by
    rw [Writer.setCursorPos, Nat.min_eq_left (Nat.le_sub_one_of_lt inside), Nat.min_eq_left (Nat.le_sub_one_of_lt within)]
  refine ⟨{ between.withParam (col + 1) with state := .ground }, rfl, ?_⟩
  rw [placeCursor, feedAll_append, feedAll_append, feedAll_append, feedAll_append, begins, first, separates, second, places, unclamped]

end AnsiState

/-! ## The editor -/

private theorem position_lineStart (ed : Editor) (pos : Nat) :
    colBehind (slice ed.buf 0 pos) = pos - ed.lineStart pos ∧
      rowBehind (slice ed.buf 0 pos) = (slice ed.buf 0 (ed.lineStart pos)).count 0x0A ∧ ed.lineStart pos ≤ pos := by
  induction pos with
  | zero => exact ⟨rfl, rfl, Nat.le_refl 0⟩
  | succ pos before =>
    obtain ⟨col, row, le⟩ := before
    have longer : slice ed.buf 0 (pos + 1) = slice ed.buf 0 pos ++ [ed.buf pos] := by
      rw [slice_append, Nat.zero_add]
      rfl
    rw [Editor.lineStart]
    split
    next other =>
      rw [longer, colBehind_other other, rowBehind_other other, col, row]
      exact ⟨by omega, rfl, by omega⟩
    next ends =>
      rw [not_not] at ends
      rw [longer, ends, colBehind_newline, rowBehind_newline]
      refine ⟨by omega, ?_, Nat.le_refl _⟩
      rw [rowBehind_eq_count, List.count_append]
      rfl

private theorem redraw_eq (ed : Editor) :
    ed.redraw = [0x1B, 0x5B, 0x32, 0x4A, 0x1B, 0x5B, 0x48] ++ ed.content ++
      AnsiState.placeCursor (rowBehind (ed.content.take ed.cursor)) (colBehind (ed.content.take ed.cursor)) := by
  obtain ⟨col, row, -⟩ := position_lineStart ed ed.cursor
  rw [show ed.content.take ed.cursor = slice ed.buf 0 ed.cursor from slice_take _ _ ed.inside, row, col]
  simp only [Editor.redraw, AnsiState.placeCursor, List.append_assoc]

/-- After a redraw the screen shows the editor's text in the attributes it had, and the cursor is where the editor's is. -/
theorem redraw_shows_content (ed : Editor) (fits : Fits ed.content) (a : AnsiState) (ground : a.state = .ground) (w : Writer) :
    (a.feedAll w ed.redraw).1.state = .ground ∧
      (∀ row < vgaHeight, ∀ col < vgaWidth, (a.feedAll w ed.redraw).2.readCell row col = w.glyph (charAt ed.content row col)) ∧
      (a.feedAll w ed.redraw).2.row = rowBehind (ed.content.take ed.cursor) ∧
      (a.feedAll w ed.redraw).2.col = colBehind (ed.content.take ed.cursor) := by
  have part : Fits (ed.content.take ed.cursor) := by
    rw [← List.take_append_drop ed.cursor ed.content] at fits
    exact fits.of_append
  have plain : 0x1B ∉ ed.content := by
    intro escape
    have printable := fits.printable _ escape
    revert printable
    decide
  have shows := w.shows_clearScreen.prints fits
  obtain ⟨a', ground', placed⟩ :=
    AnsiState.feedAll_placeCursor (a := .init) (ed.content.foldl Writer.putChar w.clearScreen) rfl part.row_lt part.col_lt
  have fed : a.feedAll w ed.redraw =
      (a', { ed.content.foldl Writer.putChar w.clearScreen with
        row := rowBehind (ed.content.take ed.cursor), col := colBehind (ed.content.take ed.cursor) }) := by
    rw [redraw_eq, AnsiState.feedAll_append, AnsiState.feedAll_append, AnsiState.feedAll_clear w ground,
      AnsiState.feedAll_text (a := .init) rfl _ _ plain]
    exact placed
  rw [fed]
  exact ⟨ground', shows.cells, rfl, rfl⟩

/-- Two lines, an empty one behind them, and the cursor on the second. -/
def twoLines : Editor where
  buf := blit (fun _ => 0) 0 [0x61, 0x62, newline, 0x63, newline]
  len := 5
  cursor := 4
  fits := by decide
  inside := by decide

theorem twoLines_shown :
    ((AnsiState.init.feedAll (Writer.new fun _ => 0) twoLines.redraw).2.row = 1 ∧
      (AnsiState.init.feedAll (Writer.new fun _ => 0) twoLines.redraw).2.col = 1) ∧
      (AnsiState.init.feedAll (Writer.new fun _ => 0) twoLines.redraw).2.readCell 1 0 = 0x0763 := by
  have text : twoLines.content = [0x61, 0x62, newline, 0x63, newline] := rfl
  have fits : Fits twoLines.content := by
    rw [text]
    refine ⟨?_, by decide, by decide⟩
    simp
  obtain ⟨-, cells, row, col⟩ := redraw_shows_content twoLines fits AnsiState.init rfl (Writer.new fun _ => 0)
  exact ⟨⟨row.trans (by decide), col.trans (by decide)⟩, (cells 1 (by decide) 0 (by decide)).trans (by decide)⟩

end Pcern.Console

import Mathlib.Data.List.Basic
import Mathlib.Logic.Function.Basic

/-!
The screen of the console server: the text-mode buffer with its cursor (`vga.rs`), and the parser of escape sequences that
feeds it (`ansi.rs`).
-/
namespace Pcern.Console

abbrev vgaWidth : Nat := 80
abbrev vgaHeight : Nat := 25

inductive Color where
  | black | blue | green | cyan | red | magenta | brown | lightGray
  | darkGray | lightBlue | lightGreen | lightCyan | lightRed | pink | yellow | white
  deriving DecidableEq, Repr

namespace Color

def code : Color → UInt8
  | black => 0 | blue => 1 | green => 2 | cyan => 3 | red => 4 | magenta => 5 | brown => 6 | lightGray => 7
  | darkGray => 8 | lightBlue => 9 | lightGreen => 10 | lightCyan => 11 | lightRed => 12 | pink => 13 | yellow => 14 | white => 15

def fromLow3 (code : UInt8) : Color :=
  match (code &&& 0x7).toNat with
  | 0 => black | 1 => red | 2 => green | 3 => brown | 4 => blue | 5 => magenta | 6 => cyan | _ => lightGray

/-- The colour whose code has bit 3 set in addition. -/
def bright : Color → Color
  | black | darkGray => darkGray
  | blue | lightBlue => lightBlue
  | green | lightGreen => lightGreen
  | cyan | lightCyan => lightCyan
  | red | lightRed => lightRed
  | magenta | pink => pink
  | brown | yellow => yellow
  | lightGray | white => white

end Color

def screenChar (ascii : UInt8) (fg bg : Color) : UInt16 :=
  let attr := (bg.code &&& 0x7) <<< 4 ||| (fg.code &&& 0x0F)
  attr.toUInt16 <<< 8 ||| ascii.toUInt16

/-- The screen: cursor, attributes and the cells, row by row. -/
structure Writer where
  col : Nat
  row : Nat
  fg : Color
  bg : Color
  bold : Bool
  buffer : Nat → UInt16

namespace Writer

def new (buffer : Nat → UInt16) : Writer := { col := 0, row := 0, fg := .lightGray, bg := .black, bold := false, buffer }

def index (row col : Nat) : Nat := row * vgaWidth + col

def writeCell (w : Writer) (row col : Nat) (sc : UInt16) : Writer :=
  { w with buffer := Function.update w.buffer (index row col) sc }

def readCell (w : Writer) (row col : Nat) : UInt16 := w.buffer (index row col)

def effectiveFg (w : Writer) : Color := if w.bold then w.fg.bright else w.fg

def resetAttributes (w : Writer) : Writer := { w with fg := .lightGray, bg := .black, bold := false }

def glyph (w : Writer) (byte : UInt8) : UInt16 := screenChar byte w.effectiveFg w.bg

def clearRow (w : Writer) (row : Nat) : Writer :=
  let blank := w.glyph 0x20
  (List.range vgaWidth).foldl (fun w col => w.writeCell row col blank) w

def clearScreen (w : Writer) : Writer := { (List.range vgaHeight).foldl clearRow w with col := 0, row := 0 }

def clearRowRange (w : Writer) (row startCol endCol : Nat) : Writer :=
  let blank := w.glyph 0x20
  (List.range' startCol (min endCol vgaWidth - startCol)).foldl (fun w col => w.writeCell row col blank) w

/-- Every row moves up by one, and the last one is cleared. -/
def scroll (w : Writer) : Writer :=
  let moveRow (w : Writer) (row : Nat) : Writer :=
    (List.range vgaWidth).foldl (fun w col => w.writeCell (row - 1) col (w.readCell row col)) w
  ((List.range' 1 (vgaHeight - 1)).foldl moveRow w).clearRow (vgaHeight - 1)

def newLine (w : Writer) : Writer :=
  if w.row + 1 ≥ vgaHeight then { w with col := 0 }.scroll else { w with col := 0, row := w.row + 1 }

def setCursorPos (w : Writer) (row col : Nat) : Writer :=
  { w with row := min row (vgaHeight - 1), col := min col (vgaWidth - 1) }

def moveCursor (w : Writer) (dRow dCol : Int) : Writer :=
  { w with row := (max 0 (min (w.row + dRow) (vgaHeight - 1))).toNat, col := (max 0 (min (w.col + dCol) (vgaWidth - 1))).toNat }

def eraseInDisplay (w : Writer) : Nat → Writer
  | 0 => (List.range' (w.row + 1) (vgaHeight - (w.row + 1))).foldl clearRow (w.clearRowRange w.row w.col vgaWidth)
  | 1 => ((List.range w.row).foldl clearRow w).clearRowRange w.row 0 (w.col + 1)
  | _ => w.clearScreen

def eraseInLine (w : Writer) : Nat → Writer
  | 0 => w.clearRowRange w.row w.col vgaWidth
  | 1 => w.clearRowRange w.row 0 (w.col + 1)
  | _ => w.clearRowRange w.row 0 vgaWidth

/-- A full row is left only when the next character comes. -/
def putGlyph (w : Writer) (byte : UInt8) : Writer :=
  let w := if w.col ≥ vgaWidth then w.newLine else w
  { w.writeCell w.row w.col (w.glyph byte) with col := w.col + 1 }

/-- Blanks up to a column, eight at most. -/
def tabTo (nextTab : Nat) : Nat → Writer → Writer
  | 0, w => w
  | n + 1, w => if w.col < nextTab ∧ w.col < vgaWidth then tabTo nextTab n (w.putGlyph 0x20) else w

def putChar (w : Writer) (c : UInt8) : Writer :=
  if c = 0x0A then w.newLine
  else if c = 0x0D then { w with col := 0 }
  else if c = 0x08 then
    if w.col > 0 then { w.writeCell w.row (w.col - 1) (w.glyph 0x20) with col := w.col - 1 } else w
  else if c = 0x09 then tabTo ((w.col / 8 + 1) * 8) 8 w
  else w.putGlyph c

private theorem index_eq_iff {row col row' col' : Nat} (inside : col < vgaWidth) (inside' : col' < vgaWidth) :
    index row col = index row' col' ↔ row = row' ∧ col = col' := by
  simp only [index, vgaWidth] at *
  omega

theorem readCell_writeCell (w : Writer) (sc : UInt16) {row col row' col' : Nat} (inside : col < vgaWidth) (inside' : col' < vgaWidth) :
    (w.writeCell row col sc).readCell row' col' = if row' = row ∧ col' = col then sc else w.readCell row' col' := by
  simp only [readCell, writeCell, Function.update_apply, index_eq_iff inside' inside]

private theorem foldl_writeCell (row : Nat) (sc : UInt16) (cols : List Nat) (w : Writer) :
    cols.foldl (fun w col => w.writeCell row col sc) w =
      { w with buffer := fun a => if a ∈ cols.map (index row) then sc else w.buffer a } := by
  induction cols generalizing w with
  | nil => simp
  | cons col cols more =>
    rw [List.foldl_cons, more]
    congr 1
    funext a
    by_cases here : a = index row col <;> simp [writeCell, here, eq_comm]

theorem clearRow_eq (w : Writer) (row : Nat) :
    w.clearRow row = { w with buffer := fun a => if a / vgaWidth = row then w.glyph 0x20 else w.buffer a } := by
  rw [clearRow, foldl_writeCell]
  congr 1
  funext a
  congr 1
  simp only [List.mem_map, List.mem_range, index, vgaWidth, eq_iff_iff]
  constructor
  · rintro ⟨col, inside, rfl⟩
    omega
  · rintro rfl
    exact ⟨a % 80, Nat.mod_lt _ (by omega), by omega⟩

theorem foldl_clearRow (n : Nat) (w : Writer) :
    (List.range n).foldl clearRow w = { w with buffer := fun a => if a / vgaWidth < n then w.glyph 0x20 else w.buffer a } := by
  induction n with
  | zero => simp
  | succ n upTo =>
    rw [List.range_succ, List.foldl_append, upTo, List.foldl_cons, List.foldl_nil, clearRow_eq]
    congr 1
    funext a
    by_cases here : a / vgaWidth = n
    · rw [if_pos here, if_pos (by omega)]
      rfl
    · rw [if_neg here]
      exact if_congr (by omega) rfl rfl

/-- A cleared screen is blank, in the colours of the writer. -/
theorem readCell_clearScreen (w : Writer) {row col : Nat} (inside : row < vgaHeight) (within : col < vgaWidth) :
    w.clearScreen.readCell row col = w.glyph 0x20 := by
  rw [clearScreen, foldl_clearRow]
  apply if_pos
  rw [index, Nat.mul_comm, Nat.mul_add_div (by decide), Nat.div_eq_of_lt within]
  exact inside

@[simp] theorem glyph_clearScreen (w : Writer) : w.clearScreen.glyph = w.glyph := by
  rw [clearScreen, foldl_clearRow]
  rfl

end Writer

/-! ## Escape sequences -/

abbrev maxParams : Nat := 8

inductive ParseState where
  | ground
  | escape
  | csi
  deriving DecidableEq, Repr

/-- The parser: its parameters are 16-bit numbers, of which the first `maxParams` are used. -/
structure AnsiState where
  state : ParseState
  params : Nat → Nat
  nparams : Nat

namespace AnsiState

def init : AnsiState := { state := .ground, params := fun _ => 0, nparams := 0 }

def param (a : AnsiState) (idx default : Nat) : Nat := if idx < a.nparams ∧ a.params idx ≠ 0 then a.params idx else default

def rawParam (a : AnsiState) (idx : Nat) : Nat := if idx < a.nparams then a.params idx else 0

/-- One parameter of a sequence that sets attributes. -/
def sgr (w : Writer) (p : Nat) : Writer :=
  if p = 0 then w.resetAttributes
  else if p = 1 then { w with bold := true }
  else if p = 22 then { w with bold := false }
  else if 30 ≤ p ∧ p ≤ 37 then { w with fg := Color.fromLow3 (UInt8.ofNat (p - 30)) }
  else if p = 39 then { w with fg := .lightGray }
  else if 40 ≤ p ∧ p ≤ 47 then { w with bg := Color.fromLow3 (UInt8.ofNat (p - 40)) }
  else if p = 49 then { w with bg := .black }
  else if 90 ≤ p ∧ p ≤ 97 then { w with fg := (Color.fromLow3 (UInt8.ofNat (p - 90))).bright }
  else if 100 ≤ p ∧ p ≤ 107 then { w with bg := Color.fromLow3 (UInt8.ofNat (p - 100)) }
  else w

def applySgr (a : AnsiState) (w : Writer) : Writer :=
  if a.nparams = 0 then w.resetAttributes else (List.range a.nparams).foldl (fun w i => sgr w (a.params i)) w

/-- The command at the end of an escape sequence. -/
def execute (a : AnsiState) (byte : UInt8) (w : Writer) : Writer :=
  if byte = 0x41 then w.moveCursor (-(a.param 0 1)) 0
  else if byte = 0x42 then w.moveCursor (a.param 0 1) 0
  else if byte = 0x43 then w.moveCursor 0 (a.param 0 1)
  else if byte = 0x44 then w.moveCursor 0 (-(a.param 0 1))
  else if byte = 0x48 ∨ byte = 0x66 then w.setCursorPos (a.param 0 1 - 1) (a.param 1 1 - 1)
  else if byte = 0x4A then w.eraseInDisplay (a.rawParam 0)
  else if byte = 0x4B then w.eraseInLine (a.rawParam 0)
  else if byte = 0x6D then a.applySgr w
  else w

/-- A digit behind the others of the parameter that is being read. -/
def digit (a : AnsiState) (d : Nat) : AnsiState :=
  let n := if a.nparams = 0 then 1 else a.nparams
  if n - 1 < maxParams then
    { a with nparams := n, params := Function.update a.params (n - 1) (min (min (a.params (n - 1) * 10) 65535 + d) 65535) }
  else { a with nparams := n }

/-- One byte of output: a character for the screen, or part of an escape sequence. -/
def feed (a : AnsiState) (byte : UInt8) (w : Writer) : AnsiState × Writer :=
  match a.state with
  | .ground => if byte = 0x1B then ({ a with state := .escape }, w) else (a, w.putChar byte)
  | .escape =>
    if byte = 0x5B then ({ state := .csi, params := fun _ => 0, nparams := 0 }, w) else ({ a with state := .ground }, w)
  | .csi =>
    if 0x30 ≤ byte ∧ byte ≤ 0x39 then (a.digit (byte - 0x30).toNat, w)
    else if byte = 0x3B then (if a.nparams < maxParams then { a with nparams := a.nparams + 1 } else a, w)
    else if byte = 0x3F then (a, w)
    else if 0x40 ≤ byte ∧ byte ≤ 0x7E then ({ a with state := .ground }, a.execute byte w)
    else ({ a with state := .ground }, w)

def feedAll (a : AnsiState) (w : Writer) : List UInt8 → AnsiState × Writer
  | [] => (a, w)
  | byte :: bytes => (a.feed byte w).1.feedAll (a.feed byte w).2 bytes

end AnsiState

end Pcern.Console

import Pcern.Fuel
import Pcern.Screen

/-!
Where output touches the screen's buffer. The functions of `vga.rs` and `ansi.rs` again, with two things checked that the
plain ones leave out: a cell outside the screen is no cell, and a loop or a recursive call takes fuel. From every cursor on
the screen they do what the plain ones do, and leave the cursor there. The kernel has a copy of the same code, in which
`put_char` first sends the character to a serial port and waits until the port is ready.
-/
namespace Pcern.Console

/-- The cursor is in a row of the screen, and in a column of it or just behind the last. -/
structure Writer.OnScreen (w : Writer) : Prop where
  row : w.row < vgaHeight
  col : w.col ≤ vgaWidth

/-! ## Checked output -/

namespace Checked

def writeCell (w : Writer) (row col : Nat) (sc : UInt16) : Option Writer :=
  if row < vgaHeight ∧ col < vgaWidth then some (w.writeCell row col sc) else none

def readCell (w : Writer) (row col : Nat) : Option UInt16 :=
  if row < vgaHeight ∧ col < vgaWidth then some (w.readCell row col) else none

def clearRow (w : Writer) (row : Nat) : Option Writer :=
  (List.range vgaWidth).foldlM (fun w' col => writeCell w' row col (w.glyph 0x20)) w

def clearScreen (w : Writer) : Option Writer := do
  let w ← (List.range vgaHeight).foldlM clearRow w
  some { w with col := 0, row := 0 }

def clearRowRange (w : Writer) (row startCol endCol : Nat) : Option Writer :=
  (List.range' startCol (min endCol vgaWidth - startCol)).foldlM (fun w' col => writeCell w' row col (w.glyph 0x20)) w

def moveRow (w : Writer) (row : Nat) : Option Writer :=
  (List.range vgaWidth).foldlM (fun w col => do writeCell w (row - 1) col (← readCell w row col)) w

def scroll (w : Writer) : Option Writer := do
  let w ← (List.range' 1 (vgaHeight - 1)).foldlM moveRow w
  clearRow w (vgaHeight - 1)

def newLine (w : Writer) : Option Writer :=
  if w.row + 1 ≥ vgaHeight then scroll { w with col := 0 } else some { w with col := 0, row := w.row + 1 }

def eraseInDisplay (w : Writer) : Nat → Option Writer
  | 0 => do
    let w' ← clearRowRange w w.row w.col vgaWidth
    (List.range' (w.row + 1) (vgaHeight - (w.row + 1))).foldlM clearRow w'
  | 1 => do
    let w' ← (List.range w.row).foldlM clearRow w
    clearRowRange w' w.row 0 (w.col + 1)
  | _ => clearScreen w

def eraseInLine (w : Writer) : Nat → Option Writer
  | 0 => clearRowRange w w.row w.col vgaWidth
  | 1 => clearRowRange w w.row 0 (w.col + 1)
  | _ => clearRowRange w w.row 0 vgaWidth

def putGlyph (w : Writer) (byte : UInt8) : Option Writer := do
  let w ← (if w.col ≥ vgaWidth then newLine w else some w)
  let w ← writeCell w w.row w.col (w.glyph byte)
  some { w with col := w.col + 1 }

def backspace (w : Writer) : Option Writer :=
  if w.col > 0 then do
    let w := { w with col := w.col - 1 }
    writeCell w w.row w.col (w.glyph 0x20)
  else some w

/-- `serial::write_byte`, from the poll that is next: `ready` is what the port answers to each. -/
def writeByte (ready : Nat → Bool) : Nat → Nat → Option Nat
  | 0, _ => none
  | fuel + 1, poll => if ready poll then some (poll + 1) else writeByte ready fuel (poll + 1)

/-- The copy of a character to the serial port, where there is one. -/
def mirror (port : Option (Nat → Bool)) (fuel poll : Nat) : Option Nat :=
  match port with
  | none => some poll
  | some ready => writeByte ready fuel poll

mutual

def putChar (port : Option (Nat → Bool)) : Nat → Nat × Writer → UInt8 → Option (Nat × Writer)
  | 0, _, _ => none
  | fuel + 1, (poll, w), c => do
    let poll ← mirror port fuel poll
    if c = 0x0A then (newLine w).map (poll, ·)
    else if c = 0x0D then some (poll, { w with col := 0 })
    else if c = 0x08 then (backspace w).map (poll, ·)
    else if c = 0x09 then expandTab port ((w.col / 8 + 1) * 8) fuel (poll, w)
    else (putGlyph w c).map (poll, ·)

def expandTab (port : Option (Nat → Bool)) (nextTab : Nat) : Nat → Nat × Writer → Option (Nat × Writer)
  | 0, _ => none
  | fuel + 1, (poll, w) =>
    if w.col < nextTab ∧ w.col < vgaWidth then do
      let s ← putChar port fuel (poll, w) 0x20
      expandTab port nextTab fuel s
    else some (poll, w)

end

def execute (a : AnsiState) (byte : UInt8) (w : Writer) : Option Writer :=
  if byte = 0x41 then some (w.moveCursor (-(a.param 0 1)) 0)
  else if byte = 0x42 then some (w.moveCursor (a.param 0 1) 0)
  else if byte = 0x43 then some (w.moveCursor 0 (a.param 0 1))
  else if byte = 0x44 then some (w.moveCursor 0 (-(a.param 0 1)))
  else if byte = 0x48 ∨ byte = 0x66 then some (w.setCursorPos (a.param 0 1 - 1) (a.param 1 1 - 1))
  else if byte = 0x4A then eraseInDisplay w (a.rawParam 0)
  else if byte = 0x4B then eraseInLine w (a.rawParam 0)
  else if byte = 0x6D then some (a.applySgr w)
  else some w

def feed (port : Option (Nat → Bool)) (fuel : Nat) (a : AnsiState) (byte : UInt8) (s : Nat × Writer) :
    Option (AnsiState × Nat × Writer) :=
  match a.state with
  | .ground => if byte = 0x1B then some ({ a with state := .escape }, s) else (putChar port fuel s byte).map (a, ·)
  | .escape =>
    if byte = 0x5B then some ({ state := .csi, params := fun _ => 0, nparams := 0 }, s) else some ({ a with state := .ground }, s)
  | .csi =>
    if 0x30 ≤ byte ∧ byte ≤ 0x39 then some (a.digit (byte - 0x30).toNat, s)
    else if byte = 0x3B then some (if a.nparams < maxParams then { a with nparams := a.nparams + 1 } else a, s)
    else if byte = 0x3F then some (a, s)
    else if 0x40 ≤ byte ∧ byte ≤ 0x7E then (execute a byte s.2).map fun w => ({ a with state := .ground }, s.1, w)
    else some ({ a with state := .ground }, s)

def feedAll (port : Option (Nat → Bool)) (fuel : Nat) (a : AnsiState) (s : Nat × Writer) :
    List UInt8 → Option (AnsiState × Nat × Writer)
  | [] => some (a, s)
  | byte :: bytes => do
    let (a, s) ← feed port fuel a byte s
    feedAll port fuel a s bytes

end Checked

/-! ## The cursor -/

namespace Writer
variable {w : Writer}

private theorem foldl_cursor {α : Type} {f : Writer → α → Writer} (pass : ∀ w x, (f w x).row = w.row ∧ (f w x).col = w.col)
    (l : List α) (w : Writer) : (l.foldl f w).row = w.row ∧ (l.foldl f w).col = w.col := by
  refine List.foldlRecOn l f (motive := fun w' => w'.row = w.row ∧ w'.col = w.col) ⟨rfl, rfl⟩ fun w' same x _ => ?_
  rw [(pass w' x).1, (pass w' x).2]
  exact same

private theorem clearRow_cursor (w : Writer) (row : Nat) : (w.clearRow row).row = w.row ∧ (w.clearRow row).col = w.col := by
  unfold clearRow
  apply foldl_cursor
  intro w col
  exact ⟨rfl, rfl⟩

private theorem clearRowRange_cursor (w : Writer) (row startCol endCol : Nat) :
    (w.clearRowRange row startCol endCol).row = w.row ∧ (w.clearRowRange row startCol endCol).col = w.col := by
  unfold clearRowRange
  apply foldl_cursor
  intro w col
  exact ⟨rfl, rfl⟩

private theorem scroll_cursor (w : Writer) : w.scroll.row = w.row ∧ w.scroll.col = w.col := by
  unfold scroll
  rw [(clearRow_cursor _ _).1, (clearRow_cursor _ _).2]
  apply foldl_cursor
  intro w row
  apply foldl_cursor
  intro w col
  exact ⟨rfl, rfl⟩

namespace OnScreen

theorem newLine (on : w.OnScreen) : w.newLine.OnScreen ∧ w.newLine.col = 0 := by
  unfold Writer.newLine
  split
  · obtain ⟨row, col⟩ := scroll_cursor { w with col := 0 }
    exact ⟨⟨Nat.lt_of_le_of_lt (Nat.le_of_eq row) on.row, Nat.le_trans (Nat.le_of_eq col) (Nat.zero_le _)⟩, col⟩
  next room => exact ⟨⟨Nat.lt_of_not_le room, Nat.zero_le _⟩, rfl⟩

theorem clearScreen (w : Writer) : w.clearScreen.OnScreen := ⟨Nat.zero_lt_succ _, Nat.zero_le _⟩

theorem setCursorPos (w : Writer) (row col : Nat) : (w.setCursorPos row col).OnScreen := by
  constructor <;> simp only [Writer.setCursorPos, vgaHeight, vgaWidth] <;> omega

theorem moveCursor (w : Writer) (dRow dCol : Int) : (w.moveCursor dRow dCol).OnScreen := by
  constructor <;> simp only [Writer.moveCursor, vgaHeight, vgaWidth] <;> omega

variable (on : w.OnScreen)
include on

theorem clearRowRange (row startCol endCol : Nat) : (w.clearRowRange row startCol endCol).OnScreen := by
  obtain ⟨row', col'⟩ := clearRowRange_cursor w row startCol endCol
  exact ⟨row' ▸ on.row, col' ▸ on.col⟩

theorem foldl_clearRow (rows : List Nat) : (rows.foldl Writer.clearRow w).OnScreen := by
  obtain ⟨row, col⟩ := foldl_cursor clearRow_cursor rows w
  exact ⟨row ▸ on.row, col ▸ on.col⟩

theorem eraseInDisplay (mode : Nat) : (w.eraseInDisplay mode).OnScreen := by
  unfold Writer.eraseInDisplay
  split
  · exact (on.clearRowRange _ _ _).foldl_clearRow _
  · exact (on.foldl_clearRow _).clearRowRange _ _ _
  · exact clearScreen w

theorem eraseInLine (mode : Nat) : (w.eraseInLine mode).OnScreen := by
  unfold Writer.eraseInLine
  split <;> exact on.clearRowRange _ _ _

theorem wrap :
    (if w.col ≥ vgaWidth then w.newLine else w).OnScreen ∧ (if w.col ≥ vgaWidth then w.newLine else w).col < vgaWidth := by
  split
  · exact ⟨on.newLine.1, by rw [on.newLine.2]; decide⟩
  next room => exact ⟨on, Nat.lt_of_not_le room⟩

theorem putGlyph (byte : UInt8) : (w.putGlyph byte).OnScreen :=
  ⟨on.wrap.1.row, Nat.succ_le_of_lt on.wrap.2⟩

theorem tabTo (nextTab n : Nat) : (Writer.tabTo nextTab n w).OnScreen := by
  induction n generalizing w with
  | zero => exact on
  | succ n more =>
    unfold Writer.tabTo
    split
    · exact more (on.putGlyph _)
    · exact on

theorem putChar (c : UInt8) : (w.putChar c).OnScreen := by
  unfold Writer.putChar
  split
  · exact on.newLine.1
  split
  · exact ⟨on.row, Nat.zero_le _⟩
  split
  · split
    · exact ⟨on.row, Nat.le_trans (Nat.sub_le _ _) on.col⟩
    · exact on
  split
  · exact on.tabTo _ _
  · exact on.putGlyph c

end OnScreen

end Writer

/-! ## Every cell is on the screen -/

namespace Checked
open Fuel
variable {w : Writer} {row : Nat}

private theorem writeCell_eq {col : Nat} (inside : row < vgaHeight) (within : col < vgaWidth) (w : Writer) (sc : UInt16) :
    writeCell w row col sc = some (w.writeCell row col sc) := if_pos ⟨inside, within⟩

private theorem readCell_eq {col : Nat} (inside : row < vgaHeight) (within : col < vgaWidth) (w : Writer) :
    readCell w row col = some (w.readCell row col) := if_pos ⟨inside, within⟩

theorem clearRow_eq (inside : row < vgaHeight) (w : Writer) : clearRow w row = some (w.clearRow row) :=
  foldlM_eq_foldl (fun _ within w' => writeCell_eq inside (List.mem_range.mp within) w' _) w

private theorem clearScreen_eq (w : Writer) : clearScreen w = some w.clearScreen := by
  rw [clearScreen, foldlM_eq_foldl fun row inside w' => clearRow_eq (List.mem_range.mp inside) w']
  rfl

private theorem clearRowRange_eq (inside : row < vgaHeight) (w : Writer) (startCol endCol : Nat) :
    clearRowRange w row startCol endCol = some (w.clearRowRange row startCol endCol) := by
  refine foldlM_eq_foldl (fun col among w' => writeCell_eq inside ?_ w' _) w
  have := List.mem_range'_1.mp among
  omega

private theorem moveRow_eq (inside : row < vgaHeight) (w : Writer) :
    moveRow w row =
      some ((List.range vgaWidth).foldl (fun w col => w.writeCell (row - 1) col (w.readCell row col)) w) := by
  refine foldlM_eq_foldl (fun col among w' => ?_) w
  have within := List.mem_range.mp among
  rw [readCell_eq inside within]
  exact writeCell_eq (Nat.lt_of_le_of_lt (Nat.sub_le _ _) inside) within w' _

private theorem scroll_eq (w : Writer) : scroll w = some w.scroll := by
  have inside (row : Nat) (among : row ∈ List.range' 1 (vgaHeight - 1)) : row < vgaHeight := by
    have := List.mem_range'_1.mp among
    omega
  have last : vgaHeight - 1 < vgaHeight := by decide
  rw [scroll, foldlM_eq_foldl fun row among w' => moveRow_eq (inside row among) w', Option.bind_eq_bind, Option.bind_some,
    clearRow_eq last, Writer.scroll]

private theorem newLine_eq (w : Writer) : newLine w = some w.newLine := by
  rw [newLine, scroll_eq, ← apply_ite some]
  rfl

private theorem eraseInDisplay_eq (on : w.OnScreen) (mode : Nat) : eraseInDisplay w mode = some (w.eraseInDisplay mode) := by
  rcases mode with _ | _ | mode
  · rw [eraseInDisplay, clearRowRange_eq on.row]
    refine foldlM_eq_foldl (fun row among w' => clearRow_eq ?_ w') _
    have := List.mem_range'_1.mp among
    omega
  · rw [eraseInDisplay, foldlM_eq_foldl fun row among w' => clearRow_eq (Nat.lt_trans (List.mem_range.mp among) on.row) w']
    exact clearRowRange_eq on.row _ _ _
  · exact clearScreen_eq w

private theorem eraseInLine_eq (on : w.OnScreen) (mode : Nat) : eraseInLine w mode = some (w.eraseInLine mode) := by
  rcases mode with _ | _ | mode <;> exact clearRowRange_eq on.row _ _ _

private theorem putGlyph_eq (on : w.OnScreen) (byte : UInt8) : putGlyph w byte = some (w.putGlyph byte) := by
  rw [putGlyph, newLine_eq, ← apply_ite some]
  refine (congrArg (· >>= _) (writeCell_eq on.wrap.1.row on.wrap.2 _ _)).trans ?_
  rfl

private theorem backspace_eq (on : w.OnScreen) : backspace w = some (w.putChar 0x08) := by
  unfold backspace
  split
  next behind =>
    have within : w.col - 1 < vgaWidth := by
      have := on.col
      omega
    rw [writeCell_eq on.row within]
    exact (congrArg some (if_pos behind)).symm
  next first => exact (congrArg some (if_neg first)).symm

/-! ## Every character ends -/

/-- The serial port gets ready again, however often it is asked. -/
def Serves (port : Option (Nat → Bool)) : Prop := ∀ ready, port = some ready → ∀ poll, ∃ n, ready (poll + n) = true

variable {port : Option (Nat → Bool)}

private theorem writeByte_ends {ready : Nat → Bool} {poll n : Nat} (free : ready (poll + n) = true) :
    ∃ poll', Ends (writeByte ready · poll) poll' := by
  induction n generalizing poll with
  | zero => exact ⟨poll + 1, Ends.spend (.now rfl) fun fuel => if_pos free⟩
  | succ n later =>
    by_cases now : ready poll = true
    · exact ⟨poll + 1, Ends.spend (.now rfl) fun fuel => if_pos now⟩
    · have free' : ready (poll + 1 + n) = true := by rwa [Nat.add_right_comm]
      obtain ⟨poll', ends⟩ := later free'
      exact ⟨poll', ends.spend fun fuel => if_neg now⟩

private theorem mirror_ends (serves : Serves port) (poll : Nat) : ∃ poll', Ends (mirror port · poll) poll' := by
  cases port with
  | none => exact ⟨poll, .now rfl⟩
  | some ready =>
    obtain ⟨n, free⟩ := serves ready rfl poll
    exact writeByte_ends free

private theorem putChar_succ (on : w.OnScreen) (fuel poll : Nat) {c : UInt8} (noTab : c ≠ 0x09) :
    putChar port (fuel + 1) (poll, w) c = (mirror port fuel poll).map (·, w.putChar c) := by
  rw [putChar, Option.map_eq_bind, Option.bind_eq_bind]
  congr 1
  funext poll'
  by_cases line : c = 0x0A
  · rw [if_pos line, newLine_eq, Writer.putChar, if_pos line]
    rfl
  · rw [if_neg line]
    by_cases start : c = 0x0D
    · rw [if_pos start, Writer.putChar, if_neg line, if_pos start]
      rfl
    · rw [if_neg start]
      by_cases back : c = 0x08
      · rw [if_pos back, backspace_eq on, back]
        rfl
      · rw [if_neg back, if_neg noTab, putGlyph_eq on, Writer.putChar, if_neg line, if_neg start, if_neg back, if_neg noTab]
        rfl

private theorem putChar_ends_of_ne (serves : Serves port) (on : w.OnScreen) (poll : Nat) {c : UInt8} (noTab : c ≠ 0x09) :
    ∃ poll', Ends (putChar port · (poll, w) c) (poll', w.putChar c) := by
  obtain ⟨poll', mirrored⟩ := mirror_ends serves poll
  exact ⟨poll', (mirrored.map (·, w.putChar c)).spend fun fuel => putChar_succ on fuel poll noTab⟩

private theorem expandTab_ends (serves : Serves port) (nextTab n : Nat) (on : w.OnScreen)
    (near : min nextTab vgaWidth - w.col ≤ n) (poll : Nat) :
    ∃ poll', Ends (expandTab port nextTab · (poll, w)) (poll', Writer.tabTo nextTab n w) := by
  induction n generalizing w poll with
  | zero =>
    refine ⟨poll, Ends.spend (.now rfl) fun fuel => ?_⟩
    rw [expandTab, if_neg (by omega)]
    rfl
  | succ n more =>
    by_cases room : w.col < nextTab ∧ w.col < vgaWidth
    · obtain ⟨poll', blank⟩ := putChar_ends_of_ne serves on poll (c := 0x20) (by decide)
      have step : (w.putChar 0x20).col = w.col + 1 := by
        show (if w.col ≥ vgaWidth then w.newLine else w).col + 1 = _
        rw [if_neg (Nat.not_le_of_lt room.2)]
      obtain ⟨poll'', rest⟩ := more (on.putChar 0x20) (by omega) poll'
      rw [Writer.tabTo, if_pos room]
      refine ⟨poll'', (blank.bind rest).spend fun fuel => ?_⟩
      rw [expandTab, if_pos room]
      rfl
    · refine ⟨poll, Ends.spend (.now rfl) fun fuel => ?_⟩
      rw [expandTab, if_neg room, Writer.tabTo, if_neg room]

private theorem putChar_ends (serves : Serves port) (on : w.OnScreen) (poll : Nat) (c : UInt8) :
    ∃ poll', Ends (putChar port · (poll, w) c) (poll', w.putChar c) := by
  by_cases tab : c = 0x09
  · obtain ⟨poll', mirrored⟩ := mirror_ends serves poll
    have near : min ((w.col / 8 + 1) * 8) vgaWidth - w.col ≤ 8 := by omega
    obtain ⟨poll'', blanks⟩ := expandTab_ends serves _ 8 on near poll'
    rw [tab]
    exact ⟨poll'', (mirrored.bind blanks).spend fun fuel => rfl⟩
  · exact putChar_ends_of_ne serves on poll tab

theorem execute_eq (a : AnsiState) (byte : UInt8) (on : w.OnScreen) : execute a byte w = some (a.execute byte w) := by
  simp only [execute, AnsiState.execute, eraseInDisplay_eq on, eraseInLine_eq on, ← apply_ite some]

end Checked

namespace Writer.OnScreen
variable {w : Writer} (on : w.OnScreen)
include on

theorem ite {w' : Writer} {c : Prop} [Decidable c] (on' : w'.OnScreen) : (if c then w else w').OnScreen := by
  split
  · exact on
  · exact on'

theorem sgr (p : Nat) : (AnsiState.sgr w p).OnScreen := by
  have same {fg bg : Color} {bold : Bool} : { w with fg, bg, bold }.OnScreen := ⟨on.row, on.col⟩
  unfold AnsiState.sgr
  repeat refine ite same ?_
  exact on

theorem applySgr (a : AnsiState) : (a.applySgr w).OnScreen := by
  unfold AnsiState.applySgr
  split
  · exact ⟨on.row, on.col⟩
  · exact List.foldlRecOn (List.range a.nparams) _ on fun w' on' i _ => on'.sgr (a.params i)

theorem execute (a : AnsiState) (byte : UInt8) : (a.execute byte w).OnScreen := by
  unfold AnsiState.execute
  repeat refine ite (moveCursor ..) ?_
  refine ite (setCursorPos ..) ?_
  refine ite (on.eraseInDisplay _) ?_
  refine ite (on.eraseInLine _) ?_
  exact ite (on.applySgr a) on

end Writer.OnScreen

theorem Writer.OnScreen.feed {w : Writer} (on : w.OnScreen) (a : AnsiState) (byte : UInt8) : (a.feed byte w).2.OnScreen := by
  unfold AnsiState.feed
  split
  · split_ifs
    · exact on
    · exact on.putChar byte
  · split_ifs <;> exact on
  · split_ifs
    · exact on
    · exact on
    · exact on
    · exact on
    · exact on.execute a byte
    · exact on

/-! ## Whole outputs -/

namespace Checked
open Fuel
variable {w : Writer} {port : Option (Nat → Bool)}

private theorem feed_ends (serves : Serves port) (a : AnsiState) (byte : UInt8) (on : w.OnScreen) (poll : Nat) :
    ∃ poll', Ends (feed port · a byte (poll, w)) ((a.feed byte w).1, poll', (a.feed byte w).2) := by
  cases reading : a.state with
  | ground =>
    simp only [feed, AnsiState.feed, reading]
    by_cases escape : byte = 0x1B
    · simp only [if_pos escape]
      exact ⟨poll, .now rfl⟩
    · simp only [if_neg escape]
      obtain ⟨poll', ends⟩ := putChar_ends serves on poll byte
      exact ⟨poll', ends.map (a, ·)⟩
  | escape =>
    simp only [feed, AnsiState.feed, reading]
    refine ⟨poll, .now ?_⟩
    split <;> rfl
  | csi =>
    simp only [feed, AnsiState.feed, reading, execute_eq a byte on, Option.map_some]
    refine ⟨poll, .now ?_⟩
    split_ifs <;> rfl

private theorem feedAll_ends (serves : Serves port) (bytes : List UInt8) (a : AnsiState) (on : w.OnScreen) (poll : Nat) :
    ∃ poll', Ends (feedAll port · a (poll, w) bytes) ((a.feedAll w bytes).1, poll', (a.feedAll w bytes).2) := by
  induction bytes generalizing a w poll with
  | nil => exact ⟨poll, .now rfl⟩
  | cons byte bytes more =>
    obtain ⟨poll', first⟩ := feed_ends serves a byte on poll
    obtain ⟨poll'', rest⟩ := more (a.feed byte w).1 (on.feed a byte) poll'
    exact ⟨poll'', first.bind rest⟩

end Checked

theorem Writer.OnScreen.feedAll {w : Writer} (on : w.OnScreen) (a : AnsiState) (bytes : List UInt8) :
    (a.feedAll w bytes).2.OnScreen := by
  induction bytes generalizing a w with
  | nil => exact on
  | cons byte bytes more => exact more (on.feed a byte) _

theorem Writer.index_lt {row col : Nat} (inside : row < vgaHeight) (within : col < vgaWidth) : index row col < 2000 := by
  simp only [index, vgaHeight, vgaWidth] at *
  omega

/-- Whatever is fed to the screen, in the console server or in the kernel: the cursor stays on it, the output comes to
its end with every cell it touches on the screen, and so does every further character. -/
theorem output_stays_on_screen {port : Option (Nat → Bool)} (serves : Checked.Serves port) {w : Writer} (on : w.OnScreen)
    (a : AnsiState) (bytes : List UInt8) (poll : Nat) :
    (a.feedAll w bytes).2.OnScreen ∧
      (∃ poll', Fuel.Ends (Checked.feedAll port · a (poll, w) bytes) ((a.feedAll w bytes).1, poll', (a.feedAll w bytes).2)) ∧
      (∀ c, ∃ poll', Fuel.Ends (Checked.putChar port · (poll, (a.feedAll w bytes).2) c) (poll', (a.feedAll w bytes).2.putChar c)) ∧
      ∀ row col, row < vgaHeight → col < vgaWidth → Writer.index row col < 2000 :=
  ⟨on.feedAll a bytes, Checked.feedAll_ends serves bytes a on poll, Checked.putChar_ends serves (on.feedAll a bytes) poll,
    fun _ _ => Writer.index_lt⟩

/-- A port that is ready at every third poll, and a tab behind the last column but one. -/
theorem tab_at_margin :
    Checked.Serves (some fun poll => poll % 3 == 0) ∧
      (Writer.new fun _ => 0).OnScreen ∧
      (AnsiState.init.feedAll (Writer.new fun _ => 0) [0x1B, 0x5B, 0x37, 0x39, 0x43, 0x09]).2.OnScreen ∧
      (AnsiState.init.feedAll (Writer.new fun _ => 0) [0x1B, 0x5B, 0x37, 0x39, 0x43, 0x09]).2.col = 80 := by
  have serves : Checked.Serves (some fun poll => poll % 3 == 0) := by
    rintro ready ⟨⟩ poll
    exact ⟨2 * poll, by simp; omega⟩
  have start : (Writer.new fun _ => 0).OnScreen := ⟨by decide, by decide⟩
  exact ⟨serves, start, (output_stays_on_screen serves start .init _ 0).1, by decide⟩

end Pcern.Console

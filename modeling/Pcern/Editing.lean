import Pcern.Editor
import Pcern.Guarded
import Pcern.Texts

/-!
The keys of the editor (`apply_key`). Bytes are moved in place and lines are looked for byte by byte; every access to the
buffer is checked, and so is that the cursor stays in the text. What the keys do is what they do to a text with a cursor.
-/
namespace Pcern
open Bytes Texts

namespace Editor

abbrev newline : UInt8 := 0x0A
abbrev tab : UInt8 := 0x09
abbrev space : UInt8 := 0x20

abbrev keyCtrlS : UInt32 := 0x13
abbrev keyCtrlQ : UInt32 := 0x11
abbrev keyBackspace : UInt32 := 8
abbrev keyUp : UInt32 := 256
abbrev keyDown : UInt32 := 257
abbrev keyLeft : UInt32 := 258
abbrev keyRight : UInt32 := 259
abbrev keyHome : UInt32 := 260
abbrev keyEnd : UInt32 := 261
abbrev keyDelete : UInt32 := 262

/-- `u8::is_ascii_graphic`. -/
def isAsciiGraphic (byte : UInt8) : Bool := 0x21 ≤ byte && byte ≤ 0x7E

def accepted (byte : UInt8) : Bool := byte = newline || byte = tab || isAsciiGraphic byte || byte = space

/-- The pages of the editor as one buffer. -/
def buffer (ed : Editor) : Buffer := ⟨ed.buf, editorMaxBytes⟩

/-! ## Keys -/

/-- `append_loaded`. -/
def load (ed : Editor) (data : List UInt8) : Option (Editor × Bool) := do
  let room ← checkedSub editorMaxBytes ed.len
  let n := min data.length room
  let b ← ed.buffer.copyFromSlice ed.len (ed.len + n) (data.take n)
  if fits : ed.len + n ≤ editorMaxBytes then
    some ({ buf := b.bytes, len := ed.len + n, cursor := ed.cursor, fits, inside := Nat.le_trans ed.inside (Nat.le_add_right _ _) },
      n == data.length)
  else none

/-- The loop of `line_start`. -/
def scanBack (b : Buffer) : Nat → Option Nat
  | 0 => some 0
  | i + 1 => do if (← b.index i) ≠ newline then scanBack b i else some (i + 1)

/-- The loop of `line_end`, with so many bytes of the text to go. -/
def scanOn (b : Buffer) : Nat → Nat → Option Nat
  | 0, i => some i
  | n + 1, i => do if (← b.index i) ≠ newline then scanOn b n (i + 1) else some i

def findStart (ed : Editor) (pos : Nat) : Option Nat := scanBack ed.buffer pos

def findEnd (ed : Editor) (pos : Nat) : Option Nat := scanOn ed.buffer (ed.len - pos) pos

/-- The loop of `insert_byte`: the bytes behind the cursor go up by one, the last one first. -/
def shiftUp (cursor : Nat) : Nat → Buffer → Option Buffer
  | 0, b => some b
  | i + 1, b =>
    if i + 1 > cursor then do
      let byte ← b.index i
      let b ← b.set (i + 1) byte
      shiftUp cursor i b
    else some b

/-- `b[i - 1] = b[i]`. -/
def pullDown (b : Buffer) (i : Nat) : Option Buffer := do
  let byte ← b.index i
  b.set (← checkedSub i 1) byte

/-- The loop of `backspace` and `delete_forward`: the bytes from `first` on go down by one. -/
def shiftDown (first len : Nat) (b : Buffer) : Option Buffer := (List.range' first (len - first)).foldlM pullDown b

/-- A full buffer ignores the byte. -/
def insertByte (ed : Editor) (byte : UInt8) : Option Editor :=
  if full : ed.len ≥ editorMaxBytes then some ed
  else do
    let b ← shiftUp ed.cursor ed.len ed.buffer
    let b ← b.set ed.cursor byte
    some
      { buf := b.bytes, len := ed.len + 1, cursor := ed.cursor + 1, fits := Nat.lt_of_not_le full
        inside := Nat.add_le_add_right ed.inside 1 }

def backspace (ed : Editor) : Option Editor :=
  if ed.cursor = 0 then some ed
  else do
    let b ← shiftDown ed.cursor ed.len ed.buffer
    some
      { buf := b.bytes, len := ed.len - 1, cursor := ed.cursor - 1, fits := Nat.le_trans (Nat.sub_le _ _) ed.fits
        inside := Nat.sub_le_sub_right ed.inside 1 }

def deleteForward (ed : Editor) : Option Editor :=
  if last : ed.cursor ≥ ed.len then some ed
  else do
    let b ← shiftDown (ed.cursor + 1) ed.len ed.buffer
    some
      { buf := b.bytes, len := ed.len - 1, cursor := ed.cursor, fits := Nat.le_trans (Nat.sub_le _ _) ed.fits
        inside := Nat.le_sub_one_of_lt (Nat.lt_of_not_le last) }

def place (ed : Editor) (pos : Nat) : Option Editor :=
  if inside : pos ≤ ed.len then some { ed with cursor := pos, inside } else none

/-- To the same column of the line above, or to its end. -/
def moveUp (ed : Editor) : Option Editor := do
  let curStart ← ed.findStart ed.cursor
  let col ← checkedSub ed.cursor curStart
  if curStart > 0 then
    let prevEnd := curStart - 1
    let prevStart ← ed.findStart prevEnd
    let prevLen ← checkedSub prevEnd prevStart
    ed.place (prevStart + min col prevLen)
  else some ed

def moveDown (ed : Editor) : Option Editor := do
  let curStart ← ed.findStart ed.cursor
  let col ← checkedSub ed.cursor curStart
  let curEnd ← ed.findEnd ed.cursor
  if curEnd < ed.len then
    let nextStart := curEnd + 1
    let nextEnd ← ed.findEnd nextStart
    let nextLen ← checkedSub nextEnd nextStart
    ed.place (nextStart + min col nextLen)
  else some ed

/-- The editor after a key, and whether the text is to be saved if the key ends the session. -/
def applyKey (ed : Editor) (key : UInt32) : Option (Editor × Option Bool) :=
  if key = keyCtrlS then some (ed, some true)
  else if key = keyCtrlQ then some (ed, some false)
  else if key = keyLeft then (ed.place (ed.cursor - 1)).map (·, none)
  else if key = keyRight then (ed.place (min (ed.cursor + 1) ed.len)).map (·, none)
  else if key = keyHome then ((ed.findStart ed.cursor).bind ed.place).map (·, none)
  else if key = keyEnd then ((ed.findEnd ed.cursor).bind ed.place).map (·, none)
  else if key = keyUp then ed.moveUp.map (·, none)
  else if key = keyDown then ed.moveDown.map (·, none)
  else if key = keyDelete then ed.deleteForward.map (·, none)
  else if key = keyBackspace then ed.backspace.map (·, none)
  else if key ≤ 255 then
    if accepted key.toUInt8 then (ed.insertByte key.toUInt8).map (·, none) else some (ed, none)
  else some (ed, none)

/-! ## The text with a cursor -/

def text (ed : Editor) : Text UInt8 editorMaxBytes where
  bytes := ed.content
  pos := ed.cursor
  fits := by
    rw [length_content]
    exact ed.fits
  inside := by
    rw [length_content]
    exact ed.inside

@[simp] theorem length_text (ed : Editor) : ed.text.bytes.length = ed.len := length_content ed

/-- What a key means for a text. -/
def press (t : Text UInt8 editorMaxBytes) (key : UInt32) : Text UInt8 editorMaxBytes :=
  if key = keyLeft then t.left
  else if key = keyRight then t.right
  else if key = keyHome then t.home newline
  else if key = keyEnd then t.toEnd newline
  else if key = keyUp then t.up newline
  else if key = keyDown then t.down newline
  else if key = keyDelete then t.delete
  else if key = keyBackspace then t.backspace
  else if key ≤ 255 ∧ accepted key.toUInt8 then t.insert key.toUInt8
  else t

variable {ed : Editor}

/-! ## Lines -/

variable {i pos size : Nat} {m m' : Memory}

private theorem getElem_content (inside : i < ed.content.length) : ed.content[i] = ed.buf i := by
  simp [content, slice]

private theorem index_buffer (inside : i < ed.len) : ed.buffer.index i = some (ed.buf i) :=
  Buffer.index_eq (Nat.lt_of_lt_of_le inside ed.fits)

private theorem findStart_eq (inside : pos ≤ ed.len) :
    ed.findStart pos = some (start newline ed.content (rowAt newline ed.content pos)) := by
  unfold findStart
  induction pos with
  | zero => rfl
  | succ i before =>
    have there : i < ed.content.length := by rwa [length_content]
    have row := rowAt_succ newline there
    have ends := separator_iff newline there
    rw [getElem_content] at row ends
    rw [scanBack, index_buffer inside, Option.bind_eq_bind, Option.bind_some, row]
    by_cases separates : ed.buf i = newline
    · rw [if_neg (not_not.mpr separates), if_pos separates, start_succ (rowAt_lt _ (Nat.le_of_lt there)), ends.mp separates]
    · rw [if_pos separates, if_neg separates]
      exact before (Nat.le_of_succ_le inside)

private theorem findEnd_eq (inside : pos ≤ ed.len) :
    ed.findEnd pos = some (start newline ed.content (rowAt newline ed.content pos) +
      width newline ed.content (rowAt newline ed.content pos)) := by
  unfold findEnd
  obtain ⟨n, toGo⟩ : ∃ n, ed.len - pos = n := ⟨_, rfl⟩
  rw [toGo]
  induction n generalizing pos with
  | zero =>
    have fits : pos ≤ ed.content.length := by rwa [length_content]
    have lower := le_end_rowAt newline fits
    have upper := start_add_width_le (rowAt_lt newline fits)
    rw [length_content] at upper
    rw [scanOn]
    congr 1
    omega
  | succ n more =>
    have there : pos < ed.content.length := by
      rw [length_content]
      omega
    have row := rowAt_succ newline there
    have ends := separator_iff newline there
    rw [getElem_content] at row ends
    rw [scanOn, index_buffer (by omega), Option.bind_eq_bind, Option.bind_some]
    by_cases separates : ed.buf pos = newline
    · rw [if_neg (not_not.mpr separates), ends.mp separates]
    · rw [if_neg separates] at row
      rw [if_pos separates, ← row]
      exact more (by omega) (by omega)

/-! ## What each key does -/

/-- An operation of the editor ends, and does this to its text. -/
def Makes (result : Option Editor) (t : Text UInt8 editorMaxBytes) : Prop := ∃ ed', result = some ed' ∧ ed'.text = t

private theorem place_makes (inside : pos ≤ ed.text.bytes.length) : Makes (ed.place pos) (ed.text.moveTo pos inside) := by
  have inside' : pos ≤ ed.len := by rwa [← length_content]
  exact ⟨_, dif_pos inside', rfl⟩

private theorem findStart_cursor (ed : Editor) : ed.findStart ed.cursor = some (start newline ed.content (ed.text.row newline)) :=
  findStart_eq ed.inside

private theorem findEnd_cursor (ed : Editor) :
    ed.findEnd ed.cursor =
      some (start newline ed.content (ed.text.row newline) + width newline ed.content (ed.text.row newline)) :=
  findEnd_eq ed.inside

private theorem find_column {row col : Nat} (inside : row < (lines newline ed.content).length) (within : col ≤ width newline ed.content row) :
    ed.findStart (start newline ed.content row + col) = some (start newline ed.content row) ∧
      ed.findEnd (start newline ed.content row + col) = some (start newline ed.content row + width newline ed.content row) := by
  have ends := start_add_width_le inside
  rw [length_content] at ends
  have there : start newline ed.content row + col ≤ ed.len := by omega
  rw [findStart_eq there, findEnd_eq there, rowAt_start_add inside within]
  exact ⟨rfl, rfl⟩

private theorem checkedSub_cursor (ed : Editor) :
    checkedSub ed.cursor (start newline ed.content (ed.text.row newline)) = some (ed.text.col newline) :=
  checkedSub_eq (start_rowAt_le newline ed.text.inside)

private theorem moveUp_makes (ed : Editor) : Makes ed.moveUp (ed.text.up newline) := by
  rw [moveUp, findStart_cursor, Option.bind_eq_bind, Option.bind_some, checkedSub_cursor, Option.bind_some]
  by_cases above : 0 < ed.text.row newline
  · have inside : ed.text.row newline - 1 < (lines newline ed.content).length :=
      Nat.lt_of_le_of_lt (Nat.sub_le _ _) (ed.text.row_lt newline)
    have begins := start_succ inside
    rw [Nat.sub_add_cancel above] at begins
    obtain ⟨found, -⟩ := find_column inside (Nat.le_refl _)
    rw [if_pos (by omega), begins, Nat.add_sub_cancel]
    dsimp only
    rw [found, Option.bind_some, checkedSub_eq (Nat.le_add_right _ _), Option.bind_some, Nat.add_sub_cancel_left, Text.up,
      if_pos above]
    exact place_makes _
  · have first : ed.text.row newline = 0 := Nat.eq_zero_of_not_pos above
    rw [first, start_zero, if_neg (Nat.lt_irrefl 0), Text.up, if_neg above]
    exact ⟨ed, rfl, rfl⟩

private theorem moveDown_makes (ed : Editor) : Makes ed.moveDown (ed.text.down newline) := by
  have inside : ed.text.row newline < (lines newline ed.content).length := ed.text.row_lt newline
  have last := start_add_width_lt_iff inside
  rw [length_content] at last
  rw [moveDown, findStart_cursor, Option.bind_eq_bind, Option.bind_some, checkedSub_cursor, Option.bind_some, findEnd_cursor,
    Option.bind_some]
  by_cases below : ed.text.row newline + 1 < (lines newline ed.content).length
  · obtain ⟨-, found⟩ := find_column below (Nat.zero_le _)
    rw [Nat.add_zero] at found
    have moved : ed.text.down newline = ed.text.moveToRow newline (ed.text.row newline + 1) below (ed.text.col newline) :=
      dif_pos below
    rw [if_pos (last.mpr below), ← start_succ inside]
    dsimp only
    rw [found, Option.bind_some, checkedSub_eq (Nat.le_add_right _ _), Option.bind_some, Nat.add_sub_cancel_left, moved]
    exact place_makes _
  · have stays : ed.text.down newline = ed.text := dif_neg below
    rw [if_neg fun short => below (last.mp short), stays]
    exact ⟨ed, rfl, rfl⟩

/-! ## Bytes in place -/

private theorem blit_single (m : Memory) (i : Nat) (v : UInt8) (a : Nat) : blit m i [v] a = if a = i then v else m a := by
  by_cases here : a = i
  · subst here
    rw [if_pos rfl]
    have inside : 0 < [v].length := Nat.zero_lt_one
    exact blit_apply_inside m a inside
  · rw [if_neg here]
    exact blit_apply_other m (by simp only [List.length_singleton]; omega)

private theorem shiftUp_eq (m : Memory) (cursor : Nat) (room : i < size) :
    ∃ m', shiftUp cursor i ⟨m, size⟩ = some ⟨m', size⟩ ∧ ∀ a, m' a = if cursor < a ∧ a ≤ i then m (a - 1) else m a := by
  induction i generalizing m with
  | zero => exact ⟨m, rfl, fun a => by rw [if_neg (by omega)]⟩
  | succ i before =>
    by_cases behind : i + 1 > cursor
    · obtain ⟨m', shifted, moved⟩ := before (blit m (i + 1) [m i]) (Nat.lt_of_succ_lt room)
      refine ⟨m', ?_, fun a => ?_⟩
      · rw [shiftUp, if_pos behind, Buffer.index_eq (Nat.lt_of_succ_lt room), Option.bind_eq_bind, Option.bind_some,
          Buffer.set_eq room, Option.bind_eq_bind, Option.bind_some, shifted]
      · rw [moved, blit_single, blit_single]
        split_ifs <;> first | rfl | omega | (congr 1; omega)
    · exact ⟨m, by rw [shiftUp, if_neg behind], fun a => by rw [if_neg (by omega)]⟩

private theorem pullDown_eq (behind : 0 < i) (inside : i < size) :
    pullDown ⟨m, size⟩ i = some ⟨blit m (i - 1) [m i], size⟩ := by
  have below : i - 1 < size := by omega
  rw [pullDown, Buffer.index_eq inside, Option.bind_eq_bind, Option.bind_some, checkedSub_eq behind]
  exact Buffer.set_eq below

private theorem shiftDown_eq (m : Memory) {size first len : Nat} (behind : 0 < first) (fits : len ≤ size) :
    ∃ m', shiftDown first len ⟨m, size⟩ = some ⟨m', size⟩ ∧ ∀ a, m' a = if first ≤ a + 1 ∧ a + 1 < len then m (a + 1) else m a := by
  unfold shiftDown
  obtain ⟨n, toGo⟩ : ∃ n, len - first = n := ⟨_, rfl⟩
  rw [toGo]
  induction n generalizing first m with
  | zero => exact ⟨m, rfl, fun a => by rw [if_neg (by omega)]⟩
  | succ n more =>
    have inside : first < size := by omega
    obtain ⟨m', shifted, moved⟩ := more (blit m (first - 1) [m first]) (Nat.succ_pos first) (by omega)
    refine ⟨m', ?_, fun a => ?_⟩
    · rw [List.range'_succ, List.foldlM_cons, pullDown_eq behind inside]
      exact shifted
    · rw [moved, blit_single, blit_single]
      split_ifs <;> first | rfl | omega | (congr 1; omega)

private theorem slice_opened {cursor len : Nat} (inside : cursor ≤ len) (byte : UInt8)
    (moved : ∀ a, m' a = if cursor < a ∧ a ≤ len then m (a - 1) else m a) :
    slice (blit m' cursor [byte]) 0 (len + 1) = (slice m 0 len).take cursor ++ byte :: (slice m 0 len).drop cursor := by
  have parts : len + 1 = cursor + (1 + (len - cursor)) := by omega
  have gap : slice (blit m' cursor [byte]) (0 + cursor) 1 = [byte] := by
    rw [Nat.zero_add]
    exact slice_blit_of_length rfl
  rw [parts, slice_append, slice_append, slice_take m 0 inside, slice_drop m 0 inside, gap]
  congr 1
  · refine slice_congr fun i less => ?_
    rw [blit_single, if_neg (by omega), moved, if_neg (by omega)]
  · refine congrArg (byte :: ·) (slice_congr fun i less => ?_)
    rw [blit_single, if_neg (by omega), moved, if_pos (by omega)]
    congr 1
    omega

private theorem slice_closed {i len : Nat} (inside : i < len)
    (moved : ∀ a, m' a = if i + 1 ≤ a + 1 ∧ a + 1 < len then m (a + 1) else m a) :
    slice m' 0 (len - 1) = (slice m 0 len).eraseIdx i := by
  have parts : len - 1 = i + (len - (i + 1)) := by omega
  rw [List.eraseIdx_eq_take_drop_succ, slice_take m 0 (Nat.le_of_lt inside), slice_drop m 0 (Nat.succ_le_of_lt inside), parts,
    slice_append]
  congr 1
  · refine slice_congr fun k less => ?_
    rw [moved, if_neg (by omega)]
  · refine slice_congr fun k less => ?_
    rw [moved, if_pos (by omega)]
    congr 1
    omega

private theorem text_eq {t : Text UInt8 editorMaxBytes} (bytes : ed.content = t.bytes) (pos : ed.cursor = t.pos) : ed.text = t := by
  cases t
  cases bytes
  cases pos
  rfl

private theorem insertByte_makes (ed : Editor) (byte : UInt8) : Makes (ed.insertByte byte) (ed.text.insert byte) := by
  unfold insertByte
  by_cases full : ed.len ≥ editorMaxBytes
  · have stays : ed.text.insert byte = ed.text := dif_neg (Nat.not_lt_of_le (by rwa [length_text]))
    rw [dif_pos full, stays]
    exact ⟨ed, rfl, rfl⟩
  · have room : ed.text.bytes.length < editorMaxBytes := by
      rw [length_text]
      exact Nat.lt_of_not_le full
    obtain ⟨m', shifted, moved⟩ := shiftUp_eq ed.buf ed.cursor (Nat.lt_of_not_le full)
    rw [dif_neg full, show shiftUp ed.cursor ed.len ed.buffer = _ from shifted, Option.bind_eq_bind, Option.bind_some,
      Buffer.set_eq (Nat.lt_of_le_of_lt ed.inside (Nat.lt_of_not_le full)), Text.insert, dif_pos room]
    exact ⟨_, rfl, text_eq (slice_opened ed.inside byte moved) rfl⟩

private theorem backspace_makes (ed : Editor) : Makes ed.backspace ed.text.backspace := by
  unfold backspace
  by_cases first : ed.cursor = 0
  · have stays : ed.text.backspace = ed.text := dif_neg (Nat.not_lt_of_le (Nat.le_of_eq first))
    rw [if_pos first, stays]
    exact ⟨ed, rfl, rfl⟩
  · have behind : 0 < ed.cursor := Nat.pos_of_ne_zero first
    have inside : ed.cursor - 1 < ed.len := Nat.lt_of_lt_of_le (Nat.sub_one_lt first) ed.inside
    obtain ⟨m', shifted, moved⟩ := shiftDown_eq ed.buf behind ed.fits
    have behind' : 0 < ed.text.pos := behind
    rw [← Nat.sub_add_cancel behind] at moved
    rw [if_neg first, show shiftDown ed.cursor ed.len ed.buffer = _ from shifted, Text.backspace, dif_pos behind']
    exact ⟨_, rfl, text_eq (slice_closed inside moved) rfl⟩

private theorem deleteForward_makes (ed : Editor) : Makes ed.deleteForward ed.text.delete := by
  unfold deleteForward
  by_cases last : ed.cursor ≥ ed.len
  · have stays : ed.text.delete = ed.text := dif_neg (Nat.not_lt_of_le (by rwa [length_text]))
    rw [dif_pos last, stays]
    exact ⟨ed, rfl, rfl⟩
  · have inside : ed.cursor < ed.len := Nat.lt_of_not_le last
    have inside' : ed.text.pos < ed.text.bytes.length := by rwa [length_text]
    obtain ⟨m', shifted, moved⟩ := shiftDown_eq ed.buf (Nat.succ_pos ed.cursor) ed.fits
    rw [dif_neg last, show shiftDown (ed.cursor + 1) ed.len ed.buffer = _ from shifted, Text.delete, dif_pos inside']
    exact ⟨_, rfl, text_eq (slice_closed inside moved) rfl⟩

/-! ## Whole sessions -/

private theorem press_end (t : Text UInt8 editorMaxBytes) : press t keyCtrlS = t ∧ press t keyCtrlQ = t := ⟨rfl, rfl⟩

private theorem place_min_makes (ed : Editor) : Makes (ed.place (min (ed.cursor + 1) ed.len)) ed.text.right := by
  rw [← length_text]
  exact place_makes _

/-- Every key has its effect on the text, and no other. -/
theorem applyKey_makes (ed : Editor) (key : UInt32) : ∃ ended, ed.applyKey key = some ended ∧ ended.1.text = press ed.text key := by
  have going {result : Option Editor} {t : Text UInt8 editorMaxBytes} (makes : Makes result t) :
      ∃ ended : Editor × Option Bool, result.map (·, none) = some ended ∧ ended.1.text = t := by
    obtain ⟨ed', rfl, same⟩ := makes
    exact ⟨(ed', none), rfl, same⟩
  unfold applyKey
  by_cases save : key = keyCtrlS
  · rw [if_pos save, save, (press_end _).1]
    exact ⟨_, rfl, rfl⟩
  rw [if_neg save]
  by_cases discard : key = keyCtrlQ
  · rw [if_pos discard, discard, (press_end _).2]
    exact ⟨_, rfl, rfl⟩
  rw [if_neg discard]
  unfold press
  by_cases left : key = keyLeft
  · rw [if_pos left, if_pos left]
    exact going (place_makes _)
  rw [if_neg left, if_neg left]
  by_cases right : key = keyRight
  · rw [if_pos right, if_pos right]
    exact going ed.place_min_makes
  rw [if_neg right, if_neg right]
  by_cases home : key = keyHome
  · rw [if_pos home, if_pos home, findStart_cursor, Option.bind_some]
    exact going (place_makes _)
  rw [if_neg home, if_neg home]
  by_cases toEnd : key = keyEnd
  · rw [if_pos toEnd, if_pos toEnd, findEnd_cursor, Option.bind_some]
    exact going (place_makes _)
  rw [if_neg toEnd, if_neg toEnd]
  by_cases up : key = keyUp
  · rw [if_pos up, if_pos up]
    exact going ed.moveUp_makes
  rw [if_neg up, if_neg up]
  by_cases down : key = keyDown
  · rw [if_pos down, if_pos down]
    exact going ed.moveDown_makes
  rw [if_neg down, if_neg down]
  by_cases delete : key = keyDelete
  · rw [if_pos delete, if_pos delete]
    exact going ed.deleteForward_makes
  rw [if_neg delete, if_neg delete]
  by_cases back : key = keyBackspace
  · rw [if_pos back, if_pos back]
    exact going ed.backspace_makes
  rw [if_neg back, if_neg back, ite_and]
  by_cases byte : key ≤ 255
  · rw [if_pos byte, if_pos byte]
    by_cases typed : accepted key.toUInt8 = true
    · rw [if_pos typed, if_pos typed]
      exact going (ed.insertByte_makes _)
    · rw [if_neg typed, if_neg typed]
      exact ⟨_, rfl, rfl⟩
  · rw [if_neg byte, if_neg byte]
    exact ⟨_, rfl, rfl⟩

def typed (ed : Editor) (keys : List UInt32) : Option Editor := keys.foldlM (fun ed key => (ed.applyKey key).map Prod.fst) ed

private theorem typed_makes (ed : Editor) (keys : List UInt32) : Makes (ed.typed keys) (keys.foldl press ed.text) := by
  induction keys generalizing ed with
  | nil => exact ⟨ed, rfl, rfl⟩
  | cons key keys more =>
    obtain ⟨ended, applied, same⟩ := ed.applyKey_makes key
    have rest := more ended.1
    rw [same] at rest
    rw [typed, List.foldlM_cons, applied]
    exact rest

private theorem load_eq (ed : Editor) (data : List UInt8) : ed.load data = some (ed.appendLoaded data) := by
  have fits : ed.len + min data.length (editorMaxBytes - ed.len) ≤ editorMaxBytes := by
    have := ed.fits
    omega
  have part : (data.take (min data.length (editorMaxBytes - ed.len))).length =
      ed.len + min data.length (editorMaxBytes - ed.len) - ed.len := by
    rw [List.length_take]
    omega
  rw [load, checkedSub_eq ed.fits, Option.bind_eq_bind, Option.bind_some]
  dsimp only
  rw [show ed.buffer.copyFromSlice ed.len _ _ = _ from Buffer.copyFromSlice_eq (Nat.le_add_right _ _) fits part,
    Option.bind_eq_bind, Option.bind_some, dif_pos fits]
  rfl

/-- The editor with a file that comes in some parts. -/
def loaded (ed : Editor) (parts : List (List UInt8)) : Option Editor :=
  parts.foldlM (fun ed data => (ed.load data).map Prod.fst) ed

private theorem loaded_eq (ed : Editor) (parts : List (List UInt8)) :
    ∃ ed', ed.loaded parts = some ed' ∧ ed'.content = (ed.content ++ parts.flatten).take editorMaxBytes ∧ ed'.cursor = ed.cursor := by
  induction parts generalizing ed with
  | nil =>
    refine ⟨ed, rfl, ?_, rfl⟩
    rw [List.flatten_nil, List.append_nil, List.take_of_length_le]
    rw [length_content]
    exact ed.fits
  | cons data parts more =>
    obtain ⟨ed', rest, same, still⟩ := more (ed.appendLoaded data).1
    refine ⟨ed', ?_, ?_, still⟩
    · rw [loaded, List.foldlM_cons, load_eq]
      exact rest
    · have room : editorMaxBytes - ed.len - min (editorMaxBytes - ed.len) data.length = editorMaxBytes - ed.len - data.length := by
        omega
      rw [same, content_appendLoaded, List.flatten_cons, List.append_assoc, List.take_append, List.take_append, List.take_append,
        List.take_append, length_content, List.take_take, Nat.min_self, List.length_take, room]

private theorem loaded_makes (buf : Memory) (parts : List (List UInt8)) : Makes ((new buf).loaded parts) (Text.opened parts.flatten) := by
  obtain ⟨ed', done, same, still⟩ := loaded_eq (new buf) parts
  exact ⟨ed', done, text_eq same still⟩

/-- Whatever is loaded and typed, no access leaves the buffer, and `content` and `cursor` are those of the text. -/
theorem editor_refines_text (buf : Memory) (parts : List (List UInt8)) (keys : List UInt32) :
    ∃ ed, ((new buf).loaded parts).bind (typed · keys) = some ed ∧
      ed.buffer.range 0 ed.len = some (keys.foldl press (Text.opened parts.flatten)).bytes ∧
      ed.cursor = (keys.foldl press (Text.opened parts.flatten)).pos ∧ ed.cursor ≤ ed.len ∧ ed.len ≤ editorMaxBytes := by
  obtain ⟨start, opens, shown⟩ := loaded_makes buf parts
  obtain ⟨ed, ends, same⟩ := start.typed_makes keys
  rw [shown] at same
  refine ⟨ed, ?_, ?_, ?_, ed.inside, ed.fits⟩
  · rw [opens]
    exact ends
  · rw [← same]
    exact Buffer.range_eq (Nat.zero_le _) ed.fits
  · rw [← same]
    rfl

end Editor

end Pcern

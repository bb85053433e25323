import Mathlib.Algebra.Order.BigOperators.Group.List
import Mathlib.Algebra.Order.Ring.Nat
import Mathlib.Data.List.Induction

/-!
Texts with a cursor. The lines of a text are what stands between its separators, and a position is a row with a column: the
rows follow one another from `start`, each `width` long, with a separator behind every one but the last.

`Text` is a text of limited length with a position in it, and the moves and changes of an editor on it.
-/
namespace Pcern.Texts

section Rows
variable {α : Type} [DecidableEq α] {nl : α} {text : List α} {row pos : Nat}

def lines (nl : α) (text : List α) : List (List α) := text.splitOn nl

def start (nl : α) (text : List α) (row : Nat) : Nat := (((lines nl text).take row).map fun line => line.length + 1).sum

def width (nl : α) (text : List α) (row : Nat) : Nat := ((lines nl text).getD row []).length

def rowAt (nl : α) (text : List α) (pos : Nat) : Nat := (text.take pos).count nl

/-! ## Lines -/

theorem lines_nil : lines nl [] = [[]] := by
  simp [lines, List.splitOn]

theorem lines_separator (text : List α) : lines nl (nl :: text) = [] :: lines nl text := by
  simp [lines, List.splitOn, List.splitOnP_cons_eq_if_modifyHead]

theorem lines_other {a : α} (other : a ≠ nl) (text : List α) : lines nl (a :: text) = (lines nl text).modifyHead (a :: ·) := by
  simp [lines, List.splitOn, List.splitOnP_cons_eq_if_modifyHead, other]

private theorem lines_cons (nl : α) (text : List α) : ∃ first rest, lines nl text = first :: rest := by
  induction text with
  | nil => exact ⟨[], [], lines_nil⟩
  | cons a text more =>
    obtain ⟨first, rest, split⟩ := more
    by_cases ends : a = nl
    · subst ends
      exact ⟨[], lines a text, lines_separator text⟩
    · exact ⟨a :: first, rest, by rw [lines_other ends, split, List.modifyHead_cons]⟩

theorem length_lines (nl : α) (text : List α) : (lines nl text).length = text.count nl + 1 := by
  induction text with
  | nil => rw [lines_nil, List.count_nil, List.length_singleton]
  | cons a text more =>
    by_cases ends : a = nl
    · subst ends
      rw [lines_separator, List.length_cons, more, List.count_cons_self]
    · rw [lines_other ends, List.length_modifyHead, more, List.count_cons_of_ne ends]

private theorem sum_lines (nl : α) (text : List α) : ((lines nl text).map fun line => line.length + 1).sum = text.length + 1 := by
  induction text with
  | nil => rw [lines_nil]; rfl
  | cons a text more =>
    by_cases ends : a = nl
    · subst ends
      rw [lines_separator, List.map_cons, List.sum_cons, more, List.length_nil, List.length_cons]
      omega
    · obtain ⟨first, rest, split⟩ := lines_cons nl text
      rw [split, List.map_cons, List.sum_cons] at more
      rw [lines_other ends, split, List.modifyHead_cons, List.map_cons, List.sum_cons, List.length_cons, List.length_cons]
      omega

/-- Where a text is cut, the last line of one part and the first line of the other are one line. -/
theorem lines_append (nl : α) (before after : List α) :
    ∃ above left right below, lines nl before = above ++ [left] ∧ lines nl after = right :: below ∧
      lines nl (before ++ after) = above ++ (left ++ right) :: below := by
  induction before with
  | nil =>
    obtain ⟨first, rest, split⟩ := lines_cons nl after
    exact ⟨[], [], first, rest, lines_nil, split, split⟩
  | cons a before more =>
    obtain ⟨above, left, right, below, cut, cut', whole⟩ := more
    rw [List.cons_append]
    by_cases ends : a = nl
    · subst ends
      rw [lines_separator, lines_separator, cut, whole]
      exact ⟨[] :: above, left, right, below, rfl, cut', rfl⟩
    · rw [lines_other ends, lines_other ends, cut, whole]
      cases above with
      | nil => exact ⟨[], a :: left, right, below, rfl, cut', rfl⟩
      | cons first above => exact ⟨(a :: first) :: above, left, right, below, rfl, cut', rfl⟩

/-! ## Rows and positions -/

theorem start_zero : start nl text 0 = 0 := rfl

theorem start_succ (inside : row < (lines nl text).length) : start nl text (row + 1) = start nl text row + width nl text row + 1 := by
  rw [start, List.take_add_one, List.getElem?_eq_getElem inside, List.map_append, List.sum_append, start, width,
    List.getD_eq_getElem?_getD, List.getElem?_eq_getElem inside]
  simp
  omega

private theorem start_length : start nl text (lines nl text).length = text.length + 1 := by
  rw [start, List.take_length, sum_lines]

private theorem start_le {row' : Nat} (le : row ≤ row') (inside : row' ≤ (lines nl text).length) : start nl text row ≤ start nl text row' := by
  induction row', le using Nat.le_induction with
  | base => exact Nat.le_refl _
  | succ row' le more =>
    rw [start_succ inside]
    exact Nat.le_trans (more (Nat.le_of_succ_le inside)) (by omega)

theorem start_add_width_le (inside : row < (lines nl text).length) : start nl text row + width nl text row ≤ text.length := by
  have ends : start nl text (row + 1) ≤ start nl text (lines nl text).length := start_le inside (Nat.le_refl _)
  rw [start_length, start_succ inside] at ends
  omega

theorem start_add_width_lt_iff (inside : row < (lines nl text).length) :
    start nl text row + width nl text row < text.length ↔ row + 1 < (lines nl text).length := by
  constructor
  · intro short
    by_contra last
    have isLast : row + 1 = (lines nl text).length := by omega
    have ends := start_succ inside
    rw [isLast, start_length] at ends
    omega
  · intro more
    have ends := start_add_width_le more
    rw [start_succ inside] at ends
    omega

theorem place (nl : α) (inside : pos ≤ text.length) :
    rowAt nl text pos < (lines nl text).length ∧ start nl text (rowAt nl text pos) ≤ pos ∧
      ∃ right below, lines nl (text.drop pos) = right :: below ∧
        start nl text (rowAt nl text pos) + width nl text (rowAt nl text pos) = pos + right.length := by
  obtain ⟨above, left, right, below, cut, cut', whole⟩ := lines_append nl (text.take pos) (text.drop pos)
  rw [List.take_append_drop] at whole
  have row : rowAt nl text pos = above.length := by
    have count := length_lines nl (text.take pos)
    rw [cut, List.length_append, List.length_singleton] at count
    exact (Nat.succ.inj count).symm
  have begins : start nl text above.length + left.length = pos := by
    have sum := sum_lines nl (text.take pos)
    rw [cut, List.map_append, List.sum_append, List.length_take, Nat.min_eq_left inside, List.map_singleton, List.sum_singleton] at sum
    rw [start, whole, List.take_left]
    omega
  have wide : width nl text above.length = left.length + right.length := by
    rw [width, whole, List.getD_eq_getElem?_getD, List.getElem?_append_right (Nat.le_refl _), Nat.sub_self]
    simp
  rw [row]
  refine ⟨?_, by omega, right, below, cut', by omega⟩
  rw [whole, List.length_append, List.length_cons]
  omega

theorem rowAt_lt (nl : α) (inside : pos ≤ text.length) : rowAt nl text pos < (lines nl text).length := (place nl inside).1

theorem start_rowAt_le (nl : α) (inside : pos ≤ text.length) : start nl text (rowAt nl text pos) ≤ pos := (place nl inside).2.1

theorem le_end_rowAt (nl : α) (inside : pos ≤ text.length) :
    pos ≤ start nl text (rowAt nl text pos) + width nl text (rowAt nl text pos) := by
  obtain ⟨-, -, right, -, -, ends⟩ := place nl inside
  omega

theorem separator_iff (nl : α) (inside : pos < text.length) :
    text[pos] = nl ↔ start nl text (rowAt nl text pos) + width nl text (rowAt nl text pos) = pos := by
  obtain ⟨-, -, right, below, cut, ends⟩ := place nl (Nat.le_of_lt inside)
  rw [List.drop_eq_getElem_cons inside] at cut
  rw [ends]
  by_cases separates : text[pos] = nl
  · rw [separates, lines_separator] at cut
    obtain ⟨rfl, -⟩ := List.cons.inj cut
    exact iff_of_true separates (Nat.add_zero pos)
  · obtain ⟨first, rest, split⟩ := lines_cons nl (text.drop (pos + 1))
    rw [lines_other separates, split, List.modifyHead_cons] at cut
    obtain ⟨rfl, -⟩ := List.cons.inj cut
    exact iff_of_false separates (by simp)

theorem rowAt_succ (nl : α) (inside : pos < text.length) :
    rowAt nl text (pos + 1) = if text[pos] = nl then rowAt nl text pos + 1 else rowAt nl text pos := by
  rw [rowAt, List.take_add_one, List.getElem?_eq_getElem inside, List.count_append, rowAt]
  by_cases separates : text[pos] = nl
  · rw [if_pos separates, separates]
    simp
  · rw [if_neg separates]
    simp [separates]

theorem rowAt_start_add (inside : row < (lines nl text).length) {col : Nat} (within : col ≤ width nl text row) :
    rowAt nl text (start nl text row + col) = row := by
  have ends := start_add_width_le inside
  have fits : start nl text row + col ≤ text.length := by omega
  have lower := start_rowAt_le nl fits
  have upper := le_end_rowAt nl fits
  have there := rowAt_lt nl fits
  rcases Nat.lt_trichotomy (rowAt nl text (start nl text row + col)) row with above | same | below
  · have next : start nl text (rowAt nl text (start nl text row + col) + 1) ≤ start nl text row := start_le above (Nat.le_of_lt inside)
    rw [start_succ there] at next
    omega
  · exact same
  · have next : start nl text (row + 1) ≤ start nl text (rowAt nl text (start nl text row + col)) := start_le below (Nat.le_of_lt there)
    rw [start_succ inside] at next
    omega

end Rows

/-! ## A text with a cursor -/

/-- A text of at most `cap` elements, and a position in it. -/
structure Text (α : Type) (cap : Nat) where
  bytes : List α
  pos : Nat
  fits : bytes.length ≤ cap
  inside : pos ≤ bytes.length

namespace Text
variable {α : Type} {cap : Nat} (t : Text α cap)

/-- As much of a text as there is room for, with the cursor at its start. -/
def opened (bytes : List α) : Text α cap where
  bytes := bytes.take cap
  pos := 0
  fits := List.length_take_le _ _
  inside := Nat.zero_le _

def moveTo (pos : Nat) (inside : pos ≤ t.bytes.length) : Text α cap := { t with pos, inside }

/-- An element goes before the cursor, unless the text is full. -/
def insert (a : α) : Text α cap :=
  if room : t.bytes.length < cap then
    { bytes := t.bytes.take t.pos ++ a :: t.bytes.drop t.pos
      pos := t.pos + 1
      fits := by
        have := t.inside
        simp only [List.length_append, List.length_take, List.length_cons, List.length_drop]
        omega
      inside := by
        have := t.inside
        simp only [List.length_append, List.length_take, List.length_cons, List.length_drop]
        omega }
  else t

def backspace : Text α cap :=
  if some : 0 < t.pos then
    { bytes := t.bytes.eraseIdx (t.pos - 1)
      pos := t.pos - 1
      fits := Nat.le_trans (List.length_eraseIdx_le _ _) t.fits
      inside := by
        have := t.inside
        rw [List.length_eraseIdx_of_lt (by omega)]
        omega }
  else t

def delete : Text α cap :=
  if some : t.pos < t.bytes.length then
    { bytes := t.bytes.eraseIdx t.pos
      pos := t.pos
      fits := Nat.le_trans (List.length_eraseIdx_le _ _) t.fits
      inside := by
        rw [List.length_eraseIdx_of_lt some]
        omega }
  else t

def left : Text α cap := t.moveTo (t.pos - 1) (Nat.le_trans (Nat.sub_le _ _) t.inside)

def right : Text α cap := t.moveTo (min (t.pos + 1) t.bytes.length) (Nat.min_le_right _ _)

section
variable [DecidableEq α] (nl : α)

def row : Nat := rowAt nl t.bytes t.pos

def col : Nat := t.pos - start nl t.bytes (t.row nl)

theorem row_lt : t.row nl < (lines nl t.bytes).length := rowAt_lt nl t.inside

private theorem reach {row : Nat} (inside : row < (lines nl t.bytes).length) (col : Nat) :
    start nl t.bytes row + min col (width nl t.bytes row) ≤ t.bytes.length :=
  Nat.le_trans (Nat.add_le_add_left (Nat.min_le_right _ _) _) (start_add_width_le inside)

/-- A column of a row, or the end of the row if it is shorter. -/
def moveToRow (row : Nat) (inside : row < (lines nl t.bytes).length) (col : Nat) : Text α cap :=
  t.moveTo (start nl t.bytes row + min col (width nl t.bytes row)) (t.reach nl inside col)

def home : Text α cap := t.moveTo (start nl t.bytes (t.row nl)) (Nat.le_trans (start_rowAt_le nl t.inside) t.inside)

def toEnd : Text α cap :=
  t.moveTo (start nl t.bytes (t.row nl) + width nl t.bytes (t.row nl)) (start_add_width_le (t.row_lt nl))

/-- The same column of the row above, if there is one. -/
def up : Text α cap :=
  if 0 < t.row nl then t.moveToRow nl (t.row nl - 1) (Nat.lt_of_le_of_lt (Nat.sub_le _ _) (t.row_lt nl)) (t.col nl) else t

/-- The same column of the row below, if there is one. -/
def down : Text α cap :=
  if more : t.row nl + 1 < (lines nl t.bytes).length then t.moveToRow nl (t.row nl + 1) more (t.col nl) else t

end

end Text

end Pcern.Texts

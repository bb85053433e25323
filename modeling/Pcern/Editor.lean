import Pcern.Bytes
import Pcern.Libpcern

/-!
The text editor of `libpcern`: a buffer of bytes with a length and a cursor, and what it prints.
-/
namespace Pcern

open Bytes

abbrev editorMaxBytes : Nat := 65536

structure Editor where
  buf : Memory
  len : Nat
  cursor : Nat
  fits : len ≤ editorMaxBytes
  inside : cursor ≤ len

namespace Editor

def reset (ed : Editor) : Editor :=
  { ed with len := 0, cursor := 0, fits := Nat.zero_le _, inside := Nat.le_refl _ }

def new (buf : Memory) : Editor := { buf, len := 0, cursor := 0, fits := Nat.zero_le _, inside := Nat.le_refl _ }

def content (ed : Editor) : List UInt8 := slice ed.buf 0 ed.len

/-- The editor after some bytes were loaded, and whether all of them fitted. -/
def appendLoaded (ed : Editor) (data : List UInt8) : Editor × Bool :=
  let room := editorMaxBytes - ed.len
  let n := min data.length room
  ({ ed with
      buf := blit ed.buf ed.len (data.take n)
      len := ed.len + n
      fits := by have := ed.fits; omega
      inside := Nat.le_trans ed.inside (Nat.le_add_right _ _) },
    n == data.length)

/-- The start of the line that a position is in. -/
def lineStart (ed : Editor) : Nat → Nat
  | 0 => 0
  | i + 1 => if ed.buf i ≠ 0x0A then ed.lineStart i else i + 1

/-- The bytes that `redraw` prints: the screen is cleared, the text printed, the cursor placed. -/
def redraw (ed : Editor) : List UInt8 :=
  let curStart := ed.lineStart ed.cursor
  let row := (slice ed.buf 0 curStart).count 0x0A
  let col := ed.cursor - curStart
  [0x1B, 0x5B, 0x32, 0x4A, 0x1B, 0x5B, 0x48] ++ ed.content ++ [0x1B, 0x5B] ++ Libpcern.printU32 (UInt32.ofNat (row + 1)) ++
    [0x3B] ++ Libpcern.printU32 (UInt32.ofNat (col + 1)) ++ [0x48]

@[simp] theorem content_reset (ed : Editor) : ed.reset.content = [] := rfl

@[simp] theorem length_content (ed : Editor) : ed.content.length = ed.len := length_slice _ _ _

/-- `append_loaded` keeps as much as there is room for. -/
theorem content_appendLoaded (ed : Editor) (data : List UInt8) :
    (ed.appendLoaded data).1.content = ed.content ++ data.take (editorMaxBytes - ed.len) := by
  have few : (data.take (min data.length (editorMaxBytes - ed.len))).length = min data.length (editorMaxBytes - ed.len) := by
    rw [List.length_take]
    omega
  have appended := slice_blit_append ed.buf 0 ed.len (data.take (min data.length (editorMaxBytes - ed.len)))
  rw [few, Nat.zero_add] at appended
  rw [List.take_eq_take_min, Nat.min_comm]
  exact appended

/-- It reports whether that was all. -/
theorem appendLoaded_fits (ed : Editor) (data : List UInt8) :
    (ed.appendLoaded data).2 = decide (ed.len + data.length ≤ editorMaxBytes) := by
  have := ed.fits
  simp only [appendLoaded, beq_eq_decide]
  exact decide_eq_decide.mpr (by omega)

end Editor

end Pcern

import Pcern.Bytes

/-!
Buffers with bounds. An access that leaves the buffer gives `none`, which stands for the panic of an index or a range
out of bounds; so do a copy between blocks of different lengths and a subtraction below zero.
-/
namespace Pcern.Bytes

/-- A byte memory of which the first `size` bytes may be used. -/
structure Buffer where
  bytes : Memory
  size : Nat

/-- A subtraction of unsigned numbers. -/
def checkedSub (a b : Nat) : Option Nat := if b ≤ a then some (a - b) else none

theorem checkedSub_eq {a b : Nat} (le : b ≤ a) : checkedSub a b = some (a - b) := if_pos le

namespace Buffer

/-- `b[i]`. -/
def index (b : Buffer) (i : Nat) : Option UInt8 := if i < b.size then some (b.bytes i) else none

/-- `b[start..stop]`. -/
def range (b : Buffer) (start stop : Nat) : Option (List UInt8) :=
  if start ≤ stop ∧ stop ≤ b.size then some (slice b.bytes start (stop - start)) else none

/-- `b[start..stop].copy_from_slice(source)`. -/
def copyFromSlice (b : Buffer) (start stop : Nat) (source : List UInt8) : Option Buffer :=
  if (start ≤ stop ∧ stop ≤ b.size) ∧ source.length = stop - start then some { b with bytes := blit b.bytes start source } else none

/-- `b[i] = v`. -/
def set (b : Buffer) (i : Nat) (v : UInt8) : Option Buffer :=
  if i < b.size then some { b with bytes := blit b.bytes i [v] } else none

/-- `b[start..stop].fill(v)`. -/
def fillWith (b : Buffer) (start stop : Nat) (v : UInt8) : Option Buffer :=
  if start ≤ stop ∧ stop ≤ b.size then some { b with bytes := fill b.bytes start (stop - start) v } else none

/-- `b.copy_within(start..stop, dst)`. -/
def copyWithin (b : Buffer) (start stop dst : Nat) : Option Buffer :=
  if (start ≤ stop ∧ stop ≤ b.size) ∧ dst ≤ b.size - (stop - start) then
    some { b with bytes := blit b.bytes dst (slice b.bytes start (stop - start)) }
  else none

variable {m : Memory} {size : Nat}

variable {i start stop : Nat}

theorem index_eq (inside : i < size) : (Buffer.mk m size).index i = some (m i) := if_pos inside

theorem range_eq (ordered : start ≤ stop) (inside : stop ≤ size) :
    (Buffer.mk m size).range start stop = some (slice m start (stop - start)) := if_pos ⟨ordered, inside⟩

theorem copyFromSlice_eq {source : List UInt8} (ordered : start ≤ stop) (inside : stop ≤ size)
    (same : source.length = stop - start) : (Buffer.mk m size).copyFromSlice start stop source = some ⟨blit m start source, size⟩ :=
  if_pos ⟨⟨ordered, inside⟩, same⟩

theorem set_eq {v : UInt8} (inside : i < size) : (Buffer.mk m size).set i v = some ⟨blit m i [v], size⟩ := if_pos inside

theorem fillWith_eq {v : UInt8} (ordered : start ≤ stop) (inside : stop ≤ size) :
    (Buffer.mk m size).fillWith start stop v = some ⟨fill m start (stop - start) v, size⟩ := if_pos ⟨ordered, inside⟩

theorem copyWithin_eq {start stop dst : Nat} (ordered : start ≤ stop) (inside : stop ≤ size) (fits : dst ≤ size - (stop - start)) :
    (Buffer.mk m size).copyWithin start stop dst = some ⟨blit m dst (slice m start (stop - start)), size⟩ :=
  if_pos ⟨⟨ordered, inside⟩, fits⟩

end Buffer
end Pcern.Bytes

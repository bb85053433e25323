import Mathlib.Data.Nat.ModEq

/-!
Circular buffers: `len` elements from `head` on, in `cap` cells that follow one another around. What such a buffer holds is a
list; a cell behind the last element extends it at its end, and the next head drops its first.
-/
namespace Pcern.Circular

variable {α : Type*} {cells : Nat → α} {cap head len : Nat}

/-- What the buffer holds, the oldest first. -/
def contents (cells : Nat → α) (cap head len : Nat) : List α := (List.range len).map fun i => cells ((head + i) % cap)

@[simp] theorem length_contents : (contents cells cap head len).length = len := by simp [contents]

@[simp] theorem contents_empty : contents cells cap head 0 = [] := rfl

private theorem cell_ne {i j : Nat} (less : i < j) (room : j < cap) : (head + i) % cap ≠ (head + j) % cap := by
  intro same
  have congruent : i ≡ j [MOD cap] := Nat.ModEq.add_left_cancel' head same
  exact Nat.ne_of_lt less (congruent.eq_of_lt_of_lt (less.trans room) room)

/-- The next free cell is behind the contents. -/
theorem contents_push (room : len < cap) (a : α) :
    contents (Function.update cells ((head + len) % cap) a) cap head (len + 1) = contents cells cap head len ++ [a] := by
  unfold contents
  rw [List.range_succ, List.map_append, List.map_singleton, Function.update_self]
  congr 1
  refine List.map_congr_left fun i member => ?_
  rw [Function.update_of_ne (cell_ne (List.mem_range.mp member) room)]

/-- The cell at `head` is in front of the contents. -/
theorem contents_pop (inside : head < cap) :
    contents cells cap head (len + 1) = cells head :: contents cells cap ((head + 1) % cap) len := by
  unfold contents
  rw [List.range_succ_eq_map, List.map_cons, Nat.add_zero, Nat.mod_eq_of_lt inside, List.map_map]
  congr 1
  refine List.map_congr_left fun i _ => ?_
  rw [Function.comp_apply, Nat.mod_add_mod, Nat.succ_eq_add_one, Nat.add_right_comm, Nat.add_assoc]

end Pcern.Circular

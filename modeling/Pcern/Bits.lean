import Mathlib.Data.List.Basic
import Mathlib.Data.Nat.Bitwise
import Mathlib.Tactic.IntervalCases

/-!
Sets of numbers packed eight to a byte. `test` and `assign` are the mask
operations on the byte that holds a bit; `test_assign` says that they behave
like lookup and update of a set, and everything above them goes through it.
-/
namespace Pcern.Bits

/-- The byte with only bit `i` of it set, counting from the lowest. -/
def mask (i : Nat) : UInt8 := 1 <<< UInt8.ofNat (i % 8)

def test (bits : List UInt8) (i : Nat) : Bool := bits.getD (i / 8) 0 &&& mask i != 0

def assign (bits : List UInt8) (i : Nat) (value : Bool) : List UInt8 :=
  bits.modify (i / 8) fun byte => if value then byte ||| mask i else byte &&& ~~~mask i

/-- Set bit `i` of every number in `indices`, in order. -/
def assignAll (bits : List UInt8) (indices : List Nat) (value : Bool) : List UInt8 :=
  indices.foldl (fun bits i => assign bits i value) bits

private theorem mask_toBitVec (i : Nat) : (mask i).toBitVec = BitVec.twoPow 8 (i % 8) := by
  unfold mask
  have small : i % 8 < 8 := Nat.mod_lt i (by decide)
  generalize i % 8 = n at small
  interval_cases n <;> rfl

private theorem byte_test (byte : UInt8) (i : Nat) :
    (byte &&& mask i != 0) = byte.toBitVec.getLsbD (i % 8) := by
  have small : i % 8 < 8 := Nat.mod_lt i (by decide)
  have nonzero : BitVec.twoPow 8 (i % 8) ≠ 0#8 := by
    intro zero
    have bit := congrArg (fun v => BitVec.getLsbD v (i % 8)) zero
    simp [small] at bit
  rw [Bool.eq_iff_iff, bne_iff_ne, ne_eq, ← UInt8.toBitVec_inj, UInt8.toBitVec_and, mask_toBitVec, BitVec.and_twoPow]
  split
  · rename_i set
    simpa [set] using nonzero
  · rename_i clear
    simp [clear]

@[simp] theorem length_assign (bits : List UInt8) (i : Nat) (value : Bool) :
    (assign bits i value).length = bits.length := by
  simp [assign]

@[simp] theorem length_assignAll (bits : List UInt8) (indices : List Nat) (value : Bool) :
    (assignAll bits indices value).length = bits.length := by
  induction indices generalizing bits with
  | nil => rfl
  | cons i rest ih => simp only [assignAll, List.foldl_cons] at ih ⊢; rw [ih]; simp

/-- One bit is assigned, and no other changes. -/
theorem test_assign {bits : List UInt8} {i : Nat} (value : Bool) (stored : i / 8 < bits.length) (j : Nat) :
    test (assign bits i value) j = if j = i then value else test bits j := by
  by_cases sameByte : j / 8 = i / 8
  · have sameBit : j % 8 = i % 8 ↔ j = i := by omega
    have present : bits[i / 8]? = some bits[i / 8] := List.getElem?_eq_getElem stored
    have small : j % 8 < 8 := Nat.mod_lt j (by decide)
    simp only [test, byte_test, assign, sameByte, List.getD_eq_getElem?_getD, List.getElem?_modify_eq, present,
      Option.map_eq_map, Option.map_some, Option.getD_some]
    have bit : (mask i).toBitVec.getLsbD (j % 8) = decide (j = i) := by
      rw [mask_toBitVec, BitVec.getLsbD_twoPow, Bool.eq_iff_iff]
      simp only [Bool.and_eq_true, decide_eq_true_eq]
      omega
    cases value
    · simp only [Bool.false_eq_true, if_false, UInt8.toBitVec_and, UInt8.toBitVec_not, BitVec.getLsbD_and,
        BitVec.getLsbD_not, bit]
      by_cases same : j = i <;> simp [same, small]
    · simp only [if_true, UInt8.toBitVec_or, BitVec.getLsbD_or, bit]
      by_cases same : j = i <;> simp [same]
  · have distinct : j ≠ i := fun equal => sameByte (by rw [equal])
    simp [test, assign, distinct, List.getD_eq_getElem?_getD, Ne.symm sameByte]

theorem test_assignAll {bits : List UInt8} (value : Bool) (indices : List Nat)
    (stored : ∀ i ∈ indices, i / 8 < bits.length) (j : Nat) :
    test (assignAll bits indices value) j = if j ∈ indices then value else test bits j := by
  induction indices generalizing bits with
  | nil => simp [assignAll]
  | cons i rest ih =>
    have stored' : ∀ k ∈ rest, k / 8 < (assign bits i value).length := fun k member => by
      simpa using stored k (by simp [member])
    have later := ih stored'
    simp only [assignAll, List.foldl_cons] at later ⊢
    rw [later, test_assign value (stored i (by simp))]
    by_cases inRest : j ∈ rest
    · simp [inRest]
    · by_cases same : j = i
      · simp [same]
      · simp [inRest, same]

theorem test_replicate_zero (n i : Nat) : test (List.replicate n 0) i = false := by
  have zero : (List.replicate n (0 : UInt8)).getD (i / 8) 0 = 0 := by
    simp only [List.getD_eq_getElem?_getD, List.getElem?_replicate]
    split <;> rfl
  rw [test, zero, byte_test]
  simp

theorem test_replicate_ones {n i : Nat} (stored : i / 8 < n) : test (List.replicate n 0xFF) i = true := by
  have ones : (List.replicate n (0xFF : UInt8)).getD (i / 8) 0 = 0xFF := by
    simp [List.getD_eq_getElem?_getD, stored]
  have small : i % 8 < 8 := Nat.mod_lt i (by decide)
  rw [test, ones, byte_test]
  interval_cases i % 8 <;> rfl

theorem getElem?_assignAll {bits : List UInt8} (value : Bool) {indices : List Nat} {n : Nat}
    (elsewhere : ∀ i ∈ indices, i / 8 ≠ n) : (assignAll bits indices value)[n]? = bits[n]? := by
  induction indices generalizing bits with
  | nil => rfl
  | cons i rest ih =>
    have later : (assignAll (assign bits i value) rest value)[n]? = (assign bits i value)[n]? :=
      ih fun j member => elsewhere j (by simp [member])
    simp only [assignAll, List.foldl_cons] at later ⊢
    rw [later, assign, List.getElem?_modify_ne]
    exact elsewhere i (by simp)

end Pcern.Bits

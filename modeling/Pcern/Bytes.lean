import Mathlib.Algebra.Group.Nat.Defs
import Mathlib.Data.List.Basic
import Mathlib.Data.List.GetD
import Mathlib.Tactic.SplitIfs

/-!
Byte memories: total functions from addresses to bytes, with little-endian
32-bit words, block fills and block copies. Every fact a client needs is one of
three: what a write leaves behind at its own place, that it changes nothing
elsewhere, and that a word depends on its four bytes only.
-/
namespace Pcern.Bytes

/-- The contents of a byte-addressed memory. -/
abbrev Memory := Nat → UInt8

def write8 (m : Memory) (a : Nat) (v : UInt8) : Memory := fun b => if b = a then v else m b

def fill (m : Memory) (base len : Nat) (v : UInt8) : Memory :=
  fun a => if base ≤ a ∧ a < base + len then v else m a

/-- `len` bytes from `dst` on taken from `source`, which numbers them from zero. -/
def copyFrom (m : Memory) (source : Nat → UInt8) (dst len : Nat) : Memory :=
  fun a => if dst ≤ a ∧ a < dst + len then source (a - dst) else m a

/-- The bytes from `start` on. -/
def slice (m : Memory) (start len : Nat) : List UInt8 := (List.range len).map fun i => m (start + i)

/-- The bytes are written from `start` on. -/
def blit (m : Memory) (start : Nat) (bytes : List UInt8) : Memory :=
  copyFrom m (fun i => bytes.getD i 0) start bytes.length

def read32 (m : Memory) (a : Nat) : Nat :=
  (m a).toNat + 2 ^ 8 * (m (a + 1)).toNat + 2 ^ 16 * (m (a + 2)).toNat + 2 ^ 24 * (m (a + 3)).toNat

/-- Store the low 32 bits of `v` at `a`, little-endian. -/
def write32 (m : Memory) (a v : Nat) : Memory := fun b =>
  if b = a then UInt8.ofNat v
  else if b = a + 1 then UInt8.ofNat (v / 2 ^ 8)
  else if b = a + 2 then UInt8.ofNat (v / 2 ^ 16)
  else if b = a + 3 then UInt8.ofNat (v / 2 ^ 24)
  else m b

def read16 (m : Memory) (a : Nat) : Nat := (m a).toNat + 2 ^ 8 * (m (a + 1)).toNat

def write16 (m : Memory) (a v : Nat) : Memory := fun b =>
  if b = a then UInt8.ofNat v else if b = a + 1 then UInt8.ofNat (v / 2 ^ 8) else m b

theorem read32_lt (m : Memory) (a : Nat) : read32 m a < 2 ^ 32 := by
  have b0 := (m a).toNat_lt
  have b1 := (m (a + 1)).toNat_lt
  have b2 := (m (a + 2)).toNat_lt
  have b3 := (m (a + 3)).toNat_lt
  unfold read32
  omega

variable {a b base dst k len n start v : Nat} {bytes : List UInt8} {m m' : Memory}

theorem read32_congr (same : ∀ i < 4, m (a + i) = m' (b + i)) :
    read32 m a = read32 m' b := by
  have s0 := same 0 (by omega)
  have s1 := same 1 (by omega)
  have s2 := same 2 (by omega)
  have s3 := same 3 (by omega)
  simp only [Nat.add_zero] at s0
  simp only [read32, s0, s1, s2, s3]

theorem read32_write32_same (m : Memory) (a : Nat) (small : v < 2 ^ 32) :
    read32 (write32 m a v) a = v := by
  simp [read32, write32, UInt8.toNat_ofNat']
  omega

theorem write32_apply_other (m : Memory) (a v : Nat) (apart : b < a ∨ a + 4 ≤ b) :
    write32 m a v b = m b := by
  simp only [write32]
  split_ifs <;> first | rfl | omega

theorem read32_write32_other (m : Memory) (a v : Nat) (apart : b + 4 ≤ a ∨ a + 4 ≤ b) :
    read32 (write32 m a v) b = read32 m b :=
  read32_congr fun _ _ => write32_apply_other m a v (by omega)

theorem read16_lt (m : Memory) (a : Nat) : read16 m a < 2 ^ 16 := by
  have b0 := (m a).toNat_lt
  have b1 := (m (a + 1)).toNat_lt
  unfold read16
  omega

theorem read16_congr (same : ∀ i < 2, m (a + i) = m' (b + i)) : read16 m a = read16 m' b := by
  have s0 := same 0 (by omega)
  have s1 := same 1 (by omega)
  simp only [Nat.add_zero] at s0
  simp only [read16, s0, s1]

section
variable (m : Memory)

theorem read16_write16_same (a : Nat) (small : v < 2 ^ 16) : read16 (write16 m a v) a = v := by
  simp [read16, write16]
  omega

theorem write16_apply_other (a v : Nat) (apart : b < a ∨ a + 2 ≤ b) : write16 m a v b = m b := by
  unfold write16
  split_ifs <;> first | rfl | omega

theorem write8_apply_other (v : UInt8) (other : b ≠ a) : write8 m a v b = m b := by
  simp [write8, other]

theorem fill_apply_other (v : UInt8)
    (apart : a < base ∨ base + len ≤ a) : fill m base len v a = m a := by
  have outside : ¬ (base ≤ a ∧ a < base + len) := by omega
  simp [fill, outside]

theorem fill_apply_inside (v : UInt8)
    (low : base ≤ a) (high : a < base + len) : fill m base len v a = v := by
  simp [fill, low, high]

theorem read32_fill_other (v : UInt8)
    (apart : a + 4 ≤ base ∨ base + len ≤ a) : read32 (fill m base len v) a = read32 m a :=
  read32_congr fun _ _ => fill_apply_other m v (by omega)

theorem read32_fill_zero (low : base ≤ a) (high : a + 4 ≤ base + len) :
    read32 (fill m base len 0) a = 0 := by
  have zero : ∀ i < 4, fill m base len 0 (a + i) = 0 :=
    fun i _ => fill_apply_inside m 0 (by omega) (by omega)
  have z0 := zero 0 (by omega)
  have z1 := zero 1 (by omega)
  have z2 := zero 2 (by omega)
  have z3 := zero 3 (by omega)
  simp only [Nat.add_zero] at z0
  simp [read32, z0, z1, z2, z3]

theorem copyFrom_apply_other (source : Nat → UInt8)
    (apart : a < dst ∨ dst + len ≤ a) : copyFrom m source dst len a = m a := by
  have outside : ¬ (dst ≤ a ∧ a < dst + len) := by omega
  simp [copyFrom, outside]

theorem copyFrom_apply_inside (source : Nat → UInt8)
    (low : dst ≤ a) (high : a < dst + len) : copyFrom m source dst len a = source (a - dst) := by
  simp [copyFrom, low, high]

theorem read32_copyFrom_other (source : Nat → UInt8)
    (apart : a + 4 ≤ dst ∨ dst + len ≤ a) : read32 (copyFrom m source dst len) a = read32 m a :=
  read32_congr fun _ _ => copyFrom_apply_other m source (by omega)

theorem read32_copyFrom_inside (source : Nat → UInt8)
    (low : dst ≤ a) (high : a + 4 ≤ dst + len) :
    read32 (copyFrom m source dst len) a = read32 source (a - dst) := by
  refine read32_congr fun i bound => ?_
  rw [copyFrom_apply_inside m source (by omega) (by omega)]
  congr 1
  omega

@[simp] theorem length_slice (start len : Nat) : (slice m start len).length = len := by
  simp [slice]

end

theorem slice_congr {start start' len : Nat} (same : ∀ i < len, m (start + i) = m' (start' + i)) :
    slice m start len = slice m' start' len := by
  unfold slice
  apply List.map_congr_left
  intro i member
  exact same i (List.mem_range.mp member)

theorem slice_append (m : Memory) (start a b : Nat) : slice m start (a + b) = slice m start a ++ slice m (start + a) b := by
  simp [slice, List.range_add, Function.comp_def, Nat.add_assoc]

theorem blit_apply_other (m : Memory)
    (apart : a < start ∨ start + bytes.length ≤ a) : blit m start bytes a = m a :=
  copyFrom_apply_other m _ apart

theorem slice_blit_same (m : Memory) (start : Nat) (bytes : List UInt8) : slice (blit m start bytes) start bytes.length = bytes := by
  apply List.ext_getElem
  · simp
  · intro i inside there
    simp only [length_slice] at inside
    simp [slice, blit, copyFrom, inside]

theorem slice_blit_of_length (isLength : bytes.length = n) :
    slice (blit m start bytes) start n = bytes := by
  rw [← isLength, slice_blit_same]

section
variable (m : Memory)

theorem slice_blit_other {start from' len : Nat}
    (apart : from' + len ≤ start ∨ start + bytes.length ≤ from') : slice (blit m start bytes) from' len = slice m from' len :=
  slice_congr fun i _ => blit_apply_other m (by omega)

theorem blit_nil (start : Nat) : blit m start [] = m := by
  funext a
  exact blit_apply_other m (by simp only [List.length_nil]; omega)

theorem slice_blit_append (start len : Nat) (bytes : List UInt8) :
    slice (blit m (start + len) bytes) start (len + bytes.length) = slice m start len ++ bytes := by
  rw [slice_append, slice_blit_same, slice_blit_other m (by omega)]

theorem slice_take (start : Nat) (le : k ≤ len) : (slice m start len).take k = slice m start k := by
  obtain ⟨rest, rfl⟩ := Nat.exists_eq_add_of_le le
  rw [slice_append, List.take_left' (length_slice m start k)]

theorem slice_drop (start : Nat) (le : k ≤ len) :
    (slice m start len).drop k = slice m (start + k) (len - k) := by
  obtain ⟨rest, rfl⟩ := Nat.exists_eq_add_of_le le
  rw [slice_append, List.drop_left' (length_slice m start k), Nat.add_sub_cancel_left]

theorem slice_fill_other (v : UInt8) (apart : start + n ≤ base ∨ base + len ≤ start) :
    slice (fill m base len v) start n = slice m start n :=
  slice_congr fun i _ => fill_apply_other m v (by omega)

theorem blit_apply_inside (start : Nat) {i : Nat} (inside : i < bytes.length) :
    blit m start bytes (start + i) = bytes.getD i 0 := by
  rw [blit, copyFrom_apply_inside _ _ (Nat.le_add_right _ _) (by omega), Nat.add_sub_cancel_left]

theorem fill_eq_blit (base len : Nat) (v : UInt8) : fill m base len v = blit m base (List.replicate len v) := by
  funext a
  by_cases inside : base ≤ a ∧ a < base + len
  · obtain ⟨i, rfl⟩ := Nat.exists_eq_add_of_le inside.1
    have less : i < len := by omega
    rw [fill_apply_inside _ _ inside.1 inside.2, blit_apply_inside _ _ (by simpa using less)]
    simp [List.getD_eq_getElem?_getD, less]
  · rw [fill_apply_other _ _ (by omega), blit_apply_other _ (by simp only [List.length_replicate]; omega)]

private theorem blit_append (start : Nat) (xs ys : List UInt8) :
    blit (blit m start xs) (start + xs.length) ys = blit m start (xs ++ ys) := by
  funext a
  by_cases below : a < start
  · rw [blit_apply_other _ (.inl (by omega)), blit_apply_other _ (.inl below), blit_apply_other _ (.inl below)]
  · obtain ⟨i, rfl⟩ := Nat.exists_eq_add_of_le (Nat.not_lt.mp below)
    by_cases first : i < xs.length
    · rw [blit_apply_other _ (.inl (by omega)), blit_apply_inside _ _ first,
        blit_apply_inside _ _ (by rw [List.length_append]; omega), List.getD_append _ _ _ _ first]
    · obtain ⟨j, rfl⟩ := Nat.exists_eq_add_of_le (Nat.not_lt.mp first)
      by_cases second : j < ys.length
      · rw [← Nat.add_assoc, blit_apply_inside _ _ second, Nat.add_assoc,
          blit_apply_inside _ _ (by rw [List.length_append]; omega), List.getD_append_right _ _ _ _ (by omega),
          Nat.add_sub_cancel_left]
      · rw [blit_apply_other _ (.inr (by omega)), blit_apply_other _ (.inr (by omega)),
          blit_apply_other _ (.inr (by rw [List.length_append]; omega))]

end

theorem blit_behind {xs ys : List UInt8} (behind : start + xs.length = a) :
    blit (blit m start xs) a ys = blit m start (xs ++ ys) := by
  rw [← behind, blit_append]

theorem blit_overlay (m : Memory) (start : Nat) (before old after : List UInt8) {new : List UInt8}
    (same : old.length = new.length) :
    blit (blit m start (before ++ (old ++ after))) (start + before.length) new = blit m start (before ++ (new ++ after)) := by
  have cover (m : Memory) (start : Nat) : blit (blit m start (old ++ after)) start new = blit m start (new ++ after) := by
    funext a
    by_cases below : a < start
    · rw [blit_apply_other _ (.inl below), blit_apply_other _ (.inl below), blit_apply_other _ (.inl below)]
    · obtain ⟨i, rfl⟩ := Nat.exists_eq_add_of_le (Nat.not_lt.mp below)
      have long : (old ++ after).length = (new ++ after).length := by simp [same]
      by_cases first : i < new.length
      · rw [blit_apply_inside _ _ first, blit_apply_inside _ _ (by rw [List.length_append]; omega),
          List.getD_append _ _ _ _ first]
      · rw [blit_apply_other _ (.inr (by omega))]
        by_cases second : i < (new ++ after).length
        · rw [blit_apply_inside _ _ second, blit_apply_inside _ _ (by omega),
            List.getD_append_right _ _ _ _ (by omega), List.getD_append_right _ _ _ _ (by omega), same]
        · rw [blit_apply_other _ (.inr (by omega)), blit_apply_other _ (.inr (by omega))]
  rw [← blit_append, cover, blit_append]

theorem slice_blit_middle (m : Memory) (start : Nat) (before part after : List UInt8) :
    slice (blit m start (before ++ (part ++ after))) (start + before.length) part.length = part := by
  rw [← blit_append, ← blit_append]
  rw [slice_blit_other _ (.inl (Nat.le_refl _)), slice_blit_same]

def Agree (n : Nat) (m m' : Memory) : Prop := ∀ k < n, m k = m' k

theorem Agree.slice (agree : Agree n m m') (inside : start + len ≤ n) :
    slice m start len = slice m' start len :=
  slice_congr fun i less => agree (start + i) (by omega)

theorem Agree.blit (agree : Agree n m m') (start : Nat) (bytes : List UInt8) :
    Agree n (blit m start bytes) (blit m' start bytes) := by
  intro k less
  by_cases inside : start ≤ k ∧ k < start + bytes.length
  · obtain ⟨i, rfl⟩ := Nat.exists_eq_add_of_le inside.1
    rw [blit_apply_inside _ _ (by omega), blit_apply_inside _ _ (by omega)]
  · rw [blit_apply_other _ (by omega), blit_apply_other _ (by omega)]
    exact agree k less

end Pcern.Bytes

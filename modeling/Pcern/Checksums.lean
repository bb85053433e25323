import Pcern.Packets

/-!
The Internet checksum. `wordSum` is the sum of the 16-bit words of some bytes as a
number, which `checksum16Accumulate` computes as long as 32 bits hold it
(`accumulate_toNat`). Folding the carries leaves the sum modulo 65535, with 65535
in the place of zero (`foldCarries_eq`). So a sum in which the complement of the
folded rest takes part folds to `0xFFFF` (`foldCarries_finish`).
-/
namespace Pcern
open Bytes

theorem length_be16 (n : UInt16) : (be16 n).length = 2 := rfl

theorem length_be32 (n : UInt32) : (be32 n).length = 4 := rfl

namespace Proto

/-- The sum of the 16-bit words in network order; an odd last byte has a zero behind it. -/
def wordSum : List UInt8 → Nat
  | high :: low :: rest => 2 ^ 8 * high.toNat + low.toNat + wordSum rest
  | [last] => 2 ^ 8 * last.toNat
  | [] => 0

private theorem wordSum_append {xs ys : List UInt8} (even : xs.length % 2 = 0) : wordSum (xs ++ ys) = wordSum xs + wordSum ys := by
  induction xs using wordSum.induct with
  | case1 high low rest ih =>
    have tail : rest.length % 2 = 0 := by
      simp only [List.length_cons] at even
      omega
    simp only [List.cons_append, wordSum, ih tail]
    omega
  | case2 last => simp at even
  | case3 => simp [wordSum]

private theorem wordSum_be16 (n : UInt16) : wordSum (be16 n) = n.toNat := by
  have small := n.toNat_lt
  simp [be16, wordSum, Nat.shiftRight_eq_div_pow]
  omega

theorem wordSum_around (front back : List UInt8) (even : front.length % 2 = 0) (checksum : UInt16) :
    wordSum (front ++ (be16 checksum ++ back)) = wordSum (front ++ (be16 0 ++ back)) + checksum.toNat := by
  have two (n : UInt16) : (be16 n).length % 2 = 0 := by rw [length_be16]
  have zero : (0 : UInt16).toNat = 0 := rfl
  rw [wordSum_append even, wordSum_append even, wordSum_append (two _), wordSum_append (two _), wordSum_be16, wordSum_be16]
  omega

theorem wordSum_le (bytes : List UInt8) : wordSum bytes ≤ 65535 * ((bytes.length + 1) / 2) := by
  induction bytes using wordSum.induct with
  | case1 high low rest ih =>
    have h := high.toNat_lt
    have l := low.toNat_lt
    simp only [wordSum, List.length_cons]
    omega
  | case2 last =>
    have l := last.toNat_lt
    simp only [wordSum, List.length_cons, List.length_nil]
    omega
  | case3 => simp [wordSum]

private theorem word_toNat_be (high low : UInt8) : (high.toUInt32 <<< 8 ||| low.toUInt32).toNat = 2 ^ 8 * high.toNat + low.toNat := by
  have h := high.toNat_lt
  have l := low.toNat_lt
  have shifted : (high.toUInt32 <<< 8).toNat = high.toNat <<< 8 := by
    simp [Nat.shiftLeft_eq]
    omega
  rw [UInt32.toNat_or, shifted, UInt8.toNat_toUInt32, ← Nat.shiftLeft_add_eq_or_of_lt l, Nat.shiftLeft_eq]
  omega

theorem accumulate_toNat {sum : UInt32} {bytes : List UInt8} (fits : sum.toNat + wordSum bytes < 2 ^ 32) :
    (checksum16Accumulate sum bytes).toNat = sum.toNat + wordSum bytes := by
  induction bytes using wordSum.induct generalizing sum with
  | case1 high low rest ih =>
    simp only [wordSum] at fits ⊢
    have next : (sum + (high.toUInt32 <<< 8 ||| low.toUInt32)).toNat = sum.toNat + (2 ^ 8 * high.toNat + low.toNat) := by
      rw [UInt32.toNat_add, word_toNat_be, Nat.mod_eq_of_lt (by omega)]
    rw [checksum16Accumulate, ih (by rw [next]; omega), next]
    omega
  | case2 last =>
    simp only [wordSum] at fits ⊢
    have word := word_toNat_be last 0
    have zero : last.toUInt32 <<< 8 ||| (0 : UInt8).toUInt32 = last.toUInt32 <<< 8 := UInt32.or_zero
    rw [zero] at word
    have word : (last.toUInt32 <<< 8).toNat = 2 ^ 8 * last.toNat := word
    rw [checksum16Accumulate, UInt32.toNat_add, word, Nat.mod_eq_of_lt fits]
  | case3 => simp [checksum16Accumulate, wordSum]

private theorem foldCarries_eq (sum : Nat) : foldCarries sum = if sum = 0 then 0 else (sum - 1) % 65535 + 1 := by
  induction sum using foldCarries.induct with
  | case1 sum none =>
    rw [foldCarries, if_pos none]
    split <;> omega
  | case2 sum carries ih =>
    rw [foldCarries, if_neg carries, ih]
    split <;> split <;> omega

private theorem finish_toNat (sum : UInt32) : (checksum16Finish sum).toNat = 65535 - foldCarries sum.toNat := by
  have folded : foldCarries sum.toNat < 65536 := by
    rw [foldCarries_eq]
    split <;> omega
  simp only [checksum16Finish]
  rw [UInt16.toNat_not, UInt16.toNat_ofNat_of_lt' folded]
  rfl

theorem foldCarries_finish (sum : UInt32) : foldCarries (sum.toNat + (checksum16Finish sum).toNat) = 0xFFFF := by
  rw [finish_toNat, foldCarries_eq, foldCarries_eq]
  split <;> split <;> omega

/-- A checksum over at most 65535 bytes makes them valid, if it is stored at an even offset that held zero. -/
theorem checksum16_valid (front back : List UInt8) (even : front.length % 2 = 0)
    (short : (front ++ (be16 0 ++ back)).length ≤ 65535) :
    foldCarries (wordSum (front ++ (be16 (checksum16 (front ++ (be16 0 ++ back))) ++ back))) = 0xFFFF := by
  have bound := wordSum_le (front ++ (be16 0 ++ back))
  have zero : (0 : UInt32).toNat = 0 := rfl
  have sum : (checksum16Accumulate 0 (front ++ (be16 0 ++ back))).toNat = wordSum (front ++ (be16 0 ++ back)) := by
    rw [accumulate_toNat (by omega), zero, Nat.zero_add]
  rw [wordSum_around front back even, ← sum]
  exact foldCarries_finish _

end Proto
end Pcern

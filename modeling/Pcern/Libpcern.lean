import Mathlib.Data.List.Induction
import Mathlib.Data.Set.Insert
import Pcern.Bytes

/-!
What the services share, after `libpcern`: the result of a receive and the
numbers of the protocols.
-/
namespace Pcern

/-- What a receive returns: the sender's id, the three words, and the slot of a transferred capability. -/
structure RecvResult where
  sender : UInt32
  w0 : UInt32
  w1 : UInt32
  w2 : UInt32
  transferredSlot : UInt32
  deriving DecidableEq, Repr

/-- The bytes of a word, lowest first. -/
def le32 (w : UInt32) : List UInt8 := [w.toUInt8, (w >>> 8).toUInt8, (w >>> 16).toUInt8, (w >>> 24).toUInt8]

/-- `u32::from_le_bytes`. -/
def fromLe32 (b0 b1 b2 b3 : UInt8) : UInt32 :=
  UInt32.ofNat (b0.toNat + 2 ^ 8 * b1.toNat + 2 ^ 16 * b2.toNat + 2 ^ 24 * b3.toNat)

theorem le32_fromLe32 (b0 b1 b2 b3 : UInt8) : le32 (fromLe32 b0 b1 b2 b3) = [b0, b1, b2, b3] := by
  have h0 := b0.toNat_lt
  have h1 := b1.toNat_lt
  have h2 := b2.toNat_lt
  have h3 := b3.toNat_lt
  simp only [le32, fromLe32, List.cons.injEq, and_true]
  refine ⟨?_, ?_, ?_, ?_⟩ <;> apply UInt8.toNat_inj.mp <;> simp [Nat.shiftRight_eq_div_pow] <;> omega

theorem word_ne_zero {n : Nat} (some : 0 < n) (small : n < 2 ^ 32) : UInt32.ofNat n ≠ 0 := by
  intro zero
  have same := congrArg UInt32.toNat zero
  rw [UInt32.toNat_ofNat_of_lt' small] at same
  exact Nat.ne_of_gt some same

/-- `u8::to_ascii_uppercase`. -/
def toAsciiUppercase (b : UInt8) : UInt8 := if 0x61 ≤ b ∧ b ≤ 0x7A then b - 0x20 else b

private theorem toAsciiUppercase_twice (b : UInt8) : toAsciiUppercase (toAsciiUppercase b) = toAsciiUppercase b := by
  unfold toAsciiUppercase
  by_cases small : 0x61 ≤ b ∧ b ≤ 0x7A
  · rw [if_pos small, if_neg]
    intro again
    have low := UInt8.le_iff_toNat_le.mp small.1
    have high := UInt8.le_iff_toNat_le.mp small.2
    have lower := UInt8.le_iff_toNat_le.mp again.1
    simp [UInt8.toNat_sub] at low high lower
    omega
  · rw [if_neg small, if_neg small]

namespace Libpcern

/-- At most `n` bytes of a part of a name in upper case, and blanks behind them. -/
def packPart (n : Nat) (part : List UInt8) : List UInt8 :=
  (part.take n).map toAsciiUppercase ++ List.replicate (n - part.length) 0x20

/-- A name such as `hello.txt` as the name bytes of a directory entry. -/
def fatPackName (name : List UInt8) : List UInt8 :=
  match name.idxOf? 0x2E with
  | some i => packPart 8 (name.take i) ++ packPart 3 (name.drop (i + 1))
  | none => packPart 8 name ++ packPart 3 []

private theorem length_packPart (n : Nat) (part : List UInt8) : (packPart n part).length = n := by
  simp [packPart]
  omega

theorem length_fatPackName (name : List UInt8) : (fatPackName name).length = 11 := by
  unfold fatPackName
  split <;> simp [length_packPart]

private theorem upper_packPart (n : Nat) (part : List UInt8) : (packPart n part).map toAsciiUppercase = packPart n part := by
  have blank : toAsciiUppercase 0x20 = 0x20 := rfl
  simp [packPart, Function.comp_def, toAsciiUppercase_twice, blank]

theorem upper_fatPackName (name : List UInt8) : (fatPackName name).map toAsciiUppercase = fatPackName name := by
  unfold fatPackName
  split <;> simp [upper_packPart]

/-- Up to eight bytes in two words. -/
def packName (name : List UInt8) : UInt32 × UInt32 :=
  let byte i := (name.take 8).getD i 0
  (fromLe32 (byte 0) (byte 1) (byte 2) (byte 3), fromLe32 (byte 4) (byte 5) (byte 6) (byte 7))

/-- The decimal digits of a number, the last one first; the array has room for some of them. -/
def digits : Nat → Nat → List UInt8
  | 0, _ => []
  | room + 1, n => if n = 0 then [] else (0x30 + UInt8.ofNat (n % 10)) :: digits room (n / 10)

def printU32 (n : UInt32) : List UInt8 := if n = 0 then [0x30] else (digits 10 n.toNat).reverse

abbrev kernelTaskId : UInt32 := 0
abbrev opPutchar : UInt32 := 0
abbrev consoleOpSetBuffer : UInt32 := 1
abbrev consoleOpSetReader : UInt32 := 2
abbrev consoleOpReadLine : UInt32 := 3
abbrev consoleOpSetMode : UInt32 := 4
abbrev consoleOpReadKey : UInt32 := 5
abbrev consoleLineMax : Nat := 256
abbrev nsOpRegister : UInt32 := 1
abbrev nsOpLookup : UInt32 := 2
abbrev storageOpSetBuffer : UInt32 := 1
abbrev storageOpSetReply : UInt32 := 2
abbrev storageOpReadBlock : UInt32 := 3
abbrev storageOpWriteBlock : UInt32 := 4
abbrev fsOpSetBuffer : UInt32 := 1
abbrev fsOpSetReply : UInt32 := 2
abbrev fsOpOpenName1 : UInt32 := 3
abbrev fsOpOpenName2 : UInt32 := 4
abbrev fsOpRead : UInt32 := 5
abbrev fsOpWrite : UInt32 := 6
abbrev fsOpTruncate : UInt32 := 7
abbrev nicOpSetBuffer : UInt32 := 1
abbrev nicOpSetReply : UInt32 := 2
abbrev nicOpGetMac : UInt32 := 3
abbrev nicOpSend : UInt32 := 4
abbrev nicOpRecv : UInt32 := 5
abbrev nicOpTryRecv : UInt32 := 6
abbrev nicMaxFrame : Nat := 1518
abbrev tcpOpSetBuffer : UInt32 := 1
abbrev tcpOpSetReply : UInt32 := 2
abbrev tcpOpConnect : UInt32 := 3
abbrev tcpOpSend : UInt32 := 4
abbrev tcpOpRecv : UInt32 := 5
abbrev tcpOpClose : UInt32 := 6
abbrev tcpMaxTransfer : Nat := 4096

end Libpcern
end Pcern

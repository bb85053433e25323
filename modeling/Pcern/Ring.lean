import Pcern.Bytes
import Mathlib.Data.Nat.Bitwise

/-!
The receive ring of `net_rtl8139`, after its `rtl8139.rs`. The card is outside: a poll of its command register finds the
ring empty, or finds an entry in the buffer as it then is. An entry is read once, byte by byte, so what the card writes
meanwhile is part of what is read.

Two results: where the driver's offset is that of the card (`ring_tracks_iff`), and which lengths in the ring keep the
driver inside its buffer (`ring_inside_iff`).
-/
namespace Pcern.NetRtl8139
open Bytes

abbrev rxRingWrap : Nat := 8192
abbrev rxBufBytes : Nat := rxRingWrap + 16 + 1500
abbrev maxFrameSize : Nat := 1518
abbrev rxBufPages : Nat := (rxBufBytes + 4095) / 4096
abbrev maxPacketsPerDrain : Nat := 64

/-- What `receive` touches: the header of an entry, with what it says, the bytes of a frame that go to the beginning of
    `out`, and the register that tells the card how far the driver has come. -/
inductive Access where
  | header (offset : Nat) (status length : UInt16)
  | copy (offset len : Nat)
  | capr (value : UInt16)
  deriving DecidableEq, Repr

/-- The variables of `receive`, and a list of what it has touched. `lastLen` is what it returns. -/
structure Receiver where
  curRx : UInt16
  out : Memory
  lastLen : Option Nat
  accesses : List Access

def Receiver.start (out : Memory) : Receiver := { curRx := 0, out, lastLen := none, accesses := [] }

def readU16 (m : Memory) (a : Nat) : UInt16 := UInt16.ofNat (read16 m a)

/-- An entry that is copied out: the card has received it, and its length can be. -/
def accepted (status length : UInt16) : Bool :=
  status &&& 1 != 0 && decide (4 ≤ length.toNat ∧ length.toNat ≤ maxFrameSize + 4)

def advance (curRx length : UInt16) : UInt16 :=
  let advance : UInt32 := (length.toUInt32 + 4 + 3) &&& ~~~3
  let next := curRx.toUInt32 + advance
  let next := if next > UInt32.ofNat rxRingWrap then next - UInt32.ofNat rxRingWrap else next
  next.toUInt16

/-- One pass of the loop; `rx` is the receive buffer. -/
def drainPacket (rx : Memory) (r : Receiver) : Receiver :=
  let hdr := r.curRx.toNat
  let status := readU16 rx hdr
  let length := readU16 rx (hdr + 2)
  let r := { r with accesses := r.accesses ++ [Access.header hdr status length] }
  let r :=
    if accepted status length then
      let dataLen := length.toNat - 4
      { r with
        out := blit r.out 0 (slice rx (hdr + 4) dataLen), lastLen := some dataLen,
        accesses := r.accesses ++ [Access.copy (hdr + 4) dataLen] }
    else r
  let curRx := advance r.curRx length
  { r with curRx, accesses := r.accesses ++ [Access.capr (curRx - 16)] }

/-- What the polls of the command register find: nothing, if the card says that its ring is empty, or an entry. -/
abbrev Polls := Nat → Option Memory

/-- The loop, with how many entries it may still drain and how many it has drained. -/
def drain (polls : Polls) : Nat → Nat → Receiver → Receiver
  | 0, _, r => r
  | left + 1, drained, r =>
    match polls drained with
    | none => r
    | some rx => drain polls left (drained + 1) (drainPacket rx r)

def receive (polls : Polls) (r : Receiver) : Receiver := drain polls maxPacketsPerDrain 0 { r with lastLen := none }

def receives (calls : List Polls) (r : Receiver) : Receiver := calls.foldl (fun r polls => receive polls r) r

private theorem receives_append (calls : List Polls) (polls : Polls) (r : Receiver) :
    receives (calls ++ [polls]) r = receive polls (receives calls r) := by
  simp only [receives, List.foldl_append, List.foldl_cons, List.foldl_nil]

/-! ## The loop as a fold -/

def entriesFrom (polls : Polls) : Nat → Nat → List Memory
  | 0, _ => []
  | left + 1, drained =>
    match polls drained with
    | none => []
    | some rx => rx :: entriesFrom polls left (drained + 1)

def entries (polls : Polls) : List Memory := entriesFrom polls maxPacketsPerDrain 0

def walk (rxs : List Memory) (r : Receiver) : Receiver := rxs.foldl (fun r rx => drainPacket rx r) r

private theorem drain_eq (polls : Polls) (left drained : Nat) (r : Receiver) :
    drain polls left drained r = walk (entriesFrom polls left drained) r := by
  induction left generalizing drained r with
  | zero => rfl
  | succ left more =>
    unfold drain entriesFrom
    cases polls drained with
    | none => rfl
    | some rx => exact more (drained + 1) (drainPacket rx r)

private theorem receive_eq (polls : Polls) (r : Receiver) : receive polls r = walk (entries polls) { r with lastLen := none } :=
  drain_eq polls maxPacketsPerDrain 0 _

private theorem walk_invariant {P : Receiver → Prop} (step : ∀ rx r, P r → P (drainPacket rx r)) {r : Receiver} (start : P r)
    (rxs : List Memory) : P (walk rxs r) := by
  induction rxs generalizing r with
  | nil => exact start
  | cons rx rxs more => exact more (step rx r start)

private theorem receives_invariant {P : Receiver → Prop} (step : ∀ rx r, P r → P (drainPacket rx r))
    (reset : ∀ r, P r → P { r with lastLen := none }) {r : Receiver} (start : P r) (calls : List Polls) : P (receives calls r) := by
  induction calls generalizing r with
  | nil => exact start
  | cons polls calls more =>
    have next : P (receive polls r) := by
      rw [receive_eq]
      exact walk_invariant step (reset r start) (entries polls)
    exact more next

/-! ## Offsets -/

private theorem toNat_and_not_three (x : UInt32) : (x &&& ~~~3).toNat = x.toNat / 4 * 4 := by
  have mask : (~~~(3 : UInt32)).toNat = (2 ^ 30 - 1) <<< 2 := by decide
  have shifted : x.toNat / 4 * 4 = (x.toNat >>> 2) <<< 2 := by rw [Nat.shiftRight_eq_div_pow, Nat.shiftLeft_eq]
  have small := x.toNat_lt
  rw [UInt32.toNat_and, mask, shifted]
  refine Nat.eq_of_testBit_eq fun i => ?_
  simp only [Nat.testBit_and, Nat.testBit_shiftLeft, Nat.testBit_shiftRight, Nat.testBit_two_pow_sub_one]
  by_cases high : 2 ≤ i
  · by_cases low : i < 32
    · simp [high, show i - 2 < 30 by omega, Nat.add_sub_cancel' high]
    · have beyond : x.toNat < 2 ^ i := Nat.lt_of_lt_of_le small (Nat.pow_le_pow_right (by decide) (Nat.le_of_not_lt low))
      simp [high, Nat.add_sub_cancel' high, Nat.testBit_lt_two_pow beyond]
  · simp [high]

/-- The room that an entry of this length takes in the ring. -/
def stride (length : Nat) : Nat := (4 + length + 3) / 4 * 4

private theorem advance_toNat (curRx length : UInt16) :
    (advance curRx length).toNat = (if rxRingWrap < curRx.toNat + stride length.toNat
      then curRx.toNat + stride length.toNat - rxRingWrap else curRx.toNat + stride length.toNat) % 65536 := by
  have low := curRx.toNat_lt
  have short := length.toNat_lt
  have rounded : ((length.toUInt32 + 4 + 3) &&& ~~~3).toNat = stride length.toNat := by
    rw [toNat_and_not_three]
    simp only [UInt32.toNat_add, UInt16.toNat_toUInt32, UInt32.toNat_ofNat, stride]
    omega
  have next : (curRx.toUInt32 + ((length.toUInt32 + 4 + 3) &&& ~~~3)).toNat = curRx.toNat + stride length.toNat := by
    rw [UInt32.toNat_add, rounded, UInt16.toNat_toUInt32]
    unfold stride
    omega
  unfold advance
  dsimp only
  have wrap : (UInt32.ofNat rxRingWrap).toNat = rxRingWrap := rfl
  by_cases beyond : rxRingWrap < curRx.toNat + stride length.toNat
  · rw [if_pos (by rw [gt_iff_lt, UInt32.lt_iff_toNat_lt, next, wrap]; exact beyond), if_pos beyond, UInt32.toNat_toUInt16,
      UInt32.toNat_sub_of_le _ _ (by rw [UInt32.le_iff_toNat_le, next, wrap]; omega), next, wrap]
  · rw [if_neg (by rw [gt_iff_lt, UInt32.lt_iff_toNat_lt, next, wrap]; exact beyond), if_neg beyond, UInt32.toNat_toUInt16, next]

private theorem drainPacket_curRx (rx : Memory) (r : Receiver) :
    (drainPacket rx r).curRx = advance r.curRx (readU16 rx (r.curRx.toNat + 2)) := by
  unfold drainPacket
  dsimp only
  split <;> rfl

def touched (rx : Memory) (curRx : UInt16) : List Access :=
  let status := readU16 rx curRx.toNat
  let length := readU16 rx (curRx.toNat + 2)
  .header curRx.toNat status length ::
    ((if accepted status length then [.copy (curRx.toNat + 4) (length.toNat - 4)] else []) ++ [.capr (advance curRx length - 16)])

private theorem drainPacket_accesses (rx : Memory) (r : Receiver) :
    (drainPacket rx r).accesses = r.accesses ++ touched rx r.curRx := by
  unfold drainPacket touched
  dsimp only
  split <;> simp only [List.append_assoc, List.cons_append, List.nil_append]

/-! ## Inside the buffer -/

/-- Every byte that is read is in the pages of the buffer, and every byte that is written is in `out`. -/
def Access.Inside : Access → Prop
  | .header offset _ _ => ∀ i < 4, offset + i < rxBufPages * 4096
  | .copy offset len => ∀ i < len, offset + i < rxBufPages * 4096 ∧ i < maxFrameSize
  | .capr _ => True

/-- Every length that was found in the ring is at most `bound`. -/
def LengthsUpTo (bound : Nat) (r : Receiver) : Prop :=
  ∀ offset status length, .header offset status length ∈ r.accesses → length.toNat ≤ bound

section
variable {rx : Memory} {r : Receiver}

theorem LengthsUpTo.earlier {bound : Nat} (up : LengthsUpTo bound (drainPacket rx r)) : LengthsUpTo bound r := by
  intro offset status length member
  refine up offset status length ?_
  rw [drainPacket_accesses]
  exact List.mem_append_left _ member

theorem LengthsUpTo.last {bound : Nat} (up : LengthsUpTo bound (drainPacket rx r)) :
    (readU16 rx (r.curRx.toNat + 2)).toNat ≤ bound := by
  refine up r.curRx.toNat (readU16 rx r.curRx.toNat) _ ?_
  rw [drainPacket_accesses]
  exact List.mem_append_right _ (List.mem_cons_self ..)

private theorem touched_inside {curRx : UInt16} (low : curRx.toNat ≤ rxRingWrap) : ∀ a ∈ touched rx curRx, a.Inside := by
  intro a member
  simp only [touched, List.mem_cons, List.mem_append, List.not_mem_nil, or_false] at member
  rcases member with rfl | member | rfl
  · intro i less
    simp only [rxRingWrap, rxBufPages, rxBufBytes] at low ⊢
    omega
  · split at member
    · rename_i takes
      simp only [accepted, Bool.and_eq_true, decide_eq_true_eq] at takes
      obtain ⟨-, least, most⟩ := takes
      rw [List.mem_singleton.mp member]
      intro i less
      simp only [rxRingWrap, rxBufPages, rxBufBytes, maxFrameSize] at low most ⊢
      omega
    · cases member
  · trivial

private theorem advance_le {curRx length : UInt16} (low : curRx.toNat ≤ rxRingWrap) (short : length.toNat ≤ 8188) :
    (advance curRx length).toNat ≤ rxRingWrap := by
  rw [advance_toNat]
  have room : stride length.toNat ≤ rxRingWrap := by
    simp only [stride, rxRingWrap]
    omega
  split <;> omega

private theorem inside_of_short (calls : List Polls) {r : Receiver} (fresh : r.accesses = []) (first : r.curRx = 0)
    (short : LengthsUpTo 8188 (receives calls r)) : ∀ a ∈ (receives calls r).accesses, a.Inside := by
  have kept : LengthsUpTo 8188 (receives calls r) →
      (receives calls r).curRx.toNat ≤ rxRingWrap ∧ ∀ a ∈ (receives calls r).accesses, a.Inside := by
    refine receives_invariant (P := fun r => LengthsUpTo 8188 r → r.curRx.toNat ≤ rxRingWrap ∧ ∀ a ∈ r.accesses, a.Inside)
      (fun rx r before short => ?_) (fun r before => before) (fun _ => ?_) calls
    · obtain ⟨low, inside⟩ := before short.earlier
      refine ⟨?_, fun a member => ?_⟩
      · rw [drainPacket_curRx]
        exact advance_le low short.last
      · rw [drainPacket_accesses] at member
        rcases List.mem_append.mp member with member | member
        · exact inside a member
        · exact touched_inside low a member
    · rw [first, fresh]
      exact ⟨Nat.zero_le _, fun a member => by cases member⟩
  exact (kept short).2

end

/-- A buffer in which every fourth offset holds an entry of length 8189, just too long for the ring. -/
def longEntries : Memory := fun i => if i % 4 = 2 then 0xFD else if i % 4 = 3 then 0x1F else 0

private theorem longEntries_length {offset : Nat} (aligned : offset % 4 = 0) : readU16 longEntries (offset + 2) = 8189 := by
  have second : (offset + 2) % 4 = 2 := by omega
  have third : (offset + 2 + 1) % 4 = 3 := by omega
  simp only [readU16, read16, longEntries, second, third]
  decide

/-- `n` entries have been drained, each four bytes behind the last. -/
structure Creeps (n : Nat) (r : Receiver) : Prop where
  offset : r.curRx.toNat = 4 * n
  lengths : LengthsUpTo 8189 r

theorem Creeps.step {n : Nat} {r : Receiver} (creeps : Creeps n r) (low : n < 4096) : Creeps (n + 1) (drainPacket longEntries r) := by
  have length : readU16 longEntries (r.curRx.toNat + 2) = 8189 := longEntries_length (by rw [creeps.offset]; omega)
  refine ⟨?_, ?_⟩
  · have room : stride (8189 : UInt16).toNat = rxRingWrap + 4 := by decide
    rw [drainPacket_curRx, length, advance_toNat, creeps.offset, room, if_pos (by omega)]
    omega
  · intro offset status length' member
    rw [drainPacket_accesses] at member
    rcases List.mem_append.mp member with member | member
    · exact creeps.lengths offset status length' member
    · simp only [touched, List.mem_cons, List.mem_append, List.not_mem_nil, or_false, Access.header.injEq, reduceCtorEq] at member
      rcases member with ⟨-, -, rfl⟩ | member
      · rw [length]
        decide
      · split at member <;> simp at member

theorem Creeps.walk {n count : Nat} {r : Receiver} (creeps : Creeps n r) (low : n + count ≤ 4096) :
    Creeps (n + count) (walk (List.replicate count longEntries) r) := by
  induction count generalizing n r with
  | zero => exact creeps
  | succ count more =>
    have next := more (creeps.step (by omega)) (by omega)
    rwa [Nat.add_right_comm, Nat.add_assoc] at next

private theorem entries_const (rx : Memory) : entries (fun _ => some rx) = List.replicate maxPacketsPerDrain rx := by
  have same (left drained : Nat) : entriesFrom (fun _ => some rx) left drained = List.replicate left rx := by
    induction left generalizing drained with
    | zero => rfl
    | succ left more => exact congrArg (rx :: ·) (more (drained + 1))
  exact same maxPacketsPerDrain 0

private theorem creeps_calls (out : Memory) {calls : Nat} (few : calls ≤ 64) :
    Creeps (64 * calls) (receives (List.replicate calls fun _ => some longEntries) (Receiver.start out)) := by
  induction calls with
  | zero =>
    refine ⟨rfl, fun _ _ _ member => ?_⟩
    cases member
  | succ calls before =>
    rw [List.replicate_succ', receives_append, receive_eq, entries_const]
    have earlier := before (by omega)
    exact Creeps.walk (n := 64 * calls) ⟨earlier.offset, earlier.lengths⟩ (by omega)

private theorem outside_of_long (out : Memory) : ∃ calls, LengthsUpTo 8189 (receives calls (Receiver.start out)) ∧
    ¬∀ a ∈ (receives calls (Receiver.start out)).accesses, a.Inside := by
  -- 48 calls lead to the end of the last page, and one more entry is read there
  obtain ⟨first, isFirst⟩ : ∃ first : List Polls, first = List.replicate 48 fun _ => some longEntries := ⟨_, rfl⟩
  have there : Creeps (64 * 48) (receives first (Receiver.start out)) := isFirst ▸ creeps_calls out (by decide)
  generalize isR : receives first (Receiver.start out) = r at there
  have again : Creeps (64 * 48) ({ r with lastLen := none } : Receiver) := ⟨there.offset, there.lengths⟩
  have ran : receives (first ++ [fun drained => if drained = 0 then some longEntries else none]) (Receiver.start out) =
      drainPacket longEntries { r with lastLen := none } := by
    rw [receives_append, isR]
    rfl
  refine ⟨_, by rw [ran]; exact (again.step (by decide)).lengths, fun inside => ?_⟩
  rw [ran, drainPacket_accesses] at inside
  have header := inside _ (List.mem_append_right _ (List.mem_cons_self ..)) 0 (by decide)
  rw [again.offset] at header
  exact absurd header (by decide)

/--
Which lengths keep the driver inside: for arbitrary contents of the buffer, arbitrary polls and any calls, every byte that is
read is in the buffer and every byte that is written is in `out` as long as the lengths found in the ring are at most `bound`, if
and only if that is at most 8188, the length of an entry that fills the ring.
-/
theorem ring_inside_iff (bound : Nat) :
    (∀ out calls, LengthsUpTo bound (receives calls (Receiver.start out)) →
      ∀ a ∈ (receives calls (Receiver.start out)).accesses, a.Inside) ↔ bound ≤ 8188 := by
  constructor
  · intro inside
    by_contra long
    obtain ⟨calls, lengths, outside⟩ := outside_of_long fun _ => 0
    refine outside (inside _ calls fun offset status length member => ?_)
    exact (lengths offset status length member).trans (by omega)
  · intro short out calls lengths
    exact inside_of_short calls rfl rfl fun offset status length member => (lengths offset status length member).trans short

/-- A buffer full of ones: the first length leads 57348 bytes into a buffer of 12288. -/
theorem malformed_entry_leads_outside :
    .header 57348 0xFFFF 0xFFFF ∈
        (receives [fun drained => if drained < 2 then some fun _ => 0xFF else none] (Receiver.start fun _ => 0)).accesses ∧
      ¬(Access.header 57348 0xFFFF 0xFFFF).Inside := by
  refine ⟨by decide +kernel, fun inside => ?_⟩
  exact absurd (inside 0 (by decide)) (by decide)

/-! ## The card's offsets -/

structure Packet where
  status : UInt16
  data : List UInt8
  received : (status &&& 1 != 0) = true
  least : 4 ≤ data.length
  most : data.length ≤ maxFrameSize + 4

def Packet.frame (p : Packet) : List UInt8 := p.data.take (p.data.length - 4)

def position (packets : Nat → Packet) : Nat → Nat
  | 0 => 0
  | k + 1 => (position packets k + stride (packets k).data.length) % rxRingWrap

/-- The packet is in the buffer, contiguous from `offset` on. -/
structure Stores (rx : Memory) (offset : Nat) (p : Packet) : Prop where
  status : readU16 rx offset = p.status
  length : readU16 rx (offset + 2) = UInt16.ofNat p.data.length
  data : slice rx (offset + 4) p.data.length = p.data

/-- The entries that the calls find are the packets from `base` on. -/
def Delivers (packets : Nat → Packet) : Nat → List Polls → Prop
  | _, [] => True
  | base, polls :: calls =>
    (∀ j rx, (entries polls)[j]? = some rx → Stores rx (position packets (base + j)) (packets (base + j))) ∧
      Delivers packets (base + (entries polls).length) calls

def Receiver.after (r : Receiver) (polls : Polls) (j : Nat) : Receiver := walk ((entries polls).take j) { r with lastLen := none }

/-- A call that keeps up with the card: the offset is that of the packet when its header is read, it is in the ring between
    packets, and the call returns the last packet that it drained. -/
structure KeepsUp (packets : Nat → Packet) (base : Nat) (polls : Polls) (r : Receiver) : Prop where
  header : ∀ j < (entries polls).length, (r.after polls j).curRx.toNat = position packets (base + j)
  below : ∀ j ≤ (entries polls).length, (r.after polls j).curRx.toNat < rxRingWrap
  last : ∀ j, (entries polls).length = j + 1 →
    (receive polls r).lastLen = some (packets (base + j)).frame.length ∧
      slice (receive polls r).out 0 (packets (base + j)).frame.length = (packets (base + j)).frame
  none : entries polls = [] → (receive polls r).lastLen = Option.none

def AllKeepUp (packets : Nat → Packet) : Nat → Receiver → List Polls → Prop
  | _, _, [] => True
  | base, r, polls :: calls =>
    KeepsUp packets base polls r ∧ AllKeepUp packets (base + (entries polls).length) (receive polls r) calls

def drainedBy (calls : List Polls) : Nat := (calls.map fun polls => (entries polls).length).sum

def EndsRing (packets : Nat → Packet) (k : Nat) : Prop := position packets k + stride (packets k).data.length = rxRingWrap

section
variable {packets : Nat → Packet} {base : Nat} {polls : Polls} {calls : List Polls} {rx : Memory} {r : Receiver}

private theorem position_lt (packets : Nat → Packet) (k : Nat) : position packets k < rxRingWrap := by
  cases k with
  | zero => exact Nat.zero_lt_succ _
  | succ k => exact Nat.mod_lt _ (by decide)

theorem Packet.length_toNat (p : Packet) : (UInt16.ofNat p.data.length).toNat = p.data.length := by
  have most := p.most
  simp only [maxFrameSize] at most
  rw [UInt16.toNat_ofNat']
  omega

theorem Packet.stride_le (p : Packet) : stride p.data.length ≤ rxRingWrap := by
  have most := p.most
  simp only [maxFrameSize, stride, rxRingWrap] at most ⊢
  omega

theorem Packet.frame_length (p : Packet) : p.frame.length = p.data.length - 4 := by
  simp [Packet.frame]

private theorem drainPacket_offset {k : Nat} (stores : Stores rx (position packets k) (packets k))
    (there : r.curRx.toNat = position packets k) (apart : ¬EndsRing packets k) :
    (drainPacket rx r).curRx.toNat = position packets (k + 1) := by
  have low := position_lt packets k
  have short := (packets k).stride_le
  rw [drainPacket_curRx, there, stores.length, advance_toNat, there, Packet.length_toNat, position]
  simp only [EndsRing, rxRingWrap] at apart low short ⊢
  split <;> omega

private theorem drainPacket_endsRing {k : Nat} (stores : Stores rx (position packets k) (packets k))
    (there : r.curRx.toNat = position packets k) (ends : EndsRing packets k) : (drainPacket rx r).curRx.toNat = rxRingWrap := by
  rw [drainPacket_curRx, there, stores.length, advance_toNat, there, Packet.length_toNat, ends]
  rfl

private theorem drainPacket_frame {k : Nat} (stores : Stores rx (position packets k) (packets k))
    (there : r.curRx.toNat = position packets k) :
    (drainPacket rx r).lastLen = some (packets k).frame.length ∧
      slice (drainPacket rx r).out 0 (packets k).frame.length = (packets k).frame := by
  have least := (packets k).least
  have takes : accepted (readU16 rx r.curRx.toNat) (readU16 rx (r.curRx.toNat + 2)) = true := by
    rw [there, stores.status, stores.length, accepted, Packet.length_toNat, (packets k).received]
    simp [least, (packets k).most]
  have copied : slice rx (r.curRx.toNat + 4) ((packets k).data.length - 4) = (packets k).frame := by
    rw [there, ← slice_take _ _ (Nat.sub_le (packets k).data.length 4), stores.data]
    rfl
  have length : (readU16 rx (r.curRx.toNat + 2)).toNat = (packets k).data.length := by
    rw [there, stores.length, Packet.length_toNat]
  unfold drainPacket
  dsimp only
  rw [if_pos takes, length, copied, Packet.frame_length]
  exact ⟨rfl, slice_blit_of_length (Packet.frame_length _)⟩

private theorem after_succ {j : Nat} (less : j < (entries polls).length) :
    r.after polls (j + 1) = drainPacket (entries polls)[j] (r.after polls j) := by
  unfold Receiver.after walk
  rw [List.take_succ_eq_append_getElem less, List.foldl_append]
  rfl

private theorem after_length : r.after polls (entries polls).length = receive polls r := by
  rw [receive_eq, Receiver.after, List.take_length]

theorem KeepsUp.not_endsRing (keeps : KeepsUp packets base polls r) {j : Nat} (less : j < (entries polls).length)
    (stores : Stores (entries polls)[j] (position packets (base + j)) (packets (base + j))) : ¬EndsRing packets (base + j) := by
  intro ends
  have next := drainPacket_endsRing stores (keeps.header j less) ends
  rw [← after_succ less] at next
  exact absurd (keeps.below (j + 1) less) (by omega)

private theorem after_offset (stores : ∀ j rx, (entries polls)[j]? = some rx → Stores rx (position packets (base + j)) (packets (base + j)))
    (apart : ∀ j < (entries polls).length, ¬EndsRing packets (base + j)) (there : r.curRx.toNat = position packets base) {j : Nat}
    (le : j ≤ (entries polls).length) : (r.after polls j).curRx.toNat = position packets (base + j) := by
  induction j with
  | zero => exact there
  | succ j before =>
    have less : j < (entries polls).length := le
    rw [after_succ less]
    exact drainPacket_offset (stores j _ (List.getElem?_eq_getElem less)) (before (by omega)) (apart j less)

private theorem keepsUp_of_apart
    (stores : ∀ j rx, (entries polls)[j]? = some rx → Stores rx (position packets (base + j)) (packets (base + j)))
    (apart : ∀ j < (entries polls).length, ¬EndsRing packets (base + j)) (there : r.curRx.toNat = position packets base) :
    KeepsUp packets base polls r where
  header := fun j less => after_offset stores apart there (Nat.le_of_lt less)
  below := fun j le => by
    rw [after_offset stores apart there le]
    exact position_lt _ _
  last := fun j length => by
    have less : j < (entries polls).length := by omega
    rw [← after_length, length, after_succ less]
    exact drainPacket_frame (stores j _ (List.getElem?_eq_getElem less)) (after_offset stores apart there (Nat.le_of_lt less))
  none := fun empty => by
    rw [receive_eq, empty]
    rfl

private theorem allKeepUp_iff (card : Delivers packets base calls) (there : r.curRx.toNat = position packets base) :
    AllKeepUp packets base r calls ↔ ∀ k < drainedBy calls, ¬EndsRing packets (base + k) := by
  induction calls generalizing base r with
  | nil => exact ⟨fun _ k less => absurd less (Nat.not_lt_zero k), fun _ => trivial⟩
  | cons polls calls more =>
    obtain ⟨stores, rest⟩ := card
    have total : drainedBy (polls :: calls) = (entries polls).length + drainedBy calls := by
      simp only [drainedBy, List.map_cons, List.sum_cons]
    -- the call is followed by the others just when it keeps up
    have later (apart : ∀ j < (entries polls).length, ¬EndsRing packets (base + j)) :
        AllKeepUp packets (base + (entries polls).length) (receive polls r) calls ↔
          ∀ k < drainedBy calls, ¬EndsRing packets (base + (entries polls).length + k) := by
      refine more rest ?_
      rw [← after_length]
      exact after_offset stores apart there (Nat.le_refl _)
    constructor
    · rintro ⟨keeps, others⟩ k less
      have apart (j : Nat) (inside : j < (entries polls).length) : ¬EndsRing packets (base + j) :=
        keeps.not_endsRing inside (stores j _ (List.getElem?_eq_getElem inside))
      by_cases inside : k < (entries polls).length
      · exact apart k inside
      · have next := (later apart).mp others (k - (entries polls).length) (by omega)
        rwa [Nat.add_assoc, Nat.add_sub_cancel' (Nat.le_of_not_lt inside)] at next
    · intro apart
      have first (j : Nat) (inside : j < (entries polls).length) : ¬EndsRing packets (base + j) := apart j (by omega)
      refine ⟨keepsUp_of_apart stores first there, (later first).mpr fun k less => ?_⟩
      rw [Nat.add_assoc]
      exact apart _ (by omega)

end

/--
The driver's offset is the card's: for all packets and every split of them over calls, every call keeps up with the card if and
only if no packet that was drained ends exactly where the ring does.
-/
theorem ring_tracks_iff (packets : Nat → Packet) (calls : List Polls) (out : Memory) (card : Delivers packets 0 calls) :
    AllKeepUp packets 0 (Receiver.start out) calls ↔
      ∀ k < drainedBy calls, position packets k + stride (packets k).data.length ≠ rxRingWrap := by
  have same := allKeepUp_iff (r := Receiver.start out) card rfl
  simpa only [Nat.zero_add, EndsRing] using same

private theorem polls_of_entries {polls : Polls} {j : Nat} {rx : Memory} (found : (entries polls)[j]? = some rx) : polls j = some rx := by
  have more (left drained : Nat) : ∀ j, (entriesFrom polls left drained)[j]? = some rx → polls (drained + j) = some rx := by
    induction left generalizing drained with
    | zero =>
      intro j found
      simp [entriesFrom] at found
    | succ left more =>
      intro j found
      unfold entriesFrom at found
      cases here : polls drained with
      | none => simp [here] at found
      | some first =>
        rw [here] at found
        cases j with
        | zero => exact here.trans found
        | succ j =>
          have next := more (drained + 1) j found
          rwa [Nat.add_right_comm, Nat.add_assoc] at next
  have next := more maxPacketsPerDrain 0 j found
  rwa [Nat.zero_add] at next

def blankPacket (length : Nat) (least : 4 ≤ length) (most : length ≤ maxFrameSize + 4) : Packet :=
  { status := 1, data := List.replicate length 0, received := by decide, least := by simpa using least, most := by simpa using most }

def blankEntry (length offset : Nat) : Memory := write16 (write16 (fun _ => 0) offset 1) (offset + 2) length

private theorem blankEntry_stores {length : Nat} (least : 4 ≤ length) (most : length ≤ maxFrameSize + 4) (offset : Nat) :
    Stores (blankEntry length offset) offset (blankPacket length least most) where
  status := by
    have other : read16 (blankEntry length offset) offset = read16 (write16 (fun _ => 0) offset 1) offset :=
      read16_congr fun i less => write16_apply_other _ _ _ (by omega)
    rw [readU16, other, read16_write16_same _ _ (by decide)]
    rfl
  length := by
    simp only [maxFrameSize] at most
    rw [readU16, blankEntry, read16_write16_same _ _ (by omega), blankPacket, List.length_replicate]
  data := by
    refine List.eq_replicate_iff.mpr ⟨by simp [blankPacket], fun byte member => ?_⟩
    simp only [slice, List.mem_map, List.mem_range] at member
    obtain ⟨i, -, rfl⟩ := member
    rw [blankEntry, write16_apply_other _ _ _ (by omega), write16_apply_other _ _ _ (by omega)]

def blankCall (packets : Nat → Packet) (length count : Nat) : Polls :=
  fun j => if j < count then some (blankEntry length (position packets j)) else none

private theorem blankCall_delivers {length : Nat} (least : 4 ≤ length) (most : length ≤ maxFrameSize + 4) (count : Nat) :
    Delivers (fun _ => blankPacket length least most) 0 [blankCall (fun _ => blankPacket length least most) length count] := by
  refine ⟨fun j rx found => ?_, trivial⟩
  have isEntry := polls_of_entries found
  unfold blankCall at isEntry
  split at isEntry
  · cases isEntry
    rw [Nat.zero_add]
    exact blankEntry_stores least most _
  · cases isEntry

/-- Two short packets. -/
theorem two_packets_tracked :
    AllKeepUp (fun _ => blankPacket 60 (by decide) (by decide)) 0 (Receiver.start fun _ => 0)
      [blankCall (fun _ => blankPacket 60 (by decide) (by decide)) 60 2] :=
  (ring_tracks_iff _ _ _ (blankCall_delivers _ _ 2)).mpr (by decide +kernel)

/-- Eight packets of 1024 bytes with their headers fill the ring, and the driver's offset is 8192 where the card's is 0. -/
theorem full_ring_desynchronises :
    Delivers (fun _ => blankPacket 1020 (by decide) (by decide)) 0
        [blankCall (fun _ => blankPacket 1020 (by decide) (by decide)) 1020 8] ∧
      ¬AllKeepUp (fun _ => blankPacket 1020 (by decide) (by decide)) 0 (Receiver.start fun _ => 0)
        [blankCall (fun _ => blankPacket 1020 (by decide) (by decide)) 1020 8] := by
  have card := blankCall_delivers (show 4 ≤ 1020 by decide) (by decide) 8
  refine ⟨card, fun keepUp => ?_⟩
  have ends : EndsRing (fun _ => blankPacket 1020 (by decide) (by decide)) (0 + 7) := by
    unfold EndsRing
    decide +kernel
  have less : 7 < (entries (blankCall (fun _ => blankPacket 1020 (by decide) (by decide)) 1020 8)).length := by decide +kernel
  exact keepUp.1.not_endsRing less (card.1 7 _ (List.getElem?_eq_getElem less)) ends

end Pcern.NetRtl8139

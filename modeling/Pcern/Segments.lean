import Pcern.Checksums

/-!
What `build_segment` puts on the wire, as a list of fields, and that
`parse_segment` reads the same fields back from it.
-/
namespace Pcern.Tcp
open Bytes Proto

/-- The addresses and ports of a connection and what a segment says. -/
structure Outgoing where
  myMac : List UInt8
  myIp : List UInt8
  peerMac : List UInt8
  peerIp : List UInt8
  segment : Segment
  myMac_length : myMac.length = 6
  myIp_length : myIp.length = 4
  peerMac_length : peerMac.length = 6
  peerIp_length : peerIp.length = 4

namespace Outgoing

def build (o : Outgoing) (buf : Memory) : Nat × Memory :=
  buildSegment buf o.myMac o.myIp o.peerMac o.peerIp o.segment.srcPort o.segment.dstPort o.segment.seq o.segment.ack
    o.segment.flags o.segment.window o.segment.payload

def ethernetHeader (o : Outgoing) : List UInt8 := o.peerMac ++ o.myMac ++ ethertypeIpv4

def ipv4Front (o : Outgoing) : List UInt8 :=
  [ipv4VerIhlNoOptions, 0] ++ be16 (UInt16.ofNat (ipv4HeaderLen + headerLen + o.segment.payload.length)) ++ [0, 0, 0, 0] ++
    [64, ipProtoTcp]

def ipv4Header (o : Outgoing) (checksum : UInt16) : List UInt8 := o.ipv4Front ++ (be16 checksum ++ (o.myIp ++ o.peerIp))

def tcpFront (o : Outgoing) : List UInt8 :=
  be16 o.segment.srcPort ++ be16 o.segment.dstPort ++ be32 o.segment.seq ++ be32 o.segment.ack ++ [0x50, o.segment.flags] ++
    be16 o.segment.window

def tcpHeader (o : Outgoing) (checksum : UInt16) : List UInt8 := o.tcpFront ++ (be16 checksum ++ [0, 0])

/-- What the TCP checksum covers besides the segment. -/
def pseudoHeader (o : Outgoing) : List UInt8 :=
  o.myIp ++ o.peerIp ++ [0, ipProtoTcp] ++ be16 (UInt16.ofNat (headerLen + o.segment.payload.length))

def frame (o : Outgoing) (ipSum tcpSum : UInt16) : List UInt8 :=
  o.ethernetHeader ++ o.ipv4Header ipSum ++ o.tcpHeader tcpSum ++ o.segment.payload

def tcpSum (o : Outgoing) : UInt16 :=
  checksum16Finish (checksum16Accumulate (checksum16Accumulate 0 o.pseudoHeader) (o.tcpHeader 0 ++ o.segment.payload))

def ipSum (o : Outgoing) : UInt16 := checksum16Finish (checksum16Accumulate 0 (o.ipv4Header 0))

private theorem length_ethernetHeader (o : Outgoing) : o.ethernetHeader.length = 14 := by
  simp [ethernetHeader, o.peerMac_length, o.myMac_length, ethertypeIpv4]

private theorem length_ipv4Front (o : Outgoing) : o.ipv4Front.length = 10 := rfl

private theorem length_ipv4Header (o : Outgoing) (checksum : UInt16) : (o.ipv4Header checksum).length = 20 := by
  simp [ipv4Header, length_ipv4Front, length_be16, o.myIp_length, o.peerIp_length]

private theorem length_tcpFront (o : Outgoing) : o.tcpFront.length = 16 := rfl

private theorem length_tcpHeader (o : Outgoing) (checksum : UInt16) : (o.tcpHeader checksum).length = 20 := rfl

private theorem length_frame (o : Outgoing) (ipSum tcpSum : UInt16) : (o.frame ipSum tcpSum).length = 54 + o.segment.payload.length := by
  simp [frame, length_ethernetHeader, length_ipv4Header, length_tcpHeader]
  omega

/-- The writes of `build_segment` up to the payload, one behind the other: the checksums are still zero. -/
def written (o : Outgoing) (buf : Memory) : Memory :=
  let buf := blit buf 0 o.peerMac
  let buf := blit buf 6 o.myMac
  let buf := blit buf 12 ethertypeIpv4
  let buf := blit buf 14 [ipv4VerIhlNoOptions]
  let buf := blit buf 15 [0]
  let buf := blit buf 16 (be16 (UInt16.ofNat (ipv4HeaderLen + headerLen + o.segment.payload.length)))
  let buf := fill buf 18 4 0
  let buf := blit buf 22 [64]
  let buf := blit buf 23 [ipProtoTcp]
  let buf := fill buf 24 2 0
  let buf := blit buf 26 o.myIp
  let buf := blit buf 30 o.peerIp
  let buf := blit buf 34 (be16 o.segment.srcPort)
  let buf := blit buf 36 (be16 o.segment.dstPort)
  let buf := blit buf 38 (be32 o.segment.seq)
  let buf := blit buf 42 (be32 o.segment.ack)
  let buf := blit buf 46 [0x50]
  let buf := blit buf 47 [o.segment.flags]
  let buf := blit buf 48 (be16 o.segment.window)
  let buf := fill buf 50 2 0
  let buf := fill buf 52 2 0
  blit buf 54 o.segment.payload

section
variable (o : Outgoing)

private theorem written_eq (buf : Memory) : o.written buf = blit buf 0 (o.frame 0 0) := by
  simp only [written, fill_eq_blit]
  simp (disch := simp [o.peerMac_length, o.myMac_length, o.myIp_length, o.peerIp_length, length_be16, length_be32,
    ethertypeIpv4]) only [blit_behind]
  refine congrArg (blit buf 0) ?_
  simp only [frame, ethernetHeader, ipv4Header, ipv4Front, tcpHeader, tcpFront, List.append_assoc]
  rfl

private theorem frame_tcpSum (ipSum tcpSum : UInt16) :
    o.frame ipSum tcpSum = (o.ethernetHeader ++ o.ipv4Header ipSum ++ o.tcpFront) ++
      (be16 tcpSum ++ ([0, 0] ++ o.segment.payload)) := by
  simp [frame, tcpHeader]

private theorem frame_ipSum (ipSum tcpSum : UInt16) :
    o.frame ipSum tcpSum = (o.ethernetHeader ++ o.ipv4Front) ++
      (be16 ipSum ++ (o.myIp ++ o.peerIp ++ o.tcpHeader tcpSum ++ o.segment.payload)) := by
  simp [frame, ipv4Header]

private theorem blit_tcpSum (buf : Memory) (ipSum tcpSum : UInt16) :
    blit (blit buf 0 (o.frame ipSum 0)) 50 (be16 tcpSum) = blit buf 0 (o.frame ipSum tcpSum) := by
  have place : 0 + (o.ethernetHeader ++ o.ipv4Header ipSum ++ o.tcpFront).length = 50 := by
    simp [length_ethernetHeader, length_ipv4Header, length_tcpFront]
  rw [frame_tcpSum, frame_tcpSum, ← place]
  exact blit_overlay _ _ _ _ _ rfl

private theorem blit_ipSum (buf : Memory) (ipSum tcpSum : UInt16) :
    blit (blit buf 0 (o.frame 0 tcpSum)) 24 (be16 ipSum) = blit buf 0 (o.frame ipSum tcpSum) := by
  have place : 0 + (o.ethernetHeader ++ o.ipv4Front).length = 24 := by simp [length_ethernetHeader, length_ipv4Front]
  rw [frame_ipSum, frame_ipSum, ← place]
  exact blit_overlay _ _ _ _ _ rfl

private theorem slice_tcp (buf : Memory) (ipSum tcpSum : UInt16) :
    slice (blit buf 0 (o.frame ipSum tcpSum)) 34 (20 + o.segment.payload.length) = o.tcpHeader tcpSum ++ o.segment.payload := by
  have part := slice_blit_middle buf 0 (o.ethernetHeader ++ o.ipv4Header ipSum) (o.tcpHeader tcpSum ++ o.segment.payload) []
  simpa [frame, length_ethernetHeader, length_ipv4Header, length_tcpHeader] using part

private theorem slice_ipv4 (buf : Memory) (ipSum tcpSum : UInt16) :
    slice (blit buf 0 (o.frame ipSum tcpSum)) 14 20 = o.ipv4Header ipSum := by
  have part := slice_blit_middle buf 0 o.ethernetHeader (o.ipv4Header ipSum) (o.tcpHeader tcpSum ++ o.segment.payload)
  simpa [frame, length_ethernetHeader, length_ipv4Header] using part

/-- `build_segment` writes the frame, and each checksum is that of the frame without it. -/
theorem build_eq (buf : Memory) :
    o.build buf = padToMinFrame (blit buf 0 (o.frame o.ipSum o.tcpSum)) (54 + o.segment.payload.length) := by
  have unfolded : o.build buf =
      let sum := checksum16Accumulate (checksum16Accumulate 0 o.pseudoHeader)
        (slice (o.written buf) 34 (20 + o.segment.payload.length))
      let buf := blit (o.written buf) 50 (be16 (checksum16Finish sum))
      let buf := blit buf 24 (be16 (checksum16Finish (checksum16Accumulate 0 (slice buf 14 20))))
      padToMinFrame buf (14 + (20 + 20 + o.segment.payload.length)) := rfl
  have length : 14 + (20 + 20 + o.segment.payload.length) = 54 + o.segment.payload.length := by omega
  rw [unfolded]
  dsimp only
  rw [written_eq, slice_tcp, blit_tcpSum, slice_ipv4, blit_ipSum, length]
  rfl

end

/-! ## Reading the frame -/

private theorem slice_build (o : Outgoing) (buf : Memory) {start n : Nat} (inside : start + n ≤ 54 + o.segment.payload.length) :
    slice (o.build buf).2 start n = slice (blit buf 0 (o.frame o.ipSum o.tcpSum)) start n := by
  rw [build_eq]
  exact (padToMinFrame_spec _ _).2 start n inside

def fields (o : Outgoing) : List (List UInt8) :=
  [o.peerMac, o.myMac, ethertypeIpv4, [ipv4VerIhlNoOptions], [0],
    be16 (UInt16.ofNat (ipv4HeaderLen + headerLen + o.segment.payload.length)), [0, 0, 0, 0], [64], [ipProtoTcp],
    be16 o.ipSum, o.myIp, o.peerIp, be16 o.segment.srcPort, be16 o.segment.dstPort, be32 o.segment.seq, be32 o.segment.ack,
    [0x50], [o.segment.flags], be16 o.segment.window, be16 o.tcpSum, [0, 0], o.segment.payload]

private theorem frame_eq_fields (o : Outgoing) : o.frame o.ipSum o.tcpSum = o.fields.flatten := by
  simp [frame, ethernetHeader, ipv4Header, ipv4Front, tcpHeader, tcpFront, fields]

private theorem slice_field (o : Outgoing) (buf : Memory) (i : Nat) {field : List UInt8} {start n : Nat}
    (isField : o.fields[i]? = some field) (isStart : (o.fields.take i).flatten.length = start) (isLength : field.length = n) :
    slice (o.build buf).2 start n = field := by
  obtain ⟨inside, isField⟩ := List.getElem?_eq_some_iff.mp isField
  have split : o.frame o.ipSum o.tcpSum = (o.fields.take i).flatten ++ (field ++ (o.fields.drop (i + 1)).flatten) := by
    rw [frame_eq_fields, ← isField, ← List.flatten_cons, List.getElem_cons_drop, ← List.flatten_append,
      List.take_append_drop]
  have whole := congrArg List.length split
  simp only [length_frame, List.length_append] at whole
  rw [slice_build o buf (by omega), split, ← isStart, ← isLength]
  have middle := slice_blit_middle buf 0 (o.fields.take i).flatten field (o.fields.drop (i + 1)).flatten
  rwa [Nat.zero_add] at middle

private theorem byte_of_slice {m : Memory} {a : Nat} {b : UInt8} (single : slice m a 1 = [b]) : m a = b := by
  simpa [slice] using single

end Outgoing

private theorem or_low {high low k : Nat} (small : low < 2 ^ k) : high * 2 ^ k ||| low = high * 2 ^ k + low := by
  rw [← Nat.shiftLeft_eq, Nat.shiftLeft_add_eq_or_of_lt small]

private theorem fromBe16_toNat (m : Memory) (a : Nat) : (fromBe16 m a).toNat = (m a).toNat * 2 ^ 8 + (m (a + 1)).toNat := by
  have high := (m a).toNat_lt
  have low := (m (a + 1)).toNat_lt
  have shifted : ((m a).toUInt16 <<< 8).toNat = (m a).toNat * 2 ^ 8 := by
    simp [Nat.shiftLeft_eq]
    omega
  rw [fromBe16, UInt16.toNat_or, shifted, UInt8.toNat_toUInt16, or_low low]

private theorem fromBe32_toNat (m : Memory) (a : Nat) :
    (fromBe32 m a).toNat =
      (((m a).toNat * 2 ^ 8 + (m (a + 1)).toNat) * 2 ^ 8 + (m (a + 2)).toNat) * 2 ^ 8 + (m (a + 3)).toNat := by
  have b0 := (m a).toNat_lt
  have b1 := (m (a + 1)).toNat_lt
  have b2 := (m (a + 2)).toNat_lt
  have b3 := (m (a + 3)).toNat_lt
  have s24 : ((m a).toUInt32 <<< 24).toNat = (m a).toNat * 2 ^ 8 * 2 ^ 16 := by
    simp [Nat.shiftLeft_eq]
    omega
  have s16 : ((m (a + 1)).toUInt32 <<< 16).toNat = (m (a + 1)).toNat * 2 ^ 16 := by
    simp [Nat.shiftLeft_eq]
    omega
  have s8 : ((m (a + 2)).toUInt32 <<< 8).toNat = (m (a + 2)).toNat * 2 ^ 8 := by
    simp [Nat.shiftLeft_eq]
    omega
  have first : (m a).toNat * 2 ^ 8 * 2 ^ 16 ||| (m (a + 1)).toNat * 2 ^ 16 =
      ((m a).toNat * 2 ^ 8 + (m (a + 1)).toNat) * 2 ^ 8 * 2 ^ 8 := by
    rw [show (m a).toNat * 2 ^ 8 * 2 ^ 16 = (m a).toNat * 2 ^ 24 by omega, or_low (by omega)]
    omega
  have second : ((m a).toNat * 2 ^ 8 + (m (a + 1)).toNat) * 2 ^ 8 * 2 ^ 8 ||| (m (a + 2)).toNat * 2 ^ 8 =
      (((m a).toNat * 2 ^ 8 + (m (a + 1)).toNat) * 2 ^ 8 + (m (a + 2)).toNat) * 2 ^ 8 := by
    rw [show ((m a).toNat * 2 ^ 8 + (m (a + 1)).toNat) * 2 ^ 8 * 2 ^ 8 =
      ((m a).toNat * 2 ^ 8 + (m (a + 1)).toNat) * 2 ^ 16 by omega, or_low (by omega)]
    omega
  rw [fromBe32, UInt32.toNat_or, UInt32.toNat_or, UInt32.toNat_or, s24, s16, s8, UInt8.toNat_toUInt32, first, second,
    or_low b3]

private theorem fromBe16_of_slice {m : Memory} {a : Nat} {n : UInt16} (field : slice m a 2 = be16 n) : fromBe16 m a = n := by
  have small := n.toNat_lt
  simp only [slice, be16, List.range_succ, List.range_zero, List.nil_append, List.map_cons, List.map_nil, List.cons_append,
    Nat.add_zero, List.cons.injEq, and_true] at field
  obtain ⟨high, low⟩ := field
  apply UInt16.toNat_inj.mp
  rw [fromBe16_toNat, high, low]
  simp [Nat.shiftRight_eq_div_pow]
  omega

private theorem fromBe32_of_slice {m : Memory} {a : Nat} {n : UInt32} (field : slice m a 4 = be32 n) : fromBe32 m a = n := by
  have small := n.toNat_lt
  simp only [slice, be32, List.range_succ, List.range_zero, List.nil_append, List.map_cons, List.map_nil, List.cons_append,
    Nat.add_zero, List.cons.injEq, and_true] at field
  obtain ⟨b0, b1, b2, b3⟩ := field
  apply UInt32.toNat_inj.mp
  rw [fromBe32_toNat, b0, b1, b2, b3]
  simp [Nat.shiftRight_eq_div_pow]
  omega

namespace Outgoing

theorem parse_build (o : Outgoing) (buf : Memory) (short : o.segment.payload.length ≤ 1464) :
    parseSegment (o.build buf).2 (o.build buf).1 o.myIp = some o.segment := by
  have length : 54 + o.segment.payload.length ≤ (o.build buf).1 := by
    rw [build_eq]
    exact (padToMinFrame_spec _ _).1
  obtain ⟨m, isM⟩ : ∃ m, (o.build buf).2 = m := ⟨_, rfl⟩
  have at' (i : Nat) {field : List UInt8} {start n : Nat} (isField : o.fields[i]? = some field)
      (isStart : (o.fields.take i).flatten.length = start) (isLength : field.length = n) : slice m start n = field :=
    isM ▸ o.slice_field buf i isField isStart isLength
  have macs := And.intro o.peerMac_length o.myMac_length
  have ips := And.intro o.myIp_length o.peerIp_length
  have ethertype : slice m 12 2 = ethertypeIpv4 := at' 2 rfl (by simp [fields, macs]) rfl
  have version : m 14 = ipv4VerIhlNoOptions :=
    byte_of_slice (at' 3 rfl (by simp [fields, macs, ethertypeIpv4]) rfl)
  have total : fromBe16 m 16 = UInt16.ofNat (ipv4HeaderLen + headerLen + o.segment.payload.length) :=
    fromBe16_of_slice (at' 5 rfl (by simp [fields, macs, ethertypeIpv4]) rfl)
  have proto : m 23 = ipProtoTcp := byte_of_slice (at' 8 rfl (by simp [fields, macs, ethertypeIpv4, length_be16]) rfl)
  have source : slice m 26 4 = o.myIp := at' 10 rfl (by simp [fields, macs, ethertypeIpv4, length_be16]) ips.1
  have srcPort : fromBe16 m 34 = o.segment.srcPort :=
    fromBe16_of_slice (at' 12 rfl (by simp [fields, macs, ips, ethertypeIpv4, length_be16]) rfl)
  have dstPort : fromBe16 m 36 = o.segment.dstPort :=
    fromBe16_of_slice (at' 13 rfl (by simp [fields, macs, ips, ethertypeIpv4, length_be16]) rfl)
  have seq : fromBe32 m 38 = o.segment.seq :=
    fromBe32_of_slice (at' 14 rfl (by simp [fields, macs, ips, ethertypeIpv4, length_be16]) rfl)
  have ack : fromBe32 m 42 = o.segment.ack :=
    fromBe32_of_slice (at' 15 rfl (by simp [fields, macs, ips, ethertypeIpv4, length_be16, length_be32]) rfl)
  have offset : m 46 = 0x50 :=
    byte_of_slice (at' 16 rfl (by simp [fields, macs, ips, ethertypeIpv4, length_be16, length_be32]) rfl)
  have flags : m 47 = o.segment.flags :=
    byte_of_slice (at' 17 rfl (by simp [fields, macs, ips, ethertypeIpv4, length_be16, length_be32]) rfl)
  have window : fromBe16 m 48 = o.segment.window :=
    fromBe16_of_slice (at' 18 rfl (by simp [fields, macs, ips, ethertypeIpv4, length_be16, length_be32]) rfl)
  have payload : slice m 54 o.segment.payload.length = o.segment.payload :=
    at' 21 rfl (by simp [fields, macs, ips, ethertypeIpv4, length_be16, length_be32]) rfl
  have totalLen : (fromBe16 m 16).toNat = 40 + o.segment.payload.length := by
    rw [total, UInt16.toNat_ofNat_of_lt' (by simp only [ipv4HeaderLen, headerLen, UInt16.size]; omega)]
    rfl
  have header : ((0x50 : UInt8) >>> 4).toNat * 4 = 20 := by decide
  obtain ⟨len, isLen⟩ : ∃ len, (o.build buf).1 = len := ⟨_, rfl⟩
  rw [isM, isLen]
  rw [isLen] at length
  simp only [parseSegment, ethHeaderLen, ipv4HeaderLen, headerLen, Nat.reduceAdd]
  rw [if_neg (by omega), if_neg (by simp [ethertype]), if_neg (by simp [version]), if_neg (by simp [proto]),
    if_neg (by simp [source]), totalLen, if_neg (by omega), if_neg (by omega), offset, header, if_neg (by omega),
    srcPort, dstPort, seq, ack, flags, window]
  have rest : 14 + (40 + o.segment.payload.length) - (34 + 20) = o.segment.payload.length := by omega
  rw [rest]
  simp only [Nat.reduceAdd]
  rw [payload]

private theorem length_build (o : Outgoing) (buf : Memory) : (o.build buf).1 = max 60 (54 + o.segment.payload.length) := by
  rw [build_eq, padToMinFrame]
  split <;> simp only [minFrameLen] at * <;> omega

private theorem length_pseudoHeader (o : Outgoing) : o.pseudoHeader.length = 12 := by
  simp [pseudoHeader, length_be16, o.myIp_length, o.peerIp_length]

private theorem sums_lt (o : Outgoing) (short : o.segment.payload.length ≤ 1464) :
    wordSum (o.ipv4Header 0) < 2 ^ 32 ∧ wordSum o.pseudoHeader + wordSum (o.tcpHeader 0 ++ o.segment.payload) < 2 ^ 32 := by
  have ip := wordSum_le (o.ipv4Header 0)
  have pseudo := wordSum_le o.pseudoHeader
  have tcp := wordSum_le (o.tcpHeader 0 ++ o.segment.payload)
  rw [length_ipv4Header] at ip
  rw [length_pseudoHeader] at pseudo
  rw [List.length_append, length_tcpHeader] at tcp
  omega

private theorem accumulated (o : Outgoing) (short : o.segment.payload.length ≤ 1464) :
    (checksum16Accumulate 0 (o.ipv4Header 0)).toNat = wordSum (o.ipv4Header 0) ∧
      (checksum16Accumulate (checksum16Accumulate 0 o.pseudoHeader) (o.tcpHeader 0 ++ o.segment.payload)).toNat =
        wordSum o.pseudoHeader + wordSum (o.tcpHeader 0 ++ o.segment.payload) := by
  obtain ⟨ip, tcp⟩ := o.sums_lt short
  have zero : (0 : UInt32).toNat = 0 := rfl
  have pseudo : (checksum16Accumulate 0 o.pseudoHeader).toNat = wordSum o.pseudoHeader := by
    rw [accumulate_toNat (by omega), zero, Nat.zero_add]
  refine ⟨?_, ?_⟩
  · rw [accumulate_toNat (by omega), zero, Nat.zero_add]
  · rw [accumulate_toNat (by omega), pseudo]

private theorem ipv4_valid (o : Outgoing) (short : o.segment.payload.length ≤ 1464) :
    foldCarries (wordSum (o.ipv4Header o.ipSum)) = 0xFFFF := by
  have around := wordSum_around o.ipv4Front (o.myIp ++ o.peerIp) (by rw [length_ipv4Front]) o.ipSum
  rw [ipv4Header, around]
  show foldCarries (wordSum (o.ipv4Header 0) + o.ipSum.toNat) = _
  rw [← (o.accumulated short).1]
  exact foldCarries_finish _

private theorem tcp_valid (o : Outgoing) (short : o.segment.payload.length ≤ 1464) :
    foldCarries (wordSum o.pseudoHeader + wordSum (o.tcpHeader o.tcpSum ++ o.segment.payload)) = 0xFFFF := by
  have around := wordSum_around o.tcpFront ([0, 0] ++ o.segment.payload) (by rw [length_tcpFront]) o.tcpSum
  have same (checksum : UInt16) : o.tcpHeader checksum ++ o.segment.payload =
      o.tcpFront ++ (be16 checksum ++ ([0, 0] ++ o.segment.payload)) := by simp [tcpHeader]
  rw [same, around, ← same, ← Nat.add_assoc, ← (o.accumulated short).2]
  exact foldCarries_finish _

/-- Every segment that fits a frame goes there and back: the length, the fields and the payload, the two checksums, and
    sums that 32 bits hold. -/
theorem round_trip (o : Outgoing) (buf : Memory) {capacity : Nat} (least : 60 ≤ capacity) (most : capacity ≤ 1518)
    (fits : 54 + o.segment.payload.length ≤ capacity) :
    let sent := o.build buf
    sent.1 = max 60 (54 + o.segment.payload.length) ∧ sent.1 ≤ capacity ∧
      parseSegment sent.2 sent.1 o.myIp = some o.segment ∧
      foldCarries (wordSum (slice sent.2 14 20)) = 0xFFFF ∧
      foldCarries (wordSum o.pseudoHeader + wordSum (slice sent.2 34 (20 + o.segment.payload.length))) = 0xFFFF ∧
      wordSum (slice (o.written buf) 14 20) < 2 ^ 32 ∧
      wordSum o.pseudoHeader + wordSum (slice (o.written buf) 34 (20 + o.segment.payload.length)) < 2 ^ 32 := by
  have short : o.segment.payload.length ≤ 1464 := by omega
  obtain ⟨ip, tcp⟩ := o.sums_lt short
  refine ⟨o.length_build buf, by rw [length_build]; omega, o.parse_build buf short, ?_, ?_, ?_, ?_⟩
  · rw [slice_build o buf (by omega), slice_ipv4]
    exact o.ipv4_valid short
  · rw [slice_build o buf (by omega), slice_tcp]
    exact o.tcp_valid short
  · rw [written_eq, slice_ipv4]
    exact ip
  · rw [written_eq, slice_tcp]
    exact tcp

/-- A segment with an odd payload that is padded. -/
def hello : Outgoing where
  myMac := [2, 0, 0, 0, 0, 1]
  myIp := [10, 0, 2, 15]
  peerMac := [2, 0, 0, 0, 0, 2]
  peerIp := [10, 0, 2, 2]
  segment :=
    { srcPort := 49152, dstPort := 80, seq := 1, ack := 2, flags := flagAck ||| flagPsh, window := 4096
      payload := [0x68, 0x69, 0x21] }
  myMac_length := rfl
  myIp_length := rfl
  peerMac_length := rfl
  peerIp_length := rfl

theorem hello_round_trip :
    parseSegment (hello.build fun _ => 0xAA).2 (hello.build fun _ => 0xAA).1 [10, 0, 2, 15] = some hello.segment :=
  (hello.round_trip (fun _ => 0xAA) (Nat.le_refl 60) (by decide) (by decide)).2.2.1

end Outgoing
end Pcern.Tcp

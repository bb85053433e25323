import Pcern.Guarded
import Pcern.Responder
import Pcern.Segments

/-!
The parsers of `netstack` with their indices: `handle_frame`, `parse_arp_reply` and `parse_segment` once more, with every
index, range and subtraction of theirs checked. None of them fails, and none looks behind the frame.
-/
namespace Pcern.Proto
open Bytes

namespace Indexed

/-- `u16::from_be_bytes([buf[i], buf[i + 1]])`. -/
def fromBe16 (buf : Buffer) (i : Nat) : Option UInt16 := do
  let high ← buf.index i
  let low ← buf.index (i + 1)
  return high.toUInt16 <<< 8 ||| low.toUInt16

def fromBe32 (buf : Buffer) (i : Nat) : Option UInt32 := do
  let b0 ← buf.index i
  let b1 ← buf.index (i + 1)
  let b2 ← buf.index (i + 2)
  let b3 ← buf.index (i + 3)
  return b0.toUInt32 <<< 24 ||| b1.toUInt32 <<< 16 ||| b2.toUInt32 <<< 8 ||| b3.toUInt32

def padToMinFrame (buf : Buffer) (replyLen : Nat) : Option (Nat × Buffer) := do
  if replyLen < minFrameLen then
    let buf ← buf.fillWith replyLen minFrameLen 0
    return (minFrameLen, buf)
  return (replyLen, buf)

def handleArp (buf : Buffer) (len : Nat) (myMac myIp : List UInt8) : Option (Option (Nat × Buffer)) := do
  let arp := ethHeaderLen
  if len < arp + arpLen then return none
  if (← buf.range arp (arp + 2)) ≠ arpHtypeEthernet then return none
  if (← buf.range (arp + 2) (arp + 4)) ≠ arpPtypeIpv4 then return none
  if (← buf.index (arp + 4)) ≠ 6 then return none
  if (← buf.index (arp + 5)) ≠ 4 then return none
  if (← buf.range (arp + 6) (arp + 8)) ≠ arpOpRequest then return none
  if (← buf.range (arp + 24) (arp + 28)) ≠ myIp then return none
  let senderMac ← buf.range (arp + 8) (arp + 14)
  let senderIp ← buf.range (arp + 14) (arp + 18)
  let buf ← buf.copyFromSlice 0 6 senderMac
  let buf ← buf.copyFromSlice 6 12 myMac
  let buf ← buf.copyFromSlice (arp + 6) (arp + 8) arpOpReply
  let buf ← buf.copyFromSlice (arp + 8) (arp + 14) myMac
  let buf ← buf.copyFromSlice (arp + 14) (arp + 18) myIp
  let buf ← buf.copyFromSlice (arp + 18) (arp + 24) senderMac
  let buf ← buf.copyFromSlice (arp + 24) (arp + 28) senderIp
  return some (← padToMinFrame buf (arp + arpLen))

/-- What `handle_icmp_echo` writes to the ICMP message. -/
def echoMessage (buf : Buffer) (icmp icmpLen : Nat) : Option Buffer := do
  let buf ← buf.set icmp icmpTypeEchoReply
  let buf ← buf.set (icmp + 2) 0
  let buf ← buf.set (icmp + 3) 0
  let icmpSum := checksum16 (← buf.range icmp (icmp + icmpLen))
  buf.copyFromSlice (icmp + 2) (icmp + 4) (be16 icmpSum)

def echoHeader (buf : Buffer) (ip : Nat) : Option Buffer := do
  let srcIp ← buf.range (ip + 12) (ip + 16)
  let buf ← buf.copyWithin (ip + 16) (ip + 20) (ip + 12)
  let buf ← buf.copyFromSlice (ip + 16) (ip + 20) srcIp
  let buf ← buf.set (ip + 8) defaultTtl
  let buf ← buf.set (ip + 10) 0
  let buf ← buf.set (ip + 11) 0
  let ipSum := checksum16 (← buf.range ip (ip + ipv4HeaderLen))
  buf.copyFromSlice (ip + 10) (ip + 12) (be16 ipSum)

def echoAddresses (buf : Buffer) (myMac : List UInt8) : Option Buffer := do
  let senderMac ← buf.range 6 12
  let buf ← buf.copyFromSlice 0 6 senderMac
  buf.copyFromSlice 6 12 myMac

def handleIcmpEcho (buf : Buffer) (len : Nat) (myMac myIp : List UInt8) : Option (Option (Nat × Buffer)) := do
  let ip := ethHeaderLen
  if len < ip + ipv4HeaderLen then return none
  if (← buf.index ip) ≠ ipv4VerIhlNoOptions then return none
  if (← buf.index (ip + 9)) ≠ ipv4ProtoIcmp then return none
  if (← buf.range (ip + 16) (ip + 20)) ≠ myIp then return none
  let totalLen := (← fromBe16 buf (ip + 2)).toNat
  if totalLen < ipv4HeaderLen ∨ len < ip + totalLen then return none
  let icmp := ip + ipv4HeaderLen
  let icmpLen ← checkedSub totalLen ipv4HeaderLen
  if icmpLen < icmpHeaderLen then return none
  if (← buf.index icmp) ≠ icmpTypeEchoRequest then return none
  if (← buf.index (icmp + 1)) ≠ 0 then return none
  let buf ← echoMessage buf icmp icmpLen
  let buf ← echoHeader buf ip
  let buf ← echoAddresses buf myMac
  return some (← padToMinFrame buf (ip + totalLen))

def handleFrame (buf : Buffer) (len : Nat) (myMac myIp : List UInt8) : Option (Option (Nat × Buffer)) := do
  if len < ethHeaderLen ∨ buf.size < len then return none
  let ethertype := [← buf.index 12, ← buf.index 13]
  if ethertype = ethertypeArp then handleArp buf len myMac myIp
  else if ethertype = ethertypeIpv4 then handleIcmpEcho buf len myMac myIp
  else return none

def parseArpReply (buf : Buffer) (len : Nat) (targetIp : List UInt8) : Option (Option (List UInt8)) := do
  let arp := ethHeaderLen
  if len < arp + arpLen then return none
  if (← buf.range 12 14) ≠ ethertypeArp then return none
  if (← buf.range arp (arp + 2)) ≠ arpHtypeEthernet then return none
  if (← buf.range (arp + 2) (arp + 4)) ≠ arpPtypeIpv4 then return none
  if (← buf.range (arp + 6) (arp + 8)) ≠ arpOpReply then return none
  if (← buf.range (arp + 14) (arp + 18)) ≠ targetIp then return none
  return some (← buf.range (arp + 8) (arp + 14))

/-- The segment whose header begins at `tcp` and whose payload ends at `stop`. -/
def segmentAt (buf : Buffer) (tcp dataOffset stop : Nat) : Option Tcp.Segment := do
  return {
    srcPort := ← fromBe16 buf tcp
    dstPort := ← fromBe16 buf (tcp + 2)
    seq := ← fromBe32 buf (tcp + 4)
    ack := ← fromBe32 buf (tcp + 8)
    flags := ← buf.index (tcp + 13)
    window := ← fromBe16 buf (tcp + 14)
    payload := ← buf.range (tcp + dataOffset) stop }

open Tcp in
def parseSegment (buf : Buffer) (len : Nat) (expectPeerIp : List UInt8) : Option (Option Segment) := do
  let ip := ethHeaderLen
  if len < ip + ipv4HeaderLen then return none
  if (← buf.range 12 14) ≠ ethertypeIpv4 then return none
  if (← buf.index ip) ≠ ipv4VerIhlNoOptions then return none
  if (← buf.index (ip + 9)) ≠ ipProtoTcp then return none
  if (← buf.range (ip + 12) (ip + 16)) ≠ expectPeerIp then return none
  let totalLen := (← fromBe16 buf (ip + 2)).toNat
  if totalLen < ipv4HeaderLen ∨ len < ip + totalLen then return none
  let tcp := ip + ipv4HeaderLen
  let tcpLen ← checkedSub totalLen ipv4HeaderLen
  if tcpLen < headerLen then return none
  let dataOffset := ((← buf.index (tcp + 12)) >>> 4).toNat * 4
  if dataOffset < headerLen ∨ tcpLen < dataOffset then return none
  return some (← segmentAt buf tcp dataOffset (ip + totalLen))

/-! ## No access fails -/

section
variable {m : Memory} {size : Nat}

private theorem fromBe16_eq {i : Nat} (inside : i + 2 ≤ size) : fromBe16 ⟨m, size⟩ i = some (Pcern.fromBe16 m i) := by
  rw [fromBe16, Buffer.index_eq (by omega), Buffer.index_eq (by omega)]
  rfl

private theorem fromBe32_eq {i : Nat} (inside : i + 4 ≤ size) : fromBe32 ⟨m, size⟩ i = some (Pcern.fromBe32 m i) := by
  rw [fromBe32, Buffer.index_eq (by omega), Buffer.index_eq (by omega), Buffer.index_eq (by omega), Buffer.index_eq (by omega)]
  rfl

def inBuffer (size : Nat) (reply : Nat × Memory) : Nat × Buffer := (reply.1, ⟨reply.2, size⟩)

private theorem padToMinFrame_eq (room : 60 ≤ size) (len : Nat) :
    padToMinFrame ⟨m, size⟩ len = some (inBuffer size (Proto.padToMinFrame m len)) := by
  unfold padToMinFrame Proto.padToMinFrame
  by_cases short : len < minFrameLen
  · rw [if_pos short, if_pos short, Buffer.fillWith_eq (Nat.le_of_lt short) room]
    rfl
  · rw [if_neg short, if_neg short]
    rfl

variable {len : Nat} (host : Host)

private theorem handleArp_eq (room : 60 ≤ size) :
    handleArp ⟨m, size⟩ len host.mac host.ip = some ((Proto.handleArp m len host.mac host.ip).map (inBuffer size)) := by
  have mac := host.mac_length
  have ip := host.ip_length
  have op : arpOpReply.length = 2 := rfl
  unfold handleArp Proto.handleArp
  by_cases short : len < ethHeaderLen + arpLen
  · rw [if_pos short, if_pos short]
    rfl
  rw [if_neg short, if_neg short]
  simp only [ethHeaderLen, arpLen, Nat.reduceAdd]
  simp (disch := first | omega | simp [mac, ip, op]) only [Buffer.range_eq, Buffer.index_eq, Buffer.copyFromSlice_eq,
    padToMinFrame_eq room, Option.bind_eq_bind, Option.bind_some, Nat.reduceSub]
  simp only [ite_or, apply_ite (Option.map (inBuffer size)), apply_ite some]
  rfl

private theorem echoMessage_eq {icmpLen : Nat} (least : 8 ≤ icmpLen) (inside : 34 + icmpLen ≤ size) :
    echoMessage ⟨m, size⟩ 34 icmpLen = some ⟨putChecksum (Proto.echoMessage m) 34 2 icmpLen, size⟩ := by
  unfold echoMessage
  simp (disch := omega) only [Buffer.set_eq, Buffer.range_eq, Option.bind_eq_bind, Option.bind_some, Nat.reduceAdd,
    Nat.add_sub_cancel_left]
  rw [Buffer.copyFromSlice_eq (by decide) (by omega) rfl, blit_behind (show 36 + [(0 : UInt8)].length = 37 from rfl)]
  rfl

private theorem echoHeader_eq (room : 60 ≤ size) :
    echoHeader ⟨m, size⟩ 14 = some ⟨putChecksum (Proto.echoHeader m) 14 10 20, size⟩ := by
  unfold echoHeader
  simp (disch := first | omega | simp) only [Buffer.set_eq, Buffer.range_eq, Buffer.copyFromSlice_eq,
    Buffer.copyWithin_eq, Option.bind_eq_bind, Option.bind_some, Nat.reduceAdd, Nat.reduceSub, ipv4HeaderLen]
  rw [Buffer.copyFromSlice_eq (by decide) (by omega) rfl, blit_behind (show 24 + [(0 : UInt8)].length = 25 from rfl)]
  rfl

private theorem echoAddresses_eq (room : 60 ≤ size) :
    echoAddresses ⟨m, size⟩ host.mac = some ⟨Proto.echoAddresses host m, size⟩ := by
  have mac := host.mac_length
  unfold echoAddresses
  simp (disch := first | omega | simp [mac]) only [Buffer.range_eq, Buffer.copyFromSlice_eq, Option.bind_eq_bind,
    Option.bind_some, Nat.reduceSub]
  rfl

private theorem handleIcmpEcho_eq (room : 60 ≤ size) (fits : len ≤ size) :
    handleIcmpEcho ⟨m, size⟩ len host.mac host.ip =
      some ((Proto.handleIcmpEcho m len host.mac host.ip).map (inBuffer size)) := by
  unfold handleIcmpEcho Proto.handleIcmpEcho
  by_cases short : len < ethHeaderLen + ipv4HeaderLen
  · rw [if_pos short, if_pos short]
    rfl
  rw [if_neg short, if_neg short]
  have version : Buffer.index ⟨m, size⟩ 14 = some (m 14) := Buffer.index_eq (by omega)
  have protocol : Buffer.index ⟨m, size⟩ 23 = some (m 23) := Buffer.index_eq (by omega)
  have target : Buffer.range ⟨m, size⟩ 30 34 = some (slice m 30 4) := Buffer.range_eq (by omega) (by omega)
  have length : fromBe16 ⟨m, size⟩ 16 = some (Pcern.fromBe16 m 16) := fromBe16_eq (by omega)
  have kind : Buffer.index ⟨m, size⟩ 34 = some (m 34) := Buffer.index_eq (by omega)
  have code : Buffer.index ⟨m, size⟩ 35 = some (m 35) := Buffer.index_eq (by omega)
  simp only [ethHeaderLen, ipv4HeaderLen, icmpHeaderLen, Nat.reduceAdd, version, protocol, target, length, kind, code,
    Option.bind_eq_bind, Option.bind_some]
  obtain ⟨total, isTotal⟩ : ∃ total, (Pcern.fromBe16 m 16).toNat = total := ⟨_, rfl⟩
  simp only [isTotal]
  -- the lengths are compared before anything behind the header is touched
  by_cases wrong : total < 20 ∨ len < 14 + total
  · simp only [if_pos wrong, apply_ite (Option.map (inBuffer size)), apply_ite some]
    rfl
  simp only [if_neg wrong, checkedSub_eq (show 20 ≤ total by omega), Option.bind_some]
  by_cases long : total - 20 < 8
  · simp only [if_pos long, apply_ite (Option.map (inBuffer size)), apply_ite some]
    rfl
  simp only [if_neg long, echoMessage_eq (Nat.not_lt.mp long) (show 34 + (total - 20) ≤ size by omega), echoHeader_eq room,
    echoAddresses_eq host room, padToMinFrame_eq room, Option.bind_some]
  simp only [ite_or, apply_ite (Option.map (inBuffer size)), apply_ite some, ← isTotal]
  rfl

private theorem handleFrame_eq (room : 60 ≤ size) (fits : len ≤ size) :
    handleFrame ⟨m, size⟩ len host.mac host.ip =
      some ((Proto.handleFrame m size len host.mac host.ip).map (inBuffer size)) := by
  unfold handleFrame Proto.handleFrame
  by_cases short : len < ethHeaderLen ∨ size < len
  · rw [if_pos short, if_pos short]
    rfl
  rw [if_neg short, if_neg short]
  have ethertype : [m 12, m 13] = slice m 12 2 := rfl
  simp (disch := omega) only [Buffer.index_eq, Option.bind_eq_bind, Option.bind_some, ethertype, handleArp_eq host room,
    handleIcmpEcho_eq host room fits]
  simp only [apply_ite (Option.map (inBuffer size)), apply_ite some]
  rfl

private theorem parseArpReply_eq (targetIp : List UInt8) (fits : len ≤ size) :
    parseArpReply ⟨m, size⟩ len targetIp = some (Proto.parseArpReply m len targetIp) := by
  unfold parseArpReply Proto.parseArpReply
  by_cases short : len < ethHeaderLen + arpLen
  · rw [if_pos short, if_pos short]
    rfl
  rw [if_neg short, if_neg short]
  simp only [ethHeaderLen, arpLen, Nat.reduceAdd] at short ⊢
  simp (disch := omega) only [Buffer.range_eq, Option.bind_eq_bind, Option.bind_some, Nat.reduceSub]
  simp only [ite_or, apply_ite some]
  rfl

private theorem segmentAt_eq {tcp dataOffset stop : Nat} (header : tcp + 20 ≤ size) (ordered : tcp + dataOffset ≤ stop)
    (inside : stop ≤ size) :
    segmentAt ⟨m, size⟩ tcp dataOffset stop = some
      { srcPort := Pcern.fromBe16 m tcp
        dstPort := Pcern.fromBe16 m (tcp + 2)
        seq := Pcern.fromBe32 m (tcp + 4)
        ack := Pcern.fromBe32 m (tcp + 8)
        flags := m (tcp + 13)
        window := Pcern.fromBe16 m (tcp + 14)
        payload := slice m (tcp + dataOffset) (stop - (tcp + dataOffset)) } := by
  unfold segmentAt
  simp (disch := omega) only [fromBe16_eq, fromBe32_eq, Buffer.index_eq, Buffer.range_eq, Option.bind_eq_bind, Option.bind_some]
  rfl

private theorem parseSegment_eq (peerIp : List UInt8) (fits : len ≤ size) :
    parseSegment ⟨m, size⟩ len peerIp = some (Tcp.parseSegment m len peerIp) := by
  unfold parseSegment Tcp.parseSegment
  by_cases short : len < ethHeaderLen + ipv4HeaderLen
  · rw [if_pos short, if_pos short]
    rfl
  rw [if_neg short, if_neg short]
  simp only [ethHeaderLen, ipv4HeaderLen, Tcp.headerLen, Nat.reduceAdd] at short ⊢
  have ethertype : Buffer.range ⟨m, size⟩ 12 14 = some (slice m 12 2) := Buffer.range_eq (by omega) (by omega)
  have version : Buffer.index ⟨m, size⟩ 14 = some (m 14) := Buffer.index_eq (by omega)
  have protocol : Buffer.index ⟨m, size⟩ 23 = some (m 23) := Buffer.index_eq (by omega)
  have source : Buffer.range ⟨m, size⟩ 26 30 = some (slice m 26 4) := Buffer.range_eq (by omega) (by omega)
  have length : fromBe16 ⟨m, size⟩ 16 = some (Pcern.fromBe16 m 16) := fromBe16_eq (by omega)
  simp only [ethertype, version, protocol, source, length, Option.bind_eq_bind, Option.bind_some]
  obtain ⟨total, isTotal⟩ : ∃ total, (Pcern.fromBe16 m 16).toNat = total := ⟨_, rfl⟩
  simp only [isTotal]
  by_cases wrong : total < 20 ∨ len < 14 + total
  · simp only [if_pos wrong, apply_ite some]
    rfl
  simp only [if_neg wrong, checkedSub_eq (show 20 ≤ total by omega), Option.bind_some]
  by_cases tiny : total - 20 < 20
  · simp only [if_pos tiny, apply_ite some]
    rfl
  simp only [if_neg tiny]
  simp (disch := omega) only [Buffer.index_eq, Option.bind_some]
  obtain ⟨offset, isOffset⟩ : ∃ offset, (m 46 >>> 4).toNat * 4 = offset := ⟨_, rfl⟩
  simp only [isOffset]
  by_cases misplaced : offset < 20 ∨ total - 20 < offset
  · simp only [if_pos misplaced, apply_ite some]
    rfl
  simp only [if_neg misplaced, segmentAt_eq (show 34 + 20 ≤ size by omega) (show 34 + offset ≤ 14 + total by omega)
    (by omega), Option.bind_some, apply_ite some]
  rfl

end

def frame (reply : Nat × Buffer) : List UInt8 := slice reply.2.bytes 0 reply.1

private theorem map_frame (size : Nat) (reply : Option (Nat × Memory)) : (reply.map (inBuffer size)).map frame = reply.map sent := by
  rw [Option.map_map]
  rfl

end Indexed

/-! ## What the parsers look at -/

section
variable {buf buf' : Memory} {len : Nat}

private theorem fromBe16_agree {n a : Nat} (agree : Agree n buf buf') (inside : a + 2 ≤ n) : fromBe16 buf a = fromBe16 buf' a := by
  simp only [fromBe16, agree a (by omega), agree (a + 1) (by omega)]

private theorem fromBe32_agree {n a : Nat} (agree : Agree n buf buf') (inside : a + 4 ≤ n) : fromBe32 buf a = fromBe32 buf' a := by
  simp only [fromBe32, agree a (by omega), agree (a + 1) (by omega), agree (a + 2) (by omega), agree (a + 3) (by omega)]

private theorem handleFrame_size {size size' : Nat} (fits : len ≤ size) (fits' : len ≤ size') (myMac myIp : List UInt8) :
    handleFrame buf size len myMac myIp = handleFrame buf size' len myMac myIp := by
  unfold handleFrame
  rw [if_congr (show len < ethHeaderLen ∨ size < len ↔ len < ethHeaderLen ∨ size' < len by omega) rfl rfl]

private theorem parseArpReply_agree (agree : Agree len buf buf') (targetIp : List UInt8) :
    parseArpReply buf len targetIp = parseArpReply buf' len targetIp := by
  unfold parseArpReply
  simp only [ethHeaderLen, arpLen, Nat.reduceAdd]
  by_cases short : len < 42
  · rw [if_pos short, if_pos short]
  · rw [agree.slice (show 12 + 2 ≤ len by omega), agree.slice (show 14 + 2 ≤ len by omega), agree.slice (show 16 + 2 ≤ len by omega),
      agree.slice (show 20 + 2 ≤ len by omega), agree.slice (show 28 + 4 ≤ len by omega), agree.slice (show 22 + 6 ≤ len by omega)]

end

end Pcern.Proto

namespace Pcern.Tcp
open Bytes Proto

/-- Where the data of a segment are, by the sender's offset. -/
def dataOffset (buf : Memory) : Nat := (buf 46 >>> 4).toNat * 4

/-- What the parser has compared when it accepts a segment. -/
structure Framed (buf : Memory) (len : Nat) : Prop where
  header : 20 ≤ dataOffset buf
  inside : 34 + dataOffset buf ≤ 14 + totalLen buf
  received : 14 + totalLen buf ≤ len

section
variable {buf buf' : Memory} {len : Nat} {peerIp : List UInt8}

theorem parseSegment_framed {seg : Segment} (parsed : parseSegment buf len peerIp = some seg) :
    Framed buf len ∧ seg.payload = slice buf (34 + dataOffset buf) (14 + totalLen buf - (34 + dataOffset buf)) := by
  unfold parseSegment at parsed
  simp only [ethHeaderLen, ipv4HeaderLen, headerLen, Nat.reduceAdd] at parsed
  split_ifs at parsed with short kind version proto mine length least offset
  cases parsed
  refine ⟨⟨?_, ?_, ?_⟩, rfl⟩
  · simp only [dataOffset]
    omega
  · simp only [dataOffset, totalLen]
    omega
  · simp only [totalLen]
    omega

theorem parseSegment_agree (agree : Agree len buf buf') : parseSegment buf len peerIp = parseSegment buf' len peerIp := by
  unfold parseSegment
  simp only [ethHeaderLen, ipv4HeaderLen, headerLen, Nat.reduceAdd]
  by_cases short : len < 34
  · rw [if_pos short, if_pos short]
  rw [if_neg short, if_neg short, agree.slice (show 12 + 2 ≤ len by omega), agree 14 (by omega), agree 23 (by omega),
    agree.slice (show 26 + 4 ≤ len by omega), fromBe16_agree agree (show 16 + 2 ≤ len by omega)]
  obtain ⟨total, isTotal⟩ : ∃ total, (fromBe16 buf' 16).toNat = total := ⟨_, rfl⟩
  rw [isTotal]
  by_cases wrong : total < 20 ∨ len < 14 + total
  · rw [if_pos wrong, if_pos wrong]
  rw [if_neg wrong, if_neg wrong]
  by_cases tiny : total - 20 < 20
  · rw [if_pos tiny, if_pos tiny]
  rw [if_neg tiny, if_neg tiny, agree 46 (by omega)]
  by_cases misplaced : (buf' 46 >>> 4).toNat * 4 < 20 ∨ total - 20 < (buf' 46 >>> 4).toNat * 4
  · rw [if_pos misplaced, if_pos misplaced]
  rw [if_neg misplaced, if_neg misplaced, fromBe16_agree agree (show 34 + 2 ≤ len by omega),
    fromBe16_agree agree (show 36 + 2 ≤ len by omega), fromBe32_agree agree (show 38 + 4 ≤ len by omega),
    fromBe32_agree agree (show 42 + 4 ≤ len by omega), agree 47 (by omega), fromBe16_agree agree (show 48 + 2 ≤ len by omega),
    agree.slice (by omega)]

end

end Pcern.Tcp

namespace Pcern.Proto
open Bytes Tcp

/--
No parser fails on a frame in its buffer, and all that counts are the bytes of the frame: the results, and the reply that is
sent, are the same for every buffer that begins with it. The payload of a segment lies in the IPv4 datagram, which lies
in the frame, and begins where its sender says.
-/
theorem parsers_stay_in_frame (host : Host) (peerIp : List UInt8) (buf : Buffer) {len : Nat} (room : 60 ≤ buf.size)
    (fits : len ≤ buf.size) :
    ∃ reply mac segment, Indexed.handleFrame buf len host.mac host.ip = some reply ∧
      Indexed.parseArpReply buf len peerIp = some mac ∧ Indexed.parseSegment buf len peerIp = some segment ∧
      (∀ buf' : Buffer, 60 ≤ buf'.size → len ≤ buf'.size → Agree len buf.bytes buf'.bytes →
        (∃ reply', Indexed.handleFrame buf' len host.mac host.ip = some reply' ∧
          reply'.map Indexed.frame = reply.map Indexed.frame) ∧
        Indexed.parseArpReply buf' len peerIp = some mac ∧ Indexed.parseSegment buf' len peerIp = some segment) ∧
      ∀ seg ∈ segment, Framed buf.bytes len ∧
        seg.payload = slice buf.bytes (34 + dataOffset buf.bytes) (14 + totalLen buf.bytes - (34 + dataOffset buf.bytes)) := by
  obtain ⟨m, size⟩ := buf
  refine ⟨_, _, _, Indexed.handleFrame_eq host room fits, Indexed.parseArpReply_eq peerIp fits,
    Indexed.parseSegment_eq peerIp fits, ?_, fun seg parsed => parseSegment_framed parsed⟩
  rintro ⟨m', size'⟩ room' fits' agree
  refine ⟨⟨_, Indexed.handleFrame_eq host room' fits', ?_⟩, ?_, ?_⟩
  · rw [Indexed.map_frame, Indexed.map_frame, handleFrame_size fits' fits]
    exact (handleFrame_congr host fits agree).symm
  · rw [Indexed.parseArpReply_eq peerIp fits', parseArpReply_agree agree]
  · rw [Indexed.parseSegment_eq peerIp fits', parseSegment_agree agree]

theorem ping_stays_in_frame : (60 ≤ 64 ∧ 42 ≤ 64) ∧
    ∃ reply, Indexed.handleFrame ⟨ping, 64⟩ 42 pingedHost.mac pingedHost.ip = some reply := by
  obtain ⟨reply, -, -, handled, -⟩ := parsers_stay_in_frame pingedHost [10, 0, 2, 2] ⟨ping, 64⟩ (show 60 ≤ 64 by decide)
    (show 42 ≤ 64 by decide)
  exact ⟨by decide, reply, handled⟩

end Pcern.Proto

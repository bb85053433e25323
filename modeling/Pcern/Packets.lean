import Pcern.Bytes

/-!
Frames, after `proto.rs` and `tcp.rs` of `netstack`: the Internet checksum, the
ARP and ICMP responder, and TCP segments. A buffer is a byte memory with a
capacity; what a function writes into it is returned with the length of the
frame.
-/
namespace Pcern
open Bytes

def be16 (n : UInt16) : List UInt8 := [(n >>> 8).toUInt8, n.toUInt8]
def be32 (n : UInt32) : List UInt8 := [(n >>> 24).toUInt8, (n >>> 16).toUInt8, (n >>> 8).toUInt8, n.toUInt8]

def fromBe16 (m : Memory) (a : Nat) : UInt16 := (m a).toUInt16 <<< 8 ||| (m (a + 1)).toUInt16
def fromBe32 (m : Memory) (a : Nat) : UInt32 :=
  (m a).toUInt32 <<< 24 ||| (m (a + 1)).toUInt32 <<< 16 ||| (m (a + 2)).toUInt32 <<< 8 ||| (m (a + 3)).toUInt32

namespace Proto

abbrev ethHeaderLen : Nat := 14
abbrev arpLen : Nat := 28
abbrev ipv4HeaderLen : Nat := 20
abbrev icmpHeaderLen : Nat := 8
abbrev minFrameLen : Nat := 60

def ethertypeArp : List UInt8 := [0x08, 0x06]
def ethertypeIpv4 : List UInt8 := [0x08, 0x00]
def arpHtypeEthernet : List UInt8 := [0x00, 0x01]
def arpPtypeIpv4 : List UInt8 := [0x08, 0x00]
def arpOpRequest : List UInt8 := [0x00, 0x01]
def arpOpReply : List UInt8 := [0x00, 0x02]
abbrev ipv4VerIhlNoOptions : UInt8 := 0x45
abbrev ipv4ProtoIcmp : UInt8 := 1
abbrev defaultTtl : UInt8 := 64
abbrev icmpTypeEchoRequest : UInt8 := 8
abbrev icmpTypeEchoReply : UInt8 := 0

/-- The sum of the 16-bit words of some bytes; an odd last byte counts as a word with a zero behind it. -/
def checksum16Accumulate (sum : UInt32) : List UInt8 → UInt32
  | high :: low :: rest => checksum16Accumulate (sum + (high.toUInt32 <<< 8 ||| low.toUInt32)) rest
  | [last] => sum + last.toUInt32 <<< 8
  | [] => sum

/-- The loop of `checksum16_finish`: carries are added back in until there are none. -/
def foldCarries (sum : Nat) : Nat := if sum / 65536 = 0 then sum else foldCarries (sum % 65536 + sum / 65536)
termination_by sum
decreasing_by omega

def checksum16Finish (sum : UInt32) : UInt16 := ~~~(UInt16.ofNat (foldCarries sum.toNat))

def checksum16 (data : List UInt8) : UInt16 := checksum16Finish (checksum16Accumulate 0 data)

/-- A frame shorter than Ethernet's minimum is filled up with zeroes. -/
def padToMinFrame (buf : Memory) (replyLen : Nat) : Nat × Memory :=
  if replyLen < minFrameLen then (minFrameLen, fill buf replyLen (minFrameLen - replyLen) 0) else (replyLen, buf)

theorem padToMinFrame_spec (buf : Memory) (len : Nat) :
    len ≤ (padToMinFrame buf len).1 ∧
      ∀ start n, start + n ≤ len → slice (padToMinFrame buf len).2 start n = slice buf start n := by
  unfold padToMinFrame
  split
  · exact ⟨by omega, fun start n inside => slice_fill_other buf 0 (by omega)⟩
  · exact ⟨Nat.le_refl _, fun _ _ _ => rfl⟩

/-- An ARP request for `myIp` becomes its reply, in place. -/
def handleArp (buf : Memory) (len : Nat) (myMac myIp : List UInt8) : Option (Nat × Memory) :=
  let arp := ethHeaderLen
  if len < arp + arpLen then none
  else if slice buf arp 2 ≠ arpHtypeEthernet ∨ slice buf (arp + 2) 2 ≠ arpPtypeIpv4 then none
  else if buf (arp + 4) ≠ 6 ∨ buf (arp + 5) ≠ 4 then none
  else if slice buf (arp + 6) 2 ≠ arpOpRequest then none
  else if slice buf (arp + 24) 4 ≠ myIp then none
  else
    let senderMac := slice buf (arp + 8) 6
    let senderIp := slice buf (arp + 14) 4
    let buf := blit buf 0 senderMac
    let buf := blit buf 6 myMac
    let buf := blit buf (arp + 6) arpOpReply
    let buf := blit buf (arp + 8) myMac
    let buf := blit buf (arp + 14) myIp
    let buf := blit buf (arp + 18) senderMac
    let buf := blit buf (arp + 24) senderIp
    some (padToMinFrame buf (arp + arpLen))

/-- An ICMP echo request to `myIp` becomes its reply, in place. -/
def handleIcmpEcho (buf : Memory) (len : Nat) (myMac myIp : List UInt8) : Option (Nat × Memory) :=
  let ip := ethHeaderLen
  if len < ip + ipv4HeaderLen then none
  else if buf ip ≠ ipv4VerIhlNoOptions then none
  else if buf (ip + 9) ≠ ipv4ProtoIcmp then none
  else if slice buf (ip + 16) 4 ≠ myIp then none
  else
    let totalLen := (fromBe16 buf (ip + 2)).toNat
    if totalLen < ipv4HeaderLen ∨ len < ip + totalLen then none
    else
      let icmp := ip + ipv4HeaderLen
      let icmpLen := totalLen - ipv4HeaderLen
      if icmpLen < icmpHeaderLen then none
      else if buf icmp ≠ icmpTypeEchoRequest ∨ buf (icmp + 1) ≠ 0 then none
      else
        let buf := blit buf icmp [icmpTypeEchoReply]
        let buf := blit buf (icmp + 2) [0, 0]
        let buf := blit buf (icmp + 2) (be16 (checksum16 (slice buf icmp icmpLen)))
        let srcIp := slice buf (ip + 12) 4
        let buf := blit buf (ip + 12) (slice buf (ip + 16) 4)
        let buf := blit buf (ip + 16) srcIp
        let buf := blit buf (ip + 8) [defaultTtl]
        let buf := blit buf (ip + 10) [0, 0]
        let buf := blit buf (ip + 10) (be16 (checksum16 (slice buf ip ipv4HeaderLen)))
        let senderMac := slice buf 6 6
        let buf := blit buf 0 senderMac
        let buf := blit buf 6 myMac
        some (padToMinFrame buf (ip + totalLen))

/-- The responder, on the first `len` bytes of a buffer of capacity `cap`. -/
def handleFrame (buf : Memory) (cap len : Nat) (myMac myIp : List UInt8) : Option (Nat × Memory) :=
  if len < ethHeaderLen ∨ cap < len then none
  else
    let ethertype := slice buf 12 2
    if ethertype = ethertypeArp then handleArp buf len myMac myIp
    else if ethertype = ethertypeIpv4 then handleIcmpEcho buf len myMac myIp
    else none

def buildArpRequest (buf : Memory) (myMac myIp targetIp : List UInt8) : Nat × Memory :=
  let arp := ethHeaderLen
  let buf := fill buf 0 6 0xff
  let buf := blit buf 6 myMac
  let buf := blit buf 12 ethertypeArp
  let buf := blit buf arp arpHtypeEthernet
  let buf := blit buf (arp + 2) arpPtypeIpv4
  let buf := blit buf (arp + 4) [6]
  let buf := blit buf (arp + 5) [4]
  let buf := blit buf (arp + 6) arpOpRequest
  let buf := blit buf (arp + 8) myMac
  let buf := blit buf (arp + 14) myIp
  let buf := fill buf (arp + 18) 6 0
  let buf := blit buf (arp + 24) targetIp
  padToMinFrame buf (arp + arpLen)

def parseArpReply (buf : Memory) (len : Nat) (targetIp : List UInt8) : Option (List UInt8) :=
  let arp := ethHeaderLen
  if len < arp + arpLen then none
  else if slice buf 12 2 ≠ ethertypeArp then none
  else if slice buf arp 2 ≠ arpHtypeEthernet ∨ slice buf (arp + 2) 2 ≠ arpPtypeIpv4 then none
  else if slice buf (arp + 6) 2 ≠ arpOpReply then none
  else if slice buf (arp + 14) 4 ≠ targetIp then none
  else some (slice buf (arp + 8) 6)

/-- The bytes that are sent: the first ones of the buffer. -/
def sent (reply : Nat × Memory) : List UInt8 := slice reply.2 0 reply.1

end Proto

namespace Tcp
open Proto

abbrev headerLen : Nat := 20
abbrev flagFin : UInt8 := 0x01
abbrev flagSyn : UInt8 := 0x02
abbrev flagRst : UInt8 := 0x04
abbrev flagPsh : UInt8 := 0x08
abbrev flagAck : UInt8 := 0x10
abbrev ipProtoTcp : UInt8 := 6

structure Segment where
  srcPort : UInt16
  dstPort : UInt16
  seq : UInt32
  ack : UInt32
  flags : UInt8
  window : UInt16
  payload : List UInt8
  deriving DecidableEq, Repr

def Segment.has (seg : Segment) (flag : UInt8) : Bool := seg.flags &&& flag != 0

def buildSegment (buf : Memory) (myMac myIp peerMac peerIp : List UInt8) (srcPort dstPort : UInt16) (seq ack : UInt32)
    (flags : UInt8) (window : UInt16) (payload : List UInt8) : Nat × Memory :=
  let ip := ethHeaderLen
  let tcp := ip + ipv4HeaderLen
  let totalLen := ipv4HeaderLen + headerLen + payload.length
  let buf := blit buf 0 peerMac
  let buf := blit buf 6 myMac
  let buf := blit buf 12 ethertypeIpv4
  let buf := blit buf ip [ipv4VerIhlNoOptions]
  let buf := blit buf (ip + 1) [0]
  let buf := blit buf (ip + 2) (be16 (UInt16.ofNat totalLen))
  let buf := fill buf (ip + 4) 4 0
  let buf := blit buf (ip + 8) [64]
  let buf := blit buf (ip + 9) [ipProtoTcp]
  let buf := fill buf (ip + 10) 2 0
  let buf := blit buf (ip + 12) myIp
  let buf := blit buf (ip + 16) peerIp
  let buf := blit buf tcp (be16 srcPort)
  let buf := blit buf (tcp + 2) (be16 dstPort)
  let buf := blit buf (tcp + 4) (be32 seq)
  let buf := blit buf (tcp + 8) (be32 ack)
  let buf := blit buf (tcp + 12) [0x50]
  let buf := blit buf (tcp + 13) [flags]
  let buf := blit buf (tcp + 14) (be16 window)
  let buf := fill buf (tcp + 16) 2 0
  let buf := fill buf (tcp + 18) 2 0
  let buf := blit buf (tcp + headerLen) payload
  let pseudo := myIp ++ peerIp ++ [0, ipProtoTcp] ++ be16 (UInt16.ofNat (headerLen + payload.length))
  let sum := checksum16Accumulate 0 pseudo
  let sum := checksum16Accumulate sum (slice buf tcp (headerLen + payload.length))
  let buf := blit buf (tcp + 16) (be16 (checksum16Finish sum))
  let ipSum := checksum16Finish (checksum16Accumulate 0 (slice buf ip ipv4HeaderLen))
  let buf := blit buf (ip + 10) (be16 ipSum)
  padToMinFrame buf (ip + totalLen)

/-- The segment in the first `len` bytes, if they are one from `expectPeerIp`. -/
def parseSegment (buf : Memory) (len : Nat) (expectPeerIp : List UInt8) : Option Segment :=
  let ip := ethHeaderLen
  if len < ip + ipv4HeaderLen then none
  else if slice buf 12 2 ≠ ethertypeIpv4 then none
  else if buf ip ≠ ipv4VerIhlNoOptions then none
  else if buf (ip + 9) ≠ ipProtoTcp then none
  else if slice buf (ip + 12) 4 ≠ expectPeerIp then none
  else
    let totalLen := (fromBe16 buf (ip + 2)).toNat
    if totalLen < ipv4HeaderLen ∨ len < ip + totalLen then none
    else
      let tcp := ip + ipv4HeaderLen
      let tcpLen := totalLen - ipv4HeaderLen
      if tcpLen < headerLen then none
      else
        let dataOffset := (buf (tcp + 12) >>> 4).toNat * 4
        if dataOffset < headerLen ∨ tcpLen < dataOffset then none
        else some
          { srcPort := fromBe16 buf tcp
            dstPort := fromBe16 buf (tcp + 2)
            seq := fromBe32 buf (tcp + 4)
            ack := fromBe32 buf (tcp + 8)
            flags := buf (tcp + 13)
            window := fromBe16 buf (tcp + 14)
            payload := slice buf (tcp + dataOffset) (ip + totalLen - (tcp + dataOffset)) }

end Tcp
end Pcern

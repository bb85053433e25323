import Pcern.Checksums

/-!
The ARP and ping responder: which frames `handle_frame` answers and what the
answers are. The replies are built in place over the requests. The part of the
buffer that a reply takes over from its request is stated by slices of the
request; everything else in a reply is fixed or a checksum.
-/
namespace Pcern.Proto
open Bytes

structure Host where
  mac : List UInt8
  ip : List UInt8
  mac_length : mac.length = 6
  ip_length : ip.length = 4

/-- An ARP request, Ethernet and IPv4, that asks for the host's address. -/
def IsArpRequest (host : Host) (buf : Memory) (len : Nat) : Prop :=
  42 ≤ len ∧ slice buf 12 2 = ethertypeArp ∧ slice buf 14 2 = arpHtypeEthernet ∧ slice buf 16 2 = arpPtypeIpv4 ∧
    buf 18 = 6 ∧ buf 19 = 4 ∧ slice buf 20 2 = arpOpRequest ∧ slice buf 38 4 = host.ip

def totalLen (buf : Memory) : Nat := (fromBe16 buf 16).toNat

/-- An ICMP echo request to the host's address that is all there. -/
def IsEchoRequest (host : Host) (buf : Memory) (len : Nat) : Prop :=
  slice buf 12 2 = ethertypeIpv4 ∧ buf 14 = ipv4VerIhlNoOptions ∧ buf 23 = ipv4ProtoIcmp ∧ slice buf 30 4 = host.ip ∧
    28 ≤ totalLen buf ∧ 14 + totalLen buf ≤ len ∧ buf 34 = icmpTypeEchoRequest ∧ buf 35 = 0

/-! ## What is answered -/

/-- The writes of `handle_arp`. -/
def arpReply (host : Host) (buf : Memory) : Memory :=
  let senderMac := slice buf 22 6
  let senderIp := slice buf 28 4
  let buf := blit buf 0 senderMac
  let buf := blit buf 6 host.mac
  let buf := blit buf 20 arpOpReply
  let buf := blit buf 22 host.mac
  let buf := blit buf 28 host.ip
  let buf := blit buf 32 senderMac
  blit buf 38 senderIp

/-- The writes of `handle_icmp_echo` to the ICMP message, without its checksum. -/
def echoMessage (buf : Memory) : Memory := blit (blit buf 34 [icmpTypeEchoReply]) 36 [0, 0]

/-- The writes to the IPv4 header, without its checksum. -/
def echoHeader (buf : Memory) : Memory :=
  let srcIp := slice buf 26 4
  let buf := blit buf 26 (slice buf 30 4)
  let buf := blit buf 30 srcIp
  let buf := blit buf 22 [defaultTtl]
  blit buf 24 [0, 0]

def echoAddresses (host : Host) (buf : Memory) : Memory := blit (blit buf 0 (slice buf 6 6)) 6 host.mac

/-- Store the checksum of `len` bytes from `start` on, `front` bytes into them. -/
def putChecksum (buf : Memory) (start front len : Nat) : Memory :=
  blit buf (start + front) (be16 (checksum16 (slice buf start len)))

/-- The writes of `handle_icmp_echo`. -/
def echoReply (host : Host) (buf : Memory) : Memory :=
  let buf' := putChecksum (echoMessage buf) 34 2 (totalLen buf - 20)
  echoAddresses host (putChecksum (echoHeader buf') 14 10 20)

variable {cap k len n : Nat} {buf buf' reply reply' request : Memory} {host : Host}

theorem handleFrame_arp (asks : IsArpRequest host buf len) (fits : len ≤ cap) :
    handleFrame buf cap len host.mac host.ip = some (padToMinFrame (arpReply host buf) 42) := by
  obtain ⟨long, isArp, htype, ptype, hlen, plen, isRequest, isMine⟩ := asks
  simp only [handleFrame, handleArp, ethHeaderLen, arpLen, Nat.reduceAdd]
  rw [if_neg (by omega), if_pos isArp, if_neg (by omega), if_neg (by simp [htype, ptype]), if_neg (by simp [hlen, plen]),
    if_neg (by simp [isRequest]), if_neg (by simp [isMine])]
  rfl

theorem handleFrame_echo (asks : IsEchoRequest host buf len) (fits : len ≤ cap) :
    handleFrame buf cap len host.mac host.ip = some (padToMinFrame (echoReply host buf) (14 + totalLen buf)) := by
  obtain ⟨isIpv4, version, isIcmp, isMine, least, there, isEcho, code⟩ := asks
  have other : slice buf 12 2 ≠ ethertypeArp := by
    rw [isIpv4]
    decide
  simp only [totalLen] at least there
  simp only [handleFrame, handleIcmpEcho, ethHeaderLen, ipv4HeaderLen, icmpHeaderLen, Nat.reduceAdd]
  rw [if_neg (by omega), if_neg other, if_pos isIpv4, if_neg (by omega), if_neg (by simp [version]), if_neg (by simp [isIcmp]),
    if_neg (by simp [isMine]), if_neg (by omega), if_neg (by omega), if_neg (by simp [isEcho, code])]
  rfl

theorem asked_of_handleFrame
    (answered : (handleFrame buf cap len host.mac host.ip).isSome) :
    IsArpRequest host buf len ∨ IsEchoRequest host buf len := by
  unfold handleFrame at answered
  dsimp only at answered
  split at answered
  · cases answered
  split at answered
  · rename_i isArp
    left
    unfold handleArp at answered
    dsimp only [ethHeaderLen, arpLen] at answered
    split_ifs at answered with short types sizes op mine
    · cases answered
    · cases answered
    · cases answered
    · cases answered
    · cases answered
    · simp only [not_or, not_not] at types sizes op mine
      exact ⟨by omega, isArp, types.1, types.2, sizes.1, sizes.2, op, mine⟩
  · split at answered
    · rename_i isIpv4
      right
      unfold handleIcmpEcho at answered
      dsimp only [ethHeaderLen, ipv4HeaderLen, icmpHeaderLen] at answered
      split_ifs at answered with short version proto mine length least kind
      · cases answered
      · cases answered
      · cases answered
      · cases answered
      · cases answered
      · cases answered
      · cases answered
      · simp only [not_or, not_not] at version proto mine kind
        simp only [Nat.reduceAdd] at length least
        exact ⟨isIpv4, version, proto, mine, by simp only [totalLen]; omega, by simp only [totalLen]; omega, kind.1, kind.2⟩
    · cases answered

/-! ## What the answers say -/

structure AnswersArp (host : Host) (request reply : Memory) : Prop where
  destination : slice reply 0 6 = slice request 22 6
  source : slice reply 6 6 = host.mac
  kind : slice reply 12 8 = slice request 12 8
  operation : slice reply 20 2 = arpOpReply
  senderMac : slice reply 22 6 = host.mac
  senderIp : slice reply 28 4 = host.ip
  targetMac : slice reply 32 6 = slice request 22 6
  targetIp : slice reply 38 4 = slice request 28 4

theorem answersArp_arpReply (host : Host) (buf : Memory) : AnswersArp host buf (arpReply host buf) := by
  have mac := host.mac_length
  have ip := host.ip_length
  have op : arpOpReply.length = 2 := rfl
  constructor <;>
    simp (disch := simp [mac, ip, op]) only [arpReply, slice_blit_of_length, slice_blit_other]

private theorem slice_putChecksum_other {start front len from' n : Nat}
    (apart : from' + n ≤ start + front ∨ start + front + 2 ≤ from') :
    slice (putChecksum buf start front len) from' n = slice buf from' n :=
  slice_blit_other buf (by rwa [length_be16])

private theorem putChecksum_valid {start front len : Nat} (zero : slice buf (start + front) 2 = [0, 0])
    (even : front % 2 = 0) (inside : front + 2 ≤ len) (short : len ≤ 65535) :
    foldCarries (wordSum (slice (putChecksum buf start front len) start len)) = 0xFFFF := by
  obtain ⟨rest, rfl⟩ := Nat.exists_eq_add_of_le inside
  have parts (m : Memory) : slice m start (front + 2 + rest) =
      slice m start front ++ (slice m (start + front) 2 ++ slice m (start + front + 2) rest) := by
    rw [Nat.add_assoc, slice_append, slice_append, Nat.add_assoc]
  have before : slice buf start (front + 2 + rest) =
      slice buf start front ++ (be16 0 ++ slice buf (start + front + 2) rest) := by
    rw [parts, zero]
    rfl
  have valid := checksum16_valid (slice buf start front) (slice buf (start + front + 2) rest) (by simpa using even)
    (by rw [← before]; simpa using short)
  rw [← before] at valid
  rw [parts, slice_putChecksum_other (.inl (Nat.le_refl _)), slice_putChecksum_other (.inr (Nat.le_refl _)), putChecksum,
    slice_blit_of_length (length_be16 _)]
  exact valid

/-- The fields of an echo reply: everything the request said behind the checksum comes back. -/
structure AnswersEcho (host : Host) (request reply : Memory) : Prop where
  destination : slice reply 0 6 = slice request 6 6
  source : slice reply 6 6 = host.mac
  kind : slice reply 12 2 = slice request 12 2
  header : slice reply 14 8 = slice request 14 8
  ttl : slice reply 22 1 = [defaultTtl]
  protocol : slice reply 23 1 = slice request 23 1
  sourceIp : slice reply 26 4 = host.ip
  destinationIp : slice reply 30 4 = slice request 26 4
  type : slice reply 34 1 = [icmpTypeEchoReply]
  code : slice reply 35 1 = slice request 35 1
  body : slice reply 38 (totalLen request - 24) = slice request 38 (totalLen request - 24)
  ipv4Checksum : foldCarries (wordSum (slice reply 14 20)) = 0xFFFF
  icmpChecksum : foldCarries (wordSum (slice reply 34 (totalLen request - 20))) = 0xFFFF

theorem answersEcho_echoReply (asks : IsEchoRequest host buf len) :
    AnswersEcho host buf (echoReply host buf) := by
  obtain ⟨-, -, -, isMine, least, -⟩ := asks
  have mac := host.mac_length
  have small : totalLen buf < 65536 := (fromBe16 buf 16).toNat_lt
  constructor
  case ipv4Checksum =>
    simp (disch := simp [mac]) only [echoReply, echoAddresses, slice_blit_other]
    refine putChecksum_valid ?_ rfl (by decide) (by decide)
    exact slice_blit_of_length rfl
  case icmpChecksum =>
    simp (disch := simp [mac]) only [echoReply, echoAddresses, echoHeader, slice_putChecksum_other, slice_blit_other]
    refine putChecksum_valid ?_ rfl (by omega) (by omega)
    exact slice_blit_of_length rfl
  case sourceIp =>
    rw [← isMine]
    simp (disch := simp [mac]) only [echoReply, echoAddresses, echoHeader, echoMessage, slice_putChecksum_other,
      slice_blit_of_length, slice_blit_other]
  all_goals
    simp (disch := simp [mac]) only [echoReply, echoAddresses, echoHeader, echoMessage, slice_putChecksum_other,
      slice_blit_of_length, slice_blit_other]

/-! ## Padding, and what the bytes behind the frame may be -/

theorem AnswersArp.congr (answers : AnswersArp host request reply)
    (agree : Agree 42 reply' reply) : AnswersArp host request reply' where
  destination := (agree.slice (by decide)).trans answers.destination
  source := (agree.slice (by decide)).trans answers.source
  kind := (agree.slice (by decide)).trans answers.kind
  operation := (agree.slice (by decide)).trans answers.operation
  senderMac := (agree.slice (by decide)).trans answers.senderMac
  senderIp := (agree.slice (by decide)).trans answers.senderIp
  targetMac := (agree.slice (by decide)).trans answers.targetMac
  targetIp := (agree.slice (by decide)).trans answers.targetIp

theorem AnswersEcho.congr (answers : AnswersEcho host request reply)
    (least : 28 ≤ totalLen request) (agree : Agree (14 + totalLen request) reply' reply) :
    AnswersEcho host request reply' where
  destination := (agree.slice (by omega)).trans answers.destination
  source := (agree.slice (by omega)).trans answers.source
  kind := (agree.slice (by omega)).trans answers.kind
  header := (agree.slice (by omega)).trans answers.header
  ttl := (agree.slice (by omega)).trans answers.ttl
  protocol := (agree.slice (by omega)).trans answers.protocol
  sourceIp := (agree.slice (by omega)).trans answers.sourceIp
  destinationIp := (agree.slice (by omega)).trans answers.destinationIp
  type := (agree.slice (by omega)).trans answers.type
  code := (agree.slice (by omega)).trans answers.code
  body := (agree.slice (by omega)).trans answers.body
  ipv4Checksum := by
    rw [agree.slice (by omega)]
    exact answers.ipv4Checksum
  icmpChecksum := by
    rw [agree.slice (by omega)]
    exact answers.icmpChecksum

private theorem padToMinFrame_length (buf : Memory) (len : Nat) : (padToMinFrame buf len).1 = max 60 len := by
  unfold padToMinFrame
  simp only [minFrameLen]
  split <;> dsimp only <;> omega

theorem padToMinFrame_agree (buf : Memory) (len : Nat) : Agree len (padToMinFrame buf len).2 buf := by
  intro k less
  unfold padToMinFrame
  split
  · exact fill_apply_other buf 0 (by omega)
  · rfl

private theorem padToMinFrame_zero (low : len ≤ k) (high : k < (padToMinFrame buf len).1) :
    (padToMinFrame buf len).2 k = 0 := by
  unfold padToMinFrame at high ⊢
  split at high
  · rename_i short
    rw [if_pos short]
    exact fill_apply_inside buf 0 low (by simp only at high; omega)
  · simp only at high
    omega

private theorem padToMinFrame_beyond (beyond : max 60 len ≤ k) : (padToMinFrame buf len).2 k = buf k := by
  unfold padToMinFrame
  simp only [minFrameLen]
  split
  · exact fill_apply_other buf 0 (by omega)
  · rfl

private theorem slice_padToMinFrame (agree : Agree len buf buf') :
    slice (padToMinFrame buf len).2 0 (max 60 len) = slice (padToMinFrame buf' len).2 0 (max 60 len) := by
  refine slice_congr fun k less => ?_
  by_cases inside : 0 + k < len
  · rw [padToMinFrame_agree buf len _ inside, padToMinFrame_agree buf' len _ inside]
    exact agree _ inside
  · rw [padToMinFrame_zero (by omega) (by rw [padToMinFrame_length]; omega),
      padToMinFrame_zero (by omega) (by rw [padToMinFrame_length]; omega)]

private theorem arpReply_beyond (host : Host) (buf : Memory) (beyond : 42 ≤ k) : arpReply host buf k = buf k := by
  have mac := host.mac_length
  have ip := host.ip_length
  have op : arpOpReply.length = 2 := rfl
  simp (disch := simp [mac, ip, op] <;> omega) only [arpReply, blit_apply_other]

private theorem echoReply_beyond (host : Host) (buf : Memory) (beyond : 38 ≤ k) : echoReply host buf k = buf k := by
  have mac := host.mac_length
  simp (disch := simp [mac, length_be16] <;> omega) only [echoReply, echoAddresses, echoHeader, echoMessage, putChecksum,
    blit_apply_other]

private theorem arpReply_agree (host : Host) (agree : Agree 42 buf buf') :
    Agree 42 (arpReply host buf) (arpReply host buf') := by
  unfold arpReply
  rw [agree.slice (show 22 + 6 ≤ 42 by decide), agree.slice (show 28 + 4 ≤ 42 by decide)]
  exact (((((((agree.blit 0 _).blit 6 _).blit 20 _).blit 22 _).blit 28 _).blit 32 _).blit 38 _)

private theorem putChecksum_agree (agree : Agree n buf buf') (front : Nat) {start len : Nat}
    (inside : start + len ≤ n) : Agree n (putChecksum buf start front len) (putChecksum buf' start front len) := by
  unfold putChecksum
  rw [agree.slice inside]
  exact agree.blit _ _

private theorem totalLen_agree (agree : Agree n buf buf') (inside : 18 ≤ n) :
    totalLen buf = totalLen buf' := by
  simp only [totalLen, fromBe16, agree 16 (by omega), agree (16 + 1) (by omega)]

private theorem echoHeader_agree (agree : Agree n buf buf') (inside : 34 ≤ n) :
    Agree n (echoHeader buf) (echoHeader buf') := by
  unfold echoHeader
  rw [agree.slice (show 26 + 4 ≤ n by omega), agree.slice (show 30 + 4 ≤ n by omega)]
  exact ((((agree.blit 26 _).blit 30 _).blit 22 _).blit 24 _)

private theorem echoAddresses_agree (host : Host) (agree : Agree n buf buf') (inside : 12 ≤ n) :
    Agree n (echoAddresses host buf) (echoAddresses host buf') := by
  unfold echoAddresses
  rw [agree.slice (show 6 + 6 ≤ n by omega)]
  exact (agree.blit 0 _).blit 6 _

private theorem echoReply_agree (host : Host) (least : 28 ≤ totalLen buf)
    (agree : Agree (14 + totalLen buf) buf buf') :
    Agree (14 + totalLen buf) (echoReply host buf) (echoReply host buf') := by
  have same := totalLen_agree agree (by omega)
  have message : Agree (14 + totalLen buf) (echoMessage buf) (echoMessage buf') := (agree.blit 34 _).blit 36 _
  unfold echoReply
  rw [← same]
  refine echoAddresses_agree host (putChecksum_agree ?_ 10 (by omega)) (by omega)
  exact echoHeader_agree (putChecksum_agree message 2 (by omega)) (by omega)

theorem IsArpRequest.congr (asks : IsArpRequest host buf len)
    (agree : Agree len buf' buf) : IsArpRequest host buf' len := by
  obtain ⟨long, isArp, htype, ptype, hlen, plen, isRequest, isMine⟩ := asks
  refine ⟨long, ?_, ?_, ?_, (agree 18 (by omega)).trans hlen, (agree 19 (by omega)).trans plen, ?_, ?_⟩
  · exact (agree.slice (by omega)).trans isArp
  · exact (agree.slice (by omega)).trans htype
  · exact (agree.slice (by omega)).trans ptype
  · exact (agree.slice (by omega)).trans isRequest
  · exact (agree.slice (by omega)).trans isMine

theorem IsEchoRequest.congr (asks : IsEchoRequest host buf len)
    (agree : Agree len buf' buf) : IsEchoRequest host buf' len := by
  obtain ⟨isIpv4, version, isIcmp, isMine, least, there, isEcho, code⟩ := asks
  have same := totalLen_agree agree (by omega)
  refine ⟨(agree.slice (by omega)).trans isIpv4, (agree 14 (by omega)).trans version, (agree 23 (by omega)).trans isIcmp,
    (agree.slice (by omega)).trans isMine, by omega, by omega, (agree 34 (by omega)).trans isEcho,
    (agree 35 (by omega)).trans code⟩

/-! ## The responder -/

theorem handleFrame_congr (host : Host) (fits : len ≤ cap) (agree : Agree len buf buf') :
    (handleFrame buf cap len host.mac host.ip).map sent = (handleFrame buf' cap len host.mac host.ip).map sent := by
  have back : Agree len buf' buf := fun k less => (agree k less).symm
  by_cases arp : IsArpRequest host buf len
  · rw [handleFrame_arp arp fits, handleFrame_arp (arp.congr back) fits]
    simp only [Option.map_some, sent, padToMinFrame_length]
    exact congrArg some (slice_padToMinFrame (arpReply_agree host fun k less => agree k (by have := arp.1; omega)))
  by_cases echo : IsEchoRequest host buf len
  · rw [handleFrame_echo echo fits, handleFrame_echo (echo.congr back) fits]
    obtain ⟨-, -, -, -, least, there, -⟩ := echo
    rw [← totalLen_agree agree (by omega)]
    simp only [Option.map_some, sent, padToMinFrame_length]
    exact congrArg some (slice_padToMinFrame (echoReply_agree host least fun k less => agree k (by omega)))
  · have silent (m : Memory) (same : Agree len buf m) : handleFrame m cap len host.mac host.ip = none := by
      rw [← Option.not_isSome_iff_eq_none]
      intro answered
      rcases asked_of_handleFrame answered with asks | asks
      · exact arp (asks.congr same)
      · exact echo (asks.congr same)
    rw [silent buf fun _ _ => rfl, silent buf' agree]

/--
Exactly the requests to this host are answered. The answer goes to the one who
asked, what follows its body is zero, it stays inside the buffer, and the bytes
behind the request have no part in it.
-/
theorem handleFrame_answers (host : Host) (buf : Memory) {cap len : Nat} (room : 60 ≤ cap) (fits : len ≤ cap) :
    ((handleFrame buf cap len host.mac host.ip).isSome ↔ IsArpRequest host buf len ∨ IsEchoRequest host buf len) ∧
      (IsArpRequest host buf len → ∃ reply, handleFrame buf cap len host.mac host.ip = some (60, reply) ∧
        AnswersArp host buf reply ∧ ∀ k, 42 ≤ k → k < 60 → reply k = 0) ∧
      (IsEchoRequest host buf len → ∃ reply,
        handleFrame buf cap len host.mac host.ip = some (max 60 (14 + totalLen buf), reply) ∧
        AnswersEcho host buf reply ∧ ∀ k, 14 + totalLen buf ≤ k → k < 60 → reply k = 0) ∧
      (∀ reply ∈ handleFrame buf cap len host.mac host.ip, reply.1 ≤ cap ∧ ∀ k, cap ≤ k → reply.2 k = buf k) ∧
      ∀ buf', Agree len buf buf' →
        (handleFrame buf cap len host.mac host.ip).map sent = (handleFrame buf' cap len host.mac host.ip).map sent := by
  have arp (asks : IsArpRequest host buf len) := handleFrame_arp asks fits
  have echo (asks : IsEchoRequest host buf len) := handleFrame_echo asks fits
  have pair (m : Memory) (n : Nat) : padToMinFrame m n = (max 60 n, (padToMinFrame m n).2) := by
    rw [← padToMinFrame_length m n]
  refine ⟨⟨asked_of_handleFrame, ?_⟩, fun asks => ?_, fun asks => ?_, ?_, fun buf' agree => handleFrame_congr host fits agree⟩
  · rintro (asks | asks)
    · rw [arp asks]
      rfl
    · rw [echo asks]
      rfl
  · refine ⟨_, (arp asks).trans (congrArg some (pair _ 42)), ?_, fun k low high => ?_⟩
    · exact (answersArp_arpReply host buf).congr (padToMinFrame_agree _ _)
    · exact padToMinFrame_zero low (by rwa [padToMinFrame_length])
  · refine ⟨_, (echo asks).trans (congrArg some (pair _ _)), ?_, fun k low high => ?_⟩
    · exact (answersEcho_echoReply asks).congr asks.2.2.2.2.1 (padToMinFrame_agree _ _)
    · exact padToMinFrame_zero low (by rw [padToMinFrame_length]; omega)
  · intro reply isReply
    rcases asked_of_handleFrame (Option.isSome_of_mem isReply) with asks | asks
    · rw [arp asks] at isReply
      obtain rfl := Option.mem_some.mp isReply
      rw [padToMinFrame_length]
      refine ⟨by omega, fun k beyond => ?_⟩
      rw [padToMinFrame_beyond (by omega)]
      exact arpReply_beyond host buf (by omega)
    · rw [echo asks] at isReply
      obtain rfl := Option.mem_some.mp isReply
      obtain ⟨-, -, -, -, least, there, -⟩ := asks
      rw [padToMinFrame_length]
      refine ⟨by omega, fun k beyond => ?_⟩
      rw [padToMinFrame_beyond (by omega)]
      exact echoReply_beyond host buf (by omega)

def pingedHost : Host := ⟨[2, 0, 0, 0, 0, 9], [10, 0, 2, 16], rfl, rfl⟩

/-- An echo request without payload from 10.0.2.2. -/
def ping : Memory := blit (fun _ => 0) 0
  [2, 0, 0, 0, 0, 9, 2, 0, 0, 0, 0, 2, 8, 0, 0x45, 0, 0, 28, 0, 0, 0, 0, 64, 1, 0, 0, 10, 0, 2, 2, 10, 0, 2, 16,
    8, 0, 0, 0, 0, 7, 0, 1]

theorem ping_answered : IsEchoRequest pingedHost ping 42 ∧
    ∃ reply, handleFrame ping 60 42 pingedHost.mac pingedHost.ip = some (60, reply) ∧ AnswersEcho pingedHost ping reply := by
  have asks : IsEchoRequest pingedHost ping 42 := by
    unfold IsEchoRequest
    decide +kernel
  have length : totalLen ping = 28 := by decide +kernel
  obtain ⟨reply, isReply, answers, -⟩ :=
    (handleFrame_answers pingedHost ping (Nat.le_refl 60) (show 42 ≤ 60 by decide)).2.2.1 asks
  rw [length] at isReply
  exact ⟨asks, reply, isReply, answers⟩

end Pcern.Proto

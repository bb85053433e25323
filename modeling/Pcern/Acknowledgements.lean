import Pcern.Wire

/-!
What `netstack` acknowledges. A run is read together with what its peer has sent (`peer`): the initial sequence number,
the bytes that were taken, and every segment that was heard. An acknowledgement is sound if it stands right behind the
bytes that were taken, and behind the peer's `FIN` if that was heard and comes next.

An open connection compares a segment with `rcv_nxt`, but a closing one takes any `FIN` and acknowledges the number
behind its sequence number; and a `FIN` that comes too early is forgotten.
-/
namespace Pcern

namespace Tcp

/-- How far behind the sequence number of a segment its `FIN` would be: behind the `SYN` and the payload. -/
def Segment.finOffset (seg : Segment) : Nat := (if seg.has flagSyn then 1 else 0) + seg.payload.length

def Segment.span (seg : Segment) : Nat := seg.finOffset + if seg.has flagFin then 1 else 0

def Segment.Covers (seg : Segment) (position : UInt32) : Prop := ∃ i < seg.span, position = seg.seq + UInt32.ofNat i

def Segment.finAt (seg : Segment) : Option UInt32 :=
  if seg.has flagFin then some (seg.seq + UInt32.ofNat seg.finOffset) else none

end Tcp

namespace Netstack
open Bytes Libpcern Proto

/-! ## The peer -/

/-- What the peer of the connection has sent: the initial sequence number, how many bytes of payload were taken from it,
    and the segments that arrived. -/
structure Peer where
  irs : UInt32
  accepted : Nat
  segments : List Tcp.Segment

def Peer.position (p : Peer) : UInt32 := p.irs + 1 + UInt32.ofNat p.accepted

/-- The peer's `FIN` has been heard, and it comes next. -/
def Peer.finished (p : Peer) : Bool := p.segments.any fun seg => seg.finAt == some p.position

/-- The numbers that may be acknowledged behind the initial one. -/
def Peer.received (p : Peer) : Nat := p.accepted + if p.finished then 1 else 0

structure Sound (p : Peer) (ack : UInt32) : Prop where
  number : ack = p.irs + 1 + UInt32.ofNat p.received
  covered : ∀ j < 1 + p.received, ∃ seg ∈ p.segments, seg.Covers (p.irs + UInt32.ofNat j)

/-- The segment of the connection that a move finds in a frame. -/
def Record.heard (r : Record) : Option (Connection × Tcp.Segment) :=
  match r.move, r.before.conn with
  | .pass (.frame bytes), some c => (c.heard (blit r.before.nicBuf 0 bytes) bytes.length).map fun seg => (c, seg)
  | _, _ => none

/-- What is known of the peer after a move. While the connection waits for its `SYN` the peer is a new one. -/
def Peer.next (p : Peer) (r : Record) : Peer :=
  match r.heard with
  | none => p
  | some (c, seg) =>
    if c.state = .synSent then { irs := seg.seq, accepted := 0, segments := [seg] }
    else { p with accepted := p.accepted + r.accepted.length, segments := p.segments ++ [seg] }

def peer (h : History) : Peer := h.foldl Peer.next { irs := 0, accepted := 0, segments := [] }

def Record.Acks (r : Record) (ok : UInt32 → Prop) : Prop :=
  ∀ frame ∈ r.frames, ∀ seg, Tcp.parseFrame frame staticIp = some seg → seg.has Tcp.flagAck → ok seg.ack

/-! ## What a move sends -/

section
variable {host : Host} {buf : Memory} {len : Nat}

private theorem parseFrame_of_answered {myMac : List UInt8} (six : myMac.length = 6) {cap : Nat} (fits : len ≤ cap) {reply : Nat × Memory}
    (answered : handleFrame buf cap len myMac staticIp = some reply) (ip : List UInt8) : Tcp.parseFrame (sent reply) ip = none := by
  obtain ⟨host, rfl, isIp⟩ : ∃ host : Host, host.mac = myMac ∧ host.ip = staticIp := ⟨⟨myMac, staticIp, six, rfl⟩, rfl, rfl⟩
  rw [← isIp] at answered
  rw [sent, Tcp.parseFrame_slice]
  rcases asked_of_handleFrame (Option.isSome_of_mem answered) with arp | echo
  · rw [handleFrame_arp arp fits, Option.some.injEq] at answered
    subst answered
    refine parseSegment_of_arp ?_ ip
    have first : slice (Proto.arpReply host buf) 12 2 = slice buf 12 2 := by
      have kind := congrArg (List.take 2) (answersArp_arpReply host buf).kind
      rwa [slice_take _ _ (by decide), slice_take _ _ (by decide)] at kind
    rw [(padToMinFrame_agree (Proto.arpReply host buf) 42).slice (by decide), first]
    exact arp.2.1
  · rw [handleFrame_echo echo fits, Option.some.injEq] at answered
    subst answered
    refine parseSegment_of_icmp ?_ ip
    have least := echo.2.2.2.2.1
    rw [padToMinFrame_agree (echoReply host buf) (14 + totalLen buf) 23 (by omega)]
    have protocol := (answersEcho_echoReply echo).protocol
    simp only [slice, List.range_one, List.map_cons, List.map_nil, List.cons.injEq, and_true] at protocol
    exact protocol.trans echo.2.2.1

private theorem parseFrame_arpRequest {myMac : List UInt8} (six : myMac.length = 6) {target : List UInt8} (four : target.length = 4)
    (ip : List UInt8) : Tcp.parseFrame (sent (buildArpRequest buf myMac staticIp target)) ip = none := by
  rw [sent, Tcp.parseFrame_slice]
  refine parseSegment_of_arp ?_ ip
  unfold buildArpRequest
  dsimp only
  rw [(padToMinFrame_agree _ (ethHeaderLen + arpLen)).slice (by decide)]
  simp (disch := simp [six, four, ethHeaderLen]) only [slice_blit_other, slice_fill_other]
  exact slice_blit_same _ 12 ethertypeArp

end

/-- The states in which a connection hears its peer and answers. -/
def Connection.Talking (c : Connection) : Prop := c.state = .established ∨ c.state = .finWait1 ∨ c.state = .finWait2

inductive Speaks (r : Record) : Prop where
  | quiet (silent : r.Acks fun _ => False) (none : r.accepted = [])
      (kept : ∀ c', r.after.conn = some c' → c'.Talking →
        ∃ c, r.before.conn = some c ∧ c.Talking ∧ c'.rcvNxt = c.rcvNxt)
      (missed : ∀ c seg c', r.heard = some (c, seg) → r.after.conn = some c' → c'.Talking →
        seg.has Tcp.flagFin = false ∨ c.state = .established ∧ seg.has Tcp.flagRst = false ∧ c.finished seg = false)
  | spoke {c c' : Connection} (here : r.before.conn = some c) (state : c.state = .established) (deaf : r.heard = .none)
      (acks : r.Acks (· = c.rcvNxt)) (there : r.after.conn = some c') (same : c'.rcvNxt = c.rcvNxt)
  | opened {c c' : Connection} {seg : Tcp.Segment} (heard : r.heard = some (c, seg)) (state : c.state = .synSent)
      (syn : seg.has Tcp.flagSyn = true) (acks : r.Acks (· = seg.seq + 1)) (there : r.after.conn = some c')
      (next : c'.rcvNxt = seg.seq + 1)
  | data {c c' : Connection} {seg : Tcp.Segment} (heard : r.heard = some (c, seg)) (state : c.state = .established)
      (alive : seg.has Tcp.flagRst = false)
      (unfinished : ¬(seg.has Tcp.flagFin = true ∧
        seg.seq + UInt32.ofNat seg.payload.length = c.rcvNxt + UInt32.ofNat r.accepted.length))
      (acks : r.Acks (· = c.rcvNxt + UInt32.ofNat r.accepted.length)) (there : r.after.conn = some c')
      (next : c'.rcvNxt = c.rcvNxt + UInt32.ofNat r.accepted.length)
  | fin {c c' : Connection} {seg : Tcp.Segment} (heard : r.heard = some (c, seg)) (state : c.state = .established)
      (alive : seg.has Tcp.flagRst = false) (fin : seg.has Tcp.flagFin = true)
      (turn : seg.seq + UInt32.ofNat seg.payload.length = c.rcvNxt + UInt32.ofNat r.accepted.length)
      (acks : r.Acks (· = c.rcvNxt + UInt32.ofNat r.accepted.length + 1)) (there : r.after.conn = some c')
      (last : c'.state = .lastAck)
  | closed {c : Connection} {seg : Tcp.Segment} (heard : r.heard = some (c, seg))
      (state : c.state = .finWait1 ∨ c.state = .finWait2) (fin : seg.has Tcp.flagFin = true) (none : r.accepted = [])
      (acks : r.Acks (· = seg.seq + 1)) (gone : r.after.conn = .none)

section
variable {myMac : List UInt8} {r : Record}

private theorem acks_of_no_frames (none : r.frames = []) (ok : UInt32 → Prop) : r.Acks ok := by
  intro frame member
  rw [none] at member
  cases member

variable {c : Connection} {mapped : Option Memory} {bytes : List UInt8} {m : RecvResult}

private theorem acks_of_segment (six : myMac.length = 6) (typed : c.Typed) {buf : Memory} {seq ack : UInt32} {flags : UInt8}
    {payload : List UInt8} (frames : r.frames = [sent (c.segment myMac buf seq ack flags payload)])
    (short : payload.length ≤ maxSegmentPayload) {ok : UInt32 → Prop} (fine : (flags &&& Tcp.flagAck != 0) = true → ok ack) : r.Acks ok := by
  intro frame member seg parsed acks
  rw [frames, List.mem_singleton] at member
  rw [member, typed.parse_segment six buf seq ack flags short, Option.some.injEq] at parsed
  subst parsed
  exact fine acks

private theorem frames_answer (s : Stack) (op : PendingOp) (w0 : UInt32) : (answer s op w0).2.filterMap Act.frame = [] := by
  unfold answer
  split <;> rfl

private theorem heard_of_frame (frame : r.move = .pass (.frame bytes)) (here : r.before.conn = some c) :
    r.heard = (c.heard (blit r.before.nicBuf 0 bytes) bytes.length).map fun seg => (c, seg) := by
  simp only [Record.heard, frame, here]

theorem Speaks.of_mute (silent : r.Acks fun _ => False) (none : r.accepted = [])
    (mute : ∀ c', r.after.conn = some c' → ¬c'.Talking) : Speaks r :=
  .quiet silent none (fun c' there talking => absurd talking (mute c' there))
    fun _ _ c' _ there talking => absurd talking (mute c' there)

theorem Speaks.of_gone (frames : r.frames = []) (none : r.accepted = []) (gone : r.after.conn = .none) : Speaks r := by
  refine .of_mute (acks_of_no_frames frames _) none fun c' there => ?_
  rw [gone] at there
  cases there

private theorem countDown_talk {s : Stack} (here : (countDown s).conn = some c) :
    ∃ c₀, s.conn = some c₀ ∧ c.state = c₀.state ∧ c.rcvNxt = c₀.rcvNxt := by
  obtain ⟨c₀, before, rfl⟩ := countDown_eq_some here
  exact ⟨c₀, before, rfl, rfl⟩

theorem Speaks.of_still (frames : r.frames = []) (none : r.accepted = []) (deaf : r.heard = .none)
    (still : ∀ c', r.after.conn = some c' → ∃ c, (countDown r.before).conn = some c ∧ c'.state = c.state ∧ c'.rcvNxt = c.rcvNxt) :
    Speaks r := by
  refine .quiet (acks_of_no_frames frames _) none (fun c' there talking => ?_) fun c seg _ heard => ?_
  · obtain ⟨c, here, state, next⟩ := still c' there
    obtain ⟨c₀, before, state₀, next₀⟩ := countDown_talk here
    refine ⟨c₀, before, ?_, next.trans next₀⟩
    unfold Connection.Talking at talking ⊢
    rwa [state, state₀] at talking
  · rw [deaf] at heard
    cases heard

section
variable {seg : Tcp.Segment} (frame : r.move = .pass (.frame bytes)) (here : (countDown r.before).conn = some c)
  (heard : c.heard (blit r.before.nicBuf 0 bytes) bytes.length = some seg)
include frame here heard

private theorem heard_now : ∃ c₀, r.heard = some (c₀, seg) ∧ c = { c₀ with attemptsLeft := c.attemptsLeft } := by
  obtain ⟨c₀, before, rfl⟩ := countDown_eq_some here
  refine ⟨c₀, ?_, rfl⟩
  rw [heard_of_frame frame before]
  exact congrArg (Option.map fun seg => (c₀, seg)) heard

private theorem speaks_of_data (six : myMac.length = 6) (typed : c.Typed) (state : c.state = .established) (alive : seg.has Tcp.flagRst = false)
    {buf : Memory} (frames : r.frames = [sent (acknowledgement myMac buf (store (countDown r.before) c seg).2
      ((store (countDown r.before) c seg).2.finished seg))])
    (there : r.after.conn = some (c.after (countDown r.before) seg)) : Speaks r := by
  have stored := (store_page here state heard alive).2.2
  have isAccepted : r.accepted = r.before.accepted bytes := by rw [Record.accepted, frame]
  rw [← isAccepted] at stored
  rw [Connection.after, stored] at there
  rw [stored] at frames
  obtain ⟨c₀, hears, isC⟩ := heard_now frame here heard
  have open' : c₀.state = .established := by
    rw [isC] at state
    exact state
  obtain ⟨c₁, isC₁⟩ : ∃ c₁, { c with rcvNxt := c.rcvNxt + UInt32.ofNat r.accepted.length } = c₁ := ⟨_, rfl⟩
  have known : c₁.Typed := isC₁ ▸ typed.of_eq rfl rfl
  have isNext : c₁.rcvNxt = c₀.rcvNxt + UInt32.ofNat r.accepted.length := by rw [← isC₁, isC]
  rw [isC₁] at there frames
  unfold Connection.ended at there
  unfold acknowledgement at frames
  cases fin : c₁.finished seg with
  | true =>
    rw [fin, if_pos rfl] at there frames
    simp only [Connection.finished, Bool.and_eq_true, beq_iff_eq, isNext] at fin
    exact .fin hears open' alive fin.1 fin.2
      (acks_of_segment six known frames (Nat.zero_le _) fun _ => by rw [isNext]) there rfl
  | false =>
    rw [fin, if_neg Bool.false_ne_true] at there frames
    refine .data hears open' alive (fun both => ?_)
      (acks_of_segment six known frames (Nat.zero_le _) fun _ => isNext) there isNext
    rw [Connection.finished, both.1, both.2, isNext, beq_self_eq_true] at fin
    cases fin

end

theorem Happens.speaks {s s' : Stack} {i : Input} {acts : List Act} (happens : Happens myMac s i s' acts) (six : myMac.length = 6)
    (typed : s.Typed) (short : ∀ bytes, i = .frame bytes → bytes.length ≤ nicMaxFrame) : Speaks ⟨s, .pass i, s', acts⟩ := by
  have counted := typed.countDown
  have answered (f : List UInt8) (op : PendingOp) (w0 : UInt32) :
      (Act.toNic f :: (answer (countDown s) op w0).2).filterMap Act.frame = [f] := by
    rw [List.filterMap_cons, frames_answer]
    rfl
  have hears {bytes : List UInt8} {c : Connection} {seg : Tcp.Segment} (frame : i = .frame bytes) (here : (countDown s).conn = some c)
      (heard : c.heard (blit s.nicBuf 0 bytes) bytes.length = some seg) :=
    heard_now (r := ⟨s, .pass i, s', acts⟩) (congrArg Move.pass frame) here heard
  cases happens with
  | timeout late => refine .of_gone ?_ rfl ?_ <;> cases op : s.pendingOp <;> simp [Record.frames, failPendingOp, op, Act.frame]
  | respond _ other ran ignores =>
    refine .quiet (fun f member seg parsed _ => ?_) (accepted_of_none rfl other) (fun c' there talking => ?_) fun c seg c' hears there talking => ?_
    · unfold Netstack.respond at ran
      split at ran
      · cases ran
        cases member
      · rename_i reply found
        cases ran
        rw [List.mem_singleton.mp (show f ∈ [sent reply] from member), parseFrame_of_answered six (short _ rfl) found] at parsed
        cases parsed
    · obtain ⟨c, before, rfl⟩ := countDown_eq_some there
      exact ⟨c, before, talking, rfl⟩
    · obtain ⟨c₀, before, rfl⟩ := countDown_eq_some there
      rw [heard_of_frame rfl before] at hears
      obtain ⟨seg', isSeg, same⟩ := Option.map_eq_some_iff.mp hears
      cases same
      obtain ⟨open', closing⟩ := ignores _ seg there isSeg
      exact talking.symm.imp closing fun state => ⟨state, open' state⟩
  | connect known op free request =>
    refine .of_mute (fun f member seg parsed => ?_) rfl ?_
    · rw [List.mem_singleton.mp (show f ∈ [_] from member), request, parseFrame_arpRequest six rfl] at parsed
      cases parsed
    · rintro c' ⟨⟩
      simp [Connection.Talking, opening]
  | send known op here state segment =>
    obtain ⟨c₀, before, same, next⟩ := countDown_talk here
    refine .spoke before (same ▸ state) rfl (acks_of_segment six (counted _ here) (by rw [← segment]; rfl) ?_ fun _ => next) rfl next
    rw [length_slice]
    exact sendable_le_payload _
  | recvLater known op empty here going =>
    refine .of_still rfl rfl rfl ?_
    rintro c' ⟨⟩
    exact ⟨_, here, rfl, rfl⟩
  | close known op here state segment =>
    obtain ⟨c₀, before, same, next⟩ := countDown_talk here
    exact .spoke before (same ▸ state) rfl (acks_of_segment six (counted _ here) (by rw [← segment]; rfl) (Nat.zero_le _) fun _ => next)
      rfl next
  | drop known op why => exact .of_gone rfl rfl rfl
  | @resolved _ mac c _ _ here state length segment =>
    refine .of_mute ?_ (accepted_of_none rfl (accepts_of_state here (by simp [state]))) ?_
    · have known : { c with peerMac := mac }.Typed := ⟨(counted _ here).ip, length⟩
      exact acks_of_segment six known (by rw [← segment]; rfl) (Nat.zero_le _) (by decide)
    · rintro c' ⟨⟩
      simp [Connection.Talking]
  | rejected here state =>
    exact .of_gone (frames_answer _ _ _) (accepted_of_none rfl (accepts_of_state here (by simp [state]))) rfl
  | opened here state heard syn segment =>
    obtain ⟨c₀, now, isC⟩ := hears rfl here heard
    refine .opened now (by rw [isC] at state; exact state) syn ?_ rfl rfl
    exact acks_of_segment six (counted _ here) (by rw [← segment]; exact answered ..) (Nat.zero_le _) fun _ => rfl
  | reset here state other =>
    refine .of_gone ?_ (accepted_of_none rfl other) rfl
    unfold onReset
    cases (countDown s).pendingOp <;> simp [Record.frames, Act.frame]
  | data here state heard alive next waiting segment =>
    exact speaks_of_data rfl here heard six (counted _ here) state alive (by rw [← segment]; rfl) rfl
  | dataReply here state heard alive next waiting segment =>
    exact speaks_of_data rfl here heard six (counted _ here) state alive (by rw [← segment]; rfl) rfl
  | lastAcked here state =>
    exact .of_gone (frames_answer _ _ _) (accepted_of_none rfl (accepts_of_state here (by simp [state]))) rfl
  | @finished _ c _ _ _ here state heard fin segment =>
    obtain ⟨c₀, now, isC⟩ := hears rfl here heard
    have other : c.state ≠ .established := by
      rcases state with state | state <;> rw [state] <;> decide
    refine .closed now (by rw [isC] at state; exact state) fin (accepted_of_none rfl (accepts_of_state here other)) ?_ rfl
    exact acks_of_segment six (counted _ here) (by rw [← segment]; exact answered ..) (Nat.zero_le _) fun _ => rfl
  | acknowledged here state heard other =>
    obtain ⟨c₀, before, rfl⟩ := countDown_eq_some here
    obtain ⟨c₁, now, -⟩ := hears rfl here heard
    refine .quiet (acks_of_no_frames rfl _) (accepted_of_none rfl (accepts_of_state here (by rw [state]; decide))) ?_ fun _ _ _ again _ _ =>
      .inl ?_
    · rintro c' ⟨⟩ _
      exact ⟨c₀, before, .inr (.inl state), rfl⟩
    · rw [now] at again
      cases again
      exact Bool.eq_false_of_not_eq_true other
  | _ => exact .of_still rfl rfl rfl fun c' there => ⟨c', there, rfl, rfl⟩

private theorem perform_speaks (six : myMac.length = 6) (typed : r.before.Typed)
    (moved : perform myMac r.before r.move = some (r.after, r.acts)) : Speaks r := by
  obtain ⟨s, m, s', acts⟩ := r
  have short : ∀ bytes, m = .pass (.frame bytes) → bytes.length ≤ nicMaxFrame := by
    rintro bytes rfl
    simp only [perform, iterate, Option.ite_none_left_eq_some, not_or] at moved
    omega
  rcases perform_cases (s := s) (m := m) moved with ⟨i, rfl, happens⟩ | ⟨still, rfl, page, rfl⟩
  · exact happens.speaks six typed fun bytes isFrame => short bytes (by rw [isFrame])
  · have deaf : Record.heard ⟨s, m, { s with clientBuf := page }, []⟩ = none := by
      cases m with
      | pass i => exact absurd rfl (still i)
      | _ => rfl
    have none : Record.accepted ⟨s, m, { s with clientBuf := page }, []⟩ = [] := by
      cases m with
      | pass i => exact absurd rfl (still i)
      | _ => rfl
    refine .quiet (acks_of_no_frames rfl _) none (fun c' there talking => ⟨c', there, talking, rfl⟩) fun _ _ _ heard => ?_
    rw [deaf] at heard
    cases heard

end

/-! ## Segments in turn -/

/-- When the segment that a connection hears is acknowledged as it should be: `p` is the peer before it and `q` with it. A
    `SYN` is not followed at once by a `FIN`; an open connection does not come to a `FIN` that it heard before; and a
    closing one gets a `FIN` when it is next, without data. -/
def InTurn (p q : Peer) (c : Connection) (seg : Tcp.Segment) : Prop :=
  (c.state = .synSent → seg.has Tcp.flagFin = true → seg.payload ≠ []) ∧
    (c.state = .established → seg.has Tcp.flagRst = false →
      (seg.has Tcp.flagFin = true → seg.has Tcp.flagSyn = false) ∧
        (seg.finAt = some q.position ∨ ∀ earlier ∈ p.segments, earlier.finAt ≠ some q.position)) ∧
    (c.state = .finWait1 ∨ c.state = .finWait2 → seg.has Tcp.flagFin = true →
      seg.has Tcp.flagSyn = false ∧ seg.payload = [] ∧ seg.seq = c.rcvNxt)

def Record.InTurn (r : Record) (p : Peer) : Prop := ∀ e ∈ r.heard, Netstack.InTurn p (p.next r) e.1 e.2

instance (p q : Peer) (c : Connection) (seg : Tcp.Segment) : Decidable (InTurn p q c seg) :=
  inferInstanceAs (Decidable ((_ → _ → _) ∧ (_ → _ → _ ∧ _) ∧ (_ → _ → _)))

instance (r : Record) (p : Peer) : Decidable (r.InTurn p) := inferInstanceAs (Decidable (∀ e ∈ r.heard, _))

structure Tracks (p : Peer) (c : Connection) : Prop where
  next : c.rcvNxt = p.position
  clear : p.finished = false
  covered : ∀ j < 1 + p.accepted, ∃ seg ∈ p.segments, seg.Covers (p.irs + UInt32.ofNat j)

section
variable {r : Record} {p : Peer} {c : Connection} {seg : Tcp.Segment}

private theorem finAt_eq_some {position : UInt32} :
    seg.finAt = some position ↔ seg.has Tcp.flagFin = true ∧ seg.seq + UInt32.ofNat seg.finOffset = position := by
  simp [Tcp.Segment.finAt]

private theorem finOffset_eq (plain : seg.has Tcp.flagSyn = false) : seg.finOffset = seg.payload.length := by
  simp [Tcp.Segment.finOffset, plain]

private theorem finished_eq_false : p.finished = false ↔ ∀ seg ∈ p.segments, seg.finAt ≠ some p.position := by
  simp [Peer.finished]

theorem Tracks.sound (tracks : Tracks p c) : Sound p c.rcvNxt := by
  have received : p.received = p.accepted := by simp [Peer.received, tracks.clear]
  refine ⟨?_, ?_⟩
  · rw [received]
    exact tracks.next
  · rw [received]
    exact tracks.covered

private theorem conn_of_heard (heard : r.heard = some (c, seg)) : ∃ bytes, r.move = .pass (.frame bytes) ∧ r.before.conn = some c ∧
    c.heard (blit r.before.nicBuf 0 bytes) bytes.length = some seg := by
  unfold Record.heard at heard
  split at heard
  · rename_i bytes c₀ isFrame here
    obtain ⟨seg₀, isSeg, same⟩ := Option.map_eq_some_iff.mp heard
    cases same
    exact ⟨bytes, isFrame, here, isSeg⟩
  · cases heard

theorem Record.InTurn.of_heard (turn : r.InTurn p) (heard : r.heard = some (c, seg)) : Netstack.InTurn p (p.next r) c seg :=
  turn (c, seg) heard

private theorem accepted_of_heard (heard : r.heard = some (c, seg)) :
    r.accepted = [] ∨ seg.seq = c.rcvNxt ∧ r.accepted.length ≤ seg.payload.length := by
  obtain ⟨bytes, isFrame, here, isSeg⟩ := conn_of_heard heard
  simp only [Record.accepted, isFrame, Stack.accepted, Stack.accepts, here, isSeg, Option.filter_some]
  split
  · rename_i seg' accepts
    simp only [Option.ite_none_right_eq_some, Option.some.injEq, Bool.and_eq_true] at accepts
    obtain ⟨-, ⟨-, inOrder⟩, rfl⟩ := accepts
    simp only [Connection.inOrder, Bool.and_eq_true, beq_iff_eq] at inOrder
    exact .inr ⟨inOrder.2, by simp⟩
  · exact .inl rfl

private theorem next_of_heard (heard : r.heard = some (c, seg)) (state : c.state ≠ .synSent) :
    p.next r = { p with accepted := p.accepted + r.accepted.length, segments := p.segments ++ [seg] } := by
  simp only [Peer.next, heard, if_neg state]

private theorem next_of_deaf (deaf : r.heard = none) : p.next r = p := by
  simp only [Peer.next, deaf]

private theorem position_next (heard : r.heard = some (c, seg)) (state : c.state ≠ .synSent) :
    (p.next r).position = p.position + UInt32.ofNat r.accepted.length := by
  rw [next_of_heard heard state]
  simp only [Peer.position, UInt32.ofNat_add, UInt32.add_assoc]

theorem Tracks.covered_next (tracks : Tracks p c) (heard : r.heard = some (c, seg)) (state : c.state ≠ .synSent) :
    ∀ j < 1 + (p.next r).accepted, ∃ seg ∈ (p.next r).segments, seg.Covers ((p.next r).irs + UInt32.ofNat j) := by
  rw [next_of_heard heard state]
  intro j less
  dsimp only at less ⊢
  by_cases old : j < 1 + p.accepted
  · obtain ⟨seg', member, covers⟩ := tracks.covered j old
    exact ⟨seg', List.mem_append_left _ member, covers⟩
  · refine ⟨seg, List.mem_append_right _ (List.mem_singleton_self seg), ?_⟩
    rcases accepted_of_heard heard with none | ⟨isSeq, fits⟩
    · rw [none, List.length_nil] at less
      omega
    · obtain ⟨i, rfl⟩ := Nat.exists_eq_add_of_le (Nat.le_of_not_lt old)
      refine ⟨i, ?_, ?_⟩
      · unfold Tcp.Segment.span Tcp.Segment.finOffset
        omega
      · rw [isSeq, tracks.next, Peer.position]
        simp only [UInt32.ofNat_add, UInt32.add_assoc]
        rfl

theorem Tracks.further {c' : Connection} (tracks : Tracks p c) (heard : r.heard = some (c, seg)) (state : c.state ≠ .synSent)
    (next : c'.rcvNxt = c.rcvNxt + UInt32.ofNat r.accepted.length)
    (old : ∀ earlier ∈ p.segments, earlier.finAt ≠ some (c.rcvNxt + UInt32.ofNat r.accepted.length))
    (new : seg.finAt ≠ some (c.rcvNxt + UInt32.ofNat r.accepted.length)) : Tracks (p.next r) c' := by
  have position := position_next (p := p) heard state
  rw [← tracks.next] at position
  refine ⟨next.trans position.symm, ?_, tracks.covered_next heard state⟩
  rw [finished_eq_false, position, next_of_heard heard state]
  intro seg' member
  rcases List.mem_append.mp member with member | member
  · exact old seg' member
  · rw [List.mem_singleton.mp member]
    exact new

theorem Tracks.sound_fin (tracks : Tracks p c) (heard : r.heard = some (c, seg)) (state : c.state ≠ .synSent)
    (fin : seg.has Tcp.flagFin = true) (plain : seg.has Tcp.flagSyn = false)
    (turn : seg.seq + UInt32.ofNat seg.payload.length = c.rcvNxt + UInt32.ofNat r.accepted.length) :
    Sound (p.next r) (c.rcvNxt + UInt32.ofNat r.accepted.length + 1) := by
  have position := position_next (p := p) heard state
  rw [← tracks.next] at position
  have isNext := next_of_heard (p := p) heard state
  have member : seg ∈ (p.next r).segments := by simp [isNext]
  have offset := finOffset_eq plain
  have finished : (p.next r).finished = true := by
    refine List.any_eq_true.mpr ⟨seg, member, ?_⟩
    rw [beq_iff_eq, finAt_eq_some, offset, position]
    exact ⟨fin, turn⟩
  have received : (p.next r).received = (p.next r).accepted + 1 := by simp [Peer.received, finished]
  refine ⟨?_, fun j less => ?_⟩
  · rw [received, ← position, UInt32.ofNat_add, ← UInt32.add_assoc]
    rfl
  rw [received] at less
  by_cases old : j < 1 + (p.next r).accepted
  · exact tracks.covered_next heard state j old
  · obtain rfl : j = 1 + (p.next r).accepted := by omega
    refine ⟨seg, member, seg.payload.length, ?_, ?_⟩
    · simp [Tcp.Segment.span, offset, fin]
    · rw [turn, ← position, Peer.position, UInt32.ofNat_add, ← UInt32.add_assoc]
      rfl

private theorem payload_length_lt (heard : r.heard = some (c, seg)) : seg.payload.length < 2 ^ 32 - 1 := by
  obtain ⟨bytes, -, -, isSeg⟩ := conn_of_heard heard
  obtain ⟨parsed, -⟩ := Option.filter_eq_some_iff.mp isSeg
  have small := (fromBe16 (blit r.before.nicBuf 0 bytes) 16).toNat_lt
  rw [(Tcp.parseSegment_framed parsed).2, length_slice]
  unfold totalLen
  omega

private theorem tracks_opened {c' : Connection} (heard : r.heard = some (c, seg)) (state : c.state = .synSent)
    (syn : seg.has Tcp.flagSyn = true) (next : c'.rcvNxt = seg.seq + 1)
    (turn : seg.has Tcp.flagFin = true → seg.payload ≠ []) : Tracks (p.next r) c' := by
  have isNext : p.next r = { irs := seg.seq, accepted := 0, segments := [seg] } := by simp only [Peer.next, heard, if_pos state]
  rw [isNext]
  refine ⟨?_, ?_, fun j less => ⟨seg, List.mem_singleton_self seg, j, ?_, rfl⟩⟩
  · rw [next, Peer.position]
    exact (UInt32.add_zero _).symm
  · rw [finished_eq_false]
    intro seg' member isFin
    rw [List.mem_singleton.mp member, finAt_eq_some] at isFin
    have some : 0 < seg.payload.length := List.length_pos_of_ne_nil (turn isFin.1)
    have small := payload_length_lt heard
    have far := congrArg UInt32.toNat ((UInt32.add_right_inj seg.seq).mp (isFin.2.trans (UInt32.add_assoc _ _ _)))
    simp only [Tcp.Segment.finOffset, syn, if_true, UInt32.toNat_ofNat', UInt32.toNat_add] at far
    simp at far
    omega
  · have zero : j = 0 := by simpa using less
    simp only [zero, Tcp.Segment.span, Tcp.Segment.finOffset, syn, if_true]
    omega

theorem Record.Acks.sound {ack : UInt32} (acks : r.Acks (· = ack)) (sound : Sound p ack) : r.Acks (Sound p) := by
  intro frame member seg parsed isAck
  rw [acks frame member seg parsed isAck]
  exact sound

theorem Tracks.only {c' : Connection} (tracks : Tracks p c') (there : r.after.conn = some c') :
    ∀ c, r.after.conn = some c → c.Talking → Tracks p c := by
  intro c also _
  rw [there, Option.some.injEq] at also
  exact also ▸ tracks

/-- What a move says is sound, and the connection keeps track of its peer. -/
theorem Speaks.sound (speaks : Speaks r) (tracks : ∀ c, r.before.conn = some c → c.Talking → Tracks p c) (turn : r.InTurn p) :
    r.Acks (Sound (p.next r)) ∧ ∀ c', r.after.conn = some c' → c'.Talking → Tracks (p.next r) c' := by
  cases speaks with
  | quiet silent none kept missed =>
    refine ⟨fun frame member seg parsed acks => (silent frame member seg parsed acks).elim, fun c' there talking => ?_⟩
    obtain ⟨c, here, before, next⟩ := kept c' there talking
    have known := tracks c here before
    cases heard : r.heard with
    | none =>
      rw [next_of_deaf heard]
      exact ⟨next.trans known.next, known.clear, known.covered⟩
    | some e =>
      obtain ⟨c₀, seg⟩ := e
      obtain ⟨-, -, here₀, -⟩ := conn_of_heard heard
      rw [here, Option.some.injEq] at here₀
      subst here₀
      have state : c.state ≠ .synSent := by
        rcases before with state | state | state <;> simp [state]
      have still : c.rcvNxt + UInt32.ofNat r.accepted.length = c.rcvNxt := by simp [none]
      refine known.further heard state (next.trans still.symm) ?_ ?_ <;> rw [still, known.next]
      · exact finished_eq_false.mp known.clear
      · intro isFin
        rw [finAt_eq_some] at isFin
        rcases missed c seg c' heard there talking with other | ⟨established, alive, unfinished⟩
        · rw [isFin.1] at other
          cases other
        · have plain := ((turn.of_heard heard).2.1 established alive).1 isFin.1
          rw [finOffset_eq plain, ← known.next] at isFin
          rw [Connection.finished, isFin.1, isFin.2, beq_self_eq_true] at unfinished
          cases unfinished
  | @spoke c c' here state deaf acks there same =>
    have known := tracks c here (.inl state)
    rw [next_of_deaf deaf]
    exact ⟨acks.sound known.sound, Tracks.only ⟨same.trans known.next, known.clear, known.covered⟩ there⟩
  | @opened c c' seg heard state syn acks there next =>
    have known : Tracks (p.next r) c' := tracks_opened heard state syn next ((turn.of_heard heard).1 state)
    exact ⟨acks.sound (next ▸ known.sound), known.only there⟩
  | @data c c' seg heard state alive unfinished acks there next =>
    obtain ⟨-, -, here, -⟩ := conn_of_heard heard
    have known := tracks c here (.inl state)
    have other : c.state ≠ .synSent := by simp [state]
    obtain ⟨plain, reached⟩ := (turn.of_heard heard).2.1 state alive
    have missed : seg.finAt ≠ some (c.rcvNxt + UInt32.ofNat r.accepted.length) := by
      intro isFin
      rw [finAt_eq_some] at isFin
      rw [finOffset_eq (plain isFin.1)] at isFin
      exact unfinished isFin
    have position := position_next (p := p) heard other
    rw [← known.next] at position
    rw [position] at reached
    have further : Tracks (p.next r) c' := known.further heard other next (reached.resolve_left missed) missed
    exact ⟨acks.sound (next ▸ further.sound), further.only there⟩
  | @fin c c' seg heard state alive fin inTurn acks there last =>
    obtain ⟨-, -, here, -⟩ := conn_of_heard heard
    have plain := ((turn.of_heard heard).2.1 state alive).1 fin
    have sound := (tracks c here (.inl state)).sound_fin heard (by simp [state]) fin plain inTurn
    refine ⟨acks.sound sound, fun c'' there' talking => ?_⟩
    rw [there, Option.some.injEq] at there'
    subst there'
    simp [Connection.Talking, last] at talking
  | @closed c seg heard state fin none acks gone =>
    obtain ⟨-, -, here, -⟩ := conn_of_heard heard
    obtain ⟨plain, empty, isNext⟩ := (turn.of_heard heard).2.2 state fin
    have still : c.rcvNxt + UInt32.ofNat r.accepted.length = seg.seq := by simp [none, isNext]
    have sound := (tracks c here (.inr state)).sound_fin heard (by rcases state with state | state <;> simp [state]) fin plain
      (by simp [none, empty, isNext])
    rw [still] at sound
    refine ⟨acks.sound sound, fun c'' there' _ => ?_⟩
    rw [gone] at there'
    cases there'

end

private theorem peer_append (h : History) (r : Record) : peer (h ++ [r]) = (peer h).next r := by
  simp only [peer, List.foldl_append, List.foldl_cons, List.foldl_nil]

def PeerInTurn (h : History) : Prop := ∀ pre r post, h = pre ++ r :: post → r.InTurn (peer pre)

/-- Every acknowledgement of the history is sound when it is sent. -/
def AcksSound (h : History) : Prop := ∀ pre r post, h = pre ++ r :: post → r.Acks (Sound (peer (pre ++ [r])))

section
variable {myMac : List UInt8} {nicBuf clientBuf : Memory} {h : History} {s : Stack}

theorem Runs.tracks (six : myMac.length = 6) (run : Runs myMac (Stack.init nicBuf clientBuf) h s) (turns : PeerInTurn h) :
    ∀ c, s.conn = some c → c.Talking → Tracks (peer h) c := by
  induction run with
  | start =>
    intro c here
    cases here
  | @move h s s' m acts earlier moved before =>
    rw [peer_append]
    obtain ⟨turns, last⟩ := forall_moves_append.mp turns
    have speaks : Speaks ⟨s, m, s', acts⟩ := perform_speaks six (earlier.typed (Stack.Typed.init nicBuf clientBuf)) moved
    exact (speaks.sound (before turns) last).2

/-- In every run whose segments come in turn, every acknowledgement is sound. -/
theorem acks_sound_in_turn (six : myMac.length = 6) (run : Runs myMac (Stack.init nicBuf clientBuf) h s)
    (turns : PeerInTurn h) : AcksSound h := by
  rintro pre r post rfl
  rw [List.append_cons] at run
  obtain ⟨s', upTo⟩ := run.prefixed
  obtain ⟨earlier, moved, -⟩ := upTo.earlier
  have before : PeerInTurn pre := by
    rintro first r' rest rfl
    exact turns first r' (rest ++ r :: post) (by simp)
  have speaks := perform_speaks six (earlier.typed (Stack.Typed.init nicBuf clientBuf)) moved
  rw [peer_append]
  exact (speaks.sound (earlier.tracks six before) (turns pre r post rfl)).1

end

def Record.acknowledges (r : Record) (ack : UInt32) : Bool :=
  r.frames.any fun frame => (Tcp.parseFrame frame staticIp).any fun seg => seg.has Tcp.flagAck && seg.ack == ack

/-- The peer sends three bytes, the client closes, and so does the peer, with a `FIN` at `seq`. -/
def closing (seq : UInt32) : List Move :=
  connecting ++ [arriving, request tcpOpClose 0 0,
    .pass (.frame (fromPeer seq (initialSeq + 2) (Tcp.flagFin ||| Tcp.flagAck) []))]

/-- The `FIN` is next. -/
theorem closing_in_turn : ∃ h s, Runs [2, 0, 0, 0, 0, 9] (Stack.init (fun _ => 0) (fun _ => 0)) h s ∧ PeerInTurn h ∧
    (∃ r ∈ h, r.acknowledges 1005) ∧ AcksSound h := by
  have played : (play [2, 0, 0, 0, 0, 9] (Stack.init (fun _ => 0) (fun _ => 0)) (closing 1004)).any (fun done =>
      everyMove (fun pre r => decide (r.InTurn (peer pre))) done.1 && done.1.any fun r => r.acknowledges 1005) = true := by
    decide +kernel
  obtain ⟨done, ended, seen⟩ := (Option.any_eq_true _ _).mp played
  rw [Bool.and_eq_true, List.any_eq_true] at seen
  have turns : PeerInTurn done.1 := fun pre r post whole => of_decide_eq_true (everyMove_sound seen.1 pre r post whole)
  exact ⟨_, _, play_runs ended, turns, seen.2, acks_sound_in_turn rfl (play_runs ended) turns⟩

/-- The `FIN` comes before data that are still on their way, and all of them are acknowledged. -/
theorem early_fin_acknowledged : ∃ h s, Runs [2, 0, 0, 0, 0, 9] (Stack.init (fun _ => 0) (fun _ => 0)) h s ∧ ¬AcksSound h := by
  have played : (play [2, 0, 0, 0, 0, 9] (Stack.init (fun _ => 0) (fun _ => 0)) (closing 5000)).any (fun done =>
      done.1.getLast?.any (fun r => r.acknowledges 5001) && (peer done.1).irs == 1000 && (peer done.1).accepted == 3) = true := by
    decide +kernel
  obtain ⟨⟨h, s⟩, ended, seen⟩ := (Option.any_eq_true _ _).mp played
  refine ⟨h, s, play_runs ended, fun sound => ?_⟩
  simp only [Bool.and_eq_true, beq_iff_eq, Option.any_eq_true] at seen
  obtain ⟨⟨⟨r, last, acknowledges⟩, irs⟩, accepted⟩ := seen
  obtain ⟨pre, rfl⟩ := List.getLast?_eq_some_iff.mp last
  simp only [Record.acknowledges, List.any_eq_true, Option.any_eq_true, Bool.and_eq_true, beq_iff_eq] at acknowledges
  obtain ⟨frame, member, seg, parsed, isAck, ack⟩ := acknowledges
  have number := (sound pre r [] rfl frame member seg parsed isAck).number
  rw [ack, irs, Peer.received, accepted] at number
  split at number <;> exact absurd number (by decide)

end Netstack
end Pcern

import Pcern.SharedPage

/-!
What `netstack` puts on the wire besides acknowledgements: the replies of the ARP and ping responder, which no connection
disturbs, and the data of a `TCP_OP_SEND`.
-/
namespace Pcern

namespace Netstack
open Bytes Libpcern Proto

/-! ## The responder -/

section
variable {host : Host} {buf : Memory} {len : Nat}

private theorem parseArpReply_of_asked (asked : IsArpRequest host buf len ∨ IsEchoRequest host buf len) (targetIp : List UInt8) :
    parseArpReply buf len targetIp = none := by
  unfold parseArpReply
  simp only [ethHeaderLen, arpLen, Nat.reduceAdd]
  rcases asked with ⟨-, -, -, -, -, -, op, -⟩ | ⟨isIpv4, -⟩
  · rw [op, if_pos (show arpOpRequest ≠ arpOpReply by decide)]
    simp only [ite_self]
  · rw [isIpv4, if_pos (show ethertypeIpv4 ≠ ethertypeArp by decide)]
    exact ite_self _

theorem parseSegment_of_arp (isArp : slice buf 12 2 = ethertypeArp) (ip : List UInt8) : Tcp.parseSegment buf len ip = none := by
  unfold Tcp.parseSegment
  simp only [isArp, if_pos (show ethertypeArp ≠ ethertypeIpv4 by decide)]
  exact ite_self _

theorem parseSegment_of_icmp (isIcmp : buf 23 = ipv4ProtoIcmp) (ip : List UInt8) : Tcp.parseSegment buf len ip = none := by
  unfold Tcp.parseSegment
  simp only [ethHeaderLen, Nat.reduceAdd]
  rw [isIcmp, if_pos (show ipv4ProtoIcmp ≠ Tcp.ipProtoTcp by decide)]
  simp only [ite_self]

private theorem parseSegment_of_asked (asked : IsArpRequest host buf len ∨ IsEchoRequest host buf len) (peerIp : List UInt8) :
    Tcp.parseSegment buf len peerIp = none := by
  rcases asked with ⟨-, isArp, -⟩ | ⟨-, -, proto, -⟩
  · exact parseSegment_of_arp isArp peerIp
  · exact parseSegment_of_icmp proto peerIp

private theorem heard_of_asked (asked : IsArpRequest host buf len ∨ IsEchoRequest host buf len) (c : Connection) : c.heard buf len = none := by
  rw [Connection.heard, parseSegment_of_asked asked]
  rfl

private theorem advanceConnection_of_asked {s : Stack} (asked : IsArpRequest host s.nicBuf len ∨ IsEchoRequest host s.nicBuf len)
    (myMac : List UInt8) (c : Connection) : advanceConnection myMac s c len = .none s c := by
  unfold advanceConnection
  by_cases waiting : c.state = .arpPending
  · rw [if_pos waiting, onArpPending, parseArpReply_of_asked asked]
  · rw [if_neg waiting, heard_of_asked asked]

end

private theorem handleNicFrame_of_asked {host : Host} {s : Stack} {len : Nat}
    (asked : IsArpRequest host s.nicBuf len ∨ IsEchoRequest host s.nicBuf len) (myMac : List UInt8) :
    handleNicFrame myMac s len = respond myMac s len := by
  unfold handleNicFrame
  cases here : s.conn with
  | none => rfl
  | some c =>
    dsimp only
    rw [advanceConnection_of_asked asked]
    show respond myMac { s with conn := some c } len = respond myMac s len
    rw [← here]

/--
The responder does not depend on TCP: whatever connection there is and whatever is pending, a frame that it answers with no
connection open is answered with the same reply, and nothing but the driver's buffer changes.
-/
theorem responder_independent {myMac : List UInt8} (six : myMac.length = 6) (s : Stack) (len : Nat) {reply : Nat × Memory}
    (answered : handleFrame s.nicBuf nicMaxFrame len myMac staticIp = some reply) :
    handleNicFrame myMac { s with conn := none } len = ({ s with conn := none, nicBuf := reply.2 }, [.toNic (sent reply)]) ∧
      handleNicFrame myMac s len = ({ s with nicBuf := reply.2 }, [.toNic (sent reply)]) := by
  obtain ⟨host, rfl, isIp⟩ : ∃ host : Host, host.mac = myMac ∧ host.ip = staticIp := ⟨⟨myMac, staticIp, six, rfl⟩, rfl, rfl⟩
  rw [← isIp] at answered
  have asked := asked_of_handleFrame (Option.isSome_of_mem answered)
  rw [isIp] at answered
  constructor
  · rw [handleNicFrame_of_asked (s := { s with conn := none }) asked, respond, answered]
    rfl
  · rw [handleNicFrame_of_asked asked, respond, answered]
    rfl

/-- While a connection waits for an ARP reply, a ping is answered. -/
theorem ping_answered_while_connecting :
    ∃ reply, handleFrame (blit ping 30 staticIp) nicMaxFrame 42 [2, 0, 0, 0, 0, 9] staticIp = some reply ∧
      (handleNicFrame [2, 0, 0, 0, 0, 9]
        { Stack.init (blit ping 30 staticIp) (fun _ => 0) with
          conn := some (opening ⟨9, tcpOpConnect, 0, 80, 0⟩), pendingOp := .connect } 42).2 = [.toNic (sent reply)] := by
  have asks : IsEchoRequest ⟨[2, 0, 0, 0, 0, 9], staticIp, rfl, rfl⟩ (blit ping 30 staticIp) 42 := by
    unfold IsEchoRequest
    decide +kernel
  have answered := handleFrame_echo asks (show 42 ≤ nicMaxFrame by decide)
  exact ⟨_, answered, congrArg Prod.snd (responder_independent rfl _ 42 answered).2⟩

/-! ## The data of a `TCP_OP_SEND` -/

/-- The request of a move that takes a `TCP_OP_SEND`. -/
def Move.sendRequest : Move → Option RecvResult
  | .pass (.message m _) => if m.w0 = tcpOpSend then some m else none
  | _ => none

/-- The number the next byte of the connection gets. -/
def Stack.sndNxt (s : Stack) : Option UInt32 := s.conn.map Connection.sndNxt

/-- A `TCP_OP_SEND` is answered with the truth; `driver` is the driver's answer to the frame. -/
structure Truthful (r : Record) (driver : UInt32) : Prop where
  accepted : ∀ slot n, r.move.sendRequest.isSome → .reply slot n ∈ r.acts → 0 < n → driver = 1 ∧
    ∃ frame seg, r.frames = [frame] ∧ Tcp.parseFrame frame staticIp = some seg ∧ r.before.sndNxt = some seg.seq ∧
      seg.payload = slice r.before.clientBuf 0 n.toNat ∧ r.after.sndNxt = some (seg.seq + n)
  failed : r.move.sendRequest.isSome → r.frames ≠ [] → driver ≠ 1 →
    (∀ slot n, .reply slot n ∈ r.acts → n = 0) ∧ r.after.sndNxt = r.before.sndNxt

/-- A `TCP_OP_SEND` that has data to put on the wire. -/
def Record.SendsData (r : Record) : Prop :=
  r.before.clientReply ≠ 0 ∧ r.before.clientBufMapped = true ∧ (∃ c, r.before.conn = some c ∧ c.state = .established) ∧
    ∃ m, r.move.sendRequest = some m ∧ 0 < sendable m.w1

inductive SendStep (myMac : List UInt8) (r : Record) (m : RecvResult) : Prop where
  | refused (quiet : r.frames = []) (zero : ∀ slot n, .reply slot n ∈ r.acts → n = 0) (same : r.after.sndNxt = r.before.sndNxt)
      (idle : ¬r.SendsData)
  | sent {c c' : Connection} (here : r.before.conn = some c) (state : c.state = .established)
      (known : r.before.clientReply ≠ 0) (mapped : r.before.clientBufMapped = true)
      (acts : r.acts = [.toNic (Proto.sent (c.segment myMac r.before.nicBuf c.sndNxt c.rcvNxt (Tcp.flagPsh ||| Tcp.flagAck)
        (slice r.before.clientBuf 0 (sendable m.w1)))), .reply r.before.clientReply (UInt32.ofNat (sendable m.w1))])
      (there : r.after.conn = some c') (next : c'.sndNxt = c.sndNxt + UInt32.ofNat (sendable m.w1))

section
variable {myMac : List UInt8} {r : Record}

private theorem sendRequest_eq_some {m : RecvResult} (request : r.move.sendRequest = some m) :
    ∃ mapped, r.move = .pass (.message m mapped) ∧ m.w0 = tcpOpSend := by
  unfold Move.sendRequest at request
  split at request
  · rename_i m' mapped isMove
    split_ifs at request with op
    cases request
    exact ⟨mapped, isMove, op⟩
  · cases request

private theorem perform_sendStep (moved : perform myMac r.before r.move = some (r.after, r.acts)) {m : RecvResult}
    (request : r.move.sendRequest = some m) : SendStep myMac r m := by
  obtain ⟨mapped, isMove, op⟩ := sendRequest_eq_some request
  rw [isMove] at moved
  simp only [perform, iterate, Option.ite_none_left_eq_some, Option.some.injEq] at moved
  obtain ⟨-, ran⟩ := moved
  rw [handleClientMessage, op, if_neg (by decide), if_neg (by decide), if_neg (by decide), if_pos rfl, send,
    countDown_clientReply] at ran
  have counted : (countDown r.before).sndNxt = r.before.sndNxt := by
    unfold countDown
    split
    · rfl
    · simp only [Stack.sndNxt, Option.map_map]
      rfl
  by_cases unknown : r.before.clientReply = 0
  · rw [if_pos unknown, Prod.mk.injEq] at ran
    obtain ⟨after, acts⟩ := ran
    refine .refused ?_ ?_ (by rw [← after, counted]) fun sends => sends.1 unknown
    · rw [Record.frames, ← acts]
      rfl
    · rw [← acts]
      intro _ _ member
      cases member
  rw [if_neg unknown] at ran
  -- a request that cannot be served is answered with 0
  have refused (idle : ¬r.SendsData) (same : (countDown r.before, [Act.reply r.before.clientReply 0]) = (r.after, r.acts)) :
      SendStep myMac r m := by
    rw [Prod.mk.injEq] at same
    obtain ⟨after, acts⟩ := same
    refine .refused ?_ ?_ (by rw [← after, counted]) idle
    · rw [Record.frames, ← acts]
      rfl
    · rw [← acts]
      intro slot n member
      cases List.mem_singleton.mp member
      rfl
  cases here : r.before.conn with
  | none =>
    rw [(countDown_conn r.before).mpr here] at ran
    refine refused ?_ ran
    rintro ⟨-, -, ⟨c, there, -⟩, -⟩
    rw [here] at there
    cases there
  | some c =>
    rw [countDown_some here] at ran
    dsimp only at ran
    split_ifs at ran with ready
    · rw [Prod.mk.injEq] at ran
      obtain ⟨after, acts⟩ := ran
      refine .sent here ready.1 unknown (by simpa using ready.2) ?_ (by rw [← after]) rfl
      rw [← acts]
      simp only [Stack.transmit, countDown_nicBuf, countDown_clientBuf, countDown_clientReply]
      rfl
    · refine refused ?_ ran
      rintro ⟨-, page, ⟨c'', here', established⟩, -⟩
      rw [here, Option.some.injEq] at here'
      exact ready ⟨here' ▸ established, by rw [countDown_clientBufMapped, page]⟩

private theorem sendable_toNat (asked : UInt32) : (UInt32.ofNat (sendable asked)).toNat = sendable asked := by
  have small := sendable_le_payload asked
  simp only [maxSegmentPayload, nicMaxFrame, Proto.ethHeaderLen, Proto.ipv4HeaderLen, Tcp.headerLen] at small
  rw [UInt32.toNat_ofNat']
  omega

/-- A request is answered with the truth exactly if the driver takes its data. -/
theorem truthful_iff (six : myMac.length = 6) (typed : r.before.Typed)
    (moved : perform myMac r.before r.move = some (r.after, r.acts)) (driver : UInt32) :
    Truthful r driver ↔ (r.SendsData → driver = 1) := by
  cases request : r.move.sendRequest with
  | none =>
    refine ⟨fun _ sends => ?_, fun _ => ⟨fun _ _ some => ?_, fun some => ?_⟩⟩
    · obtain ⟨-, -, -, m, same, -⟩ := sends
      rw [request] at same
      cases same
    · rw [request] at some
      cases some
    · rw [request] at some
      cases some
  | some m =>
    cases perform_sendStep moved request with
    | refused quiet zero same idle =>
      refine ⟨fun _ sends => absurd sends idle, fun _ => ⟨fun slot n _ member large => ?_, fun _ frames => absurd quiet frames⟩⟩
      rw [zero slot n member] at large
      exact absurd large (by decide)
    | @sent c c' here state known mapped acts there next =>
      have frames : r.frames = [Proto.sent (c.segment myMac r.before.nicBuf c.sndNxt c.rcvNxt (Tcp.flagPsh ||| Tcp.flagAck)
          (slice r.before.clientBuf 0 (sendable m.w1)))] := by
        rw [Record.frames, acts]
        rfl
      have parsed := (typed c here).parse_segment six r.before.nicBuf c.sndNxt c.rcvNxt (Tcp.flagPsh ||| Tcp.flagAck)
        (show (slice r.before.clientBuf 0 (sendable m.w1)).length ≤ maxSegmentPayload by
          rw [length_slice]
          exact sendable_le_payload m.w1)
      have positive : 0 < UInt32.ofNat (sendable m.w1) ↔ 0 < sendable m.w1 := by
        rw [UInt32.lt_iff_toNat_lt, sendable_toNat]
        rfl
      constructor
      · intro truthful sends
        obtain ⟨-, -, -, m', same, some⟩ := sends
        rw [request, Option.some.injEq] at same
        subst same
        exact (truthful.accepted r.before.clientReply _ (by rw [request]; rfl) (by rw [acts]; simp) (positive.mpr some)).1
      · intro taken
        have reply {slot n : UInt32} (member : .reply slot n ∈ r.acts) : n = UInt32.ofNat (sendable m.w1) := by
          rw [acts] at member
          have same : slot = r.before.clientReply ∧ n = UInt32.ofNat (sendable m.w1) := by simpa using member
          exact same.2
        refine ⟨fun slot n _ member some => ?_, fun _ _ failed => ?_⟩
        · obtain rfl := reply member
          refine ⟨taken ⟨known, mapped, ⟨c, here, state⟩, m, request, positive.mp some⟩, _, _, frames, parsed, ?_, ?_, ?_⟩
          · rw [Stack.sndNxt, here]
            rfl
          · rw [sendable_toNat]
            rfl
          · rw [Stack.sndNxt, there, Option.map_some, next]
            rfl
        · have none : sendable m.w1 = 0 := by
            by_contra some
            exact failed (taken ⟨known, mapped, ⟨c, here, state⟩, m, request, Nat.pos_of_ne_zero some⟩)
          refine ⟨fun slot n member => (reply member).trans (by rw [none]; rfl), ?_⟩
          rw [Stack.sndNxt, there, Stack.sndNxt, here, Option.map_some, next, none]
          exact congrArg some (UInt32.add_zero _)

end

/-! ## A sequence of sends -/

/-- The segments follow one another from `seq` on and end before `next`. -/
def Contiguous (seq : UInt32) : List Tcp.Segment → UInt32 → Prop
  | [], next => seq = next
  | seg :: rest, next => seg.seq = seq ∧ Contiguous (seq + UInt32.ofNat seg.payload.length) rest next

theorem Contiguous.append {seq mid next : UInt32} {front back : List Tcp.Segment} (first : Contiguous seq front mid)
    (second : Contiguous mid back next) : Contiguous seq (front ++ back) next := by
  induction front generalizing seq with
  | nil =>
    obtain rfl : seq = mid := first
    exact second
  | cons seg front more => exact ⟨first.1, more first.2⟩

/-- The connection is open before and after the move. -/
def Record.Open (r : Record) : Prop :=
  (∃ c, r.before.conn = some c ∧ c.state = .established) ∧ ∃ c, r.after.conn = some c ∧ c.state = .established

/-- A move with the driver's answer to its frame. -/
abbrev Log := List (Record × UInt32)

/-- The segment of a `TCP_OP_SEND`, if the driver took it. -/
def transmits (e : Record × UInt32) : List Tcp.Segment :=
  if e.1.move.sendRequest.isSome ∧ e.2 = 1 then e.1.frames.filterMap fun frame => Tcp.parseFrame frame staticIp else []

def transmitted (log : Log) : List Tcp.Segment := log.flatMap transmits

section
variable {myMac : List UInt8} {r : Record}

private theorem after_sndNxt {c : Connection} {s : Stack} {seg : Tcp.Segment} (state : (c.after s seg).state = .established) :
    (c.after s seg).sndNxt = c.sndNxt := by
  have stored : (store s c seg).2.sndNxt = c.sndNxt := by
    unfold store
    split <;> rfl
  unfold Connection.after Connection.ended at state ⊢
  by_cases fin : (store s c seg).2.finished seg = true
  · rw [if_pos fin] at state
    cases state
  · rwa [if_neg fin]

theorem Happens.sndNxt {s s' : Stack} {i : Input} {acts : List Act} {c c' : Connection} (happens : Happens myMac s i s' acts)
    (before : s.conn = some c) (state : c.state = .established) (after : s'.conn = some c') (state' : c'.state = .established)
    (other : (Move.pass i).sendRequest = none) : c'.sndNxt = c.sndNxt := by
  have counted := countDown_some before
  have same {d : Connection} (here : (countDown s).conn = some d) : d.state = .established ∧ d.sndNxt = c.sndNxt := by
    rw [counted] at here
    cases here
    exact ⟨state, rfl⟩
  have elsewhere {d : Connection} {st : ConnState} (here : (countDown s).conn = some d) (isState : d.state = st)
      (differs : st ≠ .established) : c'.sndNxt = c.sndNxt :=
    absurd (isState.symm.trans (same here).1) differs
  cases happens with
  | timeout late => cases op : s.pendingOp <;> simp [failPendingOp, op] at after
  | nothing => exact (same after).2
  | respond frames other _ _ => exact (same after).2
  | ignored why => exact (same after).2
  | setBuffer op => exact (same after).2
  | setReply op named => exact (same after).2
  | refused known op => exact (same after).2
  | connect known op free _ =>
    rw [before] at free
    cases free
  | send known op here state segment => simp [Move.sendRequest, op] at other
  | recvNow known op why => exact (same after).2
  | recvLater known op empty here going =>
    cases after
    exact (same here).2
  | close known op here state _ =>
    cases after
    cases state'
  | drop known op why => cases after
  | resolved here state _ _ => exact elsewhere here state (by decide)
  | rejected here state => cases after
  | opened here state heard _ _ => exact elsewhere here state (by decide)
  | reset here state other => cases after
  | data here state heard alive next waiting _ =>
    cases after
    exact (after_sndNxt state').trans (same here).2
  | dataReply here state heard alive next waiting _ =>
    cases after
    exact (after_sndNxt state').trans (same here).2
  | lastAcked here state => cases after
  | finished here state _ _ _ => cases after
  | acknowledged here state _ _ => exact elsewhere here state (by decide)

private theorem open_sndNxt (moved : perform myMac r.before r.move = some (r.after, r.acts)) (isOpen : r.Open)
    (other : r.move.sendRequest = none) : r.after.sndNxt = r.before.sndNxt := by
  obtain ⟨⟨c, before, state⟩, c', after, state'⟩ := isOpen
  simp only [Stack.sndNxt, before, after, Option.map_some, Option.some.injEq]
  obtain ⟨s, m, s', acts⟩ := r
  dsimp only at *
  rcases perform_cases moved with ⟨i, rfl, happens⟩ | ⟨-, -, page, rfl⟩
  · exact happens.sndNxt before state after state' other
  · rw [before] at after
    cases after
    rfl

private theorem transmits_contiguous (six : myMac.length = 6) (typed : r.before.Typed)
    (moved : perform myMac r.before r.move = some (r.after, r.acts)) (isOpen : r.Open) {driver seq next : UInt32}
    (taken : r.SendsData → driver = 1) (isSeq : r.before.sndNxt = some seq) (isNext : r.after.sndNxt = some next) :
    Contiguous seq (transmits (r, driver)) next := by
  have nothing (silent : transmits (r, driver) = []) (same : r.after.sndNxt = r.before.sndNxt) :
      Contiguous seq (transmits (r, driver)) next := by
    rw [isSeq, isNext, Option.some.injEq] at same
    rw [silent]
    exact same.symm
  cases request : r.move.sendRequest with
  | none => exact nothing (if_neg (by simp [request])) (open_sndNxt moved isOpen request)
  | some m =>
    cases perform_sendStep moved request with
    | refused quiet zero same idle =>
      refine nothing ?_ same
      rw [transmits, quiet]
      exact ite_self _
    | @sent c c' here state known mapped acts there next' =>
      rw [Stack.sndNxt, here, Option.map_some, Option.some.injEq] at isSeq
      rw [Stack.sndNxt, there, Option.map_some, Option.some.injEq, next'] at isNext
      subst isSeq isNext
      by_cases success : driver = 1
      · have parsed := (typed c here).parse_segment six r.before.nicBuf c.sndNxt c.rcvNxt (Tcp.flagPsh ||| Tcp.flagAck)
          (show (slice r.before.clientBuf 0 (sendable m.w1)).length ≤ maxSegmentPayload by
            rw [length_slice]
            exact sendable_le_payload m.w1)
        have segments : transmits (r, driver) =
            [c.spoken c.sndNxt c.rcvNxt (Tcp.flagPsh ||| Tcp.flagAck) (slice r.before.clientBuf 0 (sendable m.w1))] := by
          rw [transmits, if_pos ⟨by rw [request]; rfl, success⟩, Record.frames, acts]
          simp only [List.filterMap_cons, Act.frame, List.filterMap_nil, parsed]
        rw [segments]
        refine ⟨rfl, ?_⟩
        show c.sndNxt + UInt32.ofNat (slice r.before.clientBuf 0 (sendable m.w1)).length = _
        rw [length_slice]
      · have none : sendable m.w1 = 0 := by
          by_contra some
          exact success (taken ⟨known, mapped, ⟨c, here, state⟩, m, request, Nat.pos_of_ne_zero some⟩)
        rw [transmits, if_neg fun both => success both.2, none]
        exact (UInt32.add_zero _).symm

theorem Record.Open.sndNxt (isOpen : r.Open) : ∃ seq next, r.before.sndNxt = some seq ∧ r.after.sndNxt = some next := by
  obtain ⟨⟨c, before, -⟩, c', after, -⟩ := isOpen
  exact ⟨c.sndNxt, c'.sndNxt, by rw [Stack.sndNxt, before]; rfl, by rw [Stack.sndNxt, after]; rfl⟩

theorem Runs.of_nil {start s : Stack} (run : Runs myMac start [] s) : s = start := by
  generalize none : ([] : History) = h at run
  cases run with
  | start => rfl
  | move earlier moved => simp at none

/-- Over a stretch of the run in which the connection is open, the data that the driver took are contiguous if it took all. -/
theorem transmitted_contiguous (six : myMac.length = 6) {start s : Stack} {log : Log} (typed : start.Typed)
    (run : Runs myMac start (log.map Prod.fst) s) (taken : ∀ e ∈ log, e.1.SendsData → e.2 = 1)
    (isOpen : ∀ e ∈ log, e.1.Open) {seq next : UInt32} (isSeq : start.sndNxt = some seq) (isNext : s.sndNxt = some next) :
    Contiguous seq (transmitted log) next := by
  induction log using List.reverseRecOn generalizing s next with
  | nil =>
    rw [run.of_nil, isSeq, Option.some.injEq] at isNext
    exact isNext
  | append_singleton log e before =>
    rw [List.map_append, List.map_singleton] at run
    obtain ⟨earlier, moved, rfl⟩ := run.earlier
    have openNow := isOpen e (by simp)
    obtain ⟨mid, -, isMid, -⟩ := openNow.sndNxt
    rw [transmitted, List.flatMap_append, List.flatMap_singleton]
    refine (before earlier (fun e member => taken e (List.mem_append_left _ member))
      (fun e member => isOpen e (List.mem_append_left _ member)) isMid).append ?_
    exact transmits_contiguous six (earlier.typed typed) moved openNow (taken e (by simp)) isMid isNext

/--
In every run: each `TCP_OP_SEND` is answered with the truth, and the data that reach the wire while a connection is open
are contiguous, if and only if the driver takes every frame with data. The other direction needs no sequence: one frame
that the driver does not take is one wrong answer.
-/
theorem sends_truthful_iff (six : myMac.length = 6) {start s : Stack} {log : Log} (typed : start.Typed)
    (run : Runs myMac start (log.map Prod.fst) s) :
    ((∀ e ∈ log, Truthful e.1 e.2) ∧
      ((∀ e ∈ log, e.1.Open) → ∀ seq next, start.sndNxt = some seq → s.sndNxt = some next →
        Contiguous seq (transmitted log) next)) ↔
      ∀ e ∈ log, e.1.SendsData → e.2 = 1 := by
  have single (e : Record × UInt32) (member : e ∈ log) : Truthful e.1 e.2 ↔ (e.1.SendsData → e.2 = 1) := by
    obtain ⟨front, back, rfl⟩ := List.append_of_mem member
    rw [List.map_append, List.map_cons, List.append_cons] at run
    obtain ⟨s', upTo⟩ := run.prefixed
    obtain ⟨earlier, moved, -⟩ := upTo.earlier
    exact truthful_iff six (earlier.typed typed) moved e.2
  constructor
  · rintro ⟨truthful, -⟩ e member
    exact (single e member).mp (truthful e member)
  · intro taken
    refine ⟨fun e member => (single e member).mpr (taken e member), fun isOpen seq next isSeq isNext => ?_⟩
    exact transmitted_contiguous six typed run taken isOpen isSeq isNext

end

def sendFour : List Move := connecting ++ [request tcpOpSend 4 0]

/-- A move that answers a `TCP_OP_SEND` with 4. -/
def claimsFour (r : Record) : Bool := r.move.sendRequest.isSome && r.acts.contains (.reply 5 4)

private theorem sendFour_claims : ∃ h s, Runs [2, 0, 0, 0, 0, 9] (Stack.init (fun _ => 0) (fun _ => 0)) h s ∧ ∃ r ∈ h, claimsFour r := by
  have played : (play [2, 0, 0, 0, 0, 9] (Stack.init (fun _ => 0) (fun _ => 0)) sendFour).any
      (fun done => done.1.any claimsFour) = true := by decide +kernel
  obtain ⟨done, ended, seen⟩ := (Option.any_eq_true _ _).mp played
  exact ⟨_, _, play_runs ended, List.any_eq_true.mp seen⟩

/-- The driver takes everything. -/
theorem sendFour_truthful : ∃ h s, Runs [2, 0, 0, 0, 0, 9] (Stack.init (fun _ => 0) (fun _ => 0)) h s ∧
    ∃ r ∈ h, claimsFour r ∧ Truthful r 1 := by
  obtain ⟨h, s, run, r, member, claims⟩ := sendFour_claims
  refine ⟨h, s, run, r, member, claims, ?_⟩
  have logged : (h.map fun r => (r, (1 : UInt32))).map Prod.fst = h := by simp [Function.comp_def]
  have run' : Runs [2, 0, 0, 0, 0, 9] (Stack.init (fun _ => 0) (fun _ => 0)) ((h.map fun r => (r, (1 : UInt32))).map Prod.fst) s := by
    rwa [logged]
  have truthful := (sends_truthful_iff rfl (Stack.Typed.init _ _) run').mpr (by simp)
  exact truthful.1 (r, 1) (List.mem_map_of_mem member)

/-- The driver reports a failure, and the client is told that its four bytes were sent. -/
theorem failed_send_claimed : ∃ h s, Runs [2, 0, 0, 0, 0, 9] (Stack.init (fun _ => 0) (fun _ => 0)) h s ∧
    ∃ r ∈ h, claimsFour r ∧ ¬Truthful r 0 := by
  obtain ⟨h, s, run, r, member, claims⟩ := sendFour_claims
  refine ⟨h, s, run, r, member, claims, fun truthful => ?_⟩
  simp only [claimsFour, Bool.and_eq_true, List.contains_iff_mem] at claims
  exact absurd (truthful.accepted 5 4 claims.1 claims.2 (by decide)).1 (by decide)

end Netstack
end Pcern

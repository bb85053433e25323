import Pcern.Libpcern
import Pcern.Packets

/-!
The TCP client of `netstack`, after its `main.rs`: one connection, one client,
one shared page, and a loop that looks for a frame, then for a message.

A handler changes the state and makes a list of sends: frames to the driver,
each followed by a wait for its answer, which nothing looks at, and replies to
the client. While `netstack` waits it only collects messages, so a handler is a
function, and one pass of the loop (`iterate`) is one step.
-/
namespace Pcern
namespace Netstack
open Bytes Libpcern

def staticIp : List UInt8 := [10, 0, 2, 15]
abbrev nicTaskId : UInt32 := 6
abbrev window : UInt16 := 2048
abbrev maxSegmentPayload : Nat := nicMaxFrame - Proto.ethHeaderLen - Proto.ipv4HeaderLen - Tcp.headerLen
abbrev localPort : UInt16 := 51820
abbrev initialSeq : UInt32 := 0x00010000
abbrev maxAttempts : Nat := 2000000

inductive ConnState where
  | arpPending
  | synSent
  | established
  | lastAck
  | finWait1
  | finWait2
  deriving DecidableEq, Repr

structure Connection where
  peerIp : List UInt8
  peerPort : UInt16
  peerMac : List UInt8
  state : ConnState
  sndNxt : UInt32
  rcvNxt : UInt32
  attemptsLeft : Nat
  deriving DecidableEq, Repr

inductive PendingOp where
  | none
  | connect
  | recv
  | close
  deriving DecidableEq, Repr

inductive Outcome where
  | notMine
  | handled
  | done
  deriving DecidableEq, Repr

/-- The state of the service between two passes of its loop, without the stash. -/
structure Stack where
  clientBufMapped : Bool
  clientReply : UInt32
  conn : Option Connection
  pendingOp : PendingOp
  bufferedLen : Nat
  nicBuf : Memory
  clientBuf : Memory

/-- A send: a frame to the driver, or an answer to the client. -/
inductive Act where
  | toNic (frame : List UInt8)
  | reply (slot w0 : UInt32)
  deriving DecidableEq, Repr

def Stack.init (nicBuf clientBuf : Memory) : Stack :=
  { clientBufMapped := false, clientReply := 0, conn := none, pendingOp := .none, bufferedLen := 0, nicBuf, clientBuf }

/-- A frame built in the driver's buffer, and sent. -/
def Stack.transmit (s : Stack) (built : Nat × Memory) : Stack × Act :=
  ({ s with nicBuf := built.2 }, .toNic (slice built.2 0 built.1))

def Connection.segment (c : Connection) (myMac : List UInt8) (buf : Memory) (seq ack : UInt32) (flags : UInt8)
    (payload : List UInt8) : Nat × Memory :=
  Tcp.buildSegment buf myMac staticIp c.peerMac c.peerIp localPort c.peerPort seq ack flags window payload

/-- What a pending operation is answered with when its time is up. -/
def failPendingOp (s : Stack) : Stack × List Act :=
  let cleared := { s with pendingOp := .none, bufferedLen := 0, conn := none }
  match s.pendingOp with
  | .connect => (cleared, [.reply s.clientReply 0])
  | .recv => (cleared, [.reply s.clientReply (UInt32.ofNat s.bufferedLen)])
  | .close => (cleared, [.reply s.clientReply 1])
  | .none => (cleared, [])

/-- `mapped` is the page that `map_memory` put at `CLIENT_BUF_VIRT`, if the kernel did so. -/
def setBuffer (s : Stack) (mapped : Option Memory) (r : RecvResult) : Stack × List Act :=
  match mapped with
  | some page =>
    if r.transferredSlot ≠ 0 then ({ s with clientBufMapped := true, clientBuf := page }, []) else (s, [])
  | none => (s, [])

def setReply (s : Stack) (r : RecvResult) : Stack × List Act :=
  if r.transferredSlot ≠ 0 then ({ s with clientReply := r.transferredSlot }, []) else (s, [])

/-- `TCP_OP_CONNECT`: the answer comes when the handshake is over. -/
def connect (myMac : List UInt8) (s : Stack) (r : RecvResult) : Stack × List Act :=
  if s.clientReply = 0 then (s, [])
  else if s.conn.isSome ∨ s.clientBufMapped = false then (s, [.reply s.clientReply 0])
  else
    let peerIp := le32 r.w1
    let (s, sent) := s.transmit (Proto.buildArpRequest s.nicBuf myMac staticIp peerIp)
    let c : Connection :=
      { peerIp, peerPort := r.w2.toUInt16, peerMac := List.replicate 6 0, state := .arpPending, sndNxt := initialSeq,
        rcvNxt := 0, attemptsLeft := maxAttempts }
    ({ s with conn := some c, pendingOp := .connect }, [sent])

def sendable (asked : UInt32) : Nat := min (min (min asked.toNat window.toNat) tcpMaxTransfer) maxSegmentPayload

/-- `TCP_OP_SEND`: one segment, and the answer at once. -/
def send (myMac : List UInt8) (s : Stack) (r : RecvResult) : Stack × List Act :=
  if s.clientReply = 0 then (s, [])
  else
    match s.conn with
    | some c =>
      if c.state = .established ∧ s.clientBufMapped then
        let want := sendable r.w1
        let (s, sent) := s.transmit
          (c.segment myMac s.nicBuf c.sndNxt c.rcvNxt (Tcp.flagPsh ||| Tcp.flagAck) (slice s.clientBuf 0 want))
        ({ s with conn := some { c with sndNxt := c.sndNxt + UInt32.ofNat want } },
          [sent, .reply s.clientReply (UInt32.ofNat want)])
      else (s, [.reply s.clientReply 0])
    | none => (s, [.reply s.clientReply 0])

def alreadyDone : Option Connection → Bool
  | none => true
  | some c => c.state = .lastAck || c.state = .finWait2

/-- `TCP_OP_RECV`: what is buffered, or else the next data that arrives. -/
def recv (s : Stack) : Stack × List Act :=
  if s.clientReply = 0 then (s, [])
  else if 0 < s.bufferedLen ∨ alreadyDone s.conn then
    ({ s with bufferedLen := 0 }, [.reply s.clientReply (UInt32.ofNat s.bufferedLen)])
  else
    ({ s with pendingOp := .recv, conn := s.conn.map fun c => { c with attemptsLeft := maxAttempts } }, [])

/-- `TCP_OP_CLOSE`: a `FIN` if the connection is open. -/
def close (myMac : List UInt8) (s : Stack) : Stack × List Act :=
  if s.clientReply = 0 then (s, [])
  else
    match s.conn with
    | some c =>
      if c.state = .established then
        let (s, sent) := s.transmit (c.segment myMac s.nicBuf c.sndNxt c.rcvNxt (Tcp.flagFin ||| Tcp.flagAck) [])
        let c := { c with sndNxt := c.sndNxt + 1, state := .finWait1, attemptsLeft := maxAttempts }
        ({ s with conn := some c, pendingOp := .close }, [sent])
      else ({ s with conn := none }, [.reply s.clientReply 1])
    | none => ({ s with conn := none }, [.reply s.clientReply 1])

def handleClientMessage (myMac : List UInt8) (s : Stack) (mapped : Option Memory) (r : RecvResult) : Stack × List Act :=
  if r.w0 = tcpOpSetBuffer then setBuffer s mapped r
  else if r.w0 = tcpOpSetReply then setReply s r
  else if r.w0 = tcpOpConnect then connect myMac s r
  else if r.w0 = tcpOpSend then send myMac s r
  else if r.w0 = tcpOpRecv then recv s
  else if r.w0 = tcpOpClose then close myMac s
  else (s, [])

/-! ## Frames -/

structure Advance where
  outcome : Outcome
  conn : Connection
  stack : Stack
  acts : List Act

def Advance.none (s : Stack) (c : Connection) : Advance := { outcome := .notMine, conn := c, stack := s, acts := [] }

/-- An answer to the client if this operation is pending. -/
def answer (s : Stack) (op : PendingOp) (w0 : UInt32) : Stack × List Act :=
  if s.pendingOp = op then ({ s with pendingOp := .none }, [.reply s.clientReply w0]) else (s, [])

/-- The peer's address is known: the `SYN`. -/
def onArpPending (myMac : List UInt8) (s : Stack) (c : Connection) (len : Nat) : Advance :=
  match Proto.parseArpReply s.nicBuf len c.peerIp with
  | none => .none s c
  | some mac =>
    let c := { c with peerMac := mac, state := .synSent, attemptsLeft := maxAttempts }
    let (s, sent) := s.transmit (c.segment myMac s.nicBuf c.sndNxt 0 Tcp.flagSyn [])
    { outcome := .handled, conn := c, stack := s, acts := [sent] }

/-- The handshake is refused, or completed. -/
def onSynSent (myMac : List UInt8) (s : Stack) (c : Connection) (seg : Tcp.Segment) : Advance :=
  if seg.has Tcp.flagRst then
    let (s, acts) := answer s .connect 0
    { outcome := .done, conn := c, stack := s, acts }
  else if seg.has Tcp.flagSyn ∧ seg.has Tcp.flagAck ∧ seg.ack = c.sndNxt + 1 then
    let c := { c with sndNxt := c.sndNxt + 1, rcvNxt := seg.seq + 1, state := .established }
    let (s, sent) := s.transmit (c.segment myMac s.nicBuf c.sndNxt c.rcvNxt Tcp.flagAck [])
    let (s, acts) := answer s .connect 1
    { outcome := .handled, conn := c, stack := s, acts := sent :: acts }
  else .none s c

/-- A connection that is reset answers what is pending. -/
def onReset (s : Stack) (c : Connection) : Advance :=
  let acts : List Act :=
    match s.pendingOp with
    | .recv => [.reply s.clientReply 0]
    | .close => [.reply s.clientReply 1]
    | _ => []
  { outcome := .done, conn := c, stack := { s with pendingOp := .none }, acts }

/-- The payload of a segment that comes next in order. -/
def Connection.inOrder (c : Connection) (seg : Tcp.Segment) : Bool := !seg.payload.isEmpty && seg.seq == c.rcvNxt

/-- How much of the payload is taken: as much as the page has room for. -/
def taken (s : Stack) (seg : Tcp.Segment) : Nat := min seg.payload.length (tcpMaxTransfer - s.bufferedLen)

/-- Data in order go behind those in the page, as far as they fit. -/
def store (s : Stack) (c : Connection) (seg : Tcp.Segment) : Stack × Connection :=
  if c.inOrder seg then
    let n := taken s seg
    ({ s with clientBuf := blit s.clientBuf s.bufferedLen (seg.payload.take n), bufferedLen := s.bufferedLen + n },
      { c with rcvNxt := c.rcvNxt + UInt32.ofNat n })
  else (s, c)

def Connection.finished (c : Connection) (seg : Tcp.Segment) : Bool :=
  seg.has Tcp.flagFin && seg.seq + UInt32.ofNat seg.payload.length == c.rcvNxt

/-- The acknowledgement of data, or of a `FIN` with our own. -/
def acknowledgement (myMac : List UInt8) (buf : Memory) (c : Connection) (fin : Bool) : Nat × Memory :=
  if fin then c.segment myMac buf c.sndNxt (c.rcvNxt + 1) (Tcp.flagFin ||| Tcp.flagAck) []
  else c.segment myMac buf c.sndNxt c.rcvNxt Tcp.flagAck []

/-- The connection after its peer's `FIN`, if it was one. -/
def Connection.ended (c : Connection) (fin : Bool) : Connection :=
  if fin then
    { c with rcvNxt := c.rcvNxt + 1, sndNxt := c.sndNxt + 1, state := .lastAck, attemptsLeft := maxAttempts }
  else c

/-- The acknowledgement, and the answer to a pending receive. -/
def acknowledge (myMac : List UInt8) (s : Stack) (c : Connection) (fin : Bool) : Advance :=
  let (s, sent) := s.transmit (acknowledgement myMac s.nicBuf c fin)
  if s.pendingOp = .recv then
    { outcome := .handled, conn := c.ended fin, stack := { s with bufferedLen := 0, pendingOp := .none },
      acts := [sent, .reply s.clientReply (UInt32.ofNat s.bufferedLen)] }
  else { outcome := .handled, conn := c.ended fin, stack := s, acts := [sent] }

def onEstablished (myMac : List UInt8) (s : Stack) (c : Connection) (seg : Tcp.Segment) : Advance :=
  if seg.has Tcp.flagRst then onReset s c
  else
    let advanced := c.inOrder seg
    let (s, c) := store s c seg
    let fin := c.finished seg
    if !advanced && !fin then .none s c else acknowledge myMac s c fin

def onLastAck (s : Stack) (c : Connection) (seg : Tcp.Segment) : Advance :=
  if seg.has Tcp.flagAck ∧ seg.ack = c.sndNxt then
    let (s, acts) := answer s .close 1
    { outcome := .done, conn := c, stack := s, acts }
  else .none s c

/-- The peer's `FIN` after ours: the last acknowledgement, and the end. -/
def onFinAfterClose (myMac : List UInt8) (s : Stack) (c : Connection) (seg : Tcp.Segment) : Advance :=
  let c := { c with rcvNxt := seg.seq + 1 }
  let (s, sent) := s.transmit (c.segment myMac s.nicBuf c.sndNxt c.rcvNxt Tcp.flagAck [])
  let (s, acts) := answer s .close 1
  { outcome := .done, conn := c, stack := s, acts := sent :: acts }

def onFinWait1 (myMac : List UInt8) (s : Stack) (c : Connection) (seg : Tcp.Segment) : Advance :=
  if seg.has Tcp.flagFin then onFinAfterClose myMac s c seg
  else if seg.has Tcp.flagAck ∧ seg.ack = c.sndNxt then
    { outcome := .handled, conn := { c with state := .finWait2, attemptsLeft := maxAttempts }, stack := s, acts := [] }
  else .none s c

def onFinWait2 (myMac : List UInt8) (s : Stack) (c : Connection) (seg : Tcp.Segment) : Advance :=
  if seg.has Tcp.flagFin then onFinAfterClose myMac s c seg else .none s c

/-- The segment in the driver's buffer, if it belongs to the connection. -/
def Connection.heard (c : Connection) (buf : Memory) (len : Nat) : Option Tcp.Segment :=
  (Tcp.parseSegment buf len c.peerIp).filter fun seg => seg.dstPort == localPort && seg.srcPort == c.peerPort

def advanceConnection (myMac : List UInt8) (s : Stack) (c : Connection) (len : Nat) : Advance :=
  if c.state = .arpPending then onArpPending myMac s c len
  else
    match c.heard s.nicBuf len with
    | none => .none s c
    | some seg =>
      match c.state with
      | .arpPending => .none s c
      | .synSent => onSynSent myMac s c seg
      | .established => onEstablished myMac s c seg
      | .lastAck => onLastAck s c seg
      | .finWait1 => onFinWait1 myMac s c seg
      | .finWait2 => onFinWait2 myMac s c seg

/-- The ARP and ICMP responder, for frames that are not the connection's. -/
def respond (myMac : List UInt8) (s : Stack) (len : Nat) : Stack × List Act :=
  match Proto.handleFrame s.nicBuf nicMaxFrame len myMac staticIp with
  | none => (s, [])
  | some built =>
    let (s, sent) := s.transmit built
    (s, [sent])

/-- What `handle_nic_frame` does with the outcome. -/
def Advance.conclude (myMac : List UInt8) (a : Advance) (len : Nat) : Stack × List Act :=
  match a.outcome with
  | .done => ({ a.stack with conn := Option.none }, a.acts)
  | .handled => ({ a.stack with conn := some a.conn }, a.acts)
  | .notMine => respond myMac { a.stack with conn := some a.conn } len

def handleNicFrame (myMac : List UInt8) (s : Stack) (len : Nat) : Stack × List Act :=
  match s.conn with
  | none => respond myMac s len
  | some c => (advanceConnection myMac s c len).conclude myMac len

/-! ## The loop -/

/-- What the loop finds when it looks for work. -/
inductive Input where
  | frame (bytes : List UInt8)
  | message (r : RecvResult) (mapped : Option Memory)
  | nothing
  | timeout

/-- An operation is pending and its connection has no attempts left. -/
def expired (s : Stack) : Bool := s.pendingOp ≠ .none && s.conn.any fun c => c.attemptsLeft == 0

/-- A pending operation costs an attempt in every pass. -/
def countDown (s : Stack) : Stack :=
  if s.pendingOp = .none then s
  else { s with conn := s.conn.map fun c => { c with attemptsLeft := c.attemptsLeft - 1 } }

/-- One pass. The driver puts a frame into its buffer before it answers. -/
def iterate (myMac : List UInt8) (s : Stack) : Input → Option (Stack × List Act)
  | .timeout => if expired s then some (failPendingOp s) else none
  | .frame bytes =>
    if expired s ∨ bytes = [] ∨ nicMaxFrame < bytes.length then none
    else some (handleNicFrame myMac { countDown s with nicBuf := blit s.nicBuf 0 bytes } bytes.length)
  | .message r mapped => if expired s then none else some (handleClientMessage myMac (countDown s) mapped r)
  | .nothing => if expired s then none else some (countDown s, [])

/-! ## What a pass can do -/

def IsRequest (r : RecvResult) : Prop :=
  r.w0 = tcpOpConnect ∨ r.w0 = tcpOpSend ∨ r.w0 = tcpOpRecv ∨ r.w0 = tcpOpClose

/-- The connection that an accepted `TCP_OP_CONNECT` begins. -/
def opening (r : RecvResult) : Connection :=
  { peerIp := le32 r.w1, peerPort := r.w2.toUInt16, peerMac := List.replicate 6 0, state := .arpPending,
    sndNxt := initialSeq, rcvNxt := 0, attemptsLeft := maxAttempts }

/-- The connection once the peer has answered the `SYN`. -/
def Connection.open (c : Connection) (seg : Tcp.Segment) : Connection :=
  { c with sndNxt := c.sndNxt + 1, rcvNxt := seg.seq + 1, state := .established }

/-- The connection after a segment with data or a `FIN` in order; `s` is the state before. -/
def Connection.after (c : Connection) (s : Stack) (seg : Tcp.Segment) : Connection :=
  (store s c seg).2.ended ((store s c seg).2.finished seg)

/-- The segment in a frame that an established connection takes data from. -/
def Stack.accepts (s : Stack) (bytes : List UInt8) : Option Tcp.Segment :=
  match s.conn with
  | none => none
  | some c =>
    if c.state = .established then
      (c.heard (blit s.nicBuf 0 bytes) bytes.length).filter fun seg => !seg.has Tcp.flagRst && c.inOrder seg
    else none

/-- A segment that the connection takes nothing from: if it is open, one that neither resets nor ends it, and if it is
    closing, one without a `FIN`. -/
def Connection.Ignores (c : Connection) (seg : Tcp.Segment) : Prop :=
  (c.state = .established → seg.has Tcp.flagRst = false ∧ c.finished seg = false) ∧
    (c.state = .finWait1 ∨ c.state = .finWait2 → seg.has Tcp.flagFin = false)

def arrived (s : Stack) (bytes : List UInt8) : Stack := { countDown s with nicBuf := blit s.nicBuf 0 bytes }

/-- The outcomes of a pass. The contents of the driver's buffer are left open. -/
inductive Happens (myMac : List UInt8) (s : Stack) : Input → Stack → List Act → Prop where
  | timeout (late : expired s = true) : Happens myMac s .timeout (failPendingOp s).1 (failPendingOp s).2
  | nothing : Happens myMac s .nothing (countDown s) []
  | respond {bytes : List UInt8} {buf : Memory} {acts : List Act} (frames : ∀ a ∈ acts, ∃ f, a = .toNic f)
      (other : (countDown s).accepts bytes = none)
      (ran : respond myMac (arrived s bytes) bytes.length = ({ countDown s with nicBuf := buf }, acts))
      (ignores : ∀ c seg, (countDown s).conn = some c → c.heard (blit s.nicBuf 0 bytes) bytes.length = some seg → c.Ignores seg) :
      Happens myMac s (.frame bytes) { countDown s with nicBuf := buf } acts
  | ignored {r : RecvResult} {mapped : Option Memory} (why : s.clientReply = 0 ∨ ¬IsRequest r) :
      Happens myMac s (.message r mapped) (countDown s) []
  | setBuffer {r : RecvResult} {page : Memory} (op : r.w0 = tcpOpSetBuffer) :
      Happens myMac s (.message r (some page)) { countDown s with clientBufMapped := true, clientBuf := page } []
  | setReply {r : RecvResult} {mapped : Option Memory} (op : r.w0 = tcpOpSetReply) (named : r.transferredSlot ≠ 0) :
      Happens myMac s (.message r mapped) { countDown s with clientReply := r.transferredSlot } []
  | refused {r : RecvResult} {mapped : Option Memory} (known : s.clientReply ≠ 0) (op : r.w0 = tcpOpConnect ∨ r.w0 = tcpOpSend) :
      Happens myMac s (.message r mapped) (countDown s) [.reply s.clientReply 0]
  | connect {r : RecvResult} {mapped : Option Memory} {buf : Memory} {f : List UInt8} (known : s.clientReply ≠ 0)
      (op : r.w0 = tcpOpConnect) (free : s.conn = none)
      (request : f = Proto.sent (Proto.buildArpRequest s.nicBuf myMac staticIp (le32 r.w1))) :
      Happens myMac s (.message r mapped)
        { countDown s with nicBuf := buf, conn := some (opening r), pendingOp := .connect } [.toNic f]
  | send {r : RecvResult} {mapped : Option Memory} {c : Connection} {built : Nat × Memory} (known : s.clientReply ≠ 0)
      (op : r.w0 = tcpOpSend) (here : (countDown s).conn = some c) (state : c.state = .established)
      (segment : built = c.segment myMac s.nicBuf c.sndNxt c.rcvNxt (Tcp.flagPsh ||| Tcp.flagAck)
        (slice s.clientBuf 0 (sendable r.w1))) :
      Happens myMac s (.message r mapped)
        { countDown s with nicBuf := built.2, conn := some { c with sndNxt := c.sndNxt + UInt32.ofNat (sendable r.w1) } }
        [.toNic (slice built.2 0 built.1), .reply s.clientReply (UInt32.ofNat (sendable r.w1))]
  | recvNow {r : RecvResult} {mapped : Option Memory} (known : s.clientReply ≠ 0) (op : r.w0 = tcpOpRecv)
      (why : 0 < s.bufferedLen ∨ alreadyDone (countDown s).conn = true) :
      Happens myMac s (.message r mapped) { countDown s with bufferedLen := 0 }
        [.reply s.clientReply (UInt32.ofNat s.bufferedLen)]
  | recvLater {r : RecvResult} {mapped : Option Memory} {c : Connection} (known : s.clientReply ≠ 0) (op : r.w0 = tcpOpRecv)
      (empty : s.bufferedLen = 0) (here : (countDown s).conn = some c) (going : c.state ≠ .lastAck ∧ c.state ≠ .finWait2) :
      Happens myMac s (.message r mapped)
        { countDown s with pendingOp := .recv, conn := some { c with attemptsLeft := maxAttempts } } []
  | close {r : RecvResult} {mapped : Option Memory} {c : Connection} {buf : Memory} {f : List UInt8} (known : s.clientReply ≠ 0)
      (op : r.w0 = tcpOpClose) (here : (countDown s).conn = some c) (state : c.state = .established)
      (segment : f = Proto.sent (c.segment myMac s.nicBuf c.sndNxt c.rcvNxt (Tcp.flagFin ||| Tcp.flagAck) [])) :
      Happens myMac s (.message r mapped)
        { countDown s with
          nicBuf := buf, pendingOp := .close,
          conn := some { c with sndNxt := c.sndNxt + 1, state := .finWait1, attemptsLeft := maxAttempts } } [.toNic f]
  | drop {r : RecvResult} {mapped : Option Memory} (known : s.clientReply ≠ 0) (op : r.w0 = tcpOpClose)
      (why : ∀ c, (countDown s).conn = some c → c.state ≠ .established) :
      Happens myMac s (.message r mapped) { countDown s with conn := none } [.reply s.clientReply 1]
  | resolved {bytes mac : List UInt8} {c : Connection} {buf : Memory} {f : List UInt8}
      (here : (countDown s).conn = some c) (state : c.state = .arpPending) (six : mac.length = 6)
      (segment : f = Proto.sent (Connection.segment { c with peerMac := mac } myMac (arrived s bytes).nicBuf c.sndNxt 0 Tcp.flagSyn [])) :
      Happens myMac s (.frame bytes)
        { countDown s with
          nicBuf := buf, conn := some { c with peerMac := mac, state := .synSent, attemptsLeft := maxAttempts } } [.toNic f]
  | rejected {bytes : List UInt8} {c : Connection} {buf : Memory} (here : (countDown s).conn = some c)
      (state : c.state = .synSent) :
      Happens myMac s (.frame bytes)
        { (answer (countDown s) .connect 0).1 with nicBuf := buf, conn := none } (answer (countDown s) .connect 0).2
  | opened {bytes : List UInt8} {c : Connection} {seg : Tcp.Segment} {buf : Memory} {f : List UInt8}
      (here : (countDown s).conn = some c) (state : c.state = .synSent)
      (heard : c.heard (blit s.nicBuf 0 bytes) bytes.length = some seg) (syn : seg.has Tcp.flagSyn = true)
      (segment : f = Proto.sent (c.segment myMac (arrived s bytes).nicBuf (c.sndNxt + 1) (seg.seq + 1) Tcp.flagAck [])) :
      Happens myMac s (.frame bytes)
        { (answer (countDown s) .connect 1).1 with nicBuf := buf, conn := some (c.open seg) }
        (.toNic f :: (answer (countDown s) .connect 1).2)
  | reset {bytes : List UInt8} {c : Connection} {buf : Memory} (here : (countDown s).conn = some c)
      (state : c.state = .established) (other : (countDown s).accepts bytes = none) :
      Happens myMac s (.frame bytes) { countDown s with nicBuf := buf, conn := none, pendingOp := .none }
        (onReset (countDown s) c).acts
  | data {bytes : List UInt8} {c : Connection} {seg : Tcp.Segment} {buf : Memory} {f : List UInt8}
      (here : (countDown s).conn = some c) (state : c.state = .established)
      (heard : c.heard (blit s.nicBuf 0 bytes) bytes.length = some seg)
      (alive : seg.has Tcp.flagRst = false) (next : c.inOrder seg = true ∨ c.finished seg = true)
      (waiting : s.pendingOp ≠ .recv)
      (segment : f = Proto.sent (acknowledgement myMac (arrived s bytes).nicBuf (store (countDown s) c seg).2
        ((store (countDown s) c seg).2.finished seg))) :
      Happens myMac s (.frame bytes)
        { (store (countDown s) c seg).1 with nicBuf := buf, conn := some (c.after (countDown s) seg) } [.toNic f]
  | dataReply {bytes : List UInt8} {c : Connection} {seg : Tcp.Segment} {buf : Memory} {f : List UInt8}
      (here : (countDown s).conn = some c) (state : c.state = .established)
      (heard : c.heard (blit s.nicBuf 0 bytes) bytes.length = some seg)
      (alive : seg.has Tcp.flagRst = false) (next : c.inOrder seg = true ∨ c.finished seg = true)
      (waiting : s.pendingOp = .recv)
      (segment : f = Proto.sent (acknowledgement myMac (arrived s bytes).nicBuf (store (countDown s) c seg).2
        ((store (countDown s) c seg).2.finished seg))) :
      Happens myMac s (.frame bytes)
        { (store (countDown s) c seg).1 with
          nicBuf := buf, conn := some (c.after (countDown s) seg), bufferedLen := 0, pendingOp := .none }
        [.toNic f, .reply s.clientReply (UInt32.ofNat (store (countDown s) c seg).1.bufferedLen)]
  | lastAcked {bytes : List UInt8} {c : Connection} {buf : Memory} (here : (countDown s).conn = some c)
      (state : c.state = .lastAck) :
      Happens myMac s (.frame bytes)
        { (answer (countDown s) .close 1).1 with nicBuf := buf, conn := none } (answer (countDown s) .close 1).2
  | finished {bytes : List UInt8} {c : Connection} {buf : Memory} {f : List UInt8} {seg : Tcp.Segment}
      (here : (countDown s).conn = some c) (state : c.state = .finWait1 ∨ c.state = .finWait2)
      (heard : c.heard (blit s.nicBuf 0 bytes) bytes.length = some seg) (fin : seg.has Tcp.flagFin = true)
      (segment : f = Proto.sent (c.segment myMac (arrived s bytes).nicBuf c.sndNxt (seg.seq + 1) Tcp.flagAck [])) :
      Happens myMac s (.frame bytes)
        { (answer (countDown s) .close 1).1 with nicBuf := buf, conn := none } (.toNic f :: (answer (countDown s) .close 1).2)
  | acknowledged {bytes : List UInt8} {c : Connection} {buf : Memory} {seg : Tcp.Segment}
      (here : (countDown s).conn = some c) (state : c.state = .finWait1)
      (heard : c.heard (blit s.nicBuf 0 bytes) bytes.length = some seg) (other : ¬seg.has Tcp.flagFin = true) :
      Happens myMac s (.frame bytes)
        { countDown s with nicBuf := buf, conn := some { c with state := .finWait2, attemptsLeft := maxAttempts } } []

section Inversion
variable {myMac : List UInt8} {s s' : Stack} {acts : List Act} {r : RecvResult} {mapped : Option Memory} {bytes : List UInt8}

@[simp] theorem countDown_clientReply (s : Stack) : (countDown s).clientReply = s.clientReply := by unfold countDown; split <;> rfl
@[simp] theorem countDown_clientBufMapped (s : Stack) : (countDown s).clientBufMapped = s.clientBufMapped := by
  unfold countDown; split <;> rfl
@[simp] theorem countDown_pendingOp (s : Stack) : (countDown s).pendingOp = s.pendingOp := by unfold countDown; split <;> rfl
@[simp] theorem countDown_bufferedLen (s : Stack) : (countDown s).bufferedLen = s.bufferedLen := by
  unfold countDown; split <;> rfl
@[simp] theorem countDown_nicBuf (s : Stack) : (countDown s).nicBuf = s.nicBuf := by unfold countDown; split <;> rfl
@[simp] theorem countDown_clientBuf (s : Stack) : (countDown s).clientBuf = s.clientBuf := by unfold countDown; split <;> rfl

theorem countDown_conn (s : Stack) : (countDown s).conn = none ↔ s.conn = none := by
  unfold countDown; split <;> simp

private theorem connect_happens (op : r.w0 = tcpOpConnect) (ran : connect myMac (countDown s) r = (s', acts)) :
    Happens myMac s (.message r mapped) s' acts := by
  unfold connect at ran
  split at ran
  · rename_i unknown
    cases ran
    exact .ignored (.inl (by simpa using unknown))
  · rename_i known
    split at ran
    · cases ran
      simpa using Happens.refused (by simpa using known) (.inl op)
    · rename_i fresh
      cases ran
      have free : s.conn = none := by
        simp only [not_or, Option.isSome_iff_ne_none, ne_eq, not_not] at fresh
        exact (countDown_conn s).mp fresh.1
      exact .connect (by simpa using known) op free (by rw [countDown_nicBuf]; rfl)

private theorem send_happens (op : r.w0 = tcpOpSend) (ran : send myMac (countDown s) r = (s', acts)) :
    Happens myMac s (.message r mapped) s' acts := by
  unfold send at ran
  split at ran
  · rename_i unknown
    cases ran
    exact .ignored (.inl (by simpa using unknown))
  · rename_i known
    simp only [countDown_clientReply] at known ran
    split at ran
    · rename_i c here
      split at ran
      · rename_i may
        cases ran
        simpa [Stack.transmit] using Happens.send known op here may.1 rfl
      · cases ran
        exact .refused known (.inr op)
    · cases ran
      exact .refused known (.inr op)

private theorem recv_happens (op : r.w0 = tcpOpRecv) (ran : recv (countDown s) = (s', acts)) :
    Happens myMac s (.message r mapped) s' acts := by
  unfold recv at ran
  split at ran
  · rename_i unknown
    cases ran
    exact .ignored (.inl (by simpa using unknown))
  · rename_i known
    rw [countDown_clientReply] at known
    split at ran
    · rename_i why
      rw [countDown_bufferedLen] at why
      cases ran
      simpa using Happens.recvNow known op why
    · rename_i going
      cases ran
      cases here : (countDown s).conn with
      | none => simp [here, alreadyDone] at going
      | some c =>
        simp only [here, alreadyDone, Bool.or_eq_true, decide_eq_true_eq, not_or, Nat.not_lt, Nat.le_zero,
          countDown_bufferedLen] at going
        exact .recvLater known op going.1 here going.2

private theorem close_happens (op : r.w0 = tcpOpClose) (ran : close myMac (countDown s) = (s', acts)) :
    Happens myMac s (.message r mapped) s' acts := by
  unfold close at ran
  split at ran
  · rename_i unknown
    cases ran
    exact .ignored (.inl (by simpa using unknown))
  · rename_i known
    rw [countDown_clientReply] at known
    split at ran
    · rename_i c here
      split at ran
      · rename_i state
        cases ran
        exact .close known op here state (by rw [countDown_nicBuf]; rfl)
      · rename_i other
        cases ran
        have why : ∀ c', (countDown s).conn = some c' → c'.state ≠ .established := by
          rintro c' here'
          rw [here, Option.some.injEq] at here'
          exact here' ▸ other
        simpa using Happens.drop known op why
    · rename_i gone
      cases ran
      simpa using Happens.drop known op (by simp [gone])

private theorem handleClientMessage_happens (ran : handleClientMessage myMac (countDown s) mapped r = (s', acts)) :
    Happens myMac s (.message r mapped) s' acts := by
  unfold handleClientMessage at ran
  split at ran
  · rename_i op
    have other : ¬IsRequest r := by
      rw [IsRequest, op]
      decide
    unfold setBuffer at ran
    split at ran
    · split at ran
      · cases ran
        exact .setBuffer op
      · cases ran
        exact .ignored (.inr other)
    · cases ran
      exact .ignored (.inr other)
  · split at ran
    · rename_i op
      unfold setReply at ran
      split at ran
      · rename_i named
        cases ran
        exact .setReply op named
      · cases ran
        exact .ignored (.inr (by rw [IsRequest, op]; decide))
    · split at ran
      · rename_i op
        exact connect_happens op ran
      · split at ran
        · rename_i op
          exact send_happens op ran
        · split at ran
          · rename_i op
            exact recv_happens op ran
          · split at ran
            · rename_i op
              exact close_happens op ran
            · cases ran
              exact .ignored (.inr (by simp_all [IsRequest]))

private theorem respond_happens (other : (countDown s).accepts bytes = none)
    (ignores : ∀ c seg, (countDown s).conn = some c → c.heard (blit s.nicBuf 0 bytes) bytes.length = some seg → c.Ignores seg)
    (ran : respond myMac (arrived s bytes) bytes.length = (s', acts)) : Happens myMac s (.frame bytes) s' acts := by
  obtain ⟨buf, frames, rfl⟩ : ∃ buf, (∀ a ∈ acts, ∃ f, a = .toNic f) ∧ s' = { countDown s with nicBuf := buf } := by
    unfold respond at ran
    split at ran
    · cases ran
      exact ⟨_, by simp, rfl⟩
    · cases ran
      exact ⟨_, by simp, rfl⟩
  exact .respond frames other ran ignores

private theorem answer_nicBuf (s : Stack) (buf : Memory) (op : PendingOp) (w0 : UInt32) :
    answer { s with nicBuf := buf } op w0 = ({ (answer s op w0).1 with nicBuf := buf }, (answer s op w0).2) := by
  unfold answer
  dsimp only
  split <;> rfl

private theorem store_nicBuf (s : Stack) (buf : Memory) (c : Connection) (seg : Tcp.Segment) :
    store { s with nicBuf := buf } c seg = ({ (store s c seg).1 with nicBuf := buf }, (store s c seg).2) := by
  unfold store
  split <;> rfl

theorem store_pendingOp (s : Stack) (c : Connection) (seg : Tcp.Segment) :
    (store s c seg).1.pendingOp = s.pendingOp := by
  unfold store
  split <;> rfl

private theorem store_clientReply (s : Stack) (c : Connection) (seg : Tcp.Segment) :
    (store s c seg).1.clientReply = s.clientReply := by
  unfold store
  split <;> rfl

section Frames
variable {c : Connection} {seg : Tcp.Segment} (here : (countDown s).conn = some c)
include here

theorem accepts_of_state (state : c.state ≠ .established) : (countDown s).accepts bytes = none := by
  simp [Stack.accepts, here, state]

theorem accepts_of_heard (state : c.state = .established)
    (heard : c.heard (blit s.nicBuf 0 bytes) bytes.length = some seg) :
    (countDown s).accepts bytes = if seg.has Tcp.flagRst = false ∧ c.inOrder seg = true then some seg else none := by
  simp [Stack.accepts, here, state, heard, Option.filter_some]

private theorem notMine_happens (other : (countDown s).accepts bytes = none)
    (ignores : ∀ seg, c.heard (blit s.nicBuf 0 bytes) bytes.length = some seg → c.Ignores seg)
    (ran : (Advance.none (arrived s bytes) c).conclude myMac bytes.length = (s', acts)) :
    Happens myMac s (.frame bytes) s' acts := by
  refine respond_happens other (fun c' seg there => ?_) ?_
  · rw [here, Option.some.injEq] at there
    exact there ▸ ignores seg
  · rw [← ran]
    simp [arrived, Advance.none, Advance.conclude, ← here]

/-- A connection that neither is open nor is closing takes nothing that it leaves to the responder. -/
theorem deaf_happens (state : c.state ≠ .established ∧ c.state ≠ .finWait1 ∧ c.state ≠ .finWait2)
    (ran : (Advance.none (arrived s bytes) c).conclude myMac bytes.length = (s', acts)) :
    Happens myMac s (.frame bytes) s' acts :=
  notMine_happens here (accepts_of_state here state.1)
    (fun _ _ => ⟨fun open' => absurd open' state.1, fun closing => absurd closing (not_or.mpr state.2)⟩) ran

private theorem onArpPending_happens (state : c.state = .arpPending)
    (ran : (onArpPending myMac (arrived s bytes) c bytes.length).conclude myMac bytes.length = (s', acts)) :
    Happens myMac s (.frame bytes) s' acts := by
  unfold onArpPending at ran
  split at ran
  · exact deaf_happens here (by simp [state]) ran
  · rename_i mac parsed
    have six : mac.length = 6 := by
      unfold Proto.parseArpReply at parsed
      dsimp only at parsed
      split_ifs at parsed
      cases parsed
      exact length_slice _ _ _
    cases ran
    exact .resolved here state six rfl

private theorem onSynSent_happens (state : c.state = .synSent)
    (heard : c.heard (blit s.nicBuf 0 bytes) bytes.length = some seg)
    (ran : (onSynSent myMac (arrived s bytes) c seg).conclude myMac bytes.length = (s', acts)) :
    Happens myMac s (.frame bytes) s' acts := by
  unfold onSynSent at ran
  split at ran
  · rw [arrived, answer_nicBuf] at ran
    cases ran
    exact .rejected here state
  · split at ran
    · rename_i handshake
      dsimp only [Stack.transmit] at ran
      rw [answer_nicBuf (arrived s bytes), arrived, answer_nicBuf] at ran
      cases ran
      exact .opened here state heard handshake.1 rfl
    · exact deaf_happens here (by simp [state]) ran

private theorem onEstablished_happens (state : c.state = .established)
    (heard : c.heard (blit s.nicBuf 0 bytes) bytes.length = some seg)
    (ran : (onEstablished myMac (arrived s bytes) c seg).conclude myMac bytes.length = (s', acts)) :
    Happens myMac s (.frame bytes) s' acts := by
  unfold onEstablished at ran
  split at ran
  · rename_i rst
    cases ran
    exact .reset here state (by simp [accepts_of_heard here state heard, rst])
  · rename_i alive
    rw [Bool.not_eq_true] at alive
    rw [arrived, store_nicBuf] at ran
    dsimp only at ran
    split at ran
    · rename_i neither
      simp only [Bool.and_eq_true, Bool.not_eq_true'] at neither
      simp only [store, neither.1, Bool.false_eq_true, if_false] at ran
      refine notMine_happens here (by simp [accepts_of_heard here state heard, neither.1]) (fun seg' again => ⟨fun _ => ?_, ?_⟩) ran
      · rw [heard, Option.some.injEq] at again
        have unfinished := neither.2
        simp only [store, neither.1, Bool.false_eq_true, if_false] at unfinished
        exact again ▸ ⟨alive, unfinished⟩
      · simp [state]
    · rename_i next
      have next : c.inOrder seg = true ∨ c.finished seg = true := by
        cases inOrder : c.inOrder seg with
        | true => exact .inl rfl
        | false => simpa [inOrder, store] using next
      unfold acknowledge at ran
      dsimp only [Stack.transmit] at ran
      generalize isBuilt : acknowledgement myMac (blit s.nicBuf 0 bytes) (store (countDown s) c seg).2
        ((store (countDown s) c seg).2.finished seg) = built at ran
      have segment : slice built.2 0 built.1 = Proto.sent (acknowledgement myMac (arrived s bytes).nicBuf
          (store (countDown s) c seg).2 ((store (countDown s) c seg).2.finished seg)) := by
        rw [← isBuilt]
        rfl
      split at ran
      · rename_i waiting
        rw [store_pendingOp, countDown_pendingOp] at waiting
        cases ran
        have answered : Happens myMac s (.frame bytes)
            { (store (countDown s) c seg).1 with
              nicBuf := built.2, conn := some (c.after (countDown s) seg), bufferedLen := 0, pendingOp := .none }
            [.toNic (slice built.2 0 built.1), .reply s.clientReply (UInt32.ofNat (store (countDown s) c seg).1.bufferedLen)] :=
          .dataReply here state heard alive next waiting segment
        rw [← countDown_clientReply s, ← store_clientReply (countDown s) c seg] at answered
        exact answered
      · rename_i idle
        rw [store_pendingOp, countDown_pendingOp] at idle
        cases ran
        exact .data here state heard alive next idle segment

private theorem onLastAck_happens (state : c.state = .lastAck)
    (ran : (onLastAck (arrived s bytes) c seg).conclude myMac bytes.length = (s', acts)) :
    Happens myMac s (.frame bytes) s' acts := by
  unfold onLastAck at ran
  split at ran
  · rw [arrived, answer_nicBuf] at ran
    cases ran
    exact .lastAcked here state
  · exact deaf_happens here (by simp [state]) ran

private theorem onFinAfterClose_happens (state : c.state = .finWait1 ∨ c.state = .finWait2)
    (heard : c.heard (blit s.nicBuf 0 bytes) bytes.length = some seg) (fin : seg.has Tcp.flagFin = true)
    (ran : (onFinAfterClose myMac (arrived s bytes) c seg).conclude myMac bytes.length = (s', acts)) :
    Happens myMac s (.frame bytes) s' acts := by
  unfold onFinAfterClose at ran
  dsimp only [Stack.transmit] at ran
  rw [answer_nicBuf (arrived s bytes), arrived, answer_nicBuf] at ran
  cases ran
  exact .finished here state heard fin rfl

private theorem closing_happens (state : c.state = .finWait1 ∨ c.state = .finWait2)
    (heard : c.heard (blit s.nicBuf 0 bytes) bytes.length = some seg) (other : ¬seg.has Tcp.flagFin = true)
    (ran : (Advance.none (arrived s bytes) c).conclude myMac bytes.length = (s', acts)) :
    Happens myMac s (.frame bytes) s' acts := by
  have closing : c.state ≠ .established := by rcases state with state | state <;> simp [state]
  refine notMine_happens here (accepts_of_state here closing) (fun seg' again => ⟨fun open' => absurd open' closing, fun _ => ?_⟩) ran
  rw [heard, Option.some.injEq] at again
  exact again ▸ Bool.eq_false_of_not_eq_true other

private theorem onFinWait1_happens (state : c.state = .finWait1)
    (heard : c.heard (blit s.nicBuf 0 bytes) bytes.length = some seg)
    (ran : (onFinWait1 myMac (arrived s bytes) c seg).conclude myMac bytes.length = (s', acts)) :
    Happens myMac s (.frame bytes) s' acts := by
  unfold onFinWait1 at ran
  split at ran
  · rename_i fin
    exact onFinAfterClose_happens here (.inl state) heard fin ran
  · rename_i other
    split at ran
    · cases ran
      exact .acknowledged here state heard other
    · exact closing_happens here (.inl state) heard other ran

private theorem onFinWait2_happens (state : c.state = .finWait2)
    (heard : c.heard (blit s.nicBuf 0 bytes) bytes.length = some seg)
    (ran : (onFinWait2 myMac (arrived s bytes) c seg).conclude myMac bytes.length = (s', acts)) :
    Happens myMac s (.frame bytes) s' acts := by
  unfold onFinWait2 at ran
  split at ran
  · rename_i fin
    exact onFinAfterClose_happens here (.inr state) heard fin ran
  · rename_i other
    exact closing_happens here (.inr state) heard other ran

end Frames

private theorem handleNicFrame_happens (ran : handleNicFrame myMac (arrived s bytes) bytes.length = (s', acts)) :
    Happens myMac s (.frame bytes) s' acts := by
  unfold handleNicFrame at ran
  split at ran
  · rename_i gone
    have gone : (countDown s).conn = none := gone
    exact respond_happens (by simp [Stack.accepts, gone]) (by simp [gone]) ran
  · rename_i c here
    replace here : (countDown s).conn = some c := here
    unfold advanceConnection at ran
    split at ran
    · rename_i state
      exact onArpPending_happens here state ran
    · split at ran
      · rename_i unheard
        have unheard : c.heard (blit s.nicBuf 0 bytes) bytes.length = none := unheard
        exact notMine_happens here (by simp [Stack.accepts, here, unheard]) (by simp [unheard]) ran
      · rename_i seg heard
        split at ran
        · rename_i state
          exact deaf_happens here (by simp [state]) ran
        · rename_i state
          exact onSynSent_happens here state heard ran
        · rename_i state
          exact onEstablished_happens here state heard ran
        · rename_i state
          exact onLastAck_happens here state ran
        · rename_i state
          exact onFinWait1_happens here state heard ran
        · rename_i state
          exact onFinWait2_happens here state heard ran

theorem iterate_happens {i : Input} (ran : iterate myMac s i = some (s', acts)) : Happens myMac s i s' acts := by
  cases i with
  | frame bytes =>
    simp only [iterate, Option.ite_none_left_eq_some, Option.some.injEq] at ran
    exact handleNicFrame_happens ran.2
  | message r mapped =>
    simp only [iterate, Option.ite_none_left_eq_some, Option.some.injEq] at ran
    exact handleClientMessage_happens ran.2
  | nothing =>
    simp only [iterate, Option.ite_none_left_eq_some, Option.some.injEq, Prod.mk.injEq] at ran
    obtain ⟨_, rfl, rfl⟩ := ran
    exact .nothing
  | timeout =>
    simp only [iterate, Option.ite_none_right_eq_some, Option.some.injEq] at ran
    obtain ⟨late, failed⟩ := ran
    simpa [failed] using (Happens.timeout late : Happens myMac s _ _ _)

end Inversion

end Netstack
end Pcern

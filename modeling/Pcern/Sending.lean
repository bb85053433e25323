import Pcern.Parsers
import Pcern.Replies

/-!
What a connection sends, as the peer reads it. The addresses of a connection keep the lengths of the source's arrays
through every run, so each frame the stack builds parses back to the segment that was meant.
-/
namespace Pcern

namespace Tcp
open Bytes Proto

/-- A frame that was sent, as its receiver reads it. -/
def parseFrame (frame : List UInt8) (expectPeerIp : List UInt8) : Option Segment :=
  parseSegment (fun i => frame.getD i 0) frame.length expectPeerIp

theorem parseFrame_slice (m : Memory) (len : Nat) (ip : List UInt8) : parseFrame (slice m 0 len) ip = parseSegment m len ip := by
  have agree : Agree len (fun i => (slice m 0 len).getD i 0) m := by
    intro i less
    simp [slice, List.getD_eq_getElem?_getD, less]
  rw [parseFrame, length_slice, parseSegment_agree agree]

end Tcp

namespace Netstack
open Bytes Libpcern Proto

def Act.frame : Act → Option (List UInt8)
  | .toNic f => some f
  | .reply _ _ => none

/-- The frames that a move hands to the driver. -/
def Record.frames (r : Record) : List (List UInt8) := r.acts.filterMap Act.frame

/-- The addresses have the lengths of the source's arrays. -/
structure Connection.Typed (c : Connection) : Prop where
  ip : c.peerIp.length = 4
  mac : c.peerMac.length = 6

def Stack.Typed (s : Stack) : Prop := ∀ c, s.conn = some c → c.Typed

def Connection.spoken (c : Connection) (seq ack : UInt32) (flags : UInt8) (payload : List UInt8) : Tcp.Segment :=
  { srcPort := localPort, dstPort := c.peerPort, seq, ack, flags, window, payload }

/-- A segment that is built is parsed as what the connection meant to say. -/
theorem Connection.Typed.parse_segment {c : Connection} (typed : c.Typed) {myMac : List UInt8} (six : myMac.length = 6) (buf : Memory)
    (seq ack : UInt32) (flags : UInt8) {payload : List UInt8} (short : payload.length ≤ maxSegmentPayload) :
    Tcp.parseFrame (sent (c.segment myMac buf seq ack flags payload)) staticIp = some (c.spoken seq ack flags payload) := by
  let o : Tcp.Outgoing :=
    { myMac, myIp := staticIp, peerMac := c.peerMac, peerIp := c.peerIp, segment := c.spoken seq ack flags payload
      myMac_length := six, myIp_length := rfl, peerMac_length := typed.mac, peerIp_length := typed.ip }
  rw [sent, Tcp.parseFrame_slice]
  exact o.parse_build buf short

section
variable {c : Connection} {s : Stack} {myMac : List UInt8} {len : Nat}

theorem Connection.Typed.of_eq {c' : Connection} (typed : c.Typed) (ip : c'.peerIp = c.peerIp) (mac : c'.peerMac = c.peerMac) :
    c'.Typed :=
  ⟨ip ▸ typed.ip, mac ▸ typed.mac⟩

theorem countDown_some (here : s.conn = some c) :
    (countDown s).conn = some { c with attemptsLeft := c.attemptsLeft - s.pending } := by
  unfold countDown Stack.pending
  split
  · exact here
  · simp only [here, Option.map_some]

theorem Stack.Typed.init (nicBuf clientBuf : Memory) : (Stack.init nicBuf clientBuf).Typed := by
  intro c here
  cases here

theorem Stack.Typed.countDown (typed : s.Typed) : (countDown s).Typed := by
  intro c here
  obtain ⟨c', before, rfl⟩ := countDown_eq_some here
  exact (typed c' before).of_eq rfl rfl

private theorem after_typed (typed : c.Typed) (seg : Tcp.Segment) : (c.after s seg).Typed := by
  have stored : (store s c seg).2.Typed := by
    unfold store
    split
    · exact typed.of_eq rfl rfl
    · exact typed
  unfold Connection.after Connection.ended
  split
  · exact stored.of_eq rfl rfl
  · exact stored

/-- The addresses of the connection keep their lengths. -/
theorem Happens.typed {i : Input} {s' : Stack} {acts : List Act} (happens : Happens myMac s i s' acts) (typed : s.Typed) : s'.Typed := by
  have counted := typed.countDown
  have changed {d : Connection} (known : d.Typed) : ∀ c, some d = some c → c.Typed := by
    rintro c ⟨⟩
    exact known
  have gone : ∀ c : Connection, none = some c → c.Typed := by
    rintro c ⟨⟩
  cases happens with
  | timeout late =>
    intro c there
    cases op : s.pendingOp <;> simp [failPendingOp, op] at there
  | connect known op free _ => exact changed ⟨rfl, rfl⟩
  | send known op here state segment => exact changed ((counted _ here).of_eq rfl rfl)
  | recvLater known op empty here going => exact changed ((counted _ here).of_eq rfl rfl)
  | close known op here state _ => exact changed ((counted _ here).of_eq rfl rfl)
  | resolved here state six _ => exact changed ⟨(counted _ here).ip, six⟩
  | opened here state heard _ _ => exact changed ((counted _ here).of_eq rfl rfl)
  | data here state heard alive next waiting _ => exact changed (after_typed (counted _ here) _)
  | dataReply here state heard alive next waiting _ => exact changed (after_typed (counted _ here) _)
  | acknowledged here state _ _ => exact changed ((counted _ here).of_eq rfl rfl)
  | drop known op why => exact gone
  | rejected here state => exact gone
  | reset here state other => exact gone
  | lastAcked here state => exact gone
  | finished here state _ _ _ => exact gone
  | _ => exact counted

private theorem perform_typed {m : Move} {s' : Stack} {acts : List Act} (typed : s.Typed) (moved : perform myMac s m = some (s', acts)) :
    s'.Typed := by
  rcases perform_cases moved with ⟨i, rfl, happens⟩ | ⟨-, -, page, rfl⟩
  · exact happens.typed typed
  · exact typed

end

theorem Runs.typed {myMac : List UInt8} {start s : Stack} {h : History} (run : Runs myMac start h s) (typed : start.Typed) : s.Typed :=
  Runs.rule (P := fun _ s => s.Typed) typed (fun _ before moved => perform_typed before moved) run

end Netstack
end Pcern

import Pcern.Replies

/-!
What reaches the client of `netstack`. A pass stores the payload it accepts
behind what is buffered, hands the whole buffer over, or drops it; the bytes
handed over and the bytes still buffered are the beginning of what the peer sent.
-/
namespace Pcern
namespace Netstack
open Bytes Libpcern

/-! ## What a move does to the page -/

/-- The bytes of a frame that go to the page. -/
def Stack.accepted (s : Stack) (bytes : List UInt8) : List UInt8 :=
  match s.accepts bytes with
  | some seg => seg.payload.take (taken s seg)
  | none => []

/-- The bytes that the move takes from the peer. -/
def Record.accepted (r : Record) : List UInt8 :=
  match r.move with
  | .pass (.frame bytes) => r.before.accepted bytes
  | _ => []

/-- A reply to a `TCP_OP_RECV` goes out in the pass that takes it, or while it is pending. -/
def Record.answersRecv (r : Record) : Bool :=
  match r.move with
  | .pass (.message m _) => m.w0 = tcpOpRecv
  | .pass _ => r.before.pendingOp = .recv
  | _ => false

def Act.value : Act → Option Nat
  | .reply _ w0 => some w0.toNat
  | .toNic _ => none

/-- The number of bytes that a reply to a `TCP_OP_RECV` announces. -/
def Record.announces (r : Record) : Option Nat := if r.answersRecv then r.acts.findSome? Act.value else none

/-- The outcomes of a move as far as the page is concerned. -/
inductive PageStep (r : Record) : Prop where
  | stored (page : r.after.clientBuf = blit r.before.clientBuf r.before.bufferedLen r.accepted)
      (len : r.after.bufferedLen = r.before.bufferedLen + r.accepted.length)
      (silent : r.announces.getD 0 = 0)
  | handed (page : r.after.clientBuf = blit r.before.clientBuf r.before.bufferedLen r.accepted)
      (len : r.after.bufferedLen = 0) (all : r.announces = some (r.before.bufferedLen + r.accepted.length))
  | cleared (page : r.after.clientBuf = r.before.clientBuf) (len : r.after.bufferedLen = 0) (gone : r.after.conn = none)
      (none : r.accepted = []) (silent : r.announces = .none)
  | replaced {m : RecvResult} {page : Memory} (setBuffer : r.move = .pass (.message m (some page)))
      (op : m.w0 = tcpOpSetBuffer) (len : r.after.bufferedLen = r.before.bufferedLen)
      (silent : r.announces = none)
  | wrote {start : Nat} {bytes : List UInt8} (write : r.move = .write start bytes)
      (page : r.after.clientBuf = blit r.before.clientBuf start bytes)
      (len : r.after.bufferedLen = r.before.bufferedLen)

section
variable {s : Stack} {c : Connection} {seg : Tcp.Segment}

private theorem countDown_accepts (s : Stack) (bytes : List UInt8) : (countDown s).accepts bytes = s.accepts bytes := by
  unfold countDown
  split
  · rfl
  · unfold Stack.accepts
    cases s.conn <;> rfl

private theorem taken_countDown (s : Stack) (seg : Tcp.Segment) : taken (countDown s) seg = taken s seg := by
  simp [taken]

theorem store_page {bytes : List UInt8} (here : (countDown s).conn = some c) (state : c.state = .established)
    (heard : c.heard (blit s.nicBuf 0 bytes) bytes.length = some seg) (alive : seg.has Tcp.flagRst = false) :
    (store (countDown s) c seg).1.clientBuf = blit s.clientBuf s.bufferedLen (s.accepted bytes) ∧
      (store (countDown s) c seg).1.bufferedLen = s.bufferedLen + (s.accepted bytes).length ∧
      (store (countDown s) c seg).2 = { c with rcvNxt := c.rcvNxt + UInt32.ofNat (s.accepted bytes).length } := by
  have accepts := accepts_of_heard here state heard
  rw [countDown_accepts] at accepts
  cases inOrder : c.inOrder seg with
  | true =>
    have accepted : s.accepted bytes = seg.payload.take (taken s seg) := by
      simp [Stack.accepted, accepts, alive, inOrder]
    have length : (seg.payload.take (taken s seg)).length = taken s seg := by
      simp [taken]
    simp [store, inOrder, accepted, length, taken_countDown]
  | false =>
    have accepted : s.accepted bytes = [] := by
      simp [Stack.accepted, accepts, inOrder]
    simp [store, inOrder, accepted, blit_nil]

end

section
variable {r : Record}

theorem PageStep.quiet (page : r.after.clientBuf = r.before.clientBuf) (len : r.after.bufferedLen = r.before.bufferedLen)
    (none : r.accepted = []) (silent : r.announces.getD 0 = 0) : PageStep r :=
  .stored (by rw [none, blit_nil, page]) (by simp [none, len]) silent

private theorem accepted_length_le (s : Stack) (bytes : List UInt8) :
    (s.accepted bytes).length ≤ tcpMaxTransfer - s.bufferedLen := by
  unfold Stack.accepted
  split
  · simp only [List.length_take, taken]
    omega
  · simp

theorem accepted_of_none {bytes : List UInt8} (frame : r.move = .pass (.frame bytes))
    (other : (countDown r.before).accepts bytes = none) : r.accepted = [] := by
  rw [countDown_accepts] at other
  simp [Record.accepted, Stack.accepted, frame, other]

private theorem toNat_ofNat_of_le {n : Nat} (le : n ≤ tcpMaxTransfer) : (UInt32.ofNat n).toNat = n := by
  rw [UInt32.toNat_ofNat']
  simp only [tcpMaxTransfer] at le
  omega

end

section
variable {myMac : List UInt8} {s s' : Stack} {i : Input} {acts : List Act}

private theorem findSome_frames {frames : List Act} (sent : ∀ a ∈ frames, ∃ f, a = .toNic f) :
    frames.findSome? Act.value = none := by
  rw [List.findSome?_eq_none_iff]
  intro a member
  obtain ⟨f, rfl⟩ := sent a member
  rfl

private theorem announces_of_message {r : Record} {m : RecvResult} {mapped : Option Memory}
    (message : r.move = .pass (.message m mapped)) (other : m.w0 ≠ tcpOpRecv) : r.announces.getD 0 = 0 := by
  simp [Record.announces, Record.answersRecv, message, other]

private theorem announces_answer {r : Record} {bytes : List UInt8} (frame : r.move = .pass (.frame bytes)) (op : PendingOp)
    (w0 : UInt32) (other : op ≠ .recv) (frames : List Act) (sent : r.acts = frames ++ (answer (countDown r.before) op w0).2)
    (plain : ∀ a ∈ frames, ∃ f, a = .toNic f) : r.announces.getD 0 = 0 := by
  unfold Record.announces
  split
  · rename_i recv
    have pending : r.before.pendingOp = .recv := by simpa [Record.answersRecv, frame] using recv
    have differs : ¬ PendingOp.recv = op := fun same => other same.symm
    simp [sent, answer, pending, differs, findSome_frames plain]
  · rfl

private theorem answer_page (s : Stack) (op : PendingOp) (w0 : UInt32) :
    (answer s op w0).1.clientBuf = s.clientBuf ∧ (answer s op w0).1.bufferedLen = s.bufferedLen := by
  unfold answer
  split <;> exact ⟨rfl, rfl⟩

theorem Happens.page (happens : Happens myMac s i s' acts) (room : s.bufferedLen ≤ tcpMaxTransfer) :
    PageStep ⟨s, .pass i, s', acts⟩ := by
  cases happens with
  | timeout late =>
    cases op : s.pendingOp with
    | none => simp [expired, op] at late
    | recv =>
      refine .handed ?_ ?_ ?_
      · simp [failPendingOp, op, Record.accepted, blit_nil]
      · simp [failPendingOp, op]
      · simp [Record.announces, Record.answersRecv, op, failPendingOp, Act.value, Record.accepted, toNat_ofNat_of_le room]
    | connect =>
      refine .cleared ?_ ?_ ?_ rfl ?_
      all_goals simp [failPendingOp, op, Record.announces, Record.answersRecv]
    | close =>
      refine .cleared ?_ ?_ ?_ rfl ?_
      all_goals simp [failPendingOp, op, Record.announces, Record.answersRecv]
  | nothing => exact .quiet (by simp) (by simp) rfl (by simp [Record.announces])
  | respond frames other _ _ =>
    exact .quiet (by simp) (by simp) (accepted_of_none rfl other) (by simp [Record.announces, findSome_frames frames])
  | ignored why => exact .quiet (by simp) (by simp) rfl (by simp [Record.announces])
  | setBuffer op => exact .replaced rfl op (by simp) (by simp [Record.announces])
  | setReply op named => exact .quiet (by simp) (by simp) rfl (by simp [Record.announces])
  | refused known op =>
    exact .quiet (by simp) (by simp) rfl (announces_of_message rfl (by rcases op with op | op <;> rw [op] <;> decide))
  | connect known op free _ =>
    exact .quiet (by simp) (by simp) rfl (announces_of_message rfl (by rw [op]; decide))
  | send known op here state segment =>
    exact .quiet (by simp) (by simp) rfl (announces_of_message rfl (by rw [op]; decide))
  | recvNow known op why =>
    exact .handed (by simp [Record.accepted, blit_nil]) rfl
      (by simp [Record.announces, Record.answersRecv, op, Act.value, Record.accepted, toNat_ofNat_of_le room])
  | recvLater known op empty here going => exact .quiet (by simp) (by simp) rfl (by simp [Record.announces])
  | close known op here state _ =>
    exact .quiet (by simp) (by simp) rfl (announces_of_message rfl (by rw [op]; decide))
  | drop known op why =>
    exact .quiet (by simp) (by simp) rfl (announces_of_message rfl (by rw [op]; decide))
  | resolved here state _ _ =>
    exact .quiet (by simp) (by simp) (accepted_of_none rfl (accepts_of_state here (by simp [state])))
      (by simp [Record.announces, Act.value])
  | rejected here state =>
    exact .quiet (by simp [answer_page]) (by simp [answer_page])
      (accepted_of_none rfl (accepts_of_state here (by simp [state])))
      (announces_answer rfl .connect 0 (by simp) [] rfl (by simp))
  | @opened bytes c seg buf f here state heard _ _ =>
    exact .quiet (by simp [answer_page]) (by simp [answer_page])
      (accepted_of_none rfl (accepts_of_state here (by simp [state])))
      (announces_answer rfl .connect 1 (by simp) [.toNic f] rfl (by simp))
  | reset here state other =>
    refine .quiet (by simp) (by simp) (accepted_of_none rfl other) ?_
    cases op : s.pendingOp <;> simp [Record.announces, Record.answersRecv, onReset, op, Act.value]
  | @data bytes c seg buf f here state heard alive next waiting _ =>
    obtain ⟨page, len, _⟩ := store_page here state heard alive
    exact .stored page len (by simp [Record.announces, Act.value])
  | @dataReply bytes c seg buf f here state heard alive next waiting _ =>
    obtain ⟨page, len, _⟩ := store_page here state heard alive
    have fits : s.bufferedLen + (s.accepted bytes).length ≤ tcpMaxTransfer := by
      have := accepted_length_le s bytes
      omega
    refine .handed page rfl ?_
    simp only [Record.announces, Record.answersRecv, waiting, decide_true, if_true, List.findSome?_cons, Act.value,
      len, toNat_ofNat_of_le fits]
    rfl
  | lastAcked here state =>
    exact .quiet (by simp [answer_page]) (by simp [answer_page])
      (accepted_of_none rfl (accepts_of_state here (by simp [state])))
      (announces_answer rfl .close 1 (by simp) [] rfl (by simp))
  | @finished bytes c buf f _ here state _ _ _ =>
    exact .quiet (by simp [answer_page]) (by simp [answer_page])
      (accepted_of_none rfl (accepts_of_state here (by rcases state with state | state <;> simp [state])))
      (announces_answer rfl .close 1 (by simp) [.toNic f] rfl (by simp))
  | acknowledged here state _ _ =>
    exact .quiet (by simp) (by simp) (accepted_of_none rfl (accepts_of_state here (by simp [state])))
      (by simp [Record.announces])

theorem perform_page {r : Record} (moved : perform myMac r.before r.move = some (r.after, r.acts))
    (room : r.before.bufferedLen ≤ tcpMaxTransfer) : PageStep r := by
  obtain ⟨s, m, s', acts⟩ := r
  cases m with
  | pass i => exact (iterate_happens moved).page room
  | write start bytes =>
    simp only [perform, Option.ite_none_right_eq_some, Option.some.injEq, Prod.mk.injEq] at moved
    obtain ⟨_, rfl, rfl⟩ := moved
    exact .wrote rfl rfl rfl
  | read len =>
    simp only [perform, Option.ite_none_right_eq_some, Option.some.injEq, Prod.mk.injEq] at moved
    obtain ⟨_, rfl, rfl⟩ := moved
    exact .quiet rfl rfl rfl rfl

theorem PageStep.room {r : Record} (step : PageStep r) (room : r.before.bufferedLen ≤ tcpMaxTransfer) :
    r.after.bufferedLen ≤ tcpMaxTransfer := by
  have accepted : r.accepted.length ≤ tcpMaxTransfer - r.before.bufferedLen := by
    unfold Record.accepted
    split
    · exact accepted_length_le _ _
    · simp
  cases step with
  | stored page len silent => omega
  | _ => omega

end

/-! ## In-order delivery -/

/-- The segment agrees with the stream `S` that begins after `irs`. -/
def Matches (S : List UInt8) (irs : UInt32) (seg : Tcp.Segment) : Prop :=
  seg.payload ≠ [] → ∃ k, seg.seq = irs + 1 + UInt32.ofNat k ∧ seg.payload <+: S.drop k

/-- What may happen while the stream is watched: frames that agree with it, sends and receives, and no writes by the
    client. -/
def Agrees (S : List UInt8) (irs : UInt32) (r : Record) : Prop :=
  match r.move with
  | .pass (.frame bytes) =>
    ∀ c seg, r.before.conn = some c → c.heard (blit r.before.nicBuf 0 bytes) bytes.length = some seg → Matches S irs seg
  | .pass (.message m _) => m.w0 = tcpOpSend ∨ m.w0 = tcpOpRecv
  | .pass _ => True
  | .write _ _ => False
  | .read _ => True

def Record.announced (r : Record) : List UInt8 := slice r.after.clientBuf 0 (r.announces.getD 0)

/-- What the client was told of, and what is still buffered. -/
def delivered (h : History) (s : Stack) : List UInt8 := h.flatMap Record.announced ++ slice s.clientBuf 0 s.bufferedLen

/-- The peer's `FIN` was taken in this move, and it came at `position`. -/
def Record.FinAt (r : Record) (position : UInt32) : Prop :=
  ∃ bytes c c' seg, r.move = .pass (.frame bytes) ∧ r.before.conn = some c ∧ c.state = .established ∧
    c.heard (blit r.before.nicBuf 0 bytes) bytes.length = some seg ∧ seg.has Tcp.flagFin = true ∧
    seg.seq + UInt32.ofNat seg.payload.length = position ∧ r.after.conn = some c' ∧ c'.state = .lastAck

section
variable {myMac : List UInt8} {s s' : Stack} {i : Input} {acts : List Act} {S : List UInt8} {irs : UInt32}

/-- How a pass moves an open connection along. -/
inductive Advances (r : Record) (c c' : Connection) : Prop where
  | on (state : c'.state = c.state) (next : c'.rcvNxt = c.rcvNxt + UInt32.ofNat r.accepted.length)
  | fin (before : c.state = .established) (after : c'.state = .lastAck)
      (next : c'.rcvNxt = c.rcvNxt + UInt32.ofNat r.accepted.length + 1)
      (accepted : r.FinAt (c.rcvNxt + UInt32.ofNat r.accepted.length))

variable {c c' : Connection} {r : Record}

private theorem after_advances {bytes : List UInt8} {seg : Tcp.Segment} (here : (countDown s).conn = some c)
    (state : c.state = .established) (heard : c.heard (blit s.nicBuf 0 bytes) bytes.length = some seg)
    (alive : seg.has Tcp.flagRst = false) (there : s'.conn = some (c.after (countDown s) seg)) :
    ∃ c₀, s.conn = some c₀ ∧ (c₀.state = .established ∨ c₀.state = .lastAck →
      Advances ⟨s, .pass (.frame bytes), s', acts⟩ c₀ (c.after (countDown s) seg)) := by
  obtain ⟨c₀, before, rfl⟩ := countDown_eq_some here
  obtain ⟨_, _, stored⟩ := store_page here state heard alive
  refine ⟨c₀, before, fun _ => ?_⟩
  unfold Connection.after at there ⊢
  rw [stored] at there ⊢
  unfold Connection.ended at there ⊢
  split
  · rename_i finished
    rw [if_pos finished] at there
    simp only [Connection.finished, Bool.and_eq_true, beq_iff_eq] at finished
    exact .fin state rfl rfl ⟨bytes, c₀, _, seg, rfl, before, state, heard, finished.1, finished.2, there, rfl⟩
  · exact .on rfl rfl

theorem Happens.advances (happens : Happens myMac s i s' acts) (there : s'.conn = some c')
    (agrees : Agrees S irs ⟨s, .pass i, s', acts⟩) :
    ∃ c, s.conn = some c ∧
      (c.state = .established ∨ c.state = .lastAck → Advances ⟨s, .pass i, s', acts⟩ c c') := by
  have kept : ∀ c, (countDown s).conn = some c → c'.state = c.state → c'.rcvNxt = c.rcvNxt →
      (⟨s, .pass i, s', acts⟩ : Record).accepted = [] →
      ∃ c, s.conn = some c ∧ (c.state = .established ∨ c.state = .lastAck → Advances ⟨s, .pass i, s', acts⟩ c c') := by
    intro c here state next none
    obtain ⟨c₀, before, rfl⟩ := countDown_eq_some here
    exact ⟨c₀, before, fun _ => .on state (by simpa [none] using next)⟩
  have elsewhere : ∀ c, (countDown s).conn = some c → c.state ≠ .established → c.state ≠ .lastAck →
      ∃ c, s.conn = some c ∧ (c.state = .established ∨ c.state = .lastAck → Advances ⟨s, .pass i, s', acts⟩ c c') := by
    intro c here open' last
    obtain ⟨c₀, before, rfl⟩ := countDown_eq_some here
    exact ⟨c₀, before, fun state => absurd state (not_or.mpr ⟨open', last⟩)⟩
  cases happens with
  | timeout late => cases op : s.pendingOp <;> simp_all [failPendingOp]
  | nothing => exact kept c' there rfl rfl rfl
  | respond frames other _ _ => exact kept c' there rfl rfl (accepted_of_none rfl other)
  | ignored why => exact kept c' there rfl rfl rfl
  | setBuffer op => exact kept c' there rfl rfl rfl
  | setReply op named => exact kept c' there rfl rfl rfl
  | refused known op => exact kept c' there rfl rfl rfl
  | connect known op free _ => exact absurd agrees (by simp only [Agrees, op]; decide)
  | send known op here state segment =>
    cases there
    exact kept _ here rfl rfl rfl
  | recvNow known op why => exact kept c' there rfl rfl rfl
  | recvLater known op empty here going =>
    cases there
    exact kept _ here rfl rfl rfl
  | close known op here state _ => exact absurd agrees (by simp only [Agrees, op]; decide)
  | drop known op why => simp at there
  | resolved here state _ _ => exact elsewhere _ here (by simp [state]) (by simp [state])
  | rejected here state => simp at there
  | opened here state heard _ _ => exact elsewhere _ here (by simp [state]) (by simp [state])
  | reset here state other => simp at there
  | data here state heard alive next waiting _ =>
    cases there
    exact after_advances here state heard alive rfl
  | dataReply here state heard alive next waiting _ =>
    cases there
    exact after_advances here state heard alive rfl
  | lastAcked here state => simp at there
  | finished here state _ _ _ => simp at there
  | acknowledged here state _ _ => exact elsewhere _ here (by simp [state]) (by simp [state])

private theorem accepts_eq_some {bytes : List UInt8} {seg : Tcp.Segment} (accepts : s.accepts bytes = some seg) :
    ∃ c, s.conn = some c ∧ c.state = .established ∧ c.heard (blit s.nicBuf 0 bytes) bytes.length = some seg ∧
      seg.has Tcp.flagRst = false ∧ seg.payload ≠ [] ∧ seg.seq = c.rcvNxt := by
  unfold Stack.accepts at accepts
  split at accepts
  · cases accepts
  · rename_i c here
    split at accepts
    · rename_i state
      obtain ⟨heard, passed⟩ := Option.filter_eq_some_iff.mp accepts
      simp only [Connection.inOrder, Bool.and_eq_true, Bool.not_eq_true', beq_iff_eq, List.isEmpty_eq_false_iff] at passed
      exact ⟨c, here, state, heard, passed.1, passed.2.1, passed.2.2⟩
    · cases accepts

private theorem ofNat_inj {j k : Nat} (small : j < 2 ^ 32) (small' : k < 2 ^ 32) (same : UInt32.ofNat j = UInt32.ofNat k) : j = k := by
  have := congrArg UInt32.toNat same
  rwa [UInt32.toNat_ofNat', UInt32.toNat_ofNat', Nat.mod_eq_of_lt small, Nat.mod_eq_of_lt small'] at this

private theorem accepted_eq_nil_or (r : Record) :
    r.accepted = [] ∨ ∃ bytes c seg, r.move = .pass (.frame bytes) ∧ r.before.conn = some c ∧ c.state = .established ∧
      c.heard (blit r.before.nicBuf 0 bytes) bytes.length = some seg ∧ seg.payload ≠ [] ∧ seg.seq = c.rcvNxt ∧
      r.accepted <+: seg.payload := by
  unfold Record.accepted
  split
  · rename_i bytes frame
    unfold Stack.accepted
    split
    · rename_i seg accepts
      obtain ⟨c, here, state, heard, _, some_bytes, seq⟩ := accepts_eq_some accepts
      exact .inr ⟨bytes, c, seg, frame, here, state, heard, some_bytes, seq, List.take_prefix _ _⟩
    · exact .inl rfl
  · exact .inl rfl

private theorem accepted_of_state (here : r.before.conn = some c) (state : c.state ≠ .established) :
    r.accepted = [] := by
  rcases accepted_eq_nil_or r with none | ⟨_, c₀, _, _, here₀, open', _⟩
  · exact none
  · rw [here, Option.some.injEq] at here₀
    exact absurd open' (here₀ ▸ state)

private theorem accepted_continues {D : List UInt8} (here : r.before.conn = some c)
    (short : S.length < 2 ^ 32) (agrees : Agrees S irs r) (before : D <+: S)
    (next : c.rcvNxt = irs + 1 + UInt32.ofNat D.length) : D ++ r.accepted <+: S := by
  rcases accepted_eq_nil_or r with none | ⟨bytes, c₀, seg, frame, here₀, _, heard, some_bytes, seq, part⟩
  · simpa [none] using before
  · simp only [Agrees, frame] at agrees
    rw [here, Option.some.injEq] at here₀
    subst here₀
    obtain ⟨k, at_k, payload⟩ := agrees c seg here heard some_bytes
    obtain ⟨t, rfl⟩ := before
    have inside : k < (D ++ t).length := by
      by_contra outside
      rw [List.drop_eq_nil_of_le (by omega), List.prefix_nil] at payload
      exact some_bytes payload
    have position : k = D.length := by
      refine ofNat_inj (by omega) ?_ ?_
      · rw [List.length_append] at short
        omega
      · rw [seq, next] at at_k
        exact ((UInt32.add_right_inj _).mp at_k).symm
    subst position
    rw [List.drop_left] at payload
    exact (List.prefix_append_right_inj D).mpr (part.trans payload)

theorem PageStep.moves (step : PageStep r) (going : r.after.conn ≠ none) (agrees : Agrees S irs r) :
    r.announced ++ slice r.after.clientBuf 0 r.after.bufferedLen =
      slice r.before.clientBuf 0 r.before.bufferedLen ++ r.accepted := by
  have whole := slice_blit_append r.before.clientBuf 0 r.before.bufferedLen r.accepted
  rw [Nat.zero_add] at whole
  cases step with
  | stored page len silent =>
    have nothing : r.announced = [] := by simp [Record.announced, silent, slice]
    rw [nothing, page, len, whole, List.nil_append]
  | handed page len all =>
    have nothing : slice r.after.clientBuf 0 r.after.bufferedLen = [] := by simp [len, slice]
    rw [nothing, Record.announced, all, Option.getD_some, page, whole, List.append_nil]
  | cleared page len gone none silent => exact absurd gone going
  | replaced setBuffer op len silent =>
    simp only [Agrees, setBuffer, op] at agrees
    exact absurd agrees (by decide)
  | wrote write page len => simp [Agrees, write] at agrees

/-- The invariant of a stream that began after `irs`. -/
structure Streams (S : List UInt8) (irs : UInt32) (h : History) (s : Stack) : Prop where
  room : s.bufferedLen ≤ tcpMaxTransfer
  state : ∀ c, s.conn = some c → c.state = .established ∨ c.state = .lastAck
  begins : s.conn ≠ none → delivered h s <+: S
  next : ∀ c, s.conn = some c →
    c.rcvNxt = irs + 1 + UInt32.ofNat (delivered h s).length + if c.state = .lastAck then 1 else 0
  going : ∀ c, s.conn = some c → c.state = .established → ∀ r ∈ h, ∀ position, ¬r.FinAt position
  fin : ∀ c, s.conn = some c → c.state = .lastAck →
    ∃ r ∈ h, r.FinAt (irs + 1 + UInt32.ofNat (delivered h s).length)

private theorem perform_advances (moved : perform myMac r.before r.move = some (r.after, r.acts))
    (there : r.after.conn = some c') (agrees : Agrees S irs r) :
    ∃ c, r.before.conn = some c ∧ (c.state = .established ∨ c.state = .lastAck → Advances r c c') := by
  obtain ⟨s, m, s', acts⟩ := r
  cases m with
  | pass i => exact (iterate_happens moved).advances there agrees
  | write start bytes => exact agrees.elim
  | read len =>
    simp only [perform, Option.ite_none_right_eq_some, Option.some.injEq, Prod.mk.injEq] at moved
    obtain ⟨_, rfl, rfl⟩ := moved
    exact ⟨c', there, fun _ => .on rfl (by simp [Record.accepted])⟩

theorem Streams.step {h : History} (streams : Streams S irs h r.before) (short : S.length < 2 ^ 32)
    (moved : perform myMac r.before r.move = some (r.after, r.acts)) (agrees : Agrees S irs r) :
    Streams S irs (h ++ [r]) r.after := by
  have page := perform_page moved streams.room
  have grown : r.after.conn ≠ none → delivered (h ++ [r]) r.after = delivered h r.before ++ r.accepted := by
    intro going
    have moves := page.moves going agrees
    simp only [delivered, List.flatMap_append, List.flatMap_singleton, List.append_assoc]
    rw [moves]
  have came : ∀ c', r.after.conn = some c' → ∃ c, r.before.conn = some c ∧ Advances r c c' := by
    intro c' there
    obtain ⟨c, here, advances⟩ := perform_advances moved there agrees
    exact ⟨c, here, advances (streams.state c here)⟩
  -- after the peer's `FIN` nothing is stored any more
  have ended : ∀ c, r.before.conn = some c → c.state = .lastAck → r.accepted = [] :=
    fun c here last => accepted_of_state here (by simp [last])
  have next : ∀ c, r.before.conn = some c → c.state = .established →
      c.rcvNxt = irs + 1 + UInt32.ofNat (delivered h r.before).length := by
    intro c here state
    simpa [state] using streams.next c here
  have total : r.after.conn ≠ none → UInt32.ofNat (delivered (h ++ [r]) r.after).length =
      UInt32.ofNat (delivered h r.before).length + UInt32.ofNat r.accepted.length := by
    intro going
    rw [grown going, List.length_append, UInt32.ofNat_add]
  refine ⟨page.room streams.room, ?_, ?_, ?_, ?_, ?_⟩
  · intro c' there
    obtain ⟨c, here, advances⟩ := came c' there
    cases advances with
    | on state next => exact state ▸ streams.state c here
    | fin was now next accepted => exact .inr now
  · intro going
    obtain ⟨c', there⟩ := Option.ne_none_iff_exists'.mp going
    obtain ⟨c, here, _⟩ := came c' there
    have begins := streams.begins (by simp [here])
    rw [grown going]
    rcases streams.state c here with state | state
    · exact accepted_continues here short agrees begins (next c here state)
    · simpa [ended c here state] using begins
  · intro c' there
    obtain ⟨c, here, advances⟩ := came c' there
    rw [total (by simp [there])]
    cases advances with
    | on state on =>
      rw [state, on, streams.next c here]
      split
      · rename_i last
        simp [ended c here last]
      · simp [UInt32.add_assoc]
    | fin was now on accepted =>
      rw [on, next c here was, now, if_pos rfl]
      simp [UInt32.add_assoc]
  · intro c' there open'
    obtain ⟨c, here, advances⟩ := came c' there
    cases advances with
    | on state on =>
      intro r' member position accepted
      rcases List.mem_append.mp member with old | new
      · exact streams.going c here (state ▸ open') r' old position accepted
      · obtain ⟨_, _, _, _, _, _, _, _, _, _, after, last⟩ := accepted
        rw [List.mem_singleton.mp new, there, Option.some.injEq] at after
        rw [← after, open'] at last
        cases last
    | fin was now on accepted =>
      rw [open'] at now
      cases now
  · intro c' there last
    obtain ⟨c, here, advances⟩ := came c' there
    rw [total (by simp [there])]
    cases advances with
    | on state on =>
      rw [state] at last
      obtain ⟨r', member, accepted⟩ := streams.fin c here last
      exact ⟨r', List.mem_append_left _ member, by simpa [ended c here last] using accepted⟩
    | fin was now on accepted =>
      rw [next c here was] at accepted
      exact ⟨r, by simp, by simpa [UInt32.add_assoc] using accepted⟩

theorem Runs.streams {start : Stack} {h : History} (run : Runs myMac start h s) (fresh : Streams S irs [] start)
    (short : S.length < 2 ^ 32) (agrees : ∀ r ∈ h, Agrees S irs r) : Streams S irs h s := by
  induction run with
  | start => exact fresh
  | move earlier moved ih =>
    obtain ⟨agrees, last⟩ := List.forall_mem_append.mp agrees
    exact (ih agrees).step (r := ⟨_, _, _, _⟩) short moved (last _ (List.mem_singleton.mpr rfl))

/-- The bytes announced and the bytes buffered are the beginning of the peer's stream, and `rcv_nxt` counts them. The
    run begins where the connection has become established. -/
theorem received_in_order {start : Stack} {h : History} {c₀ c : Connection} (opened : start.conn = some c₀)
    (established : c₀.state = .established) (first : c₀.rcvNxt = irs + 1) (empty : start.bufferedLen = 0)
    (short : S.length < 2 ^ 32) (run : Runs myMac start h s) (agrees : ∀ r ∈ h, Agrees S irs r)
    (here : s.conn = some c) :
    delivered h s <+: S ∧
      c.rcvNxt = irs + 1 + UInt32.ofNat (delivered h s).length + (if c.state = .lastAck then 1 else 0) ∧
      (c.state = .lastAck ↔ ∃ r ∈ h, r.FinAt (irs + 1 + UInt32.ofNat (delivered h s).length)) := by
  have fresh : Streams S irs [] start := by
    have nothing : delivered [] start = [] := by simp [delivered, empty, slice]
    have only : ∀ c, start.conn = some c → c = c₀ := fun c same => Option.some.inj (same.symm.trans opened)
    refine ⟨by omega, ?_, ?_, ?_, by simp, ?_⟩
    · exact fun c same => .inl (only c same ▸ established)
    · exact fun _ => nothing ▸ List.nil_prefix
    · intro c same
      simp [only c same, established, nothing, first]
    · intro c same last
      simp [only c same, established] at last
  have streams := run.streams fresh short agrees
  refine ⟨streams.begins (by simp [here]), streams.next c here, streams.fin c here, ?_⟩
  rintro ⟨r, member, accepted⟩
  refine (streams.state c here).resolve_left fun still => ?_
  exact streams.going c here still r member _ accepted

end

/-- A frame from the peer of the connection below. -/
def fromPeer (seq ack : UInt32) (flags : UInt8) (payload : List UInt8) : List UInt8 :=
  List.replicate 12 0 ++ [0x08, 0x00] ++ [0x45, 0] ++ be16 (UInt16.ofNat (40 + payload.length)) ++ [0, 0, 0, 0, 64, 6, 0, 0] ++
    [10, 0, 2, 2] ++ staticIp ++ be16 80 ++ be16 localPort ++ be32 seq ++ be32 ack ++ [0x50, flags, 8, 0, 0, 0, 0, 0] ++ payload

/-- A connection that has become established, after a peer's `SYN` with sequence number 1000. -/
def justConnected : Connection :=
  { peerIp := [10, 0, 2, 2], peerPort := 80, peerMac := List.replicate 6 0, state := .established,
    sndNxt := initialSeq + 1, rcvNxt := 1001, attemptsLeft := maxAttempts }

def justOpened : Stack :=
  { clientBufMapped := true, clientReply := 5, conn := some justConnected, pendingOp := .none, bufferedLen := 0,
    nicBuf := fun _ => 0, clientBuf := fun _ => 0 }

def threeBytes : List UInt8 := fromPeer 1001 0 Tcp.flagAck [1, 2, 3]

private theorem threeBytes_heard : justConnected.heard (blit justOpened.nicBuf 0 threeBytes) threeBytes.length =
    some { srcPort := 80, dstPort := localPort, seq := 1001, ack := 0, flags := Tcp.flagAck, window := 2048,
           payload := [1, 2, 3] } := by
  decide +kernel

theorem three_bytes_received :
    ∃ h s c, Runs [2, 0, 0, 0, 0, 9] justOpened h s ∧ (∀ r ∈ h, Agrees [1, 2, 3, 4] 1000 r) ∧ s.conn = some c ∧ c.rcvNxt = 1004 ∧
      delivered h s <+: [1, 2, 3, 4] := by
  have evaluated : (perform [2, 0, 0, 0, 0, 9] justOpened (.pass (.frame threeBytes))).map (fun next => next.1.conn) =
      some (some { justConnected with rcvNxt := 1004 }) := by decide +kernel
  obtain ⟨⟨s, acts⟩, moved, here⟩ := Option.map_eq_some_iff.mp evaluated
  have agrees : ∀ r ∈ ([⟨justOpened, .pass (.frame threeBytes), s, acts⟩] : History), Agrees [1, 2, 3, 4] 1000 r := by
    rw [List.forall_mem_singleton]
    intro c seg same heard
    rw [← Option.some.inj same, threeBytes_heard] at heard
    cases heard
    exact fun _ => ⟨0, rfl, by decide⟩
  have run : Runs [2, 0, 0, 0, 0, 9] justOpened _ s := .move .start moved
  refine ⟨_, s, _, run, agrees, here, rfl, ?_⟩
  exact (received_in_order rfl rfl rfl rfl (by decide) run agrees here).1

end Netstack
end Pcern

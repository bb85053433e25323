import Pcern.Receiving
import Pcern.Sending

/-!
Whose bytes the shared page holds. A ghost beside the run keeps, for every byte
that counts as buffered, the connection that brought it, and what the client
last wrote and was last told of. Two things go wrong in the code: the buffer is
not emptied when a connection ends, and payload is stored whenever it arrives.
-/
namespace Pcern
namespace Netstack
open Bytes Libpcern

/-- What the client has in the page: nothing it needs, a request it has not sent, or an answer it has not read. -/
inductive Phase where
  | clean
  | dirty
  | unread
  deriving DecidableEq, Repr

structure Ghost where
  /-- How many connections have been begun. -/
  connection : Nat
  /-- The buffered bytes, each with the connection that brought it. -/
  buffered : List (Nat × UInt8)
  phase : Phase
  /-- What the client wrote last. -/
  written : List UInt8
  /-- The peer's bytes that were announced last. -/
  announced : List UInt8

def Ghost.start : Ghost := { connection := 0, buffered := [], phase := .clean, written := [], announced := [] }

def Record.opens (r : Record) : Bool :=
  match r.move with
  | .pass (.message m _) => m.w0 = tcpOpConnect && r.before.conn.isNone && r.after.conn.isSome
  | _ => false

def Record.sends (r : Record) : Bool :=
  match r.move with
  | .pass (.message m _) => m.w0 = tcpOpSend
  | _ => false

def Ghost.stored (g : Ghost) (r : Record) : List (Nat × UInt8) := g.buffered ++ r.accepted.map (g.connection, ·)

/-- The bytes that the reply of the move announces. -/
def Ghost.announcement (g : Ghost) (r : Record) : List (Nat × UInt8) := (g.stored r).take (r.announces.getD 0)

def Ghost.phaseAfter (g : Ghost) (r : Record) : Phase :=
  match r.move with
  | .write _ _ => .dirty
  | .read _ => .clean
  | .pass _ =>
    if 0 < r.announces.getD 0 then .unread
    else if r.sends || r.move.request && g.phase = .unread then .clean
    else g.phase

def Ghost.next (g : Ghost) (r : Record) : Ghost where
  connection := if r.opens then g.connection + 1 else g.connection
  buffered := (g.stored r).take r.after.bufferedLen
  phase := g.phaseAfter r
  written := match r.move with | .write _ bytes => bytes | _ => g.written
  announced := if 0 < r.announces.getD 0 then (g.announcement r).map Prod.snd else g.announced

def ghost (h : History) : Ghost := h.foldl Ghost.next Ghost.start

@[simp] theorem ghost_nil : ghost [] = Ghost.start := rfl

@[simp] theorem ghost_append (h : History) (r : Record) : ghost (h ++ [r]) = (ghost h).next r := by
  simp [ghost]

/-! ## One connection after another -/

/-- The ghost follows the code's count, and what is buffered is the present connection's. -/
structure Current (g : Ghost) (s : Stack) : Prop where
  count : g.buffered.length = s.bufferedLen
  room : s.bufferedLen ≤ tcpMaxTransfer
  own : ∀ b ∈ g.buffered, b.1 = g.connection

section
variable {myMac : List UInt8} {r : Record} {g : Ghost}

theorem Current.stored (current : Current g r.before) : ∀ b ∈ g.stored r, b.1 = g.connection := by
  intro b member
  rcases List.mem_append.mp member with old | new
  · exact current.own b old
  · obtain ⟨_, _, rfl⟩ := List.mem_map.mp new
    rfl

theorem Record.accepted_of_opens (opens : r.opens = true) : r.accepted = [] := by
  unfold Record.opens at opens
  unfold Record.accepted
  split at opens
  · rename_i message
    simp [message]
  · cases opens

private theorem length_stored_take (count : g.buffered.length = r.before.bufferedLen) (step : PageStep r) :
    ((g.stored r).take r.after.bufferedLen).length = r.after.bufferedLen := by
  have whole : (g.stored r).length = r.before.bufferedLen + r.accepted.length := by simp [Ghost.stored, count]
  rw [List.length_take, whole]
  cases step <;> omega

theorem Current.step (current : Current g r.before) (moved : perform myMac r.before r.move = some (r.after, r.acts))
    (emptied : r.opens = true → r.before.bufferedLen = 0) : Current (g.next r) r.after := by
  have step := perform_page moved current.room
  refine ⟨length_stored_take current.count step, step.room current.room, ?_⟩
  intro b member
  have stored := List.mem_of_mem_take member
  cases opens : r.opens with
  | false => simpa [Ghost.next, opens] using current.stored b stored
  | true =>
    have empty : g.buffered = [] := List.length_eq_zero_iff.mp (current.count.trans (emptied opens))
    simp [Ghost.stored, empty, Record.accepted_of_opens opens] at stored

end

/-- The bytes that replies announce are those of the connection that is open, or was the last one. -/
def Unmixed (h : History) : Prop :=
  ∀ pre r post, h = pre ++ r :: post → ∀ b ∈ (ghost pre).announcement r, b.1 = (ghost pre).connection

variable {h : History} {P : Ghost → Record → Prop}

theorem Runs.current {myMac : List UInt8} {start s : Stack} (run : Runs myMac start h s)
    (fresh : start.bufferedLen = 0) (emptied : ∀ r ∈ h, r.opens = true → r.before.bufferedLen = 0) :
    Current (ghost h) s := by
  induction run with
  | start => exact ⟨fresh.symm, by omega, by simp [Ghost.start]⟩
  | move earlier moved ih =>
    obtain ⟨emptied, last⟩ := List.forall_mem_append.mp emptied
    rw [ghost_append]
    exact (ih emptied).step (r := ⟨_, _, _, _⟩) moved (last _ (List.mem_singleton.mpr rfl))

theorem connections_apart {myMac : List UInt8} {nicBuf clientBuf : Memory} {h : History} {s : Stack}
    (run : Runs myMac (Stack.init nicBuf clientBuf) h s)
    (emptied : ∀ r ∈ h, r.opens = true → r.before.bufferedLen = 0) :
    Unmixed h ∧ (ghost h).buffered.length = s.bufferedLen := by
  refine ⟨?_, (run.current rfl emptied).count⟩
  rintro pre r post rfl b announced
  have split : pre ++ r :: post = pre ++ [r] ++ post := by simp
  rw [split] at run emptied
  obtain ⟨_, upTo⟩ := run.prefixed
  obtain ⟨before, _, _⟩ := upTo.earlier
  have current := before.current rfl fun r' member => emptied r' (by simp [member])
  exact current.stored b (List.mem_of_mem_take announced)

/-- A reply to the request for the peer's hardware address. -/
def arpReply : List UInt8 :=
  List.replicate 12 0 ++ [0x08, 0x06] ++ [0, 1] ++ [0x08, 0x00] ++ [6, 4] ++ [0, 2] ++ [2, 2, 2, 2, 2, 2] ++ [10, 0, 2, 2] ++
    List.replicate 10 0

def accepting (seq : UInt32) : List Move :=
  [.pass (.frame arpReply), .pass (.frame (fromPeer seq (initialSeq + 1) (Tcp.flagSyn ||| Tcp.flagAck) []))]

def request (op w1 w2 : UInt32) : Move :=
  .pass (.message { sender := 8, w0 := op, w1, w2, transferredSlot := 0 } none)

/-- The peer sends three bytes and closes; then the client connects again and asks for data. Between the two it may
    have asked for the three bytes. -/
def reconnecting (between : List Move) : List Move :=
  setUp (fun _ => 0) ++ accepting 1000 ++ [.pass (.frame (fromPeer 1001 (initialSeq + 1) Tcp.flagAck [1, 2, 3]))] ++ between ++
    [.pass (.frame (fromPeer 1004 (initialSeq + 1) (Tcp.flagFin ||| Tcp.flagAck) [])),
      .pass (.frame (fromPeer 1005 (initialSeq + 2) Tcp.flagAck [])), request tcpOpConnect 0x0202000A 80] ++
    accepting 5000 ++ [request tcpOpRecv 0 0]

theorem reconnect_after_reading :
    ∃ h s, Runs [2, 0, 0, 0, 0, 9] (Stack.init (fun _ => 0) (fun _ => 0)) h s ∧ (ghost h).connection = 2 ∧
      (∀ r ∈ h, r.opens = true → r.before.bufferedLen = 0) ∧ Unmixed h := by
  have played : (play [2, 0, 0, 0, 0, 9] (Stack.init (fun _ => 0) (fun _ => 0)) (reconnecting [request tcpOpRecv 0 0])).any
      (fun done => (ghost done.1).connection == 2 && done.1.all fun r => !r.opens || r.before.bufferedLen == 0) = true := by
    decide +kernel
  obtain ⟨done, ended, seen⟩ := (Option.any_eq_true _ _).mp played
  simp only [Bool.and_eq_true, beq_iff_eq, List.all_eq_true] at seen
  have emptied : ∀ r ∈ done.1, r.opens = true → r.before.bufferedLen = 0 := by
    intro r member opens
    simpa [opens] using seen.2 r member
  exact ⟨_, _, play_runs ended, seen.1, emptied, (connections_apart (play_runs ended) emptied).1⟩

/-- The client does not ask for the three bytes of its first connection. Its second `TCP_OP_CONNECT` is answered with 1,
    and the `TCP_OP_RECV` after it with 3: the bytes that the first connection brought. -/
theorem unread_bytes_outlive_connection :
    ∃ before r s, Runs [2, 0, 0, 0, 0, 9] (Stack.init (fun _ => 0) (fun _ => 0)) (before ++ [r]) s ∧
      (before ++ [r]).map Record.move = reconnecting [] ∧ OneAtATime (before ++ [r]) ∧
      (before.flatMap Record.acts).filter Act.isReply = [.reply 5 1, .reply 5 1] ∧ r.acts = [.reply 5 3] ∧
      (ghost before).connection = 2 ∧ (ghost before).announcement r = [(1, 1), (1, 2), (1, 3)] ∧ ¬Unmixed (before ++ [r]) := by
  have played : (play [2, 0, 0, 0, 0, 9] (Stack.init (fun _ => 0) (fun _ => 0)) (reconnecting [])).any (fun done =>
      oneAtATime done.1 && (done.1.dropLast.flatMap Record.acts).filter Act.isReply == [.reply 5 1, .reply 5 1] &&
        (ghost done.1.dropLast).connection == 2 && done.1.getLast?.any fun r =>
          r.acts == [.reply 5 3] && (ghost done.1.dropLast).announcement r == [(1, 1), (1, 2), (1, 3)]) = true := by
    decide +kernel
  obtain ⟨done, ended, seen⟩ := (Option.any_eq_true _ _).mp played
  simp only [Bool.and_eq_true, beq_iff_eq, Option.any_eq_true] at seen
  obtain ⟨⟨⟨client, replies⟩, second⟩, r, last, answer, announced⟩ := seen
  have whole := List.dropLast_append_getLast? r last
  have run := play_runs ended
  have moves := play_moves ended
  rw [← whole] at run moves client
  refine ⟨_, r, _, run, moves, oneAtATime_sound client, replies, answer, second, announced, fun unmixed => ?_⟩
  have same := unmixed _ r [] rfl (1, 1) (by simp [announced])
  rw [second] at same
  cases same

/-! ## Two directions through one page -/

/-- The client of the protocol: it writes a request at the front of the page and sends that, and it reads what was
    announced before it goes on. Its page was set up before. -/
def Follows (g : Ghost) (r : Record) : Prop :=
  match r.move with
  | .write start _ => start = 0 ∧ g.phase ≠ .unread
  | .read n => g.phase = .unread ∧ n = g.announced.length
  | .pass (.message m _) =>
    m.w0 ≠ tcpOpSetBuffer ∧ (m.w0 = tcpOpSend → g.phase = .dirty ∧ m.w1.toNat = g.written.length)
  | .pass _ => True

/-- The two directions keep out of each other's way: the client writes when nothing is buffered, and payload is stored
    when the client needs nothing in the page. -/
def Spaced (g : Ghost) (r : Record) : Prop :=
  match r.move with
  | .write _ bytes => bytes = [] ∨ r.before.bufferedLen = 0
  | .pass (.frame _) => r.accepted = [] ∨ g.phase = .clean
  | _ => True

/-- What is sent, as the peer parses it, is what the client wrote, and what the client reads is what was announced. -/
def Intact (g : Ghost) (r : Record) : Prop :=
  match r.move with
  | .read n => slice r.before.clientBuf 0 n = g.announced
  | .pass (.message m _) =>
    m.w0 = tcpOpSend → ∀ f ∈ r.frames,
      ∃ seg, Tcp.parseFrame f staticIp = some seg ∧ seg.payload = g.written.take (sendable m.w1)
  | _ => True

/-- A property of every move of a history, given the ghost before it. -/
def Throughout (P : Ghost → Record → Prop) (h : History) : Prop := ∀ pre r post, h = pre ++ r :: post → P (ghost pre) r

private theorem throughout_append {r : Record} :
    Throughout P (h ++ [r]) ↔ Throughout P h ∧ P (ghost h) r :=
  forall_moves_append (P := fun pre r => P (ghost pre) r)

/-- The page holds what the ghost says it does. -/
structure Holds (g : Ghost) (s : Stack) : Prop where
  room : s.bufferedLen ≤ tcpMaxTransfer
  buffered : slice s.clientBuf 0 s.bufferedLen = g.buffered.map Prod.snd
  dirty : g.phase = .dirty → slice s.clientBuf 0 g.written.length = g.written ∧ (g.written = [] ∨ s.bufferedLen = 0)
  unread : g.phase = .unread → slice s.clientBuf 0 g.announced.length = g.announced ∧ s.bufferedLen = 0

section
variable {myMac : List UInt8} {g : Ghost} {r : Record}

theorem Holds.count (holds : Holds g r.before) : g.buffered.length = r.before.bufferedLen := by
  have lengths := congrArg List.length holds.buffered
  simpa using lengths.symm

theorem Holds.stored (holds : Holds g r.before) :
    slice (blit r.before.clientBuf r.before.bufferedLen r.accepted) 0 (r.before.bufferedLen + r.accepted.length) =
      (g.stored r).map Prod.snd := by
  have whole := slice_blit_append r.before.clientBuf 0 r.before.bufferedLen r.accepted
  rw [Nat.zero_add] at whole
  rw [whole, holds.buffered]
  simp [Ghost.stored, Function.comp_def]

theorem Ghost.length_stored (holds : Holds g r.before) :
    (g.stored r).length = r.before.bufferedLen + r.accepted.length := by
  simp [Ghost.stored, holds.count]

private theorem accepted_of_needed (spaced : Spaced g r) (needed : g.phase ≠ .clean) : r.accepted = [] := by
  unfold Spaced at spaced
  split at spaced
  · rename_i write
    simp [Record.accepted, write]
  · exact spaced.resolve_right needed
  · unfold Record.accepted
    split
    · rename_i frame
      simp_all
    · rfl

theorem Ghost.phaseAfter_quiet {i : Input} (pass : r.move = .pass i) (silent : r.announces.getD 0 = 0)
    (needed : g.phaseAfter r ≠ .clean) : g.phaseAfter r = g.phase := by
  unfold Ghost.phaseAfter at needed ⊢
  rw [pass] at needed ⊢
  dsimp only at needed ⊢
  rw [if_neg (by omega)] at needed ⊢
  split
  · rename_i given
    rw [if_pos given] at needed
    exact absurd rfl needed
  · rfl

theorem Ghost.next_written {i : Input} (pass : r.move = .pass i) : (g.next r).written = g.written := by
  simp [Ghost.next, pass]

theorem Holds.needed (holds : Holds g r.before) (spaced : Spaced g r) {i : Input} (pass : r.move = .pass i)
    (silent : r.announces.getD 0 = 0)
    (page : r.after.clientBuf = blit r.before.clientBuf r.before.bufferedLen r.accepted)
    (len : r.accepted = [] → r.after.bufferedLen = r.before.bufferedLen ∨ r.after.bufferedLen = 0) :
    ((g.next r).phase = .dirty → slice r.after.clientBuf 0 (g.next r).written.length = (g.next r).written ∧
      ((g.next r).written = [] ∨ r.after.bufferedLen = 0)) ∧
    ((g.next r).phase = .unread → slice r.after.clientBuf 0 (g.next r).announced.length = (g.next r).announced ∧
      r.after.bufferedLen = 0) := by
  have announced : (g.next r).announced = g.announced := by simp [Ghost.next, silent]
  have phase : ∀ p, p ≠ .clean → (g.next r).phase = p → g.phase = p ∧ r.accepted = [] := by
    intro p needed after
    change g.phaseAfter r = p at after
    have before : g.phase = p := (Ghost.phaseAfter_quiet pass silent (after ▸ needed)).symm.trans after
    exact ⟨before, accepted_of_needed spaced (before ▸ needed)⟩
  constructor
  · intro after
    obtain ⟨before, none⟩ := phase .dirty (by decide) after
    obtain ⟨kept, empty⟩ := holds.dirty before
    rw [Ghost.next_written pass, page, none, blit_nil]
    refine ⟨kept, empty.imp_right fun empty => ?_⟩
    rcases len none with same | zero <;> omega
  · intro after
    obtain ⟨before, none⟩ := phase .unread (by decide) after
    obtain ⟨kept, empty⟩ := holds.unread before
    rw [announced, page, none, blit_nil]
    refine ⟨kept, ?_⟩
    rcases len none with same | zero <;> omega

theorem Holds.pass (holds : Holds g r.before) {i : Input} (pass : r.move = .pass i) (step : PageStep r)
    (follows : Follows g r) (spaced : Spaced g r) : Holds (g.next r) r.after := by
  have room := step.room holds.room
  have whole := g.length_stored holds
  have nothing : r.after.bufferedLen = 0 →
      slice r.after.clientBuf 0 r.after.bufferedLen = (g.next r).buffered.map Prod.snd := by
    intro empty
    simp [Ghost.next, empty, slice]
  cases step with
  | stored page len silent =>
    obtain ⟨dirty, unread⟩ := holds.needed spaced pass silent page fun none => .inl (by simp [len, none])
    refine ⟨room, ?_, dirty, unread⟩
    rw [page, len, holds.stored, Ghost.next, len, ← whole, List.take_length]
  | handed page len all =>
    by_cases some_bytes : r.before.bufferedLen + r.accepted.length = 0
    · have silent : r.announces.getD 0 = 0 := by rw [all, Option.getD_some, some_bytes]
      obtain ⟨dirty, unread⟩ := holds.needed spaced pass silent page fun _ => .inr len
      exact ⟨room, nothing len, dirty, unread⟩
    · have loud : 0 < r.announces.getD 0 := by rw [all, Option.getD_some]; omega
      have phase : (g.next r).phase = .unread := by simp [Ghost.next, Ghost.phaseAfter, pass, loud]
      refine ⟨room, nothing len, by simp [phase], fun _ => ⟨?_, len⟩⟩
      have announced : (g.next r).announced = (g.stored r).map Prod.snd := by
        rw [Ghost.next]
        dsimp only
        rw [if_pos loud, Ghost.announcement, all, Option.getD_some, ← whole, List.take_length]
      rw [announced, List.length_map, whole, page, holds.stored]
  | cleared page len gone none silent =>
    have page' : r.after.clientBuf = blit r.before.clientBuf r.before.bufferedLen r.accepted := by rw [none, blit_nil, page]
    obtain ⟨dirty, unread⟩ := holds.needed spaced pass (by simp [silent]) page' fun _ => .inr len
    exact ⟨room, nothing len, dirty, unread⟩
  | replaced setBuffer op len silent =>
    simp only [Follows, setBuffer, op] at follows
    exact absurd rfl follows.1
  | wrote write page len => simp [pass] at write

theorem Holds.step (holds : Holds g r.before) (moved : perform myMac r.before r.move = some (r.after, r.acts))
    (follows : Follows g r) (spaced : Spaced g r) : Holds (g.next r) r.after := by
  have step := perform_page moved holds.room
  obtain ⟨s, m, s', acts⟩ := r
  cases m with
  | pass i => exact holds.pass rfl step follows spaced
  | write start bytes =>
    simp only [perform, Option.ite_none_right_eq_some, Option.some.injEq, Prod.mk.injEq] at moved
    obtain ⟨inside, rfl, rfl⟩ := moved
    obtain ⟨rfl, _⟩ := follows
    have buffered : (g.next ⟨s, .write 0 bytes, { s with clientBuf := blit s.clientBuf 0 bytes }, []⟩).buffered = g.buffered := by
      have count : g.buffered.length = s.bufferedLen := holds.count
      simp [Ghost.next, Ghost.stored, Record.accepted, ← count]
    refine ⟨holds.room, ?_, fun _ => ⟨slice_blit_same s.clientBuf 0 bytes, spaced⟩, by simp [Ghost.next, Ghost.phaseAfter]⟩
    rw [buffered, ← holds.buffered]
    rcases spaced with rfl | empty
    · rw [blit_nil]
    · simp only at empty
      simp [empty, slice]
  | read len =>
    simp only [perform, Option.ite_none_right_eq_some, Option.some.injEq, Prod.mk.injEq] at moved
    obtain ⟨inside, rfl, rfl⟩ := moved
    have buffered : (g.next ⟨s, .read len, s, []⟩).buffered = g.buffered := by
      have count : g.buffered.length = s.bufferedLen := holds.count
      simp [Ghost.next, Ghost.stored, Record.accepted, ← count]
    exact ⟨holds.room, by rw [buffered]; exact holds.buffered, by simp [Ghost.next, Ghost.phaseAfter],
      by simp [Ghost.next, Ghost.phaseAfter]⟩

private theorem sendable_le (asked : UInt32) : sendable asked ≤ asked.toNat := by
  unfold sendable
  omega

theorem sendable_le_payload (asked : UInt32) : sendable asked ≤ maxSegmentPayload := Nat.min_le_right _ _

theorem Happens.payload {s s' : Stack} {m : RecvResult} {mapped : Option Memory} {acts : List Act}
    (happens : Happens myMac s (.message m mapped) s' acts) (six : myMac.length = 6) (typed : s.Typed) (op : m.w0 = tcpOpSend)
    {f : List UInt8} (sent : f ∈ acts.filterMap Act.frame) :
    ∃ seg, Tcp.parseFrame f staticIp = some seg ∧ seg.payload = slice s.clientBuf 0 (sendable m.w1) := by
  cases happens with
  | @send m mapped c built known op' here state segment =>
    obtain rfl : f = _ := by simpa [Act.frame] using sent
    subst segment
    have short : (slice s.clientBuf 0 (sendable m.w1)).length ≤ maxSegmentPayload := by
      rw [length_slice]
      exact sendable_le_payload m.w1
    exact ⟨_, (typed.countDown c here).parse_segment six _ _ _ _ short, rfl⟩
  | connect known other free _ => exact absurd (other.symm.trans op) (by decide)
  | close known other here state _ => exact absurd (other.symm.trans op) (by decide)
  | _ => simp [Act.frame] at sent

theorem Holds.intact (holds : Holds g r.before) (six : myMac.length = 6) (typed : r.before.Typed)
    (moved : perform myMac r.before r.move = some (r.after, r.acts)) (follows : Follows g r) : Intact g r := by
  obtain ⟨s, m, s', acts⟩ := r
  cases m with
  | write start bytes => trivial
  | read len =>
    obtain ⟨phase, rfl⟩ := follows
    exact (holds.unread phase).1
  | pass i =>
    cases i with
    | message m mapped =>
      intro op f sent
      obtain ⟨phase, length⟩ := follows.2 op
      have le : sendable m.w1 ≤ g.written.length := length ▸ sendable_le m.w1
      have happens : Happens myMac s (.message m mapped) s' acts := iterate_happens moved
      obtain ⟨seg, parsed, payload⟩ := happens.payload six typed op sent
      refine ⟨seg, parsed, ?_⟩
      rw [payload, ← slice_take _ _ le, (holds.dirty phase).1]
    | _ => trivial

theorem Runs.holds {start s : Stack} {h : History} (run : Runs myMac start h s) (fresh : start.bufferedLen = 0)
    (follows : Throughout Follows h) (spaced : Throughout Spaced h) : Holds (ghost h) s := by
  induction run with
  | start =>
    refine ⟨by omega, ?_, nofun, nofun⟩
    simp [fresh, slice, Ghost.start]
  | move earlier moved ih =>
    obtain ⟨follows, lastFollows⟩ := throughout_append.mp follows
    obtain ⟨spaced, lastSpaced⟩ := throughout_append.mp spaced
    rw [ghost_append]
    exact (ih follows spaced).step (r := ⟨_, _, _, _⟩) moved lastFollows lastSpaced

/-- With the two directions apart, the page is safe in both. -/
theorem page_safe_when_spaced {start s : Stack} {h : History} (six : myMac.length = 6) (typed : start.Typed)
    (run : Runs myMac start h s) (fresh : start.bufferedLen = 0) (follows : Throughout Follows h) (spaced : Throughout Spaced h) :
    Throughout Intact h := by
  rintro pre r post rfl
  have split : pre ++ r :: post = pre ++ [r] ++ post := by simp
  rw [split] at run
  obtain ⟨_, upTo⟩ := run.prefixed
  obtain ⟨before, moved, _⟩ := upTo.earlier
  have earlier : ∀ {P : Ghost → Record → Prop}, Throughout P (pre ++ r :: post) → Throughout P pre :=
    fun all pre' r' post' whole => all pre' r' (post' ++ r :: post) (by simp [whole])
  have holds := before.holds fresh (earlier follows) (earlier spaced)
  exact holds.intact six (before.typed typed) moved (follows pre r post rfl)

end

instance (g : Ghost) (r : Record) : Decidable (Follows g r) := by
  unfold Follows
  split <;> infer_instance

instance (g : Ghost) (r : Record) : Decidable (Spaced g r) := by
  unfold Spaced
  split <;> infer_instance

def throughout (P : Ghost → Record → Prop) [∀ g r, Decidable (P g r)] : History → Bool :=
  everyMove fun h r => decide (P (ghost h) r)

private theorem throughout_sound [∀ g r, Decidable (P g r)]
    (checked : throughout P h = true) : Throughout P h :=
  fun pre r post whole => of_decide_eq_true (everyMove_sound checked pre r post whole)

def connecting : List Move := setUp (fun _ => 0) ++ accepting 1000

def arriving : Move := .pass (.frame (fromPeer 1001 (initialSeq + 1) Tcp.flagAck [1, 2, 3]))

theorem page_safe_in_turns :
    ∃ start h s, start.Typed ∧ Runs [2, 0, 0, 0, 0, 9] start h s ∧ start.bufferedLen = 0 ∧ h.length = 5 ∧ Throughout Follows h ∧
      Throughout Spaced h ∧ Throughout Intact h := by
  have played : (play [2, 0, 0, 0, 0, 9] (Stack.init (fun _ => 0) (fun _ => 0)) connecting).any (fun first =>
      first.2.bufferedLen == 0 &&
        (play [2, 0, 0, 0, 0, 9] first.2 [.write 0 [7, 8, 9], request tcpOpSend 3 0, arriving, request tcpOpRecv 0 0, .read 3]).any
          (fun done => done.1.length == 5 && throughout Follows done.1 && throughout Spaced done.1)) = true := by
    decide +kernel
  obtain ⟨first, began, seen⟩ := (Option.any_eq_true _ _).mp played
  simp only [Bool.and_eq_true, beq_iff_eq] at seen
  obtain ⟨done, ended, checked⟩ := (Option.any_eq_true _ _).mp seen.2
  simp only [Bool.and_eq_true, beq_iff_eq] at checked
  have typed := (play_runs began).typed (Stack.Typed.init _ _)
  have follows := throughout_sound checked.1.2
  have spaced := throughout_sound checked.2
  exact ⟨_, _, _, typed, play_runs ended, seen.1, checked.1.1, follows, spaced,
    page_safe_when_spaced rfl typed (play_runs ended) seen.1 follows spaced⟩

/-- Payload that arrives between the write and the `TCP_OP_SEND` is sent back in place of the request. -/
theorem request_overwritten :
    ∃ first start before r s f seg, Runs [2, 0, 0, 0, 0, 9] (Stack.init (fun _ => 0) (fun _ => 0)) first start ∧
      first.map Record.move = connecting ∧ start.bufferedLen = 0 ∧ Runs [2, 0, 0, 0, 0, 9] start (before ++ [r]) s ∧
      (before ++ [r]).map Record.move = [.write 0 [7, 8, 9], arriving, request tcpOpSend 3 0] ∧ OneAtATime (before ++ [r]) ∧
      Throughout Follows (before ++ [r]) ∧ f ∈ r.frames ∧ Tcp.parseFrame f staticIp = some seg ∧ seg.payload = [1, 2, 3] ∧
      ¬Throughout Intact (before ++ [r]) := by
  have played : (play [2, 0, 0, 0, 0, 9] (Stack.init (fun _ => 0) (fun _ => 0)) connecting).any (fun first =>
      first.2.bufferedLen == 0 &&
        (play [2, 0, 0, 0, 0, 9] first.2 [.write 0 [7, 8, 9], arriving, request tcpOpSend 3 0]).any
          (fun done => oneAtATime done.1 && throughout Follows done.1 && (ghost done.1.dropLast).written == [7, 8, 9] &&
            done.1.getLast?.any fun r => r.frames.any fun f => (Tcp.parseFrame f staticIp).any (·.payload == [1, 2, 3]))) = true := by
    decide +kernel
  obtain ⟨first, began, seen⟩ := (Option.any_eq_true _ _).mp played
  simp only [Bool.and_eq_true, beq_iff_eq] at seen
  obtain ⟨done, ended, checked⟩ := (Option.any_eq_true _ _).mp seen.2
  simp only [Bool.and_eq_true, beq_iff_eq, Option.any_eq_true, List.any_eq_true] at checked
  obtain ⟨⟨⟨client, follows⟩, written⟩, r, last, f, framed, seg, parsed, payload⟩ := checked
  have whole := List.dropLast_append_getLast? r last
  have run := play_runs ended
  have moves := play_moves ended
  rw [← whole] at run moves client follows
  refine ⟨_, _, _, r, _, f, seg, play_runs began, play_moves began, seen.1, run, moves, oneAtATime_sound client, throughout_sound follows, framed,
    parsed, payload, fun intact => ?_⟩
  have move : r.move = request tcpOpSend 3 0 := by simpa using congrArg List.getLast? moves
  have intact := intact _ r [] rfl
  simp only [Intact, move, request] at intact
  obtain ⟨seg', parsed', payload'⟩ := intact trivial f framed
  obtain rfl : seg = seg' := Option.some.inj (parsed.symm.trans parsed')
  rw [payload, written] at payload'
  exact absurd payload' (by decide)

end Netstack
end Pcern

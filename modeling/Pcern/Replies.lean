import Mathlib.Algebra.GroupWithZero.Nat
import Pcern.Netstack

/-!
Whole runs of `netstack` with one client: passes of the loop, and between them
the client's own accesses to the page it shares. A request is answered once:
what is pending fits the connection it waits for, a pass answers at most what
it takes or what is pending, and the attempts run out.
-/
namespace Pcern
namespace Netstack
open Bytes Libpcern

/-! ## Runs -/

inductive Move where
  | pass (i : Input)
  | write (start : Nat) (bytes : List UInt8)
  | read (len : Nat)

/-- The client reaches its own page only; a read leaves everything as it is. -/
def perform (myMac : List UInt8) (s : Stack) : Move → Option (Stack × List Act)
  | .pass i => iterate myMac s i
  | .write start bytes =>
    if start + bytes.length ≤ tcpMaxTransfer then some ({ s with clientBuf := blit s.clientBuf start bytes }, []) else none
  | .read len => if len ≤ tcpMaxTransfer then some (s, []) else none

/-- A move, with the states around it and what it sent. -/
structure Record where
  before : Stack
  move : Move
  after : Stack
  acts : List Act

/-- The moves made so far, the last one at the end. -/
abbrev History := List Record

inductive Runs (myMac : List UInt8) (start : Stack) : History → Stack → Prop where
  | start : Runs myMac start [] start
  | move {h : History} {s s' : Stack} {m : Move} {acts : List Act} (earlier : Runs myMac start h s)
      (moved : perform myMac s m = some (s', acts)) : Runs myMac start (h ++ [⟨s, m, s', acts⟩]) s'

section
variable {myMac : List UInt8} {start : Stack}

theorem Runs.earlier {h : History} {r : Record} {s : Stack} (run : Runs myMac start (h ++ [r]) s) :
    Runs myMac start h r.before ∧ perform myMac r.before r.move = some (r.after, r.acts) ∧ s = r.after := by
  generalize whole : h ++ [r] = h' at run
  cases run with
  | start => simp at whole
  | move earlier moved =>
    obtain ⟨rfl, rfl⟩ := List.append_inj' whole rfl |>.imp_right List.singleton_inj.mp
    exact ⟨earlier, moved, rfl⟩

theorem Runs.prefixed {pre post : History} {s : Stack} (run : Runs myMac start (pre ++ post) s) :
    ∃ s', Runs myMac start pre s' := by
  induction post using List.reverseRecOn generalizing s with
  | nil => exact ⟨s, by simpa using run⟩
  | append_singleton post r ih =>
    rw [← List.append_assoc] at run
    exact ih run.earlier.1

theorem perform_cases {s s' : Stack} {m : Move} {acts : List Act} (moved : perform myMac s m = some (s', acts)) :
    (∃ i, m = .pass i ∧ Happens myMac s i s' acts) ∨
      (∀ i, m ≠ .pass i) ∧ acts = [] ∧ ∃ page, s' = { s with clientBuf := page } := by
  cases m with
  | pass i => exact .inl ⟨i, rfl, iterate_happens moved⟩
  | write start bytes =>
    simp only [perform, Option.ite_none_right_eq_some, Option.some.injEq, Prod.mk.injEq] at moved
    obtain ⟨_, rfl, rfl⟩ := moved
    exact .inr ⟨by simp, rfl, _, rfl⟩
  | read len =>
    simp only [perform, Option.ite_none_right_eq_some, Option.some.injEq, Prod.mk.injEq] at moved
    obtain ⟨_, rfl, rfl⟩ := moved
    exact .inr ⟨by simp, rfl, s.clientBuf, rfl⟩

/-- An invariant that holds at the start and is kept by every move holds in every state. -/
theorem Runs.rule {P : History → Stack → Prop} (first : P [] start)
    (kept : ∀ {h s m s' acts}, Runs myMac start h s → P h s → perform myMac s m = some (s', acts) →
      P (h ++ [⟨s, m, s', acts⟩]) s')
    {h : History} {s : Stack} (run : Runs myMac start h s) : P h s := by
  induction run with
  | start => exact first
  | move earlier moved ih => exact kept earlier ih moved

end

/-! ## Requests and replies -/

instance (r : RecvResult) : Decidable (IsRequest r) := inferInstanceAs (Decidable (_ ∨ _ ∨ _ ∨ _))

def Move.request : Move → Bool
  | .pass (.message r _) => IsRequest r
  | _ => false

def Act.isReply : Act → Bool
  | .reply _ _ => true
  | .toNic _ => false

def requests (h : History) : Nat := h.countP fun r => r.move.request

def replies (h : History) : Nat := (h.map fun r => r.acts.countP Act.isReply).sum

def Stack.pending (s : Stack) : Nat := if s.pendingOp = .none then 0 else 1

/-- A client with its page and its reply endpoint set up, and no request outstanding. -/
structure Ready (h : History) (s : Stack) : Prop where
  reply : s.clientReply ≠ 0
  page : s.clientBufMapped = true
  idle : requests h = replies h

/-- The client of the run: each request is made when it is ready. -/
def OneAtATime (h : History) : Prop :=
  ∀ pre r post, h = pre ++ r :: post → r.move.request = true → Ready pre r.before

def Fits : PendingOp → Option Connection → Prop
  | .none, none => True
  | .none, some c => c.state = .established ∨ c.state = .lastAck
  | .connect, some c => c.state = .arpPending ∨ c.state = .synSent
  | .recv, some c => c.state = .established
  | .close, some c => c.state = .finWait1 ∨ c.state = .finWait2
  | _, none => False

def Bounded (conn : Option Connection) : Prop := ∀ c, conn = some c → c.attemptsLeft ≤ maxAttempts

section Steps
variable {myMac : List UInt8} {s s' : Stack} {i : Input} {acts : List Act}

variable {c : Connection} {op : PendingOp}

theorem countDown_eq_some (here : (countDown s).conn = some c) :
    ∃ c', s.conn = some c' ∧ c = { c' with attemptsLeft := c'.attemptsLeft - s.pending } := by
  unfold countDown at here
  unfold Stack.pending
  split at here
  · rename_i idle
    exact ⟨c, here, by simp [idle]⟩
  · rename_i busy
    obtain ⟨c', there, rfl⟩ := Option.map_eq_some_iff.mp here
    exact ⟨c', there, by simp [busy]⟩

theorem Fits.countDown (fits : Fits s.pendingOp s.conn) : Fits s.pendingOp (countDown s).conn := by
  unfold Netstack.countDown
  split
  · exact fits
  · cases here : s.conn with
    | none => simpa [here] using fits
    | some c =>
      rw [here] at fits
      cases op : s.pendingOp <;> simpa [Fits, op] using fits

theorem Fits.connecting (fits : Fits op (some c))
    (state : c.state = .arpPending ∨ c.state = .synSent) : op = .connect := by
  rcases state with state | state <;> cases op <;> simp_all [Fits]

theorem Fits.open (fits : Fits op (some c)) (state : c.state = .established) :
    op = .none ∨ op = .recv := by
  cases op <;> simp_all [Fits]

theorem Fits.ending (fits : Fits op (some c)) (state : c.state = .lastAck) :
    op = .none := by
  cases op <;> simp_all [Fits]

theorem Fits.closing (fits : Fits op (some c))
    (state : c.state = .finWait1 ∨ c.state = .finWait2) : op = .close := by
  rcases state with state | state <;> cases op <;> simp_all [Fits]

theorem Fits.connected {conn : Option Connection} (fits : Fits op conn) (busy : op ≠ .none) :
    ∃ c, conn = some c := by
  cases conn with
  | none => cases op <;> simp_all [Fits]
  | some c => exact ⟨c, rfl⟩

private theorem iterate_live (ran : iterate myMac s i = some (s', acts)) (busy : s'.pendingOp ≠ .none) : expired s = false := by
  cases i with
  | timeout =>
    simp only [iterate, Option.ite_none_right_eq_some, Option.some.injEq] at ran
    have cleared : (failPendingOp s).1.pendingOp = .none := by cases op : s.pendingOp <;> simp [failPendingOp, op]
    rw [ran.2] at cleared
    exact absurd cleared busy
  | frame bytes =>
    simp only [iterate, Option.ite_none_left_eq_some, not_or, Bool.not_eq_true] at ran
    exact ran.1.1
  | message r mapped =>
    simp only [iterate, Option.ite_none_left_eq_some, Bool.not_eq_true] at ran
    exact ran.1
  | nothing =>
    simp only [iterate, Option.ite_none_left_eq_some, Bool.not_eq_true] at ran
    exact ran.1

private theorem after_state (seg : Tcp.Segment) (state : c.state = .established) :
    (c.after s seg).state = .established ∨ (c.after s seg).state = .lastAck := by
  have stored : (store s c seg).2.state = .established := by
    unfold store
    split <;> exact state
  unfold Connection.after Connection.ended
  split
  · exact .inr rfl
  · exact .inl stored

theorem not_request_of_setUp {r : RecvResult} (op : r.w0 = tcpOpSetBuffer ∨ r.w0 = tcpOpSetReply) : ¬IsRequest r := by
  unfold IsRequest
  rcases op with op | op <;> rw [op] <;> decide

theorem countP_frames {frames : List Act} (sent : ∀ a ∈ frames, ∃ f, a = .toNic f) :
    frames.countP Act.isReply = 0 := by
  rw [List.countP_eq_zero]
  intro a member
  obtain ⟨f, rfl⟩ := sent a member
  simp [Act.isReply]

theorem Happens.answers (happens : Happens myMac s i s' acts) (fits : Fits s.pendingOp s.conn)
    (ready : (Move.pass i).request = true → s.pendingOp = .none ∧ s.clientReply ≠ 0) :
    Fits s'.pendingOp s'.conn ∧
      acts.countP Act.isReply + s'.pending = s.pending + if (Move.pass i).request then 1 else 0 := by
  have counted := fits.countDown
  have asked : ∀ {r : RecvResult} {mapped : Option Memory}, (Move.pass (.message r mapped)).request = decide (IsRequest r) :=
    fun {_ _} => rfl
  cases happens with
  | timeout late =>
    cases op : s.pendingOp <;> simp_all [failPendingOp, Fits, expired, Stack.pending, Act.isReply, Move.request]
  | nothing => exact ⟨by simpa using counted, by simp [Stack.pending, Move.request]⟩
  | respond frames other _ _ =>
    exact ⟨by simpa using counted, by simp [Stack.pending, Move.request, countP_frames frames]⟩
  | ignored why =>
    have other : ¬IsRequest _ := why.elim (fun unknown request => (ready (by simpa [asked] using request)).2 unknown) id
    exact ⟨by simpa using counted, by simp [Stack.pending, asked, other]⟩
  | setBuffer op =>
    exact ⟨by simpa using counted, by simp [Stack.pending, asked, not_request_of_setUp (.inl op)]⟩
  | setReply op named =>
    exact ⟨by simpa using counted, by simp [Stack.pending, asked, not_request_of_setUp (.inr op)]⟩
  | refused known op =>
    have request : IsRequest _ := op.imp_right .inl
    have idle := (ready (by simp [asked, request])).1
    exact ⟨by simpa using counted, by simp [Stack.pending, asked, request, idle, Act.isReply]⟩
  | connect known op free _ =>
    have request : IsRequest _ := .inl op
    have idle := (ready (by simp [asked, request])).1
    exact ⟨.inl rfl, by simp [Stack.pending, asked, request, idle, Act.isReply]⟩
  | send known op here state segment =>
    have request : IsRequest _ := .inr (.inl op)
    have idle := (ready (by simp [asked, request])).1
    exact ⟨by simp [Fits, idle, state], by simp [Stack.pending, asked, request, idle, Act.isReply]⟩
  | recvNow known op why =>
    have request : IsRequest _ := .inr (.inr (.inl op))
    have idle := (ready (by simp [asked, request])).1
    exact ⟨by simpa [idle] using counted, by simp [Stack.pending, asked, request, idle, Act.isReply]⟩
  | recvLater known op empty here going =>
    have request : IsRequest _ := .inr (.inr (.inl op))
    have idle := (ready (by simp [asked, request])).1
    rw [here, idle] at counted
    exact ⟨counted.resolve_right going.1, by simp [Stack.pending, asked, request, idle]⟩
  | close known op here state _ =>
    have request : IsRequest _ := .inr (.inr (.inr op))
    have idle := (ready (by simp [asked, request])).1
    exact ⟨.inl rfl, by simp [Stack.pending, asked, request, idle, Act.isReply]⟩
  | drop known op why =>
    have request : IsRequest _ := .inr (.inr (.inr op))
    have idle := (ready (by simp [asked, request])).1
    exact ⟨by simp [Fits, idle], by simp [Stack.pending, asked, request, idle, Act.isReply]⟩
  | resolved here state _ _ =>
    have op := (here ▸ counted).connecting (.inl state)
    exact ⟨by simp [Fits, op], by simp [Stack.pending, Move.request, op, Act.isReply]⟩
  | rejected here state =>
    have op := (here ▸ counted).connecting (.inr state)
    exact ⟨by simp [answer, Fits, op], by simp [answer, Stack.pending, Move.request, op, Act.isReply]⟩
  | opened here state heard _ _ =>
    have op := (here ▸ counted).connecting (.inr state)
    exact ⟨by simp [answer, Fits, op, Connection.open],
      by simp [answer, Stack.pending, Move.request, op, Act.isReply]⟩
  | reset here state other =>
    rcases (here ▸ counted).open state with op | op <;>
      simp [Fits, onReset, Stack.pending, Move.request, op, Act.isReply]
  | data here state heard alive next waiting _ =>
    have op := ((here ▸ counted).open state).resolve_right waiting
    exact ⟨by simpa [Fits, store_pendingOp, op] using after_state _ state,
      by simp [Stack.pending, store_pendingOp, Move.request, Act.isReply]⟩
  | dataReply here state heard alive next waiting _ =>
    exact ⟨by simpa [Fits] using after_state _ state, by simp [Stack.pending, Move.request, waiting, Act.isReply]⟩
  | lastAcked here state =>
    have op := (here ▸ counted).ending state
    exact ⟨by simp [answer, Fits, op], by simp [answer, Stack.pending, Move.request, op]⟩
  | finished here state _ _ _ =>
    have op := (here ▸ counted).closing state
    exact ⟨by simp [answer, Fits, op], by simp [answer, Stack.pending, Move.request, op, Act.isReply]⟩
  | acknowledged here state _ _ =>
    have op := (here ▸ counted).closing (.inl state)
    exact ⟨by simp [Fits, op], by simp [Stack.pending, Move.request, op]⟩

theorem Happens.slot (happens : Happens myMac s i s' acts) {slot w0 : UInt32} (sent : .reply slot w0 ∈ acts) :
    slot = s.clientReply := by
  have answered : ∀ op w, .reply slot w0 ∈ (answer (countDown s) op w).2 → slot = s.clientReply := by
    intro op w sent
    unfold answer at sent
    split at sent <;> simp_all
  cases happens with
  | timeout late => cases op : s.pendingOp <;> simp_all [failPendingOp]
  | respond frames other _ _ => simpa using frames _ sent
  | rejected here state => exact answered _ _ sent
  | opened here state heard _ _ => exact answered .connect 1 (by simpa using sent)
  | reset here state other => cases op : s.pendingOp <;> simp_all [onReset]
  | lastAcked here state => exact answered _ _ sent
  | finished here state _ _ _ => exact answered .close 1 (by simpa using sent)
  | _ => simp_all

theorem Happens.attempts (happens : Happens myMac s i s' acts) {c' : Connection} (there : s'.conn = some c') :
    c'.attemptsLeft = maxAttempts ∨ ∃ c, (countDown s).conn = some c ∧ c'.attemptsLeft = c.attemptsLeft := by
  have stored : ∀ (t : Stack) (c : Connection) (seg : Tcp.Segment),
      (c.after t seg).attemptsLeft = maxAttempts ∨ (c.after t seg).attemptsLeft = c.attemptsLeft := by
    intro t c seg
    have kept : (store t c seg).2.attemptsLeft = c.attemptsLeft := by
      unfold store
      split <;> rfl
    unfold Connection.after Connection.ended
    split
    · exact .inl rfl
    · exact .inr kept
  cases happens with
  | timeout late => cases op : s.pendingOp <;> simp_all [failPendingOp]
  | data here state heard alive next waiting _ =>
    cases there
    exact (stored _ _ _).imp_right fun same => ⟨_, here, same⟩
  | dataReply here state heard alive next waiting _ =>
    cases there
    exact (stored _ _ _).imp_right fun same => ⟨_, here, same⟩
  | opened here state heard _ _ =>
    cases there
    exact .inr ⟨_, here, rfl⟩
  | send known op here state segment =>
    cases there
    exact .inr ⟨_, here, rfl⟩
  | connect known op free _ =>
    cases there
    exact .inl rfl
  | recvLater known op empty here going =>
    cases there
    exact .inl rfl
  | close known op here state _ =>
    cases there
    exact .inl rfl
  | resolved here state _ _ =>
    cases there
    exact .inl rfl
  | acknowledged here state _ _ =>
    cases there
    exact .inl rfl
  | _ => first | exact .inr ⟨c', there, rfl⟩ | simp at there

end Steps

/-! ## Whole runs -/

@[simp] theorem requests_append (h h' : History) : requests (h ++ h') = requests h + requests h' := by
  simp [requests]

@[simp] theorem replies_append (h h' : History) : replies (h ++ h') = replies h + replies h' := by
  simp [replies]

private theorem requests_singleton (r : Record) : requests [r] = if r.move.request then 1 else 0 := by
  simp [requests, List.countP_singleton]

private theorem requests_cons (r : Record) (h : History) :
    requests (r :: h) = (if r.move.request then 1 else 0) + requests h := by
  simp [requests, List.countP_cons, Nat.add_comm]

private theorem replies_singleton (r : Record) : replies [r] = r.acts.countP Act.isReply := by
  simp [replies]

variable {h : History} {r : Record}

theorem forall_moves_append {P : History → Record → Prop} :
    (∀ pre r' post, h ++ [r] = pre ++ r' :: post → P pre r') ↔
      (∀ pre r' post, h = pre ++ r' :: post → P pre r') ∧ P h r := by
  constructor
  · intro all
    exact ⟨fun pre r' post whole => all pre r' (post ++ [r]) (by simp [whole]), all h r [] rfl⟩
  · rintro ⟨all, last⟩ pre r' post whole
    rcases List.eq_nil_or_concat post with rfl | ⟨post, r'', rfl⟩
    · obtain ⟨rfl, rfl⟩ := List.append_inj' whole rfl |>.imp_right List.singleton_inj.mp
      exact last
    · refine all pre r' post ?_
      have whole : h ++ [r] = (pre ++ r' :: post) ++ [r''] := by simpa using whole
      exact (List.append_inj' whole rfl).1

private theorem oneAtATime_append :
    OneAtATime (h ++ [r]) ↔ OneAtATime h ∧ (r.move.request = true → Ready h r.before) :=
  forall_moves_append

def Record.resets (r : Record) : Prop := ∃ c, r.after.conn = some c ∧ c.attemptsLeft = maxAttempts

def passes (h : History) : Nat := h.countP fun r => match r.move with | .pass _ => true | _ => false

/-- At the top of the loop, after the moves `h`, every request has had its reply or is the one that is pending. -/
structure Served (myMac : List UInt8) (h : History) (s : Stack) : Prop where
  /-- Something is pending just when a request that was taken is unanswered. -/
  pending : s.pendingOp ≠ .none ↔ replies h < requests h
  fits : Fits s.pendingOp s.conn
  /-- No move ended a connection and left something pending. -/
  dropped : ∀ r ∈ h, r.after.conn = none → r.after.pendingOp = .none
  /-- Between a request and the next one there is exactly one reply. -/
  once : ∀ pre r mid next post, h = pre ++ r :: mid ++ next :: post → r.move.request = true → requests mid = 0 →
    next.move.request = true → replies (r :: mid) = 1
  /-- The last request has had exactly one, unless it is pending. -/
  last : ∀ pre r mid, h = pre ++ r :: mid → r.move.request = true → requests mid = 0 →
    replies (r :: mid) = if s.pendingOp = .none then 1 else 0
  slot : ∀ r ∈ h, ∀ slot w0, .reply slot w0 ∈ r.acts → slot = r.before.clientReply
  /-- The loop goes on for at most `MAX_ATTEMPTS` passes after the last reset of the counter, then it answers. -/
  patient : ∀ pre mid, h = pre ++ mid → (∀ r ∈ mid, r.before.pendingOp ≠ .none ∧ ¬r.resets) → s.pendingOp ≠ .none →
    passes mid ≤ maxAttempts ∧
      (passes mid = maxAttempts →
        (∃ w0, iterate myMac s .timeout =
          some ({ s with pendingOp := .none, bufferedLen := 0, conn := none }, [.reply s.clientReply w0])) ∧
        ∀ i, i ≠ .timeout → iterate myMac s i = none)

section Whole
variable {myMac : List UInt8} {start : Stack} {h : History} {s : Stack}

/-- The invariant of `Served`: what is pending makes up the difference between requests and replies. -/
structure Kept (h : History) (s : Stack) : Prop where
  balance : replies h + s.pending = requests h
  fits : Fits s.pendingOp s.conn
  bounded : Bounded s.conn

theorem Runs.kept (fresh : Kept [] start) (run : Runs myMac start h s) (client : OneAtATime h) : Kept h s := by
  induction run with
  | start => exact fresh
  | @move h s s' m acts earlier moved ih =>
    obtain ⟨client, last⟩ := oneAtATime_append.mp client
    have kept := ih client
    have balance := kept.balance
    rcases perform_cases moved with ⟨i, rfl, happens⟩ | ⟨other, rfl, page, rfl⟩
    · have ready : (Move.pass i).request = true → s.pendingOp = .none ∧ s.clientReply ≠ 0 := by
        intro request
        have ready := last request
        rw [ready.idle] at balance
        refine ⟨?_, ready.reply⟩
        by_contra busy
        simp [Stack.pending, busy] at balance
      obtain ⟨fits, counts⟩ := happens.answers kept.fits ready
      refine ⟨?_, fits, ?_⟩
      · rw [replies_append, requests_append, requests_singleton, replies_singleton]
        dsimp only
        omega
      · intro c' there
        rcases happens.attempts there with full | ⟨c, here, same⟩
        · exact Nat.le_of_eq full
        · obtain ⟨c₀, before, rfl⟩ := countDown_eq_some here
          have := kept.bounded c₀ before
          dsimp only at same
          omega
    · have silent : m.request = false := by
        cases m with
        | pass i => exact absurd rfl (other i)
        | _ => rfl
      refine ⟨?_, kept.fits, kept.bounded⟩
      simpa [requests_singleton, replies_singleton, silent, Stack.pending] using balance

private theorem passes_append (h : History) (r : Record) :
    passes (h ++ [r]) = passes h + match r.move with | .pass _ => 1 | _ => 0 := by
  unfold passes
  rw [List.countP_append, List.countP_singleton]
  split <;> split <;> simp_all

theorem Runs.counts {pre mid : History} (fresh : Kept [] start) (run : Runs myMac start (pre ++ mid) s)
    (client : OneAtATime (pre ++ mid)) (silent : ∀ r ∈ mid, r.before.pendingOp ≠ .none ∧ ¬r.resets)
    (busy : s.pendingOp ≠ .none) : ∃ c, s.conn = some c ∧ c.attemptsLeft + passes mid ≤ maxAttempts := by
  induction mid using List.reverseRecOn generalizing s with
  | nil =>
    rw [List.append_nil] at run client
    have kept := run.kept fresh client
    obtain ⟨c, here⟩ := kept.fits.connected busy
    exact ⟨c, here, by simpa [passes] using kept.bounded c here⟩
  | append_singleton mid r ih =>
    rw [← List.append_assoc] at run client
    obtain ⟨c', there⟩ := (run.kept fresh client).fits.connected busy
    obtain ⟨earlier, moved, rfl⟩ := run.earlier
    obtain ⟨before, reset⟩ := silent r (by simp)
    obtain ⟨c, here, left⟩ :=
      ih earlier (oneAtATime_append.mp client).1 (fun r member => silent r (by simp [member])) before
    refine ⟨c', there, ?_⟩
    rw [passes_append]
    rcases perform_cases moved with ⟨i, pass, happens⟩ | ⟨other, none, page, same⟩
    · rw [pass] at moved ⊢
      have live := iterate_live moved busy
      rcases happens.attempts there with full | ⟨c₁, counted, same⟩
      · exact absurd ⟨c', there, full⟩ reset
      · obtain ⟨c₀, here', rfl⟩ := countDown_eq_some counted
        rw [here, Option.some.injEq] at here'
        subst here'
        have some_left : c.attemptsLeft ≠ 0 := by simpa [expired, here, before] using live
        rw [Stack.pending, if_neg before] at same
        dsimp only at same ⊢
        omega
    · rw [same] at there
      have still : c' = c := Option.some.inj (there.symm.trans here)
      split
      · rename_i pass
        exact absurd pass (other _)
      · rw [still]
        exact left

private theorem expired_answers (late : expired s = true) :
    (∃ w0, iterate myMac s .timeout =
      some ({ s with pendingOp := .none, bufferedLen := 0, conn := none }, [.reply s.clientReply w0])) ∧
    ∀ i, i ≠ .timeout → iterate myMac s i = none := by
  constructor
  · have busy : s.pendingOp ≠ .none := by
      intro idle
      simp [expired, idle] at late
    cases op : s.pendingOp with
    | none => exact absurd op busy
    | connect => exact ⟨0, by simp [iterate, late, failPendingOp, op]⟩
    | recv => exact ⟨UInt32.ofNat s.bufferedLen, by simp [iterate, late, failPendingOp, op]⟩
    | close => exact ⟨1, by simp [iterate, late, failPendingOp, op]⟩
  · intro i other
    cases i with
    | timeout => exact absurd rfl other
    | _ => simp [iterate, late]

end Whole

private theorem kept_init (nicBuf clientBuf : Memory) : Kept [] (Stack.init nicBuf clientBuf) where
  balance := rfl
  fits := trivial
  bounded := nofun

theorem Runs.after {myMac : List UInt8} {start s : Stack} (run : Runs myMac start h s)
    (member : r ∈ h) : ∃ pre, Runs myMac start (pre ++ [r]) r.after ∧ pre ++ [r] <+: h := by
  obtain ⟨pre, post, rfl⟩ := List.append_of_mem member
  have split : pre ++ r :: post = (pre ++ [r]) ++ post := by simp
  rw [split] at run ⊢
  obtain ⟨s', upTo⟩ := run.prefixed
  obtain ⟨_, _, rfl⟩ := upTo.earlier
  exact ⟨pre, upTo, List.prefix_append _ _⟩

theorem OneAtATime.prefixed {pre post : History} (client : OneAtATime (pre ++ post)) : OneAtATime pre :=
  fun pre' r post' whole => client pre' r (post' ++ post) (by simp [whole])

theorem requests_answered_once {myMac : List UInt8} {nicBuf clientBuf : Memory} {h : History} {s : Stack}
    (run : Runs myMac (Stack.init nicBuf clientBuf) h s) (client : OneAtATime h) : Served myMac h s := by
  have fresh := kept_init nicBuf clientBuf
  have kept := run.kept fresh client
  have balance := kept.balance
  refine ⟨?_, kept.fits, ?_, ?_, ?_, ?_, ?_⟩
  · by_cases op : s.pendingOp = .none <;> simp only [Stack.pending, op, if_true, if_false] at balance <;> simp [op] <;> omega
  · intro r member gone
    obtain ⟨pre, upTo, post, rfl⟩ := run.after member
    have fits := (upTo.kept fresh client.prefixed).fits
    by_contra busy
    obtain ⟨c, here⟩ := fits.connected busy
    simp [gone] at here
  · rintro pre r mid next post rfl request none again
    have idle := (client pre r (mid ++ next :: post) (by simp) request).idle
    have idle' := (client (pre ++ r :: mid) next post rfl again).idle
    rw [requests_append, replies_append, requests_cons, request, if_pos rfl, none] at idle'
    omega
  · rintro pre r mid rfl request none
    have idle := (client pre r mid rfl request).idle
    rw [requests_append, replies_append, requests_cons, request, if_pos rfl, none, Stack.pending] at balance
    split at balance <;> rename_i op <;> simp only [op, if_true, if_false] <;> omega
  · intro r member slot w0 sent
    obtain ⟨pre, upTo, _⟩ := run.after member
    obtain ⟨_, moved, _⟩ := upTo.earlier
    rcases perform_cases moved with ⟨i, _, happens⟩ | ⟨_, none, _⟩
    · exact happens.slot sent
    · simp [none] at sent
  · rintro pre mid rfl silent busy
    obtain ⟨c, here, left⟩ := run.counts fresh client silent busy
    refine ⟨by omega, fun full => expired_answers ?_⟩
    have out : c.attemptsLeft = 0 := by omega
    simp [expired, busy, here, out]

def play (myMac : List UInt8) (start : Stack) (moves : List Move) : Option (History × Stack) :=
  moves.foldlM (fun (done : History × Stack) m =>
    (perform myMac done.2 m).map fun next => (done.1 ++ [⟨done.2, m, next.1, next.2⟩], next.1)) ([], start)

theorem play_runs {myMac : List UInt8} {start : Stack} {moves : List Move} {done : History × Stack}
    (played : play myMac start moves = some done) : Runs myMac start done.1 done.2 := by
  suffices more : ∀ (first : History × Stack), Runs myMac start first.1 first.2 →
      moves.foldlM (fun (done : History × Stack) m =>
        (perform myMac done.2 m).map fun next => (done.1 ++ [⟨done.2, m, next.1, next.2⟩], next.1)) first = some done →
      Runs myMac start done.1 done.2 from more _ .start played
  clear played
  induction moves with
  | nil =>
    intro first run same
    cases same
    exact run
  | cons m moves ih =>
    intro first run played
    rw [List.foldlM_cons] at played
    obtain ⟨next, moved, rest⟩ := Option.bind_eq_some_iff.mp played
    obtain ⟨⟨s, acts⟩, performed, rfl⟩ := Option.map_eq_some_iff.mp moved
    exact ih _ (run.move performed) rest

theorem play_moves {myMac : List UInt8} {start : Stack} {moves : List Move} {done : History × Stack}
    (played : play myMac start moves = some done) : done.1.map Record.move = moves := by
  suffices more : ∀ (first : History × Stack), moves.foldlM (fun (done : History × Stack) m =>
        (perform myMac done.2 m).map fun next => (done.1 ++ [⟨done.2, m, next.1, next.2⟩], next.1)) first = some done →
      done.1.map Record.move = first.1.map Record.move ++ moves from more _ played
  clear played
  induction moves with
  | nil =>
    intro first same
    cases same
    simp
  | cons m moves ih =>
    intro first played
    rw [List.foldlM_cons] at played
    obtain ⟨next, moved, rest⟩ := Option.bind_eq_some_iff.mp played
    obtain ⟨next, _, rfl⟩ := Option.map_eq_some_iff.mp moved
    simp [ih _ rest]

def everyMove (P : History → Record → Bool) (h : History) : Bool :=
  (List.range h.length).all fun k => (h[k]?).all fun r => P (h.take k) r

theorem everyMove_sound {P : History → Record → Bool} (checked : everyMove P h = true) :
    ∀ pre r post, h = pre ++ r :: post → P pre r = true := by
  rintro pre r post rfl
  simpa using List.all_eq_true.mp checked pre.length (by simp)

def oneAtATime : History → Bool :=
  everyMove fun h r =>
    !r.move.request || r.before.clientReply != 0 && r.before.clientBufMapped && requests h == replies h

theorem oneAtATime_sound (checked : oneAtATime h = true) : OneAtATime h := by
  intro pre r post whole request
  have here := everyMove_sound checked pre r post whole
  simp only [request, Bool.not_true, Bool.false_or, Bool.and_eq_true, bne_iff_ne, beq_iff_eq] at here
  exact ⟨here.1.1, here.1.2, here.2⟩

def setUp (page : Memory) : List Move :=
  [.pass (.message { sender := 8, w0 := tcpOpSetBuffer, w1 := 0, w2 := 0, transferredSlot := 4 } (some page)),
    .pass (.message { sender := 8, w0 := tcpOpSetReply, w1 := 0, w2 := 0, transferredSlot := 5 } none),
    .pass (.message { sender := 8, w0 := tcpOpConnect, w1 := 0x0202000A, w2 := 80, transferredSlot := 0 } none)]

theorem first_request_pending :
    ∃ h s, Runs [2, 0, 0, 0, 0, 9] (Stack.init (fun _ => 0) (fun _ => 0)) h s ∧ OneAtATime h ∧ h.length = 3 ∧ s.pendingOp = .connect ∧
      Served [2, 0, 0, 0, 0, 9] h s := by
  have played : (play [2, 0, 0, 0, 0, 9] (Stack.init (fun _ => 0) (fun _ => 0)) (setUp fun _ => 0)).any
      (fun done => oneAtATime done.1 && done.1.length == 3 && done.2.pendingOp == .connect) = true := by decide +kernel
  obtain ⟨done, ended, seen⟩ := (Option.any_eq_true _ _).mp played
  simp only [Bool.and_eq_true, beq_iff_eq] at seen
  have run := play_runs ended
  have client := oneAtATime_sound seen.1.1
  exact ⟨_, _, run, client, seen.1.2, seen.2, requests_answered_once run client⟩

end Netstack
end Pcern

import Pcern.Replies

/-!
The stash of `netstack`, and the three tasks around it. `netstack` waits for the
driver on the inbox that its client sends to; what the client sends meanwhile is
put aside in a queue of two. The driver takes as long as it likes.

A send is a rendezvous: the message stands in the inbox, in order of arrival,
and its sender goes on when it is taken.
-/
namespace Pcern
namespace Netstack
open Bytes Libpcern

/-! ## The queue -/

abbrev stashSize : Nat := 2

structure Stash where
  items : List (Option RecvResult)
  len : Nat

def Stash.new : Stash := { items := List.replicate stashSize none, len := 0 }

/-- A full stash drops the message. -/
def Stash.push (s : Stash) (r : RecvResult) : Stash :=
  if s.len < s.items.length then { items := s.items.set s.len (some r), len := s.len + 1 } else s

/-- The remaining items move up one place. -/
def Stash.popFront (s : Stash) : Option (RecvResult × Stash) :=
  match s.items[0]? with
  | some (some r) =>
    let items := (List.range' 1 (s.len - 1)).foldl
      (fun items i => (items.set (i - 1) (items.getD i none)).set i none) (s.items.set 0 none)
    some (r, { items, len := s.len - 1 })
  | _ => none

structure Stash.Queues (s : Stash) (q : List RecvResult) : Prop where
  items : s.items = q.map some ++ List.replicate (stashSize - q.length) none
  len : s.len = q.length
  fits : q.length ≤ stashSize

section
variable {s : Stash} {q : List RecvResult} {r : RecvResult}

theorem Stash.new_queues : Stash.new.Queues [] := ⟨rfl, rfl, by decide⟩

private theorem queue_cases (fits : q.length ≤ stashSize) : q = [] ∨ (∃ a, q = [a]) ∨ ∃ a b, q = [a, b] := by
  match q, fits with
  | [], _ => exact .inl rfl
  | [a], _ => exact .inr (.inl ⟨a, rfl⟩)
  | [a, b], _ => exact .inr (.inr ⟨a, b, rfl⟩)

theorem Stash.push_queues (queues : s.Queues q) (free : q.length < stashSize) : (s.push r).Queues (q ++ [r]) := by
  obtain ⟨items, len, fits⟩ := queues
  obtain ⟨_, _⟩ := s
  subst items len
  rcases queue_cases fits with rfl | ⟨a, rfl⟩ | ⟨a, b, rfl⟩
  · exact ⟨rfl, rfl, by simp [stashSize]⟩
  · exact ⟨rfl, rfl, by simp⟩
  · simp at free

theorem Stash.popFront_nil (queues : s.Queues []) : s.popFront = none := by
  simp [Stash.popFront, queues.items]

theorem Stash.popFront_cons (queues : s.Queues (r :: q)) : ∃ s', s.popFront = some (r, s') ∧ s'.Queues q := by
  obtain ⟨items, len, fits⟩ := queues
  obtain ⟨_, _⟩ := s
  subst items len
  rcases queue_cases fits with none | ⟨a, one⟩ | ⟨a, b, two⟩
  · cases none
  · cases one
    exact ⟨_, rfl, rfl, rfl, by simp⟩
  · cases two
    exact ⟨_, rfl, rfl, rfl, by simp [stashSize]⟩

end

/-! ## The three tasks -/

inductive Control where
  | top
  /-- In `recv_from_nic`, for the answer to `NIC_OP_TRY_RECV`. -/
  | polling
  /-- In `next_client_message`. -/
  | looking
  /-- In a handler, with these sends still to be made. -/
  | working (acts : List Act)
  /-- In `recv_from_nic`, for the answer to a frame that was sent. -/
  | waiting (acts : List Act)

inductive Driver where
  | idle
  | busy
  | replying
  deriving DecidableEq

/-- Where a client of the library is: in `tcp_connect_setup`, between two calls, or in a call. -/
inductive Client where
  | setBuffer
  | setReply
  | idle
  | waiting
  deriving DecidableEq

/-- A message in the inbox; the driver's come with what it has put into its buffer. -/
structure Mail where
  result : RecvResult
  frame : List UInt8

structure System where
  stack : Stack
  stash : Stash
  control : Control
  driver : Driver
  client : Client
  inbox : List Mail
  /-- What the client has sent, in order. -/
  sent : List RecvResult
  /-- What was handed to `handle_client_message`, in order. -/
  handled : List RecvResult
  /-- How many replies the client has had. -/
  replied : Nat
  /-- Whether something was pushed on a full stash. -/
  overflowed : Bool

def System.init (nicBuf clientBuf : Memory) : System :=
  { stack := Stack.init nicBuf clientBuf, stash := .new, control := .top, driver := .idle, client := .setBuffer,
    inbox := [], sent := [], handled := [], replied := 0, overflowed := false }

/-- A pass of the loop, as far as its handler. -/
def System.pass (myMac : List UInt8) (y : System) (i : Input) : Option System :=
  (iterate myMac y.stack i).map fun next => { y with stack := next.1, control := .working next.2 }

def System.handle (myMac : List UInt8) (y : System) (r : RecvResult) (mapped : Option Memory) : Option System :=
  ({ y with handled := y.handled ++ [r] }).pass myMac (.message r mapped)

def System.putAside (y : System) (r : RecvResult) : System :=
  { y with stash := y.stash.push r, overflowed := y.overflowed || y.stash.len == stashSize }

/-- One turn of `recv_from_nic`; `next` is what comes after the driver's answer. -/
def System.recvFromNic (y : System) (next : System → Mail → Option System) : Option System :=
  match y.inbox with
  | [] => none
  | mail :: rest =>
    if mail.result.sender = nicTaskId then next { y with inbox := rest, driver := .idle } mail
    else some ({ y with inbox := rest }.putAside mail.result)

def System.nextClientMessage (myMac : List UInt8) (y : System) (mapped : Option Memory) : Option System :=
  match y.stash.popFront with
  | some (r, stash) => { y with stash }.handle myMac r mapped
  | none =>
    match y.inbox with
    | [] => y.pass myMac .nothing
    | mail :: rest =>
      if mail.result.sender = nicTaskId then { y with inbox := rest }.pass myMac .nothing
      else { y with inbox := rest }.handle myMac mail.result mapped

def System.netstack (myMac : List UInt8) (y : System) (mapped : Option Memory) : Option System :=
  match y.control with
  | .top =>
    if expired y.stack then y.pass myMac .timeout
    else if y.driver = .idle then some { y with driver := .busy, control := .polling }
    else none
  | .polling =>
    y.recvFromNic fun y mail =>
      if mail.result.w0 = 0 then some { y with control := .looking } else y.pass myMac (.frame mail.frame)
  | .looking => y.nextClientMessage myMac mapped
  | .working [] => some { y with control := .top }
  | .working (.toNic _ :: acts) =>
    if y.driver = .idle then some { y with driver := .busy, control := .waiting acts } else none
  | .working (.reply _ _ :: acts) =>
    if y.client = .waiting then
      some { y with client := .idle, control := .working acts, replied := y.replied + 1 }
    else none
  | .waiting acts => y.recvFromNic fun y _ => some { y with control := .working acts }

/-- The driver answers, at last, with a frame or with nothing. -/
def System.answer (y : System) (frame : List UInt8) : Option System :=
  if y.driver = .busy ∧ frame.length ≤ nicMaxFrame then
    let result : RecvResult :=
      { sender := nicTaskId, w0 := UInt32.ofNat frame.length, w1 := 0, w2 := 0, transferredSlot := 0 }
    some { y with driver := .replying, inbox := y.inbox ++ [{ result, frame }] }
  else none

def clientMail (inbox : List Mail) : List RecvResult := (inbox.map Mail.result).filter fun r => r.sender != nicTaskId

/-- The state of a client after it has sent `r`, if its library sends that now. -/
def Client.next (c : Client) (r : RecvResult) : Option Client :=
  match c with
  | .setBuffer => if r.w0 = tcpOpSetBuffer then some .setReply else none
  | .setReply => if r.w0 = tcpOpSetReply then some .idle else none
  | .idle => if IsRequest r then some .waiting else none
  | .waiting => none

def System.send (y : System) (r : RecvResult) : Option System :=
  if clientMail y.inbox = [] ∧ r.sender ≠ nicTaskId then
    (y.client.next r).map fun client => { y with client, inbox := y.inbox ++ [{ result := r, frame := [] }], sent := y.sent ++ [r] }
  else none

inductive Turn where
  | netstack (mapped : Option Memory)
  | driver (frame : List UInt8)
  | client (r : RecvResult)

/-- One party takes its turn. -/
def System.step (myMac : List UInt8) (y : System) : Turn → Option System
  | .netstack mapped => y.netstack myMac mapped
  | .driver frame => y.answer frame
  | .client r => y.send r

/-- The states that are reached when every turn meets a condition on the state before it. -/
inductive Reaches (myMac : List UInt8) (allowed : System → Turn → Prop) (start : System) : System → Prop where
  | start : Reaches myMac allowed start start
  | turn {y y' : System} {t : Turn} (earlier : Reaches myMac allowed start y) (meets : allowed y t)
      (stepped : y.step myMac t = some y') : Reaches myMac allowed start y'

/-! ## Nothing is lost by a patient client -/

def asked (l : List RecvResult) : Nat := l.countP fun r => IsRequest r

@[simp] theorem asked_append (l l' : List RecvResult) : asked (l ++ l') = asked l + asked l' := by
  simp [asked]

private theorem asked_singleton (r : RecvResult) : asked [r] = if IsRequest r then 1 else 0 := by
  simp [asked, List.countP_singleton]

def Control.replies : Control → Nat
  | .working acts | .waiting acts => acts.countP Act.isReply
  | _ => 0

theorem Happens.replies_le {myMac : List UInt8} {s s' : Stack} {i : Input} {acts : List Act}
    (happens : Happens myMac s i s' acts) :
    acts.countP Act.isReply + s'.pending ≤ s.pending + if (Move.pass i).request then 1 else 0 := by
  have one : s.pending ≤ 1 := by
    unfold Stack.pending
    split <;> omega
  have answered : ∀ op w0, op ≠ .none → (answer (countDown s) op w0).2.countP Act.isReply +
      (if (answer (countDown s) op w0).1.pendingOp = .none then 0 else 1) ≤ s.pending := by
    intro op w0 real
    unfold answer
    split
    · rename_i here
      rw [countDown_pendingOp] at here
      simp [Act.isReply, Stack.pending, here, real]
    · simp [Stack.pending]
  have request : ∀ {r : RecvResult} {mapped : Option Memory}, IsRequest r → (Move.pass (.message r mapped)).request = true :=
    fun asks => by simpa [Move.request] using asks
  cases happens with
  | timeout late =>
    cases op : s.pendingOp <;> simp_all [failPendingOp, expired, Stack.pending, Act.isReply]
  | respond frames other _ _ => simp [Stack.pending, countP_frames frames]
  | refused known op =>
    rw [request (op.imp_right .inl)]
    simp [Stack.pending, Act.isReply, Nat.add_comm]
  | connect known op free _ =>
    rw [request (.inl op)]
    simp [Stack.pending, Act.isReply]
  | send known op here state segment =>
    rw [request (.inr (.inl op))]
    simp [Stack.pending, Act.isReply, Nat.add_comm]
  | recvNow known op why =>
    rw [request (.inr (.inr (.inl op)))]
    simp [Stack.pending, Act.isReply, Nat.add_comm]
  | recvLater known op empty here going =>
    rw [request (.inr (.inr (.inl op)))]
    simp [Stack.pending]
  | close known op here state _ =>
    rw [request (.inr (.inr (.inr op)))]
    simp [Stack.pending, Act.isReply]
  | drop known op why =>
    rw [request (.inr (.inr (.inr op)))]
    simp [Stack.pending, Act.isReply, Nat.add_comm]
  | rejected here state => exact Nat.le_add_right_of_le (answered .connect 0 (by decide))
  | opened here state heard _ _ =>
    refine Nat.le_add_right_of_le ?_
    simpa [Act.isReply, Stack.pending] using answered .connect 1 (by decide)
  | reset here state other =>
    cases op : s.pendingOp <;> simp [onReset, Stack.pending, Act.isReply, op]
  | data here state heard alive next waiting _ => simp [Stack.pending, store_pendingOp, Act.isReply]
  | dataReply here state heard alive next waiting _ => simp [Stack.pending, Act.isReply, waiting]
  | lastAcked here state => exact Nat.le_add_right_of_le (answered .close 1 (by decide))
  | finished here state _ _ _ =>
    refine Nat.le_add_right_of_le ?_
    simpa [Act.isReply, Stack.pending] using answered .close 1 (by decide)
  | _ => simp [Stack.pending, Act.isReply]

/-- The messages of the client are handled, put aside or in the inbox, in order, and few enough are under way. -/
structure Consistent (y : System) : Prop where
  order : ∃ q, y.stash.Queues q ∧ y.sent = y.handled ++ q ++ clientMail y.inbox
  calm : y.overflowed = false
  few : y.sent.length ≤ y.handled.length + 2
  phase : match y.client with
    | .setBuffer => y.replied = 0 ∧ y.sent.length = 0
    | .setReply => y.replied = 0 ∧ y.sent.length = 1
    | .idle => y.replied = 0 ∧ y.sent.length = 2 ∨ y.sent = y.handled
    | .waiting => ∃ r, y.sent.getLast? = some r ∧ IsRequest r
  answers : y.replied + y.control.replies + y.stack.pending ≤ asked y.handled
  asks : asked y.sent = y.replied + if y.client = .waiting then 1 else 0

/-- The first request is sent when one of the two messages before it has been handled. -/
def Patient (y : System) (t : Turn) : Prop :=
  ∀ r, t = .client r → y.client = .idle → y.replied = 0 → y.handled ≠ []

section
variable {myMac : List UInt8} {y y' : System}

theorem Consistent.init (nicBuf clientBuf : Memory) : Consistent (System.init nicBuf clientBuf) where
  order := ⟨[], Stash.new_queues, rfl⟩
  calm := rfl
  few := by simp [System.init]
  phase := ⟨rfl, rfl⟩
  answers := Nat.le_refl 0
  asks := rfl

theorem Consistent.pass (consistent : Consistent y) {i : Input} (other : (Move.pass i).request = false)
    (quiet : y.control.replies = 0) (passed : y.pass myMac i = some y') : Consistent y' := by
  obtain ⟨⟨s', acts⟩, ran, rfl⟩ := Option.map_eq_some_iff.mp passed
  have replies := (iterate_happens ran).replies_le
  have answers := consistent.answers
  refine ⟨consistent.order, consistent.calm, consistent.few, consistent.phase, ?_, consistent.asks⟩
  simp only [Control.replies, other] at replies ⊢
  simp at replies
  omega

variable {mail : Mail} {mapped : Option Memory}

theorem clientMail_cons_nic (nic : mail.result.sender = nicTaskId) (rest : List Mail) :
    clientMail (mail :: rest) = clientMail rest := by
  simp [clientMail, nic]

theorem clientMail_cons_client (client : mail.result.sender ≠ nicTaskId) (rest : List Mail) :
    clientMail (mail :: rest) = mail.result :: clientMail rest := by
  simp [clientMail, client]

section
variable (consistent : Consistent y)
include consistent

theorem Consistent.move {control : Control} {driver : Driver} {inbox : List Mail}
    (same : clientMail inbox = clientMail y.inbox) (fewer : control.replies ≤ y.control.replies) :
    Consistent { y with control, driver, inbox } := by
  obtain ⟨q, queues, order⟩ := consistent.order
  have answers := consistent.answers
  refine ⟨⟨q, queues, ?_⟩, consistent.calm, consistent.few, consistent.phase, ?_, consistent.asks⟩
  · exact order.trans (congrArg _ same.symm)
  · dsimp only
    omega

theorem Consistent.handle {r : RecvResult} {stash : Stash}
    {inbox : List Mail} {q : List RecvResult} (queues : stash.Queues q)
    (next : y.sent = y.handled ++ r :: (q ++ clientMail inbox)) (quiet : y.control.replies = 0)
    (passed : ({ y with stash, inbox }).handle myMac r mapped = some y') : Consistent y' := by
  obtain ⟨⟨s', acts⟩, ran, rfl⟩ := Option.map_eq_some_iff.mp passed
  have replies := (iterate_happens ran).replies_le
  have answers := consistent.answers
  refine ⟨⟨q, queues, ?_⟩, consistent.calm, ?_, ?_, ?_, consistent.asks⟩
  · simpa using next
  · have few := consistent.few
    simp only [List.length_append]
    omega
  · have phase := consistent.phase
    dsimp only
    split at phase
    · exact phase
    · exact phase
    · refine .inl (phase.resolve_right fun all => ?_)
      have lengths := congrArg List.length (all.symm.trans next)
      simp at lengths
    · exact phase
  · simp only [Control.replies, asked_append, asked_singleton, Move.request, decide_eq_true_eq] at replies ⊢
    omega

theorem Consistent.putAside {rest : List Mail} (head : y.inbox = mail :: rest)
    (client : mail.result.sender ≠ nicTaskId) : Consistent ({ y with inbox := rest }.putAside mail.result) := by
  obtain ⟨q, queues, order⟩ := consistent.order
  have mails : clientMail y.inbox = mail.result :: clientMail rest := by
    rw [head, clientMail_cons_client client]
  have free : q.length < 2 := by
    have few := consistent.few
    have lengths := congrArg List.length order
    rw [mails] at lengths
    simp only [List.length_append, List.length_cons] at lengths
    omega
  refine ⟨⟨q ++ [mail.result], Stash.push_queues queues free, ?_⟩, ?_, consistent.few, consistent.phase,
    consistent.answers, consistent.asks⟩
  · rw [mails] at order
    simpa [System.putAside] using order
  · have room : ¬y.stash.len = stashSize := by rw [queues.len]; exact Nat.ne_of_lt free
    simp [System.putAside, consistent.calm, room]

theorem Consistent.recvFromNic {next : System → Mail → Option System}
    (goes : ∀ {mail rest}, y.inbox = mail :: rest → mail.result.sender = nicTaskId →
      next { y with inbox := rest, driver := .idle } mail = some y' → Consistent y')
    (received : y.recvFromNic next = some y') : Consistent y' := by
  unfold System.recvFromNic at received
  split at received
  · cases received
  · rename_i mail rest head
    split at received
    · rename_i nic
      exact goes head nic received
    · rename_i client
      cases received
      exact consistent.putAside head client

theorem Consistent.all_handled (waits : y.client = .waiting) (reply : 0 < y.control.replies) :
    y.sent = y.handled := by
  obtain ⟨q, queues, order⟩ := consistent.order
  have answers := consistent.answers
  have asks := consistent.asks
  have phase := consistent.phase
  rw [waits] at asks phase
  obtain ⟨r, last, request⟩ := phase
  simp only [if_true] at asks
  rw [List.append_assoc] at order
  rw [order, asked_append] at asks
  rw [order] at last ⊢
  cases rest : q ++ clientMail y.inbox with
  | nil => simp
  | cons a l =>
    rw [rest, List.getLast?_append_of_ne_nil _ (by simp)] at last
    have member : r ∈ q ++ clientMail y.inbox := rest ▸ List.mem_of_getLast? last
    have some_asked : 0 < asked (q ++ clientMail y.inbox) := List.countP_pos_iff.mpr ⟨r, member, by simpa using request⟩
    omega

theorem Consistent.nextClientMessage (quiet : y.control.replies = 0)
    (stepped : y.nextClientMessage myMac mapped = some y') : Consistent y' := by
  obtain ⟨q, queues, order⟩ := consistent.order
  unfold System.nextClientMessage at stepped
  cases q with
  | cons r q =>
    obtain ⟨stash, popped, rest⟩ := Stash.popFront_cons queues
    rw [popped] at stepped
    exact consistent.handle rest (by simpa using order) quiet stepped
  | nil =>
    rw [Stash.popFront_nil queues] at stepped
    dsimp only at stepped
    split at stepped
    · exact consistent.pass rfl quiet stepped
    · rename_i mail rest head
      split at stepped
      · rename_i nic
        have moved : Consistent { y with inbox := rest } :=
          consistent.move (by rw [head, clientMail_cons_nic nic]) (Nat.le_refl _)
        exact moved.pass rfl quiet stepped
      · rename_i client
        refine consistent.handle queues ?_ quiet stepped
        simpa [head, clientMail_cons_client client] using order

theorem Consistent.netstack
    (stepped : y.netstack myMac mapped = some y') : Consistent y' := by
  unfold System.netstack at stepped
  split at stepped
  · rename_i control
    split at stepped
    · exact consistent.pass rfl (by simp [control, Control.replies]) stepped
    · split at stepped
      · cases stepped
        exact consistent.move rfl (by simp [control, Control.replies])
      · cases stepped
  · rename_i control
    refine consistent.recvFromNic (fun {mail rest} head nic gone => ?_) stepped
    have moved : Consistent { y with inbox := rest, driver := .idle } :=
      consistent.move (by rw [head, clientMail_cons_nic nic]) (Nat.le_refl _)
    split at gone
    · cases gone
      exact moved.move rfl (by simp [control, Control.replies])
    · exact moved.pass rfl (by simp [control, Control.replies]) gone
  · rename_i control
    exact consistent.nextClientMessage (by simp [control, Control.replies]) stepped
  · rename_i control
    cases stepped
    exact consistent.move rfl (by simp [control, Control.replies])
  · rename_i control
    split at stepped
    · cases stepped
      exact consistent.move rfl (by simp [control, Control.replies, Act.isReply])
    · cases stepped
  · rename_i slot w0 acts control
    split at stepped
    · rename_i waits
      cases stepped
      have reply : y.control.replies = acts.countP Act.isReply + 1 := by
        rw [control, Control.replies, List.countP_cons_of_pos rfl]
      have all := consistent.all_handled waits (by omega)
      have answers := consistent.answers
      have asks := consistent.asks
      refine ⟨consistent.order, consistent.calm, consistent.few, .inr all, ?_, ?_⟩
      · simp only [Control.replies]
        omega
      · simpa [waits] using asks
    · cases stepped
  · rename_i acts control
    refine consistent.recvFromNic (fun {mail rest} head nic gone => ?_) stepped
    cases gone
    exact consistent.move (by rw [head, clientMail_cons_nic nic]) (by simp [control, Control.replies])

theorem Consistent.answer {frame : List UInt8} (stepped : y.answer frame = some y') :
    Consistent y' := by
  unfold System.answer at stepped
  split at stepped
  · cases stepped
    exact consistent.move (by simp [clientMail]) (Nat.le_refl _)
  · cases stepped

theorem Consistent.send {r : RecvResult} (patient : Patient y (.client r))
    (stepped : y.send r = some y') : Consistent y' := by
  unfold System.send at stepped
  split at stepped
  · rename_i free
    obtain ⟨client, next, rfl⟩ := Option.map_eq_some_iff.mp stepped
    obtain ⟨q, queues, order⟩ := consistent.order
    have phase := consistent.phase
    have few := consistent.few
    have asks := consistent.asks
    have order' : y.sent ++ [r] = y.handled ++ q ++ clientMail (y.inbox ++ [{ result := r, frame := [] }]) := by
      rw [order]
      simp [clientMail, free.2]
    have setUp : r.w0 = tcpOpSetBuffer ∨ r.w0 = tcpOpSetReply → asked (y.sent ++ [r]) = asked y.sent := by
      intro op
      simp [asked_singleton, not_request_of_setUp op]
    unfold Client.next at next
    split at next
    · rename_i was
      simp only [Option.ite_none_right_eq_some, Option.some.injEq] at next
      obtain ⟨op, rfl⟩ := next
      rw [was] at phase asks
      obtain ⟨none, empty⟩ := phase
      refine ⟨⟨q, queues, order'⟩, consistent.calm, ?_, ⟨none, by simp [empty]⟩, consistent.answers, ?_⟩
      · simp only [List.length_append, List.length_singleton]
        omega
      · simpa [setUp (.inl op)] using asks
    · rename_i was
      simp only [Option.ite_none_right_eq_some, Option.some.injEq] at next
      obtain ⟨op, rfl⟩ := next
      rw [was] at phase asks
      obtain ⟨none, one⟩ := phase
      refine ⟨⟨q, queues, order'⟩, consistent.calm, ?_, .inl ⟨none, by simp [one]⟩, consistent.answers, ?_⟩
      · simp only [List.length_append, List.length_singleton]
        omega
      · simpa [setUp (.inr op)] using asks
    · rename_i was
      simp only [Option.ite_none_right_eq_some, Option.some.injEq] at next
      obtain ⟨request, rfl⟩ := next
      rw [was] at phase asks
      refine ⟨⟨q, queues, order'⟩, consistent.calm, ?_, ⟨r, by simp, request⟩, consistent.answers, ?_⟩
      · simp only [List.length_append, List.length_singleton]
        rcases phase with ⟨none, two⟩ | all
        · have some_handled := List.length_pos_iff.mpr (patient r rfl was none)
          omega
        · rw [all]
          omega
      · simp only [asked_append, asked_singleton, request, if_true]
        simp at asks
        omega
    · cases next
  · cases stepped

end

theorem Reaches.consistent {nicBuf clientBuf : Memory}
    (reaches : Reaches myMac Patient (System.init nicBuf clientBuf) y) : Consistent y := by
  induction reaches with
  | start => exact .init nicBuf clientBuf
  | @turn y y' t earlier meets stepped ih =>
    cases t with
    | netstack mapped => exact ih.netstack stepped
    | driver frame => exact ih.answer stepped
    | client r => exact ih.send meets stepped

/-- Every message of the client has been handled, or is in the stash or in the inbox, in the order in which it was sent. -/
def InOrder (y : System) : Prop := ∃ q, y.stash.Queues q ∧ y.sent = y.handled ++ q ++ clientMail y.inbox

theorem nothing_lost_when_patient {nicBuf clientBuf : Memory}
    (reaches : Reaches myMac Patient (System.init nicBuf clientBuf) y) : InOrder y ∧ y.overflowed = false :=
  ⟨reaches.consistent.order, reaches.consistent.calm⟩

end

instance (y : System) (t : Turn) : Decidable (Patient y t) :=
  match t with
  | .netstack _ | .driver _ => .isTrue nofun
  | .client _ => decidable_of_iff (y.client = .idle → y.replied = 0 → y.handled ≠ [])
    ⟨fun meets _ _ => meets, fun meets => meets _ rfl⟩

/-- The turns taken one after the other, each as it is allowed. -/
def System.drive (myMac : List UInt8) (allowed : System → Turn → Prop) [∀ y t, Decidable (allowed y t)] (y : System)
    (turns : List Turn) : Option System :=
  turns.foldlM (fun y t => if allowed y t then y.step myMac t else none) y

theorem System.drive_reaches {myMac : List UInt8} {allowed : System → Turn → Prop} [∀ y t, Decidable (allowed y t)]
    {start y y' : System} {turns : List Turn} (earlier : Reaches myMac allowed start y)
    (driven : y.drive myMac allowed turns = some y') : Reaches myMac allowed start y' := by
  induction turns generalizing y with
  | nil =>
    cases driven
    exact earlier
  | cons t turns ih =>
    obtain ⟨next, stepped, rest⟩ := Option.bind_eq_some_iff.mp driven
    rw [Option.ite_none_right_eq_some] at stepped
    exact ih (earlier.turn stepped.1 stepped.2) rest

def setBufferMessage : RecvResult := { sender := 8, w0 := tcpOpSetBuffer, w1 := 0, w2 := 0, transferredSlot := 4 }
def setReplyMessage : RecvResult := { sender := 8, w0 := tcpOpSetReply, w1 := 0, w2 := 0, transferredSlot := 5 }
def connectMessage : RecvResult := { sender := 8, w0 := tcpOpConnect, w1 := 0x0202000A, w2 := 80, transferredSlot := 0 }

/-- The driver is slow, and both set-up messages are put aside. -/
def slowDriver : List Turn :=
  [.netstack none, .client setBufferMessage, .netstack none, .client setReplyMessage, .netstack none]

theorem patient_client_served :
    ∃ y, Reaches [] Patient (System.init (fun _ => 0) (fun _ => 0)) y ∧
      y.sent = [setBufferMessage, setReplyMessage, connectMessage] ∧ InOrder y := by
  have driven : ((System.init (fun _ => 0) (fun _ => 0)).drive [] Patient (slowDriver ++ [.driver [], .netstack none,
      .netstack (some fun _ => 0), .netstack none, .netstack none, .client connectMessage, .netstack none])).any
      (fun y => y.sent == [setBufferMessage, setReplyMessage, connectMessage]) = true := by decide +kernel
  obtain ⟨y, ended, seen⟩ := (Option.any_eq_true _ _).mp driven
  have reaches := System.drive_reaches .start ended
  exact ⟨y, reaches, by simpa using seen, (nothing_lost_when_patient reaches).1⟩

/-- Three messages without a reply between them, and room for two. -/
theorem connect_dropped :
    ∃ y, Reaches [] (fun _ _ => True) (System.init (fun _ => 0) (fun _ => 0)) y ∧ y.overflowed = true ∧ ¬InOrder y := by
  have driven : ((System.init (fun _ => 0) (fun _ => 0)).drive [] (fun _ _ => True)
      (slowDriver ++ [.client connectMessage, .netstack none])).any
      (fun y => y.overflowed && y.sent.length == 3 && y.handled.isEmpty && y.inbox.isEmpty) = true := by decide +kernel
  obtain ⟨y, ended, seen⟩ := (Option.any_eq_true _ _).mp driven
  simp only [Bool.and_eq_true, beq_iff_eq, List.isEmpty_iff] at seen
  obtain ⟨⟨⟨overflowed, three⟩, handled⟩, inbox⟩ := seen
  refine ⟨y, System.drive_reaches .start ended, overflowed, ?_⟩
  rintro ⟨q, queues, order⟩
  have lengths := congrArg List.length order
  simp [handled, inbox, clientMail, three] at lengths
  have fits := queues.fits
  simp only [stashSize] at fits
  omega

end Netstack
end Pcern

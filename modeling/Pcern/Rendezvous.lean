import Pcern.NetDriver
import Pcern.Stash

/-!
`netstack` and `net_rtl8139`, both of which answer by sends that block. A send is a rendezvous: the message stands among those that
are pending for the receiver's inbox, in order of arrival, and the sender goes on when it is taken. Interrupts of the card do
not wait; the driver takes one when no message is pending.

The client has no capability for the inbox of `netstack` before the name `tcp` is registered.
-/
namespace Pcern.Rendezvous

open Bytes Libpcern Netstack
open NetRtl8139 (Answer)

/-! ## The tasks -/

/-- A call of `netstack` to the driver: the two of `nic_connect`, that of `nic_get_mac`, and those of the loop. -/
inductive Call where
  | setBuffer
  | setReply
  | getMac
  | tryRecv
  | send (len : UInt32) (acts : List Act)

/-- The slots into which the kernel puts the capabilities of `nic_connect`. -/
structure Slots where
  buffer : UInt32
  reply : UInt32
  installed : reply ≠ 0

def Call.message (slots : Slots) : Call → RecvResult
  | .setBuffer => { sender := 7, w0 := nicOpSetBuffer, w1 := 0, w2 := 0, transferredSlot := slots.buffer }
  | .setReply => { sender := 7, w0 := nicOpSetReply, w1 := 0, w2 := 0, transferredSlot := slots.reply }
  | .getMac => { sender := 7, w0 := nicOpGetMac, w1 := 0, w2 := 0, transferredSlot := 0 }
  | .tryRecv => { sender := 7, w0 := nicOpTryRecv, w1 := 0, w2 := 0, transferredSlot := 0 }
  | .send len _ => { sender := 7, w0 := nicOpSend, w1 := len, w2 := 0, transferredSlot := 0 }

inductive Stage where
  /-- About to call the driver. -/
  | calls (c : Call)
  /-- In a send to the driver's inbox. -/
  | sends (c : Call)
  /-- In the `recv` of `nic_get_mac`. -/
  | macWait
  | registering
  | top
  /-- In `recv_from_nic`, for the answer to `NIC_OP_TRY_RECV`. -/
  | polling
  /-- In `recv_from_nic`, for the answer to a frame that was sent. -/
  | waiting (acts : List Act)
  /-- In `next_client_message`. -/
  | looking
  /-- In a handler, with these sends still to be made. -/
  | working (acts : List Act)
  /-- In a send to the client. -/
  | replying (acts : List Act)

/-- Where `netstack` goes on when the driver has taken its message. -/
def Call.next : Call → Stage
  | .setBuffer => .calls .setReply
  | .setReply => .calls .getMac
  | .getMac => .macWait
  | .tryRecv => .polling
  | .send _ acts => .waiting acts

/-- Where the driver is: in its `recv`, about to answer, in the send of an answer. -/
inductive Task where
  | receiving
  | answering (a : Answer)
  | sending

structure Joint where
  stack : Stack
  stash : Stash
  stage : Stage
  driver : NetRtl8139.Driver
  task : Task
  client : Client
  /-- The sends that are pending for the inbox of `netstack`. -/
  toNetstack : List Mail
  /-- The sends that are pending for the driver's inbox. -/
  toDriver : List RecvResult
  /-- The interrupts that are pending for the driver's inbox. -/
  interrupts : Nat
  /-- Whether the name `tcp` is registered. -/
  named : Bool

namespace Joint

def start (nicBuf clientBuf : Memory) : Joint where
  stack := .init nicBuf clientBuf
  stash := .new
  stage := .calls .setBuffer
  driver := .start
  task := .receiving
  client := .setBuffer
  toNetstack := []
  toDriver := []
  interrupts := 0
  named := false

/-- `netstack` takes the first message of its inbox, and the sender goes on. -/
def receive (y : Joint) (next : Joint → Mail → Option Joint) : Option Joint :=
  match y.toNetstack with
  | [] => none
  | mail :: rest =>
    next { y with toNetstack := rest, task := if mail.result.sender = nicTaskId then .receiving else y.task } mail

def recvFromNic (y : Joint) (next : Joint → Mail → Option Joint) : Option Joint :=
  y.receive fun y mail => if mail.result.sender = nicTaskId then next y mail else some { y with stash := y.stash.push mail.result }

def pass (y : Joint) (myMac : List UInt8) (i : Input) : Option Joint :=
  (iterate myMac y.stack i).map fun next => { y with stack := next.1, stage := .working next.2 }

def nextClientMessage (y : Joint) (myMac : List UInt8) (mapped : Option Memory) : Option Joint :=
  match y.stash.popFront with
  | some (r, stash) => { y with stash }.pass myMac (.message r mapped)
  | none =>
    if y.toNetstack.isEmpty then y.pass myMac .nothing
    else
      y.receive fun y mail =>
        if mail.result.sender = nicTaskId then y.pass myMac .nothing else y.pass myMac (.message mail.result mapped)

/-- A step of `netstack`; none if it is blocked. -/
def netstack (y : Joint) (slots : Slots) (myMac : List UInt8) (mapped : Option Memory) : Option Joint :=
  match y.stage with
  | .calls c => some { y with stage := .sends c, toDriver := y.toDriver ++ [c.message slots] }
  | .sends _ => none
  | .macWait => y.receive fun y _ => some { y with stage := .registering }
  | .registering => some { y with stage := .top, named := true }
  | .top => if expired y.stack then y.pass myMac .timeout else some { y with stage := .calls .tryRecv }
  | .polling =>
    y.recvFromNic fun y mail =>
      if mail.result.w0 = 0 then some { y with stage := .looking } else y.pass myMac (.frame mail.frame)
  | .waiting acts => y.recvFromNic fun y _ => some { y with stage := .working acts }
  | .looking => y.nextClientMessage myMac mapped
  | .working [] => some { y with stage := .top }
  | .working (.toNic frame :: acts) => some { y with stage := .calls (.send (UInt32.ofNat frame.length) acts) }
  | .working (.reply _ _ :: acts) => some { y with stage := .replying acts }
  | .replying _ => none

/-- The driver after it has made something of what it took. -/
def handled (y : Joint) (outcome : NetRtl8139.Driver × Option Answer) : Joint :=
  { y with driver := outcome.1, task := (outcome.2.map Task.answering).getD .receiving }

/-- What the card and the kernel report to the driver. -/
structure Report where
  mapped : Bool
  ok : Bool
  rok : Bool
  received : Option (List UInt8)

/-- A step of the driver; none if it is blocked. -/
def netRtl8139 (y : Joint) (mac : List UInt8) (report : Report) : Option Joint :=
  match y.task with
  | .receiving =>
    match y.toDriver with
    | r :: rest =>
      let resumed := match y.stage with
        | .sends c => c.next
        | stage => stage
      some ({ y with toDriver := rest, stage := resumed }.handled (y.driver.request mac report.mapped report.ok r))
    | [] =>
      if y.interrupts = 0 then none
      else some ({ y with interrupts := y.interrupts - 1 }.handled (y.driver.interrupt report.rok report.received))
  | .answering a =>
    let result : RecvResult := { sender := nicTaskId, w0 := a.w0, w1 := a.w1, w2 := 0, transferredSlot := 0 }
    some { y with task := .sending, toNetstack := y.toNetstack ++ [{ result, frame := a.frame }] }
  | .sending => none

/-- The client sends what its library sends next, when its last message has been taken. -/
def clientSends (y : Joint) (r : RecvResult) : Option Joint :=
  if y.named ∧ clientMail y.toNetstack = [] ∧ r.sender ≠ nicTaskId then
    (y.client.next r).map fun client => { y with client, toNetstack := y.toNetstack ++ [{ result := r, frame := [] }] }
  else none

def clientReceives (y : Joint) : Option Joint :=
  match y.stage with
  | .replying acts => if y.client = .waiting then some { y with stage := .working acts, client := .idle } else none
  | _ => none

inductive Turn where
  | netstack (mapped : Option Memory)
  | driver (report : Report)
  | interrupt
  | clientSends (r : RecvResult)
  | clientReceives

def step (slots : Slots) (myMac : List UInt8) (y : Joint) : Turn → Option Joint
  | .netstack mapped => y.netstack slots myMac mapped
  | .driver report => y.netRtl8139 myMac report
  | .interrupt => some { y with interrupts := y.interrupts + 1 }
  | .clientSends r => y.clientSends r
  | .clientReceives => y.clientReceives

inductive Reached (slots : Slots) (myMac : List UInt8) (nicBuf clientBuf : Memory) : Joint → Prop where
  | start : Reached slots myMac nicBuf clientBuf (start nicBuf clientBuf)
  | turn {y y' : Joint} {t : Turn} (earlier : Reached slots myMac nicBuf clientBuf y) (stepped : y.step slots myMac t = some y') :
      Reached slots myMac nicBuf clientBuf y'

/-! ## Who waits for whom -/

def inSendToDriver (y : Joint) : Prop := ∃ c, y.stage = .sends c

def inSendToNetstack (y : Joint) : Prop := y.task = .sending

def inRecvFromNic (y : Joint) : Prop := y.stage = .polling ∨ ∃ acts, y.stage = .waiting acts

def nicMail (inbox : List Mail) : Nat := inbox.countP fun mail => mail.result.sender = nicTaskId

/-- The answers that the driver owes: the one it is about to send, those that wait to be taken, and one that it will send with the
next frame. -/
def owed (y : Joint) : Nat :=
  (match y.task with
    | .answering _ => 1
    | _ => 0) + nicMail y.toNetstack + if y.driver.recvArmed then 1 else 0

end Joint

/-- What `netstack` is to the driver: it wants nothing, is about to be heard, or is owed an answer. -/
inductive Role where
  | free
  | heard (c : Call)
  | owed

namespace Stage

def role : Stage → Role
  | .sends c => .heard c
  | .macWait | .polling | .waiting _ => .owed
  | _ => .free

def introduced : Stage → Bool
  | .calls .setBuffer | .sends .setBuffer | .calls .setReply | .sends .setReply => false
  | _ => true

def early : Stage → Bool
  | .calls c | .sends c =>
    match c with
    | .setBuffer | .setReply | .getMac => true
    | _ => false
  | .macWait | .registering => true
  | _ => false

end Stage

namespace Joint

/-- The two tasks and their inboxes fit together. -/
def Fits (slots : Slots) (y : Joint) : Prop :=
  match y.stage.role with
  | .free => y.toDriver = [] ∧ y.task = .receiving ∧ nicMail y.toNetstack = 0
  | .heard c => y.toDriver = [c.message slots] ∧ y.task = .receiving ∧ nicMail y.toNetstack = 0
  | .owed =>
    y.toDriver = [] ∧ ((∃ a, y.task = .answering a) ∧ nicMail y.toNetstack = 0 ∨ y.task = .sending ∧ nicMail y.toNetstack = 1)

structure Agreed (slots : Slots) (y : Joint) : Prop where
  unarmed : y.driver.recvArmed = false
  known : y.stage.introduced = true → y.driver.clientReply ≠ 0
  unnamed : y.stage.early = true → y.named = false
  alone : y.named = false → clientMail y.toNetstack = []
  fits : y.Fits slots

section
variable {slots : Slots} {myMac : List UInt8} {y y' : Joint}

theorem Agreed.start (nicBuf clientBuf : Memory) : Agreed slots (start nicBuf clientBuf) where
  unarmed := rfl
  known := by rintro ⟨⟩
  unnamed _ := rfl
  alone _ := rfl
  fits := ⟨rfl, rfl, rfl⟩

private theorem nicMail_nic {mail : Mail} (nic : mail.result.sender = nicTaskId) (rest : List Mail) :
    nicMail (mail :: rest) = nicMail rest + 1 := by
  simp [nicMail, nic]

private theorem nicMail_client {mail : Mail} (client : mail.result.sender ≠ nicTaskId) (rest : List Mail) :
    nicMail (mail :: rest) = nicMail rest := by
  simp [nicMail, client]

private theorem introduced_of_owed {stage : Stage} (owed : stage.role = .owed) : stage.introduced = true := by
  cases stage <;> first | rfl | cases owed

private theorem sends_of_heard {stage : Stage} {c : Call} (heard : stage.role = .heard c) : stage = .sends c := by
  cases stage <;> cases heard
  rfl

private theorem nicMail_answer (inbox : List Mail) (a : Answer) :
    nicMail (inbox ++ [⟨⟨nicTaskId, a.w0, a.w1, 0, 0⟩, a.frame⟩]) = nicMail inbox + 1 := by
  simp [nicMail]

section
variable (agreed : Agreed slots y)
include agreed

theorem Agreed.free (free : y.stage.role = .free) : y.toDriver = [] ∧ y.task = .receiving ∧ nicMail y.toNetstack = 0 := by
  have fits := agreed.fits
  rwa [Fits, free] at fits

theorem Agreed.heard {c : Call} (heard : y.stage = .sends c) :
    y.toDriver = [c.message slots] ∧ y.task = .receiving ∧ nicMail y.toNetstack = 0 := by
  have fits := agreed.fits
  rwa [Fits, heard] at fits

theorem Agreed.owed (owed : y.stage.role = .owed) :
    y.toDriver = [] ∧ ((∃ a, y.task = .answering a) ∧ nicMail y.toNetstack = 0 ∨ y.task = .sending ∧ nicMail y.toNetstack = 1) := by
  have fits := agreed.fits
  rwa [Fits, owed] at fits

theorem Agreed.goOn (free : y.stage.role = .free) (introduced : y.stage.introduced = true) {stack : Stack} {stash : Stash}
    {stage : Stage} (free' : stage.role = .free) (late : stage.early = false) : Agreed slots { y with stack, stash, stage } := by
  refine ⟨agreed.unarmed, fun _ => agreed.known introduced, ?_, agreed.alone, ?_⟩
  · intro early
    exact absurd (late.symm.trans early) (by decide)
  · rw [Fits, free']
    exact agreed.free free

theorem Agreed.pass (free : y.stage.role = .free) (introduced : y.stage.introduced = true) {i : Input}
    (passed : y.pass myMac i = some y') : Agreed slots y' := by
  obtain ⟨⟨stack, acts⟩, -, rfl⟩ := Option.map_eq_some_iff.mp passed
  exact agreed.goOn free introduced rfl rfl

theorem Agreed.answered (owed : y.stage.role = .owed) {mail : Mail} {rest : List Mail} (head : y.toNetstack = mail :: rest)
    (nic : mail.result.sender = nicTaskId) {stage : Stage} (free : stage.role = .free) (early : stage.early = y.stage.early) :
    Agreed slots { y with toNetstack := rest, task := .receiving, stage } := by
  obtain ⟨pending, answer⟩ := agreed.owed owed
  have one := nicMail_nic nic rest
  rw [← head] at one
  refine ⟨agreed.unarmed, fun _ => agreed.known (introduced_of_owed owed), ?_, ?_, ?_⟩
  · exact fun isEarly => agreed.unnamed (early ▸ isEarly)
  · intro unnamed
    have alone := agreed.alone unnamed
    rwa [head, clientMail_cons_nic nic] at alone
  · rw [Fits, free]
    refine ⟨pending, rfl, ?_⟩
    dsimp only
    rcases answer with ⟨-, none⟩ | ⟨-, some⟩ <;> omega

theorem Agreed.aside (owed : y.stage.role = .owed) {mail : Mail} {rest : List Mail} (head : y.toNetstack = mail :: rest)
    (client : mail.result.sender ≠ nicTaskId) (stash : Stash) : Agreed slots { y with toNetstack := rest, stash } := by
  have same := nicMail_client client rest
  have fits := agreed.owed owed
  rw [head, same] at fits
  refine ⟨agreed.unarmed, agreed.known, agreed.unnamed, ?_, ?_⟩
  · intro unnamed
    have alone := agreed.alone unnamed
    rw [head, clientMail_cons_client client] at alone
    cases alone
  · rw [Fits, owed]
    exact fits

theorem Agreed.recvFromNic (owed : y.stage.role = .owed) {next : Joint → Mail → Option Joint}
    (goesOn : ∀ {mail rest}, y.toNetstack = mail :: rest → mail.result.sender = nicTaskId →
      next { y with toNetstack := rest, task := .receiving } mail = some y' → Agreed slots y')
    (stepped : y.recvFromNic next = some y') : Agreed slots y' := by
  unfold Joint.recvFromNic Joint.receive at stepped
  split at stepped
  · cases stepped
  · rename_i mail rest head
    dsimp only at stepped
    by_cases nic : mail.result.sender = nicTaskId
    · rw [if_pos nic, if_pos nic] at stepped
      exact goesOn head nic stepped
    · rw [if_neg nic, if_neg nic] at stepped
      cases stepped
      exact agreed.aside owed head nic _

theorem Agreed.nextClientMessage (looking : y.stage = .looking) {mapped : Option Memory}
    (stepped : y.nextClientMessage myMac mapped = some y') : Agreed slots y' := by
  have free : y.stage.role = .free := by rw [looking]; rfl
  have introduced : y.stage.introduced = true := by rw [looking]; rfl
  unfold Joint.nextClientMessage at stepped
  split at stepped
  · rename_i r stash popped
    have here : Agreed slots { y with stash } := agreed.goOn free introduced free (by rw [looking]; rfl)
    exact here.pass free introduced stepped
  · split at stepped
    · exact agreed.pass free introduced stepped
    · unfold Joint.receive at stepped
      split at stepped
      · cases stepped
      · rename_i mail rest head
        obtain ⟨pending, task, none⟩ := agreed.free free
        have client : mail.result.sender ≠ nicTaskId := by
          intro nic
          rw [head, nicMail_nic nic] at none
          cases none
        dsimp only at stepped
        rw [if_neg client, if_neg client] at stepped
        have here : Agreed slots { y with toNetstack := rest } := by
          refine ⟨agreed.unarmed, agreed.known, agreed.unnamed, ?_, ?_⟩
          · intro unnamed
            have alone := agreed.alone unnamed
            rw [head, clientMail_cons_client client] at alone
            cases alone
          · rw [Fits, free]
            exact ⟨pending, task, by rwa [head, nicMail_client client] at none⟩
        exact here.pass free introduced stepped

theorem Agreed.netstack {mapped : Option Memory} (stepped : y.netstack slots myMac mapped = some y') : Agreed slots y' := by
  unfold Joint.netstack at stepped
  split at stepped
  · rename_i c calls
    cases stepped
    obtain ⟨pending, task, none⟩ := agreed.free (by rw [calls]; rfl)
    have known := agreed.known
    have unnamed := agreed.unnamed
    rw [calls] at known unnamed
    refine ⟨agreed.unarmed, ?_, ?_, agreed.alone, ?_⟩
    · cases c <;> exact known
    · exact unnamed
    · exact ⟨by rw [pending]; rfl, task, none⟩
  · cases stepped
  · rename_i macWait
    have owed : y.stage.role = .owed := by rw [macWait]; rfl
    have alone := agreed.alone (agreed.unnamed (by rw [macWait]; rfl))
    unfold Joint.receive at stepped
    split at stepped
    · cases stepped
    · rename_i mail rest head
      cases stepped
      -- Nobody else knows the inbox yet, so what arrives is the driver's answer.
      have nic : mail.result.sender = nicTaskId := by
        by_contra client
        rw [head, clientMail_cons_client client] at alone
        cases alone
      rw [if_pos nic]
      exact agreed.answered owed head nic rfl (by rw [macWait]; rfl)
  · rename_i registering
    cases stepped
    have known := agreed.known (by rw [registering]; rfl)
    exact ⟨agreed.unarmed, fun _ => known, by rintro ⟨⟩, by rintro ⟨⟩, agreed.free (by rw [registering]; rfl)⟩
  · rename_i top
    split at stepped
    · exact agreed.pass (by rw [top]; rfl) (by rw [top]; rfl) stepped
    · cases stepped
      exact agreed.goOn (by rw [top]; rfl) (by rw [top]; rfl) rfl rfl
  · rename_i polling
    have owed : y.stage.role = .owed := by rw [polling]; rfl
    refine agreed.recvFromNic owed (fun head nic gone => ?_) stepped
    dsimp only at gone
    split at gone
    · cases gone
      exact agreed.answered owed head nic rfl (by rw [polling]; rfl)
    · have here : Agreed slots { y with toNetstack := _, task := .receiving, stage := .looking } :=
        agreed.answered owed head nic rfl (by rw [polling]; rfl)
      exact here.pass rfl rfl gone
  · rename_i acts waiting
    have owed : y.stage.role = .owed := by rw [waiting]; rfl
    refine agreed.recvFromNic owed (fun head nic gone => ?_) stepped
    cases gone
    exact agreed.answered owed head nic rfl (by rw [waiting]; rfl)
  · rename_i looking
    exact agreed.nextClientMessage looking stepped
  · rename_i working
    cases stepped
    exact agreed.goOn (by rw [working]; rfl) (by rw [working]; rfl) rfl rfl
  · rename_i frame acts working
    cases stepped
    exact agreed.goOn (by rw [working]; rfl) (by rw [working]; rfl) rfl rfl
  · rename_i slot w0 acts working
    cases stepped
    exact agreed.goOn (by rw [working]; rfl) (by rw [working]; rfl) rfl rfl
  · cases stepped

theorem Agreed.called {c : Call} (sends : y.stage = .sends c) {mac : List UInt8} {mapped ok : Bool} {driver : NetRtl8139.Driver}
    {answer : Option Answer} (handled : y.driver.request mac mapped ok (c.message slots) = (driver, answer)) :
    Agreed slots ({ y with toDriver := [], stage := c.next }.handled (driver, answer)) := by
  obtain ⟨-, -, none⟩ := agreed.heard sends
  have known := agreed.known
  have unnamed := agreed.unnamed
  rw [sends] at known unnamed
  have other : (c.message slots).w0 ≠ nicOpRecv := by cases c <;> simp only [Call.message] <;> decide
  have unarmed : driver.recvArmed = false := NetRtl8139.Driver.request_unarmed agreed.unarmed other handled
  have asked (introduced : (Stage.sends c).introduced = true)
      (op : (c.message slots).w0 = nicOpGetMac ∨ (c.message slots).w0 = nicOpSend ∨ (c.message slots).w0 = nicOpTryRecv) :
      driver.clientReply ≠ 0 ∧ ∃ a, answer = some a :=
    ⟨NetRtl8139.Driver.request_clientReply (known introduced) handled,
      NetRtl8139.Driver.request_answered (known introduced) op handled⟩
  cases c with
  | setBuffer =>
    cases NetRtl8139.Driver.request_setBuffer rfl handled
    exact ⟨unarmed, by rintro ⟨⟩, unnamed, agreed.alone, rfl, rfl, none⟩
  | setReply =>
    obtain ⟨rfl, some⟩ := NetRtl8139.Driver.request_setReply rfl slots.installed handled
    exact ⟨unarmed, fun _ => some, unnamed, agreed.alone, rfl, rfl, none⟩
  | getMac =>
    obtain ⟨some, a, rfl⟩ := asked rfl (.inl rfl)
    exact ⟨unarmed, fun _ => some, unnamed, agreed.alone, rfl, .inl ⟨⟨a, rfl⟩, none⟩⟩
  | tryRecv =>
    obtain ⟨some, a, rfl⟩ := asked rfl (.inr (.inr rfl))
    exact ⟨unarmed, fun _ => some, unnamed, agreed.alone, rfl, .inl ⟨⟨a, rfl⟩, none⟩⟩
  | send len acts =>
    obtain ⟨some, a, rfl⟩ := asked rfl (.inr (.inl rfl))
    exact ⟨unarmed, fun _ => some, unnamed, agreed.alone, rfl, .inl ⟨⟨a, rfl⟩, none⟩⟩

theorem Agreed.netRtl8139 {mac : List UInt8} {report : Report} (stepped : y.netRtl8139 mac report = some y') : Agreed slots y' := by
  unfold Joint.netRtl8139 at stepped
  split at stepped
  · rename_i receiving
    split at stepped
    · rename_i r rest pending
      cases role : y.stage.role with
      | free => cases pending.symm.trans (agreed.free role).1
      | owed => cases pending.symm.trans (agreed.owed role).1
      | heard c =>
        have sends := sends_of_heard role
        have only := pending.symm.trans (agreed.heard sends).1
        cases only
        cases stepped
        rw [sends]
        exact agreed.called sends rfl
    · rename_i pending
      split at stepped
      · cases stepped
      · cases stepped
        obtain ⟨driver, answer, handled⟩ : ∃ driver answer, y.driver.interrupt report.rok report.received = (driver, answer) := ⟨_, _, rfl⟩
        obtain ⟨rfl, unarmed, same⟩ := NetRtl8139.Driver.interrupt_unarmed agreed.unarmed handled
        rw [handled]
        refine ⟨unarmed, ?_, agreed.unnamed, agreed.alone, ?_⟩
        · intro introduced
          exact same ▸ agreed.known introduced
        · have fits := agreed.fits
          unfold Fits at fits ⊢
          rw [receiving] at fits
          exact fits
  · rename_i a answering
    cases stepped
    refine ⟨agreed.unarmed, agreed.known, agreed.unnamed, ?_, ?_⟩
    · intro unnamed
      have alone := agreed.alone unnamed
      simpa [clientMail] using alone
    · cases role : y.stage.role with
      | free => cases answering.symm.trans (agreed.free role).2.1
      | heard c => cases answering.symm.trans (agreed.heard (sends_of_heard role)).2.1
      | owed =>
        obtain ⟨pending, ⟨-, none⟩ | ⟨sending, -⟩⟩ := agreed.owed role
        · rw [Fits, role]
          exact ⟨pending, .inr ⟨rfl, by rw [nicMail_answer, none]⟩⟩
        · cases answering.symm.trans sending
  · cases stepped

theorem Agreed.clientSends {r : RecvResult} (stepped : y.clientSends r = some y') : Agreed slots y' := by
  unfold Joint.clientSends at stepped
  split at stepped
  · rename_i free
    obtain ⟨client, -, rfl⟩ := Option.map_eq_some_iff.mp stepped
    have same : nicMail (y.toNetstack ++ [{ result := r, frame := [] }]) = nicMail y.toNetstack := by
      simp [nicMail, free.2.2]
    refine ⟨agreed.unarmed, agreed.known, agreed.unnamed, ?_, ?_⟩
    · intro unnamed
      cases free.1.symm.trans unnamed
    · have fits := agreed.fits
      rw [Fits, ← same] at fits
      exact fits
  · cases stepped

theorem Agreed.clientReceives (stepped : y.clientReceives = some y') : Agreed slots y' := by
  unfold Joint.clientReceives at stepped
  split at stepped
  · rename_i acts replying
    split at stepped
    · cases stepped
      have fits := agreed.free (by rw [replying]; rfl)
      have known := agreed.known (by rw [replying]; rfl)
      exact ⟨agreed.unarmed, fun _ => known, by rintro ⟨⟩, agreed.alone, fits⟩
    · cases stepped
  · cases stepped

end

theorem Reached.agreed {nicBuf clientBuf : Memory} (reached : Reached slots myMac nicBuf clientBuf y) : Agreed slots y := by
  induction reached with
  | start => exact .start nicBuf clientBuf
  | @turn y y' t earlier stepped agreed =>
    cases t with
    | netstack mapped => exact agreed.netstack stepped
    | driver report => exact agreed.netRtl8139 stepped
    | interrupt =>
      cases stepped
      exact ⟨agreed.unarmed, agreed.known, agreed.unnamed, agreed.alone, agreed.fits⟩
    | clientSends r => exact agreed.clientSends stepped
    | clientReceives => exact agreed.clientReceives stepped

/-- Whatever the interleaving, `netstack` and the driver are never both in a send to the other, and `netstack` waits for the driver
only while the driver owes it one answer. -/
theorem no_mutual_sends {nicBuf clientBuf : Memory} (reached : Reached slots myMac nicBuf clientBuf y) :
    ¬ (y.inSendToDriver ∧ y.inSendToNetstack) ∧ (y.inRecvFromNic → y.owed = 1) := by
  have agreed := reached.agreed
  constructor
  · rintro ⟨⟨c, sends⟩, sending⟩
    cases sending.symm.trans (agreed.heard sends).2.1
  · intro waits
    have owed : y.stage.role = .owed := by
      rcases waits with polling | ⟨acts, waiting⟩
      · rw [polling]
        rfl
      · rw [waiting]
        rfl
    obtain ⟨-, ⟨⟨a, answering⟩, none⟩ | ⟨sending, one⟩⟩ := agreed.owed owed
    · simp [Joint.owed, answering, none, agreed.unarmed]
    · simp [Joint.owed, sending, one, agreed.unarmed]

end

def drive (slots : Slots) (myMac : List UInt8) (y : Joint) (turns : List Turn) : Option Joint := turns.foldlM (step slots myMac) y

private theorem drive_reached {slots : Slots} {myMac : List UInt8} {nicBuf clientBuf : Memory} {y y' : Joint} {turns : List Turn}
    (earlier : Reached slots myMac nicBuf clientBuf y) (driven : y.drive slots myMac turns = some y') :
    Reached slots myMac nicBuf clientBuf y' := by
  induction turns generalizing y with
  | nil =>
    cases driven
    exact earlier
  | cons t turns rest =>
    obtain ⟨next, stepped, driven⟩ := Option.bind_eq_some_iff.mp driven
    exact rest (earlier.turn stepped) driven

def idleReport : Report := { mapped := true, ok := true, rok := false, received := none }

/-- `netstack` introduces itself, learns its address and asks for a frame; the driver is in the send of its answer, an interrupt is
pending and the client has sent its first message. -/
def polled : List Turn :=
  [.netstack none, .driver idleReport, .netstack none, .driver idleReport, .netstack none, .driver idleReport, .driver idleReport,
    .netstack none, .netstack none, .netstack none, .clientSends setBufferMessage, .interrupt, .netstack none, .driver idleReport,
    .driver idleReport]

/-- `netstack` is in `recv_from_nic` and the driver in the send of its answer. -/
def meeting (y : Joint) : Bool :=
  match y.stage, y.task with
  | .polling, .sending => true
  | _, _ => false

private theorem meeting_iff {y : Joint} : y.meeting = true ↔ y.stage = .polling ∧ y.task = .sending := by
  unfold meeting
  split <;> simp_all

theorem polled_owed :
    ∃ y, Reached ⟨3, 4, by decide⟩ [2, 0, 0, 0, 0, 1] (fun _ => 0) (fun _ => 0) y ∧ y.inRecvFromNic ∧ y.inSendToNetstack ∧
      y.toNetstack.length = 2 ∧ ¬ y.inSendToDriver ∧ y.owed = 1 := by
  have driven : ((start (fun _ => 0) (fun _ => 0)).drive ⟨3, 4, by decide⟩ [2, 0, 0, 0, 0, 1] polled).any
      (fun y => y.meeting && y.toNetstack.length == 2) = true := by decide +kernel
  obtain ⟨y, ended, seen⟩ := (Option.any_eq_true _ _).mp driven
  rw [Bool.and_eq_true, meeting_iff, beq_iff_eq] at seen
  obtain ⟨⟨polling, sending⟩, two⟩ := seen
  have reached := drive_reached .start ended
  obtain ⟨apart, owed⟩ := no_mutual_sends reached
  exact ⟨y, reached, .inl polling, sending, two, fun sends => apart ⟨sends, sending⟩, owed (.inl polling)⟩

end Joint

end Pcern.Rendezvous

import Pcern.Keyed
import Pcern.Ledger
import Pcern.Scheduler

/-!
Rendezvous IPC and forwarded interrupts, after `ipc.rs`, `irq.rs` and `pic.rs`.

A message is handed over where the second party arrives: `send` finds a waiting
receiver, `recv` and `try_recv` find a waiting sender or a queued interrupt,
`notify_interrupt` finds a waiting receiver, and otherwise the party that came
first waits. `task_exited` fails everyone who waits on an endpoint of the task.

Two sets of books (`sendBooks`, `irqBooks`) are history, which nothing reads:
they number the messages and the notifications as they are issued and record
where each went.
-/
namespace Pcern
open Keyed Loops Ledger

structure EndpointMeta where
  owner : Nat
  pendingIrqAck : Option UInt32
  deriving DecidableEq, Repr

structure PendingRecv where
  taskId : Nat
  endpoint : Nat
  deriving DecidableEq, Repr

structure Message where
  sender : Nat
  endpoint : Nat
  msg : UInt32 × UInt32 × UInt32
  transfer : Option Nat
  deriving DecidableEq, Repr

/-- A waiting sender; `serial` is the number of its message in the books. -/
structure PendingSend where
  taskId : Nat
  endpoint : Nat
  msg : UInt32 × UInt32 × UInt32
  transfer : Option Nat
  serial : Nat
  deriving DecidableEq, Repr

structure Notification where
  endpoint : Nat
  irq : UInt32
  data : UInt32
  deriving DecidableEq, Repr

structure PendingIrqEvent where
  endpoint : Nat
  irq : UInt32
  data : UInt32
  serial : Nat
  deriving DecidableEq, Repr

/-- Who got a message, and the slot its capability landed in (0 for none). -/
structure Receipt where
  receiver : Nat
  slot : UInt32
  deriving DecidableEq, Repr

structure Ipc where
  endpoints : List EndpointMeta
  pendingRecvs : List PendingRecv
  pendingSends : List PendingSend
  pendingIrqEvents : List PendingIrqEvent
  sendBooks : Books Message Receipt
  irqBooks : Books Notification Nat

/-- The mask registers of the two interrupt controllers. -/
structure Pic where
  master : UInt8
  slave : UInt8
  deriving DecidableEq, Repr

/-- The part of the kernel that IPC works on. -/
structure Core where
  sched : Scheduler
  ipc : Ipc
  handlers : List (Option Nat)
  pic : Pic

namespace Pic

def init : Pic := { master := 0xFC, slave := 0xFF }

/-- Unmasking a line of the slave also opens the cascade line of the master. -/
def unmask (pic : Pic) (irq : UInt8) : Pic :=
  if 8 ≤ irq then { master := pic.master &&& ~~~((1 : UInt8) <<< 2), slave := pic.slave &&& ~~~((1 : UInt8) <<< (irq - 8)) }
  else { pic with master := pic.master &&& ~~~((1 : UInt8) <<< irq) }

def mask (pic : Pic) (irq : UInt8) : Pic :=
  if 8 ≤ irq then { pic with slave := pic.slave ||| ((1 : UInt8) <<< (irq - 8)) }
  else { pic with master := pic.master ||| ((1 : UInt8) <<< irq) }

end Pic

namespace Ipc

def empty : Ipc :=
  { endpoints := [], pendingRecvs := [], pendingSends := [], pendingIrqEvents := [], sendBooks := .empty,
    irqBooks := .empty }

abbrev noMessage : UInt32 := 0xFFFFFFFF
abbrev tryRecvErr : UInt32 := 0xFFFFFFFE
abbrev kernelTaskId : Nat := 0

def createEndpoint (ipc : Ipc) (owner : Nat) : Nat × Ipc :=
  (ipc.endpoints.length, { ipc with endpoints := ipc.endpoints ++ [{ owner, pendingIrqAck := none }] })

def messageRegs (sender : Nat) (msg : UInt32 × UInt32 × UInt32) (slot : UInt32) (regs : SavedRegs) : SavedRegs :=
  { regs with eax := UInt32.ofNat sender, ebx := msg.1, ecx := msg.2.1, edx := msg.2.2, edi := slot }

/-- The receiver's registers for an interrupt: `edi` is left alone. -/
def interruptRegs (irq data : UInt32) (regs : SavedRegs) : SavedRegs :=
  { regs with eax := UInt32.ofNat kernelTaskId, ebx := irq, ecx := data, edx := 0 }

def setEax (value : UInt32) (regs : SavedRegs) : SavedRegs := { regs with eax := value }

/-- A transferred capability goes to the receiver; 0 stands for none. -/
def installTransfer (sched : Scheduler) (receiver : Nat) : Option Nat → Except Stop (UInt32 × Scheduler)
  | none => .ok (0, sched)
  | some node => sched.installCapFor receiver node

/-- The same for a receiver that is the current task. -/
def installTransferCurrent (sched : Scheduler) : Option Nat → Except Stop (UInt32 × Scheduler)
  | none => .ok (0, sched)
  | some node => sched.currentCspaceInstall node

/-- To the first receiver that waits; a sender that finds none waits itself. -/
def send (c : Core) (selfId endpoint : Nat) (msg : UInt32 × UInt32 × UInt32) (transfer : Option Nat) : Except Stop Core :=
  let books := c.ipc.sendBooks.issue { sender := selfId, endpoint, msg, transfer }
  let serial := c.ipc.sendBooks.next
  match takeFirst (fun r => decide (r.endpoint = endpoint)) c.ipc.pendingRecvs with
  | some (matched, pendingRecvs) => do
    let (slot, sched) ← installTransfer c.sched matched.taskId transfer
    let sched := sched.writeRegs matched.taskId (messageRegs selfId msg slot)
    let sched := sched.writeRegs selfId (setEax 0)
    let sched ← sched.wake matched.taskId
    .ok { c with sched, ipc := { c.ipc with
      pendingRecvs, sendBooks := books.deliver serial { receiver := matched.taskId, slot } } }
  | none => do
    let pendingSends := c.ipc.pendingSends ++ [{ taskId := selfId, endpoint, msg, transfer, serial }]
    let (_, sched) ← c.sched.blockCurrent
    .ok { c with sched, ipc := { c.ipc with pendingSends, sendBooks := books } }

/-- The endpoint's last interrupt delivery was for this line and awaits the next `recv`. -/
def setIrqAck (endpoints : List EndpointMeta) (endpoint : Nat) (irq : UInt32) : List EndpointMeta :=
  endpoints.modify endpoint fun e => { e with pendingIrqAck := some irq }

/-- `try_deliver`; `regs` is the receiving task, which is the current one. -/
def tryDeliver (c : Core) (endpoint regs : Nat) : Except Stop (Bool × Core) :=
  match takeFirst (fun s => decide (s.endpoint = endpoint)) c.ipc.pendingSends with
  | some (matched, pendingSends) => do
    let (slot, sched) ← installTransferCurrent c.sched matched.transfer
    let sched := sched.writeRegs regs (messageRegs matched.taskId matched.msg slot)
    let sched := sched.writeRegs matched.taskId (setEax 0)
    let sched ← sched.wake matched.taskId
    .ok (true, { c with sched, ipc := { c.ipc with
      pendingSends, sendBooks := c.ipc.sendBooks.deliver matched.serial { receiver := regs, slot } } })
  | none =>
    match takeFirst (fun e => decide (e.endpoint = endpoint)) c.ipc.pendingIrqEvents with
    | some (event, pendingIrqEvents) =>
      .ok (true, { c with
        sched := c.sched.writeRegs regs (interruptRegs event.irq event.data)
        ipc := { c.ipc with
          pendingIrqEvents
          endpoints := setIrqAck c.ipc.endpoints endpoint event.irq
          irqBooks := c.ipc.irqBooks.deliver event.serial regs } })
    | none => .ok (false, c)

/-- The beginning of `recv` and `try_recv`: unmask the line that the endpoint's last delivery was for. -/
def acknowledge (c : Core) (endpoint : Nat) : Core :=
  match c.ipc.endpoints[endpoint]?.bind EndpointMeta.pendingIrqAck with
  | none => c
  | some irq =>
    { c with
      pic := c.pic.unmask irq.toUInt8
      ipc := { c.ipc with endpoints := c.ipc.endpoints.modify endpoint fun e => { e with pendingIrqAck := none } } }

/-- What is there for the endpoint, or the caller waits. -/
def recv (c : Core) (selfId endpoint : Nat) : Except Stop Core := do
  let (delivered, c) ← tryDeliver (acknowledge c endpoint) endpoint selfId
  if delivered then .ok c
  else do
    let pendingRecvs := c.ipc.pendingRecvs ++ [{ taskId := selfId, endpoint }]
    let (_, sched) ← c.sched.blockCurrent
    .ok { c with sched, ipc := { c.ipc with pendingRecvs } }

/-- The same without waiting. -/
def tryRecv (c : Core) (selfId endpoint : Nat) : Except Stop Core := do
  let (delivered, c) ← tryDeliver (acknowledge c endpoint) endpoint selfId
  if delivered then .ok c else .ok { c with sched := c.sched.writeRegs selfId (setEax noMessage) }

def notifyInterrupt (c : Core) (endpoint : Nat) (irq data : UInt32) : Except Stop Core :=
  let books := c.ipc.irqBooks.issue { endpoint, irq, data }
  let serial := c.ipc.irqBooks.next
  match takeFirst (fun r => decide (r.endpoint = endpoint)) c.ipc.pendingRecvs with
  | some (matched, pendingRecvs) => do
    let sched := c.sched.writeRegs matched.taskId (interruptRegs irq data)
    let sched ← sched.wake matched.taskId
    .ok { c with sched, ipc := { c.ipc with
      pendingRecvs
      endpoints := setIrqAck c.ipc.endpoints endpoint irq
      irqBooks := books.deliver serial matched.taskId } }
  | none =>
    let pendingIrqEvents := c.ipc.pendingIrqEvents ++ [{ endpoint, irq, data, serial }]
    .ok { c with ipc := { c.ipc with pendingIrqEvents, irqBooks := books } }

/-- The `retain` loops of `task_exited`: whoever waits on a dead endpoint is woken with a failure. -/
def retire {α : Type} (taskId endpoint : α → Nat) (dead : List Nat) :
    List α → Scheduler → Except Stop (List α × Scheduler)
  | [], sched => .ok ([], sched)
  | r :: rest, sched =>
    if endpoint r ∈ dead then do
      let sched ← (sched.writeRegs (taskId r) (setEax 0xFFFFFFFF)).wake (taskId r)
      retire taskId endpoint dead rest sched
    else do
      let (kept, sched) ← retire taskId endpoint dead rest sched
      .ok (r :: kept, sched)

def ownedBy (endpoints : List EndpointMeta) (id : Nat) : List Nat :=
  (List.range endpoints.length).filter fun e => endpoints[e]?.any fun endpoint => decide (endpoint.owner = id)

/-- The endpoints of a task die with it: who waits at one is woken, and what is queued there is refused. -/
def taskExited (c : Core) (id : Nat) : Except Stop Core := do
  let dead := ownedBy c.ipc.endpoints id
  let (pendingRecvs, sched) ← retire PendingRecv.taskId PendingRecv.endpoint dead c.ipc.pendingRecvs c.sched
  let (pendingSends, sched) ← retire PendingSend.taskId PendingSend.endpoint dead c.ipc.pendingSends sched
  let refusedSends := c.ipc.pendingSends.filter fun s => decide (s.endpoint ∈ dead)
  let refusedEvents := c.ipc.pendingIrqEvents.filter fun e => decide (e.endpoint ∈ dead)
  .ok { c with sched, ipc := { c.ipc with
    pendingRecvs
    pendingSends
    pendingIrqEvents := c.ipc.pendingIrqEvents.filter fun e => !decide (e.endpoint ∈ dead)
    sendBooks := c.ipc.sendBooks.refuse (refusedSends.map PendingSend.serial)
    irqBooks := c.ipc.irqBooks.refuse (refusedEvents.map PendingIrqEvent.serial) } }

/-- `scheduler::exit_current`, which calls `task_exited` once the next task is chosen. -/
def exitCurrent (c : Core) : Except Stop Core := do
  let (id, sched) ← c.sched.leave .zombie
  taskExited { c with sched } id

/-- `irq::register`. -/
def register (c : Core) (irq : UInt32) (endpoint : Nat) : Bool × Core :=
  if irq.toNat < c.handlers.length then
    (true, { c with handlers := c.handlers.set irq.toNat (some endpoint), pic := c.pic.unmask irq.toUInt8 })
  else (false, c)

def handlerFor (c : Core) (irq : Nat) : Option Nat := (c.handlers[irq]?).join

/-- `irq::dispatch`, for the lines 2 to 15. -/
def dispatch (c : Core) (irq data : UInt32) : Except Stop Core :=
  match handlerFor c irq.toNat with
  | none => .ok c
  | some endpoint => notifyInterrupt { c with pic := c.pic.mask irq.toUInt8 } endpoint irq data

/-- The keyboard handler, which does not mask its line. -/
def keyboard (c : Core) (scancode : UInt8) : Except Stop Core :=
  match handlerFor c 1 with
  | none => .ok c
  | some endpoint => notifyInterrupt c endpoint 1 scancode.toUInt32

/-! ## What the operations do -/

/-- The outcomes of `send`: a waiting receiver gets the message, or the sender waits. -/
inductive Sends (c : Core) (self endpoint : Nat) (msg : UInt32 × UInt32 × UInt32) (transfer : Option Nat) : Core → Prop where
  | handed {matched : PendingRecv} {pendingRecvs : List PendingRecv} {slot : UInt32} {s s' : Scheduler}
      (found : takeFirst (fun r => decide (r.endpoint = endpoint)) c.ipc.pendingRecvs = some (matched, pendingRecvs))
      (installed : installTransfer c.sched matched.taskId transfer = .ok (slot, s))
      (woke : ((s.writeRegs matched.taskId (messageRegs self msg slot)).writeRegs self (setEax 0)).wake matched.taskId =
        .ok s') :
      Sends c self endpoint msg transfer { c with sched := s', ipc := { c.ipc with
        pendingRecvs
        sendBooks := (c.ipc.sendBooks.issue { sender := self, endpoint, msg, transfer }).deliver c.ipc.sendBooks.next
          { receiver := matched.taskId, slot } } }
  | waits {id : Nat} {s : Scheduler}
      (alone : takeFirst (fun r => decide (r.endpoint = endpoint)) c.ipc.pendingRecvs = none)
      (left : c.sched.blockCurrent = .ok (id, s)) :
      Sends c self endpoint msg transfer { c with sched := s, ipc := { c.ipc with
        pendingSends := c.ipc.pendingSends ++ [{ taskId := self, endpoint, msg, transfer, serial := c.ipc.sendBooks.next }]
        sendBooks := c.ipc.sendBooks.issue { sender := self, endpoint, msg, transfer } } }

/-- The outcomes of `try_deliver`: the first waiting sender, else the first queued interrupt, else nothing. -/
inductive Takes (c : Core) (endpoint receiver : Nat) : Bool → Core → Prop where
  | message {matched : PendingSend} {pendingSends : List PendingSend} {slot : UInt32} {s s' : Scheduler}
      (found : takeFirst (fun s => decide (s.endpoint = endpoint)) c.ipc.pendingSends = some (matched, pendingSends))
      (installed : installTransferCurrent c.sched matched.transfer = .ok (slot, s))
      (woke : ((s.writeRegs receiver (messageRegs matched.taskId matched.msg slot)).writeRegs matched.taskId
        (setEax 0)).wake matched.taskId = .ok s') :
      Takes c endpoint receiver true { c with sched := s', ipc := { c.ipc with
        pendingSends, sendBooks := c.ipc.sendBooks.deliver matched.serial { receiver, slot } } }
  | interrupt {event : PendingIrqEvent} {pendingIrqEvents : List PendingIrqEvent}
      (silent : takeFirst (fun s => decide (s.endpoint = endpoint)) c.ipc.pendingSends = none)
      (found : takeFirst (fun e => decide (e.endpoint = endpoint)) c.ipc.pendingIrqEvents = some (event, pendingIrqEvents)) :
      Takes c endpoint receiver true { c with
        sched := c.sched.writeRegs receiver (interruptRegs event.irq event.data)
        ipc := { c.ipc with
          pendingIrqEvents
          endpoints := setIrqAck c.ipc.endpoints endpoint event.irq
          irqBooks := c.ipc.irqBooks.deliver event.serial receiver } }
  | nothing (silent : takeFirst (fun s => decide (s.endpoint = endpoint)) c.ipc.pendingSends = none)
      (quiet : takeFirst (fun e => decide (e.endpoint = endpoint)) c.ipc.pendingIrqEvents = none) :
      Takes c endpoint receiver false c

/-- The outcomes of `recv`, which may wait, and `try_recv`, which does not. -/
inductive Receives (c : Core) (self endpoint : Nat) : Bool → Core → Prop where
  | takes {blocking : Bool} {c' : Core} (took : Takes (acknowledge c endpoint) endpoint self true c') :
      Receives c self endpoint blocking c'
  | waits {c' : Core} {id : Nat} {s : Scheduler} (nothing : Takes (acknowledge c endpoint) endpoint self false c')
      (left : c'.sched.blockCurrent = .ok (id, s)) :
      Receives c self endpoint true { c' with sched := s, ipc := { c'.ipc with
        pendingRecvs := c'.ipc.pendingRecvs ++ [{ taskId := self, endpoint }] } }
  | fails {c' : Core} (nothing : Takes (acknowledge c endpoint) endpoint self false c') :
      Receives c self endpoint false { c' with sched := c'.sched.writeRegs self (setEax noMessage) }

/-- The outcomes of `notify_interrupt`: a waiting receiver gets the event, or it is queued. -/
inductive Notifies (c : Core) (endpoint : Nat) (irq data : UInt32) : Core → Prop where
  | handed {matched : PendingRecv} {pendingRecvs : List PendingRecv} {s : Scheduler}
      (found : takeFirst (fun r => decide (r.endpoint = endpoint)) c.ipc.pendingRecvs = some (matched, pendingRecvs))
      (woke : (c.sched.writeRegs matched.taskId (interruptRegs irq data)).wake matched.taskId = .ok s) :
      Notifies c endpoint irq data { c with sched := s, ipc := { c.ipc with
        pendingRecvs
        endpoints := setIrqAck c.ipc.endpoints endpoint irq
        irqBooks := (c.ipc.irqBooks.issue { endpoint, irq, data }).deliver c.ipc.irqBooks.next matched.taskId } }
  | queued (alone : takeFirst (fun r => decide (r.endpoint = endpoint)) c.ipc.pendingRecvs = none) :
      Notifies c endpoint irq data { c with ipc := { c.ipc with
        pendingIrqEvents := c.ipc.pendingIrqEvents ++ [{ endpoint, irq, data, serial := c.ipc.irqBooks.next }]
        irqBooks := c.ipc.irqBooks.issue { endpoint, irq, data } } }

/-- Tasks are woken one after the other, each with a failure. -/
inductive Fails : List Nat → Scheduler → Scheduler → Prop where
  | nil (s : Scheduler) : Fails [] s s
  | cons {id : Nat} {ids : List Nat} {s s' s'' : Scheduler}
      (woke : (s.writeRegs id (setEax 0xFFFFFFFF)).wake id = .ok s') (rest : Fails ids s' s'') : Fails (id :: ids) s s''

inductive Exits (c : Core) : Core → Prop where
  | exits {id : Nat} {dead : List Nat} {s s' s'' : Scheduler} (left : c.sched.leave .zombie = .ok (id, s))
      (owned : dead = ownedBy c.ipc.endpoints id)
      (receivers : Fails ((c.ipc.pendingRecvs.filter fun r => decide (r.endpoint ∈ dead)).map PendingRecv.taskId) s s')
      (senders : Fails ((c.ipc.pendingSends.filter fun s => decide (s.endpoint ∈ dead)).map PendingSend.taskId) s' s'') :
      Exits c { c with sched := s'', ipc := { c.ipc with
        pendingRecvs := c.ipc.pendingRecvs.filter fun r => !decide (r.endpoint ∈ dead)
        pendingSends := c.ipc.pendingSends.filter fun s => !decide (s.endpoint ∈ dead)
        pendingIrqEvents := c.ipc.pendingIrqEvents.filter fun e => !decide (e.endpoint ∈ dead)
        sendBooks := c.ipc.sendBooks.refuse
          ((c.ipc.pendingSends.filter fun s => decide (s.endpoint ∈ dead)).map PendingSend.serial)
        irqBooks := c.ipc.irqBooks.refuse
          ((c.ipc.pendingIrqEvents.filter fun e => decide (e.endpoint ∈ dead)).map PendingIrqEvent.serial) } }

section Outcomes
variable {c c' : Core} {self endpoint : Nat}

variable {s s' : Scheduler} {receiver : Nat} {transfer : Option Nat} {slot : UInt32}

/-- `send` does what `Sends` lists. -/
theorem send_sends {msg : UInt32 × UInt32 × UInt32}
    (ran : send c self endpoint msg transfer = .ok c') : Sends c self endpoint msg transfer c' := by
  dsimp only [send] at ran
  split at ran
  · rename_i matched pendingRecvs found
    obtain ⟨⟨slot, s⟩, installed, ran⟩ := bind_eq_ok.mp ran
    obtain ⟨s', woke, ran⟩ := bind_eq_ok.mp ran
    cases ran
    exact .handed found installed woke
  · rename_i alone
    obtain ⟨⟨id, s⟩, left, ran⟩ := bind_eq_ok.mp ran
    cases ran
    exact .waits alone left

theorem tryDeliver_takes {delivered : Bool} (ran : tryDeliver c endpoint receiver = .ok (delivered, c')) :
    Takes c endpoint receiver delivered c' := by
  unfold tryDeliver at ran
  split at ran
  · rename_i matched pendingSends found
    obtain ⟨⟨slot, s⟩, installed, ran⟩ := bind_eq_ok.mp ran
    obtain ⟨s', woke, ran⟩ := bind_eq_ok.mp ran
    cases ran
    exact .message found installed woke
  · rename_i silent
    split at ran
    · rename_i event pendingIrqEvents found
      cases ran
      exact .interrupt silent found
    · rename_i quiet
      cases ran
      exact .nothing silent quiet

theorem recv_receives (ran : recv c self endpoint = .ok c') : Receives c self endpoint true c' := by
  obtain ⟨⟨delivered, c1⟩, tried, ran⟩ := bind_eq_ok.mp ran
  have took := tryDeliver_takes tried
  cases delivered with
  | true =>
    cases ran
    exact .takes took
  | false =>
    obtain ⟨⟨id, s⟩, left, ran⟩ := bind_eq_ok.mp ran
    cases ran
    exact .waits took left

theorem tryRecv_receives (ran : tryRecv c self endpoint = .ok c') : Receives c self endpoint false c' := by
  obtain ⟨⟨delivered, c1⟩, tried, ran⟩ := bind_eq_ok.mp ran
  have took := tryDeliver_takes tried
  cases delivered with
  | true =>
    cases ran
    exact .takes took
  | false =>
    cases ran
    exact .fails took

theorem notifyInterrupt_notifies {irq data : UInt32} (ran : notifyInterrupt c endpoint irq data = .ok c') :
    Notifies c endpoint irq data c' := by
  dsimp only [notifyInterrupt] at ran
  split at ran
  · rename_i matched pendingRecvs found
    obtain ⟨s, woke, ran⟩ := bind_eq_ok.mp ran
    cases ran
    exact .handed found woke
  · rename_i alone
    cases ran
    exact .queued alone

private theorem retire_fails {α : Type} (taskId endpoint : α → Nat) (dead : List Nat) {xs kept : List α}
    (ran : retire taskId endpoint dead xs s = .ok (kept, s')) :
    kept = xs.filter (fun x => !decide (endpoint x ∈ dead)) ∧
      Fails ((xs.filter fun x => decide (endpoint x ∈ dead)).map taskId) s s' := by
  induction xs generalizing s kept with
  | nil =>
    cases ran
    exact ⟨rfl, .nil _⟩
  | cons x rest ih =>
    unfold retire at ran
    split at ran
    · rename_i retired
      obtain ⟨s1, woke, ran⟩ := bind_eq_ok.mp ran
      obtain ⟨rfl, fails⟩ := ih ran
      simpa [retired] using Fails.cons woke fails
    · rename_i live
      obtain ⟨⟨kept', s1⟩, ran', ran⟩ := bind_eq_ok.mp ran
      cases ran
      obtain ⟨rfl, fails⟩ := ih ran'
      simpa [live] using fails

/-- `exitCurrent` does what `Exits` lists. -/
theorem exitCurrent_exits (ran : exitCurrent c = .ok c') : Exits c c' := by
  obtain ⟨⟨id, s⟩, left, ran⟩ := bind_eq_ok.mp ran
  obtain ⟨⟨pendingRecvs, s1⟩, recvs, ran⟩ := bind_eq_ok.mp ran
  obtain ⟨⟨pendingSends, s2⟩, sends, ran⟩ := bind_eq_ok.mp ran
  cases ran
  obtain ⟨rfl, receivers⟩ := retire_fails _ _ _ recvs
  obtain ⟨rfl, senders⟩ := retire_fails _ _ _ sends
  exact .exits left rfl receivers senders

section Acknowledge
variable (c : Core) (endpoint : Nat)

@[simp] theorem acknowledge_sched : (acknowledge c endpoint).sched = c.sched := by unfold acknowledge; split <;> rfl

@[simp] theorem acknowledge_pendingRecvs : (acknowledge c endpoint).ipc.pendingRecvs = c.ipc.pendingRecvs := by
  unfold acknowledge; split <;> rfl

@[simp] theorem acknowledge_pendingSends : (acknowledge c endpoint).ipc.pendingSends = c.ipc.pendingSends := by
  unfold acknowledge; split <;> rfl

@[simp] theorem acknowledge_pendingIrqEvents : (acknowledge c endpoint).ipc.pendingIrqEvents = c.ipc.pendingIrqEvents := by
  unfold acknowledge; split <;> rfl

@[simp] theorem acknowledge_sendBooks : (acknowledge c endpoint).ipc.sendBooks = c.ipc.sendBooks := by
  unfold acknowledge; split <;> rfl

@[simp] theorem acknowledge_irqBooks : (acknowledge c endpoint).ipc.irqBooks = c.ipc.irqBooks := by
  unfold acknowledge; split <;> rfl

end Acknowledge

section
variable (installed : installTransfer s receiver transfer = .ok (slot, s'))
include installed

theorem installTransfer_cspaces :
    (transfer = none ∧ slot = 0 ∧ s'.cspaces = s.cspaces) ∨
      ∃ node slots, transfer = some node ∧ s.cspaces receiver = some slots ∧ slot = UInt32.ofNat slots.length ∧
        s'.cspaces = Function.update s.cspaces receiver (some (slots ++ [some node])) := by
  cases transfer with
  | none =>
    cases installed
    exact .inl ⟨rfl, rfl, rfl⟩
  | some node =>
    obtain ⟨slots, before, slot, after⟩ := Scheduler.installCapFor_cspaces installed
    exact .inr ⟨node, slots, rfl, before, slot, after⟩

theorem installTransfer_same : Scheduler.SameRotation s s' := by
  cases transfer with
  | none =>
    cases installed
    exact .refl s
  | some node => exact .installCapFor installed

theorem installTransfer_registers : s'.registers = s.registers := by
  cases transfer with
  | none =>
    cases installed
    rfl
  | some node => exact Scheduler.installCapFor_registers installed

end

theorem installTransferCurrent_eq {id : Nat} (current : s.current = some id) (transfer : Option Nat) :
    installTransferCurrent s transfer = installTransfer s id transfer := by
  cases transfer with
  | none => rfl
  | some node => simp [installTransferCurrent, installTransfer, Scheduler.currentCspaceInstall, current]

theorem Fails.cspaces {ids : List Nat} (fails : Fails ids s s') : s'.cspaces = s.cspaces := by
  induction fails with
  | nil => rfl
  | cons woke _ ih => rw [ih, (Scheduler.wake_restated woke).cspaces, Scheduler.cspaces_writeRegs]

theorem Fails.registers {ids : List Nat} (fails : Fails ids s s') (id : Nat) :
    s'.registers id = if id ∈ ids then (s.registers id).map (setEax 0xFFFFFFFF) else s.registers id := by
  induction fails with
  | nil => simp
  | @cons first rest s s1 _ woke _ ih =>
    have step : s1.registers = Function.update s.registers first ((s.registers first).map (setEax 0xFFFFFFFF)) := by
      rw [(Scheduler.wake_restated woke).registers, Scheduler.registers_writeRegs]
    rw [ih, step]
    by_cases same : id = first
    · subst same
      by_cases again : id ∈ rest
      · rw [if_pos again, if_pos (List.mem_cons_self ..), Function.update_self, Option.map_map]
        rfl
      · simp [again]
    · simp [same]

end Outcomes

end Ipc
end Pcern

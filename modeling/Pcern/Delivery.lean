import Pcern.Authority

/-!
Every message is delivered once. The books of `ipc.rs` number the messages and
the forwarded interrupts; `Mail` says that they balance against the queues, that
each endpoint is served in order, and that no endpoint has a waiting receiver
and something to receive at once. It is the last that makes a direct delivery
keep the order.

What the books say is then checked against the registers, the capability tables
and the calls in the records of the history.
-/
namespace Pcern
open Capabilities Keyed Ledger Loops Scheduler

def PendingSend.message (w : PendingSend) : Message :=
  { sender := w.taskId, endpoint := w.endpoint, msg := w.msg, transfer := w.transfer }

def PendingIrqEvent.notification (e : PendingIrqEvent) : Notification :=
  { endpoint := e.endpoint, irq := e.irq, data := e.data }

def Ipc.sendQueue (ipc : Ipc) : List (Nat × Message) := ipc.pendingSends.map fun w => (w.serial, w.message)

def Ipc.irqQueue (ipc : Ipc) : List (Nat × Notification) := ipc.pendingIrqEvents.map fun e => (e.serial, e.notification)

structure Mail (ipc : Ipc) : Prop where
  sends : Accounts Message.endpoint ipc.sendBooks ipc.sendQueue
  irqs : Accounts Notification.endpoint ipc.irqBooks ipc.irqQueue
  apart : ∀ r ∈ ipc.pendingRecvs, (∀ s ∈ ipc.pendingSends, s.endpoint ≠ r.endpoint) ∧
    ∀ e ∈ ipc.pendingIrqEvents, e.endpoint ≠ r.endpoint

section Exchange
variable {c c' : Core} {self endpoint : Nat}

private theorem mail_empty : Mail Ipc.empty := ⟨accounts_empty _, accounts_empty _, nofun⟩

section Accounts
variable {ι ρ ω : Type} {key : ι → Nat} {books : Books ι ρ} {entry : ω → Nat × ι} {queue : List ω}
  (accounts : Accounts key books (queue.map entry))
include accounts

private theorem accounts_direct {item : ι} (none : ∀ w ∈ queue, key (entry w).2 ≠ key item) (receipt : ρ) :
    Accounts key ((books.issue item).deliver books.next receipt) (queue.map entry) := by
  have after := (accounts.issue item).deliver (List.forall_mem_map.mpr none) receipt
  rwa [List.append_nil] at after

private theorem accounts_take {w : ω} {rest : List ω} (found : takeFirst (fun w => decide (key (entry w).2 = endpoint)) queue = some (w, rest))
    (receipt : ρ) : Accounts key (books.deliver (entry w).1 receipt) (rest.map entry) := by
  obtain ⟨front, back, split, rfl, same, before⟩ := takeFirst_eq_some found
  rw [split, List.map_append, List.map_cons] at accounts
  rw [List.map_append]
  refine accounts.deliver (List.forall_mem_map.mpr fun w' waits => ?_) receipt
  exact fun equal => of_decide_eq_false (before w' waits) (equal.trans (of_decide_eq_true same))

end Accounts

theorem Ipc.Sends.mail {msg : UInt32 × UInt32 × UInt32} {transfer : Option Nat}
    (sends : Ipc.Sends c self endpoint msg transfer c') (mail : Mail c.ipc) : Mail c'.ipc := by
  cases sends with
  | handed found _ _ =>
    obtain ⟨member, same, fewer⟩ := takeFirst_mem found
    refine ⟨accounts_direct mail.sends ?_ _, mail.irqs, fun r inside => mail.apart r (fewer inside)⟩
    exact of_decide_eq_true same ▸ (mail.apart _ member).1
  | waits alone _ =>
    refine ⟨?_, mail.irqs, fun r inside => ⟨fun s queued => ?_, (mail.apart r inside).2⟩⟩
    · have issued := mail.sends.issue { sender := self, endpoint, msg, transfer }
      simpa [Ipc.sendQueue, PendingSend.message] using issued
    · rcases List.mem_append.mp queued with old | new
      · exact (mail.apart r inside).1 s old
      · cases List.mem_singleton.mp new
        exact Ne.symm (of_decide_eq_false (takeFirst_eq_none.mp alone r inside))

theorem Ipc.Takes.mail {receiver : Nat} {delivered : Bool} (takes : Ipc.Takes c endpoint receiver delivered c')
    (mail : Mail c.ipc) : Mail c'.ipc := by
  cases takes with
  | message found _ _ =>
    refine ⟨accounts_take mail.sends found _, mail.irqs, fun r inside => ⟨fun s queued => ?_, (mail.apart r inside).2⟩⟩
    exact (mail.apart r inside).1 s ((takeFirst_mem found).2.2 queued)
  | interrupt _ found =>
    refine ⟨mail.sends, accounts_take mail.irqs found _, fun r inside => ⟨(mail.apart r inside).1, fun e queued => ?_⟩⟩
    exact (mail.apart r inside).2 e ((takeFirst_mem found).2.2 queued)
  | nothing _ _ => exact mail

theorem acknowledge_mail (mail : Mail c.ipc) (endpoint : Nat) : Mail (Ipc.acknowledge c endpoint).ipc := by
  obtain ⟨sends, irqs, apart⟩ := mail
  exact ⟨by simpa [Ipc.sendQueue] using sends, by simpa [Ipc.irqQueue] using irqs, by simpa using apart⟩

theorem Ipc.Receives.mail {blocking : Bool} (receives : Ipc.Receives c self endpoint blocking c') (mail : Mail c.ipc) : Mail c'.ipc := by
  have before := acknowledge_mail mail endpoint
  cases receives with
  | takes took => exact took.mail before
  | waits nothing _ =>
    cases nothing with
    | nothing silent quiet =>
      refine ⟨before.sends, before.irqs, fun r inside => ?_⟩
      rcases List.mem_append.mp inside with old | new
      · exact before.apart r old
      · cases List.mem_singleton.mp new
        exact ⟨fun s queued => of_decide_eq_false (takeFirst_eq_none.mp silent s queued),
          fun e queued => of_decide_eq_false (takeFirst_eq_none.mp quiet e queued)⟩
  | fails nothing =>
    cases nothing
    exact before

theorem Ipc.Notifies.mail {irq data : UInt32} (notifies : Ipc.Notifies c endpoint irq data c') (mail : Mail c.ipc) :
    Mail c'.ipc := by
  cases notifies with
  | handed found _ =>
    obtain ⟨member, same, fewer⟩ := takeFirst_mem found
    refine ⟨mail.sends, accounts_direct mail.irqs ?_ _, fun r inside => mail.apart r (fewer inside)⟩
    exact of_decide_eq_true same ▸ (mail.apart _ member).2
  | queued alone =>
    refine ⟨mail.sends, ?_, fun r inside => ⟨(mail.apart r inside).1, fun e queued => ?_⟩⟩
    · have issued := mail.irqs.issue { endpoint, irq, data }
      simpa [Ipc.irqQueue, PendingIrqEvent.notification] using issued
    · rcases List.mem_append.mp queued with old | new
      · exact (mail.apart r inside).2 e old
      · cases List.mem_singleton.mp new
        exact Ne.symm (of_decide_eq_false (takeFirst_eq_none.mp alone r inside))

theorem Ipc.Exits.mail (exits : Ipc.Exits c c') (mail : Mail c.ipc) : Mail c'.ipc := by
  cases exits with
  | @exits _ dead _ _ _ _ _ _ _ =>
    refine ⟨?_, ?_, fun r inside => ?_⟩
    · have refused := mail.sends.refuse fun entry => !decide (entry.2.endpoint ∈ dead)
      simpa [Ipc.sendQueue, List.filter_map, Function.comp_def, PendingSend.message] using refused
    · have refused := mail.irqs.refuse fun entry => !decide (entry.2.endpoint ∈ dead)
      simpa [Ipc.irqQueue, List.filter_map, Function.comp_def, PendingIrqEvent.notification] using refused
    · obtain ⟨sends, irqs⟩ := mail.apart r (List.mem_of_mem_filter inside)
      exact ⟨fun s queued => sends s (List.mem_of_mem_filter queued), fun e queued => irqs e (List.mem_of_mem_filter queued)⟩

end Exchange

/-! ## What a delivery does -/

/-- A message reaches its receiver: the sender's id, the words and the slot are in the receiver's registers, the
    transferred capability is in that slot, the sender's result is 0, and both wait no longer. `held` are the
    capability tables before. -/
structure Handover (held : Nat → Option (List (Option Nat))) (c : Core) (m : Message) (receipt : Receipt) : Prop where
  words : ∃ regs, c.sched.registers receipt.receiver = some regs ∧ regs.eax.toNat = m.sender ∧
    (regs.ebx, regs.ecx, regs.edx) = m.msg ∧ regs.edi = receipt.slot
  returned : ∃ regs, c.sched.registers m.sender = some regs ∧ regs.eax = 0
  slot : (m.transfer = none ∧ receipt.slot = 0 ∧ c.sched.cspaces = held) ∨
    ∃ node slots, m.transfer = some node ∧ held receipt.receiver = some slots ∧
      receipt.slot = UInt32.ofNat slots.length ∧
      c.sched.cspaces = Function.update held receipt.receiver (some (slots ++ [some node]))
  resumed : m.sender ∉ c.ipc.waiting ∧ receipt.receiver ∉ c.ipc.waiting

/-- An interrupt is in the receiver's registers: the kernel's id, the line and the data. -/
def Interrupts (c : Core) (n : Notification) (receiver : Nat) : Prop :=
  ∃ regs, c.sched.registers receiver = some regs ∧ regs.eax = 0 ∧ regs.ebx = n.irq ∧ regs.ecx = n.data ∧ regs.edx = 0

def Core.Small (c : Core) : Prop := ∀ id, c.sched.status id ≠ none → id < 2 ^ 32

section Handovers
variable {c c' : Core} {self endpoint : Nat}

variable {msg : UInt32 × UInt32 × UInt32} {id : Nat} {blocking delivered : Bool}

theorem registers_of_status {s : Scheduler} {state : TaskState} (here : s.status id = some state) :
    ∃ regs, s.registers id = some regs := by
  obtain ⟨task, found, _⟩ := Option.map_eq_some_iff.mp here
  exact ⟨task.regs, by simp [registers, found]⟩

/-- Those who wait at a dead endpoint, and the others. -/
theorem Ipc.waiting_split (ipc : Ipc) (dead : List Nat) :
    ipc.waiting.Perm ((ipc.pendingRecvs.filter fun r => decide (r.endpoint ∈ dead)).map PendingRecv.taskId ++
      (ipc.pendingSends.filter fun s => decide (s.endpoint ∈ dead)).map PendingSend.taskId ++
      ((ipc.pendingRecvs.filter fun r => !decide (r.endpoint ∈ dead)).map PendingRecv.taskId ++
        (ipc.pendingSends.filter fun s => !decide (s.endpoint ∈ dead)).map PendingSend.taskId)) := by
  have recvs := (List.filter_append_perm (fun r : PendingRecv => decide (r.endpoint ∈ dead)) ipc.pendingRecvs).map
    PendingRecv.taskId
  have sends := (List.filter_append_perm (fun s : PendingSend => decide (s.endpoint ∈ dead)) ipc.pendingSends).map
    PendingSend.taskId
  rw [List.map_append] at recvs sends
  refine (recvs.append sends).symm.trans ?_
  simp only [List.append_assoc]
  exact (List.perm_append_comm_assoc _ _ _).append_left _

private theorem parked_ne (booked : c.Booked) {matched : Nat} {rest : List Nat} (split : c.ipc.waiting.Perm (matched :: rest))
    (parked : id ∈ c.ipc.waiting → id ∈ rest) : id ≠ matched := by
  rintro rfl
  exact (List.nodup_cons.mp (split.nodup_iff.mp booked.agree.parkedOnce)).1 (parked (split.mem_iff.mpr List.mem_cons_self))

/-- A message passes between the task that runs and one that waits for it. -/
theorem handed_over {m : Message} {receipt : Receipt} {matched : Nat} {s : Scheduler} (booked : c.Booked) (small : c.Small)
    (current : c.sched.current = some self) (split : c.ipc.waiting.Perm (matched :: c'.ipc.waiting))
    (pair : receipt.receiver = matched ∧ m.sender = self ∨ receipt.receiver = self ∧ m.sender = matched)
    (installed : Ipc.installTransfer c.sched receipt.receiver m.transfer = .ok (receipt.slot, s))
    (woke : ((s.writeRegs receipt.receiver (Ipc.messageRegs m.sender m.msg receipt.slot)).writeRegs m.sender
      (Ipc.setEax 0)).wake matched = .ok c'.sched) :
    Handover c.sched.cspaces c' m receipt ∧ ∀ id ∈ c.ipc.waiting, id ∉ c'.ipc.waiting → id = matched := by
  have running := (booked.agree.running self).mpr current
  have blocked := (booked.agree.blocked matched).mp (split.mem_iff.mpr List.mem_cons_self)
  have different : self ≠ matched := fun equal => by simp [← equal, running] at blocked
  have awake : self ∉ c'.ipc.waiting := fun waits =>
    booked.agree.not_parked (by simp [running]) (split.mem_iff.mpr (List.mem_cons_of_mem _ waits))
  have woken := (List.nodup_cons.mp (split.nodup_iff.mp booked.agree.parkedOnce)).1
  obtain ⟨other, ⟨_, here⟩, ⟨_, there⟩, resumed⟩ : receipt.receiver ≠ m.sender ∧
      (∃ state, c.sched.status receipt.receiver = some state) ∧ (∃ state, c.sched.status m.sender = some state) ∧
      m.sender ∉ c'.ipc.waiting ∧ receipt.receiver ∉ c'.ipc.waiting := by
    rcases pair with ⟨receives, sends⟩ | ⟨receives, sends⟩
    · rw [receives, sends]
      exact ⟨different.symm, ⟨_, blocked⟩, ⟨_, running⟩, awake, woken⟩
    · rw [receives, sends]
      exact ⟨different, ⟨_, running⟩, ⟨_, blocked⟩, woken, awake⟩
  obtain ⟨regs, at'⟩ := registers_of_status here
  obtain ⟨regs', at''⟩ := registers_of_status there
  have after := (wake_restated woke).registers
  rw [registers_writeRegs, registers_writeRegs, Ipc.installTransfer_registers installed] at after
  have cspaces : c'.sched.cspaces = s.cspaces := by simp [(wake_restated woke).cspaces]
  refine ⟨⟨⟨Ipc.messageRegs m.sender m.msg receipt.slot regs, ?_, ?_, rfl, rfl⟩, ⟨Ipc.setEax 0 regs', ?_, rfl⟩, ?_, resumed⟩,
    fun id parked outside => (List.mem_cons.mp (split.mem_iff.mp parked)).resolve_right outside⟩
  · simp [after, other, at']
  · simpa [Ipc.messageRegs] using Nat.mod_eq_of_lt (small m.sender (by simp [there]))
  · simp [after, other.symm, at'']
  · rcases Ipc.installTransfer_cspaces installed with ⟨none, zero, kept⟩ | ⟨node, slots, named, before, there, grown⟩
    · exact .inl ⟨none, zero, cspaces.trans kept⟩
    · exact .inr ⟨node, slots, named, before, there, cspaces.trans grown⟩

theorem Ipc.Sends.handover {transfer : Option Nat}
    (sends : Ipc.Sends c self endpoint msg transfer c') (booked : c.Booked) (small : c.Small)
    (current : c.sched.current = some self) :
    (c'.ipc.sendBooks = c.ipc.sendBooks.issue { sender := self, endpoint, msg, transfer } ∧
        self ∈ c'.ipc.waiting ∧ c.ipc.waiting ⊆ c'.ipc.waiting) ∨
      ∃ receipt : Receipt, { taskId := receipt.receiver, endpoint } ∈ c.ipc.pendingRecvs ∧
        c'.ipc.sendBooks = (c.ipc.sendBooks.issue { sender := self, endpoint, msg, transfer }).deliver c.ipc.sendBooks.next
          receipt ∧
        Handover c.sched.cspaces c' { sender := self, endpoint, msg, transfer } receipt ∧
        ∀ id ∈ c.ipc.waiting, id ∉ c'.ipc.waiting → id = receipt.receiver := by
  cases sends with
  | waits _ _ =>
    refine .inl ⟨rfl, by simp [Ipc.waiting], fun id parked => ?_⟩
    simpa [Ipc.waiting, or_assoc] using Or.inl (List.mem_append.mp parked)
  | @handed matched pendingRecvs slot s s' found installed woke =>
    obtain ⟨member, same, _⟩ := takeFirst_mem found
    exact .inr ⟨⟨matched.taskId, slot⟩, of_decide_eq_true same ▸ member, rfl,
      handed_over booked small current (Ipc.waiting_takeRecv found) (.inl ⟨rfl, rfl⟩) installed woke⟩

@[simp] theorem Ipc.acknowledge_waiting : (Ipc.acknowledge c endpoint).ipc.waiting = c.ipc.waiting := by simp [Ipc.waiting]

/-- What a receive by `self` comes to: a waiting message, a queued interrupt, or neither, and then `self` waits or its
    result is `NO_MESSAGE`. Nobody else is woken but the sender. -/
inductive Ipc.Fetched (c : Core) (self endpoint : Nat) (c' : Core) : Prop where
  | message {w : PendingSend} {slot : UInt32} (queued : w ∈ c.ipc.pendingSends) (there : w.endpoint = endpoint)
      (books : c'.ipc.sendBooks = c.ipc.sendBooks.deliver w.serial { receiver := self, slot })
      (irqs : c'.ipc.irqBooks = c.ipc.irqBooks)
      (handover : Handover c.sched.cspaces c' w.message { receiver := self, slot })
      (resumed : ∀ id ∈ c.ipc.waiting, id ∉ c'.ipc.waiting → id = w.taskId)
  | interrupt {event : PendingIrqEvent} (queued : event ∈ c.ipc.pendingIrqEvents) (there : event.endpoint = endpoint)
      (sends : c'.ipc.sendBooks = c.ipc.sendBooks) (books : c'.ipc.irqBooks = c.ipc.irqBooks.deliver event.serial self)
      (interrupts : Interrupts c' event.notification self) (parked : c.ipc.waiting ⊆ c'.ipc.waiting)
  | nothing (sends : c'.ipc.sendBooks = c.ipc.sendBooks) (irqs : c'.ipc.irqBooks = c.ipc.irqBooks)
      (parked : c.ipc.waiting ⊆ c'.ipc.waiting)
      (result : self ∈ c'.ipc.waiting ∨ ∃ regs, c'.sched.registers self = some regs ∧ regs.eax = Ipc.noMessage)

theorem Ipc.Takes.fetched (takes : Ipc.Takes c endpoint self true c') (booked : c.Booked) (small : c.Small)
    (current : c.sched.current = some self) : Ipc.Fetched c self endpoint c' := by
  have running := (booked.agree.running self).mpr current
  cases takes with
  | @interrupt event pendingIrqEvents _ found =>
    obtain ⟨member, same, _⟩ := takeFirst_mem found
    obtain ⟨regs, at'⟩ := registers_of_status running
    refine .interrupt member (of_decide_eq_true same) rfl rfl ⟨Ipc.interruptRegs event.irq event.data regs, ?_, rfl, rfl, rfl, rfl⟩
      (List.Subset.refl _)
    simp [at']
  | @message matched pendingSends slot s s' found installed woke =>
    obtain ⟨member, same, _⟩ := takeFirst_mem found
    rw [Ipc.installTransferCurrent_eq current] at installed
    refine (and_imp.mpr (.message member (of_decide_eq_true same) rfl rfl)) ?_
    exact handed_over booked small current (Ipc.waiting_takeSend found) (.inr ⟨rfl, rfl⟩) installed woke

theorem Ipc.Receives.fetched (receives : Ipc.Receives c self endpoint blocking c') (booked : c.Booked) (small : c.Small)
    (current : c.sched.current = some self) : Ipc.Fetched c self endpoint c' := by
  cases receives with
  | takes took =>
    cases took.fetched (Ipc.acknowledge_booked booked endpoint) (by simpa [Core.Small] using small)
      (by simpa using current) with
    | message queued there books irqs handover resumed =>
      simp only [Ipc.acknowledge_pendingSends, Ipc.acknowledge_sendBooks, Ipc.acknowledge_irqBooks, Ipc.acknowledge_sched, Ipc.acknowledge_waiting]
        at queued books irqs handover resumed
      exact .message queued there books irqs handover resumed
    | interrupt queued there sends books interrupts parked =>
      simp only [Ipc.acknowledge_pendingIrqEvents, Ipc.acknowledge_sendBooks, Ipc.acknowledge_irqBooks, Ipc.acknowledge_waiting]
        at queued sends books parked
      exact .interrupt queued there sends books interrupts parked
    | nothing sends irqs parked result =>
      simp only [Ipc.acknowledge_sendBooks, Ipc.acknowledge_irqBooks, Ipc.acknowledge_waiting] at sends irqs parked
      exact .nothing sends irqs parked result
  | waits nothing _ =>
    cases nothing
    refine .nothing (by simp) (by simp) (fun id parked => ?_) (.inl (by simp [Ipc.waiting]))
    simpa [Ipc.waiting, or_assoc, or_left_comm] using Or.inr (List.mem_append.mp parked)
  | fails nothing =>
    cases nothing
    obtain ⟨regs, at'⟩ := registers_of_status ((booked.agree.running self).mpr current)
    refine .nothing (by simp) (by simp) (by simp [Ipc.waiting]) (.inr ⟨Ipc.setEax Ipc.noMessage regs, ?_, rfl⟩)
    simp [at']

/-- The tasks that an exit wakes have the failure as their result. -/
theorem Ipc.Exits.failed (exits : Ipc.Exits c c') (booked : c.Booked) (parked : id ∈ c.ipc.waiting)
    (resumed : id ∉ c'.ipc.waiting) : ∃ regs, c'.sched.registers id = some regs ∧ regs.eax = 0xFFFFFFFF := by
  obtain ⟨regs, at'⟩ := registers_of_status ((booked.agree.blocked id).mp parked)
  cases exits with
  | @exits _ dead s s1 s2 left _ receivers senders =>
    have orphaned := (List.mem_append.mp ((Ipc.waiting_split c.ipc dead).mem_iff.mp parked)).resolve_right resumed
    rw [senders.registers, receivers.registers, (leave_restated left).registers, at']
    rcases List.mem_append.mp orphaned with receives | sends
    · rw [if_pos receives]
      split
      · exact ⟨_, rfl, rfl⟩
      · exact ⟨_, rfl, rfl⟩
    · rw [if_pos sends]
      split
      · exact ⟨_, rfl, rfl⟩
      · exact ⟨_, rfl, rfl⟩

/-- An exit refuses the waiting messages whose senders it wakes. -/
theorem Ipc.Exits.refuses (exits : Ipc.Exits c c') (booked : c.Booked) :
    ∃ serials, c'.ipc.sendBooks = c.ipc.sendBooks.refuse serials ∧
      (∀ serial ∈ serials, ∃ w ∈ c.ipc.pendingSends, w.serial = serial ∧ w.taskId ∉ c'.ipc.waiting) ∧
      ∀ w ∈ c.ipc.pendingSends, w.taskId ∉ c'.ipc.waiting → w.serial ∈ serials := by
  cases exits with
  | @exits id dead s s1 s2 left _ receivers senders =>
    refine ⟨_, rfl, fun serial refused => ?_, fun w inside resumed => ?_⟩
    · obtain ⟨w, member, rfl⟩ := List.mem_map.mp refused
      have inside := List.mem_of_mem_filter member
      have apart := (List.nodup_append.mp ((Ipc.waiting_split c.ipc dead).nodup_iff.mp booked.agree.parkedOnce)).2.2
      exact ⟨w, inside, rfl, fun waits => apart _ (List.mem_append_right _ (List.mem_map_of_mem member)) _ waits rfl⟩
    · refine List.mem_map_of_mem (List.mem_filter.mpr ⟨inside, ?_⟩)
      by_contra live
      refine resumed (List.mem_append_right _ (List.mem_map_of_mem (List.mem_filter.mpr ⟨inside, ?_⟩)))
      simpa using live

/-- An exit drops the queued interrupts of the endpoints that the task owns. -/
theorem Ipc.Exits.drops (exits : Ipc.Exits c c') :
    ∃ serials, c'.ipc.irqBooks = c.ipc.irqBooks.refuse serials ∧ ∀ serial ∈ serials, ∃ e ∈ c.ipc.pendingIrqEvents,
      e.serial = serial ∧ ∃ id, c.sched.current = some id ∧ e.endpoint ∈ Ipc.ownedBy c.ipc.endpoints id := by
  cases exits with
  | exits left owned _ _ =>
    refine ⟨_, rfl, fun serial dropped => ?_⟩
    obtain ⟨e, member, rfl⟩ := List.mem_map.mp dropped
    obtain ⟨inside, dead⟩ := List.mem_filter.mp member
    exact ⟨e, inside, rfl, _, (leave_eq_ok left).1, owned ▸ of_decide_eq_true dead⟩

theorem Ipc.Notifies.interrupts {irq data : UInt32} (notifies : Ipc.Notifies c endpoint irq data c') (booked : c.Booked) :
    (c'.ipc.irqBooks = c.ipc.irqBooks.issue { endpoint, irq, data } ∧ c.ipc.waiting ⊆ c'.ipc.waiting) ∨
      ∃ receiver, { taskId := receiver, endpoint } ∈ c.ipc.pendingRecvs ∧
        c'.ipc.irqBooks = (c.ipc.irqBooks.issue { endpoint, irq, data }).deliver c.ipc.irqBooks.next receiver ∧
        Interrupts c' { endpoint, irq, data } receiver ∧
        ∀ id ∈ c.ipc.waiting, id ∉ c'.ipc.waiting → id = receiver := by
  cases notifies with
  | queued _ => exact .inl ⟨rfl, List.Subset.refl _⟩
  | @handed matched pendingRecvs s found woke =>
    obtain ⟨member, same, _⟩ := takeFirst_mem found
    have blocked := (booked.agree.blocked matched.taskId).mp (List.mem_append_left _ (List.mem_map_of_mem member))
    obtain ⟨regs, at'⟩ := registers_of_status blocked
    have split := Ipc.waiting_takeRecv found
    refine .inr ⟨matched.taskId, of_decide_eq_true same ▸ member, rfl,
      ⟨Ipc.interruptRegs irq data regs, ?_, rfl, rfl, rfl, rfl⟩, fun id parked outside => ?_⟩
    · simp [(wake_restated woke).registers, at']
    · exact (List.mem_cons.mp (split.mem_iff.mp parked)).resolve_right outside

/-! ## Whose registers change -/

theorem Ipc.Sends.registers {transfer : Option Nat} (sends : Ipc.Sends c self endpoint msg transfer c') (booked : c.Booked)
    (parked : id ∈ c.ipc.waiting → id ∈ c'.ipc.waiting) (other : id ≠ self) :
    c'.sched.registers id = c.sched.registers id := by
  cases sends with
  | waits _ left => rw [(leave_restated left).registers]
  | @handed matched pendingRecvs _ s _ found installed woke =>
    have apart := parked_ne booked (Ipc.waiting_takeRecv found) parked
    simp [(wake_restated woke).registers, other, apart, Ipc.installTransfer_registers installed]

theorem Ipc.Takes.registers (takes : Ipc.Takes c endpoint self delivered c') (booked : c.Booked)
    (parked : id ∈ c.ipc.waiting → id ∈ c'.ipc.waiting) (current : c.sched.current = some self) (other : id ≠ self) :
    c'.sched.registers id = c.sched.registers id := by
  cases takes with
  | interrupt _ _ => simp [other]
  | nothing _ _ => rfl
  | @message matched _ _ s _ found installed woke =>
    have apart := parked_ne booked (Ipc.waiting_takeSend found) parked
    rw [Ipc.installTransferCurrent_eq current] at installed
    simp [(wake_restated woke).registers, other, apart, Ipc.installTransfer_registers installed]

theorem Ipc.Receives.registers (receives : Ipc.Receives c self endpoint blocking c') (booked : c.Booked)
    (parked : id ∈ c.ipc.waiting → id ∈ c'.ipc.waiting) (current : c.sched.current = some self) (other : id ≠ self) :
    c'.sched.registers id = c.sched.registers id := by
  cases receives with
  | takes took =>
    have effect := took.registers (Ipc.acknowledge_booked booked endpoint) (by simpa using parked) (by simpa using current) other
    simpa using effect
  | waits nothing left =>
    cases nothing
    simp [(leave_restated left).registers]
  | fails nothing =>
    cases nothing
    simp [other]

theorem Ipc.Notifies.registers {irq data : UInt32} (notifies : Ipc.Notifies c endpoint irq data c') (booked : c.Booked)
    (parked : id ∈ c.ipc.waiting → id ∈ c'.ipc.waiting) : c'.sched.registers id = c.sched.registers id := by
  cases notifies with
  | queued _ => rfl
  | @handed matched _ s found woke =>
    have apart := parked_ne booked (Ipc.waiting_takeRecv found) parked
    simp [(wake_restated woke).registers, apart]

theorem Ipc.Exits.registers (exits : Ipc.Exits c c') (booked : c.Booked)
    (parked : id ∈ c.ipc.waiting → id ∈ c'.ipc.waiting) : c'.sched.registers id = c.sched.registers id := by
  cases exits with
  | @exits _ dead s s1 s2 left _ receivers senders =>
    have split := Ipc.waiting_split c.ipc dead
    have apart := (List.nodup_append.mp (split.nodup_iff.mp booked.agree.parkedOnce)).2.2
    have live : id ∉ (c.ipc.pendingRecvs.filter fun r => decide (r.endpoint ∈ dead)).map PendingRecv.taskId ++
        (c.ipc.pendingSends.filter fun s => decide (s.endpoint ∈ dead)).map PendingSend.taskId :=
      fun orphaned => apart _ orphaned _ (parked (split.mem_iff.mpr (List.mem_append_left _ orphaned))) rfl
    obtain ⟨notReceiver, notSender⟩ := not_or.mp (mt List.mem_append.mpr live)
    rw [senders.registers, if_neg notSender, receivers.registers, if_neg notReceiver, (leave_restated left).registers]

end Handovers

/-! ## What a record does to the books -/

/-- The record is a `SYS_SEND` to an endpoint that a slot of the sender resolves to, with this message. -/
inductive Issues (r : Record) (m : Message) : Prop where
  | sends {regs : SavedRegs} {node : Nat} {badge : UInt32} (calls : Calls r m.sender regs)
      (number : regs.eax = Syscall.sysSend) (target : Holds r.pre m.sender regs.ebx node)
      (reachable : resolve r.pre.caps node = some (.endpoint m.endpoint, badge))
      (words : m.msg = (regs.ecx, regs.edx, regs.esi))
      (derived : Derived r.pre m.sender regs.edi m.transfer r.post.caps)

/-- The record is a receive of this task from this endpoint, or finds the task waiting there. -/
def Asked (r : Record) (id endpoint : Nat) : Prop :=
  Listens r id endpoint ∨ { taskId := id, endpoint } ∈ r.pre.core.ipc.pendingRecvs

/-- In this record a message is handed over to a task that asked for it. -/
structure Delivers (r : Record) (m : Message) (receipt : Receipt) : Prop where
  asked : Asked r receipt.receiver m.endpoint
  handover : Handover r.pre.sched.cspaces r.post.core m receipt

/-- In this record the sender wakes with the failure. -/
def Refuses (r : Record) (m : Message) : Prop :=
  m.sender ∉ r.post.core.ipc.waiting ∧ ∃ regs, r.post.sched.registers m.sender = some regs ∧ regs.eax = 0xFFFFFFFF

/-- The record is an interrupt of this line, which is registered for this endpoint. -/
def Raised (r : Record) (n : Notification) : Prop :=
  ((∃ scancode, r.action = .event (.keyboard scancode) ∧ n.irq = 1) ∨
    ∃ line : Fin 14, r.action = .event (.irq line) ∧ n.irq = UInt32.ofNat (line.val + 2)) ∧
  Ipc.handlerFor r.pre.core n.irq.toNat = some n.endpoint

/-- In this record a task that asked for it gets an interrupt. -/
structure Signals (r : Record) (n : Notification) (receiver : Nat) : Prop where
  asked : Asked r receiver n.endpoint
  interrupts : Interrupts r.post.core n receiver

/-- The interrupt was for an endpoint of the task that runs. -/
def Drops (r : Record) (n : Notification) : Prop :=
  ∃ id, r.pre.sched.current = some id ∧ n.endpoint ∈ Ipc.ownedBy r.pre.core.ipc.endpoints id

/-- What a record does to the queues: what it enters in the books, and whom it wakes. -/
inductive Posts (r : Record) (before after : Ipc) : Prop where
  | nothing (sends : after.sendBooks = before.sendBooks) (irqs : after.irqBooks = before.irqBooks)
      (parked : before.waiting ⊆ after.waiting)
  | waits {m : Message} (issues : Issues r m) (sends : after.sendBooks = before.sendBooks.issue m)
      (irqs : after.irqBooks = before.irqBooks) (parked : before.waiting ⊆ after.waiting)
  | hands {m : Message} {receipt : Receipt} (issues : Issues r m)
      (found : receipt.receiver ∈ before.pendingRecvs.map PendingRecv.taskId)
      (sends : after.sendBooks = (before.sendBooks.issue m).deliver before.sendBooks.next receipt)
      (irqs : after.irqBooks = before.irqBooks) (delivers : Delivers r m receipt)
      (resumed : ∀ id ∈ before.waiting, id ∉ after.waiting → id = receipt.receiver)
  | takes {w : PendingSend} {receipt : Receipt} (queued : w ∈ before.pendingSends)
      (sends : after.sendBooks = before.sendBooks.deliver w.serial receipt) (irqs : after.irqBooks = before.irqBooks)
      (delivers : Delivers r w.message receipt) (resumed : ∀ id ∈ before.waiting, id ∉ after.waiting → id = w.taskId)
  | queues {n : Notification} (raised : Raised r n) (sends : after.sendBooks = before.sendBooks)
      (irqs : after.irqBooks = before.irqBooks.issue n) (parked : before.waiting ⊆ after.waiting)
  | signals {n : Notification} {receiver : Nat} (raised : Raised r n)
      (found : receiver ∈ before.pendingRecvs.map PendingRecv.taskId) (sends : after.sendBooks = before.sendBooks)
      (irqs : after.irqBooks = (before.irqBooks.issue n).deliver before.irqBooks.next receiver)
      (signals : Signals r n receiver) (resumed : ∀ id ∈ before.waiting, id ∉ after.waiting → id = receiver)
  | fetches {event : PendingIrqEvent} {receiver : Nat} (queued : event ∈ before.pendingIrqEvents)
      (sends : after.sendBooks = before.sendBooks) (irqs : after.irqBooks = before.irqBooks.deliver event.serial receiver)
      (signals : Signals r event.notification receiver) (parked : before.waiting ⊆ after.waiting)
  | refuses {serials dropped : List Nat} (sends : after.sendBooks = before.sendBooks.refuse serials)
      (irqs : after.irqBooks = before.irqBooks.refuse dropped)
      (each : ∀ serial ∈ serials, ∃ w ∈ before.pendingSends, w.serial = serial ∧ Refuses r w.message)
      (all : ∀ w ∈ before.pendingSends, w.taskId ∉ after.waiting → w.serial ∈ serials)
      (drops : ∀ serial ∈ dropped, ∃ e ∈ before.pendingIrqEvents, e.serial = serial ∧ Drops r e.notification)
      (failed : ∀ id ∈ before.waiting, id ∉ after.waiting →
        ∃ regs, r.post.sched.registers id = some regs ∧ regs.eax = 0xFFFFFFFF)

/-- The task receives in this record, or has been waiting to. -/
def Receiving (r : Record) (id : Nat) : Prop :=
  (∃ regs, Calls r id regs ∧ (regs.eax = Syscall.sysRecv ∨ regs.eax = Syscall.sysTryRecv)) ∨
    id ∈ r.pre.core.ipc.pendingRecvs.map PendingRecv.taskId

/-- How a receive returns: the record enters the delivery of a message or of an interrupt to the task, or it enters no
    delivery and the result is one of the two that stand for none. -/
inductive Returns (r : Record) (id : Nat) : Prop where
  | message {serial : Nat} {m : Message} {slot : UInt32} (recorded : r.post.core.ipc.sendBooks.issued[serial]? = some m)
      (entered : r.post.core.ipc.sendBooks.delivered =
        r.pre.core.ipc.sendBooks.delivered ++ [(serial, { receiver := id, slot })])
      (delivers : Delivers r m { receiver := id, slot })
  | interrupt {serial : Nat} {n : Notification} (recorded : r.post.core.ipc.irqBooks.issued[serial]? = some n)
      (entered : r.post.core.ipc.irqBooks.delivered = r.pre.core.ipc.irqBooks.delivered ++ [(serial, id)])
      (signals : Signals r n id)
  | nothing {regs : SavedRegs} (sends : r.post.core.ipc.sendBooks.delivered = r.pre.core.ipc.sendBooks.delivered)
      (irqs : r.post.core.ipc.irqBooks.delivered = r.pre.core.ipc.irqBooks.delivered)
      (result : r.post.sched.registers id = some regs) (code : regs.eax = Ipc.noMessage ∨ regs.eax = Ipc.tryRecvErr)

/-- How a waiting send returns: the record enters its delivery, or its refusal. -/
inductive Answered (r : Record) (w : PendingSend) : Prop where
  | delivered {receipt : Receipt}
      (entered : r.post.core.ipc.sendBooks.delivered = r.pre.core.ipc.sendBooks.delivered ++ [(w.serial, receipt)])
      (delivers : Delivers r w.message receipt)
  | refused {serials : List Nat} (entered : r.post.core.ipc.sendBooks.refused = r.pre.core.ipc.sendBooks.refused ++ serials)
      (member : w.serial ∈ serials) (refuses : Refuses r w.message)

section Records
variable {h : List Record} {k k' : Kernel} {e : Event}

theorem Kernel.Booked.small (booked : k.Booked) : k.core.Small := by
  intro id known
  obtain ⟨state, here⟩ := Option.ne_none_iff_exists'.mp known
  obtain ⟨task, found, _⟩ := Option.map_eq_some_iff.mp here
  have inside := booked.ids task (find_mem Task.id found)
  have same : task.id = id := find_key Task.id found
  have := booked.count
  have := booked.room
  omega

theorem arrive_booked (booked : k.Booked) (id : Nat) (regs : SavedRegs) :
    (arrive k id regs).core.Booked ∧ (arrive k id regs).core.Small := by
  refine ⟨(reply_advances booked id _ id).booked, fun i known => booked.small i ?_⟩
  rwa [← (SameRotation.writeRegs k.sched id fun _ => regs).status]

theorem Did.mail (did : Did k e k') (mail : Mail k.core.ipc) : Mail k'.core.ipc := by
  cases did with
  | send _ _ _ _ _ sends => exact sends.mail mail
  | recv _ _ _ _ _ receives => exact receives.mail mail
  | exit _ exits => exact exits.mail mail
  | fault _ exits => exact exits.mail mail
  | notify _ _ notifies => exact notifies.mail mail
  | spawn _ _ ran => exact (ran.ipc ▸ mail : Mail _)
  | endpointCreate _ _ _ => exact ⟨mail.sends, mail.irqs, mail.apart⟩
  | _ => exact mail

variable {c : BootCall} {id : Nat}

theorem BootDid.mail (did : BootDid k c k') (mail : Mail k.core.ipc) : Mail k'.core.ipc := by
  cases did with
  | spawn ran => exact (ran.ipc ▸ mail : Mail _)
  | createEndpoint => exact ⟨mail.sends, mail.irqs, mail.apart⟩
  | _ => exact mail

theorem Wiring.mail {p : Platform} (wiring : Wiring p h k) : Mail k.core.ipc := by
  refine wiring.rule (P := fun _ k => Mail k.core.ipc) ?_ ?_ ?_
  · intro k up
    obtain ⟨total, mm, mm', -, -, -, -, rfl⟩ := bringUp_eq_ok up
    exact mail_empty
  · exact fun h k k' c _ mail _ _ _ did => did.mail mail
  · exact fun h k k' e _ mail _ _ did => did.mail mail

theorem Ipc.Fetched.posts {r : Record} {endpoint : Nat} {c core : Core} (fetched : Ipc.Fetched c id endpoint core)
    (ipc : c.ipc = r.pre.core.ipc) (cspaces : c.sched.cspaces = r.pre.sched.cspaces) (after : r.post.core = core)
    (listens : Listens r id endpoint) : Posts r r.pre.core.ipc core.ipc := by
  subst after
  rw [← ipc]
  cases fetched with
  | message queued there books irqs handover resumed =>
    subst there
    exact .takes queued books irqs ⟨.inl listens, cspaces ▸ handover⟩ resumed
  | interrupt queued there sends books interrupts parked =>
    subst there
    exact .fetches queued sends books ⟨.inl listens, interrupts⟩ parked
  | nothing sends irqs parked _ => exact .nothing sends irqs parked

private theorem exit_posts {c core : Core} {r : Record} (exits : Ipc.Exits c core) (booked : c.Booked)
    (ipc : c.ipc = r.pre.core.ipc) (current : c.sched.current = r.pre.sched.current) (after : r.post.core = core) :
    Posts r r.pre.core.ipc core.ipc := by
  subst after
  obtain ⟨serials, sends, each, all⟩ := exits.refuses booked
  obtain ⟨dropped, irqs, drops⟩ := exits.drops
  rw [ipc] at sends irqs each all drops
  rw [current] at drops
  refine .refuses sends irqs (fun serial refused => ?_) all drops fun id parked => exits.failed booked (ipc ▸ parked)
  obtain ⟨w, queued, rfl, resumed⟩ := each serial refused
  have parked : w.taskId ∈ c.ipc.waiting := ipc ▸ List.mem_append_right _ (List.mem_map_of_mem queued)
  exact ⟨w, queued, rfl, resumed, exits.failed booked parked resumed⟩

theorem Did.posts (did : Did k e k') (booked : k.Booked) :
    Posts { pre := k, action := .event e, post := k' } k.core.ipc k'.core.ipc := by
  have still : ∀ {ipc : Ipc}, ipc = k.core.ipc → Posts { pre := k, action := .event e, post := k' } k.core.ipc ipc := by
    rintro _ rfl
    exact .nothing rfl rfl (List.Subset.refl _)
  cases did with
  | @send id endpoint node badge regs transfer caps core current number holds live derived sends =>
    have issues : Issues { pre := k, action := .event (.syscall regs), post := { k with caps, core } }
        { sender := id, endpoint, msg := (regs.ecx, regs.edx, regs.esi), transfer } :=
      .sends ⟨rfl, current⟩ number holds live rfl derived
    have irqs : core.ipc.irqBooks = k.core.ipc.irqBooks := by cases sends <;> rfl
    have same : (arrive k id regs).core.sched.cspaces = k.sched.cspaces := cspaces_arrive k id regs
    obtain ⟨booked', small⟩ := arrive_booked booked id regs
    rcases sends.handover booked' small ((current_arrive k id regs).trans current) with
      ⟨waits, _, parked⟩ | ⟨receipt, asked, books, handover, resumed⟩
    · exact .waits issues waits irqs parked
    · exact .hands issues (List.mem_map_of_mem asked) books irqs ⟨.inr asked, same ▸ handover⟩ resumed
  | @recv id endpoint _ _ regs _ _ current number _ holds live receives =>
    obtain ⟨booked', small⟩ := arrive_booked booked id regs
    exact (receives.fetched booked' small ((current_arrive k id regs).trans current)).posts rfl
      (cspaces_arrive k id regs) rfl (.receives ⟨rfl, current⟩ number holds live)
  | @exit id regs core _ exits => exact exit_posts exits (arrive_booked booked id regs).1 rfl (current_arrive k id regs) rfl
  | fault _ exits => exact exit_posts exits booked.core rfl rfl rfl
  | @notify _ endpoint irq data pic core interrupt handler notifies =>
    have raised : Raised { pre := k, action := .event e, post := { k with core } } { endpoint, irq, data } := by
      refine ⟨?_, handler⟩
      rcases interrupt with ⟨scancode, rfl, irq, _⟩ | ⟨line, rfl, irq, _⟩
      · exact .inl ⟨scancode, rfl, irq⟩
      · exact .inr ⟨line, rfl, irq⟩
    have sends : core.ipc.sendBooks = k.core.ipc.sendBooks := by cases notifies <;> rfl
    rcases notifies.interrupts booked.core with ⟨queued, parked⟩ | ⟨receiver, asked, books, interrupts, resumed⟩
    · exact .queues raised sends queued parked
    · exact .signals raised (List.mem_map_of_mem asked) sends books ⟨.inr asked, interrupts⟩ resumed
  | spawn _ _ ran => exact still ran.ipc
  | endpointCreate _ _ _ => exact .nothing rfl rfl (List.Subset.refl _)
  | _ => exact still rfl

theorem BootDid.posts (did : BootDid k c k') (r : Record) : Posts r k.core.ipc k'.core.ipc := by
  cases did with
  | spawn ran =>
    rw [ran.ipc]
    exact .nothing rfl rfl (List.Subset.refl _)
  | _ => exact .nothing rfl rfl (List.Subset.refl _)

/-- A task that ceases to wait for a message has got what the record enters for it. -/
theorem Posts.returns {r : Record} (posts : Posts r r.pre.core.ipc r.post.core.ipc) (booked : r.pre.Booked)
    (parked : id ∈ r.pre.core.ipc.pendingRecvs.map PendingRecv.taskId)
    (resumed : id ∉ r.post.core.ipc.waiting) : Returns r id := by
  have waits : id ∈ r.pre.core.ipc.waiting := List.mem_append_left _ parked
  have receives : ∀ w ∈ r.pre.core.ipc.pendingSends, id ≠ w.taskId := fun w queued =>
    (List.nodup_append.mp booked.core.agree.parkedOnce).2.2 id parked w.taskId (List.mem_map_of_mem queued)
  cases posts with
  | nothing _ _ parked => exact absurd (parked waits) resumed
  | waits _ _ _ parked => exact absurd (parked waits) resumed
  | @hands m _ _ _ sends _ delivers only =>
    cases only id waits resumed
    have recorded : r.post.core.ipc.sendBooks.issued[r.pre.core.ipc.sendBooks.next]? = some m := by
      simp [sends, Books.issue, Books.deliver, Books.next]
    exact .message recorded (by rw [sends]; rfl) delivers
  | takes queued _ _ _ only => exact absurd (only id waits resumed) (receives _ queued)
  | queues _ _ _ parked => exact absurd (parked waits) resumed
  | @signals n _ _ _ _ irqs signals only =>
    cases only id waits resumed
    have recorded : r.post.core.ipc.irqBooks.issued[r.pre.core.ipc.irqBooks.next]? = some n := by
      simp [irqs, Books.issue, Books.deliver, Books.next]
    exact .interrupt recorded (by rw [irqs]; rfl) signals
  | fetches _ _ _ _ parked => exact absurd (parked waits) resumed
  | refuses sends irqs _ _ _ failed =>
    obtain ⟨regs, at', code⟩ := failed id waits resumed
    exact .nothing (by rw [sends]; rfl) (by rw [irqs]; rfl) at' (.inl code)

/-- A sender that ceases to wait has its message's delivery or refusal entered. -/
theorem Posts.answered {r : Record} (posts : Posts r r.pre.core.ipc r.post.core.ipc) (booked : r.pre.Booked)
    {w : PendingSend} (queued : w ∈ r.pre.core.ipc.pendingSends) (resumed : w.taskId ∉ r.post.core.ipc.waiting) :
    Answered r w := by
  have waits : w.taskId ∈ r.pre.core.ipc.waiting := List.mem_append_right _ (List.mem_map_of_mem queued)
  obtain ⟨_, distinct, apart⟩ := List.nodup_append.mp booked.core.agree.parkedOnce
  have sends : w.taskId ∉ r.pre.core.ipc.pendingRecvs.map PendingRecv.taskId := fun receives =>
    apart _ receives _ (List.mem_map_of_mem queued) rfl
  cases posts with
  | nothing _ _ parked => exact absurd (parked waits) resumed
  | waits _ _ _ parked => exact absurd (parked waits) resumed
  | hands _ found _ _ _ only => exact absurd (only _ waits resumed ▸ found) sends
  | takes queued' books _ delivers only =>
    cases List.inj_on_of_nodup_map distinct queued queued' (only _ waits resumed)
    exact .delivered (by rw [books]; rfl) delivers
  | queues _ _ _ parked => exact absurd (parked waits) resumed
  | signals _ found _ _ _ only => exact absurd (only _ waits resumed ▸ found) sends
  | fetches _ _ _ _ parked => exact absurd (parked waits) resumed
  | refuses books _ _ all _ failed =>
    exact .refused (by rw [books]; rfl) (all w queued resumed) ⟨resumed, failed _ waits resumed⟩

private theorem registers_reply {id self : Nat} (other : id ≠ self) (k : Kernel) (f : SavedRegs → SavedRegs) :
    (reply k self f).sched.registers id = k.sched.registers id := by
  have written := registers_writeRegs k.sched self f
  exact (congrFun written id).trans (Function.update_of_ne other ..)

theorem Loader.Spawning.registers {ports : List UInt16} {spawned : Option Nat} (ran : Loader.Spawning k ports spawned k')
    (known : k.sched.lookup id ≠ none) : k'.sched.registers id = k.sched.registers id := by
  cases ran with
  | refused => rfl
  | gaveUp _ _ => rfl
  | loaded _ _ admitted _ _ _ _ =>
    obtain ⟨task, found⟩ := Option.ne_none_iff_exists'.mp known
    simp only [Scheduler.registers, found, admitted.lookup found]

/-- The registers of a task that neither runs nor is woken are left alone. -/
theorem Did.registers (did : Did k e k') (booked : k.Booked) (idle : k.sched.current ≠ some id)
    (parked : id ∈ k.core.ipc.waiting → id ∈ k'.core.ipc.waiting) (known : k.sched.lookup id ≠ none) :
    k'.sched.registers id = k.sched.registers id := by
  have other : ∀ {self}, k.sched.current = some self → id ≠ self := fun current same => idle (same ▸ current)
  have arrived : ∀ {self regs}, k.sched.current = some self → (arrive k self regs).sched.registers id = k.sched.registers id :=
    fun current => registers_reply (other current) k _
  have here : ∀ {self regs}, k.sched.current = some self → (arrive k self regs).sched.current = some self :=
    fun current => (current_arrive ..).trans current
  cases did with
  | answer current f => exact (registers_reply (other current) _ f).trans (arrived current)
  | tick ran => exact congrFun (tick_restated ran).registers id
  | yield current ran =>
    exact (congrFun (tick_restated ran).registers id).trans ((registers_reply (other current) _ _).trans (arrived current))
  | exit current exits => exact (exits.registers (arrive_booked booked _ _).1 parked).trans (arrived current)
  | fault _ exits => exact exits.registers booked.core parked
  | send current _ _ _ _ sends =>
    exact (sends.registers (arrive_booked booked _ _).1 parked (other current)).trans (arrived current)
  | recv current _ _ _ _ receives =>
    exact (receives.registers (arrive_booked booked _ _).1 parked (here current) (other current)).trans (arrived current)
  | register current _ _ _ _ => exact (registers_reply (other current) _ _).trans (arrived current)
  | map current _ _ _ _ _ _ => exact (registers_reply (other current) _ _).trans (arrived current)
  | spawn current _ ran =>
    have found := ran.registers (by rwa [lookup_arrive_other (other current)])
    exact (registers_reply (other current) _ _).trans (found.trans (arrived current))
  | endpointCreate current _ ran =>
    exact (registers_reply (other current) _ _).trans ((congrFun (installCapFor_registers ran) id).trans (arrived current))
  | mint current _ _ _ ran =>
    exact (registers_reply (other current) _ _).trans ((congrFun (installCapFor_registers ran) id).trans (arrived current))
  | revoke current _ _ => exact (registers_reply (other current) _ _).trans (arrived current)
  | alloc current _ _ _ _ _ ran =>
    exact (registers_reply (other current) _ _).trans ((congrFun (installCapFor_registers ran) id).trans (arrived current))
  | quiet _ => rfl
  | notify _ _ notifies => exact notifies.registers booked.core parked
  | store _ _ => rfl

theorem BootDid.registers (did : BootDid k c k') (known : k.sched.lookup id ≠ none) :
    k'.sched.registers id = k.sched.registers id := by
  cases did with
  | spawn ran => exact ran.registers known
  | grant ran => exact congrFun (installCapFor_registers ran) id
  | infoPage _ ran => exact congrFun (installCapFor_registers ran) id
  | spawnIdle _ =>
    obtain ⟨task, found⟩ := Option.ne_none_iff_exists'.mp known
    have found' := lookup_spawn k.sched (Loader.newTask k .idle k.mm.image.bootDir []) id
    rw [found, Option.some_or] at found'
    exact congrArg (Option.map Task.regs) (found'.trans found.symm)
  | start ran => exact congrFun (start_restated ran).registers id
  | _ => rfl

private theorem registers_setEax {k : Kernel} (booked : k.Booked) (current : k.sched.current = some id) (regs : SavedRegs) (code : UInt32) :
    ∃ regs', (Syscall.setEax (arrive k id regs) id code).sched.registers id = some regs' ∧ regs'.eax = code := by
  obtain ⟨regs', before⟩ := registers_of_status (((arrive_booked booked id regs).1.agree.running id).mpr
    ((current_arrive k id regs).trans current))
  refine ⟨Ipc.setEax code regs', ?_, rfl⟩
  refine (congrFun (registers_writeRegs (arrive k id regs).sched id _) id).trans ?_
  rw [Function.update_self, before]
  rfl

/-- A `SYS_SEND` issues a message, which is delivered in the same record unless the sender waits, or fails at once. -/
theorem send_issues {regs : SavedRegs} (booked : k.Booked) (ran : step k (.syscall regs) = .ok k')
    (current : k.sched.current = some id) (number : regs.eax = Syscall.sysSend) :
    (∃ m, m.sender = id ∧ Issues { pre := k, action := .event (.syscall regs), post := k' } m ∧
      k'.core.ipc.sendBooks.issued = k.core.ipc.sendBooks.issued ++ [m] ∧
      (id ∉ k'.core.ipc.waiting → ∃ receipt,
        k'.core.ipc.sendBooks.delivered = k.core.ipc.sendBooks.delivered ++ [(k.core.ipc.sendBooks.next, receipt)] ∧
        Delivers { pre := k, action := .event (.syscall regs), post := k' } m receipt)) ∨
      (k'.core.ipc.sendBooks = k.core.ipc.sendBooks ∧ ∃ regs', k'.sched.registers id = some regs' ∧ regs'.eax = 0xFFFFFFFF) := by
  have sent : Syscall.send (arrive k id regs) id regs = .ok k' := by
    rw [← dispatch_send current number]
    exact ran
  obtain ⟨cap, resolved, sent⟩ := bind_eq_ok.mp sent
  split at sent
  · rename_i endpoint badge
    obtain ⟨node, holds, live⟩ := resolveCurrentCap_arrive current resolved _ rfl
    obtain ⟨⟨transfer, caps⟩, derived, sent⟩ := bind_eq_ok.mp sent
    obtain ⟨core, exchanged, sent⟩ := bind_eq_ok.mp sent
    cases sent
    refine .inl ⟨{ sender := id, endpoint, msg := (regs.ecx, regs.edx, regs.esi), transfer }, rfl,
      .sends ⟨rfl, current⟩ number holds live rfl (deriveTransfer_arrive current derived), ?_⟩
    have same : (arrive k id regs).core.sched.cspaces = k.sched.cspaces := cspaces_arrive k id regs
    obtain ⟨booked', small⟩ := arrive_booked booked id regs
    rcases (Ipc.send_sends exchanged).handover booked' small ((current_arrive k id regs).trans current) with
      ⟨books, waits, _⟩ | ⟨receipt, asked, books, handover, _⟩
    · exact ⟨congrArg Books.issued books, fun returns => absurd waits returns⟩
    · exact ⟨congrArg Books.issued books, fun _ => ⟨receipt, congrArg Books.delivered books, .inr asked, same ▸ handover⟩⟩
  · cases sent
    exact .inr ⟨rfl, registers_setEax booked current regs Syscall.err⟩

private theorem dispatch_tryRecv {regs : SavedRegs} (current : k.sched.current = some id) (number : regs.eax = Syscall.sysTryRecv) :
    Syscall.dispatch k regs = Syscall.tryRecv (arrive k id regs) id regs := by
  unfold Syscall.dispatch
  rw [current]
  dsimp only
  rw [if_neg (by rw [number]; decide), if_neg (by rw [number]; decide), if_neg (by rw [number]; decide),
    if_neg (by rw [number]; decide), if_pos number]
  rfl

/-- `SYS_RECV` and `SYS_TRY_RECV` receive from the endpoint that the slot resolves to, or fail at once. -/
theorem receives_of_step {regs : SavedRegs} (current : k.sched.current = some id)
    (number : regs.eax = Syscall.sysRecv ∨ regs.eax = Syscall.sysTryRecv) (ran : step k (.syscall regs) = .ok k') :
    ∃ cap, Syscall.resolveCurrentCap (arrive k id regs) regs.ebx = .ok cap ∧
      ((∃ endpoint badge blocking, cap = some (.endpoint endpoint, badge) ∧
        Ipc.Receives (arrive k id regs).core id endpoint blocking k'.core) ∨
      ((∀ endpoint badge, cap ≠ some (.endpoint endpoint, badge)) ∧
        ∃ code, (code = Ipc.noMessage ∨ code = Ipc.tryRecvErr) ∧ k' = Syscall.setEax (arrive k id regs) id code)) := by
  change Syscall.dispatch k regs = .ok k' at ran
  rcases number with number | number
  · rw [dispatch_recv current number] at ran
    obtain ⟨cap, resolved, ran⟩ := bind_eq_ok.mp ran
    refine ⟨cap, resolved, ?_⟩
    split at ran
    · obtain ⟨core, received, ran⟩ := bind_eq_ok.mp ran
      cases ran
      exact .inl ⟨_, _, true, rfl, Ipc.recv_receives received⟩
    · rename_i other
      cases ran
      exact .inr ⟨other, _, .inl rfl, rfl⟩
  · rw [dispatch_tryRecv current number] at ran
    obtain ⟨cap, resolved, ran⟩ := bind_eq_ok.mp ran
    refine ⟨cap, resolved, ?_⟩
    split at ran
    · obtain ⟨core, received, ran⟩ := bind_eq_ok.mp ran
      cases ran
      exact .inl ⟨_, _, false, rfl, Ipc.tryRecv_receives received⟩
    · rename_i other
      cases ran
      exact .inr ⟨other, _, .inr rfl, rfl⟩

/-- A receive that does not wait returns what the record enters for it. -/
theorem receive_returns {regs : SavedRegs} (booked : k.Booked) (mail : Mail k.core.ipc) (current : k.sched.current = some id)
    (number : regs.eax = Syscall.sysRecv ∨ regs.eax = Syscall.sysTryRecv) (ran : step k (.syscall regs) = .ok k')
    (resumed : id ∉ k'.core.ipc.waiting) : Returns { pre := k, action := .event (.syscall regs), post := k' } id := by
  obtain ⟨cap, resolved, ⟨endpoint, badge, blocking, rfl, receives⟩ | ⟨_, code, known, rfl⟩⟩ :=
    receives_of_step current number ran
  · obtain ⟨node, holds, live⟩ := resolveCurrentCap_arrive current resolved _ rfl
    have listens : Listens { pre := k, action := .event (.syscall regs), post := k' } id endpoint :=
      .receives ⟨rfl, current⟩ number holds live
    have same : (arrive k id regs).core.sched.cspaces = k.sched.cspaces := cspaces_arrive k id regs
    obtain ⟨booked', small⟩ := arrive_booked booked id regs
    cases receives.fetched booked' small ((current_arrive k id regs).trans current) with
    | message queued there books _ handover _ =>
      subst there
      have recorded := mail.sends.recorded _ (List.mem_map_of_mem queued)
      exact .message ((congrArg (·.issued[_]?) books).trans recorded) (congrArg Books.delivered books) ⟨.inl listens, same ▸ handover⟩
    | interrupt queued there _ books interrupts _ =>
      subst there
      have recorded := mail.irqs.recorded _ (List.mem_map_of_mem queued)
      exact .interrupt ((congrArg (·.issued[_]?) books).trans recorded) (congrArg Books.delivered books) ⟨.inl listens, interrupts⟩
    | nothing sends irqs _ result =>
      obtain ⟨regs', at', code⟩ := result.resolve_left resumed
      exact .nothing (congrArg Books.delivered sends) (congrArg Books.delivered irqs) at' (.inl code)
  · obtain ⟨regs', at', same⟩ := registers_setEax booked current regs code
    exact .nothing rfl rfl at' (same ▸ known)

end Records

/-- Every entry of the books of messages was made by the record that issued, delivered or refused the message. -/
def KeptSends (h : List Record) (books : Books Message Receipt) : Prop :=
  Vouched (fun r => r.pre.core.ipc.sendBooks) (fun r => r.post.core.ipc.sendBooks) Issues Delivers Refuses h books

/-- Every entry of the books of interrupts was made by the record that raised, delivered or dropped the interrupt. -/
def KeptIrqs (h : List Record) (books : Books Notification Nat) : Prop :=
  Vouched (fun r => r.pre.core.ipc.irqBooks) (fun r => r.post.core.ipc.irqBooks) Raised Signals Drops h books

section Histories
variable {h : List Record} {r : Record} {ipc ipc' : Ipc}

theorem Posts.entersSends (posts : Posts r ipc ipc') (mail : Mail ipc) :
    Enters (Issues r) (Delivers r) (Refuses r) ipc.sendBooks ipc'.sendBooks := by
  cases posts with
  | nothing sends _ _ => exact sends ▸ enters_refl _
  | waits issues sends _ _ => exact sends ▸ enters_issue _ issues
  | hands issues _ sends _ delivers _ => exact sends ▸ enters_direct _ issues delivers
  | takes queued sends _ delivers _ =>
    exact sends ▸ enters_deliver (mail.sends.recorded _ (List.mem_map_of_mem queued)) delivers
  | queues _ sends _ _ => exact sends ▸ enters_refl _
  | signals _ _ sends _ _ _ => exact sends ▸ enters_refl _
  | fetches _ sends _ _ _ => exact sends ▸ enters_refl _
  | refuses sends _ each _ _ _ =>
    rw [sends]
    refine enters_refuse fun serial refused => ?_
    obtain ⟨w, queued, rfl, refuses⟩ := each serial refused
    exact ⟨w.message, mail.sends.recorded _ (List.mem_map_of_mem queued), refuses⟩

theorem Posts.entersIrqs (posts : Posts r ipc ipc') (mail : Mail ipc) :
    Enters (Raised r) (Signals r) (Drops r) ipc.irqBooks ipc'.irqBooks := by
  cases posts with
  | nothing _ irqs _ => exact irqs ▸ enters_refl _
  | waits _ _ irqs _ => exact irqs ▸ enters_refl _
  | hands _ _ _ irqs _ _ => exact irqs ▸ enters_refl _
  | takes _ _ irqs _ _ => exact irqs ▸ enters_refl _
  | queues raised _ irqs _ => exact irqs ▸ enters_issue _ raised
  | signals raised _ _ irqs signals _ => exact irqs ▸ enters_direct _ raised signals
  | fetches queued _ irqs signals _ =>
    exact irqs ▸ enters_deliver (mail.irqs.recorded _ (List.mem_map_of_mem queued)) signals
  | refuses _ irqs _ _ drops _ =>
    rw [irqs]
    refine enters_refuse fun serial dropped => ?_
    obtain ⟨e, queued, rfl, drops⟩ := drops serial dropped
    exact ⟨e.notification, mail.irqs.recorded _ (List.mem_map_of_mem queued), drops⟩

variable {p : Platform} {k : Kernel} (wiring : Wiring p h k)
include wiring

theorem Wiring.kept : KeptSends h k.core.ipc.sendBooks ∧ KeptIrqs h k.core.ipc.irqBooks := by
  have snoc : ∀ (h : List Record) (r : Record), Mail r.pre.core.ipc → Posts r r.pre.core.ipc r.post.core.ipc →
      KeptSends h r.pre.core.ipc.sendBooks ∧ KeptIrqs h r.pre.core.ipc.irqBooks →
      KeptSends (h ++ [r]) r.post.core.ipc.sendBooks ∧ KeptIrqs (h ++ [r]) r.post.core.ipc.irqBooks :=
    fun h r mail posts kept => ⟨kept.1.snoc (posts.entersSends mail), kept.2.snoc (posts.entersIrqs mail)⟩
  refine wiring.rule (P := fun h k => KeptSends h k.core.ipc.sendBooks ∧ KeptIrqs h k.core.ipc.irqBooks) ?_ ?_ ?_
  · intro k up
    obtain ⟨total, mm, mm', -, -, -, -, rfl⟩ := bringUp_eq_ok up
    exact ⟨Vouched.empty, Vouched.empty⟩
  · intro h k k' c wiring kept _ _ _ did
    exact snoc h { pre := k, action := .boot c, post := k' } wiring.mail (did.posts _) kept
  · intro h k k' e wiring kept booked _ did
    exact snoc h { pre := k, action := .event e, post := k' } wiring.mail (did.posts booked) kept

/-- The record of a reached state does to the queues what is listed. -/
theorem Wiring.posts (member : r ∈ h) :
    r.pre.Booked ∧ Mail r.pre.core.ipc ∧ Posts r r.pre.core.ipc r.post.core.ipc := by
  obtain ⟨h', wiring, _, how⟩ := wiring.record member
  refine ⟨wiring.booked, wiring.mail, ?_⟩
  rcases how with ⟨c, result, _, _, _, ran⟩ | ⟨e, action, _, ran⟩
  · exact (bootCall_did wiring.booked.fresh ran).posts r
  · have posts := (step_did wiring.booked.fresh ran).posts wiring.booked
    rwa [← action] at posts

/-- A task that has received, or waited to receive, and does not wait has got what the record enters for it. -/
theorem Wiring.returns (member : r ∈ h) {id : Nat} (receiving : Receiving r id) (resumed : id ∉ r.post.core.ipc.waiting) :
    Returns r id := by
  rcases receiving with ⟨regs, calls, number⟩ | parked
  · obtain ⟨h', wiring, _, how⟩ := wiring.record member
    rcases how with ⟨c, result, action, _⟩ | ⟨e, action, _, ran⟩
    · cases action.symm.trans calls.1
    · cases action.symm.trans calls.1
      have outcome := receive_returns wiring.booked wiring.mail calls.2 number ran resumed
      rwa [← action] at outcome
  · obtain ⟨booked, _, posts⟩ := wiring.posts member
    exact posts.returns booked parked resumed

end Histories

/-- Every message is delivered once. In every state of every run:
    each `SYS_SEND` has issued a message, which the same record delivers unless the sender waits, or failed at once; each
    issued message is delivered, refused or waiting, one of them and once; a delivered message was handed over by the
    record that entered the delivery, with its sender's id, its words and its capability, to a task that asked for it on
    the same endpoint, and its sender's result is 0; a refused one left its sender with the failure; each endpoint is
    served in the order of issue. Interrupts are likewise delivered at most once and in order.
    Conversely a receive that returns, in its own record or when it is woken, has its message or interrupt entered in that
    record, or its result says that there is none; and a waiting send that returns has been entered as delivered or as
    refused. No endpoint has a waiting receiver and something to receive, and the registers of a task that neither runs
    nor is woken are left alone. -/
theorem messages_delivered_once {p : Platform} (run : Run p) :
    let ipc := run.kernel.core.ipc
    (∀ r ∈ run.history, ∀ id regs, Calls r id regs → regs.eax = Syscall.sysSend →
      (∃ m, m.sender = id ∧ Issues r m ∧
        r.post.core.ipc.sendBooks.issued = r.pre.core.ipc.sendBooks.issued ++ [m] ∧
        (id ∉ r.post.core.ipc.waiting → ∃ receipt, r.post.core.ipc.sendBooks.delivered =
          r.pre.core.ipc.sendBooks.delivered ++ [(r.pre.core.ipc.sendBooks.next, receipt)] ∧ Delivers r m receipt)) ∨
      (r.post.core.ipc.sendBooks = r.pre.core.ipc.sendBooks ∧
        ∃ regs', r.post.sched.registers id = some regs' ∧ regs'.eax = 0xFFFFFFFF)) ∧
    (∀ serial, (ipc.sendBooks.delivered.map Prod.fst).count serial + ipc.sendBooks.refused.count serial +
      (ipc.pendingSends.map PendingSend.serial).count serial = if serial < ipc.sendBooks.issued.length then 1 else 0) ∧
    (∀ w ∈ ipc.pendingSends, ipc.sendBooks.issued[w.serial]? = some w.message) ∧
    KeptSends run.history ipc.sendBooks ∧
    (∀ endpoint, (ipc.sendBooks.deliveredFor Message.endpoint endpoint).Pairwise (· < ·)) ∧
    (∀ serial, (ipc.irqBooks.delivered.map Prod.fst).count serial + ipc.irqBooks.refused.count serial +
      (ipc.pendingIrqEvents.map PendingIrqEvent.serial).count serial = if serial < ipc.irqBooks.issued.length then 1 else 0) ∧
    KeptIrqs run.history ipc.irqBooks ∧
    (∀ endpoint, (ipc.irqBooks.deliveredFor Notification.endpoint endpoint).Pairwise (· < ·)) ∧
    (∀ r ∈ run.history, ∀ id, Receiving r id → id ∉ r.post.core.ipc.waiting → Returns r id) ∧
    (∀ r ∈ run.history, ∀ w ∈ r.pre.core.ipc.pendingSends, w.taskId ∉ r.post.core.ipc.waiting → Answered r w) ∧
    (∀ w ∈ ipc.pendingRecvs, (∀ s ∈ ipc.pendingSends, s.endpoint ≠ w.endpoint) ∧
      ∀ e ∈ ipc.pendingIrqEvents, e.endpoint ≠ w.endpoint) ∧
    ∀ r ∈ run.history, ∀ id, r.pre.sched.lookup id ≠ none → r.pre.sched.current ≠ some id →
      (id ∈ r.pre.core.ipc.waiting → id ∈ r.post.core.ipc.waiting) →
      r.post.sched.registers id = r.pre.sched.registers id := by
  intro ipc
  have mail : Mail ipc := run.wiring.mail
  obtain ⟨sends, irqs⟩ := run.wiring.kept
  refine ⟨?_, fun serial => ?_, fun w member => ?_, sends, mail.sends.inOrder, fun serial => ?_, irqs, mail.irqs.inOrder,
    fun r member id => run.wiring.returns member, fun r member w queued resumed => ?_, mail.apart, ?_⟩
  · intro r member id regs calls number
    obtain ⟨h', wiring, _, how⟩ := run.wiring.record member
    rcases how with ⟨c, result, action, _⟩ | ⟨e, action, _, ran⟩
    · cases action.symm.trans calls.1
    · cases action.symm.trans calls.1
      have outcome := send_issues wiring.booked ran calls.2 number
      rwa [← action] at outcome
  · have once := mail.sends.once serial
    simpa [Ipc.sendQueue, Function.comp_def] using once
  · exact mail.sends.recorded _ (List.mem_map_of_mem member)
  · have once := mail.irqs.once serial
    simpa [Ipc.irqQueue, Function.comp_def] using once
  · obtain ⟨booked, _, posts⟩ := run.wiring.posts member
    exact posts.answered booked queued resumed
  · intro r member id known idle parked
    obtain ⟨h', wiring, _, how⟩ := run.wiring.record member
    rcases how with ⟨c, result, _, _, _, ran⟩ | ⟨e, _, _, ran⟩
    · exact (bootCall_did wiring.booked.fresh ran).registers known
    · exact (step_did wiring.booked.fresh ran).registers wiring.booked idle parked known

end Pcern

import Pcern.Orphans

/-!
Forwarded interrupts. A line is masked when it is raised and unmasked by the next receive after the delivery;
until then there is one queued event for it, or its endpoint remembers the line. The books are kept per line as
an equation between what is owed and the mask bit, and every step keeps it.
-/
namespace Pcern

open Capabilities Keyed Loops Scheduler

/-! ## The mask registers -/

/-- The lines of the two controllers as one set of sixteen bits. -/
def Pic.masked (pic : Pic) (line : Nat) : Bool := Bits.test [pic.master, pic.slave] line

theorem Pic.mask_registers (pic : Pic) {irq : Nat} (inside : irq < 16) :
    [(pic.mask (UInt8.ofNat irq)).master, (pic.mask (UInt8.ofNat irq)).slave] =
      Bits.assign [pic.master, pic.slave] irq true := by
  interval_cases irq <;> rfl

theorem Pic.unmask_registers (pic : Pic) {irq : Nat} (inside : irq < 16) :
    [(pic.unmask (UInt8.ofNat irq)).master, (pic.unmask (UInt8.ofNat irq)).slave] =
      if 8 ≤ irq then Bits.assign (Bits.assign [pic.master, pic.slave] irq false) 2 false
      else Bits.assign [pic.master, pic.slave] irq false := by
  interval_cases irq <;> rfl

section Masks
variable {pic : Pic} {irq : UInt32} {line : Nat}

theorem Pic.masked_mask (inside : irq.toNat < 16) :
    (pic.mask irq.toUInt8).masked line = (decide (line = irq.toNat) || pic.masked line) := by
  rw [show irq.toUInt8 = UInt8.ofNat irq.toNat from rfl, Pic.masked, Pic.mask_registers _ inside, Bits.test_assign _ (by simp; omega)]
  by_cases same : line = irq.toNat
  · simp [same]
  · simp [same, Pic.masked]

theorem Pic.masked_unmask (inside : irq.toNat < 16) :
    (pic.unmask irq.toUInt8).masked line =
      (pic.masked line && !decide (line = irq.toNat ∨ 8 ≤ irq.toNat ∧ line = 2)) := by
  have stored : irq.toNat / 8 < [pic.master, pic.slave].length := by
    simp only [List.length_cons, List.length_nil]
    omega
  rw [show irq.toUInt8 = UInt8.ofNat irq.toNat from rfl, Pic.masked, Pic.unmask_registers _ inside]
  split
  · rename_i slave
    rw [Bits.test_assign _ (by simp), Bits.test_assign _ stored]
    by_cases cascade : line = 2
    · simp [cascade, slave]
    · by_cases same : line = irq.toNat
      · simp [same]
      · simp [same, cascade, Pic.masked]
  · rename_i master
    rw [Bits.test_assign _ stored]
    by_cases same : line = irq.toNat
    · simp [same]
    · simp [same, master, Pic.masked]

end Masks

/-! ## What is owed -/

/-- The line whose delivery the endpoint has not acknowledged. -/
def Core.ack (c : Core) (endpoint : Nat) : Option UInt32 := c.ipc.endpoints[endpoint]?.bind EndpointMeta.pendingIrqAck

def Core.queued (c : Core) (line : Nat) : List PendingIrqEvent :=
  c.ipc.pendingIrqEvents.filter fun event => decide (event.irq.toNat = line)

def Core.unacked (c : Core) (line endpoint : Nat) : Bool := (c.ack endpoint).any fun irq => decide (irq.toNat = line)

/-- The cascade line counts only while no line of the slave is registered: unmasking one of those opens it. -/
def Watched (c : Core) (line : Nat) : Prop := 2 ≤ line ∧ (line = 2 → ∀ other, 8 ≤ other → Ipc.handlerFor c other = none)

/-- A line is masked exactly while one delivery of it is queued or unacknowledged, on the endpoint it is registered
    for. No receiver waits where one is unacknowledged. -/
structure Balanced (c : Core) : Prop where
  lines : c.handlers.length = 16
  known : ∀ line endpoint, Ipc.handlerFor c line = some endpoint → endpoint < c.ipc.endpoints.length
  queued : ∀ event ∈ c.ipc.pendingIrqEvents, Ipc.handlerFor c event.irq.toNat = some event.endpoint
  acked : ∀ endpoint irq, c.ack endpoint = some irq → Ipc.handlerFor c irq.toNat = some endpoint
  idle : ∀ w ∈ c.ipc.pendingRecvs, c.ack w.endpoint = none
  balance : ∀ line endpoint, Watched c line → Ipc.handlerFor c line = some endpoint →
    (c.queued line).length + (c.unacked line endpoint).toNat = (c.pic.masked line).toNat

/-- What interrupts are about is the same, except that receivers may have ceased to wait. -/
structure Aside (c c' : Core) : Prop where
  acks : c'.ack = c.ack
  events : c'.ipc.pendingIrqEvents = c.ipc.pendingIrqEvents
  handlers : c'.handlers = c.handlers
  pic : c'.pic = c.pic
  recvs : c'.ipc.pendingRecvs ⊆ c.ipc.pendingRecvs
  more : c.ipc.endpoints.length ≤ c'.ipc.endpoints.length

section Balance
variable {c c' : Core} {endpoint line : Nat} {irq : UInt32}

private theorem handlerFor_inside (lines : c.handlers.length = 16) (registered : Ipc.handlerFor c line = some endpoint) : line < 16 := by
  rw [← lines]
  by_contra outside
  rw [Ipc.handlerFor, List.getElem?_eq_none (by omega)] at registered
  cases registered

private theorem handlerFor_set {handlers : List (Option Nat)} {i : Nat} (inside : i < handlers.length) :
    ((handlers.set i (some endpoint))[line]?).join = if line = i then some endpoint else (handlers[line]?).join := by
  by_cases same : line = i
  · simp [same, inside]
  · rw [List.getElem?_set_ne (Ne.symm same), if_neg same]

private theorem ack_setIrqAck {endpoints : List EndpointMeta} (irq : UInt32) (inside : endpoint < endpoints.length) (x : Nat) :
    (Ipc.setIrqAck endpoints endpoint irq)[x]?.bind EndpointMeta.pendingIrqAck =
      if x = endpoint then some irq else endpoints[x]?.bind EndpointMeta.pendingIrqAck := by
  by_cases same : x = endpoint
  · simp [Ipc.setIrqAck, same, inside]
  · simp [Ipc.setIrqAck, same, Ne.symm same]

private theorem ack_acknowledge (c : Core) (endpoint x : Nat) :
    (Ipc.acknowledge c endpoint).ack x = if x = endpoint then none else c.ack x := by
  unfold Ipc.acknowledge
  split
  · rename_i nothing
    split
    · rename_i same
      exact same ▸ nothing
    · rfl
  · by_cases same : x = endpoint
    · simp [Core.ack, same]
    · simp [Core.ack, same, Ne.symm same]

@[simp] theorem handlers_acknowledge (c : Core) (endpoint : Nat) : (Ipc.acknowledge c endpoint).handlers = c.handlers := by
  unfold Ipc.acknowledge; split <;> rfl

@[simp] theorem length_acknowledge (c : Core) (endpoint : Nat) :
    (Ipc.acknowledge c endpoint).ipc.endpoints.length = c.ipc.endpoints.length := by
  unfold Ipc.acknowledge; split <;> simp

private theorem pic_acknowledge (c : Core) (endpoint : Nat) :
    (Ipc.acknowledge c endpoint).pic = ((c.ack endpoint).map fun irq => c.pic.unmask irq.toUInt8).getD c.pic := by
  unfold Ipc.acknowledge Core.ack
  split
  · rename_i nothing
    rw [nothing]
    rfl
  · rename_i irq owed
    rw [owed]
    rfl

theorem Aside.balanced (aside : Aside c c') (balanced : Balanced c) : Balanced c' := by
  have handlerFor : Ipc.handlerFor c' = Ipc.handlerFor c := by
    funext x
    rw [Ipc.handlerFor, aside.handlers, Ipc.handlerFor]
  refine ⟨aside.handlers ▸ balanced.lines, fun line endpoint registered => ?_, ?_, ?_, ?_, ?_⟩
  · rw [handlerFor] at registered
    exact Nat.lt_of_lt_of_le (balanced.known line endpoint registered) aside.more
  · rw [aside.events, handlerFor]
    exact balanced.queued
  · rw [aside.acks, handlerFor]
    exact balanced.acked
  · intro w member
    rw [aside.acks]
    exact balanced.idle w (aside.recvs member)
  · intro line endpoint watched registered
    rw [Core.queued, aside.events, Core.unacked, aside.acks, aside.pic]
    rw [Watched, handlerFor] at watched
    rw [handlerFor] at registered
    exact balanced.balance line endpoint watched registered

theorem Balanced.free (balanced : Balanced c) (free : Ipc.handlerFor c line = none) (endpoint : Nat) :
    c.queued line = [] ∧ c.unacked line endpoint = false := by
  constructor
  · refine List.filter_eq_nil_iff.mpr fun event member same => ?_
    have registered := balanced.queued event member
    rw [of_decide_eq_true same, free] at registered
    cases registered
  · rw [Core.unacked, Option.any_eq_false]
    intro irq owed
    refine decide_eq_false fun same => ?_
    have registered := balanced.acked endpoint irq owed
    rw [same, free] at registered
    cases registered

theorem Balanced.register (balanced : Balanced c) (inside : irq.toNat < c.handlers.length)
    (free : Ipc.handlerFor c irq.toNat = none) (known : endpoint < c.ipc.endpoints.length) (ipc : c'.ipc = c.ipc)
    (handlers : c'.handlers = c.handlers.set irq.toNat (some endpoint)) (pic : c'.pic = c.pic.unmask irq.toUInt8) :
    Balanced c' := by
  have acks : c'.ack = c.ack := by
    funext e
    rw [Core.ack, ipc, Core.ack]
  have after : ∀ line, Ipc.handlerFor c' line = if line = irq.toNat then some endpoint else Ipc.handlerFor c line := by
    intro line
    rw [Ipc.handlerFor, handlers, handlerFor_set inside, Ipc.handlerFor]
  have stays : ∀ line e, Ipc.handlerFor c line = some e → line ≠ irq.toNat := by
    rintro line e registered rfl
    rw [free] at registered
    cases registered
  have small : irq.toNat < 16 := balanced.lines ▸ inside
  refine ⟨by simp [handlers, balanced.lines], fun line e registered => ?_, fun event member => ?_, fun e irq' owed => ?_,
    ?_, ?_⟩
  · rw [ipc]
    rw [after] at registered
    split at registered
    · cases registered
      exact known
    · exact balanced.known line e registered
  · have registered := balanced.queued event (ipc ▸ member)
    rw [after, if_neg (stays _ _ registered), registered]
  · have registered := balanced.acked e irq' (acks ▸ owed)
    rw [after, if_neg (stays _ _ registered), registered]
  · rw [ipc, acks]
    exact balanced.idle
  · intro line e watched registered
    rw [Core.queued, ipc, Core.unacked, acks, pic]
    change (c.queued line).length + (c.unacked line e).toNat = _
    rw [Pic.masked_unmask small]
    by_cases same : line = irq.toNat
    · have unregistered : Ipc.handlerFor c line = none := same ▸ free
      obtain ⟨none, nobody⟩ := balanced.free unregistered e
      rw [none, nobody]
      simp [same]
    · rw [after, if_neg same] at registered
      have cascade : ¬(8 ≤ irq.toNat ∧ line = 2) := by
        rintro ⟨slave, two⟩
        have unregistered := watched.2 two irq.toNat slave
        rw [after, if_pos rfl] at unregistered
        cases unregistered
      have watched' : Watched c line := by
        refine ⟨watched.1, fun two other slave => ?_⟩
        have unregistered := watched.2 two other slave
        rw [after] at unregistered
        split at unregistered
        · cases unregistered
        · exact unregistered
      rw [balanced.balance line e watched' registered]
      simp [same, cascade]

theorem Ipc.Exits.aside (exits : Ipc.Exits c c') (booked : c.Booked) (balanced : Balanced c)
    (alive : ∀ line e, Ipc.handlerFor c' line = some e → ¬Dead c' e) : Aside c c' := by
  obtain ⟨id, current, dies, _⟩ := exits.dead booked
  cases exits with
  | @exits id' dead s s1 s2 left owned _ _ =>
    cases current.symm.trans (leave_eq_ok left).1
    refine ⟨rfl, List.filter_eq_self.mpr fun event member => ?_, rfl, rfl, List.filter_subset_self _,
      Nat.le_refl _⟩
    have spared := alive _ _ (balanced.queued event member)
    rw [dies, not_or, ← mem_ownedBy, ← owned] at spared
    simp [spared.2]

private theorem unacked_remembers (clear : c.ack endpoint = none) (handler : Ipc.handlerFor c irq.toNat = some endpoint)
    (acks : ∀ x, c'.ack x = if x = endpoint then some irq else c.ack x) {e : Nat}
    (registered : Ipc.handlerFor c line = some e) :
    (c'.unacked line e).toNat = (c.unacked line e).toNat + (decide (irq.toNat = line)).toNat := by
  rw [Core.unacked, acks, Core.unacked]
  by_cases same : e = endpoint
  · rw [if_pos same, same, clear]
    simp
  · have other : irq.toNat ≠ line := by
      rintro rfl
      exact same (Option.some.inj (registered.symm.trans handler))
    rw [if_neg same, decide_eq_false other]
    rfl

theorem Ipc.Notifies.balanced {pic : Pic} {data : UInt32} (notifies : Ipc.Notifies { c with pic } endpoint irq data c')
    (balanced : Balanced c) (handler : Ipc.handlerFor c irq.toNat = some endpoint)
    (single : (c.ipc.pendingRecvs.map PendingRecv.endpoint).Nodup)
    (bits : ∀ line, 2 ≤ line → (pic.masked line).toNat = (c.pic.masked line).toNat + (decide (irq.toNat = line)).toNat) :
    Balanced c' := by
  cases notifies with
  | @handed matched pendingRecvs s found woke =>
    obtain ⟨front, back, whole, rfl, here, _⟩ := takeFirst_eq_some found
    have here : matched.endpoint = endpoint := of_decide_eq_true here
    have whole : c.ipc.pendingRecvs = front ++ matched :: back := whole
    have clear : c.ack endpoint = none := here ▸ balanced.idle matched (by simp [whole])
    have acks := ack_setIrqAck irq (balanced.known _ _ handler)
    refine ⟨balanced.lines, fun line e registered => ?_, balanced.queued, fun e irq' owed => ?_, fun w member => ?_, ?_⟩
    · simpa [Ipc.setIrqAck] using balanced.known line e registered
    · rw [Core.ack, acks] at owed
      split at owed
      · rename_i same
        cases owed
        exact same ▸ handler
      · exact balanced.acked e irq' owed
    · rw [Core.ack, acks, if_neg]
      · exact balanced.idle w (by rw [whole]; simp only [List.mem_append, List.mem_cons] at member ⊢; tauto)
      · rw [whole, List.map_append, List.map_cons, List.nodup_middle, List.nodup_cons, ← List.map_append] at single
        exact fun same => single.1 (List.mem_map.mpr ⟨w, member, same.trans here.symm⟩)
    · intro line e watched registered
      have before := balanced.balance line e watched registered
      rw [unacked_remembers clear handler ?_ registered, bits line watched.1, ← before, Nat.add_assoc]
      · rfl
      · exact acks
  | queued alone =>
    refine ⟨balanced.lines, balanced.known, ?_, balanced.acked, balanced.idle, fun line e watched registered => ?_⟩
    · exact List.forall_mem_append.mpr ⟨balanced.queued, List.forall_mem_singleton.mpr handler⟩
    · have before := balanced.balance line e watched registered
      rw [bits line watched.1, ← before, Core.queued, List.filter_append, List.length_append, Nat.add_right_comm]
      congr 1
      by_cases same : irq.toNat = line
      · simp [same]
      · simp [same]

theorem Balanced.acknowledge (balanced : Balanced c) (endpoint : Nat) : Balanced (Ipc.acknowledge c endpoint) := by
  cases owed : c.ack endpoint with
  | none =>
    have same : Ipc.acknowledge c endpoint = c := by
      unfold Ipc.acknowledge
      rw [show c.ipc.endpoints[endpoint]?.bind EndpointMeta.pendingIrqAck = none from owed]
    exact same.symm ▸ balanced
  | some irq =>
    have handlers : Ipc.handlerFor (Ipc.acknowledge c endpoint) = Ipc.handlerFor c := by
      funext x
      rw [Ipc.handlerFor, handlers_acknowledge, Ipc.handlerFor]
    have handler := balanced.acked endpoint irq owed
    have small := handlerFor_inside balanced.lines handler
    refine ⟨by simp [balanced.lines], fun line e registered => ?_, fun event member => ?_, fun e irq' owed' => ?_,
      fun w member => ?_, fun line e watched registered => ?_⟩
    · rw [handlers] at registered
      rw [length_acknowledge]
      exact balanced.known line e registered
    · rw [handlers]
      exact balanced.queued event (by simpa using member)
    · rw [ack_acknowledge] at owed'
      split at owed'
      · cases owed'
      · rw [handlers]
        exact balanced.acked e irq' owed'
    · rw [ack_acknowledge]
      split
      · rfl
      · exact balanced.idle w (by simpa using member)
    · rw [handlers] at registered
      rw [Watched, handlers] at watched
      have before := balanced.balance line e watched registered
      have cascade : ¬(8 ≤ irq.toNat ∧ line = 2) := by
        rintro ⟨slave, two⟩
        rw [watched.2 two irq.toNat slave] at handler
        cases handler
      have queue : (Ipc.acknowledge c endpoint).queued line = c.queued line := by
        rw [Core.queued, Ipc.acknowledge_pendingIrqEvents, Core.queued]
      rw [queue, Core.unacked, ack_acknowledge, pic_acknowledge, owed, Option.map_some, Option.getD_some,
        Pic.masked_unmask small]
      by_cases same : line = irq.toNat
      · -- the line that is unmasked was the one remembered, so nothing of it is queued
        cases Option.some.inj ((same ▸ registered).symm.trans handler)
        have remembered : c.unacked line endpoint = true := by
          simp [Core.unacked, owed, same]
        have bound := Bool.toNat_le (c.pic.masked line)
        rw [remembered, Bool.toNat_true] at before
        have none : (c.queued line).length = 0 := by omega
        rw [none, if_pos rfl]
        simp [same]
      · have kept : ((if e = endpoint then none else c.ack e).any fun irq => decide (irq.toNat = line)) = c.unacked line e := by
          split
          · rename_i here
            simp [Core.unacked, here, owed, Ne.symm same]
          · rfl
        rw [kept, before]
        simp [same, cascade]

theorem Ipc.Takes.balanced {self : Nat} {delivered : Bool} (takes : Ipc.Takes c endpoint self delivered c')
    (balanced : Balanced c) (mail : Mail c.ipc) (clear : c.ack endpoint = none) : Balanced c' := by
  cases takes with
  | message _ _ _ => exact Aside.balanced (c := c) ⟨rfl, rfl, rfl, rfl, List.Subset.refl _, Nat.le_refl _⟩ balanced
  | nothing _ _ => exact balanced
  | @interrupt event pendingIrqEvents _ found =>
    obtain ⟨member, here, subset⟩ := takeFirst_mem found
    have here : event.endpoint = endpoint := of_decide_eq_true here
    have handler : Ipc.handlerFor c event.irq.toNat = some endpoint := here ▸ balanced.queued event member
    have acks := ack_setIrqAck event.irq (balanced.known _ _ handler)
    refine ⟨balanced.lines, fun line e registered => ?_, fun e inside => balanced.queued e (subset inside),
      fun e irq' owed => ?_, fun w waits => ?_, fun line e watched registered => ?_⟩
    · simpa [Ipc.setIrqAck] using balanced.known line e registered
    · rw [Core.ack, acks] at owed
      split at owed
      · rename_i same
        cases owed
        exact same ▸ handler
      · exact balanced.acked e irq' owed
    · rw [Core.ack, acks, if_neg]
      · exact balanced.idle w waits
      · exact fun same => (mail.apart w waits).2 event member (here.trans same.symm)
    · have before := balanced.balance line e watched registered
      have fewer : (c.queued line).length =
          (pendingIrqEvents.filter fun event => decide (event.irq.toNat = line)).length +
            (decide (event.irq.toNat = line)).toNat := by
        rw [Core.queued, ((takeFirst_perm found).filter _).length_eq, List.filter_cons]
        by_cases same : event.irq.toNat = line
        · simp [same]
        · simp [same]
      rw [unacked_remembers clear handler ?_ registered, Core.queued]
      · dsimp only
        omega
      · exact acks

theorem Ipc.Receives.balanced {self : Nat} {blocking : Bool} (receives : Ipc.Receives c self endpoint blocking c')
    (balanced : Balanced c) (mail : Mail c.ipc) : Balanced c' := by
  have after := balanced.acknowledge endpoint
  have clear : (Ipc.acknowledge c endpoint).ack endpoint = none := by
    rw [ack_acknowledge, if_pos rfl]
  cases receives with
  | takes took => exact took.balanced after (acknowledge_mail mail endpoint) clear
  | waits nothing _ =>
    cases nothing
    exact ⟨after.lines, after.known, after.queued, after.acked,
      List.forall_mem_append.mpr ⟨after.idle, List.forall_mem_singleton.mpr clear⟩, after.balance⟩
  | fails nothing =>
    cases nothing
    exact ⟨after.lines, after.known, after.queued, after.acked, after.idle, after.balance⟩

end Balance

/-! ## What a record does -/

/-- A record in which a task asks for a line to be forwarded, with a slot that resolves to the control of the line. -/
inductive Registers (r : Record) (irq : UInt32) (endpoint : Nat) : Prop where
  | calls {id node : Nat} {regs : SavedRegs} {badge : UInt32} (calls : Calls r id regs)
      (number : regs.eax = Syscall.sysRegisterIrq) (holds : Holds r.pre id regs.ebx node)
      (live : resolve r.pre.caps node = some (.irqControl irq endpoint, badge))

/-- A record of an interrupt on this line, and the mask registers it leaves. -/
def Raises (r : Record) (irq : UInt32) (pic : Pic) : Prop :=
  (∃ scancode, r.action = .event (.keyboard scancode) ∧ irq = 1 ∧ pic = r.pre.core.pic) ∨
    ∃ line, r.action = .event (.irq line) ∧ irq = UInt32.ofNat (line.val + 2) ∧ pic = r.pre.core.pic.mask irq.toUInt8

/-- What a record other than a receive does to what interrupts are about. -/
inductive Turns (r : Record) : Prop where
  | aside (same : Aside r.pre.core r.post.core)
  | exits {c : Core} (same : Aside r.pre.core c) (booked : c.Booked) (exits : Ipc.Exits c r.post.core)
  | registers {irq : UInt32} {endpoint : Nat} (registers : Registers r irq endpoint)
      (inside : irq.toNat < r.pre.core.handlers.length) (ipc : r.post.core.ipc = r.pre.core.ipc)
      (handlers : r.post.core.handlers = r.pre.core.handlers.set irq.toNat (some endpoint))
      (pic : r.post.core.pic = r.pre.core.pic.unmask irq.toUInt8)
  | notifies {irq data : UInt32} {endpoint : Nat} {pic : Pic} (raises : Raises r irq pic)
      (handler : Ipc.handlerFor r.pre.core irq.toNat = some endpoint)
      (notifies : Ipc.Notifies { r.pre.core with pic } endpoint irq data r.post.core)

/-- A receive: the task has entered the kernel, then `recv` or `try_recv` ran. -/
structure Fetches (r : Record) (id endpoint : Nat) (c : Core) : Prop where
  listens : Listens r id endpoint
  same : Aside r.pre.core c
  ipc : c.ipc = r.pre.core.ipc
  booked : c.Booked
  current : c.sched.current = some id
  receives : ∃ blocking, Ipc.Receives c id endpoint blocking r.post.core

section Records
variable {k k' : Kernel} {e : Event}

private theorem aside_refl (c : Core) : Aside c c := ⟨rfl, rfl, rfl, rfl, List.Subset.refl _, Nat.le_refl _⟩

theorem Aside.trans {c c' c'' : Core} (first : Aside c c') (second : Aside c' c'') : Aside c c'' :=
  ⟨second.acks.trans first.acks, second.events.trans first.events, second.handlers.trans first.handlers,
    second.pic.trans first.pic, List.Subset.trans second.recvs first.recvs, first.more.trans second.more⟩

private theorem aside_arrive (k : Kernel) (id : Nat) (regs : SavedRegs) : Aside k.core (arrive k id regs).core :=
  ⟨rfl, rfl, rfl, rfl, List.Subset.refl _, Nat.le_refl _⟩

theorem Loader.Spawning.aside {ports : List UInt16} {spawned : Option Nat} (ran : Loader.Spawning k ports spawned k') :
    Aside k.core k'.core := by
  cases ran with
  | refused => exact aside_refl _
  | gaveUp _ _ => exact aside_refl _
  | loaded _ _ admitted _ _ _ _ =>
    have acks : k'.core.ack = k.core.ack := by
      funext x
      rw [Core.ack, admitted.ipc, Core.ack]
    refine ⟨acks, ?_, admitted.handlers, admitted.pic, ?_, ?_⟩ <;> rw [admitted.ipc]
    exact List.Subset.refl _

private theorem aside_createEndpoint {c : Core} {owner : Nat} (ipc : c.ipc = (k.core.ipc.createEndpoint owner).2)
    (handlers : c.handlers = k.core.handlers) (pic : c.pic = k.core.pic) : Aside k.core c := by
  refine ⟨?_, ?_, handlers, pic, ?_, ?_⟩
  · funext x
    rw [Core.ack, ipc, Core.ack, Ipc.createEndpoint]
    rcases Nat.lt_trichotomy x k.core.ipc.endpoints.length with before | rfl | beyond
    · rw [List.getElem?_append_left before]
    · simp
    · rw [List.getElem?_eq_none (by simp; omega), List.getElem?_eq_none (by omega)]
  · rw [ipc]
    rfl
  · rw [ipc]
    exact List.Subset.refl _
  · rw [ipc]
    simp [Ipc.createEndpoint]

theorem Ipc.Sends.aside {c c' : Core} {self endpoint : Nat} {msg : UInt32 × UInt32 × UInt32} {transfer : Option Nat}
    (sends : Ipc.Sends c self endpoint msg transfer c') : Aside c c' := by
  cases sends with
  | handed found _ _ => exact ⟨rfl, rfl, rfl, rfl, (takeFirst_mem found).2.2, Nat.le_refl _⟩
  | waits _ _ => exact ⟨rfl, rfl, rfl, rfl, List.Subset.refl _, Nat.le_refl _⟩

theorem BootDid.aside {c : BootCall} (did : BootDid k c k') : Aside k.core k'.core := by
  cases did with
  | spawn ran => exact ran.aside
  | createEndpoint => exact aside_createEndpoint rfl rfl rfl
  | _ => exact ⟨rfl, rfl, rfl, rfl, List.Subset.refl _, Nat.le_refl _⟩

theorem Did.turns (did : Did k e k') (booked : k.Booked)
    (silent : ∀ id endpoint, ¬Listens { pre := k, action := .event e, post := k' } id endpoint) :
    Turns { pre := k, action := .event e, post := k' } := by
  cases did with
  | send _ _ _ _ _ sends => exact .aside ((aside_arrive k _ _).trans sends.aside)
  | recv current number _ holds live _ => exact absurd (.receives ⟨rfl, current⟩ number holds live) (silent _ _)
  | exit _ exits => exact .exits (aside_arrive k _ _) (arrive_booked booked _ _).1 exits
  | fault _ exits => exact .exits (aside_refl _) booked.core exits
  | register current number holds live inside =>
    exact .registers (.calls ⟨rfl, current⟩ number holds live) inside rfl rfl rfl
  | notify interrupt handler notifies =>
    refine .notifies ?_ handler notifies
    rcases interrupt with ⟨scancode, rfl, irq, pic⟩ | ⟨line, rfl, irq, pic⟩
    · exact .inl ⟨scancode, rfl, irq, pic⟩
    · exact .inr ⟨line, rfl, irq, pic⟩
  | spawn _ _ ran =>
    refine .aside ((aside_arrive k _ _).trans (ran.aside.trans ?_))
    exact ⟨rfl, rfl, rfl, rfl, List.Subset.refl _, Nat.le_refl _⟩
  | endpointCreate _ _ _ => exact .aside (aside_createEndpoint rfl rfl rfl)
  | _ => exact .aside ⟨rfl, rfl, rfl, rfl, List.Subset.refl _, Nat.le_refl _⟩

theorem Listens.fetches {id endpoint : Nat} (listens : Listens { pre := k, action := .event e, post := k' } id endpoint)
    (ran : step k e = .ok k') (booked : k.Booked) :
    ∃ c, Fetches { pre := k, action := .event e, post := k' } id endpoint c := by
  have asked := listens
  obtain @⟨regs, node, badge, ⟨action, current⟩, number, ⟨task, found, slot⟩, live⟩ := asked
  cases action
  have cap : Syscall.resolveCurrentCap (arrive k id regs) regs.ebx = .ok (some (.endpoint endpoint, badge)) := by
    rw [resolveCurrentCap_arrive_eq current found, slot, Option.bind_some, live]
  obtain ⟨cap', resolved, ⟨endpoint', badge', blocking, rfl, receives⟩ | ⟨other, _⟩⟩ := receives_of_step current number ran
  · cases cap.symm.trans resolved
    exact ⟨_, listens, aside_arrive k id _, rfl, (arrive_booked booked id _).1, (current_arrive k id _).trans current,
      blocking, receives⟩
  · exact absurd (Except.ok.inj (resolved.symm.trans cap)) (other endpoint badge)

theorem Listens.unique {r : Record} {id id' endpoint endpoint' : Nat} (first : Listens r id endpoint)
    (second : Listens r id' endpoint') : id = id' ∧ endpoint = endpoint' := by
  obtain ⟨⟨action, current⟩, _, ⟨task, found, slot⟩, live⟩ := first
  obtain ⟨⟨action', current'⟩, _, ⟨task', found', slot'⟩, live'⟩ := second
  cases action.symm.trans action'
  cases current.symm.trans current'
  cases found.symm.trans found'
  cases slot.symm.trans slot'
  cases live.symm.trans live'
  exact ⟨rfl, rfl⟩

end Records

/-! ## Disciplined runs -/

/-- The owner of the endpoint is there and has not exited. -/
def Alive (c : Core) (endpoint : Nat) : Prop :=
  ∃ id state, c.ipc.owner endpoint = some id ∧ c.sched.status id = some state ∧ state ≠ .zombie

/-- What is expected of a record: endpoints with a registered line keep their owner, no line is registered twice, and
    the controller does not raise a line that is masked. -/
structure Orderly (r : Record) : Prop where
  owned : ∀ line endpoint, Ipc.handlerFor r.post.core line = some endpoint → Alive r.post.core endpoint
  once : ∀ irq endpoint, Registers r irq endpoint → Ipc.handlerFor r.pre.core irq.toNat = none
  raised : ∀ line : Fin 14, r.action = .event (.irq line) → r.pre.core.pic.masked (line.val + 2) = false

/-- A history of such records in which each endpoint has one receiving task. -/
structure Disciplined (h : List Record) : Prop where
  orderly : ∀ r ∈ h, Orderly r
  receiver : ∀ r ∈ h, ∀ r' ∈ h, ∀ id id' endpoint, Listens r id endpoint → Listens r' id' endpoint → id = id'

section Steps
variable {r : Record} {c : Core} {endpoint line : Nat} {irq : UInt32}

theorem Alive.not_dead (alive : Alive c endpoint) : ¬Dead c endpoint := by
  rintro ⟨id, owner, exited⟩
  obtain ⟨id', state, owner', status, other⟩ := alive
  cases owner.symm.trans owner'
  exact other (Option.some.inj (status.symm.trans exited))

theorem Alive.inside (alive : Alive c endpoint) : endpoint < c.ipc.endpoints.length := by
  obtain ⟨id, _, owner, _⟩ := alive
  obtain ⟨meta', found, _⟩ := Option.map_eq_some_iff.mp owner
  exact (List.getElem?_eq_some_iff.mp found).1

theorem Ipc.Receives.pic {c c' : Core} {self : Nat} {blocking : Bool} (receives : Ipc.Receives c self endpoint blocking c') :
    c'.pic = (Ipc.acknowledge c endpoint).pic := by
  cases receives with
  | takes took => cases took <;> rfl
  | waits nothing _ => cases nothing; rfl
  | fails nothing => cases nothing; rfl

theorem Ipc.Receives.handlers {c c' : Core} {self : Nat} {blocking : Bool}
    (receives : Ipc.Receives c self endpoint blocking c') : c'.handlers = c.handlers := by
  rw [← handlers_acknowledge c endpoint]
  cases receives with
  | takes took => cases took <;> rfl
  | waits nothing _ => cases nothing; rfl
  | fails nothing => cases nothing; rfl

theorem Ipc.Exits.acks {c c' : Core} (exits : Ipc.Exits c c') : c'.ack = c.ack := by
  cases exits
  rfl

theorem Ipc.Exits.pic {c c' : Core} (exits : Ipc.Exits c c') : c'.pic = c.pic := by
  cases exits
  rfl

theorem Ipc.Notifies.pic {c c' : Core} {data : UInt32} (notifies : Ipc.Notifies c endpoint irq data c') : c'.pic = c.pic := by
  cases notifies <;> rfl

theorem Raises.bits {pic : Pic} (raises : Raises r irq pic) (orderly : Orderly r) (high : 2 ≤ line) :
    (pic.masked line).toNat = (r.pre.core.pic.masked line).toNat + (decide (irq.toNat = line)).toNat := by
  rcases raises with ⟨_, _, rfl, rfl⟩ | ⟨raised, action, rfl, rfl⟩
  · have other : ¬(1 : UInt32).toNat = line := fun same => by
      rw [← same] at high
      exact absurd high (by decide)
    rw [decide_eq_false other, Bool.toNat_false, Nat.add_zero]
  · have small : (UInt32.ofNat (raised.val + 2)).toNat < 16 := by
      rw [toNat_line]
      omega
    rw [Pic.masked_mask small, toNat_line]
    by_cases same : raised.val + 2 = line
    · rw [← same, orderly.raised raised action]
      simp
    · simp [same, Ne.symm same]

theorem Turns.balanced (turns : Turns r) (balanced : Balanced r.pre.core) (orderly : Orderly r)
    (single : (r.pre.core.ipc.pendingRecvs.map PendingRecv.endpoint).Nodup) : Balanced r.post.core := by
  cases turns with
  | aside same => exact same.balanced balanced
  | exits same booked exits =>
    have before := same.balanced balanced
    exact (exits.aside booked before fun line e registered => (orderly.owned line e registered).not_dead).balanced before
  | @registers irq endpoint registers inside ipc handlers pic =>
    refine balanced.register inside (orderly.once irq endpoint registers) ?_ ipc handlers pic
    have alive := orderly.owned irq.toNat endpoint (by rw [Ipc.handlerFor, handlers, handlerFor_set inside, if_pos rfl])
    rw [← ipc]
    exact alive.inside
  | notifies raises handler notifies =>
    exact notifies.balanced balanced handler single fun line high => raises.bits orderly high

theorem Fetches.balanced {id : Nat} (fetches : Fetches r id endpoint c) (balanced : Balanced r.pre.core)
    (mail : Mail r.pre.core.ipc) : Balanced r.post.core := by
  obtain ⟨blocking, receives⟩ := fetches.receives
  exact receives.balanced (fetches.same.balanced balanced) (fetches.ipc ▸ mail)

theorem Turns.keeps_masked (turns : Turns r) (balanced : Balanced r.pre.core) (orderly : Orderly r)
    (registered : Ipc.handlerFor r.pre.core line = some endpoint) (watched : Watched r.post.core line)
    (masked : r.pre.core.pic.masked line = true) : r.post.core.pic.masked line = true := by
  cases turns with
  | aside same => rw [same.pic, masked]
  | exits same _ exits => rw [exits.pic, same.pic, masked]
  | @registers irq endpoint' registers inside _ handlers pic =>
    have free := orderly.once irq endpoint' registers
    have other : line ≠ irq.toNat := by
      rintro rfl
      rw [free] at registered
      cases registered
    have cascade : ¬(8 ≤ irq.toNat ∧ line = 2) := by
      rintro ⟨slave, two⟩
      have unregistered := watched.2 two irq.toNat slave
      rw [Ipc.handlerFor, handlers, handlerFor_set inside, if_pos rfl] at unregistered
      cases unregistered
    rw [pic, Pic.masked_unmask (balanced.lines ▸ inside), masked]
    simp [other, cascade]
  | @notifies irq data endpoint' pic raises handler notifies =>
    have bits := raises.bits orderly watched.1
    rw [masked, Bool.toNat_true] at bits
    rw [notifies.pic]
    by_contra clear
    rw [Bool.not_eq_true] at clear
    rw [clear, Bool.toNat_false] at bits
    omega

end Steps

/-! ## What an endpoint remembers was delivered -/

section Acks
variable {c c' : Core} {self endpoint x : Nat} {irq irq' : UInt32}

private theorem ack_setIrqAck_some {endpoints : List EndpointMeta}
    (owed : (Ipc.setIrqAck endpoints endpoint irq)[x]?.bind EndpointMeta.pendingIrqAck = some irq') :
    x = endpoint ∧ irq' = irq ∨ endpoints[x]?.bind EndpointMeta.pendingIrqAck = some irq' := by
  by_cases same : x = endpoint
  · refine .inl ⟨same, ?_⟩
    rw [same, Ipc.setIrqAck, List.getElem?_modify_eq] at owed
    obtain ⟨changed, found, remembered⟩ := Option.bind_eq_some_iff.mp owed
    obtain ⟨_, _, rfl⟩ := Option.map_eq_some_iff.mp found
    exact (Option.some.inj remembered).symm
  · simp only [Ipc.setIrqAck, ne_eq, Ne.symm same, not_false_eq_true, List.getElem?_modify_ne] at owed
    exact .inr owed

theorem Ipc.Notifies.acks {data : UInt32} (notifies : Ipc.Notifies c endpoint irq data c') (booked : c.Booked)
    (owed : c'.ack x = some irq') :
    c.ack x = some irq' ∨ x = endpoint ∧ irq' = irq ∧
      ∃ receiver, { taskId := receiver, endpoint } ∈ c.ipc.pendingRecvs ∧ Interrupts c' { endpoint, irq, data } receiver := by
  cases notifies with
  | queued _ => exact .inl owed
  | @handed matched pendingRecvs s found woke =>
    refine (ack_setIrqAck_some owed).symm.imp_right fun ⟨here, same⟩ => ⟨here, same, ?_⟩
    obtain ⟨member, at', _⟩ := takeFirst_mem found
    have blocked := (booked.agree.blocked matched.taskId).mp (List.mem_append_left _ (List.mem_map_of_mem member))
    obtain ⟨regs, before⟩ := registers_of_status blocked
    refine ⟨matched.taskId, of_decide_eq_true at' ▸ member, Ipc.interruptRegs irq data regs, ?_, rfl, rfl, rfl, rfl⟩
    simp [(wake_restated woke).registers, before]

theorem Ipc.Takes.acks {delivered : Bool} (takes : Ipc.Takes c endpoint self delivered c') (booked : c.Booked)
    (current : c.sched.current = some self) (owed : c'.ack x = some irq) :
    c.ack x = some irq ∨ x = endpoint ∧ ∃ data, Interrupts c' { endpoint, irq, data } self := by
  cases takes with
  | message _ _ _ => exact .inl owed
  | nothing _ _ => exact .inl owed
  | @interrupt event pendingIrqEvents _ found =>
    refine (ack_setIrqAck_some owed).symm.imp_right fun ⟨here, same⟩ => ⟨here, event.data, ?_⟩
    obtain ⟨regs, before⟩ := registers_of_status ((booked.agree.running self).mpr current)
    refine ⟨Ipc.interruptRegs event.irq event.data regs, ?_, rfl, same.symm, rfl, rfl⟩
    simp [before]

theorem Ipc.Receives.acks {blocking : Bool} (receives : Ipc.Receives c self endpoint blocking c') (booked : c.Booked)
    (current : c.sched.current = some self) (owed : c'.ack x = some irq) :
    x ≠ endpoint ∧ c.ack x = some irq ∨ x = endpoint ∧ ∃ data, Interrupts c' { endpoint, irq, data } self := by
  have older : (Ipc.acknowledge c endpoint).ack x = some irq → x ≠ endpoint ∧ c.ack x = some irq := by
    rw [ack_acknowledge]
    split
    · exact nofun
    · exact fun owed => ⟨‹_›, owed⟩
  cases receives with
  | takes took =>
    exact (took.acks (Ipc.acknowledge_booked booked endpoint) (by simpa using current) owed).imp_left older
  | waits nothing _ =>
    cases nothing
    exact .inl (older owed)
  | fails nothing =>
    cases nothing
    exact .inl (older owed)

end Acks

/-- Since a record in which an interrupt on this line was handed to the task, the endpoint has remembered the line and
    nobody has received from it. -/
def Delivered (h : List Record) (endpoint : Nat) (irq : UInt32) (id : Nat) : Prop :=
  ∃ before d since data, h = before ++ d :: since ∧ Signals d { endpoint, irq, data } id ∧
    d.post.core.ack endpoint = some irq ∧
    ∀ r ∈ since, r.post.core.ack endpoint = some irq ∧ ∀ id', ¬Listens r id' endpoint

section Histories
variable {p : Platform} {h : List Record} {k : Kernel} {r : Record} {endpoint line : Nat} {irq : UInt32}

theorem Delivered.later {id : Nat} (delivered : Delivered h endpoint irq id) (owed : r.post.core.ack endpoint = some irq)
    (silent : ∀ id', ¬Listens r id' endpoint) : Delivered (h ++ [r]) endpoint irq id := by
  obtain ⟨before, d, since, data, rfl, signals, first, rest⟩ := delivered
  refine ⟨before, d, since ++ [r], data, by simp, signals, first, ?_⟩
  exact List.forall_mem_append.mpr ⟨rest, List.forall_mem_singleton.mpr ⟨owed, silent⟩⟩

theorem Delivered.now {id : Nat} {data : UInt32} (signals : Signals r { endpoint, irq, data } id)
    (owed : r.post.core.ack endpoint = some irq) : Delivered (h ++ [r]) endpoint irq id :=
  ⟨h, r, [], data, rfl, signals, owed, fun _ member => by cases member⟩

private theorem turns_or_fetches {e : Event} {k' : Kernel} (booked : k.Booked) (ran : step k e = .ok k') :
    (∃ id endpoint c, Fetches { pre := k, action := .event e, post := k' } id endpoint c) ∨
      Turns { pre := k, action := .event e, post := k' } ∧
        ∀ id endpoint, ¬Listens { pre := k, action := .event e, post := k' } id endpoint := by
  by_cases listens : ∃ id endpoint, Listens { pre := k, action := .event e, post := k' } id endpoint
  · obtain ⟨id, endpoint, listens⟩ := listens
    obtain ⟨c, fetches⟩ := listens.fetches ran booked
    exact .inl ⟨id, endpoint, c, fetches⟩
  · have silent : ∀ id endpoint, ¬Listens { pre := k, action := .event e, post := k' } id endpoint :=
      fun id endpoint asked => listens ⟨id, endpoint, asked⟩
    exact .inr ⟨(step_did booked.fresh ran).turns booked silent, silent⟩

theorem Turns.delivered (turns : Turns r) (booked : r.pre.Booked) (silent : ∀ id endpoint, ¬Listens r id endpoint)
    (before : ∀ endpoint irq, r.pre.core.ack endpoint = some irq → ∃ id, Delivered h endpoint irq id) (endpoint : Nat)
    (irq : UInt32) (owed : r.post.core.ack endpoint = some irq) : ∃ id, Delivered (h ++ [r]) endpoint irq id := by
  have kept : r.pre.core.ack endpoint = some irq → ∃ id, Delivered (h ++ [r]) endpoint irq id := by
    intro old
    obtain ⟨id, delivered⟩ := before endpoint irq old
    exact ⟨id, delivered.later owed fun id' => silent id' endpoint⟩
  cases turns with
  | aside same => exact kept (same.acks ▸ owed)
  | exits same _ exits => exact kept (same.acks ▸ exits.acks ▸ owed)
  | registers _ _ ipc _ _ =>
    rw [Core.ack, ipc] at owed
    exact kept owed
  | notifies raises handler notifies =>
    rcases notifies.acks booked.core owed with old | ⟨rfl, rfl, receiver, asked, interrupts⟩
    · exact kept old
    · exact ⟨receiver, .now ⟨.inr asked, interrupts⟩ owed⟩

theorem Fetches.delivered {id from' : Nat} {c : Core} (fetches : Fetches r id from' c)
    (before : ∀ endpoint irq, r.pre.core.ack endpoint = some irq → ∃ id, Delivered h endpoint irq id) (endpoint : Nat)
    (irq : UInt32) (owed : r.post.core.ack endpoint = some irq) : ∃ id, Delivered (h ++ [r]) endpoint irq id := by
  obtain ⟨blocking, receives⟩ := fetches.receives
  rcases receives.acks fetches.booked fetches.current owed with ⟨other, old⟩ | ⟨rfl, data, interrupts⟩
  · obtain ⟨id', delivered⟩ := before endpoint irq (fetches.same.acks ▸ old)
    exact ⟨id', delivered.later owed fun _ asked => other (asked.unique fetches.listens).2⟩
  · exact ⟨id, .now ⟨.inl fetches.listens, interrupts⟩ owed⟩

theorem Wiring.delivered (wiring : Wiring p h k) :
    ∀ endpoint irq, k.core.ack endpoint = some irq → ∃ id, Delivered h endpoint irq id := by
  induction wiring with
  | bringUp up =>
    obtain ⟨total, mm, mm', -, -, -, -, rfl⟩ := bringUp_eq_ok up
    intro endpoint irq owed
    cases owed
  | boot before early allowed ran ih =>
    intro endpoint irq owed
    have same := (bootCall_did before.booked.fresh ran).aside
    obtain ⟨id, delivered⟩ := ih endpoint irq (same.acks ▸ owed)
    exact ⟨id, delivered.later owed fun id' asked => by cases asked with | receives calls _ _ _ => cases calls.1⟩
  | event before may ran ih =>
    rcases turns_or_fetches before.booked ran with ⟨id, endpoint, c, fetches⟩ | ⟨turns, silent⟩
    · exact fetches.delivered ih
    · exact turns.delivered before.booked silent ih

theorem Wiring.single (wiring : Wiring p h k) (disciplined : Disciplined h) :
    (k.core.ipc.pendingRecvs.map PendingRecv.endpoint).Nodup := by
  have once : (k.core.ipc.pendingRecvs.map PendingRecv.taskId).Nodup :=
    (List.nodup_append.mp wiring.booked.core.agree.parkedOnce).1
  have listening := wiring.provenance.parked.listening
  refine List.Nodup.map_on (fun w member w' member' same => ?_) (List.Nodup.of_map _ once)
  obtain ⟨r, inside, listens⟩ := listening w member
  obtain ⟨r', inside', listens'⟩ := listening w' member'
  have sameTask := disciplined.receiver r inside r' inside' _ _ _ listens (same ▸ listens')
  cases w
  cases w'
  cases same
  cases sameTask
  rfl

theorem Disciplined.before {before after : List Record} (disciplined : Disciplined (before ++ after)) : Disciplined before where
  orderly r' member := disciplined.orderly r' (List.mem_append_left _ member)
  receiver r' member r'' member' := disciplined.receiver r' (List.mem_append_left _ member) r'' (List.mem_append_left _ member')

theorem Wiring.balanced (wiring : Wiring p h k) (disciplined : Disciplined h) : Balanced k.core := by
  induction wiring with
  | bringUp up =>
    obtain ⟨total, mm, mm', -, -, -, -, rfl⟩ := bringUp_eq_ok up
    have free : ∀ line, Ipc.handlerFor (withoutTasks mm' p.info).core line = none := by
      intro line
      change ((List.replicate 16 none)[line]?).join = none
      rw [List.getElem?_replicate]
      split <;> rfl
    refine ⟨by simp [withoutTasks], fun line endpoint registered => ?_, nofun, nofun, nofun,
      fun line endpoint _ registered => ?_⟩
    · rw [free] at registered
      cases registered
    · rw [free] at registered
      cases registered
  | boot before early allowed ran ih =>
    exact (bootCall_did before.booked.fresh ran).aside.balanced (ih disciplined.before)
  | event before may ran ih =>
    have balanced := ih disciplined.before
    rcases turns_or_fetches before.booked ran with ⟨id, endpoint, c, fetches⟩ | ⟨turns, _⟩
    · exact fetches.balanced balanced before.mail
    · exact turns.balanced balanced (disciplined.orderly _ (last_mem _ _)) (before.single disciplined.before)

theorem Wiring.split (wiring : Wiring p h k) {before after : List Record} (whole : h = before ++ r :: after) :
    Wiring p before r.pre ∧ ((∃ c, r.action = .boot c ∧ BootDid r.pre c r.post) ∨
      ∃ e, r.action = .event e ∧ step r.pre e = .ok r.post) := by
  induction wiring generalizing after with
  | bringUp _ => simp at whole
  | boot earlier early allowed ran ih =>
    rcases List.eq_nil_or_concat after with rfl | ⟨after', last, rfl⟩
    · obtain ⟨rfl, same⟩ := List.append_inj' whole rfl
      cases same
      exact ⟨earlier, .inl ⟨_, rfl, bootCall_did earlier.booked.fresh ran⟩⟩
    · rw [List.concat_eq_append, ← List.cons_append, ← List.append_assoc] at whole
      exact ih (List.append_inj' whole rfl).1
  | event earlier may ran ih =>
    rcases List.eq_nil_or_concat after with rfl | ⟨after', last, rfl⟩
    · obtain ⟨rfl, same⟩ := List.append_inj' whole rfl
      cases same
      exact ⟨earlier, .inr ⟨_, rfl, ran⟩⟩
    · rw [List.concat_eq_append, ← List.cons_append, ← List.append_assoc] at whole
      exact ih (List.append_inj' whole rfl).1

theorem Delivered.listened {id : Nat} (delivered : Delivered h endpoint irq id) (wiring : Wiring p h k) :
    ∃ r ∈ h, Listens r id endpoint := by
  obtain ⟨before, d, since, data, rfl, signals, _⟩ := delivered
  rcases signals.asked with now | waits
  · exact ⟨d, by simp, now⟩
  · obtain ⟨r, member, listens⟩ := (wiring.split rfl).1.provenance.parked.listening _ waits
    exact ⟨r, List.mem_append_left _ member, listens⟩

theorem Fetches.unmasks {id from' : Nat} {c : Core} (fetches : Fetches r id from' c) (balanced : Balanced r.pre.core)
    (watched : Watched r.post.core line) (masked : r.pre.core.pic.masked line = true)
    (cleared : r.post.core.pic.masked line = false) : ∃ irq, r.pre.core.ack from' = some irq ∧ irq.toNat = line := by
  obtain ⟨blocking, receives⟩ := fetches.receives
  rw [receives.pic, pic_acknowledge, fetches.same.acks, fetches.same.pic] at cleared
  cases owed : r.pre.core.ack from' with
  | none =>
    rw [owed, Option.map_none, Option.getD_none, masked] at cleared
    cases cleared
  | some irq =>
    have handler := balanced.acked from' irq owed
    rw [owed, Option.map_some, Option.getD_some, Pic.masked_unmask (handlerFor_inside balanced.lines handler), masked,
      Bool.true_and, Bool.not_eq_false', decide_eq_true_eq] at cleared
    rcases cleared with same | ⟨slave, two⟩
    · exact ⟨irq, rfl, same.symm⟩
    · have unregistered := watched.2 two irq.toNat slave
      rw [Ipc.handlerFor, receives.handlers, fetches.same.handlers] at unregistered
      cases unregistered.symm.trans handler

end Histories

/-- A masked line has one event queued, on its endpoint, or is the line that its endpoint remembers, and not both; a
    line that is not masked has neither. -/
structure Paired (c : Core) (line endpoint : Nat) : Prop where
  masked : c.pic.masked line = true →
    (∃ event, c.queued line = [event] ∧ event.endpoint = endpoint ∧ c.unacked line endpoint = false) ∨
      c.queued line = [] ∧ c.unacked line endpoint = true
  unmasked : c.pic.masked line = false → c.queued line = [] ∧ c.unacked line endpoint = false

theorem Balanced.paired {c : Core} {line endpoint : Nat} (balanced : Balanced c) (watched : Watched c line)
    (registered : Ipc.handlerFor c line = some endpoint) : Paired c line endpoint := by
  have balance := balanced.balance line endpoint watched registered
  constructor
  · intro masked
    rw [masked, Bool.toNat_true] at balance
    cases remembered : c.unacked line endpoint with
    | true =>
      rw [remembered, Bool.toNat_true] at balance
      exact .inr ⟨List.eq_nil_of_length_eq_zero (by omega), rfl⟩
    | false =>
      rw [remembered, Bool.toNat_false] at balance
      obtain ⟨event, queue⟩ := List.length_eq_one_iff.mp balance
      have inside : event ∈ c.queued line := by simp [queue]
      obtain ⟨member, same⟩ := List.mem_filter.mp inside
      have handler := balanced.queued event member
      rw [of_decide_eq_true same, registered] at handler
      exact .inl ⟨event, queue, (Option.some.inj handler).symm, rfl⟩
  · intro clear
    rw [clear, Bool.toNat_false, Nat.add_eq_zero_iff, Bool.toNat_eq_zero] at balance
    exact ⟨List.eq_nil_of_length_eq_zero balance.1, balance.2⟩

/-! ## Lines on the small machine -/

section Lines

instance (k : Kernel) (c : BootCall) : Decidable (c.Allowed k) :=
  match c with
  | .grant _ (.memoryGrant physBase len _) => inferInstanceAs (Decidable (physBase = 0xB8000 ∧ len = 0x1000))
  | .grant _ (.endpoint _) => isTrue trivial
  | .grant _ (.irqControl _ _) => isTrue trivial
  | .grant _ .rebootControl => isTrue trivial
  | .start => inferInstanceAs (Decidable (∃ task ∈ k.sched.tasks, task.entry = .idle))
  | .spawn _ _ => isTrue trivial
  | .createEndpoint _ => isTrue trivial
  | .setNameserviceEndpoint _ => isTrue trivial
  | .infoPage _ _ => isTrue trivial
  | .spawnIdle => isTrue trivial

/-- A call of a boot, if it may be made, or an event, if it can happen. -/
def Booting.act (b : Booting) : Action → Option Booting
  | .boot c =>
    if b.kernel.sched.current = none ∧ c.Allowed b.kernel then
      match c.run b.kernel with
      | .ok (_, kernel) => some { kernel, history := b.history ++ [{ pre := b.kernel, action := .boot c, post := kernel }] }
      | .error _ => none
    else none
  | .event e => b.next e

theorem Wiring.act {p : Platform} {b b' : Booting} {action : Action} (wiring : Wiring p b.history b.kernel)
    (ran : b.act action = some b') : Wiring p b'.history b'.kernel := by
  cases action with
  | boot c =>
    dsimp only [Booting.act] at ran
    split at ran
    · rename_i may
      split at ran
      · rename_i result kernel called
        cases ran
        exact wiring.boot may.1 may.2 called
      · cases ran
    · cases ran
  | event e =>
    obtain ⟨may, stepped, recorded⟩ := Booting.next_eq_some ran
    exact recorded ▸ wiring.event may stepped

theorem Wiring.actions {p : Platform} {b b' : Booting} (wiring : Wiring p b.history b.kernel) (actions : List Action)
    (ran : actions.foldlM Booting.act b = some b') : Wiring p b'.history b'.kernel := by
  induction actions generalizing b with
  | nil =>
    cases ran
    exact wiring
  | cons action rest ih =>
    obtain ⟨b1, first, ran⟩ := Option.bind_eq_some_iff.mp ran
    exact ih (wiring.act first) ran

def controlNamed (k : Kernel) (regs : SavedRegs) : Option UInt32 :=
  match (k.runningTask.bind fun task => CSpace.get task.cspace regs.ebx).bind (resolve k.caps) with
  | some (.irqControl irq _, _) => some irq
  | _ => none

/-- Task 1 makes all calls, and the record is orderly. -/
def Record.tidy (r : Record) : Bool :=
  (r.pre.sched.current.all fun id => decide (id = 1)) &&
    (r.post.core.handlers.all fun handler => handler.all fun endpoint =>
      (r.post.core.ipc.owner endpoint).any fun id => (r.post.core.sched.status id).any fun state => decide (state ≠ .zombie)) &&
    match r.action with
    | .event (.irq line) => !r.pre.core.pic.masked (line.val + 2)
    | .event (.syscall regs) =>
      decide (regs.eax ≠ Syscall.sysRegisterIrq) ||
        (controlNamed r.pre regs).all fun irq => decide (Ipc.handlerFor r.pre.core irq.toNat = none)
    | _ => true

theorem Record.tidy_orderly {r : Record} (tidy : r.tidy = true) : Orderly r := by
  simp only [Record.tidy, Bool.and_eq_true] at tidy
  obtain ⟨⟨_, alive⟩, rest⟩ := tidy
  refine ⟨fun line endpoint registered => ?_, fun irq endpoint registers => ?_, fun line raised => ?_⟩
  · have found := Option.join_eq_some_iff.mp registered
    have living := List.all_eq_true.mp alive _ (List.mem_of_getElem? found)
    simp only [Option.all_some, Option.any_eq_true, decide_eq_true_eq] at living
    obtain ⟨id, owner, state, status, other⟩ := living
    exact ⟨id, state, owner, status, other⟩
  · cases registers with
    | @calls id node regs badge calls number holds live =>
      obtain ⟨task, found, slot⟩ := holds
      have named : controlNamed r.pre regs = some irq := by
        simp [controlNamed, Kernel.runningTask, calls.2, found, slot, live]
      simpa [calls.1, number, named] using rest
  · simpa [raised] using rest

private theorem tidy_disciplined {h : List Record} (tidy : h.all Record.tidy = true) : Disciplined h := by
  rw [List.all_eq_true] at tidy
  have one : ∀ r ∈ h, ∀ id endpoint, Listens r id endpoint → id = 1 := by
    intro r member id endpoint listens
    obtain ⟨⟨_, current⟩, _, _, _⟩ := listens
    have first := tidy r member
    simp only [Record.tidy, Bool.and_eq_true, current, Option.all_some, decide_eq_true_eq] at first
    exact first.1.1
  refine ⟨fun r member => Record.tidy_orderly (tidy r member), fun r member r' member' id id' endpoint first second => ?_⟩
  exact (one r member id endpoint first).trans (one r' member' id' endpoint second).symm

/-- One task with an endpoint, and the controls of two lines for it. -/
def twoLines (first second : UInt32) : List Action :=
  [.boot (.spawn 0 []), .boot (.createEndpoint 1), .boot (.grant 1 (.endpoint 0)), .boot (.grant 1 (.irqControl first 0)),
    .boot (.grant 1 (.irqControl second 0)), .boot .spawnIdle, .boot .start]

/-- Line 2 is registered and raised, then line 9 is registered. -/
def cascadeOpened : List Action :=
  twoLines 2 9 ++ [.event (request Syscall.sysRegisterIrq 2 0 0 0 0), .event (.irq 0),
    .event (request Syscall.sysRegisterIrq 3 0 0 0 0)]

/-- Lines 5 and 11 are registered and raised, and the task receives twice. -/
def bothRaised : List Action :=
  twoLines 5 11 ++ [.event (request Syscall.sysRegisterIrq 2 0 0 0 0), .event (request Syscall.sysRegisterIrq 3 0 0 0 0),
    .event (.irq 3), .event (.irq 9), .event (request Syscall.sysRecv 1 0 0 0 0), .event (request Syscall.sysRecv 1 0 0 0 0)]

def linesObserved (k : Kernel) : Bool :=
  ((cascadeOpened.foldlM Booting.act { kernel := k, history := [] }).any fun b =>
    b.history.all Record.tidy && decide (Ipc.handlerFor b.kernel.core 2 = some 0) &&
      !b.kernel.core.pic.masked 2 && !(b.kernel.core.queued 2).isEmpty) &&
  (bothRaised.foldlM Booting.act { kernel := k, history := [] }).any fun b =>
    b.history.all Record.tidy && decide (Ipc.handlerFor b.kernel.core 11 = some 0) && b.kernel.core.pic.masked 11 &&
      !b.kernel.core.pic.masked 5

private theorem smallMachine_lines :
    (match bringUp smallMachine with
    | .ok k => linesObserved k
    | .error _ => false) = true := by
  decide +kernel

private theorem smallMachine_acted (actions : List Action) (check : Booting → Bool)
    (seen : ∀ k, linesObserved k = true → (actions.foldlM Booting.act { kernel := k, history := [] }).any check = true) :
    ∃ b : Booting, Wiring smallMachine b.history b.kernel ∧ check b = true := by
  have observed := smallMachine_lines
  split at observed
  · rename_i k up
    obtain ⟨b, ran, checked⟩ := (Option.any_eq_true _ _).mp (seen k observed)
    have start : Wiring smallMachine ({ kernel := k, history := [] } : Booting).history k := .bringUp up
    exact ⟨b, start.actions actions ran, checked⟩
  · cases observed

end Lines

/-! ## Masks and acknowledgements -/

/-- Masks and acknowledgements pair up. In every run in which each endpoint has one receiving task, the owners of
    endpoints with registered lines live, each line is registered once and the controller does not raise masked lines,
    and for every registered line from 3 to 15, and line 2 as long as no line of the slave is registered: when it is
    masked, one event is queued for it or its endpoint remembers it, and not both; when it is not masked, neither; and
    only a receive unmasks it, by the task that the interrupt was delivered to, the first one from that endpoint since
    the delivery. -/
theorem masks_paired {p : Platform} {h : List Record} {k : Kernel} (wiring : Wiring p h k) (disciplined : Disciplined h)
    {line : Nat} (high : 2 ≤ line) :
    (∀ endpoint, Ipc.handlerFor k.core line = some endpoint →
      (line = 2 → ∀ other, 8 ≤ other → Ipc.handlerFor k.core other = none) → Paired k.core line endpoint) ∧
    ∀ before r after endpoint, h = before ++ r :: after → Ipc.handlerFor r.pre.core line = some endpoint →
      (line = 2 → ∀ other, 8 ≤ other → Ipc.handlerFor r.post.core other = none) →
      r.pre.core.pic.masked line = true → r.post.core.pic.masked line = false →
      ∃ id irq, irq.toNat = line ∧ Listens r id endpoint ∧ Delivered before endpoint irq id := by
  refine ⟨fun endpoint registered apart => (wiring.balanced disciplined).paired ⟨high, apart⟩ registered, ?_⟩
  intro before r after endpoint whole registered apart masked cleared
  have watched : Watched r.post.core line := ⟨high, apart⟩
  obtain ⟨earlier, how⟩ := wiring.split whole
  subst whole
  have balanced := earlier.balanced disciplined.before
  have orderly := disciplined.orderly r (by simp)
  have kept : ¬Turns r := fun turns => by
    rw [turns.keeps_masked balanced orderly registered watched masked] at cleared
    cases cleared
  rcases how with ⟨c, _, did⟩ | ⟨e, action, ran⟩
  · exact absurd (.aside did.aside) kept
  · have shape : r = { pre := r.pre, action := .event e, post := r.post } := action ▸ rfl
    rcases turns_or_fetches earlier.booked ran with ⟨id, from', c, fetches⟩ | ⟨turns, _⟩
    · rw [← shape] at fetches
      obtain ⟨irq, owed, rfl⟩ := fetches.unmasks balanced watched masked cleared
      cases (balanced.acked from' irq owed).symm.trans registered
      obtain ⟨id', delivered⟩ := earlier.delivered _ irq owed
      obtain ⟨r', member, listens⟩ := delivered.listened earlier
      have same := disciplined.receiver r' (List.mem_append_left _ member) r (by simp) _ _ _ listens fetches.listens
      exact ⟨id, irq, rfl, fetches.listens, same ▸ delivered⟩
    · rw [← shape] at turns
      exact absurd turns kept

/-- Line 2 beside a line of the slave: its first interrupt still waits when registering line 9 opens line 2. -/
theorem cascade_unmasked_early : ∃ h k, Wiring smallMachine h k ∧ Disciplined h ∧ Ipc.handlerFor k.core 2 = some 0 ∧
    ¬Paired k.core 2 0 := by
  obtain ⟨b, wiring, checked⟩ := smallMachine_acted cascadeOpened _ fun k seen => (Bool.and_eq_true_iff.mp seen).1
  simp only [Bool.and_eq_true, decide_eq_true_eq, Bool.not_eq_true'] at checked
  obtain ⟨⟨⟨tidy, registered⟩, open'⟩, queued⟩ := checked
  refine ⟨b.history, b.kernel, wiring, tidy_disciplined tidy, registered, fun paired => ?_⟩
  rw [(paired.unmasked open').1] at queued
  cases queued

/-- Line 5 has been acknowledged, and line 11 waits for it. -/
theorem line_eleven_paired : ∃ h k, Wiring smallMachine h k ∧ Disciplined h ∧ k.core.pic.masked 11 = true ∧
    k.core.pic.masked 5 = false ∧ Paired k.core 11 0 := by
  obtain ⟨b, wiring, checked⟩ := smallMachine_acted bothRaised _ fun k seen => (Bool.and_eq_true_iff.mp seen).2
  simp only [Bool.and_eq_true, decide_eq_true_eq, Bool.not_eq_true'] at checked
  obtain ⟨⟨⟨tidy, registered⟩, masked⟩, open'⟩ := checked
  have disciplined := tidy_disciplined tidy
  exact ⟨b.history, b.kernel, wiring, disciplined, masked, open',
    (masks_paired wiring disciplined (by decide)).1 0 registered nofun⟩

end Pcern

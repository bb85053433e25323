import Pcern.Delivery

/-!
Endpoints whose owner has exited. An exit fails everyone who waits on an endpoint
of the task, so at that moment nobody hangs there. But the endpoint lives on, in
capabilities and in the interrupt table, and a later send, receive or interrupt
waits for a partner that cannot come. What a step must not do is exactly that
(`Careful`).
-/
namespace Pcern
open Capabilities Keyed Loops Scheduler

def Ipc.owner (ipc : Ipc) (endpoint : Nat) : Option Nat := ipc.endpoints[endpoint]?.map EndpointMeta.owner

def Dead (c : Core) (endpoint : Nat) : Prop := ∃ id, c.ipc.owner endpoint = some id ∧ c.sched.status id = some .zombie

/-- A sender, a receiver or an interrupt waits on the endpoint. -/
def Ipc.Waits (ipc : Ipc) (endpoint : Nat) : Prop :=
  (∃ w ∈ ipc.pendingRecvs, w.endpoint = endpoint) ∨ (∃ w ∈ ipc.pendingSends, w.endpoint = endpoint) ∨
    ∃ e ∈ ipc.pendingIrqEvents, e.endpoint = endpoint

/-- Nothing waits on an endpoint whose owner has exited. -/
def Unhung (c : Core) : Prop := ∀ endpoint, c.ipc.Waits endpoint → ¬Dead c endpoint

/-- The endpoint on which a step may begin to wait: that of a `SYS_SEND` or `SYS_RECV`, or of the handler of an
    interrupt. -/
def target (k : Kernel) : Event → Option Nat
  | .syscall regs =>
    if regs.eax = Syscall.sysSend ∨ regs.eax = Syscall.sysRecv then
      match (k.runningTask.bind fun task => CSpace.get task.cspace regs.ebx).bind (resolve k.caps) with
      | some (.endpoint endpoint, _) => some endpoint
      | _ => none
    else none
  | .keyboard _ => Ipc.handlerFor k.core 1
  | .irq line => Ipc.handlerFor k.core (line.val + 2)
  | _ => none

/-- The step does not turn to an endpoint whose owner has exited. -/
def Careful (k : Kernel) (e : Event) : Prop := ∀ endpoint, target k e = some endpoint → ¬Dead k.core endpoint

/-! ## Who has exited -/

def SameDead (s s' : Scheduler) : Prop := ∀ id, s'.status id = some .zombie ↔ s.status id = some .zombie

section Exited
variable {s s' s'' : Scheduler} {id : Nat} {waiting : List Nat}

theorem SameDead.trans (first : SameDead s s') (second : SameDead s' s'') : SameDead s s'' :=
  fun id => (second id).trans (first id)

theorem Scheduler.SameRotation.sameDead (same : SameRotation s s') : SameDead s s' := fun id => by rw [same.status]

private theorem sameDead_update {state state' : TaskState} (before : s.status id = some state) (alive : state ≠ .zombie)
    (states : s'.status = Function.update s.status id (some state')) (alive' : state' ≠ .zombie) : SameDead s s' := by
  intro i
  by_cases same : i = id
  · subst same
    simp [states, before, alive, alive']
  · simp [states, same]

private theorem wake_sameDead (ran : s.wake id = .ok s') (blocked : s.status id = some .blocked) : SameDead s s' := by
  obtain ⟨_, _, _, _, _, states, _⟩ := wake_eq_ok ran
  exact sameDead_update blocked (by decide) states (by decide)

private theorem switch_sameDead {state : TaskState} {next : Nat} (running : s.status id = some .running) (ready : s.status next = some .ready)
    (alive : state ≠ .zombie)
    (states : s'.status = Function.update (Function.update s.status id (some state)) next (some .running)) :
    SameDead s s' := by
  intro i
  by_cases first : i = next
  · subst first
    simp [states, ready]
  · by_cases second : i = id
    · subst second
      simp [states, first, running, alive]
    · simp [states, first, second]

private theorem tick_sameDead (ran : s.tick = .ok s') (consistent : s.Consistent waiting) : SameDead s s' := by
  rcases tick_eq_ok ran with ⟨rfl, _⟩ | ⟨id, next, rest, current, queue, _, _, _, states, _⟩
  · exact fun _ => Iff.rfl
  · exact switch_sameDead ((consistent.agree.running id).mpr current) ((consistent.agree.ready next).mp (by simp [queue]))
      (by decide) states

private theorem block_sameDead (ran : s.blockCurrent = .ok (id, s')) (consistent : s.Consistent waiting) : SameDead s s' := by
  obtain ⟨current, next, rest, queue, _, _, _, states, _⟩ := leave_eq_ok ran
  exact switch_sameDead ((consistent.agree.running id).mpr current) ((consistent.agree.ready next).mp (by simp [queue]))
    (by decide) states

private theorem exit_zombie (ran : s.leave .zombie = .ok (id, s')) (consistent : s.Consistent waiting) (i : Nat) :
    s'.status i = some .zombie ↔ s.status i = some .zombie ∨ i = id := by
  obtain ⟨current, next, rest, queue, _, _, _, states, _⟩ := leave_eq_ok ran
  have ready := (consistent.agree.ready next).mp (by simp [queue])
  have running := (consistent.agree.running id).mpr current
  by_cases first : i = next
  · subst first
    have other : i ≠ id := fun same => by simp [same, running] at ready
    simp [states, ready, other]
  · by_cases second : i = id
    · subst second
      simp [states, first]
    · simp [states, first, second]

theorem Ipc.Fails.sameDead {ids rest : List Nat} (fails : Ipc.Fails ids s s') (consistent : s.Consistent (ids ++ rest)) :
    SameDead s s' ∧ s'.Consistent rest := by
  induction fails with
  | nil => exact ⟨fun _ => Iff.rfl, consistent⟩
  | @cons first ids s s1 _ woke _ ih =>
    have same := SameRotation.writeRegs s first (Ipc.setEax 0xFFFFFFFF)
    obtain ⟨s2, woke', after⟩ := (consistent.same same).wake (List.Perm.refl (first :: (ids ++ rest)))
    cases woke.symm.trans woke'
    have blocked := ((consistent.same same).agree.blocked first).mp (List.mem_cons_self ..)
    obtain ⟨dead, last⟩ := ih after
    exact ⟨same.sameDead.trans ((wake_sameDead woke blocked).trans dead), last⟩

end Exited

/-! ## What the operations do to dead endpoints -/

section Exchange
variable {c c' : Core} {self endpoint : Nat}

private theorem dead_congr (owners : c'.ipc.owner = c.ipc.owner) (same : SameDead c.sched c'.sched) (x : Nat) : Dead c' x ↔ Dead c x := by
  simp only [Dead, owners]
  exact exists_congr fun id => and_congr_right fun _ => same id

private theorem owner_modify {ipc ipc' : Ipc} {f : EndpointMeta → EndpointMeta}
    (after : ipc'.endpoints = ipc.endpoints.modify endpoint f) (keeps : ∀ e, (f e).owner = e.owner) :
    ipc'.owner = ipc.owner := by
  funext x
  simp only [Ipc.owner, after, List.getElem?_modify]
  cases ipc.endpoints[x]? with
  | none => rfl
  | some e => by_cases same : endpoint = x <;> simp [same, keeps]

private theorem acknowledge_owner (c : Core) (endpoint : Nat) : (Ipc.acknowledge c endpoint).ipc.owner = c.ipc.owner := by
  unfold Ipc.acknowledge
  split
  · rfl
  · exact owner_modify rfl (by intro; rfl)

variable {msg : UInt32 × UInt32 × UInt32} {x : Nat} {blocking delivered : Bool}

theorem Ipc.Sends.sameDead {transfer : Option Nat}
    (sends : Ipc.Sends c self endpoint msg transfer c') (booked : c.Booked) : SameDead c.sched c'.sched := by
  cases sends with
  | waits _ left => exact block_sameDead left booked
  | @handed matched _ slot s _ found installed woke =>
    have same := ((Ipc.installTransfer_same installed).trans
      (.writeRegs s matched.taskId (Ipc.messageRegs self msg slot))).trans (.writeRegs _ self (Ipc.setEax 0))
    have blocked := (booked.agree.blocked matched.taskId).mp
      (List.mem_append_left _ (List.mem_map_of_mem (takeFirst_mem found).1))
    exact same.sameDead.trans (wake_sameDead woke (by rw [same.status, blocked]))

theorem Ipc.Sends.dead {transfer : Option Nat}
    (sends : Ipc.Sends c self endpoint msg transfer c') (booked : c.Booked) (x : Nat) : Dead c' x ↔ Dead c x := by
  refine dead_congr ?_ (sends.sameDead booked) x
  cases sends <;> rfl

theorem Ipc.Takes.sameDead (takes : Ipc.Takes c endpoint self delivered c') (booked : c.Booked)
    (current : c.sched.current = some self) : SameDead c.sched c'.sched := by
  cases takes with
  | nothing _ _ => exact fun _ => Iff.rfl
  | interrupt _ _ => exact (SameRotation.writeRegs ..).sameDead
  | @message matched _ slot s _ found installed woke =>
    rw [Ipc.installTransferCurrent_eq current] at installed
    have same := ((Ipc.installTransfer_same installed).trans
      (.writeRegs s self (Ipc.messageRegs matched.taskId matched.msg slot))).trans (.writeRegs _ matched.taskId (Ipc.setEax 0))
    have blocked := (booked.agree.blocked matched.taskId).mp
      (List.mem_append_right _ (List.mem_map_of_mem (takeFirst_mem found).1))
    exact same.sameDead.trans (wake_sameDead woke (by rw [same.status, blocked]))

theorem Ipc.Takes.dead (takes : Ipc.Takes c endpoint self delivered c') (booked : c.Booked)
    (current : c.sched.current = some self) (x : Nat) : Dead c' x ↔ Dead c x := by
  refine dead_congr ?_ (takes.sameDead booked current) x
  cases takes with
  | interrupt _ _ => exact owner_modify rfl (by intro; rfl)
  | _ => rfl

theorem Ipc.Receives.sameDead (receives : Ipc.Receives c self endpoint blocking c') (booked : c.Booked)
    (current : c.sched.current = some self) : SameDead c.sched c'.sched := by
  have before := Ipc.acknowledge_booked booked endpoint
  rw [← Ipc.acknowledge_sched c endpoint] at current ⊢
  cases receives with
  | takes took => exact took.sameDead before current
  | waits nothing left =>
    cases nothing
    exact block_sameDead left before
  | fails nothing =>
    cases nothing
    exact (SameRotation.writeRegs ..).sameDead

theorem Ipc.Receives.dead (receives : Ipc.Receives c self endpoint blocking c') (booked : c.Booked)
    (current : c.sched.current = some self) (x : Nat) : Dead c' x ↔ Dead c x := by
  have before := Ipc.acknowledge_booked booked endpoint
  have same : Dead (Ipc.acknowledge c endpoint) x ↔ Dead c x :=
    dead_congr (acknowledge_owner c endpoint) (by simp [SameDead]) x
  cases receives with
  | takes took => exact (took.dead before (by simpa using current) x).trans same
  | waits nothing left =>
    cases nothing
    refine (dead_congr ?_ (block_sameDead left before) x).trans same
    rfl
  | fails nothing =>
    cases nothing
    refine (dead_congr ?_ (SameRotation.writeRegs _ self _).sameDead x).trans same
    rfl

theorem Ipc.Notifies.sameDead {irq data : UInt32} (notifies : Ipc.Notifies c endpoint irq data c') (booked : c.Booked) :
    SameDead c.sched c'.sched := by
  cases notifies with
  | queued _ => exact fun _ => Iff.rfl
  | @handed matched _ s found woke =>
    have same := SameRotation.writeRegs c.sched matched.taskId (Ipc.interruptRegs irq data)
    have blocked := (booked.agree.blocked matched.taskId).mp
      (List.mem_append_left _ (List.mem_map_of_mem (takeFirst_mem found).1))
    exact same.sameDead.trans (wake_sameDead woke (by rw [same.status, blocked]))

theorem Ipc.Notifies.dead {irq data : UInt32} (notifies : Ipc.Notifies c endpoint irq data c') (booked : c.Booked) (x : Nat) :
    Dead c' x ↔ Dead c x := by
  refine dead_congr ?_ (notifies.sameDead booked) x
  cases notifies with
  | queued _ => rfl
  | handed _ _ => exact owner_modify rfl (by intro; rfl)

theorem mem_ownedBy (ipc : Ipc) (id x : Nat) : x ∈ Ipc.ownedBy ipc.endpoints id ↔ ipc.owner x = some id := by
  simp only [Ipc.ownedBy, Ipc.owner, List.mem_filter, List.mem_range]
  cases found : ipc.endpoints[x]? with
  | none => simp
  | some e => simp [(List.getElem?_eq_some_iff.mp found).1]

private theorem map_filter_perm {α : Type} (f : α → Nat) (p : α → Bool) (xs : List α) :
    ((xs.filter p).map f ++ (xs.filter fun x => !p x).map f).Perm (xs.map f) := by
  rw [← List.map_append]
  exact (List.filter_append_perm p xs).map f

theorem Ipc.Exits.exited (exits : Ipc.Exits c c') (booked : c.Booked) :
    ∃ id, c.sched.current = some id ∧ ∀ i, c'.sched.status i = some .zombie ↔ c.sched.status i = some .zombie ∨ i = id := by
  cases exits with
  | @exits id dead s s1 s2 left owned receivers senders =>
    obtain ⟨current, next, rest, queue, _⟩ := leave_eq_ok left
    obtain ⟨s', left', consistent⟩ := Consistent.exit booked current (by simp [queue])
    cases left.symm.trans left'
    have first : ((c.ipc.pendingRecvs.filter fun r => decide (r.endpoint ∈ dead)).map PendingRecv.taskId ++
        ((c.ipc.pendingRecvs.filter fun r => !decide (r.endpoint ∈ dead)).map PendingRecv.taskId ++
          c.ipc.pendingSends.map PendingSend.taskId)).Perm c.ipc.waiting := by
      rw [← List.append_assoc]
      exact (map_filter_perm PendingRecv.taskId _ _).append_right _
    obtain ⟨same, consistent⟩ := receivers.sameDead (consistent.perm first)
    have second : ((c.ipc.pendingSends.filter fun s => decide (s.endpoint ∈ dead)).map PendingSend.taskId ++
        ((c.ipc.pendingSends.filter fun s => !decide (s.endpoint ∈ dead)).map PendingSend.taskId ++
          (c.ipc.pendingRecvs.filter fun r => !decide (r.endpoint ∈ dead)).map PendingRecv.taskId)).Perm
        ((c.ipc.pendingRecvs.filter fun r => !decide (r.endpoint ∈ dead)).map PendingRecv.taskId ++
          c.ipc.pendingSends.map PendingSend.taskId) := by
      rw [← List.append_assoc]
      exact ((map_filter_perm PendingSend.taskId _ _).append_right _).trans List.perm_append_comm
    obtain ⟨same', _⟩ := senders.sameDead (consistent.perm second)
    exact ⟨id, current, fun i => ((same.trans same') i).trans (exit_zombie left booked i)⟩

theorem Ipc.Exits.dead (exits : Ipc.Exits c c') (booked : c.Booked) :
    ∃ id, c.sched.current = some id ∧ (∀ x, Dead c' x ↔ Dead c x ∨ c.ipc.owner x = some id) ∧
      ∀ x, c'.ipc.Waits x → c.ipc.Waits x ∧ c.ipc.owner x ≠ some id := by
  obtain ⟨id, current, exited⟩ := exits.exited booked
  cases exits with
  | exits left owned receivers senders =>
    cases current.symm.trans (leave_eq_ok left).1
    refine ⟨id, current, fun x => ?_, fun x waits => ?_⟩
    · constructor
      · rintro ⟨o, owner, zombie⟩
        rcases (exited o).mp zombie with before | rfl
        · exact .inl ⟨o, owner, before⟩
        · exact .inr owner
      · rintro (⟨o, owner, zombie⟩ | owner)
        · exact ⟨o, owner, (exited o).mpr (.inl zombie)⟩
        · exact ⟨id, owner, (exited id).mpr (.inr rfl)⟩
    · rw [ne_eq, ← mem_ownedBy, ← owned]
      rcases waits with ⟨w, kept, rfl⟩ | ⟨w, kept, rfl⟩ | ⟨e, kept, rfl⟩
      · obtain ⟨member, live⟩ := List.mem_filter.mp kept
        exact ⟨.inl ⟨w, member, rfl⟩, by simpa using live⟩
      · obtain ⟨member, live⟩ := List.mem_filter.mp kept
        exact ⟨.inr (.inl ⟨w, member, rfl⟩), by simpa using live⟩
      · obtain ⟨member, live⟩ := List.mem_filter.mp kept
        exact ⟨.inr (.inr ⟨e, member, rfl⟩), by simpa using live⟩

theorem Ipc.Exits.unhung (exits : Ipc.Exits c c') (booked : c.Booked) (unhung : Unhung c) : Unhung c' := by
  obtain ⟨id, _, dead, waits⟩ := exits.dead booked
  intro x waiting
  obtain ⟨before, other⟩ := waits x waiting
  exact fun now => ((dead x).mp now).elim (unhung x before) other

/-! ## What begins to wait -/

theorem Ipc.Sends.waits_on {transfer : Option Nat}
    (sends : Ipc.Sends c self endpoint msg transfer c') (waits : c'.ipc.Waits x) : c.ipc.Waits x ∨ x = endpoint := by
  cases sends with
  | handed found _ _ =>
    rcases waits with ⟨w, member, same⟩ | rest
    · exact .inl (.inl ⟨w, (takeFirst_mem found).2.2 member, same⟩)
    · exact .inl (.inr rest)
  | waits _ _ =>
    rcases waits with ⟨w, member, same⟩ | ⟨w, member, same⟩ | rest
    · exact .inl (.inl ⟨w, member, same⟩)
    · rcases List.mem_append.mp member with old | new
      · exact .inl (.inr (.inl ⟨w, old, same⟩))
      · cases List.mem_singleton.mp new
        exact .inr same.symm
    · exact .inl (.inr (.inr rest))

theorem Ipc.Takes.waits_on (takes : Ipc.Takes c endpoint self delivered c')
    (waits : c'.ipc.Waits x) : c.ipc.Waits x := by
  cases takes with
  | message found _ _ =>
    rcases waits with first | ⟨w, member, same⟩ | rest
    · exact .inl first
    · exact .inr (.inl ⟨w, (takeFirst_mem found).2.2 member, same⟩)
    · exact .inr (.inr rest)
  | interrupt _ found =>
    rcases waits with first | second | ⟨e, member, same⟩
    · exact .inl first
    · exact .inr (.inl second)
    · exact .inr (.inr ⟨e, (takeFirst_mem found).2.2 member, same⟩)
  | nothing _ _ => exact waits

private theorem acknowledge_waits (c : Core) (endpoint x : Nat) : (Ipc.acknowledge c endpoint).ipc.Waits x ↔ c.ipc.Waits x := by
  simp [Ipc.Waits]

theorem Ipc.Receives.waits_on (receives : Ipc.Receives c self endpoint blocking c')
    (waits : c'.ipc.Waits x) : c.ipc.Waits x ∨ (blocking = true ∧ x = endpoint) := by
  cases receives with
  | takes took => exact .inl ((acknowledge_waits c endpoint x).mp (took.waits_on waits))
  | waits nothing _ =>
    cases nothing
    rcases waits with ⟨w, member, same⟩ | rest
    · rcases List.mem_append.mp member with old | new
      · exact .inl ((acknowledge_waits c endpoint x).mp (.inl ⟨w, old, same⟩))
      · cases List.mem_singleton.mp new
        exact .inr ⟨rfl, same.symm⟩
    · exact .inl ((acknowledge_waits c endpoint x).mp (.inr rest))
  | fails nothing =>
    cases nothing
    exact .inl ((acknowledge_waits c endpoint x).mp waits)

theorem Ipc.Notifies.waits_on {irq data : UInt32} (notifies : Ipc.Notifies c endpoint irq data c')
    (waits : c'.ipc.Waits x) : c.ipc.Waits x ∨ x = endpoint := by
  cases notifies with
  | handed found _ =>
    rcases waits with ⟨w, member, same⟩ | rest
    · exact .inl (.inl ⟨w, (takeFirst_mem found).2.2 member, same⟩)
    · exact .inl (.inr rest)
  | queued _ =>
    rcases waits with first | second | ⟨e, member, same⟩
    · exact .inl (.inl first)
    · exact .inl (.inr (.inl second))
    · rcases List.mem_append.mp member with old | new
      · exact .inl (.inr (.inr ⟨e, old, same⟩))
      · cases List.mem_singleton.mp new
        exact .inr same.symm

end Exchange

/-! ## Steps -/

section Steps
variable {k k' : Kernel} {e : Event}

private theorem reply_same (k : Kernel) (id : Nat) (f : SavedRegs → SavedRegs) : SameRotation k.sched (reply k id f).sched :=
  .writeRegs k.sched id f

variable {endpoint node self : Nat} {c c' : Core}

private theorem installed_same {k1 : Kernel} {slot : UInt32} {regs : SavedRegs} {s : Scheduler}
    (ran : (arrive k self regs).sched.installCapFor self node = .ok (slot, s)) (after : k1.sched = s) (f : SavedRegs → SavedRegs) :
    SameRotation k.sched (reply k1 self f).sched := by
  subst after
  exact ((reply_same k self fun _ => regs).trans (.installCapFor ran)).trans (reply_same k1 self f)

private theorem dead_arrive (k : Kernel) (id : Nat) (regs : SavedRegs) (x : Nat) : Dead (arrive k id regs).core x ↔ Dead k.core x := by
  refine dead_congr ?_ (SameRotation.writeRegs k.sched id _).sameDead x
  rfl

private theorem unhung_arrive (unhung : Unhung k.core) (id : Nat) (regs : SavedRegs) : Unhung (arrive k id regs).core :=
  fun x waits dead => unhung x waits ((dead_arrive k id regs x).mp dead)

theorem Unhung.keep (unhung : Unhung c) (waits : ∀ x, c'.ipc.Waits x → c.ipc.Waits x)
    (dead : ∀ x, Dead c' x ↔ Dead c x) : Unhung c' :=
  fun x waiting now => unhung x (waits x waiting) ((dead x).mp now)

theorem Unhung.quiet (unhung : Unhung c) (waits : ∀ x, c'.ipc.Waits x → c.ipc.Waits x)
    (owners : c'.ipc.owner = c.ipc.owner) (same : SameRotation c.sched c'.sched) : Unhung c' :=
  unhung.keep waits (dead_congr owners same.sameDead)

theorem Unhung.wait (unhung : Unhung c)
    (waits : ∀ x, c'.ipc.Waits x → c.ipc.Waits x ∨ x = endpoint) (dead : ∀ x, Dead c' x ↔ Dead c x) (alive : ¬Dead c endpoint) :
    Unhung c' := by
  intro x waiting now
  rcases waits x waiting with before | rfl
  · exact unhung x before ((dead x).mp now)
  · exact alive ((dead x).mp now)

theorem Loader.Spawning.sameDead {ports : List UInt16} {spawned : Option Nat} (ran : Loader.Spawning k ports spawned k')
    (fresh : k.sched.lookup k.nextId = none) : SameDead k.sched k'.sched := by
  intro id
  cases ran with
  | refused => exact Iff.rfl
  | gaveUp _ _ => exact Iff.rfl
  | @loaded _ _ _ _ _ t _ _ admitted _ _ _ _ =>
    have found := lookup_spawn k.sched t id
    rw [← admitted.sched] at found
    by_cases same : id = k.nextId
    · rw [same] at found ⊢
      simp [status, found, fresh, admitted.id, admitted.state]
    · have other : t.id ≠ id := fun equal => same (equal.symm.trans admitted.id)
      simp [status, found, other]

theorem Loader.Spawning.dead {ports : List UInt16} {spawned : Option Nat} (ran : Loader.Spawning k ports spawned k')
    (fresh : k.sched.lookup k.nextId = none) (x : Nat) : Dead k'.core x ↔ Dead k.core x :=
  dead_congr (by rw [ran.ipc]) (ran.sameDead fresh) x

private theorem dead_createEndpoint {owner : Nat} (alive : c.sched.status owner ≠ some .zombie)
    (same : SameRotation c.sched c'.sched) (created : c'.ipc = (c.ipc.createEndpoint owner).2) (x : Nat) :
    Dead c' x ↔ Dead c x := by
  have owners : c'.ipc.owner x = if x = c.ipc.endpoints.length then some owner else c.ipc.owner x := by
    simp only [Ipc.owner, created, Ipc.createEndpoint, getElem?_append_single]
    split <;> rfl
  simp only [Dead, owners, same.status]
  by_cases last : x = c.ipc.endpoints.length
  · simp [last, Ipc.owner, alive]
  · simp [last]

private theorem target_syscall {badge : UInt32} {regs : SavedRegs} (current : k.sched.current = some self)
    (number : regs.eax = Syscall.sysSend ∨ regs.eax = Syscall.sysRecv) (holds : Holds k self regs.ebx node)
    (live : resolve k.caps node = some (.endpoint endpoint, badge)) : target k (.syscall regs) = some endpoint := by
  obtain ⟨task, found, named⟩ := holds
  simp [target, number, Kernel.runningTask, current, found, named, live]

theorem toNat_line (line : Fin 14) : (UInt32.ofNat (line.val + 2)).toNat = line.val + 2 := by
  have := line.isLt
  simp
  omega

private theorem target_interrupt {irq : UInt32} {pic : Pic}
    (interrupt : (∃ scancode, e = .keyboard scancode ∧ irq = 1 ∧ pic = k.core.pic) ∨
      ∃ line, e = .irq line ∧ irq = UInt32.ofNat (line.val + 2) ∧ pic = k.core.pic.mask irq.toUInt8)
    (handler : Ipc.handlerFor k.core irq.toNat = some endpoint) : target k e = some endpoint := by
  rcases interrupt with ⟨scancode, rfl, rfl, _⟩ | ⟨line, rfl, rfl, _⟩
  · exact handler
  · rw [toNat_line] at handler
    exact handler

theorem Did.unhung (did : Did k e k') (booked : k.Booked) (unhung : Unhung k.core) (careful : Careful k e) :
    Unhung k'.core := by
  cases did with
  | send current number holds live _ sends =>
    refine (unhung_arrive unhung _ _).wait (fun x => sends.waits_on) (sends.dead (arrive_booked booked _ _).1) ?_
    rw [dead_arrive]
    exact careful _ (target_syscall current (.inl number) holds live)
  | @recv _ _ _ _ _ _ blocking current _ waiting holds live receives =>
    have dead := receives.dead (arrive_booked booked _ _).1 ((current_arrive ..).trans current)
    cases blocking with
    | false => exact (unhung_arrive unhung _ _).keep (fun x waits => (receives.waits_on waits).resolve_right nofun) dead
    | true =>
      refine (unhung_arrive unhung _ _).wait (fun x waits => (receives.waits_on waits).imp_right And.right) dead ?_
      rw [dead_arrive]
      exact careful _ (target_syscall current (.inr (waiting rfl)) holds live)
  | notify interrupt handler notifies =>
    exact Unhung.wait (c := { k.core with pic := _ }) unhung (fun x => notifies.waits_on) (notifies.dead booked.core)
      (careful _ (target_interrupt interrupt handler))
  | exit current exits => exact exits.unhung (arrive_booked booked _ _).1 (unhung_arrive unhung _ _)
  | fault _ exits => exact exits.unhung booked.core unhung
  | tick ran => exact unhung.keep (fun x waits => waits) (dead_congr rfl (tick_sameDead ran booked.core))
  | @yield self regs _ _ ran =>
    have same := (reply_same k self fun _ => regs).trans (reply_same (arrive k self regs) self (Ipc.setEax 0))
    exact unhung.keep (fun x waits => waits)
      (dead_congr rfl (same.sameDead.trans (tick_sameDead ran (Consistent.same booked.core same))))
  | @spawn self regs _ k1 _ _ ran =>
    refine (unhung_arrive unhung self regs).keep (fun x waits => ?_) fun x => ?_
    · rw [← ran.ipc]
      exact waits
    · refine (dead_congr ?_ (reply_same k1 self _).sameDead x).trans (ran.dead (lookup_arrive_none booked.fresh _ _) x)
      rfl
  | @endpointCreate self slot regs s current _ ran =>
    have running := (booked.core.agree.running self).mpr current
    refine unhung.keep (fun x waits => waits) (dead_createEndpoint ?_ (installed_same ran rfl _) rfl)
    simp [running]
  | answer _ f =>
    exact unhung.quiet (fun _ waits => waits) rfl ((reply_same ..).trans (reply_same ..))
  | register _ _ _ _ _ =>
    refine unhung.quiet (fun _ waits => waits) ?_ ((reply_same ..).trans (reply_same ..))
    rfl
  | map _ _ _ _ _ _ _ =>
    refine unhung.quiet (fun _ waits => waits) ?_ ((reply_same ..).trans (reply_same ..))
    rfl
  | revoke _ _ _ =>
    refine unhung.quiet (fun _ waits => waits) ?_ ((reply_same ..).trans (reply_same ..))
    rfl
  | mint _ _ _ _ ran =>
    refine unhung.quiet (fun _ waits => waits) ?_ (installed_same ran rfl _)
    rfl
  | alloc _ _ _ _ _ _ ran =>
    refine unhung.quiet (fun _ waits => waits) ?_ (installed_same ran rfl _)
    rfl
  | quiet _ => exact unhung
  | store _ _ => exact unhung

theorem BootDid.current {c : BootCall} (did : BootDid k c k') (other : c ≠ .start) :
    k'.sched.current = k.sched.current := by
  cases did with
  | spawn ran =>
    cases ran with
    | refused => rfl
    | gaveUp _ _ => rfl
    | loaded _ _ admitted _ _ _ _ => exact admitted.current
  | grant ran => exact (SameRotation.installCapFor ran).current
  | infoPage _ ran => exact (SameRotation.installCapFor ran).current
  | start _ => exact absurd rfl other
  | _ => rfl

theorem Kernel.Booked.nobody_exited (booked : k.Booked) (early : k.sched.current = none) (id : Nat) :
    k.sched.status id ≠ some .zombie := by
  intro zombie
  obtain ⟨task, found, exited⟩ := Option.map_eq_some_iff.mp zombie
  rw [(booked.early early).2 task (find_mem Task.id found)] at exited
  cases exited

/-- A step revives nobody. -/
theorem Did.exited (did : Did k e k') (booked : k.Booked) {id : Nat} (zombie : k.sched.status id = some .zombie) :
    k'.sched.status id = some .zombie := by
  have answers : ∀ (self : Nat) (regs : SavedRegs) (f : SavedRegs → SavedRegs),
      SameRotation k.sched (reply (arrive k self regs) self f).sched := by
    intro self regs f
    exact (reply_same ..).trans (reply_same ..)
  have arrived : ∀ (self : Nat) (regs : SavedRegs), SameDead k.sched (arrive k self regs).sched := by
    intro self regs
    exact (SameRotation.writeRegs ..).sameDead
  -- only an exit changes who is dead, and it adds to them
  have kept : ∀ {s : Scheduler}, SameDead k.sched s → s.status id = some .zombie := fun same => (same id).mpr zombie
  cases did with
  | answer _ f => exact kept (answers _ _ f).sameDead
  | tick ran => exact kept (tick_sameDead ran booked.core)
  | @yield self regs _ _ ran =>
    have same := answers self regs (Ipc.setEax 0)
    exact kept (same.sameDead.trans (tick_sameDead ran (Consistent.same booked.core same)))
  | exit _ exits =>
    obtain ⟨_, _, exited⟩ := exits.exited (arrive_booked booked _ _).1
    exact (exited id).mpr (.inl (kept (arrived _ _)))
  | fault _ exits =>
    obtain ⟨_, _, exited⟩ := exits.exited booked.core
    exact (exited id).mpr (.inl zombie)
  | send _ _ _ _ _ sends => exact kept ((arrived _ _).trans (sends.sameDead (arrive_booked booked _ _).1))
  | recv current _ _ _ _ receives =>
    exact kept ((arrived _ _).trans (receives.sameDead (arrive_booked booked _ _).1 ((current_arrive ..).trans current)))
  | register _ _ _ _ _ => exact kept (answers _ _ _).sameDead
  | map _ _ _ _ _ _ _ => exact kept (answers _ _ _).sameDead
  | spawn _ _ ran =>
    have spawned := ran.sameDead (lookup_arrive_none booked.fresh _ _)
    exact kept (((arrived _ _).trans spawned).trans (reply_same ..).sameDead)
  | endpointCreate _ _ ran => exact kept (installed_same ran rfl _).sameDead
  | mint _ _ _ _ ran => exact kept (installed_same ran rfl _).sameDead
  | revoke _ _ _ => exact kept (answers _ _ _).sameDead
  | alloc _ _ _ _ _ _ ran => exact kept (installed_same ran rfl _).sameDead
  | quiet _ => exact zombie
  | notify _ _ notifies => exact kept (notifies.sameDead booked.core)
  | store _ _ => exact zombie

theorem BootDid.unhung {c : BootCall} (did : BootDid k c k') (booked : k.Booked) (early : k.sched.current = none)
    (allowed : c.Allowed k) : Unhung k'.core := by
  have alive : ∀ id, k'.sched.status id ≠ some .zombie := by
    have booked' := did.booked booked early allowed
    by_cases starts : c = .start
    · subst starts
      cases did with
      | start ran =>
        obtain ⟨first, rest, _, _, _, _, states, _⟩ := switchToNext_eq_ok ran
        intro id
        by_cases same : id = first
        · simp [Kernel.setSched, states, same]
        · have := booked.nobody_exited early id
          simpa [Kernel.setSched, states, same] using this
    · exact booked'.nobody_exited ((did.current starts).trans early)
  exact fun x _ ⟨id, _, zombie⟩ => alive id zombie

private theorem notify_hangs {irq data : UInt32} (booked : c.Booked) (nobody : ¬c.ipc.Waits endpoint)
    (dead : Dead c endpoint) (notifies : Ipc.Notifies c endpoint irq data c') : c'.ipc.Waits endpoint ∧ Dead c' endpoint := by
  refine ⟨?_, (notifies.dead booked endpoint).mpr dead⟩
  cases notifies with
  | handed found _ =>
    obtain ⟨member, same, _⟩ := takeFirst_mem found
    exact absurd (.inl ⟨_, member, of_decide_eq_true same⟩) nobody
  | queued _ => exact .inr (.inr ⟨_, List.mem_append_right _ (List.mem_singleton.mpr rfl), rfl⟩)

private theorem send_hangs {msg : UInt32 × UInt32 × UInt32} {transfer : Option Nat}
    (booked : c.Booked) (nobody : ¬c.ipc.Waits endpoint) (dead : Dead c endpoint)
    (sends : Ipc.Sends c self endpoint msg transfer c') : c'.ipc.Waits endpoint ∧ Dead c' endpoint := by
  refine ⟨?_, (sends.dead booked endpoint).mpr dead⟩
  cases sends with
  | handed found _ _ =>
    obtain ⟨member, same, _⟩ := takeFirst_mem found
    exact absurd (.inl ⟨_, member, of_decide_eq_true same⟩) nobody
  | waits _ _ => exact .inr (.inl ⟨_, List.mem_append_right _ (List.mem_singleton.mpr rfl), rfl⟩)

private theorem recv_hangs (booked : c.Booked) (current : c.sched.current = some self)
    (nobody : ¬c.ipc.Waits endpoint) (dead : Dead c endpoint) (ran : Ipc.recv c self endpoint = .ok c') :
    c'.ipc.Waits endpoint ∧ Dead c' endpoint := by
  have receives := Ipc.recv_receives ran
  refine ⟨?_, (receives.dead booked current endpoint).mpr dead⟩
  obtain ⟨⟨delivered, c1⟩, tried, ran⟩ := bind_eq_ok.mp ran
  have took := Ipc.tryDeliver_takes tried
  rw [← acknowledge_waits c endpoint] at nobody
  cases took with
  | message found _ _ =>
    obtain ⟨member, same, _⟩ := takeFirst_mem found
    exact absurd (.inr (.inl ⟨_, member, of_decide_eq_true same⟩)) nobody
  | interrupt _ found =>
    obtain ⟨member, same, _⟩ := takeFirst_mem found
    exact absurd (.inr (.inr ⟨_, member, of_decide_eq_true same⟩)) nobody
  | nothing _ _ =>
    obtain ⟨⟨id, s⟩, _, ran⟩ := bind_eq_ok.mp ran
    cases ran
    exact .inl ⟨_, List.mem_append_right _ (List.mem_singleton.mpr rfl), rfl⟩

/-- A step that turns to an endpoint whose owner has exited leaves something waiting there: nobody waits there
    already, so nothing can be handed over. -/
theorem careless_hangs (booked : k.Booked) (unhung : Unhung k.core) (ran : step k e = .ok k') (careless : ¬Careful k e) :
    ¬Unhung k'.core := by
  simp only [Careful, not_forall, not_not] at careless
  obtain ⟨endpoint, targeted, dead⟩ := careless
  suffices hangs : k'.core.ipc.Waits endpoint ∧ Dead k'.core endpoint from fun after => after endpoint hangs.1 hangs.2
  have nobody : ¬k.core.ipc.Waits endpoint := fun waits => unhung endpoint waits dead
  cases e with
  | syscall regs =>
    simp only [target] at targeted
    split at targeted
    · rename_i number
      split at targeted
      · rename_i endpoint' badge resolved
        cases targeted
        obtain ⟨node, named, live⟩ := Option.bind_eq_some_iff.mp resolved
        obtain ⟨task, running, slot⟩ := Option.bind_eq_some_iff.mp named
        obtain ⟨self, current, found⟩ := Kernel.runningTask_eq_some running
        have cap : Syscall.resolveCurrentCap (arrive k self regs) regs.ebx = .ok (some (.endpoint endpoint, badge)) := by
          rw [resolveCurrentCap_arrive_eq current found, slot, Option.bind_some, live]
        have booked' := (arrive_booked booked self regs).1
        have here := (current_arrive k self regs).trans current
        rcases number with number | number
        · change Syscall.dispatch k regs = .ok k' at ran
          rw [dispatch_send current number] at ran
          obtain ⟨cap', resolved', ran⟩ := bind_eq_ok.mp ran
          cases cap.symm.trans resolved'
          obtain ⟨⟨transfer, caps⟩, _, ran⟩ := bind_eq_ok.mp ran
          obtain ⟨core, sent, ran⟩ := bind_eq_ok.mp ran
          cases ran
          exact send_hangs booked' nobody ((dead_arrive ..).mpr dead) (Ipc.send_sends sent)
        · change Syscall.dispatch k regs = .ok k' at ran
          rw [dispatch_recv current number] at ran
          obtain ⟨cap', resolved', ran⟩ := bind_eq_ok.mp ran
          cases cap.symm.trans resolved'
          obtain ⟨core, received, ran⟩ := bind_eq_ok.mp ran
          cases ran
          exact recv_hangs booked' here nobody ((dead_arrive ..).mpr dead) received
      · cases targeted
    · cases targeted
  | keyboard scancode =>
    obtain ⟨core, handled, ran⟩ := bind_eq_ok.mp ran
    cases ran
    rw [Ipc.keyboard, show Ipc.handlerFor k.core 1 = some endpoint from targeted] at handled
    exact notify_hangs booked.core nobody dead (Ipc.notifyInterrupt_notifies handled)
  | irq line =>
    obtain ⟨core, handled, ran⟩ := bind_eq_ok.mp ran
    cases ran
    have registered : Ipc.handlerFor k.core (UInt32.ofNat (line.val + 2)).toNat = some endpoint := by
      rw [toNat_line]
      exact targeted
    rw [Ipc.dispatch, registered] at handled
    have notifies := Ipc.notifyInterrupt_notifies handled
    suffices hangs : (Ipc.Waits core.ipc endpoint) ∧ Dead core endpoint from hangs
    refine notify_hangs ?_ ?_ ?_ notifies
    · exact booked.core
    · exact nobody
    · exact dead
  | tick => cases targeted
  | fault => cases targeted
  | store _ _ => cases targeted

end Steps

/-! ## Runs -/

section Runs
variable {p : Platform} {h : List Record} {k : Kernel}

/-- No step of the history turned to an endpoint whose owner had exited. -/
def Carefully (h : List Record) : Prop := ∀ r ∈ h, ∀ e, r.action = .event e → Careful r.pre e

private theorem bringUp_unhung (up : bringUp p = .ok k) : Unhung k.core := by
  obtain ⟨total, mm, mm', -, -, -, -, rfl⟩ := bringUp_eq_ok up
  rintro endpoint (⟨_, member, _⟩ | ⟨_, member, _⟩ | ⟨_, member, _⟩) <;> cases member

theorem Wiring.unhung (wiring : Wiring p h k) (carefully : Carefully h) : Unhung k.core ∧ ∀ r ∈ h, Unhung r.post.core := by
  refine wiring.rule (P := fun h k => Carefully h → Unhung k.core ∧ ∀ r ∈ h, Unhung r.post.core) ?_ ?_ ?_ carefully
  · exact fun k up _ => ⟨bringUp_unhung up, fun _ member => by cases member⟩
  · intro h k k' c _ ih booked early allowed did carefully
    have before := ih fun r member => carefully r (List.mem_append_left _ member)
    have after := did.unhung booked early allowed
    exact ⟨after, List.forall_mem_append.mpr ⟨before.2, List.forall_mem_singleton.mpr after⟩⟩
  · intro h k k' e _ ih booked _ did carefully
    have before := ih fun r member => carefully r (List.mem_append_left _ member)
    have after := did.unhung booked before.1 (carefully _ (List.mem_append_right _ (List.mem_singleton.mpr rfl)) e rfl)
    exact ⟨after, List.forall_mem_append.mpr ⟨before.2, List.forall_mem_singleton.mpr after⟩⟩

theorem Wiring.carefully (wiring : Wiring p h k) (clean : ∀ r ∈ h, Unhung r.post.core) : Unhung k.core ∧ Carefully h := by
  induction wiring with
  | bringUp up => exact ⟨bringUp_unhung up, fun _ member => by cases member⟩
  | boot before early allowed ran ih =>
    obtain ⟨old, new⟩ := List.forall_mem_append.mp clean
    refine ⟨new _ (List.mem_singleton.mpr rfl), List.forall_mem_append.mpr ⟨(ih old).2, ?_⟩⟩
    exact List.forall_mem_singleton.mpr fun _ action => by cases action
  | event before may ran ih =>
    obtain ⟨old, new⟩ := List.forall_mem_append.mp clean
    have after := new _ (List.mem_singleton.mpr rfl)
    refine ⟨after, List.forall_mem_append.mpr ⟨(ih old).2, List.forall_mem_singleton.mpr fun e action => ?_⟩⟩
    cases action
    exact by_contra fun careless => careless_hangs before.booked (ih old).1 ran careless after

/-- A task that had exited in some record has exited for good: it is neither running nor ready, and waits for nothing. -/
def StayExited (h : List Record) (k : Kernel) : Prop :=
  ∀ r ∈ h, ∀ id, r.pre.sched.status id = some .zombie → k.sched.status id = some .zombie ∧
    k.sched.current ≠ some id ∧ id ∉ k.sched.readyQueue ∧ id ∉ k.core.ipc.waiting

/-- In every run exited tasks never come back. -/
theorem exited_tasks_stay (run : Run p) : StayExited run.history run.kernel := by
  have stays := run.wiring.rule
    (P := fun h k => ∀ r ∈ h, ∀ id, r.pre.sched.status id = some .zombie → k.sched.status id = some .zombie) ?_ ?_ ?_
  · intro r member id zombie
    have now := stays r member id zombie
    have agree := run.wiring.booked.core.agree
    exact ⟨now, fun runs => by simp [(agree.running id).mpr runs] at now, fun ready => by simp [(agree.ready id).mp ready] at now,
      fun waits => by simp [(agree.blocked id).mp waits] at now⟩
  · intro k _
    exact List.forall_mem_nil _
  · intro h k k' c _ earlier booked early _ _
    -- before the scheduler starts nobody has exited
    refine List.forall_mem_append.mpr ⟨fun r member id zombie => ?_, List.forall_mem_singleton.mpr fun id zombie => ?_⟩
    · exact absurd (earlier r member id zombie) (booked.nobody_exited early id)
    · exact absurd zombie (booked.nobody_exited early id)
  · intro h k k' e _ earlier booked _ did
    refine List.forall_mem_append.mpr ⟨fun r member id zombie => ?_, List.forall_mem_singleton.mpr fun id zombie => ?_⟩
    · exact did.exited booked (earlier r member id zombie)
    · exact did.exited booked zombie

end Runs

/-- In a run, nothing ever waits on an endpoint whose owner has exited exactly if no step turns to such an endpoint. -/
theorem unhung_iff_careful {p : Platform} (run : Run p) : (∀ r ∈ run.history, Unhung r.post.core) ↔ Carefully run.history :=
  ⟨fun clean => (run.wiring.carefully clean).2, fun carefully => (run.wiring.unhung carefully).2⟩

/-- The name service exits, and the next task that sends to it waits forever. -/
theorem sender_hangs_on_exited : ∃ run : Run smallMachine, ¬∀ r ∈ run.history, Unhung r.post.core := by
  obtain ⟨b, boot, seen⟩ := smallMachine_boots
  simp only [Booting.observations, Bool.and_eq_true] at seen
  obtain ⟨run, seen⟩ := Booting.observe_run boot seen.1.1.1
  refine ⟨run, fun clean => ?_⟩
  simp only [Bool.and_eq_true, List.any_eq_true, beq_iff_eq] at seen
  obtain ⟨⟨⟨w, waits, endpoint⟩, owner⟩, exited⟩ := seen
  exact (run.wiring.carefully clean).1 0 (.inr (.inl ⟨w, waits, endpoint⟩)) ⟨1, owner, exited⟩

end Pcern

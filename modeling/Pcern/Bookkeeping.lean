import Pcern.Steps

/-!
Scheduler and IPC agree. A task is blocked exactly while it waits in one of the
two queues of `ipc.rs`, ready exactly while it is in the ready queue, and running
exactly when it is current. The operations of `ipc.rs` keep this and never fail:
whoever they look up or wake is there and blocked, and there is always another
task to run, because the idle task neither blocks nor exits.
-/
namespace Pcern
open Keyed Loops Scheduler

/-- Those who wait in one of the queues. -/
def Ipc.waiting (ipc : Ipc) : List Nat :=
  ipc.pendingRecvs.map PendingRecv.taskId ++ ipc.pendingSends.map PendingSend.taskId

section
variable {ipc : Ipc}

/-- A receiver is taken from the queue. -/
theorem Ipc.waiting_takeRecv {p : PendingRecv → Bool} {matched : PendingRecv} {rest : List PendingRecv}
    (found : takeFirst p ipc.pendingRecvs = some (matched, rest)) :
    ipc.waiting.Perm (matched.taskId :: (rest.map PendingRecv.taskId ++ ipc.pendingSends.map PendingSend.taskId)) :=
  ((takeFirst_perm found).map PendingRecv.taskId).append_right _

/-- A sender is taken from the queue. -/
theorem Ipc.waiting_takeSend {p : PendingSend → Bool} {matched : PendingSend} {rest : List PendingSend}
    (found : takeFirst p ipc.pendingSends = some (matched, rest)) :
    ipc.waiting.Perm (matched.taskId :: (ipc.pendingRecvs.map PendingRecv.taskId ++ rest.map PendingSend.taskId)) :=
  (((takeFirst_perm found).map PendingSend.taskId).append_left _).trans List.perm_middle

end

/-- Scheduler and IPC agree. -/
def Core.Booked (c : Core) : Prop := c.sched.Consistent c.ipc.waiting

/-- The books stay in order, and none but `mover` ceases to be runnable. -/
structure Advances (c c' : Core) (mover : Nat) : Prop where
  booked : c'.Booked
  moves : Moves c.sched c'.sched mover

namespace Ipc
variable {c c' : Core} {self endpoint : Nat}

private theorem installCapFor_total {s : Scheduler} {id : Nat} {state : TaskState} (here : s.status id = some state) (node : Nat) :
    ∃ slot s', s.installCapFor id node = .ok (slot, s') := by
  obtain ⟨i, placed⟩ := indexOf_of_status here
  obtain ⟨task, found⟩ := Option.isSome_iff_exists.mp (lookup_isSome_iff.mpr ⟨i, placed⟩)
  rw [lookup_eq_getElem placed] at found
  exact ⟨_, _, bind_eq_ok.mpr ⟨i, placed, by simp only [found]; rfl⟩⟩

private theorem installTransfer_total {s : Scheduler} {id : Nat} {state : TaskState} (here : s.status id = some state)
    (transfer : Option Nat) :
    ∃ slot s', installTransfer s id transfer = .ok (slot, s') ∧ SameRotation s s' ∧ SameTasks s s' := by
  cases transfer with
  | none => exact ⟨0, s, rfl, .refl s, .refl s⟩
  | some node =>
    obtain ⟨slot, s', ran⟩ := installCapFor_total here node
    exact ⟨slot, s', ran, .installCapFor ran, .installCapFor ran⟩

private theorem deliver_total {s t : Scheduler} {id : Nat} {waiting rest : List Nat} (consistent : s.Consistent waiting)
    (same : SameRotation s t) (tasks : SameTasks s t) (split : waiting.Perm (id :: rest)) (mover : Nat) :
    ∃ s', t.wake id = .ok s' ∧ s'.Consistent rest ∧ Moves s s' mover := by
  obtain ⟨s', woke, after⟩ := (consistent.same same).wake split
  exact ⟨s', woke, after, (same.moves tasks mover).trans (.wake woke mover)⟩

/-- A send succeeds and keeps the books. -/
private theorem send_total (booked : c.Booked) (current : c.sched.current = some self) (more : c.sched.readyQueue ≠ [])
    (endpoint : Nat) (msg : UInt32 × UInt32 × UInt32) (transfer : Option Nat) :
    ∃ c', send c self endpoint msg transfer = .ok c' ∧ Advances c c' self := by
  unfold send
  cases found : takeFirst (fun r => decide (r.endpoint = endpoint)) c.ipc.pendingRecvs with
  | some taken =>
    obtain ⟨matched, rest⟩ := taken
    have split := waiting_takeRecv found
    have blocked := (booked.agree.blocked matched.taskId).mp (split.mem_iff.mpr (by simp))
    obtain ⟨slot, s1, installed, same, tasks⟩ := installTransfer_total blocked transfer
    obtain ⟨s2, woke, consistent, moves⟩ := deliver_total booked
      ((same.trans (.writeRegs s1 matched.taskId (messageRegs self msg slot))).trans (.writeRegs _ self (setEax 0)))
      ((tasks.trans (.writeRegs s1 matched.taskId (messageRegs self msg slot))).trans (.writeRegs _ self (setEax 0)))
      split self
    exact ⟨_, bind_eq_ok.mpr ⟨_, installed, bind_eq_ok.mpr ⟨_, woke, rfl⟩⟩, consistent, moves⟩
  | none =>
    obtain ⟨s, left, consistent⟩ := Consistent.block booked current more
    refine ⟨_, bind_eq_ok.mpr ⟨_, left, rfl⟩, consistent.perm ?_, .leave left⟩
    simpa [Ipc.waiting] using (List.perm_append_singleton self (c.ipc.pendingRecvs.map PendingRecv.taskId ++
      c.ipc.pendingSends.map PendingSend.taskId))

/-- So does looking for something to receive. -/
private theorem tryDeliver_total (booked : c.Booked) (current : c.sched.current = some self) (endpoint : Nat) :
    ∃ delivered c', tryDeliver c endpoint self = .ok (delivered, c') ∧ Advances c c' self ∧
      (delivered = false → c' = c) := by
  unfold tryDeliver
  cases found : takeFirst (fun s => decide (s.endpoint = endpoint)) c.ipc.pendingSends with
  | some taken =>
    obtain ⟨matched, rest⟩ := taken
    have split := waiting_takeSend found
    have running := (booked.agree.running self).mpr current
    obtain ⟨slot, s1, installed, same, tasks⟩ := installTransfer_total running matched.transfer
    rw [← installTransferCurrent_eq current] at installed
    obtain ⟨s2, woke, consistent, moves⟩ := deliver_total booked
      ((same.trans (.writeRegs s1 self (messageRegs matched.taskId matched.msg slot))).trans
        (.writeRegs _ matched.taskId (setEax 0)))
      ((tasks.trans (.writeRegs s1 self (messageRegs matched.taskId matched.msg slot))).trans
        (.writeRegs _ matched.taskId (setEax 0)))
      split self
    exact ⟨true, _, bind_eq_ok.mpr ⟨_, installed, bind_eq_ok.mpr ⟨_, woke, rfl⟩⟩, ⟨consistent, moves⟩, nofun⟩
  | none =>
    cases queued : takeFirst (fun e => decide (e.endpoint = endpoint)) c.ipc.pendingIrqEvents with
    | some taken =>
      obtain ⟨event, rest⟩ := taken
      exact ⟨true, _, rfl, ⟨Consistent.same booked (.writeRegs c.sched self (interruptRegs event.irq event.data)),
        .writeRegs c.sched self _ self⟩, nofun⟩
    | none => exact ⟨false, c, rfl, ⟨booked, .refl _ _⟩, fun _ => rfl⟩

theorem acknowledge_booked (booked : c.Booked) (endpoint : Nat) : (acknowledge c endpoint).Booked := by
  simpa [Core.Booked, Ipc.waiting] using booked

private theorem recv_total (booked : c.Booked) (current : c.sched.current = some self) (more : c.sched.readyQueue ≠ [])
    (endpoint : Nat) : ∃ c', recv c self endpoint = .ok c' ∧ Advances c c' self := by
  have sched := acknowledge_sched c endpoint
  obtain ⟨delivered, c1, ran, advances, unchanged⟩ :=
    tryDeliver_total (acknowledge_booked booked endpoint) (by rw [sched, current]) endpoint
  have advances : Advances c c1 self := ⟨advances.booked, sched ▸ advances.moves⟩
  cases delivered with
  | true => exact ⟨c1, bind_eq_ok.mpr ⟨_, ran, rfl⟩, advances⟩
  | false =>
    cases unchanged rfl
    obtain ⟨s, left, consistent⟩ := Consistent.block advances.booked (by rw [sched, current]) (by rwa [sched])
    refine ⟨_, bind_eq_ok.mpr ⟨_, ran, bind_eq_ok.mpr ⟨_, left, rfl⟩⟩, consistent.perm ?_, ?_⟩
    · simp only [Ipc.waiting, List.map_append, List.append_assoc]
      exact List.perm_middle
    · have moves := Moves.leave left
      rwa [sched] at moves

private theorem tryRecv_total (booked : c.Booked) (current : c.sched.current = some self) (endpoint : Nat) :
    ∃ c', tryRecv c self endpoint = .ok c' ∧ Advances c c' self := by
  have sched := acknowledge_sched c endpoint
  obtain ⟨delivered, c1, ran, advances, _⟩ :=
    tryDeliver_total (acknowledge_booked booked endpoint) (by rw [sched, current]) endpoint
  have advances : Advances c c1 self := ⟨advances.booked, sched ▸ advances.moves⟩
  cases delivered with
  | true => exact ⟨c1, bind_eq_ok.mpr ⟨_, ran, rfl⟩, advances⟩
  | false =>
    refine ⟨_, bind_eq_ok.mpr ⟨_, ran, rfl⟩, ?_, advances.moves.trans (.writeRegs c1.sched self (setEax noMessage) self)⟩
    exact Consistent.same advances.booked (.writeRegs c1.sched self (setEax noMessage))

private theorem notifyInterrupt_total (booked : c.Booked) (endpoint : Nat) (irq data : UInt32) (mover : Nat) :
    ∃ c', notifyInterrupt c endpoint irq data = .ok c' ∧ Advances c c' mover := by
  unfold notifyInterrupt
  cases found : takeFirst (fun r => decide (r.endpoint = endpoint)) c.ipc.pendingRecvs with
  | some taken =>
    obtain ⟨matched, rest⟩ := taken
    have split := waiting_takeRecv found
    obtain ⟨s, woke, consistent, moves⟩ := deliver_total booked
      (.writeRegs c.sched matched.taskId (interruptRegs irq data)) (.writeRegs c.sched matched.taskId (interruptRegs irq data))
      split mover
    exact ⟨_, bind_eq_ok.mpr ⟨_, woke, rfl⟩, consistent, moves⟩
  | none => exact ⟨_, rfl, booked, .refl _ _⟩

/-- Everyone who waits on a dead endpoint is woken with an error. -/
private theorem retire_total {α : Type} (taskId endpoint : α → Nat) (dead : List Nat) (xs : List α) {s : Scheduler}
    {others : List Nat} (consistent : s.Consistent (xs.map taskId ++ others)) (mover : Nat) :
    ∃ s', retire taskId endpoint dead xs s = .ok (xs.filter fun x => !decide (endpoint x ∈ dead), s') ∧
      s'.Consistent ((xs.filter fun x => !decide (endpoint x ∈ dead)).map taskId ++ others) ∧ Moves s s' mover := by
  induction xs generalizing s others with
  | nil => exact ⟨s, rfl, consistent, .refl _ _⟩
  | cons x rest ih =>
    unfold retire
    by_cases retired : endpoint x ∈ dead
    · obtain ⟨s1, woke, consistent, moves⟩ := deliver_total consistent (.writeRegs s (taskId x) (setEax 0xFFFFFFFF))
        (.writeRegs s (taskId x) (setEax 0xFFFFFFFF)) (List.Perm.refl _) mover
      obtain ⟨s2, ran, consistent, moves'⟩ := ih consistent
      refine ⟨s2, ?_, ?_, moves.trans moves'⟩
      · rw [if_pos retired, List.filter_cons_of_neg (by simpa using retired)]
        exact bind_eq_ok.mpr ⟨s1, woke, ran⟩
      · rwa [List.filter_cons_of_neg (by simpa using retired)]
    · have moved : (rest.map taskId ++ taskId x :: others).Perm ((x :: rest).map taskId ++ others) := List.perm_middle
      obtain ⟨s1, ran, consistent, moves⟩ := ih (consistent.perm moved)
      refine ⟨s1, ?_, ?_, moves⟩
      · rw [if_neg retired, List.filter_cons_of_pos (by simpa using retired)]
        exact bind_eq_ok.mpr ⟨_, ran, rfl⟩
      · rw [List.filter_cons_of_pos (by simpa using retired)]
        exact consistent.perm List.perm_middle.symm

private theorem taskExited_total (booked : c.Booked) (id mover : Nat) : ∃ c', taskExited c id = .ok c' ∧ Advances c c' mover := by
  obtain ⟨s1, recvs, consistent, moves⟩ :=
    retire_total PendingRecv.taskId PendingRecv.endpoint (ownedBy c.ipc.endpoints id) c.ipc.pendingRecvs booked mover
  obtain ⟨s2, sends, consistent, moves'⟩ :=
    retire_total PendingSend.taskId PendingSend.endpoint (ownedBy c.ipc.endpoints id) c.ipc.pendingSends
      (consistent.perm List.perm_append_comm) mover
  exact ⟨_, bind_eq_ok.mpr ⟨_, recvs, bind_eq_ok.mpr ⟨_, sends, rfl⟩⟩, consistent.perm List.perm_append_comm,
    moves.trans moves'⟩

private theorem exitCurrent_total (booked : c.Booked) (current : c.sched.current = some self) (more : c.sched.readyQueue ≠ []) :
    ∃ c', exitCurrent c = .ok c' ∧ Advances c c' self := by
  obtain ⟨s, left, consistent⟩ := Consistent.exit booked current more
  obtain ⟨c', ran, advances⟩ := taskExited_total (c := { c with sched := s }) consistent self self
  exact ⟨c', bind_eq_ok.mpr ⟨_, left, ran⟩, advances.booked, (Moves.leave left).trans advances.moves⟩

end Ipc
/-! ## The whole kernel -/

/-- The bookkeeping of the kernel: scheduler and IPC agree, ids count up from 1, no more tasks exist than
    kernel stacks fit the heap, and once tasks run the idle task is among those that can. -/
structure Kernel.Booked (k : Kernel) : Prop where
  core : k.core.Booked
  count : k.nextId = k.sched.tasks.length + 1
  ids : ∀ t ∈ k.sched.tasks, 0 < t.id ∧ t.id < k.nextId
  room : k.sched.tasks.length ≤ 16
  idle : k.sched.current ≠ none → ∃ i, (k.sched.lookup i).map Task.entry = some .idle ∧ Runnable k.sched i
  early : k.sched.current = none → k.core.ipc.waiting = [] ∧ ∀ t ∈ k.sched.tasks, t.state = .ready

/-- The books are in order and some task runs. -/
structure Kernel.Live (k : Kernel) : Prop where
  booked : k.Booked
  running : k.sched.current ≠ none

def Stop.Fine (r : Stop) : Prop := r ≠ .unknownTask ∧ r ≠ .noCurrentTask ∧ r ≠ .noTaskToRun

structure Serving (k : Kernel) (id : Nat) : Prop where
  booked : k.Booked
  current : k.sched.current = some id
  user : (k.sched.lookup id).map Task.entry ≠ some .idle

section Kernels
variable {k k' : Kernel} {self : Nat}

/-- The next id is not in use. -/
theorem Kernel.Booked.fresh (booked : k.Booked) : k.sched.lookup k.nextId = none := by
  refine (find_eq_none_iff Task.id k.sched.tasks k.nextId).mpr fun member => ?_
  obtain ⟨t, inside, same⟩ := List.mem_map.mp member
  have := (booked.ids t inside).2
  omega

private theorem sameTasks_ids {s s' : Scheduler} (same : SameTasks s s') : s'.tasks.map Task.id = s.tasks.map Task.id := by
  have ids := congrArg (List.map Prod.fst) same
  rw [List.map_map, List.map_map] at ids
  exact ids

private theorem sameTasks_entry {s s' : Scheduler} (same : SameTasks s s') (i : Nat) :
    (s'.lookup i).map Task.entry = (s.lookup i).map Task.entry := by
  have entries := congrArg (Option.map fun identity => identity.2.1) (same.lookup i)
  simp only [Option.map_map] at entries
  exact entries

/-- What changes neither the rotation nor the queues keeps the books. -/
theorem Kernel.Booked.quiet (booked : k.Booked) (same : SameRotation k.sched k'.sched) (tasks : SameTasks k.sched k'.sched)
    (waiting : k'.core.ipc.waiting = k.core.ipc.waiting) (next : k'.nextId = k.nextId) : k'.Booked := by
  have states := same.states
  have length : k'.sched.tasks.length = k.sched.tasks.length := by simpa using congrArg List.length states
  have old : ∀ t ∈ k'.sched.tasks, ∃ t' ∈ k.sched.tasks, t'.id = t.id ∧ t'.state = t.state := by
    intro t member
    have listed : (t.id, t.state) ∈ k.sched.tasks.map fun t => (t.id, t.state) :=
      states ▸ List.mem_map.mpr ⟨t, member, rfl⟩
    obtain ⟨t', member', pair⟩ := List.mem_map.mp listed
    exact ⟨t', member', congrArg Prod.fst pair, congrArg Prod.snd pair⟩
  refine ⟨?_, by rw [next, length, booked.count], ?_, length ▸ booked.room, ?_, ?_⟩
  · rw [Core.Booked, waiting]
    exact Consistent.same booked.core same
  · intro t member
    obtain ⟨t', member', id, _⟩ := old t member
    rw [next, ← id]
    exact booked.ids t' member'
  · intro running
    obtain ⟨i, entry, runnable⟩ := booked.idle (same.current ▸ running)
    exact ⟨i, (sameTasks_entry tasks i).trans entry, by rwa [Runnable, same.status]⟩
  · intro early
    obtain ⟨empty, ready⟩ := booked.early (same.current ▸ early)
    refine ⟨waiting.trans empty, fun t member => ?_⟩
    obtain ⟨t', member', _, state⟩ := old t member
    exact state ▸ ready t' member'

theorem Kernel.Booked.moved (booked : k.Booked) (advances : Advances k.core k'.core self) (next : k'.nextId = k.nextId)
    (running : k'.sched.current ≠ none)
    (idle : ∃ i ≠ self, (k.sched.lookup i).map Task.entry = some .idle ∧ Runnable k.sched i) : k'.Booked := by
  have ids := sameTasks_ids advances.moves.tasks
  have length : k'.sched.tasks.length = k.sched.tasks.length := by simpa using congrArg List.length ids
  refine ⟨advances.booked, by rw [next, length, booked.count], ?_, length ▸ booked.room, ?_,
    fun none => absurd none running⟩
  · intro t member
    have listed : t.id ∈ k.sched.tasks.map Task.id := ids ▸ List.mem_map_of_mem member
    obtain ⟨t', member', same⟩ := List.mem_map.mp listed
    rw [← same, next]
    exact booked.ids t' member'
  · intro _
    obtain ⟨i, other, entry, runnable⟩ := idle
    exact ⟨i, (sameTasks_entry advances.moves.tasks i).trans entry, advances.moves.runnable i other runnable⟩

theorem Kernel.Booked.advance (booked : k.Booked) (running : k.sched.current ≠ none)
    (user : (k.sched.lookup self).map Task.entry ≠ some .idle) (advances : Advances k.core k'.core self)
    (next : k'.nextId = k.nextId) : k'.Booked := by
  obtain ⟨i, entry, runnable⟩ := booked.idle running
  exact booked.moved advances next (advances.moves.goesOn running) ⟨i, fun same => user (same ▸ entry), entry, runnable⟩

theorem reply_advances (booked : k.Booked) (id : Nat) (f : SavedRegs → SavedRegs) (mover : Nat) :
    Advances k.core (reply k id f).core mover :=
  ⟨Consistent.same booked.core (.writeRegs k.sched id f), .writeRegs k.sched id f mover⟩

section
variable (serving : Serving k self)
include serving

theorem Serving.running : k.sched.current ≠ none := by simp [serving.current]

theorem Serving.reply (id : Nat) (f : SavedRegs → SavedRegs) : Serving (reply k id f) self := by
  refine ⟨serving.booked.advance serving.running serving.user (reply_advances serving.booked id f self) rfl, ?_, ?_⟩
  · exact (SameRotation.writeRegs k.sched id f).current.trans serving.current
  · exact fun idle => serving.user ((sameTasks_entry (.writeRegs k.sched id f) self).symm.trans idle)

/-- While a user task runs, some task is ready. -/
theorem Serving.more : k.sched.readyQueue ≠ [] := by
  obtain ⟨i, entry, runnable⟩ := serving.booked.idle serving.running
  have agree := serving.booked.core.agree
  rcases runnable with ready | running
  · exact List.ne_nil_of_mem ((agree.ready i).mpr ready)
  · have same := (agree.running i).mp running
    rw [serving.current, Option.some.injEq] at same
    exact absurd (same ▸ entry) serving.user

theorem Serving.task : ∃ task, k.sched.lookup self = some task ∧ k.sched.currentTask = .ok task := by
  have running := (serving.booked.core.agree.running self).mpr serving.current
  obtain ⟨i, placed⟩ := indexOf_of_status running
  obtain ⟨task, found⟩ := Option.isSome_iff_exists.mp (lookup_isSome_iff.mpr ⟨i, placed⟩)
  exact ⟨task, found, currentTask_eq_ok.mpr ⟨self, serving.current, found⟩⟩

theorem Serving.capNode (slot : UInt32) : ∃ node, Syscall.currentCapNode k slot = .ok node := by
  obtain ⟨task, _, here⟩ := serving.task
  exact ⟨_, bind_eq_ok.mpr ⟨task, here, rfl⟩⟩

theorem Serving.resolve (slot : UInt32) : ∃ cap, Syscall.resolveCurrentCap k slot = .ok cap := by
  obtain ⟨node, named⟩ := serving.capNode slot
  exact ⟨_, bind_eq_ok.mpr ⟨node, named, rfl⟩⟩

theorem Serving.pageDir : ∃ dir, k.sched.currentPageDirPhys = .ok dir := by
  obtain ⟨task, _, here⟩ := serving.task
  exact ⟨_, bind_eq_ok.mpr ⟨task, here, rfl⟩⟩

theorem Serving.install (node : Nat) :
    ∃ slot s, k.sched.currentCspaceInstall node = .ok (slot, s) ∧ SameRotation k.sched s ∧ SameTasks k.sched s := by
  have running := (serving.booked.core.agree.running self).mpr serving.current
  obtain ⟨slot, s, ran⟩ := Ipc.installCapFor_total running node
  exact ⟨slot, s, by rw [currentCspaceInstall, serving.current]; exact ran, .installCapFor ran, .installCapFor ran⟩

theorem Serving.idling (k1 : Kernel) (same : SameRotation k.sched k1.sched)
    (tasks : SameTasks k.sched k1.sched) (waiting : k1.core.ipc.waiting = k.core.ipc.waiting) (next : k1.nextId = k.nextId)
    (f : SavedRegs → SavedRegs) : (Pcern.reply k1 self f).Live :=
  have same' := same.trans (.writeRegs k1.sched self f)
  ⟨serving.booked.quiet same' (tasks.trans (.writeRegs k1.sched self f)) waiting next,
    fun none => serving.running (same'.current.symm.trans none)⟩

end

/-! ## Every call is served -/

/-- A call ends with the books in order, or stops the kernel for a reason that is not the scheduler's. -/
abbrev Served (x : Except Stop Kernel) : Prop := Yields x Kernel.Live Stop.Fine

section
variable (serving : Serving k self)
include serving

theorem Serving.advanced {core : Core} (advances : Advances k.core core self)
    (caps : List Capabilities.CapNode) : ({ k with caps, core } : Kernel).Live :=
  ⟨serving.booked.advance serving.running serving.user advances rfl, advances.moves.goesOn serving.running⟩

theorem Serving.answered (f : SavedRegs → SavedRegs) : (Pcern.reply k self f).Live :=
  ⟨(serving.reply self f).booked, (serving.reply self f).running⟩

theorem Serving.send (regs : SavedRegs) : Served (Syscall.send k self regs) := by
  obtain ⟨cap, resolved⟩ := serving.resolve regs.ebx
  refine Yields.step resolved ?_
  split
  · rename_i endpoint badge
    have derived : ∃ result, Syscall.deriveTransfer k regs.edi = .ok result := by
      unfold Syscall.deriveTransfer
      split
      · exact ⟨_, rfl⟩
      · obtain ⟨node, named⟩ := serving.capNode regs.edi
        rw [named]
        dsimp only [bind, Except.bind]
        split <;> exact ⟨_, rfl⟩
    obtain ⟨⟨transfer, caps⟩, derived⟩ := derived
    obtain ⟨core, sent, advances⟩ :=
      Ipc.send_total serving.booked.core serving.current serving.more endpoint (regs.ecx, regs.edx, regs.esi) transfer
    exact Yields.step derived (Yields.step sent (serving.advanced advances caps))
  · exact serving.answered _

theorem Serving.recv (regs : SavedRegs) : Served (Syscall.recv k self regs) := by
  obtain ⟨cap, resolved⟩ := serving.resolve regs.ebx
  refine Yields.step resolved ?_
  split
  · rename_i endpoint badge
    obtain ⟨core, received, advances⟩ := Ipc.recv_total serving.booked.core serving.current serving.more endpoint
    exact Yields.step received (serving.advanced advances k.caps)
  · exact serving.answered _

theorem Serving.tryRecv (regs : SavedRegs) : Served (Syscall.tryRecv k self regs) := by
  obtain ⟨cap, resolved⟩ := serving.resolve regs.ebx
  refine Yields.step resolved ?_
  split
  · rename_i endpoint badge
    obtain ⟨core, received, advances⟩ := Ipc.tryRecv_total serving.booked.core serving.current endpoint
    exact Yields.step received (serving.advanced advances k.caps)
  · exact serving.answered _

theorem Serving.registerIrq (regs : SavedRegs) : Served (Syscall.registerIrq k self regs) := by
  obtain ⟨cap, resolved⟩ := serving.resolve regs.ebx
  refine Yields.step resolved ?_
  split
  · rename_i irq endpoint badge
    by_cases inside : irq.toNat < k.core.handlers.length
    · rw [show Ipc.register k.core irq endpoint = (true, _) from if_pos inside]
      exact serving.idling { k with core := { k.core with
        handlers := k.core.handlers.set irq.toNat (some endpoint), pic := k.core.pic.unmask irq.toUInt8 } }
        (.refl _) (.refl _) rfl rfl _
    · rw [show Ipc.register k.core irq endpoint = (false, _) from if_neg inside]
      exact serving.answered _
  · exact serving.answered _

theorem Serving.exit : Served (Syscall.exit k) := by
  obtain ⟨core, exited, advances⟩ := Ipc.exitCurrent_total serving.booked.core serving.current serving.more
  exact Yields.step exited (serving.advanced advances k.caps)

theorem Serving.yield : Served (Syscall.yield k self) := by
  have replied := serving.reply self (Ipc.setEax 0)
  obtain ⟨s, ticked, consistent⟩ := Consistent.tick replied.booked.core
  exact Yields.step ticked ⟨replied.booked.advance replied.running replied.user ⟨consistent, .tick ticked self⟩ rfl,
    (Moves.tick ticked self).goesOn replied.running⟩

end

private theorem mapPage_fine (mm : Mm) (dir virt phys : Nat) (u w : Bool) :
    Yields (Paging.mapPage mm dir virt phys u w) (fun _ => True) Stop.Fine := by
  cases ran : Paging.mapPage mm dir virt phys u w with
  | ok mm' => trivial
  | error r => rcases Paging.mapPage_eq_error ran with rfl | rfl | rfl <;> exact ⟨nofun, nofun, nofun⟩

private theorem mapPages_fine (mm : Mm) (dir virt phys pages : Nat) (w : Bool) :
    Yields (Paging.mapPages mm dir virt phys pages w) (fun _ => True) Stop.Fine :=
  forRange_yields (fun _ _ => True) trivial fun _ _ mid _ => mapPage_fine mid dir _ _ true w

section
variable (serving : Serving k self)
include serving

theorem Serving.sysMap (regs : SavedRegs) : Served (Syscall.sysMap k self regs) := by
  obtain ⟨cap, resolved⟩ := serving.resolve regs.ebx
  refine Yields.step resolved ?_
  split
  · rename_i physBase len writable badge
    have mapped : Yields (Syscall.mapMemory k physBase regs.ecx.toNat len writable) (fun _ => True) Stop.Fine := by
      unfold Syscall.mapMemory
      split
      · trivial
      · split
        · trivial
        · obtain ⟨dir, own⟩ := serving.pageDir
          exact Yields.step own (Yields.bind (mapPages_fine _ _ _ _ _ _) fun _ _ => trivial)
    exact Yields.bind mapped fun result _ => serving.idling { k with mm := result.2 } (.refl _) (.refl _) rfl rfl _
  · exact serving.answered _

theorem Serving.endpointCreate : Served (Syscall.endpointCreate k self) := by
  obtain ⟨slot, s, installed, same, tasks⟩ := serving.install k.caps.length
  exact Yields.step installed (serving.idling { k with
    caps := _, core := { k.core with ipc := (k.core.ipc.createEndpoint self).2, sched := s } } same tasks rfl rfl _)

theorem Serving.capMintBadged (regs : SavedRegs) : Served (Syscall.capMintBadged k self regs) := by
  obtain ⟨node, named⟩ := serving.capNode regs.ebx
  refine Yields.step named ?_
  split
  · exact serving.answered _
  · rename_i child caps _
    obtain ⟨slot, s, installed, same, tasks⟩ := serving.install child
    exact Yields.step installed (serving.idling { k.setSched s with caps } same tasks rfl rfl _)

theorem Serving.capRevoke (regs : SavedRegs) : Served (Syscall.capRevoke k self regs) := by
  obtain ⟨node, named⟩ := serving.capNode regs.ebx
  refine Yields.step named ?_
  split
  · exact serving.answered _
  · rename_i node
    exact serving.idling { k with caps := Capabilities.revoke k.caps node } (.refl _) (.refl _) rfl rfl _

theorem Serving.memAlloc (regs : SavedRegs) : Served (Syscall.memAlloc k self regs) := by
  dsimp only [Syscall.memAlloc]
  split
  · exact serving.answered _
  · split
    · exact serving.answered _
    · split
      · exact serving.answered _
      · rename_i phys frames _
        obtain ⟨dir, own⟩ := serving.pageDir
        refine Yields.step own (Yields.bind (mapPages_fine _ _ _ _ _ _) fun mm _ => ?_)
        obtain ⟨slot, s, installed, same, tasks⟩ := serving.install k.caps.length
        exact Yields.step installed (serving.idling { k.setSched s with mm, caps := _ } same tasks rfl rfl _)

theorem Serving.reboot (regs : SavedRegs) : Served (Syscall.reboot k self regs) := by
  obtain ⟨cap, resolved⟩ := serving.resolve regs.ebx
  refine Yields.step resolved ?_
  split
  · exact ⟨nofun, nofun, nofun⟩
  · exact serving.answered _

end

/-! ## Loading a program -/

private theorem newDirectory_fine (mm : Mm) : Yields (Paging.newDirectory mm) (fun _ => True) Stop.Fine := by
  unfold Paging.newDirectory
  split
  · exact ⟨nofun, nofun, nofun⟩
  · trivial

def Loader.Early.Fine : Loader.Early → Prop
  | .stop r => r.Fine
  | .giveUp _ => True

private theorem userPage_fine (mm : Mm) (dir virt : Nat) :
    Yields (Loader.userPage mm dir virt) (fun _ => True) Loader.Early.Fine := by
  unfold Loader.userPage
  split
  · trivial
  · rename_i phys frames _
    have fine := mapPage_fine { mm with frames } dir virt phys true true
    split
    · rename_i r stopped
      exact fine.of_error stopped
    · trivial

private theorem copyPage_fine (mm : Mm) (cr3 src dst len : Nat) :
    Yields (Loader.copyPage mm cr3 src dst len) (fun _ => True) Stop.Fine := by
  unfold Loader.copyPage
  dsimp only
  split
  · trivial
  · exact ⟨nofun, nofun, nofun⟩

private theorem fillPage_fine (mm : Mm) (cr3 len : Nat) (pagePhys : Nat → Nat) (i phys : Nat) :
    Yields (Loader.fillPage mm cr3 len pagePhys i phys) (fun _ => True) Stop.Fine := by
  unfold Loader.fillPage
  dsimp only
  split
  · exact Yields.bind (copyPage_fine mm cr3 _ phys _) fun _ _ => trivial
  · trivial

private theorem buildPages_fine (cr3 dir len : Nat) (pagePhys : Nat → Nat) (mm : Mm) :
    Yields (Loader.buildPages cr3 dir len pagePhys mm) (fun _ => True) Loader.Early.Fine := by
  have code : Yields (forRange (Loader.codePage cr3 dir len pagePhys) (max ((len + 4095) / 4096) 1) mm) (fun _ => True)
      Loader.Early.Fine := by
    refine forRange_yields (fun _ _ => True) trivial fun i _ mid _ => ?_
    refine Yields.bind (userPage_fine mid dir _) fun (phys, mid) _ => ?_
    have fine := fillPage_fine mid cr3 len pagePhys i phys
    dsimp only
    split
    · rename_i r stopped
      exact fine.of_error stopped
    · trivial
  refine code.bind fun mid _ => ?_
  refine forRange_yields (fun _ _ => True) trivial fun i _ mid _ => ?_
  exact Yields.bind (userPage_fine mid dir _) fun _ _ => trivial

private theorem readWord_fine (m : Bytes.Memory) (cr3 va : Nat) : Yields (Multiboot.readWord m cr3 va) (fun _ => True) Stop.Fine := by
  unfold Multiboot.readWord
  split
  · trivial
  · exact ⟨nofun, nofun, nofun⟩

private theorem module_fine (m : Bytes.Memory) (cr3 info index : Nat) :
    Yields (Multiboot.module m cr3 info index) (fun _ => True) Stop.Fine := by
  refine (readWord_fine m cr3 info).bind fun flags _ => ?_
  split
  · trivial
  · refine (readWord_fine m cr3 _).bind fun count _ => ?_
    split
    · trivial
    · exact (readWord_fine m cr3 _).bind fun _ _ => (readWord_fine m cr3 _).bind fun _ _ =>
        (readWord_fine m cr3 _).bind fun _ _ => trivial

private theorem spawnWithCodePages_fine (booked : k.Booked) (len : Nat) (pagePhys : Nat → Nat) (ports : List UInt16) :
    Yields (Loader.spawnWithCodePages k len pagePhys ports) (fun _ => True) Stop.Fine := by
  refine (newDirectory_fine k.mm).bind fun (dir, mid) _ => ?_
  have fine := buildPages_fine k.cr3 dir len pagePhys mid
  dsimp only
  split
  · rename_i r stopped
    exact fine.of_error stopped
  · trivial
  · rename_i mm _
    unfold Loader.addTask
    dsimp only
    split
    · exact ⟨nofun, nofun, nofun⟩
    · -- the new task is found again when it gets its capability
      refine Yields.step rfl ?_
      dsimp only
      split
      · trivial
      · refine Yields.step (bind_eq_ok.mpr ⟨_, installCapFor_spawn booked.fresh k.caps.length
          (t := Loader.newTask { k with mm } _ dir ports), rfl⟩) trivial

private theorem spawnFromModule_fine (booked : k.Booked) (index : Nat) (ports : List UInt16) :
    Yields (Loader.spawnFromModule k index ports) (fun _ => True) Stop.Fine := by
  unfold Loader.spawnFromModule
  split
  · exact ⟨nofun, nofun, nofun⟩
  · refine (module_fine _ _ _ _).bind fun found _ => ?_
    split
    · trivial
    · exact spawnWithCodePages_fine booked _ _ ports

private theorem spawnFromMemory_fine (booked : k.Booked) (grants : List Nat) (len : Nat) :
    Yields (Loader.spawnFromMemory k grants len) (fun _ => True) Stop.Fine := by
  unfold Loader.spawnFromMemory
  split
  · trivial
  · exact spawnWithCodePages_fine booked _ _ []

theorem Loader.Admitted.lookup {t : Task} (admitted : Loader.Admitted k k' t) {i : Nat} {task : Task}
    (found : k.sched.lookup i = some task) : k'.sched.lookup i = some task := by
  rw [admitted.sched, lookup_spawn, found, Option.some_or]

theorem Loader.Admitted.booked {t : Task} (admitted : Loader.Admitted k k' t) (booked : k.Booked) : k'.Booked := by
  have room := k'.mm.image.scarce _ admitted.room
  have count := booked.count
  refine ⟨?_, ?_, ?_, ?_, ?_, ?_⟩
  · rw [Core.Booked, admitted.ipc]
    have consistent := Consistent.spawn booked.core (admitted.id ▸ booked.fresh) admitted.state
    rwa [← admitted.sched] at consistent
  · simp [admitted.nextId, admitted.tasks, booked.count]
  · intro t' member
    rw [admitted.tasks, List.mem_append, List.mem_singleton] at member
    rw [admitted.nextId]
    rcases member with old | rfl
    · have := booked.ids t' old
      omega
    · rw [admitted.id]
      omega
  · rw [admitted.tasks, List.length_append, List.length_singleton]
    simp only [kernelStackSize, heapSize] at room
    omega
  · intro running
    obtain ⟨i, entry, runnable⟩ := booked.idle (admitted.current ▸ running)
    obtain ⟨task, found, idle⟩ := Option.map_eq_some_iff.mp entry
    refine ⟨i, by rw [admitted.lookup found]; exact congrArg some idle, ?_⟩
    rwa [Runnable, status, admitted.lookup found, ← found]
  · intro none
    obtain ⟨empty, ready⟩ := booked.early (admitted.current ▸ none)
    refine ⟨by rw [admitted.ipc, empty], fun t' member => ?_⟩
    rw [admitted.tasks, List.mem_append, List.mem_singleton] at member
    rcases member with old | rfl
    · exact ready t' old
    · exact admitted.state

theorem Loader.Spawning.booked {ports : List UInt16} {spawned : Option Nat} (ran : Loader.Spawning k ports spawned k')
    (booked : k.Booked) : k'.Booked := by
  cases ran with
  | refused => exact booked
  | gaveUp _ _ => exact booked.quiet (.refl _) (.refl _) rfl rfl
  | loaded _ _ admitted _ _ _ _ => exact admitted.booked booked

theorem Loader.Spawning.serving {ports : List UInt16} {spawned : Option Nat} (ran : Loader.Spawning k ports spawned k')
    (serving : Serving k self) : Serving k' self := by
  refine ⟨ran.booked serving.booked, ?_, ?_⟩
  · cases ran with
    | refused => exact serving.current
    | gaveUp _ _ => exact serving.current
    | loaded _ _ admitted _ _ _ _ => exact admitted.current.trans serving.current
  · cases ran with
    | refused => exact serving.user
    | gaveUp _ _ => exact serving.user
    | loaded _ _ admitted _ _ _ _ =>
      obtain ⟨task, found, _⟩ := serving.task
      have user := serving.user
      rw [found] at user
      rw [admitted.lookup found]
      exact user

theorem Serving.createTask (serving : Serving k self) (regs : SavedRegs) : Served (Syscall.createTask k self regs) := by
  refine (spawnFromModule_fine serving.booked _ []).ran.bind fun (spawned, k') ran => ?_
  have spawning := Loader.spawnFromModule_spawning serving.booked.fresh ran
  exact (spawning.serving serving).answered _

private theorem resolveGrants_total (serving : Serving k self) (slots : List UInt32) :
    ∃ grants, Syscall.resolveGrants k slots = .ok grants := by
  induction slots with
  | nil => exact ⟨_, rfl⟩
  | cons slot rest ih =>
    unfold Syscall.resolveGrants
    split
    · exact ⟨_, rfl⟩
    · obtain ⟨cap, resolved⟩ := serving.resolve slot
      obtain ⟨grants, more⟩ := ih
      rw [resolved, more]
      dsimp only [bind, Except.bind]
      split <;> exact ⟨_, rfl⟩

theorem Serving.spawnFromMemory (serving : Serving k self) (regs : SavedRegs) :
    Served (Syscall.spawnFromMemory k self regs) := by
  obtain ⟨grants, resolved⟩ := resolveGrants_total serving [regs.ebx, regs.ecx, regs.edx, regs.esi]
  refine Yields.step resolved ?_
  split
  · exact serving.answered _
  · refine (spawnFromMemory_fine serving.booked _ _).ran.bind fun (spawned, k') ran => ?_
    have spawning := Loader.spawnFromMemory_spawning serving.booked.fresh ran
    exact (spawning.serving serving).answered _

/-! ## Steps and boot calls -/

/-- Every system call is served. -/
theorem Serving.dispatch (serving : Serving k self) (regs : SavedRegs) : Served (Syscall.dispatch k regs) := by
  have arrived : Serving (arrive k self regs) self := serving.reply self fun _ => regs
  unfold Syscall.dispatch
  rw [serving.current]
  dsimp only
  refine Yields.ite arrived.exit ?_
  refine Yields.ite arrived.yield ?_
  refine Yields.ite (arrived.send regs) ?_
  refine Yields.ite (arrived.recv regs) ?_
  refine Yields.ite (arrived.tryRecv regs) ?_
  refine Yields.ite (arrived.answered _) ?_
  refine Yields.ite (arrived.registerIrq regs) ?_
  refine Yields.ite (arrived.sysMap regs) ?_
  refine Yields.ite (arrived.createTask regs) ?_
  refine Yields.ite arrived.endpointCreate ?_
  refine Yields.ite (arrived.capMintBadged regs) ?_
  refine Yields.ite (arrived.capRevoke regs) ?_
  refine Yields.ite (arrived.memAlloc regs) ?_
  refine Yields.ite (arrived.spawnFromMemory regs) ?_
  refine Yields.ite (arrived.reboot regs) ?_
  exact arrived.answered _

theorem Kernel.runningTask_eq_some {task : Task} (running : k.runningTask = some task) :
    ∃ id, k.sched.current = some id ∧ k.sched.lookup id = some task :=
  Option.bind_eq_some_iff.mp running

private theorem serving_of_enabled (booked : k.Booked) (may : (k.runningTask.any fun task => task.entry ≠ .idle) = true) :
    ∃ id, Serving k id := by
  obtain ⟨task, running, user⟩ := (Option.any_eq_true _ _).mp may
  obtain ⟨id, current, found⟩ := Kernel.runningTask_eq_some running
  refine ⟨id, booked, current, ?_⟩
  rw [found]
  simpa using user

theorem Kernel.Booked.interrupted (booked : k.Booked) (running : k.sched.current ≠ none) {core : Core}
    (advances : Advances k.core core k.nextId) : ({ k with core } : Kernel).Live :=
  ⟨booked.advance running (by simp [booked.fresh]) advances rfl, advances.moves.goesOn running⟩

/-- Every step that can happen is served. -/
theorem step_served (booked : k.Booked) {e : Event} (may : enabled k e = true) : Served (step k e) := by
  cases e with
  | syscall regs =>
    obtain ⟨id, serving⟩ := serving_of_enabled booked may
    exact serving.dispatch regs
  | tick =>
    obtain ⟨task, running⟩ := Option.isSome_iff_exists.mp may
    obtain ⟨id, current, _⟩ := Kernel.runningTask_eq_some running
    obtain ⟨s, ticked, consistent⟩ := Consistent.tick booked.core
    exact Yields.step ticked (booked.interrupted (by simp [current]) ⟨consistent, .tick ticked _⟩)
  | keyboard scancode =>
    obtain ⟨task, running⟩ := Option.isSome_iff_exists.mp may
    obtain ⟨id, current, _⟩ := Kernel.runningTask_eq_some running
    refine Yields.bind (P := fun core => Advances k.core core k.nextId) ?_
      fun core advances => booked.interrupted (by simp [current]) advances
    unfold Ipc.keyboard
    split
    · exact ⟨booked.core, .refl _ _⟩
    · rename_i endpoint _
      obtain ⟨core, ran, advances⟩ := Ipc.notifyInterrupt_total booked.core endpoint 1 scancode.toUInt32 k.nextId
      rw [ran]
      exact advances
  | irq line =>
    obtain ⟨task, running⟩ := Option.isSome_iff_exists.mp may
    obtain ⟨id, current, _⟩ := Kernel.runningTask_eq_some running
    refine Yields.bind (P := fun core => Advances k.core core k.nextId) ?_
      fun core advances => booked.interrupted (by simp [current]) advances
    unfold Ipc.dispatch
    split
    · exact ⟨booked.core, .refl _ _⟩
    · rename_i endpoint _
      obtain ⟨core, ran, advances⟩ := Ipc.notifyInterrupt_total
        (c := { k.core with pic := k.core.pic.mask (UInt32.ofNat (line.val + 2)).toUInt8 }) booked.core endpoint
        (UInt32.ofNat (line.val + 2)) 0 k.nextId
      rw [ran]
      exact ⟨advances.booked, advances.moves⟩
  | fault =>
    obtain ⟨id, serving⟩ := serving_of_enabled booked may
    exact serving.exit
  | store va value =>
    obtain ⟨id, serving⟩ := serving_of_enabled booked may
    change Served (userStore k va value)
    unfold userStore
    split
    · split
      · exact ⟨booked.quiet (.refl _) (.refl _) rfl rfl, serving.running⟩
      · exact serving.exit
    · exact serving.exit

theorem withoutTasks_booked (mm : Mm) (info : Nat) : (withoutTasks mm info).Booked where
  core := ⟨List.nodup_nil, RunQueue.agree_empty, nofun⟩
  count := rfl
  ids := nofun
  room := Nat.zero_le _
  idle running := absurd rfl running
  early _ := ⟨rfl, nofun⟩

theorem Kernel.Booked.start (booked : k.Booked) (early : k.sched.current = none)
    (idle : ∃ task ∈ k.sched.tasks, task.entry = .idle) {s : Scheduler} (ran : k.sched.start = .ok s) :
    (k.setSched s).Booked := by
  obtain ⟨empty, ready⟩ := booked.early early
  obtain ⟨task, member, entry⟩ := idle
  have found : k.sched.lookup task.id = some task := (find_eq_some_iff Task.id booked.core.ids).mpr ⟨member, rfl⟩
  have waits : k.sched.status task.id = some .ready := by rw [status, found, ← ready task member]; rfl
  obtain ⟨s', ran', consistent⟩ := Consistent.start booked.core early
    (List.ne_nil_of_mem ((booked.core.agree.ready task.id).mpr waits))
  cases ran.symm.trans ran'
  obtain ⟨first, _, _, _, _, current, _⟩ := switchToNext_eq_ok ran
  have running : s.current ≠ none := by simp [current]
  have older := booked.ids task member
  refine booked.moved ⟨consistent, .start ran k.nextId⟩ rfl running ⟨task.id, by omega, ?_, .inl waits⟩
  rw [found]
  exact congrArg some entry

/-- The calls of the boot keep the books. -/
theorem BootDid.booked {c : BootCall} (did : BootDid k c k') (booked : k.Booked) (early : k.sched.current = none)
    (allowed : c.Allowed k) : k'.Booked := by
  cases did with
  | spawn ran => exact ran.booked booked
  | createEndpoint => exact booked.quiet (.refl _) (.refl _) rfl rfl
  | grant ran => exact booked.quiet (.installCapFor ran) (.installCapFor ran) rfl rfl
  | setNameserviceEndpoint => exact booked.quiet (.refl _) (.refl _) rfl rfl
  | infoPage _ ran => exact booked.quiet (.installCapFor ran) (.installCapFor ran) rfl rfl
  | spawnIdle room =>
    exact Loader.Admitted.booked (t := Loader.newTask k .idle k.mm.image.bootDir [])
      ⟨rfl, rfl, rfl, rfl, rfl, rfl, rfl, rfl, rfl, room⟩ booked
  | start ran => exact booked.start early allowed ran

end Kernels

end Pcern

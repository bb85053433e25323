import Pcern.Runs

/-!
Who is there, and whose turn it is. The id, the program, the directory and the
ports of a task are fixed when it is created, no task is ever removed, and a call
or a step creates at most one, which gets the next id. The ready queue is served
from its front: others join it behind, and a task leaves it only to run. Its ports
are then handed over.
-/
namespace Pcern
open Keyed Loops Scheduler

/-- The tasks stay as they are, or one more comes, with the next id. -/
inductive Population (k k' : Kernel) : Prop where
  | same (tasks : SameTasks k.sched k'.sched) (next : k'.nextId = k.nextId)
  | more {t : Task} (tasks : k'.sched.tasks.map Task.identity = k.sched.tasks.map Task.identity ++ [t.identity])
      (id : t.id = k.nextId) (next : k'.nextId = k.nextId + 1)

/-- The same tasks, in the same states and the same order. -/
structure Still (s s' : Scheduler) : Prop where
  rotation : SameRotation s s'
  tasks : SameTasks s s'

/-- The same tasks; others have come behind those that were ready, and the same one runs. -/
structure Joined (s s' : Scheduler) : Prop where
  tasks : SameTasks s s'
  queue : s.readyQueue <+: s'.readyQueue
  current : s'.current = s.current
  gdt : s'.gdt = s.gdt

/-- The same tasks; the first that was ready runs, with its ports, and those behind it are still in order. -/
structure Advanced (s s' : Scheduler) : Prop where
  tasks : SameTasks s s'
  activates : Activates s s'
  front : ∃ next rest, s.readyQueue = next :: rest ∧ rest <+: s'.readyQueue ∧ s'.current = some next

/-- What may happen to the queue at once. -/
def Rotated (s s' : Scheduler) : Prop := Joined s s' ∨ Advanced s s'

/-- What a step does to the tasks: they take turns, or one more comes, behind all others and without ports. -/
inductive Scheduled (k k' : Kernel) : Prop where
  | turns (rotated : Rotated k.sched k'.sched) (next : k'.nextId = k.nextId)
  | admits {t : Task} (tasks : k'.sched.tasks.map Task.identity = k.sched.tasks.map Task.identity ++ [t.identity])
      (id : t.id = k.nextId) (next : k'.nextId = k.nextId + 1) (queue : k.sched.readyQueue <+: k'.sched.readyQueue)
      (current : k'.sched.current = k.sched.current) (gdt : k'.sched.gdt = k.sched.gdt) (ports : t.allowedPorts = [])

section Relations
variable {s s' s'' : Scheduler} {id : Nat}

theorem Still.refl (s : Scheduler) : Still s s := ⟨.refl s, .refl s⟩

theorem Still.trans (first : Still s s') (second : Still s' s'') : Still s s'' :=
  ⟨first.rotation.trans second.rotation, first.tasks.trans second.tasks⟩

theorem Still.writeRegs (s : Scheduler) (id : Nat) (f : SavedRegs → SavedRegs) : Still s (s.writeRegs id f) :=
  ⟨.writeRegs s id f, .writeRegs s id f⟩

theorem Still.installCapFor {node : Nat} {slot : UInt32} (ran : s.installCapFor id node = .ok (slot, s')) : Still s s' :=
  ⟨.installCapFor ran, .installCapFor ran⟩

theorem Still.joined (still : Still s s') : Joined s s' :=
  ⟨still.tasks, still.rotation.ready ▸ List.prefix_refl _, still.rotation.current, still.rotation.gdt⟩

theorem Joined.trans (first : Joined s s') (second : Joined s' s'') : Joined s s'' :=
  ⟨first.tasks.trans second.tasks, first.queue.trans second.queue, second.current.trans first.current,
    second.gdt.trans first.gdt⟩

theorem Joined.activates (activates : Activates s s') (joined : Joined s' s'') : Activates s s'' := by
  obtain ⟨id, task, current, found, gdt⟩ := activates
  have same := joined.tasks.lookup id
  rw [found] at same
  obtain ⟨task', found', identity⟩ := Option.map_eq_some_iff.mp same
  have ports : task'.allowedPorts = task.allowedPorts := congrArg (·.2.2.2) identity
  exact ⟨id, task', joined.current.trans current, found', by rw [joined.gdt, gdt, ports]⟩

theorem Advanced.joined (first : Advanced s s') (second : Joined s' s'') : Advanced s s'' := by
  obtain ⟨next, rest, front, behind, current⟩ := first.front
  exact ⟨first.tasks.trans second.tasks, second.activates first.activates, next, rest, front, behind.trans second.queue,
    second.current.trans current⟩

theorem Still.rotated (still : Still s s') (rotated : Rotated s' s'') : Rotated s s'' := by
  refine rotated.imp still.joined.trans fun advanced => ⟨still.tasks.trans advanced.tasks, ?_, ?_⟩
  · rw [Activates, ← still.rotation.gdt]
    exact advanced.activates
  · rw [← still.rotation.ready]
    exact advanced.front

theorem Rotated.tasks (rotated : Rotated s s') : SameTasks s s' := rotated.elim Joined.tasks Advanced.tasks

private theorem wake_joined (ran : s.wake id = .ok s') : Joined s s' := by
  obtain ⟨_, _, restated, queue, current, _, _, gdt⟩ := wake_eq_ok ran
  exact ⟨restated.sameTasks, queue ▸ List.prefix_append _ _, current, gdt⟩

private theorem leave_advanced {state : TaskState} (ran : s.leave state = .ok (id, s')) : Advanced s s' := by
  obtain ⟨_, next, rest, front, restated, queue, current, _, _, activates⟩ := leave_eq_ok ran
  exact ⟨restated.sameTasks, activates, next, rest, front, queue ▸ List.prefix_refl _, current⟩

theorem tick_rotated (ran : s.tick = .ok s') :
    Rotated s s' ∧ (s.current ≠ none → s.readyQueue ≠ [] → Advanced s s') := by
  rcases tick_eq_ok ran with ⟨rfl, idle | empty⟩ | ⟨_, next, rest, _, front, restated, queue, current, _, _, activates⟩
  · exact ⟨.inl (Still.refl _).joined, fun running => absurd idle running⟩
  · exact ⟨.inl (Still.refl _).joined, fun _ ready => absurd empty ready⟩
  · have advanced : Advanced s s' :=
      ⟨restated.sameTasks, activates, next, rest, front, queue ▸ List.prefix_append _ _, current⟩
    exact ⟨.inr advanced, fun _ _ => advanced⟩

end Relations

section Exchange
variable {c c' : Core} {self endpoint : Nat} {s s' : Scheduler} {transfer : Option Nat} {slot : UInt32}

theorem Ipc.installTransfer_still {receiver : Nat} (ran : Ipc.installTransfer s receiver transfer = .ok (slot, s')) :
    Still s s' := by
  cases transfer with
  | none =>
    cases ran
    exact .refl s
  | some node => exact .installCapFor ran

theorem Ipc.installTransferCurrent_still (ran : Ipc.installTransferCurrent s transfer = .ok (slot, s')) : Still s s' := by
  cases transfer with
  | none =>
    cases ran
    exact .refl s
  | some node =>
    dsimp only [Ipc.installTransferCurrent, currentCspaceInstall] at ran
    split at ran
    · cases ran
    · exact .installCapFor ran

private theorem handed_joined {a b id : Nat} {f g : SavedRegs → SavedRegs}
    (woke : ((s.writeRegs a f).writeRegs b g).wake id = .ok s') : Joined s s' :=
  ((Still.writeRegs s a f).trans (.writeRegs _ b g)).joined.trans (wake_joined woke)

theorem Ipc.Sends.rotated {msg : UInt32 × UInt32 × UInt32} (sends : Ipc.Sends c self endpoint msg transfer c') :
    Rotated c.sched c'.sched := by
  cases sends with
  | handed _ installed woke => exact .inl ((Ipc.installTransfer_still installed).joined.trans (handed_joined woke))
  | waits _ left => exact .inr (leave_advanced left)

theorem Ipc.Takes.joined {receiver : Nat} {delivered : Bool} (takes : Ipc.Takes c endpoint receiver delivered c') :
    Joined c.sched c'.sched := by
  cases takes with
  | message _ installed woke => exact (Ipc.installTransferCurrent_still installed).joined.trans (handed_joined woke)
  | interrupt _ _ => exact (Still.writeRegs ..).joined
  | nothing _ _ => exact (Still.refl _).joined

theorem Ipc.Receives.rotated {blocking : Bool} (receives : Ipc.Receives c self endpoint blocking c') :
    Rotated c.sched c'.sched := by
  rw [← Ipc.acknowledge_sched c endpoint]
  cases receives with
  | takes took => exact .inl took.joined
  | waits nothing left =>
    cases nothing
    exact .inr (leave_advanced left)
  | fails nothing => exact .inl (nothing.joined.trans (Still.writeRegs ..).joined)

theorem Ipc.Notifies.joined {irq data : UInt32} (notifies : Ipc.Notifies c endpoint irq data c') :
    Joined c.sched c'.sched := by
  cases notifies with
  | handed _ woke => exact (Still.writeRegs ..).joined.trans (wake_joined woke)
  | queued _ => exact (Still.refl _).joined

theorem Ipc.Fails.joined {ids : List Nat} (fails : Ipc.Fails ids s s') : Joined s s' := by
  induction fails with
  | nil s => exact (Still.refl s).joined
  | cons woke _ ih => exact ((Still.writeRegs ..).joined.trans (wake_joined woke)).trans ih

theorem Ipc.Exits.rotated (exits : Ipc.Exits c c') : Rotated c.sched c'.sched := by
  cases exits with
  | exits left _ receivers senders => exact .inr ((leave_advanced left).joined (receivers.joined.trans senders.joined))

end Exchange

section Steps
variable {k k' : Kernel} {e : Event} {c : BootCall}

theorem sameTasks_reply (k : Kernel) (id : Nat) (f : SavedRegs → SavedRegs) : SameTasks k.sched (reply k id f).sched :=
  .writeRegs ..

theorem sameTasks_arrive (k : Kernel) (id : Nat) (regs : SavedRegs) : SameTasks k.sched (arrive k id regs).sched :=
  .writeRegs ..

private theorem arrive_still (k : Kernel) (self : Nat) (regs : SavedRegs) : Still k.sched (arrive k self regs).sched :=
  .writeRegs k.sched self fun _ => regs

theorem Loader.Spawning.population {ports : List UInt16} {spawned : Option Nat}
    (spawning : Loader.Spawning k ports spawned k') : Population k k' := by
  cases spawning with
  | refused => exact .same (.refl _) rfl
  | gaveUp _ _ => exact .same (.refl _) rfl
  | loaded _ _ admitted _ _ _ _ => exact .more (by rw [admitted.tasks, List.map_append]; rfl) admitted.id admitted.nextId

theorem Loader.Spawning.scheduled {self : Nat} {regs : SavedRegs} {spawned : Option Nat}
    (spawning : Loader.Spawning (arrive k self regs) [] spawned k') (f : SavedRegs → SavedRegs) :
    Scheduled k (reply k' self f) := by
  have arrived := arrive_still k self regs
  cases spawning with
  | refused => exact .turns (.inl (arrived.trans (.writeRegs ..)).joined) rfl
  | gaveUp _ _ => exact .turns (.inl (arrived.trans (.writeRegs ..)).joined) rfl
  | @loaded _ _ _ _ _ t _ _ admitted _ _ given _ =>
    have replied := Still.writeRegs k'.sched self f
    have spawned := admitted.sched
    refine .admits (t := t) ?_ admitted.id admitted.nextId ?_ ?_ ?_ given
    · refine Eq.trans replied.tasks ?_
      rw [admitted.tasks, List.map_append, arrived.tasks]
      rfl
    · refine replied.rotation.ready.symm ▸ ?_
      rw [spawned, ← arrived.rotation.ready]
      exact List.prefix_append _ _
    · exact replied.rotation.current.trans (admitted.current.trans arrived.rotation.current)
    · refine replied.rotation.gdt.trans ?_
      rw [spawned]
      exact arrived.rotation.gdt

/-- In a step the tasks take turns, or one more comes. -/
theorem Did.scheduled (did : Did k e k') : Scheduled k k' := by
  have answers : ∀ (self : Nat) (regs : SavedRegs) (f : SavedRegs → SavedRegs),
      Rotated k.sched ((arrive k self regs).sched.writeRegs self f) := by
    intro self regs f
    exact .inl ((arrive_still k self regs).trans (.writeRegs _ self f)).joined
  have installs : ∀ {self node : Nat} {regs : SavedRegs} {slot : UInt32} {s : Scheduler} (f : SavedRegs → SavedRegs),
      (arrive k self regs).sched.installCapFor self node = .ok (slot, s) → Rotated k.sched (s.writeRegs self f) := by
    intro self node regs slot s f ran
    exact .inl (((arrive_still k self regs).trans (.installCapFor ran)).trans (.writeRegs s self f)).joined
  cases did with
  | answer _ f => exact .turns (answers _ _ f) rfl
  | tick ran => exact .turns (tick_rotated ran).1 rfl
  | yield _ ran => exact .turns (((arrive_still ..).trans (.writeRegs ..)).rotated (tick_rotated ran).1) rfl
  | exit _ exits => exact .turns ((arrive_still ..).rotated exits.rotated) rfl
  | fault _ exits => exact .turns exits.rotated rfl
  | send _ _ _ _ _ sends => exact .turns ((arrive_still ..).rotated sends.rotated) rfl
  | recv _ _ _ _ _ receives => exact .turns ((arrive_still ..).rotated receives.rotated) rfl
  | register _ _ _ _ _ => exact .turns (answers _ _ _) rfl
  | map _ _ _ _ _ _ _ => exact .turns (answers _ _ _) rfl
  | spawn _ _ ran => exact ran.scheduled _
  | endpointCreate _ _ ran => exact .turns (installs _ ran) rfl
  | mint _ _ _ _ ran => exact .turns (installs _ ran) rfl
  | revoke _ _ _ => exact .turns (answers _ _ _) rfl
  | alloc _ _ _ _ _ _ ran =>
    refine .turns ?_ rfl
    exact installs (fun regs => { regs with eax := _, ecx := _ }) ran
  | quiet _ => exact .turns (.inl (Still.refl _).joined) rfl
  | notify _ _ notifies => exact .turns (.inl notifies.joined) rfl
  | store _ _ => exact .turns (.inl (Still.refl _).joined) rfl

/-- A step adds one task at most. -/
theorem Did.population (did : Did k e k') : Population k k' := by
  cases did.scheduled with
  | turns rotated next => exact .same rotated.tasks next
  | admits tasks id next _ _ _ _ => exact .more tasks id next

theorem BootDid.population (did : BootDid k c k') : Population k k' := by
  cases did with
  | spawn ran => exact ran.population
  | createEndpoint => exact .same (.refl _) rfl
  | grant ran => exact .same (.installCapFor ran) rfl
  | setNameserviceEndpoint => exact .same (.refl _) rfl
  | infoPage _ ran => exact .same (.installCapFor ran) rfl
  | spawnIdle _ => exact .more (t := Loader.newTask k .idle k.mm.image.bootDir []) (List.map_append ..) rfl rfl
  | start ran => exact .same (start_restated ran).sameTasks rfl

end Steps

end Pcern

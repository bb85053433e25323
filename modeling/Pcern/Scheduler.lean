import Pcern.IoPermissions
import Pcern.Keyed
import Pcern.Loops
import Pcern.Paging
import Pcern.RunQueue

/-!
Tasks and their rotation, after `task.rs` and `scheduler.rs`.

A pointer to a task's saved registers (`*mut SavedRegs`, on the task's own
kernel stack) is the task's id here, and the registers are a field of the task.
The saved stack pointer, the kernel stack in the TSS and CR3 have no state of
their own: the active page directory is the current task's. `gdt` is the I/O
bitmap of the TSS, which `activate` changes at every switch. `woken` is history,
which nothing reads: every task that was woken, with the state it had.

An operation of the scheduler changes task states only. `Restated` says so, and
each operation's lemma gives the new states as updates of the old, which is the
form the run queue library takes.
-/
namespace Pcern
open Keyed Loops

/-- The registers that `syscall_isr` saves. -/
structure SavedRegs where
  eax : UInt32
  ebx : UInt32
  ecx : UInt32
  edx : UInt32
  esi : UInt32
  edi : UInt32
  ebp : UInt32
  deriving DecidableEq, Repr

abbrev TaskState := RunQueue.Status

/-- What a task runs: the idle loop in ring 0, or ring-3 code from an entry point and a stack. -/
inductive Entry where
  | idle
  | user (eip esp : UInt32)
  deriving DecidableEq, Repr

/-- A control block, with the registers saved on the task's stack. -/
structure Task where
  id : Nat
  state : TaskState
  entry : Entry
  pageDirPhys : Nat
  allowedPorts : List UInt16
  cspace : List (Option Nat)
  regs : SavedRegs

def Task.body (t : Task) : Task := { t with state := .ready }

/-- What never changes about a task. -/
def Task.identity (t : Task) : Nat × Entry × Nat × List UInt16 := (t.id, t.entry, t.pageDirPhys, t.allowedPorts)

namespace CSpace

def new : List (Option Nat) := [none]

/-- The next free slot takes the node. -/
def install (slots : List (Option Nat)) (node : Nat) : UInt32 × List (Option Nat) :=
  (UInt32.ofNat slots.length, slots ++ [some node])

def get (slots : List (Option Nat)) (slot : UInt32) : Option Nat := (slots[slot.toNat]?).join

end CSpace

/-- What stands for the saved registers of a task that has made no system call yet. -/
def SavedRegs.zero : SavedRegs := { eax := 0, ebx := 0, ecx := 0, edx := 0, esi := 0, edi := 0, ebp := 0 }

/-- `woken` lists the tasks that were woken, with the states they had. -/
structure Scheduler where
  tasks : List Task
  readyQueue : List Nat
  current : Option Nat
  woken : List (Nat × TaskState)
  gdt : Gdt.Statics

namespace Scheduler

def empty : Scheduler := { tasks := [], readyQueue := [], current := none, woken := [], gdt := .initial }

def lookup (s : Scheduler) (id : Nat) : Option Task := find Task.id s.tasks id

def indexOf (s : Scheduler) (id : Nat) : Except Stop Nat :=
  match index Task.id s.tasks id with
  | some i => .ok i
  | none => .error .unknownTask

def modifyTask (s : Scheduler) (i : Nat) (f : Task → Task) : Scheduler := { s with tasks := s.tasks.modify i f }

def spawn (s : Scheduler) (task : Task) : Scheduler :=
  { s with readyQueue := s.readyQueue ++ [task.id], tasks := s.tasks ++ [task] }

def currentTask (s : Scheduler) : Except Stop Task :=
  match s.current with
  | none => .error .noCurrentTask
  | some id =>
    match s.lookup id with
    | none => .error .unknownTask
    | some task => .ok task

def currentPageDirPhys (s : Scheduler) : Except Stop Nat := do
  let task ← s.currentTask
  .ok task.pageDirPhys

def currentCspaceGet (s : Scheduler) (slot : UInt32) : Except Stop (Option Nat) := do
  let task ← s.currentTask
  .ok (CSpace.get task.cspace slot)

def installCapFor (s : Scheduler) (id node : Nat) : Except Stop (UInt32 × Scheduler) := do
  let i ← s.indexOf id
  match s.tasks[i]? with
  | none => .error .unknownTask
  | some task =>
    let (slot, cspace) := CSpace.install task.cspace node
    .ok (slot, s.modifyTask i fun task => { task with cspace })

def currentCspaceInstall (s : Scheduler) (node : Nat) : Except Stop (UInt32 × Scheduler) :=
  match s.current with
  | none => .error .noCurrentTask
  | some id => s.installCapFor id node

/-- Write through a pointer to the saved registers of a task. -/
def writeRegs (s : Scheduler) (id : Nat) (f : SavedRegs → SavedRegs) : Scheduler :=
  match index Task.id s.tasks id with
  | some i => s.modifyTask i fun task => { task with regs := f task.regs }
  | none => s

/-- The port list of the task that is about to run goes to the task state segment. -/
def activate (s : Scheduler) (i : Nat) : Scheduler :=
  { s with
    gdt := match s.tasks[i]? with
      | some task => Gdt.setIoPermissions s.gdt task.allowedPorts
      | none => s.gdt }

/-- The common end of `start`, `tick`, `block_current` and `exit_current`: the
    front of the ready queue runs. -/
def switchToNext (s : Scheduler) : Except Stop Scheduler :=
  match s.readyQueue with
  | [] => .error .noTaskToRun
  | next :: rest => do
    let i ← s.indexOf next
    .ok (activate { s.modifyTask i fun task => { task with state := .running } with readyQueue := rest, current := some next } i)

def start (s : Scheduler) : Except Stop Scheduler := s.switchToNext

/-- The timer's rotation, also `yield_now`. Nothing happens before `start` or when
    no other task is ready. -/
def tick (s : Scheduler) : Except Stop Scheduler :=
  match s.current with
  | none => .ok s
  | some id =>
    if s.readyQueue.isEmpty then .ok s
    else do
      let i ← s.indexOf id
      switchToNext { s.modifyTask i fun task => { task with state := .ready } with readyQueue := s.readyQueue ++ [id] }

/-- What `block_current` and `exit_current` share: the current task leaves the
    rotation in the given state, and its id is the result. -/
def leave (s : Scheduler) (state : TaskState) : Except Stop (Nat × Scheduler) :=
  match s.current with
  | none => .error .noCurrentTask
  | some id => do
    let i ← s.indexOf id
    let s ← switchToNext (s.modifyTask i fun task => { task with state })
    .ok (id, s)

/-- `block_current`: the task that is blocked, and the scheduler with the next one. -/
def blockCurrent (s : Scheduler) : Except Stop (Nat × Scheduler) := s.leave .blocked

/-- A task in any state is made ready; `woken` records which it was. -/
def wake (s : Scheduler) (id : Nat) : Except Stop Scheduler := do
  let i ← s.indexOf id
  match s.tasks[i]? with
  | none => .error .unknownTask
  | some task =>
    .ok { s.modifyTask i fun task => { task with state := .ready } with
      readyQueue := s.readyQueue ++ [id], woken := s.woken ++ [(id, task.state)] }

/-! ## What the operations do -/

/-- The state of a task; `none` if there is no such task. -/
def status (s : Scheduler) (id : Nat) : Option TaskState := (s.lookup id).map Task.state

/-- The tasks are the same up to their states. -/
def Restated (s s' : Scheduler) : Prop := s'.tasks.map Task.body = s.tasks.map Task.body

/-- The ports of the task that now runs were handed over. -/
def Activates (s s' : Scheduler) : Prop :=
  ∃ id task, s'.current = some id ∧ s'.lookup id = some task ∧ s'.gdt = Gdt.setIoPermissions s.gdt task.allowedPorts

section Operations
variable {s s' s'' : Scheduler} {id i : Nat}

theorem Restated.refl (s : Scheduler) : Restated s s := rfl

theorem Restated.trans (first : Restated s s') (second : Restated s' s'') : Restated s s'' := Eq.trans second first

theorem Restated.lookup (restated : Restated s s') (k : Nat) :
    (s'.lookup k).map Task.body = (s.lookup k).map Task.body := by
  have bodies : ∀ s : Scheduler, (s.lookup k).map Task.body = find Task.id (s.tasks.map Task.body) k :=
    fun s => (find_map Task.id Task.id (f := Task.body) (fun _ => rfl) s.tasks k).symm
  rw [bodies, bodies, restated]

theorem Restated.ids (restated : Restated s s') : s'.tasks.map Task.id = s.tasks.map Task.id := by
  have same := congrArg (List.map Task.id) restated
  simpa [Function.comp_def, Task.body] using same

private theorem indexOf_eq_ok : s.indexOf id = .ok i ↔ index Task.id s.tasks id = some i := by
  unfold indexOf
  split <;> rename_i placed <;> simp [placed]

theorem lookup_isSome_iff : (s.lookup id).isSome ↔ ∃ i, s.indexOf id = .ok i := by
  unfold Scheduler.lookup indexOf
  cases placed : index Task.id s.tasks id with
  | none =>
    rw [index_eq_none_iff] at placed
    simp [placed]
  | some j =>
    have found : (find Task.id s.tasks id).isSome := by
      rw [Option.isSome_iff_ne_none, ne_eq, ← index_eq_none_iff, placed]
      simp
    simp [found]

theorem lookup_eq_getElem (placed : s.indexOf id = .ok i) : s.lookup id = s.tasks[i]? :=
  find_eq_getElem Task.id (indexOf_eq_ok.mp placed)

variable {node : Nat} {state : TaskState} {slot : UInt32} {task : Task} {f : Task → Task}

private theorem lookup_modifyTask (placed : s.indexOf id = .ok i) (keeps : ∀ t, (f t).id = t.id) (k : Nat) :
    (s.modifyTask i f).lookup k = if k = id then (s.lookup id).map f else s.lookup k :=
  find_modify Task.id (indexOf_eq_ok.mp placed) keeps k

private theorem setState_spec (placed : s.indexOf id = .ok i) (state : TaskState) :
    let s' := s.modifyTask i fun task => { task with state }
    Restated s s' ∧ s'.status = Function.update s.status id (some state) := by
  refine ⟨map_key_modify Task.body s.tasks i fun _ => rfl, funext fun k => ?_⟩
  have found := lookup_isSome_iff.mpr ⟨i, placed⟩
  obtain ⟨task, here⟩ := Option.isSome_iff_exists.mp found
  by_cases same : k = id
  · subst same
    simp [status, lookup_modifyTask placed, here]
  · simp [status, lookup_modifyTask placed, same]

/-- The front of the ready queue becomes current. -/
theorem switchToNext_eq_ok (ran : s.switchToNext = .ok s') :
    ∃ next rest, s.readyQueue = next :: rest ∧ Restated s s' ∧ s'.readyQueue = rest ∧ s'.current = some next ∧
      s'.status = Function.update s.status next (some .running) ∧ s'.woken = s.woken ∧ Activates s s' := by
  unfold switchToNext at ran
  split at ran
  · cases ran
  · rename_i next rest queue
    obtain ⟨i, placed, ran⟩ := bind_eq_ok.mp ran
    cases ran
    obtain ⟨restated, states⟩ := setState_spec placed .running
    refine ⟨next, rest, queue, restated, rfl, rfl, states, rfl, ?_⟩
    obtain ⟨task, here⟩ := Option.isSome_iff_exists.mp (lookup_isSome_iff.mpr ⟨i, placed⟩)
    have found := lookup_modifyTask placed (f := fun task => { task with state := .running }) (by intro; rfl) next
    rw [if_pos rfl, here] at found
    rw [lookup_eq_getElem placed] at here
    exact ⟨next, _, rfl, found, by simp [activate, modifyTask, here]⟩

/-- A tick does nothing, or the current task goes to the back of the queue and the front runs. -/
theorem tick_eq_ok (ran : s.tick = .ok s') :
    (s' = s ∧ (s.current = none ∨ s.readyQueue = [])) ∨
      ∃ id next rest, s.current = some id ∧ s.readyQueue = next :: rest ∧ Restated s s' ∧ s'.readyQueue = rest ++ [id] ∧
        s'.current = some next ∧
        s'.status = Function.update (Function.update s.status id (some .ready)) next (some .running) ∧
        s'.woken = s.woken ∧ Activates s s' := by
  unfold tick at ran
  split at ran
  · rename_i none
    cases ran
    exact .inl ⟨rfl, .inl none⟩
  · rename_i id here
    split at ran
    · rename_i empty
      cases ran
      exact .inl ⟨rfl, .inr (by simpa using empty)⟩
    · rename_i full
      obtain ⟨i, placed, ran⟩ := bind_eq_ok.mp ran
      obtain ⟨next, rest, queue, restated, ready, current, states, woken⟩ := switchToNext_eq_ok ran
      obtain ⟨restated', states'⟩ := setState_spec placed .ready
      cases head : s.readyQueue with
      | nil => simp [head] at full
      | cons first others =>
        simp only [head, List.cons_append, List.cons.injEq] at queue
        obtain ⟨rfl, rfl⟩ := queue
        exact .inr ⟨id, first, others, here, rfl, restated'.trans restated, ready, current, states.trans (by rw [← states']; rfl),
          woken⟩

/-- The current task leaves in the given state, and the front of the queue runs. -/
theorem leave_eq_ok (ran : s.leave state = .ok (id, s')) :
    s.current = some id ∧ ∃ next rest, s.readyQueue = next :: rest ∧ Restated s s' ∧ s'.readyQueue = rest ∧
      s'.current = some next ∧
      s'.status = Function.update (Function.update s.status id (some state)) next (some .running) ∧
      s'.woken = s.woken ∧ Activates s s' := by
  unfold leave at ran
  split at ran
  · cases ran
  · rename_i id' here
    obtain ⟨i, placed, ran⟩ := bind_eq_ok.mp ran
    obtain ⟨t, switched, ran⟩ := bind_eq_ok.mp ran
    cases ran
    obtain ⟨next, rest, queue, restated, ready, current, states, woken⟩ := switchToNext_eq_ok switched
    obtain ⟨restated', states'⟩ := setState_spec placed state
    exact ⟨here, next, rest, queue, restated'.trans restated, ready, current, by rw [states, states'], woken⟩

/-- A woken task goes to the back of the ready queue. -/
theorem wake_eq_ok (ran : s.wake id = .ok s') :
    ∃ state, s.status id = some state ∧ Restated s s' ∧ s'.readyQueue = s.readyQueue ++ [id] ∧ s'.current = s.current ∧
      s'.status = Function.update s.status id (some .ready) ∧ s'.woken = s.woken ++ [(id, state)] ∧ s'.gdt = s.gdt := by
  unfold wake at ran
  obtain ⟨i, placed, ran⟩ := bind_eq_ok.mp ran
  split at ran
  · cases ran
  · rename_i task found
    cases ran
    obtain ⟨restated, states⟩ := setState_spec placed .ready
    refine ⟨task.state, ?_, restated, rfl, rfl, states, rfl, rfl⟩
    simp [status, lookup_eq_getElem placed, found]

theorem currentTask_eq_ok :
    s.currentTask = .ok task ↔ ∃ id, s.current = some id ∧ s.lookup id = some task := by
  unfold currentTask
  split
  · simp_all
  · rename_i id here
    split
    · rename_i missing
      simp [here, missing]
    · rename_i task' found
      simp [here, found]

private theorem installCapFor_eq_ok (ran : s.installCapFor id node = .ok (slot, s')) :
    ∃ i task, s.indexOf id = .ok i ∧ s.lookup id = some task ∧ slot = UInt32.ofNat task.cspace.length ∧
      s' = s.modifyTask i fun t => { t with cspace := task.cspace ++ [some node] } := by
  unfold installCapFor at ran
  obtain ⟨i, placed, ran⟩ := bind_eq_ok.mp ran
  split at ran
  · cases ran
  · rename_i task found
    cases ran
    exact ⟨i, task, placed, by rw [lookup_eq_getElem placed, found], rfl, rfl⟩

theorem lookup_writeRegs (s : Scheduler) (id : Nat) (f : SavedRegs → SavedRegs) (k : Nat) :
    (s.writeRegs id f).lookup k =
      if k = id then (s.lookup id).map fun task => { task with regs := f task.regs } else s.lookup k := by
  unfold writeRegs
  split
  · rename_i i placed
    exact lookup_modifyTask (indexOf_eq_ok.mpr placed) (by intro; rfl) k
  · rename_i missing
    have none : s.lookup id = none := (index_eq_none_iff Task.id s.tasks id).mp missing
    split
    · rename_i same
      rw [same, none]
      rfl
    · rfl

theorem installCapFor_spawn {t : Task} (fresh : s.lookup t.id = none) (node : Nat) :
    (s.spawn t).installCapFor t.id node =
      .ok (UInt32.ofNat t.cspace.length, s.spawn { t with cspace := t.cspace ++ [some node] }) := by
  have placed : (s.spawn t).indexOf t.id = .ok s.tasks.length :=
    indexOf_eq_ok.mpr (index_append_single Task.id fresh)
  have last : (s.spawn t).tasks[s.tasks.length]? = some t := by simp [spawn]
  refine bind_eq_ok.mpr ⟨_, placed, ?_⟩
  simp only [last]
  simp only [CSpace.install, modifyTask, spawn, modify_append_single]

/-- The rotation is the same; tasks differ at most in registers and capabilities. -/
structure SameRotation (s s' : Scheduler) : Prop where
  states : s'.tasks.map (fun t => (t.id, t.state)) = s.tasks.map fun t => (t.id, t.state)
  ready : s'.readyQueue = s.readyQueue
  current : s'.current = s.current
  woken : s'.woken = s.woken
  gdt : s'.gdt = s.gdt

theorem SameRotation.refl (s : Scheduler) : SameRotation s s := ⟨rfl, rfl, rfl, rfl, rfl⟩

theorem SameRotation.trans (first : SameRotation s s') (second : SameRotation s' s'') : SameRotation s s'' :=
  ⟨second.states.trans first.states, second.ready.trans first.ready, second.current.trans first.current,
    second.woken.trans first.woken, second.gdt.trans first.gdt⟩

theorem SameRotation.modifyTask (s : Scheduler) (i : Nat) (keeps : ∀ t, (f t).id = t.id ∧ (f t).state = t.state) :
    SameRotation s (s.modifyTask i f) :=
  ⟨map_key_modify _ s.tasks i fun t => by simp [keeps t], rfl, rfl, rfl, rfl⟩

theorem SameRotation.writeRegs (s : Scheduler) (id : Nat) (f : SavedRegs → SavedRegs) : SameRotation s (s.writeRegs id f) := by
  unfold Scheduler.writeRegs
  split
  · exact .modifyTask s _ fun _ => ⟨rfl, rfl⟩
  · exact .refl s

theorem SameRotation.installCapFor (ran : s.installCapFor id node = .ok (slot, s')) :
    SameRotation s s' := by
  obtain ⟨i, task, _, _, _, rfl⟩ := installCapFor_eq_ok ran
  exact .modifyTask s i fun _ => ⟨rfl, rfl⟩

theorem SameRotation.status (same : SameRotation s s') : s'.status = s.status := by
  funext k
  have pairs : ∀ s : Scheduler, (s.lookup k).map (fun t => (t.id, t.state)) =
      find Prod.fst (s.tasks.map fun t => (t.id, t.state)) k :=
    fun s => (find_map Task.id Prod.fst (fun _ => rfl) s.tasks k).symm
  have equal := congrArg (Option.map Prod.snd) ((pairs s').trans ((congrArg (find Prod.fst · k) same.states).trans (pairs s).symm))
  simpa [Scheduler.status, Function.comp_def] using equal

theorem SameRotation.ids (same : SameRotation s s') : s'.tasks.map Task.id = s.tasks.map Task.id := by
  simpa [Function.comp_def] using congrArg (List.map Prod.fst) same.states

/-- The same tasks, whatever they do and hold. -/
def SameTasks (s s' : Scheduler) : Prop := s'.tasks.map Task.identity = s.tasks.map Task.identity

theorem SameTasks.refl (s : Scheduler) : SameTasks s s := rfl

theorem SameTasks.trans (first : SameTasks s s') (second : SameTasks s' s'') : SameTasks s s'' := Eq.trans second first

theorem Restated.sameTasks (restated : Restated s s') : SameTasks s s' := by
  have same := congrArg (List.map Task.identity) restated
  rw [List.map_map, List.map_map] at same
  exact same

theorem SameTasks.modifyTask (s : Scheduler) (i : Nat) (keeps : ∀ t, (f t).identity = t.identity) :
    SameTasks s (s.modifyTask i f) := map_key_modify Task.identity s.tasks i keeps

theorem SameTasks.writeRegs (s : Scheduler) (id : Nat) (f : SavedRegs → SavedRegs) : SameTasks s (s.writeRegs id f) := by
  unfold Scheduler.writeRegs
  split
  · exact .modifyTask s _ (by intro; rfl)
  · exact .refl s

theorem SameTasks.installCapFor (ran : s.installCapFor id node = .ok (slot, s')) :
    SameTasks s s' := by
  obtain ⟨i, task, _, _, _, rfl⟩ := installCapFor_eq_ok ran
  exact .modifyTask s i (by intro; rfl)

theorem SameTasks.lookup (same : SameTasks s s') (k : Nat) :
    (s'.lookup k).map Task.identity = (s.lookup k).map Task.identity := by
  have found : ∀ s : Scheduler, (s.lookup k).map Task.identity = find Prod.fst (s.tasks.map Task.identity) k :=
    fun s => (find_map Task.id Prod.fst (f := Task.identity) (fun _ => rfl) s.tasks k).symm
  rw [found, found, same]

def Runnable (s : Scheduler) (id : Nat) : Prop := s.status id = some .ready ∨ s.status id = some .running

/-- The tasks are the same, none but `mover` ceases to be runnable, and some task goes on running. -/
structure Moves (s s' : Scheduler) (mover : Nat) : Prop where
  tasks : SameTasks s s'
  runnable : ∀ i ≠ mover, Runnable s i → Runnable s' i
  goesOn : s.current ≠ none → s'.current ≠ none

variable {mover : Nat}

theorem Moves.refl (s : Scheduler) (mover : Nat) : Moves s s mover := ⟨.refl s, fun _ _ holds => holds, id⟩

theorem Moves.trans (first : Moves s s' mover) (second : Moves s' s'' mover) : Moves s s'' mover :=
  ⟨first.tasks.trans second.tasks, fun i other holds => second.runnable i other (first.runnable i other holds),
    fun running => second.goesOn (first.goesOn running)⟩

theorem SameRotation.moves (same : SameRotation s s') (tasks : SameTasks s s') (mover : Nat) : Moves s s' mover :=
  ⟨tasks, fun i _ holds => by rwa [Runnable, same.status], fun running => by rwa [same.current]⟩

theorem Moves.writeRegs (s : Scheduler) (id : Nat) (f : SavedRegs → SavedRegs) (mover : Nat) :
    Moves s (s.writeRegs id f) mover :=
  (SameRotation.writeRegs s id f).moves (.writeRegs s id f) mover

private theorem runnable_update {i : Nat} (states : s'.status = Function.update s.status id (some state))
    (live : state = .ready ∨ state = .running ∨ i ≠ id) (holds : Runnable s i) : Runnable s' i := by
  by_cases same : i = id
  · subst same
    rcases live with rfl | rfl | other
    · exact .inl (by simp [states])
    · exact .inr (by simp [states])
    · exact absurd rfl other
  · simpa [Runnable, states, same] using holds

theorem Moves.wake (ran : s.wake id = .ok s') (mover : Nat) : Moves s s' mover := by
  obtain ⟨_, _, restated, _, current, states, _⟩ := wake_eq_ok ran
  exact ⟨restated.sameTasks, fun i _ holds => runnable_update states (.inl rfl) holds, fun running => by rwa [current]⟩

theorem Moves.start (ran : s.start = .ok s') (mover : Nat) : Moves s s' mover := by
  obtain ⟨next, rest, _, restated, _, current, states, _⟩ := switchToNext_eq_ok ran
  exact ⟨restated.sameTasks, fun i _ holds => runnable_update states (.inr (.inl rfl)) holds, fun _ => by simp [current]⟩

theorem Moves.tick (ran : s.tick = .ok s') (mover : Nat) : Moves s s' mover := by
  rcases tick_eq_ok ran with ⟨rfl, _⟩ | ⟨id, next, rest, _, _, restated, _, current, states, _⟩
  · exact .refl _ _
  · refine ⟨restated.sameTasks, fun i _ holds => ?_, fun _ => by simp [current]⟩
    by_cases first : i = next
    · exact .inr (by simp [states, first])
    · by_cases second : i = id
      · subst second
        exact .inl (by simp [states, first])
      · simpa [Runnable, states, first, second] using holds

/-- Only the task that leaves ceases to be runnable. -/
theorem Moves.leave (ran : s.leave state = .ok (id, s')) : Moves s s' id := by
  obtain ⟨_, next, rest, _, restated, _, current, states, _⟩ := leave_eq_ok ran
  refine ⟨restated.sameTasks, fun i other holds => ?_, fun _ => by simp [current]⟩
  by_cases first : i = next
  · exact .inr (by simp [states, first])
  · simpa [Runnable, states, first, other] using holds

/-! ## What tasks hold and see -/

def cspaces (s : Scheduler) (id : Nat) : Option (List (Option Nat)) := (s.lookup id).map Task.cspace

def registers (s : Scheduler) (id : Nat) : Option SavedRegs := (s.lookup id).map Task.regs

@[simp] theorem cspaces_writeRegs (s : Scheduler) (id : Nat) (f : SavedRegs → SavedRegs) :
    (s.writeRegs id f).cspaces = s.cspaces := by
  funext k
  by_cases same : k = id
  · subst same
    simp [cspaces, lookup_writeRegs, Function.comp_def]
  · simp [cspaces, lookup_writeRegs, same]

@[simp] theorem registers_writeRegs (s : Scheduler) (id : Nat) (f : SavedRegs → SavedRegs) :
    (s.writeRegs id f).registers = Function.update s.registers id ((s.registers id).map f) := by
  funext k
  by_cases same : k = id
  · subst same
    simp [registers, lookup_writeRegs, Function.comp_def]
  · simp [registers, lookup_writeRegs, same]

theorem Restated.cspaces (restated : Restated s s') : s'.cspaces = s.cspaces := by
  funext k
  have same := congrArg (Option.map Task.cspace) (restated.lookup k)
  simpa [Scheduler.cspaces, Function.comp_def, Task.body] using same

theorem Restated.registers (restated : Restated s s') : s'.registers = s.registers := by
  funext k
  have same := congrArg (Option.map Task.regs) (restated.lookup k)
  simpa [Scheduler.registers, Function.comp_def, Task.body] using same

theorem wake_restated (ran : s.wake id = .ok s') : Restated s s' := by
  obtain ⟨_, _, restated, _⟩ := wake_eq_ok ran
  exact restated

theorem tick_restated (ran : s.tick = .ok s') : Restated s s' := by
  rcases tick_eq_ok ran with ⟨rfl, _⟩ | ⟨_, _, _, _, _, restated, _⟩
  · exact .refl _
  · exact restated

theorem leave_restated (ran : s.leave state = .ok (id, s')) : Restated s s' := by
  obtain ⟨_, _, _, _, restated, _⟩ := leave_eq_ok ran
  exact restated

theorem start_restated (ran : s.start = .ok s') : Restated s s' := by
  obtain ⟨_, _, _, restated, _⟩ := switchToNext_eq_ok ran
  exact restated

/-- A capability is put at the end of the task's table. -/
theorem installCapFor_cspaces (ran : s.installCapFor id node = .ok (slot, s')) :
    ∃ slots, s.cspaces id = some slots ∧ slot = UInt32.ofNat slots.length ∧
      s'.cspaces = Function.update s.cspaces id (some (slots ++ [some node])) := by
  obtain ⟨i, task, placed, found, rfl, rfl⟩ := installCapFor_eq_ok ran
  refine ⟨task.cspace, by simp [cspaces, found], rfl, funext fun k => ?_⟩
  have keeps := lookup_modifyTask placed (f := fun t => { t with cspace := task.cspace ++ [some node] }) (by intro; rfl) k
  by_cases same : k = id
  · subst same
    simp [cspaces, keeps, found]
  · simp [cspaces, keeps, same]

theorem installCapFor_registers (ran : s.installCapFor id node = .ok (slot, s')) :
    s'.registers = s.registers := by
  obtain ⟨i, task, placed, found, rfl, rfl⟩ := installCapFor_eq_ok ran
  funext k
  have keeps := lookup_modifyTask placed (f := fun t => { t with cspace := task.cspace ++ [some node] }) (by intro; rfl) k
  by_cases same : k = id
  · subst same
    simp [registers, keeps, found]
  · simp [registers, keeps, same]

/-! ## Consistency -/

/-- The tasks' states agree with the current task, the ready queue and the tasks
    that wait elsewhere, and no task was ever woken that was not blocked. -/
structure Consistent (s : Scheduler) (waiting : List Nat) : Prop where
  ids : (s.tasks.map Task.id).Nodup
  agree : RunQueue.Agree s.status s.current s.readyQueue waiting
  woken : ∀ w ∈ s.woken, w.2 = .blocked

variable {waiting waiting' : List Nat}

theorem Consistent.same (consistent : Consistent s waiting) (same : SameRotation s s') : Consistent s' waiting where
  ids := same.ids ▸ consistent.ids
  agree := by
    rw [same.status, same.current, same.ready]
    exact consistent.agree
  woken := same.woken ▸ consistent.woken

theorem Consistent.perm (consistent : Consistent s waiting) (same : waiting'.Perm waiting) : Consistent s waiting' :=
  { consistent with agree := consistent.agree.perm same }

theorem indexOf_of_status (here : s.status id = some state) : ∃ i, s.indexOf id = .ok i := by
  rw [← lookup_isSome_iff]
  cases found : s.lookup id with
  | none => simp [status, found] at here
  | some task => rfl

private theorem switchToNext_total (agree : RunQueue.Agree s.status none s.readyQueue waiting) (some' : s.readyQueue ≠ []) :
    ∃ s', s.switchToNext = .ok s' := by
  unfold switchToNext
  cases head : s.readyQueue with
  | nil => exact absurd head some'
  | cons next rest =>
    have ready : s.status next = some .ready := (agree.ready next).mp (by simp [head])
    obtain ⟨i, placed⟩ := indexOf_of_status ready
    exact ⟨_, bind_eq_ok.mpr ⟨i, placed, rfl⟩⟩

section
variable (consistent : Consistent s waiting)
include consistent

/-- Waking one of the tasks that wait succeeds. -/
theorem Consistent.wake (split : waiting.Perm (id :: waiting')) :
    ∃ s', s.wake id = .ok s' ∧ Consistent s' waiting' := by
  have blocked : s.status id = some .blocked := (consistent.agree.blocked id).mp (split.mem_iff.mpr (by simp))
  obtain ⟨i, placed⟩ := indexOf_of_status blocked
  obtain ⟨task, found⟩ := Option.isSome_iff_exists.mp (lookup_isSome_iff.mpr ⟨i, placed⟩)
  have ran : ∃ s', s.wake id = .ok s' := by
    rw [lookup_eq_getElem placed] at found
    simp [Scheduler.wake, placed, found, bind, Except.bind]
  obtain ⟨s', ran⟩ := ran
  obtain ⟨state, here, restated, ready, current, states, woken, _⟩ := wake_eq_ok ran
  refine ⟨s', ran, restated.ids ▸ consistent.ids, ?_, ?_⟩
  · rw [states, current, ready]
    exact consistent.agree.wake split
  · rw [woken]
    intro w member
    rcases List.mem_append.mp member with old | new
    · exact consistent.woken w old
    · rw [blocked, Option.some.injEq] at here
      rw [List.mem_singleton.mp new, here]

/-- A tick never fails. -/
theorem Consistent.tick : ∃ s', s.tick = .ok s' ∧ Consistent s' waiting := by
  have total : ∃ s', s.tick = .ok s' := by
    unfold Scheduler.tick
    cases here : s.current with
    | none => exact ⟨s, rfl⟩
    | some id =>
      by_cases empty : s.readyQueue.isEmpty = true
      · exact ⟨s, if_pos empty⟩
      · obtain ⟨i, placed⟩ := indexOf_of_status ((consistent.agree.running id).mpr here)
        have states := (setState_spec placed .ready).2
        have agree := consistent.agree
        rw [here] at agree
        obtain ⟨s', ran⟩ := switchToNext_total
          (s := { s.modifyTask i fun task => { task with state := .ready } with readyQueue := s.readyQueue ++ [id] })
          (show RunQueue.Agree (s.modifyTask i _).status none (s.readyQueue ++ [id]) waiting from states ▸ agree.yield)
          (by simp)
        exact ⟨s', (if_neg empty).trans (bind_eq_ok.mpr ⟨i, placed, ran⟩)⟩
  obtain ⟨s', ran⟩ := total
  refine ⟨s', ran, ?_⟩
  rcases tick_eq_ok ran with ⟨rfl, _⟩ | ⟨id, next, rest, here, queue, restated, ready, current, states, woken, _⟩
  · exact consistent
  · have agree := consistent.agree
    rw [here, queue] at agree
    refine ⟨restated.ids ▸ consistent.ids, ?_, woken ▸ consistent.woken⟩
    rw [states, current, ready]
    exact agree.yield.dispatch

/-- The current task can leave as long as another one is ready. -/
theorem Consistent.leave (here : s.current = some id) (more : s.readyQueue ≠ [])
    (left : RunQueue.Agree (Function.update s.status id (some state)) none s.readyQueue waiting') :
    ∃ s', s.leave state = .ok (id, s') ∧ Consistent s' waiting' := by
  obtain ⟨i, placed⟩ := indexOf_of_status ((consistent.agree.running id).mpr here)
  have states := (setState_spec placed state).2
  obtain ⟨s', switched⟩ := switchToNext_total
    (show RunQueue.Agree (s.modifyTask i fun task => { task with state }).status none s.readyQueue waiting' from
      states ▸ left) more
  have ran : s.leave state = .ok (id, s') := by
    unfold Scheduler.leave
    rw [here]
    exact bind_eq_ok.mpr ⟨i, placed, bind_eq_ok.mpr ⟨s', switched, rfl⟩⟩
  obtain ⟨_, next, rest, queue, restated, ready, current, states', woken, _⟩ := leave_eq_ok ran
  refine ⟨s', ran, restated.ids ▸ consistent.ids, ?_, woken ▸ consistent.woken⟩
  rw [states', current, ready]
  rw [queue] at left
  exact left.dispatch

theorem Consistent.block (here : s.current = some id) (more : s.readyQueue ≠ []) :
    ∃ s', s.blockCurrent = .ok (id, s') ∧ Consistent s' (id :: waiting) := by
  have agree := consistent.agree
  rw [here] at agree
  exact consistent.leave here more agree.park

theorem Consistent.exit (here : s.current = some id) (more : s.readyQueue ≠ []) :
    ∃ s', s.leave .zombie = .ok (id, s') ∧ Consistent s' waiting := by
  have agree := consistent.agree
  rw [here] at agree
  exact consistent.leave here more agree.stop

theorem Consistent.start (before : s.current = none) (more : s.readyQueue ≠ []) :
    ∃ s', s.start = .ok s' ∧ Consistent s' waiting := by
  have agree := consistent.agree
  rw [before] at agree
  obtain ⟨s', ran⟩ := switchToNext_total agree more
  obtain ⟨next, rest, queue, restated, ready, current, states, woken, _⟩ := switchToNext_eq_ok ran
  refine ⟨s', ran, restated.ids ▸ consistent.ids, ?_, woken ▸ consistent.woken⟩
  rw [states, current, ready]
  rw [queue] at agree
  exact agree.dispatch

end

theorem lookup_spawn (s : Scheduler) (task : Task) (k : Nat) :
    (s.spawn task).lookup k = (s.lookup k).or (if task.id = k then some task else none) :=
  find_append_single Task.id s.tasks task k

theorem cspaces_spawn (fresh : s.lookup task.id = none) :
    (s.spawn task).cspaces = Function.update s.cspaces task.id (some task.cspace) := by
  funext k
  by_cases same : k = task.id
  · simp [cspaces, lookup_spawn, same, fresh]
  · simp [cspaces, lookup_spawn, same, Ne.symm same]

/-- A new task joins the ready queue. -/
theorem Consistent.spawn (consistent : Consistent s waiting) (fresh : s.lookup task.id = none)
    (ready : task.state = .ready) : Consistent (s.spawn task) waiting := by
  have unknown : task.id ∉ s.tasks.map Task.id := (find_eq_none_iff Task.id s.tasks task.id).mp fresh
  have states : (s.spawn task).status = Function.update s.status task.id (some .ready) := by
    funext k
    by_cases same : k = task.id
    · simp [status, lookup_spawn, same, fresh, ready]
    · simp [status, lookup_spawn, same, Ne.symm same]
  refine ⟨?_, ?_, consistent.woken⟩
  · simpa [Scheduler.spawn, List.nodup_append] using ⟨consistent.ids, fun t member same =>
      unknown (List.mem_map.mpr ⟨t, member, same⟩)⟩
  · rw [states]
    exact consistent.agree.admit (by simp [status, fresh])

end Operations

end Scheduler
end Pcern

import Pcern.Bookkeeping

/-!
Runs. `Wiring.rule` is the induction over everything a kernel can go through: an
invariant that holds when memory is up, that each boot call keeps and that each
step keeps, holds always. Both are given by their outcomes, and the books are in
order when they begin.

The production boot is a wiring (`Run.wiring`), so what holds of every wiring
holds of every run. The first thing that does is the agreement of scheduler and
IPC.
-/
namespace Pcern
open Keyed Loops Scheduler
variable {p : Platform} {h : List Record} {k : Kernel}

theorem Wiring.booked (wiring : Wiring p h k) : k.Booked := by
  induction wiring with
  | bringUp up =>
    obtain ⟨total, mm, mm', -, -, -, -, rfl⟩ := bringUp_eq_ok up
    exact withoutTasks_booked mm' p.info
  | boot _ early allowed ran booked => exact (bootCall_did booked.fresh ran).booked booked early allowed
  | event _ may ran booked => exact ((step_served booked may).of_ok ran).booked

/-- Induction over the outcomes of calls and steps. -/
theorem Wiring.rule {P : List Record → Kernel → Prop} (wiring : Wiring p h k) (base : ∀ k, Pcern.bringUp p = .ok k → P [] k)
    (boot : ∀ h k k' c, Wiring p h k → P h k → k.Booked → k.sched.current = none → c.Allowed k → BootDid k c k' →
      P (h ++ [{ pre := k, action := .boot c, post := k' }]) k')
    (event : ∀ h k k' e, Wiring p h k → P h k → k.Booked → enabled k e = true → Did k e k' →
      P (h ++ [{ pre := k, action := .event e, post := k' }]) k') : P h k := by
  induction wiring with
  | bringUp up => exact base _ up
  | boot before early allowed ran ih =>
    exact boot _ _ _ _ before ih before.booked early allowed (bootCall_did before.booked.fresh ran)
  | event before may ran ih => exact event _ _ _ _ before ih before.booked may (step_did before.booked.fresh ran)

/-- A relation that every call and every step keeps holds between any state of a history and the last one. -/
theorem Wiring.since {R : Kernel → Kernel → Prop} (wiring : Wiring p h k) (trans : ∀ k k' k'', R k k' → R k' k'' → R k k'')
    (boot : ∀ k k' c, BootDid k c k' → R k k') (event : ∀ k k' e, Did k e k' → R k k') : ∀ r ∈ h, R r.pre k := by
  have extend : ∀ (h : List Record) (r : Record), (∀ r' ∈ h, R r'.pre r.pre) → R r.pre r.post →
      ∀ r' ∈ h ++ [r], R r'.pre r.post := by
    intro h r earlier last
    exact List.forall_mem_append.mpr
      ⟨fun r' member => trans _ _ _ (earlier r' member) last, List.forall_mem_singleton.mpr last⟩
  refine wiring.rule (P := fun h k => ∀ r ∈ h, R r.pre k) ?_ ?_ ?_
  · intro k _
    exact List.forall_mem_nil _
  · intro h k k' c _ earlier _ _ _ did
    exact extend h ⟨k, .boot c, k'⟩ earlier (boot k k' c did)
  · intro h k k' e _ earlier _ _ did
    exact extend h ⟨k, .event e, k'⟩ earlier (event k k' e did)

/-- Every record of a history was made in a state that was reached before it, by a call or an event that was possible
    there. -/
theorem Wiring.record {r : Record} (wiring : Wiring p h k) (member : r ∈ h) :
    ∃ h', Wiring p h' r.pre ∧ (h' ++ [r]) <+: h ∧
      ((∃ c result, r.action = .boot c ∧ r.pre.sched.current = none ∧ c.Allowed r.pre ∧ c.run r.pre = .ok (result, r.post)) ∨
        ∃ e, r.action = .event e ∧ enabled r.pre e = true ∧ step r.pre e = .ok r.post) := by
  induction wiring with
  | bringUp _ => cases member
  | boot before early allowed ran ih =>
    rcases List.mem_append.mp member with old | new
    · obtain ⟨h', reached, front, how⟩ := ih old
      exact ⟨h', reached, front.trans (List.prefix_append _ _), how⟩
    · cases List.mem_singleton.mp new
      exact ⟨_, before, List.prefix_refl _, .inl ⟨_, _, rfl, early, allowed, ran⟩⟩
  | event before may ran ih =>
    rcases List.mem_append.mp member with old | new
    · obtain ⟨h', reached, front, how⟩ := ih old
      exact ⟨h', reached, front.trans (List.prefix_append _ _), how⟩
    · cases List.mem_singleton.mp new
      exact ⟨_, before, List.prefix_refl _, .inr ⟨_, rfl, may, ran⟩⟩

theorem Wiring.boots (wiring : Wiring p h k) (early : k.sched.current = none) : ∀ r ∈ h, ∃ c, r.action = .boot c := by
  induction wiring with
  | bringUp _ => simp
  | boot before earlier allowed ran ih =>
    exact List.forall_mem_append.mpr ⟨ih earlier, List.forall_mem_singleton.mpr ⟨_, rfl⟩⟩
  | event before may ran _ => exact absurd early ((step_served before.booked may).of_ok ran).running

/-! ## The production boot is a wiring -/

/-- The boot loaded the module `index` as the task `id`. -/
def Spawned (h : List Record) (index id : Nat) : Prop :=
  ∃ record ∈ h, ∃ ports, record.action = .boot (.spawn index ports) ∧ record.pre.nextId = id ∧ record.post.nextId = id + 1

/-- A boot before `scheduler::start` that has loaded these modules, as the tasks 1, 2, …. -/
structure Loaded (p : Platform) (modules : List Nat) (b : Booting) : Prop where
  wiring : Wiring p b.history b.kernel
  early : b.kernel.sched.current = none
  next : b.kernel.nextId = modules.length + 1
  spawned : ∀ i index, modules[i]? = some index → Spawned b.history index (i + 1)

section Booting
variable {α : Type} {modules : List Nat} {b b' : Booting} {c : BootCall} {result : Nat} {Q : α → Booting → Prop}

private theorem triple_call {P : Booting → Prop} {R : Nat → Booting → Prop}
    (each : ∀ k h result k', P { kernel := k, history := h } → c.run k = .ok (result, k') →
      R result { kernel := k', history := h ++ [{ pre := k, action := .boot c, post := k' }] }) : Triple P (call c) R := by
  intro b holds
  refine Yields.bind (P := fun r => c.run b.kernel = .ok r) ?_ fun r ran => each b.kernel b.history r.1 r.2 holds ran
  cases c.run b.kernel with
  | error r => trivial
  | ok r => rfl

theorem Spawned.mono {index id : Nat} (spawned : Spawned h index id) (more : List Record) : Spawned (h ++ more) index id := by
  obtain ⟨record, member, rest⟩ := spawned
  exact ⟨record, List.mem_append_left _ member, rest⟩

/-- The calls that set up a task which has been loaded. -/
def BootCall.Equips : BootCall → Prop
  | .createEndpoint _ | .grant _ _ | .setNameserviceEndpoint _ | .infoPage _ _ => True
  | .spawn _ _ | .spawnIdle | .start => False

theorem BootDid.equips {k' : Kernel} (did : BootDid k c k') (equips : c.Equips) :
    k'.sched.current = k.sched.current ∧ k'.nextId = k.nextId := by
  cases did with
  | createEndpoint => exact ⟨rfl, rfl⟩
  | grant ran => exact ⟨(SameRotation.installCapFor ran).current, rfl⟩
  | setNameserviceEndpoint => exact ⟨rfl, rfl⟩
  | infoPage _ ran => exact ⟨(SameRotation.installCapFor ran).current, rfl⟩
  | spawn _ => exact equips.elim
  | spawnIdle _ => exact equips.elim
  | start _ => exact equips.elim

private theorem triple_equip {f : Nat → Boot α} (equips : c.Equips) (allowed : ∀ k, c.Allowed k)
    (next : ∀ result, Triple (Loaded p modules) (f result) Q) : Triple (Loaded p modules) (call c >>= f) Q := by
  refine Triple.bind (triple_call fun k h result k' loaded ran => ?_) next
  obtain ⟨current, next⟩ := (bootCall_did loaded.wiring.booked.fresh ran).equips equips
  exact ⟨loaded.wiring.boot loaded.early (allowed k) ran, current.trans loaded.early, next.trans loaded.next,
    fun i index at' => (loaded.spawned i index at').mono _⟩

private theorem triple_spawn (index : Nat) (ports : List UInt16) :
    Triple (Loaded p modules) (call (.spawn index ports)) fun id b =>
      (id = 0 ∧ Loaded p modules b) ∨ (id = modules.length + 1 ∧ Loaded p (modules ++ [index]) b) := by
  refine triple_call fun k h result k' loaded called => ?_
  have after := loaded.wiring.boot loaded.early (show (BootCall.spawn index ports).Allowed k from trivial) called
  have kept : ∀ i index', modules[i]? = some index' →
      Spawned (h ++ [{ pre := k, action := .boot (.spawn index ports), post := k' }]) index' (i + 1) :=
    fun i index' at' => (loaded.spawned i index' at').mono _
  obtain ⟨⟨spawned, k1⟩, ran, called⟩ := bind_eq_ok.mp called
  cases called
  cases Loader.spawnFromModule_spawning loaded.wiring.booked.fresh ran with
  | refused => exact .inl ⟨rfl, after, loaded.early, loaded.next, kept⟩
  | gaveUp _ _ => exact .inl ⟨rfl, after, loaded.early, loaded.next, kept⟩
  | loaded _ _ admitted _ _ _ _ =>
    refine .inr ⟨loaded.next, after, admitted.current.trans loaded.early, ?_, fun i index' at' => ?_⟩
    · rw [admitted.nextId, loaded.next, List.length_append, List.length_singleton]
    · rw [List.getElem?_append] at at'
      split at at'
      · exact kept i index' at'
      · rename_i beyond
        obtain ⟨inside, same⟩ := List.getElem?_eq_some_iff.mp at'
        have last : i = modules.length := by simp only [List.length_singleton] at inside; omega
        subst last
        simp only [Nat.sub_self, List.getElem_cons_zero] at same
        subst same
        exact ⟨_, List.mem_append_right _ (List.mem_singleton.mpr rfl), ports, rfl, loaded.next,
          by rw [admitted.nextId, ← loaded.next]⟩

private theorem triple_check {P : Booting → Prop} (holds : Bool) (reason : Stop) :
    Triple P (check holds reason) fun _ b => holds = true ∧ P b := by
  intro b start
  cases holds with
  | true => exact ⟨rfl, start⟩
  | false => trivial

private theorem triple_checked {P : Booting → Prop} {holds : Bool} {reason : Stop} {f : Unit → Boot α}
    (next : Triple P (f ()) Q) : Triple P (check holds reason >>= f) Q :=
  (triple_check holds reason).bind fun _ => next.weaken (fun _ both => both.2) fun _ _ after => after

private theorem triple_spawn_check {index : Nat} {ports : List UInt16} {reason : Stop} {f : Nat → Boot α}
    (next : Triple (Loaded p (modules ++ [index])) (f (modules.length + 1)) Q) :
    Triple (Loaded p modules) (do let id ← call (.spawn index ports); check (id ≠ 0) reason; f id) Q := by
  refine (triple_spawn index ports).bind fun id => (triple_check _ _).bind fun _ b => ?_
  rintro ⟨found, ⟨rfl, _⟩ | ⟨rfl, loaded⟩⟩
  · simp at found
  · exact next b loaded

private theorem spawnWithInbox_loads (index : Nat) (ports : List UInt16) :
    Triple (Loaded p modules) (spawnWithInbox index ports) fun _ => Loaded p (modules ++ [index]) := by
  refine triple_spawn_check ?_
  refine triple_equip trivial (fun _ => trivial) fun _ => ?_
  exact triple_equip trivial (fun _ => trivial) fun _ => Triple.pure fun _ holds => holds

private theorem spawnNetRtl8139_loads (nic : Option Nic) (index : Nat) :
    Triple (Loaded p modules) (spawnNetRtl8139 nic index) fun id b =>
      (id = 0 ∧ Loaded p modules b) ∨ (id ≠ 0 ∧ Loaded p (modules ++ [index]) b) := by
  unfold spawnNetRtl8139
  split
  · exact Triple.pure fun b loaded => .inl ⟨rfl, loaded⟩
  · refine (triple_spawn index _).bind fun id => Triple.ite (fun none => ?_) fun found => ?_
    · refine Triple.pure fun b holds => ?_
      rcases holds with ⟨_, loaded⟩ | ⟨new, _⟩
      · exact .inl ⟨rfl, loaded⟩
      · omega
    · refine Triple.weaken (P := Loaded p (modules ++ [index])) ?_ (fun b holds => ?_) fun _ _ after => .inr after
      · refine triple_checked ?_
        refine triple_equip trivial (fun _ => trivial) fun _ => ?_
        refine triple_equip trivial (fun _ => trivial) fun _ => ?_
        refine triple_equip trivial (fun _ => trivial) fun _ => ?_
        exact triple_equip trivial (fun _ => trivial) fun _ => Triple.pure fun _ holds => ⟨found, holds⟩
      · rcases holds with ⟨none, _⟩ | ⟨_, loaded⟩
        · exact absurd none found
        · exact loaded

private theorem spawnServices_loads (nic : Option Nic) :
    Triple (Loaded p []) (spawnServices nic) fun _ b =>
      Loaded p [0, 1, 2, 3, 4] b ∨ Loaded p [0, 1, 2, 3, 4, 5, 6] b := by
  refine (spawnWithInbox_loads 0 []).bind fun (_, _) => ?_
  refine triple_equip trivial (fun _ => trivial) fun _ => ?_
  refine triple_spawn_check (triple_checked ?_)
  refine triple_equip trivial (fun _ => trivial) fun _ => ?_
  refine triple_equip trivial (fun _ => trivial) fun _ => ?_
  refine triple_equip trivial (fun _ => ⟨rfl, rfl⟩) fun _ => ?_
  refine triple_equip trivial (fun _ => trivial) fun _ => ?_
  refine triple_spawn_check (triple_checked ?_)
  refine triple_equip trivial (fun _ => trivial) fun _ => ?_
  refine triple_equip trivial (fun _ => trivial) fun _ => ?_
  refine triple_spawn_check (triple_checked ?_)
  refine triple_equip trivial (fun _ => trivial) fun _ => ?_
  refine triple_equip trivial (fun _ => trivial) fun _ => ?_
  refine triple_spawn_check (triple_checked ?_)
  refine triple_equip trivial (fun _ => trivial) fun _ => ?_
  refine triple_equip trivial (fun _ => trivial) fun _ => ?_
  refine (spawnNetRtl8139_loads nic 5).bind fun net => Triple.ite (fun found => ?_) fun none => ?_
  · refine Triple.weaken (P := Loaded p [0, 1, 2, 3, 4, 5]) ?_ (fun b holds => ?_) fun _ _ after => .inr after
    · exact (spawnWithInbox_loads 6 []).bind fun _ => Triple.pure fun _ loaded => loaded
    · rcases holds with ⟨zero, _⟩ | ⟨_, loaded⟩
      · exact absurd zero found
      · exact loaded
  · refine Triple.pure fun b holds => ?_
    rcases holds with ⟨_, loaded⟩ | ⟨found, _⟩
    · exact .inl loaded
    · exact absurd found none

/-- What the boot leaves behind: the given modules as tasks, and the idle task after them. -/
structure HandedOver (p : Platform) (modules : List Nat) (b : Booting) : Prop where
  wiring : Wiring p b.history b.kernel
  boots : ∀ r ∈ b.history, ∃ c, r.action = .boot c
  started : b.kernel.sched.current ≠ none
  next : b.kernel.nextId = modules.length + 2
  idle : ∀ t ∈ b.kernel.sched.tasks, t.id = modules.length + 1 → t.entry = .idle
  spawned : ∀ i index, modules[i]? = some index → Spawned b.history index (i + 1)

private theorem handOver_hands : Triple (Loaded p modules) handOver fun _ => HandedOver p modules := by
  refine Triple.bind (Q := fun _ b => Wiring p b.history b.kernel ∧ b.kernel.sched.current = none ∧
    b.kernel.nextId = modules.length + 2 ∧ (∃ task ∈ b.kernel.sched.tasks, task.entry = .idle) ∧
    (∀ t ∈ b.kernel.sched.tasks, t.id = modules.length + 1 → t.entry = .idle) ∧
    ∀ i index, modules[i]? = some index → Spawned b.history index (i + 1)) ?_ fun _ => ?_
  · refine triple_call fun k h result k' loaded ran => ?_
    have after := loaded.wiring.boot loaded.early (show BootCall.spawnIdle.Allowed k from trivial) ran
    obtain ⟨_, _, rfl⟩ := Loader.addTask_eq_ok ran
    refine ⟨after, loaded.early, congrArg (· + 1) loaded.next,
      ⟨_, List.mem_append_right _ (List.mem_singleton.mpr rfl), rfl⟩, fun t member last => ?_,
      fun i index at' => (loaded.spawned i index at').mono _⟩
    rcases List.mem_append.mp member with old | new
    · have := (loaded.wiring.booked.ids t old).2
      have := loaded.next
      omega
    · rw [List.mem_singleton.mp new]
      rfl
  · refine Triple.bind (Q := fun _ => HandedOver p modules) ?_ fun _ => Triple.pure fun _ holds => holds
    refine triple_call fun k h result k' before ran => ?_
    obtain ⟨wiring, early, next, idle, last, spawned⟩ := before
    have after := wiring.boot early (show BootCall.start.Allowed k from idle) ran
    obtain ⟨s, started, ran⟩ := bind_eq_ok.mp ran
    cases ran
    obtain ⟨first, _, _, _, _, current, _⟩ := switchToNext_eq_ok started
    have running : s.current ≠ none := by simp [current]
    refine ⟨after, ?_, running, next, fun t member same => ?_, fun i index at' => (spawned i index at').mono _⟩
    · exact List.forall_mem_append.mpr ⟨wiring.boots early, List.forall_mem_singleton.mpr ⟨.start, rfl⟩⟩
    have listed : t.identity ∈ k.sched.tasks.map Task.identity :=
      (start_restated started).sameTasks ▸ List.mem_map_of_mem member
    obtain ⟨t', member', identity⟩ := List.mem_map.mp listed
    simp only [Task.identity, Prod.mk.injEq] at identity
    exact identity.2.1.symm.trans (last t' member' (identity.1.trans same))

end Booting

/-- The production boot loads its modules in a fixed order; the idle task comes last. -/
theorem kernelMain_handsOver {b : Booting} (boot : kernelMain p = .ok b) :
    HandedOver p [0, 1, 2, 3, 4] b ∨ HandedOver p [0, 1, 2, 3, 4, 5, 6] b := by
  obtain ⟨k, up, boot⟩ := bind_eq_ok.mp boot
  obtain ⟨⟨_, b'⟩, ran, boot⟩ := bind_eq_ok.mp boot
  cases boot
  have loaded : Loaded p [] { kernel := k, history := [] } := by
    have wiring := Wiring.bringUp up
    obtain ⟨total, mm, mm', -, -, -, -, rfl⟩ := bringUp_eq_ok up
    exact ⟨wiring, rfl, rfl, nofun⟩
  have whole : Triple (Loaded p []) (do spawnServices p.nic; handOver) fun _ b =>
      HandedOver p [0, 1, 2, 3, 4] b ∨ HandedOver p [0, 1, 2, 3, 4, 5, 6] b := by
    refine (spawnServices_loads p.nic).bind fun _ b holds => ?_
    rcases holds with few | many
    · exact (handOver_hands b few).mono fun _ after => .inl after
    · exact (handOver_hands b many).mono fun _ after => .inr after
  exact whole.of_ok loaded ran

theorem Reached.wiring (reached : Reached p h k) : Wiring p h k := by
  induction reached with
  | booted boot => rcases kernelMain_handsOver boot with handed | handed <;> exact handed.wiring
  | event _ may ran ih => exact ih.event may ran

theorem Run.wiring (run : Run p) : Wiring p run.history run.kernel := run.reached.wiring

theorem Reached.started (reached : Reached p h k) : k.sched.current ≠ none := by
  induction reached with
  | booted boot => rcases kernelMain_handsOver boot with handed | handed <;> exact handed.started
  | event before may ran ih => exact ((step_served before.wiring.booked may).of_ok ran).running

/-! ## Scheduler and IPC agree -/

private theorem status_eq_some_iff {s : Scheduler} {waiting : List Nat} (consistent : s.Consistent waiting) {id : Nat}
    {state : TaskState} : s.status id = some state ↔ ∃ t ∈ s.tasks, t.id = id ∧ t.state = state := by
  rw [status, Option.map_eq_some_iff]
  constructor
  · rintro ⟨t, found, same⟩
    exact ⟨t, find_mem Task.id found, find_key Task.id found, same⟩
  · rintro ⟨t, member, id, same⟩
    exact ⟨t, (find_eq_some_iff Task.id consistent.ids).mpr ⟨member, id⟩, same⟩

/-- In every state of every run one task runs, which is the current one; the ready queue lists the ready tasks
    and the two IPC queues the blocked ones, each once; none of them lists an exited task. Only blocked
    tasks were ever woken, and no step fails to find a task or runs out of tasks. -/
theorem scheduler_and_ipc_agree (run : Run p) :
    let s := run.kernel.sched
    let waiting := run.kernel.core.ipc.pendingRecvs.map PendingRecv.taskId ++
      run.kernel.core.ipc.pendingSends.map PendingSend.taskId
    (∃ t ∈ s.tasks, s.current = some t.id ∧ t.state = .running ∧ ∀ t' ∈ s.tasks, t'.state = .running → t' = t) ∧
      s.readyQueue.Nodup ∧ (∀ id, id ∈ s.readyQueue ↔ ∃ t ∈ s.tasks, t.id = id ∧ t.state = .ready) ∧
      waiting.Nodup ∧ (∀ id, id ∈ waiting ↔ ∃ t ∈ s.tasks, t.id = id ∧ t.state = .blocked) ∧
      (∀ t ∈ s.tasks, t.state = .zombie → s.current ≠ some t.id ∧ t.id ∉ s.readyQueue ∧ t.id ∉ waiting) ∧
      (∀ w ∈ s.woken, w.2 = .blocked) ∧
      ∀ e, enabled run.kernel e = true → ∀ r, step run.kernel e = .error r →
        r ≠ .unknownTask ∧ r ≠ .noCurrentTask ∧ r ≠ .noTaskToRun := by
  intro s waiting
  have booked := run.wiring.booked
  have consistent : s.Consistent waiting := booked.core
  have agree := consistent.agree
  have states {id : Nat} {state : TaskState} : s.status id = some state ↔ ∃ t ∈ s.tasks, t.id = id ∧ t.state = state :=
    status_eq_some_iff consistent
  obtain ⟨id, current⟩ := Option.ne_none_iff_exists'.mp run.reached.started
  obtain ⟨t, member, rfl, running⟩ := states.mp ((agree.running id).mpr current)
  refine ⟨⟨t, member, current, running, ?_⟩, agree.queued, fun id => (agree.ready id).trans states, agree.parkedOnce,
    fun id => (agree.blocked id).trans states, ?_, consistent.woken, fun e may r => (step_served booked may).of_error⟩
  · intro t' member' running'
    have same := (agree.running t'.id).mp (states.mpr ⟨t', member', rfl, running'⟩)
    rw [current, Option.some.injEq] at same
    exact List.inj_on_of_nodup_map consistent.ids member' member same.symm
  · intro t' member' exited
    have zombie := states.mpr ⟨t', member', rfl, exited⟩
    refine ⟨agree.not_current ?_, agree.not_ready ?_, agree.not_parked ?_⟩ <;> simp [zombie]

/-! ## Events in a row -/

theorem Booting.next_eq_some {b b' : Booting} {e : Event} (ran : b.next e = some b') :
    enabled b.kernel e = true ∧ step b.kernel e = .ok b'.kernel ∧
      b'.history = b.history ++ [{ pre := b.kernel, action := .event e, post := b'.kernel }] := by
  unfold Booting.next at ran
  split at ran
  · rename_i may
    split at ran
    · rename_i k' stepped
      cases ran
      exact ⟨may, stepped, rfl⟩
    · cases ran
  · cases ran

theorem Reached.drive {b b' : Booting} (reached : Reached p b.history b.kernel) (events : List Event)
    (ran : b.drive events = some b') : Reached p b'.history b'.kernel := by
  induction events generalizing b with
  | nil =>
    cases ran
    exact reached
  | cons e rest ih =>
    obtain ⟨b1, first, ran⟩ := Option.bind_eq_some_iff.mp ran
    obtain ⟨may, stepped, recorded⟩ := Booting.next_eq_some first
    exact ih (recorded ▸ reached.event may stepped) ran

/-- The registers with which each message to the task arrived. -/
def arrivals (h : List Record) (id : Nat) : List SavedRegs :=
  h.filterMap fun r =>
    let before := r.pre.core.ipc.sendBooks.delivered
    if (r.post.core.ipc.sendBooks.delivered.drop before.length).any fun entry => entry.2.receiver == id then
      r.post.sched.registers id
    else none

/-! ## A small machine

Half a megabyte above the first, no network card, and five modules of sixteen bytes each. What some runs on it come
to is evaluated at once, since each evaluation goes through the boot. -/

section SmallMachine
open Bytes

def smallImage : Image where
  bootDir := 0x100000
  kernelEnd := 0x102000
  stackFits id := decide (id ≤ 15)
  aligned := by decide
  loaded := by decide
  inside := by decide
  mapped := by decide
  scarce id fits := by
    have := of_decide_eq_true fits
    simp only [kernelStackSize, heapSize]
    omega

/-- The multiboot information at `0x9000`, and the table of modules behind it. -/
def smallWords : List (Nat × Nat) :=
  [(0x9000, 9), (0x9008, 512), (0x9014, 5), (0x9018, 0x9100),
    (0x9100, 0x110000), (0x9104, 0x110010), (0x9110, 0x111000), (0x9114, 0x111010), (0x9120, 0x112000),
    (0x9124, 0x112010), (0x9130, 0x113000), (0x9134, 0x113010), (0x9140, 0x114000), (0x9144, 0x114010)]

def smallMemory : Memory := smallWords.foldl (fun m w => write32 m w.1 w.2) fun _ => 0

private theorem smallMemory_blank (a : Nat) (low : smallImage.bootDir ≤ a) : smallMemory a = 0 := by
  have low : 0x100000 ≤ a := low
  simp only [smallMemory, smallWords, List.foldl]
  iterate 14 rw [write32_apply_other _ _ _ (by omega)]

def smallMachine : Platform where
  image := smallImage
  mem := smallMemory
  info := 0x9000
  nic := none
  blank := fun a low _ => smallMemory_blank a low
  addressable := by decide

def request (eax ebx ecx edx esi edi : UInt32) : Event := .syscall { eax, ebx, ecx, edx, esi, edi, ebp := 0 }

/-- The name service exits, and the console server sends to it. -/
def sendToExited : List Event := [request Syscall.sysExit 0 0 0 0 0, request Syscall.sysSend 1 0 0 0 0]

/-- The name service listens; the console server loads a program, which gets its turn and registers the name `tcp`. -/
def registerLate : List Event :=
  [request Syscall.sysRecv 1 0 0 0 0, request Syscall.sysMemAlloc 0x10000000 1 0 0 0,
    request Syscall.sysSpawnFromMemory 5 0 0 0 16, .tick, .tick, .tick, .tick, .tick,
    request Syscall.sysEndpointCreate 0 0 0 0 0, request Syscall.sysSend 1 1 0x706374 0 2]

/-- A task takes a page at the address of the multiboot information, and asks for module 0. -/
def shadowInformation : List Event := [request Syscall.sysMemAlloc 0x9000 1 0 0 0, request Syscall.sysCreateTask 0 0 0 0 0]

/-- A task asks for all frames there are, in a region without a page table. -/
def takeEverything : Event := request Syscall.sysMemAlloc 0x40000000 85 0 0 0

def Booting.observe (b : Booting) (events : List Event) (check : Booting → Bool) : Bool := (b.drive events).any check

def Booting.observations (b : Booting) : Bool :=
  (b.observe sendToExited fun b =>
    b.kernel.core.ipc.pendingSends.any (fun w => w.endpoint == 0) &&
      b.kernel.core.ipc.endpoints[0]?.map EndpointMeta.owner == some 1 && b.kernel.sched.status 1 == some .zombie) &&
  (b.observe registerLate fun b =>
    arrivals b.history 1 == [{ eax := 7, ebx := 1, ecx := 0x706374, edx := 0, esi := 0, edi := 2, ebp := 0 }] &&
      b.history.all fun r => match r.action with | .boot (.spawn index _) => index != 6 | _ => true) &&
  (b.observe shadowInformation fun b =>
    (b.kernel.sched.registers 1).map SavedRegs.eax == some 0 && b.kernel.nextId == 7) &&
  match step b.kernel takeEverything with
  | .error .outOfMemory => true
  | _ => false

private theorem smallMachine_observations :
    (match kernelMain smallMachine with
    | .ok b => b.observations
    | .error _ => false) = true := by
  decide +kernel

theorem smallMachine_boots : ∃ b, kernelMain smallMachine = .ok b ∧ b.observations = true := by
  have seen := smallMachine_observations
  split at seen
  · rename_i b boot
    exact ⟨b, boot, seen⟩
  · cases seen

theorem Booting.observe_run {b : Booting} (boot : kernelMain p = .ok b) {events : List Event} {check : Booting → Bool}
    (seen : b.observe events check = true) :
    ∃ run : Run p, check { kernel := run.kernel, history := run.history } = true := by
  obtain ⟨b', ran, checked⟩ := (Option.any_eq_true _ _).mp seen
  exact ⟨⟨b'.history, b'.kernel, (Reached.booted boot).drive events ran⟩, checked⟩

end SmallMachine

end Pcern

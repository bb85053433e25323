import Pcern.Tasks

/-!
Which ports a task can use. At every switch `activate` hands the port list of the
next task to the task state segment. The list of a task is fixed when it is
created, and only the boot gives any. So at all times the bitmap that the CPU
consults opens the ports that the running task was loaded with, and no others.
-/
namespace Pcern
open Keyed Scheduler

/-- While a task runs the bitmap is that of its ports. They are those that it had at any time before, and a task that is
    created by another one has none. -/
structure OwnPorts (h : List Record) (k : Kernel) : Prop where
  bitmap : ∃ task, k.runningTask = some task ∧
    k.sched.gdt.tss.ioBitmap = Gdt.allowPorts (List.replicate Gdt.ioBitmapBytes 0xFF) task.allowedPorts
  fixed : ∀ r ∈ h, ∀ t ∈ r.pre.sched.tasks, ∃ t' ∈ k.sched.tasks, t'.id = t.id ∧ t'.allowedPorts = t.allowedPorts
  booted : ∀ r ∈ h, ∀ e, r.action = .event e → ∀ t ∈ r.post.sched.tasks, t.allowedPorts ≠ [] →
    ∃ t' ∈ r.pre.sched.tasks, t'.identity = t.identity

/-- The bitmap is clean from its dirty mark on, and opens the ports of the running task. -/
structure Activated (k : Kernel) : Prop where
  tidy : Gdt.Tidy k.sched.gdt
  bitmap : ∀ task, k.runningTask = some task →
    k.sched.gdt.tss.ioBitmap = Gdt.allowPorts (List.replicate Gdt.ioBitmapBytes 0xFF) task.allowedPorts

section Steps
variable {p : Platform} {h : List Record} {k k' : Kernel}

theorem Population.kept (population : Population k k') {t : Task} (member : t ∈ k.sched.tasks) :
    ∃ t' ∈ k'.sched.tasks, t'.identity = t.identity := by
  have listed := List.mem_map_of_mem (f := Task.identity) member
  apply List.mem_map.mp
  cases population with
  | same tasks _ => exact tasks.symm ▸ listed
  | more tasks _ _ => exact tasks.symm ▸ List.mem_append_left _ listed

theorem Kernel.Booked.runs (booked : k.Booked) (running : k.sched.current ≠ none) : ∃ task, k.runningTask = some task := by
  obtain ⟨id, current⟩ := Option.ne_none_iff_exists'.mp running
  obtain ⟨task, found, _⟩ := Option.map_eq_some_iff.mp ((booked.core.agree.running id).mpr current)
  exact ⟨task, by rw [Kernel.runningTask, current]; exact found⟩

theorem Population.ports (population : Population k k') (booked : k'.Booked) (same : k'.sched.current = k.sched.current)
    {task task' : Task} (running : k.runningTask = some task) (running' : k'.runningTask = some task') :
    task'.allowedPorts = task.allowedPorts := by
  obtain ⟨id, current, found⟩ := Kernel.runningTask_eq_some running
  obtain ⟨id', current', found'⟩ := Kernel.runningTask_eq_some running'
  rw [same, current, Option.some.injEq] at current'
  subst current'
  obtain ⟨t, member, identity⟩ := population.kept (find_mem Task.id found)
  simp only [Task.identity, Prod.mk.injEq] at identity
  have here := (find_eq_some_iff Task.id booked.core.ids).mpr ⟨member, identity.1.trans (find_key Task.id found)⟩
  cases here.symm.trans found'
  exact identity.2.2.2

/-- What a call or a step does to the bitmap: nothing, unless there is a switch. -/
def HandsOver (s s' : Scheduler) : Prop := (s'.current = s.current ∧ s'.gdt = s.gdt) ∨ Activates s s'

theorem Did.handsOver {e : Event} (did : Did k e k') : HandsOver k.sched k'.sched := by
  cases did.scheduled with
  | turns rotated _ => exact rotated.imp (fun joined => ⟨joined.current, joined.gdt⟩) Advanced.activates
  | admits _ _ _ _ current gdt _ => exact .inl ⟨current, gdt⟩

theorem BootDid.handsOver {c : BootCall} (did : BootDid k c k') : HandsOver k.sched k'.sched := by
  cases did with
  | spawn ran =>
    cases ran with
    | refused => exact .inl ⟨rfl, rfl⟩
    | gaveUp _ _ => exact .inl ⟨rfl, rfl⟩
    | loaded _ _ admitted _ _ _ _ =>
      rw [admitted.sched]
      exact .inl ⟨rfl, rfl⟩
  | grant ran => exact .inl ⟨(SameRotation.installCapFor ran).current, (SameRotation.installCapFor ran).gdt⟩
  | infoPage _ ran => exact .inl ⟨(SameRotation.installCapFor ran).current, (SameRotation.installCapFor ran).gdt⟩
  | start ran =>
    obtain ⟨_, _, _, _, _, _, _, _, activates⟩ := switchToNext_eq_ok ran
    exact .inr activates
  | _ => exact .inl ⟨rfl, rfl⟩

theorem Activated.step (activated : Activated k) (handsOver : HandsOver k.sched k'.sched) (population : Population k k')
    (booked : k.Booked) (booked' : k'.Booked) : Activated k' := by
  rcases handsOver with ⟨same, gdt⟩ | ⟨id, task, current, found, gdt⟩
  -- without a switch the ports that were handed over last are still those of the running task
  · refine ⟨gdt.symm ▸ activated.tidy, fun task' running' => ?_⟩
    obtain ⟨id, current, _⟩ := Kernel.runningTask_eq_some running'
    obtain ⟨task, running⟩ := booked.runs (by simp [← same, current])
    rw [gdt, population.ports booked' same running running']
    exact activated.bitmap task running
  -- whatever bits the earlier switches left clear, the last one resets them
  · refine ⟨gdt.symm ▸ activated.tidy.setIoPermissions _, fun task' running' => ?_⟩
    obtain ⟨id', current', found'⟩ := Kernel.runningTask_eq_some running'
    cases current.symm.trans current'
    cases found.symm.trans found'
    rw [gdt]
    exact activated.tidy.setIoPermissions_eq _

theorem Wiring.activated (wiring : Wiring p h k) : Activated k := by
  induction wiring with
  | bringUp up =>
    obtain ⟨total, mm, mm', -, -, -, -, rfl⟩ := bringUp_eq_ok up
    exact ⟨Gdt.tidy_initial, fun task running => by cases running⟩
  | boot before early allowed ran ih =>
    have did := bootCall_did before.booked.fresh ran
    exact ih.step did.handsOver did.population before.booked (Wiring.boot before early allowed ran).booked
  | event before may ran ih =>
    have did := step_did before.booked.fresh ran
    exact ih.step did.handsOver did.population before.booked (Wiring.event before may ran).booked

theorem Did.portless {e : Event} (did : Did k e k') {t : Task} (member : t ∈ k'.sched.tasks) (ports : t.allowedPorts ≠ []) :
    ∃ t' ∈ k.sched.tasks, t'.identity = t.identity := by
  have listed := List.mem_map_of_mem (f := Task.identity) member
  apply List.mem_map.mp
  cases did.scheduled with
  | turns rotated _ => exact rotated.tasks ▸ listed
  | admits tasks _ _ _ _ _ portless =>
    rw [tasks] at listed
    rcases List.mem_append.mp listed with old | new
    · exact old
    · have identity := List.mem_singleton.mp new
      simp only [Task.identity, Prod.mk.injEq] at identity
      exact absurd (identity.2.2.2.trans portless) ports

/-- In every run the ports that ring 3 can use are those of the running task, which it has had since it was created, and
    which a task that was created after the boot has none of. -/
theorem ports_follow_task (run : Run p) : OwnPorts run.history run.kernel := by
  have kept : ∀ k k', Population k k' → ∀ t ∈ k.sched.tasks, ∃ t' ∈ k'.sched.tasks, t'.id = t.id ∧
      t'.allowedPorts = t.allowedPorts := by
    intro k k' population t there
    obtain ⟨t', there', identity⟩ := population.kept there
    exact ⟨t', there', congrArg Prod.fst identity, congrArg (·.2.2.2) identity⟩
  constructor
  · obtain ⟨task, running⟩ := run.wiring.booked.runs run.reached.started
    exact ⟨task, running, run.wiring.activated.bitmap task running⟩
  · intro r member
    refine run.wiring.since (R := fun k k' => ∀ t ∈ k.sched.tasks, ∃ t' ∈ k'.sched.tasks, t'.id = t.id ∧
      t'.allowedPorts = t.allowedPorts) ?_ ?_ ?_ r member
    · intro _ _ _ first second t there
      obtain ⟨t', there', id, ports⟩ := first t there
      obtain ⟨t'', there'', id', ports'⟩ := second t' there'
      exact ⟨t'', there'', id'.trans id, ports'.trans ports⟩
    · exact fun k k' _ did => kept k k' did.population
    · exact fun k k' _ did => kept k k' did.population
  · intro r member e isEvent t there ports
    obtain ⟨h', before, _, how⟩ := run.wiring.record member
    rcases how with ⟨c, _, isCall, _⟩ | ⟨e', _, _, ran⟩
    · cases isCall.symm.trans isEvent
    · exact (step_did before.booked.fresh ran).portless there ports

end Steps

end Pcern

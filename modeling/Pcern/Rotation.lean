import Pcern.Tasks

/-!
Every task that is ready gets its turn. The ready queue is served from its front,
and the timer makes the front run whenever there is one. So a task with `i` others
before it runs before `i + 1` ticks have passed, whatever tasks and interrupts do.
-/
namespace Pcern
open Scheduler

def Record.isTick (r : Record) : Bool :=
  match r.action with
  | .event .tick => true
  | _ => false

/-- A task that is ready with `i` others before it runs before `i + 1` ticks have passed. -/
def ServedInTurn (h : List Record) : Prop :=
  ∀ before r after i id, h = before ++ r :: after → (∃ e, r.action = .event e) → r.pre.sched.readyQueue[i]? = some id →
    i < (r :: after).countP Record.isTick → ∃ r' ∈ r :: after, r'.post.sched.current = some id

section Steps
variable {k k' : Kernel} {e : Event} {i id : Nat}

theorem getElem?_of_front {queue queue' : List Nat} (front : queue <+: queue') (there : queue[i]? = some id) :
    queue'[i]? = some id := by
  obtain ⟨more, rfl⟩ := front
  rw [List.getElem?_append_left (List.getElem?_eq_some_iff.mp there).1, there]

theorem Advanced.position {s s' : Scheduler} (advanced : Advanced s s') (there : s.readyQueue[i]? = some id) :
    s'.current = some id ∨ ∃ j < i, s'.readyQueue[j]? = some id := by
  obtain ⟨next, rest, front, behind, current⟩ := advanced.front
  rw [front] at there
  cases i with
  | zero =>
    simp only [List.getElem?_cons_zero, Option.some.injEq] at there
    exact .inl (there ▸ current)
  | succ i =>
    rw [List.getElem?_cons_succ] at there
    exact .inr ⟨i, by omega, getElem?_of_front behind there⟩

theorem Did.position (did : Did k e k') (there : k.sched.readyQueue[i]? = some id) :
    k'.sched.current = some id ∨ ∃ j ≤ i, k'.sched.readyQueue[j]? = some id := by
  cases did.scheduled with
  | turns rotated _ =>
    rcases rotated with joined | advanced
    · exact .inr ⟨i, le_rfl, getElem?_of_front joined.queue there⟩
    · refine (advanced.position there).imp_right ?_
      rintro ⟨j, less, there⟩
      exact ⟨j, less.le, there⟩
  | admits _ _ _ queue _ _ _ => exact .inr ⟨i, le_rfl, getElem?_of_front queue there⟩

theorem Did.position_tick (did : Did k .tick k') (may : enabled k .tick = true) (there : k.sched.readyQueue[i]? = some id) :
    k'.sched.current = some id ∨ ∃ j < i, k'.sched.readyQueue[j]? = some id := by
  obtain ⟨task, running⟩ := Option.isSome_iff_exists.mp may
  obtain ⟨self, current, _⟩ := Kernel.runningTask_eq_some running
  have ready : k.sched.readyQueue ≠ [] := by
    intro empty
    simp [empty] at there
  cases did with
  | tick ran => exact ((tick_rotated ran).2 (by simp [current]) ready).position there
  | fault trap _ => simp at trap
  | quiet interrupt => simp at interrupt
  | notify interrupt _ _ => simp at interrupt

end Steps

section Histories
variable {p : Platform} {h : List Record} {k : Kernel}

/-- Since any record that found a task ready, the task has run, or has come nearer to the front with every tick. -/
def Nearing (h : List Record) (k : Kernel) : Prop :=
  ∀ before r after i id, h = before ++ r :: after → (∃ e, r.action = .event e) → r.pre.sched.readyQueue[i]? = some id →
    (∃ r' ∈ r :: after, r'.post.sched.current = some id) ∨
      ∃ j, k.sched.readyQueue[j]? = some id ∧ j + (r :: after).countP Record.isTick ≤ i

theorem Nearing.snoc (last : Record) (nearing : Nearing h last.pre)
    (moves : ∀ i id, last.pre.sched.readyQueue[i]? = some id → last.post.sched.current = some id ∨
      ∃ j, last.post.sched.readyQueue[j]? = some id ∧ j + [last].countP Record.isTick ≤ i) :
    Nearing (h ++ [last]) last.post := by
  intro before r after i id split isEvent there
  -- the task was found ready by the last record, or earlier
  rcases List.eq_nil_or_concat after with rfl | ⟨after, newest, rfl⟩
  · obtain ⟨rfl, same⟩ := List.append_inj' split rfl
    cases same
    rcases moves i id there with runs | waits
    · exact .inl ⟨last, List.mem_singleton.mpr rfl, runs⟩
    · exact .inr waits
  · rw [List.concat_eq_append, ← List.cons_append, ← List.append_assoc] at split
    obtain ⟨rfl, same⟩ := List.append_inj' split rfl
    cases same
    rw [List.concat_eq_append, ← List.cons_append, List.countP_append]
    rcases nearing before r after i id rfl isEvent there with ⟨r', member, runs⟩ | ⟨j, waits, near⟩
    · exact .inl ⟨r', List.mem_append_left _ member, runs⟩
    · rcases moves j id waits with runs | ⟨j', waits, nearer⟩
      · exact .inl ⟨last, List.mem_append_right _ (List.mem_singleton.mpr rfl), runs⟩
      · exact .inr ⟨j', waits, by omega⟩

theorem Reached.nearing (reached : Reached p h k) : Nearing h k := by
  induction reached with
  | booted boot =>
    intro before r after i id split isEvent
    obtain ⟨e, isEvent⟩ := isEvent
    have member : r ∈ before ++ r :: after := by simp
    obtain ⟨c, isCall⟩ : ∃ c, r.action = .boot c := by
      rcases kernelMain_handsOver boot with handed | handed
      · exact handed.boots r (split ▸ member)
      · exact handed.boots r (split ▸ member)
    cases isCall.symm.trans isEvent
  | @event h k k' e reached may ran nearing =>
    have did := step_did reached.wiring.booked.fresh ran
    refine Nearing.snoc ⟨k, .event e, k'⟩ nearing fun i id there => ?_
    cases e with
    | tick =>
      refine (did.position_tick may there).imp_right ?_
      rintro ⟨j, less, there⟩
      exact ⟨j, there, by simpa [Record.isTick] using Nat.succ_le_of_lt less⟩
    | _ =>
      refine (did.position there).imp_right ?_
      rintro ⟨j, le, there⟩
      exact ⟨j, there, by simpa [Record.isTick] using le⟩

/-- No task starves: in every run a task that is ready runs before as many ticks have passed as there are tasks up to it
    in the queue, whatever else happens in between. -/
theorem ready_tasks_run (run : Run p) : ServedInTurn run.history := by
  intro before r after i id split isEvent there many
  rcases run.reached.nearing before r after i id split isEvent there with runs | ⟨j, _, near⟩
  · exact runs
  · omega

end Histories

end Pcern

import Mathlib.Data.List.Nodup
import Mathlib.Data.List.Perm.Basic
import Mathlib.Logic.Function.Basic

/-!
The bookkeeping of a run queue. Every participant has a status; one of them at
most is current, the ready ones queue, and the blocked ones are parked
somewhere. `Agree` says that the four records agree. A scheduler is made of four
moves: the current participant leaves (to the back of the queue, to the parked
ones, or for good), the front of the queue is dispatched, a parked one wakes,
and a new one is admitted. Each keeps the agreement.
-/
namespace Pcern.RunQueue

inductive Status where
  | ready
  | running
  | blocked
  | zombie
  deriving DecidableEq, Repr

variable {ι : Type}

structure Agree (status : ι → Option Status) (current : Option ι) (queue parked : List ι) : Prop where
  running : ∀ i, status i = some .running ↔ current = some i
  ready : ∀ i, i ∈ queue ↔ status i = some .ready
  queued : queue.Nodup
  blocked : ∀ i, i ∈ parked ↔ status i = some .blocked
  parkedOnce : parked.Nodup

theorem agree_empty : Agree (fun _ : ι => none) none [] [] :=
  ⟨fun _ => by simp, fun _ => by simp, List.nodup_nil, fun _ => by simp, List.nodup_nil⟩

section Moves
variable {status : ι → Option Status} {current current' : Option ι} {queue queue' parked parked' : List ι} {i c next : ι}

section
variable (agree : Agree status current queue parked)
include agree

theorem Agree.perm (same : parked'.Perm parked) :
    Agree status current queue parked' :=
  { agree with
    blocked := fun j => (same.mem_iff).trans (agree.blocked j)
    parkedOnce := same.nodup_iff.mpr agree.parkedOnce }

theorem Agree.not_ready (other : status i ≠ some .ready) : i ∉ queue :=
  fun member => other ((agree.ready i).mp member)

theorem Agree.not_parked (other : status i ≠ some .blocked) : i ∉ parked :=
  fun member => other ((agree.blocked i).mp member)

theorem Agree.not_current (other : status i ≠ some .running) :
    current ≠ some i :=
  fun same => other ((agree.running i).mpr same)

theorem Agree.queued_append (out : i ∉ queue) : (queue ++ [i]).Nodup :=
  List.nodup_append.mpr ⟨agree.queued, List.nodup_singleton i, fun j member k single same => by
    rw [List.mem_singleton] at single
    exact out (single ▸ same ▸ member)⟩

end

/-- The current participant is listed nowhere. -/
private theorem Agree.current_out (agree : Agree status (some c) queue parked) : c ∉ queue ∧ c ∉ parked := by
  have was : status c = some .running := (agree.running c).mpr rfl
  exact ⟨agree.not_ready (by simp [was]), agree.not_parked (by simp [was])⟩

variable [DecidableEq ι]

/-- One participant changes status: the records agree if they list it as its new status says and are
    the same for all others. -/
theorem Agree.assign (agree : Agree status current queue parked) {new : Status}
    (others : ∀ j ≠ i, (current' = some j ↔ current = some j) ∧ (j ∈ queue' ↔ j ∈ queue) ∧ (j ∈ parked' ↔ j ∈ parked))
    (here : (current' = some i ↔ new = .running) ∧ (i ∈ queue' ↔ new = .ready) ∧ (i ∈ parked' ↔ new = .blocked))
    (queued : queue'.Nodup) (parkedOnce : parked'.Nodup) :
    Agree (Function.update status i (some new)) current' queue' parked' := by
  refine ⟨fun j => ?_, fun j => ?_, queued, fun j => ?_, parkedOnce⟩
  · by_cases same : j = i
    · simp [same, here.1]
    · rw [Function.update_of_ne same, agree.running j, (others j same).1]
  · by_cases same : j = i
    · simp [same, here.2.1]
    · rw [Function.update_of_ne same, ← agree.ready j, (others j same).2.1]
  · by_cases same : j = i
    · simp [same, here.2.2]
    · rw [Function.update_of_ne same, ← agree.blocked j, (others j same).2.2]

theorem Agree.yield (agree : Agree status (some c) queue parked) :
    Agree (Function.update status c (some .ready)) none (queue ++ [c]) parked := by
  obtain ⟨notReady, notParked⟩ := agree.current_out
  refine agree.assign (fun j other => ?_) ?_ (agree.queued_append notReady) agree.parkedOnce
  · simp [other, Ne.symm other]
  · simp [notParked]

theorem Agree.park (agree : Agree status (some c) queue parked) :
    Agree (Function.update status c (some .blocked)) none queue (c :: parked) := by
  obtain ⟨notReady, notParked⟩ := agree.current_out
  refine agree.assign (fun j other => ?_) ?_ agree.queued (List.nodup_cons.mpr ⟨notParked, agree.parkedOnce⟩)
  · simp [other, Ne.symm other]
  · simp [notReady]

theorem Agree.stop (agree : Agree status (some c) queue parked) :
    Agree (Function.update status c (some .zombie)) none queue parked := by
  obtain ⟨notReady, notParked⟩ := agree.current_out
  refine agree.assign (fun j other => ?_) ?_ agree.queued agree.parkedOnce
  · simp [Ne.symm other]
  · simp [notReady, notParked]

theorem Agree.dispatch (agree : Agree status none (next :: queue) parked) :
    Agree (Function.update status next (some .running)) (some next) queue parked := by
  have was : status next = some .ready := (agree.ready next).mp (by simp)
  have ⟨notQueued, queued⟩ := List.nodup_cons.mp agree.queued
  have notParked : next ∉ parked := agree.not_parked (by simp [was])
  refine agree.assign (fun j other => ?_) ?_ queued agree.parkedOnce
  · simp [other, Ne.symm other]
  · simp [notQueued, notParked]

theorem Agree.wake (agree : Agree status current queue parked) (split : parked.Perm (i :: parked')) :
    Agree (Function.update status i (some .ready)) current (queue ++ [i]) parked' := by
  have ⟨out, once⟩ := List.nodup_cons.mp (split.nodup_iff.mp agree.parkedOnce)
  have was : status i = some .blocked := (agree.blocked i).mp (split.mem_iff.mpr (by simp))
  have notReady : i ∉ queue := agree.not_ready (by simp [was])
  have notCurrent : current ≠ some i := agree.not_current (by simp [was])
  refine agree.assign (fun j other => ?_) ?_ (agree.queued_append notReady) once
  · simp [other, split.mem_iff]
  · simp [notCurrent, out]

theorem Agree.admit (agree : Agree status current queue parked) (new : status i = none) :
    Agree (Function.update status i (some .ready)) current (queue ++ [i]) parked := by
  have notReady : i ∉ queue := agree.not_ready (by simp [new])
  have notParked : i ∉ parked := agree.not_parked (by simp [new])
  have notCurrent : current ≠ some i := agree.not_current (by simp [new])
  refine agree.assign (fun j other => ?_) ?_ (agree.queued_append notReady) agree.parkedOnce
  · simp [other]
  · simp [notCurrent, notParked]

end Moves
end Pcern.RunQueue

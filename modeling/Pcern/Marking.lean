import Mathlib.Data.List.Basic
import Mathlib.Logic.Relation

/-!
Marking everything below a node of a finite graph with a work stack. Nodes are
the rows of a list and name their successors by number. The loop does not look
below a node that is marked already, so it reaches everything below its start
only when the marks are closed under successors to begin with (`Closed`); then
it adds exactly the reachable nodes (`loop_marked_iff`) and leaves the marks
closed (`loop_closed`).
-/
namespace Pcern.Marking

/-- How rows carry their successors and their mark. -/
structure Rows (α : Type) where
  successors : α → List Nat
  marked : α → Bool
  mark : α → α
  marked_mark : ∀ row, marked (mark row) = true
  successors_mark : ∀ row, successors (mark row) = successors row

variable {α : Type} (R : Rows α)

def unmarked (rows : List α) : Nat := rows.countP fun row => !R.marked row

variable {i start : Nat}

private theorem unmarked_modify_lt {rows : List α} {row : α} (found : rows[i]? = some row)
    (clear : R.marked row = false) : unmarked R (rows.modify i R.mark) < unmarked R rows := by
  induction rows generalizing i with
  | nil => simp at found
  | cons first rest ih =>
    cases i with
    | zero =>
      simp only [List.getElem?_cons_zero, Option.some.injEq] at found
      subst found
      simp [unmarked, clear, R.marked_mark]
    | succ j =>
      simp only [List.getElem?_cons_succ] at found
      have later := ih found
      simp only [unmarked, List.modify_succ_cons, List.countP_cons] at later ⊢
      omega

/-- The work loop. The head of `stack` is its top: the last successor pushed is looked at first. -/
def loop (rows : List α) (stack : List Nat) : List α :=
  match stack with
  | [] => rows
  | i :: rest =>
    match _found : rows[i]? with
    | none => loop rows rest
    | some row =>
      if _seen : R.marked row = true then loop rows rest
      else loop (rows.modify i R.mark) ((R.successors row).reverse ++ rest)
termination_by (unmarked R rows, stack.length)
decreasing_by
  · exact Prod.Lex.right _ (by simp)
  · exact Prod.Lex.right _ (by simp)
  · exact Prod.Lex.left _ _ (unmarked_modify_lt R _found (by simpa using _seen))

def Edge (rows : List α) (i j : Nat) : Prop := ∃ row, rows[i]? = some row ∧ j ∈ R.successors row

def Below (rows : List α) (i j : Nat) : Prop := Relation.ReflTransGen (Edge R rows) i j

def Marked (rows : List α) (i : Nat) : Prop := ∃ row, rows[i]? = some row ∧ R.marked row = true

/-- Successors of marked rows that exist are marked. -/
def Closed (rows : List α) : Prop := ∀ i j, Marked R rows i → Edge R rows i j → j < rows.length → Marked R rows j

/-- The rows differ from the old ones in marks only. -/
def SameButMarks (old new : List α) : Prop :=
  ∀ i : Nat, new[i]? = old[i]? ∨ ∃ row, old[i]? = some row ∧ new[i]? = some (R.mark row)

private theorem sameButMarks_refl (rows : List α) : SameButMarks R rows rows := fun _ => .inl rfl

variable {R}

private theorem edge_sameButMarks {old new : List α} (same : SameButMarks R old new) (i j : Nat) :
    Edge R new i j ↔ Edge R old i j := by
  rcases same i with equal | ⟨row, before, after⟩
  · simp [Edge, equal]
  · simp [Edge, before, after, R.successors_mark]

private theorem marked_sameButMarks {old new : List α} (same : SameButMarks R old new)
    (marked : Marked R old i) : Marked R new i := by
  obtain ⟨row, found, set⟩ := marked
  rcases same i with equal | ⟨row', before, after⟩
  · exact ⟨row, by rw [equal, found], set⟩
  · exact ⟨R.mark row', after, R.marked_mark row'⟩

theorem getElem?_modify_other {rows : List α} {i j : Nat} (f : α → α) (other : j ≠ i) :
    (rows.modify i f)[j]? = rows[j]? := by
  simp [Ne.symm other]

theorem getElem?_modify_self {rows : List α} {row : α} (f : α → α) (found : rows[i]? = some row) :
    (rows.modify i f)[i]? = some (f row) := by
  simp [found]

/-- What holds of the rows and the stack whenever the loop looks at its stack:
    marks were there before or lie below the start, the stack holds nodes below
    the start, and successors of new marks are marked or on the stack. -/
structure Progress (R : Rows α) (old : List α) (start : Nat) (new : List α) (stack : List Nat) : Prop where
  length : new.length = old.length
  shape : SameButMarks R old new
  sound : ∀ i, Marked R new i → Marked R old i ∨ Below R old start i
  stackBelow : ∀ i ∈ stack, Below R old start i
  startSeen : start < old.length → Marked R new start ∨ start ∈ stack
  frontier : ∀ i j, Marked R new i → ¬ Marked R old i → Edge R old i j → j < old.length →
    Marked R new j ∨ j ∈ stack

private theorem progress_skip {old new : List α} {rest : List Nat}
    (progress : Progress R old start new (i :: rest)) (done : i < old.length → Marked R new i) :
    Progress R old start new rest := by
  have move : ∀ j, j < old.length → Marked R new j ∨ j ∈ i :: rest → Marked R new j ∨ j ∈ rest := by
    intro j inside seen
    rcases seen with marked | member
    · exact .inl marked
    · rcases List.mem_cons.mp member with rfl | later
      · exact .inl (done inside)
      · exact .inr later
  refine ⟨progress.length, progress.shape, progress.sound, ?_, ?_, ?_⟩
  · intro j member
    exact progress.stackBelow j (List.mem_cons_of_mem _ member)
  · intro inside
    exact move start inside (progress.startSeen inside)
  · intro a j marked fresh edge inside
    exact move j inside (progress.frontier a j marked fresh edge inside)

private theorem progress_mark {old new : List α} {rest : List Nat} {row : α}
    (progress : Progress R old start new (i :: rest)) (found : new[i]? = some row) (clear : R.marked row = false) :
    Progress R old start (new.modify i R.mark) ((R.successors row).reverse ++ rest) := by
  have here : (new.modify i R.mark)[i]? = some (R.mark row) := getElem?_modify_self _ found
  have there : ∀ j, j ≠ i → (new.modify i R.mark)[j]? = new[j]? := fun j other => getElem?_modify_other _ other
  have markedHere : Marked R (new.modify i R.mark) i := ⟨R.mark row, here, R.marked_mark row⟩
  have markedOther : ∀ j, j ≠ i → (Marked R (new.modify i R.mark) j ↔ Marked R new j) := by
    intro j other
    simp [Marked, there j other]
  have keep : ∀ j, Marked R new j → Marked R (new.modify i R.mark) j := by
    intro j marked
    by_cases same : j = i
    · exact same ▸ markedHere
    · exact (markedOther j same).mpr marked
  have edges : ∀ j, Edge R old i j ↔ j ∈ R.successors row := by
    intro j
    rw [← edge_sameButMarks progress.shape i j]
    simp [Edge, found]
  have move : ∀ j, Marked R new j ∨ j ∈ i :: rest →
      Marked R (new.modify i R.mark) j ∨ j ∈ (R.successors row).reverse ++ rest := by
    intro j seen
    rcases seen with marked | member
    · exact .inl (keep j marked)
    · rcases List.mem_cons.mp member with rfl | later
      · exact .inl markedHere
      · exact .inr (List.mem_append_right _ later)
  refine ⟨by simp [progress.length], ?_, ?_, ?_, ?_, ?_⟩
  · intro j
    by_cases same : j = i
    · subst same
      rcases progress.shape j with equal | ⟨row', before, after⟩
      · exact .inr ⟨row, by rw [← equal, found], here⟩
      · rw [found] at after
        cases after
        rw [R.marked_mark] at clear
        cases clear
    · rw [there j same]
      exact progress.shape j
  · intro j marked
    by_cases same : j = i
    · exact .inr (same ▸ progress.stackBelow i (by simp))
    · exact progress.sound j ((markedOther j same).mp marked)
  · intro j member
    rcases List.mem_append.mp member with pushed | later
    · have edge := (edges j).mpr (List.mem_reverse.mp pushed)
      exact (progress.stackBelow i (by simp)).tail edge
    · exact progress.stackBelow j (List.mem_cons_of_mem _ later)
  · intro inside
    exact move start (progress.startSeen inside)
  · intro a j marked fresh edge inside
    by_cases same : a = i
    · subst same
      exact .inr (List.mem_append_left _ (List.mem_reverse.mpr ((edges j).mp edge)))
    · exact move j (progress.frontier a j ((markedOther a same).mp marked) fresh edge inside)

private theorem loop_progress {old : List α} (new : List α) (stack : List Nat)
    (progress : Progress R old start new stack) : Progress R old start (loop R new stack) [] := by
  fun_induction loop R new stack with
  | case1 new => exact progress
  | case2 new i rest missing ih =>
    refine ih (progress_skip progress fun inside => ?_)
    rw [← progress.length] at inside
    simp [List.getElem?_eq_getElem inside] at missing
  | case3 new i rest row found seen ih => exact ih (progress_skip progress fun _ => ⟨row, found, seen⟩)
  | case4 new i rest row found seen ih =>
    rw [List.unattach_reverse, List.unattach_attach] at ih
    exact ih (progress_mark progress found (by simpa using seen))

/-- The loop started at one node ends with an empty stack and everything it should have done done. -/
theorem loop_spec (rows : List α) (start : Nat) : Progress R rows start (loop R rows [start]) [] := by
  refine loop_progress rows [start] ⟨rfl, sameButMarks_refl R rows, fun _ => .inl, ?_, by simp, ?_⟩
  · intro i member
    rw [List.mem_singleton.mp member]
    exact .refl
  · intro i j marked fresh
    exact absurd marked fresh

/-- From closed marks, the loop adds a mark to the rows below the start and to no other. -/
theorem loop_marked_iff {rows : List α} (closed : Closed R rows) (inside : i < rows.length) :
    Marked R (loop R rows [start]) i ↔ Marked R rows i ∨ Below R rows start i := by
  have done := loop_spec (R := R) rows start
  refine ⟨done.sound i, ?_⟩
  rintro (marked | below)
  · exact marked_sameButMarks done.shape marked
  · -- Along the path every node that exists ends up marked: it was, or its predecessor put it on the stack.
    induction below with
    | refl => simpa using done.startSeen inside
    | @tail a b path edge ih =>
      have aInside : a < rows.length := by
        obtain ⟨row, found, _⟩ := edge
        exact (List.getElem?_eq_some_iff.mp found).1
      have aMarked := ih aInside
      by_cases before : Marked R rows a
      · exact marked_sameButMarks done.shape (closed a b before edge inside)
      · simpa using done.frontier a b aMarked before edge inside

theorem loop_closed {rows : List α} (closed : Closed R rows) (start : Nat) : Closed R (loop R rows [start]) := by
  have done := loop_spec (R := R) rows start
  intro i j marked edge inside
  have oldEdge := (edge_sameButMarks done.shape i j).mp edge
  rw [done.length] at inside
  have iInside : i < rows.length := by
    obtain ⟨row, found, _⟩ := oldEdge
    exact (List.getElem?_eq_some_iff.mp found).1
  rw [loop_marked_iff closed inside]
  rcases (loop_marked_iff closed iInside).mp marked with before | below
  · exact .inl (closed i j before oldEdge inside)
  · exact .inr (below.tail oldEdge)

end Pcern.Marking

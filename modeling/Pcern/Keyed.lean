import Mathlib.Data.List.Basic
import Mathlib.Data.List.Nodup
import Mathlib.Data.List.Perm.Subperm

/-!
Lists used as tables and as queues. A table's rows carry their own key; a row is
found at the first place that holds the key and changed there. A queue gives up
the first element that satisfies a test. A table of a fixed number of places
holds optional rows; a row replaces the one with its key or takes a free place.
The last section has what the searches through lists need beyond Mathlib.
-/
namespace Pcern.Keyed

section Tables
variable {α κ : Type} [DecidableEq κ] (key : α → κ)

def find (rows : List α) (k : κ) : Option α := rows.find? fun row => decide (key row = k)

def index (rows : List α) (k : κ) : Option Nat := rows.findIdx? fun row => decide (key row = k)

private theorem find_cons (row : α) (rows : List α) (k : κ) :
    find key (row :: rows) k = if key row = k then some row else find key rows k := by
  by_cases same : key row = k <;> simp [find, same]

private theorem index_cons (row : α) (rows : List α) (k : κ) :
    index key (row :: rows) k = if key row = k then some 0 else (index key rows k).map (· + 1) := by
  by_cases same : key row = k <;> simp [index, List.findIdx?_cons, same]

theorem find_key {rows : List α} {k : κ} {row : α} (found : find key rows k = some row) : key row = k := by
  simpa using List.find?_some found

theorem find_mem {rows : List α} {k : κ} {row : α} (found : find key rows k = some row) : row ∈ rows :=
  List.mem_of_find?_eq_some found

private theorem find_isSome_iff (rows : List α) (k : κ) : (find key rows k).isSome ↔ k ∈ rows.map key := by
  simp [find]

theorem find_eq_none_iff (rows : List α) (k : κ) : find key rows k = none ↔ k ∉ rows.map key := by
  rw [← find_isSome_iff key, Option.not_isSome_iff_eq_none]

theorem index_eq_none_iff (rows : List α) (k : κ) : index key rows k = none ↔ find key rows k = none := by
  simp [index, find]

theorem find_eq_getElem {rows : List α} {k : κ} {i : Nat} (placed : index key rows k = some i) :
    find key rows k = rows[i]? := by
  induction rows generalizing i with
  | nil => simp [index] at placed
  | cons row rest ih =>
    rw [index_cons] at placed
    rw [find_cons]
    by_cases same : key row = k
    · simp only [same, if_true, Option.some.injEq] at placed
      subst placed
      simp [same]
    · simp only [same, if_false, Option.map_eq_some_iff] at placed
      obtain ⟨j, later, rfl⟩ := placed
      simpa [same] using ih later

theorem find_eq_some_iff {rows : List α} (distinct : (rows.map key).Nodup) {k : κ} {row : α} :
    find key rows k = some row ↔ row ∈ rows ∧ key row = k := by
  constructor
  · intro found
    exact ⟨find_mem key found, find_key key found⟩
  · rintro ⟨member, rfl⟩
    induction rows with
    | nil => simp at member
    | cons other rest ih =>
      simp only [List.map_cons, List.nodup_cons] at distinct
      rw [find_cons]
      rcases List.mem_cons.mp member with rfl | later
      · simp
      · have differ : key other ≠ key row := by
          intro equal
          exact distinct.1 (equal ▸ List.mem_map_of_mem later)
        simpa [differ] using ih distinct.2 later

/-- A changed row is found under its key, and the others as before. -/
theorem find_modify {rows : List α} {k : κ} {i : Nat} (placed : index key rows k = some i) {f : α → α}
    (keeps : ∀ row, key (f row) = key row) (k' : κ) :
    find key (rows.modify i f) k' = if k' = k then (find key rows k).map f else find key rows k' := by
  induction rows generalizing i with
  | nil => simp [index] at placed
  | cons row rest ih =>
    rw [index_cons] at placed
    by_cases same : key row = k
    · simp only [same, if_true, Option.some.injEq] at placed
      subst placed
      simp only [List.modify_zero_cons, find_cons, keeps, same]
      by_cases wanted : k = k'
      · simp [wanted]
      · simp [wanted, Ne.symm wanted]
    · simp only [same, if_false, Option.map_eq_some_iff] at placed
      obtain ⟨j, later, rfl⟩ := placed
      simp only [List.modify_succ_cons, find_cons, same, if_false, ih later]
      by_cases here : key row = k'
      · have differ : k' ≠ k := fun equal => same (here.trans equal)
        simp [here, differ]
      · simp [here]

omit [DecidableEq κ] in
theorem map_key_modify (rows : List α) (i : Nat) {f : α → α} (keeps : ∀ row, key (f row) = key row) :
    (rows.modify i f).map key = rows.map key := by
  induction rows generalizing i with
  | nil => simp
  | cons row rest ih => cases i <;> simp [keeps, ih]

theorem find_append_single (rows : List α) (row : α) (k : κ) :
    find key (rows ++ [row]) k = (find key rows k).or (if key row = k then some row else none) := by
  by_cases same : key row = k <;> simp [find, List.find?_append, same]

theorem index_append_single {rows : List α} {row : α} (fresh : find key rows (key row) = none) :
    index key (rows ++ [row]) (key row) = some rows.length := by
  have none := (index_eq_none_iff key rows (key row)).mpr fresh
  simp only [index] at none ⊢
  simp [List.findIdx?_append, none]

theorem modify_append_single (rows : List α) (row : α) (f : α → α) :
    (rows ++ [row]).modify rows.length f = rows ++ [f row] := by
  induction rows with
  | nil => rfl
  | cons first rest ih => simp [ih]

theorem find_map {β : Type} (key' : β → κ) {f : α → β} (keeps : ∀ row, key' (f row) = key row) (rows : List α) (k : κ) :
    find key' (rows.map f) k = (find key rows k).map f := by
  have same : (fun row => decide (key' row = k)) ∘ f = fun row => decide (key row = k) := by
    funext row
    exact congrArg (fun found => decide (found = k)) (keeps row)
  rw [find, find, List.find?_map, same]

end Tables

section Slots
variable {α κ : Type} [DecidableEq κ] (key : α → κ)

/-- Where a row with key `k` goes: to the row with that key, or else to the first free place. -/
def place (rows : List (Option α)) (k : κ) : Option Nat :=
  (rows.findIdx? fun row => decide (row.map key = some k)).or (rows.findIdx? Option.isNone)

/-- Store a row in its place; without one it is dropped. -/
def put (rows : List (Option α)) (row : α) : List (Option α) :=
  match place key rows (key row) with
  | some i => rows.set i (some row)
  | none => rows

def Distinct (rows : List (Option α)) : Prop :=
  ∀ (i j : Nat) (x y : α), rows[i]? = some (some x) → rows[j]? = some (some y) → key x = key y → i = j

@[simp] theorem length_put (rows : List (Option α)) (row : α) : (put key rows row).length = rows.length := by
  unfold put
  split <;> simp

private theorem place_eq_some {rows : List (Option α)} {k : κ} {i : Nat} (placed : place key rows k = some i) :
    (∃ old, rows[i]? = some (some old) ∧ key old = k) ∨
      (rows[i]? = some none ∧ ∀ x, some x ∈ rows → key x ≠ k) := by
  rcases Option.or_eq_some_iff.mp placed with here | ⟨absent, free⟩
  · obtain ⟨inside, holds, _⟩ := List.findIdx?_eq_some_iff_getElem.mp here
    obtain ⟨old, isOld, same⟩ := Option.map_eq_some_iff.mp (of_decide_eq_true holds)
    exact .inl ⟨old, by rw [List.getElem?_eq_getElem inside, isOld], same⟩
  · obtain ⟨inside, empty, _⟩ := List.findIdx?_eq_some_iff_getElem.mp free
    refine .inr ⟨by rw [List.getElem?_eq_getElem inside, Option.isNone_iff_eq_none.mp empty], ?_⟩
    intro x member same
    have clear := List.findIdx?_eq_none_iff.mp absent (some x) member
    simp [same] at clear

theorem place_isSome_of_free {rows : List (Option α)} (free : none ∈ rows) (k : κ) : (place key rows k).isSome := by
  have found : (rows.findIdx? Option.isNone).isSome := by
    rw [List.findIdx?_isSome, List.any_eq_true]
    exact ⟨none, free, rfl⟩
  rw [place, Option.isSome_or, found, Bool.or_true]

variable {key}

theorem Distinct.mem_put {rows : List (Option α)} (distinct : Distinct key rows) (row : α)
    (room : (place key rows (key row)).isSome) (x : α) :
    some x ∈ put key rows row ↔ x = row ∨ (some x ∈ rows ∧ key x ≠ key row) := by
  obtain ⟨i, placed⟩ := Option.isSome_iff_exists.mp room
  have stored : put key rows row = rows.set i (some row) := by simp [put, placed]
  have inside : i < rows.length := by
    rcases place_eq_some key placed with ⟨_, found, _⟩ | ⟨found, _⟩ <;>
      exact (List.getElem?_eq_some_iff.mp found).1
  rw [stored]
  constructor
  · intro member
    obtain ⟨j, isX⟩ := List.mem_iff_getElem?.mp member
    by_cases same : i = j
    · subst same
      rw [List.getElem?_set_self inside] at isX
      simp only [Option.some.injEq] at isX
      exact .inl isX.symm
    · rw [List.getElem?_set_ne same] at isX
      refine .inr ⟨List.mem_of_getElem? isX, fun sameKey => ?_⟩
      rcases place_eq_some key placed with ⟨old, found, isKey⟩ | ⟨_, absent⟩
      · exact same (distinct i j old x found isX (isKey.trans sameKey.symm))
      · exact absent x (List.mem_of_getElem? isX) sameKey
  · rintro (rfl | ⟨member, other⟩)
    · exact List.mem_set inside _
    · obtain ⟨j, isX⟩ := List.mem_iff_getElem?.mp member
      have apart : i ≠ j := by
        rintro rfl
        rcases place_eq_some key placed with ⟨old, found, isKey⟩ | ⟨free, _⟩
        · rw [found] at isX
          cases isX
          exact other isKey
        · rw [free] at isX
          cases isX
      exact List.mem_of_getElem? (by rwa [List.getElem?_set_ne apart])

theorem Distinct.put {rows : List (Option α)} (distinct : Distinct key rows) (row : α) :
    Distinct key (put key rows row) := by
  unfold Keyed.put
  split
  · rename_i i placed
    -- Another place with the same key would have been the row's place.
    have only : ∀ j x, i ≠ j → rows[j]? = some (some x) → key x ≠ key row := by
      intro j x apart isX same
      rcases place_eq_some key placed with ⟨old, found, isKey⟩ | ⟨_, absent⟩
      · exact apart (distinct i j old x found isX (isKey.trans same.symm))
      · exact absent x (List.mem_of_getElem? isX) same
    intro a b x y isX isY same
    have split : ∀ (c : Nat) (z : α), (rows.set i (some row))[c]? = some (some z) →
        (i = c ∧ z = row) ∨ (i ≠ c ∧ rows[c]? = some (some z)) := by
      intro c z isZ
      by_cases here : i = c
      · subst here
        rw [List.getElem?_set_self'] at isZ
        obtain ⟨_, _, isRow⟩ := Option.map_eq_some_iff.mp isZ
        exact .inl ⟨rfl, (Option.some.inj isRow).symm⟩
      · exact .inr ⟨here, by rwa [List.getElem?_set_ne here] at isZ⟩
    rcases split a x isX with ⟨hereA, rfl⟩ | ⟨apartA, oldX⟩ <;>
      rcases split b y isY with ⟨hereB, rfl⟩ | ⟨apartB, oldY⟩
    · exact hereA.symm.trans hereB
    · exact absurd same.symm (only b y apartB oldY)
    · exact absurd same (only a x apartA oldX)
    · exact distinct a b x y oldX oldY same
  · exact distinct

omit [DecidableEq κ] in
theorem Distinct.free {rows : List (Option α)} (distinct : Distinct key rows) (keys : List κ)
    (known : ∀ x, some x ∈ rows → key x ∈ keys) (short : keys.length < rows.length) : none ∈ rows := by
  by_contra full
  have taken : ∀ row ∈ rows, ∃ x, row = some x := by
    intro row member
    cases row with
    | none => exact absurd member full
    | some x => exact ⟨x, rfl⟩
  have nodup : (rows.map (Option.map key)).Nodup := by
    rw [List.nodup_iff_injective_getElem]
    rintro ⟨i, insideI⟩ ⟨j, insideJ⟩ same
    simp only [List.length_map] at insideI insideJ
    obtain ⟨x, isX⟩ := taken _ (List.getElem_mem insideI)
    obtain ⟨y, isY⟩ := taken _ (List.getElem_mem insideJ)
    simp only [List.getElem_map, isX, isY, Option.map_some, Option.some.injEq] at same
    simpa using distinct i j x y (by rw [List.getElem?_eq_getElem insideI, isX])
      (by rw [List.getElem?_eq_getElem insideJ, isY]) same
  have inside : rows.map (Option.map key) ⊆ keys.map some := by
    intro entry member
    obtain ⟨row, isRow, rfl⟩ := List.mem_map.mp member
    obtain ⟨x, rfl⟩ := taken row isRow
    exact List.mem_map.mpr ⟨key x, known x isRow, rfl⟩
  have bound := (nodup.subperm inside).length_le
  simp only [List.length_map] at bound
  omega

end Slots

section Queues
variable {α : Type}

theorem getElem?_append_single (xs : List α) (x : α) (i : Nat) :
    (xs ++ [x])[i]? = if i = xs.length then some x else xs[i]? := by
  rcases Nat.lt_trichotomy i xs.length with below | equal | above
  · rw [List.getElem?_append_left below, if_neg (Nat.ne_of_lt below)]
  · simp [equal]
  · rw [if_neg (Nat.ne_of_gt above), List.getElem?_eq_none (by simp; omega), List.getElem?_eq_none (by omega)]

/-- The first element that satisfies `p`, and the queue without it. -/
def takeFirst (p : α → Bool) : List α → Option (α × List α)
  | [] => none
  | x :: xs => if p x then some (x, xs) else (takeFirst p xs).map fun taken => (taken.1, x :: taken.2)

theorem takeFirst_eq_some {p : α → Bool} {xs rest : List α} {x : α} (taken : takeFirst p xs = some (x, rest)) :
    ∃ front back, xs = front ++ x :: back ∧ rest = front ++ back ∧ p x = true ∧ ∀ y ∈ front, p y = false := by
  induction xs generalizing rest with
  | nil => simp [takeFirst] at taken
  | cons y ys ih =>
    by_cases here : p y = true
    · simp only [takeFirst, here, if_true, Option.some.injEq, Prod.mk.injEq] at taken
      obtain ⟨rfl, rfl⟩ := taken
      exact ⟨[], ys, rfl, rfl, here, by simp⟩
    · simp only [takeFirst, here, Bool.false_eq_true, if_false, Option.map_eq_some_iff] at taken
      obtain ⟨⟨z, tail⟩, later, same⟩ := taken
      cases same
      obtain ⟨front, back, split, joined, holds, before⟩ := ih later
      refine ⟨y :: front, back, by simp [split], by simp [joined], holds, ?_⟩
      intro w member
      rcases List.mem_cons.mp member with rfl | inFront
      · simpa using here
      · exact before w inFront

theorem takeFirst_eq_none {p : α → Bool} {xs : List α} : takeFirst p xs = none ↔ ∀ x ∈ xs, p x = false := by
  induction xs with
  | nil => simp [takeFirst]
  | cons y ys ih =>
    by_cases here : p y = true
    · simp [takeFirst, here]
    · simp [takeFirst, here, ih]

theorem takeFirst_mem {p : α → Bool} {xs rest : List α} {x : α} (taken : takeFirst p xs = some (x, rest)) :
    x ∈ xs ∧ p x = true ∧ rest ⊆ xs := by
  obtain ⟨front, back, rfl, rfl, holds, _⟩ := takeFirst_eq_some taken
  exact ⟨by simp, holds, fun y member => by
    rcases List.mem_append.mp member with inFront | inBack
    · simp [inFront]
    · simp [inBack]⟩

/-- The rows are the one taken and the rest. -/
theorem takeFirst_perm {p : α → Bool} {xs rest : List α} {x : α} (taken : takeFirst p xs = some (x, rest)) :
    xs.Perm (x :: rest) := by
  obtain ⟨front, back, rfl, rfl, _, _⟩ := takeFirst_eq_some taken
  exact List.perm_middle

end Queues

section Lists
variable {α : Type} {p q : α → Bool} {xs : List α}

theorem mem_takeWhile_iff {x : α} :
    x ∈ xs.takeWhile p ↔ ∃ front back, xs = front ++ x :: back ∧ p x = true ∧ ∀ y ∈ front, p y = true := by
  induction xs with
  | nil => simp
  | cons z xs ih =>
    rw [List.takeWhile_cons]
    constructor
    · intro member
      split at member
      · rename_i holds
        rcases List.mem_cons.mp member with rfl | later
        · exact ⟨[], xs, rfl, holds, by simp⟩
        · obtain ⟨front, back, rfl, here, before⟩ := ih.mp later
          exact ⟨z :: front, back, rfl, here, List.forall_mem_cons.mpr ⟨holds, before⟩⟩
      · cases member
    · rintro ⟨front, back, split, here, before⟩
      cases front with
      | nil =>
        cases split
        simp [here]
      | cons y front =>
        cases split
        rw [if_pos (before z List.mem_cons_self)]
        exact List.mem_cons_of_mem _ (ih.mpr ⟨front, back, rfl, here, fun w member => before w (List.mem_cons_of_mem _ member)⟩)

theorem takeWhile_congr_mem (same : ∀ x ∈ xs, q x = p x) :
    xs.takeWhile q = xs.takeWhile p := by
  induction xs with
  | nil => rfl
  | cons x xs ih =>
    rw [List.takeWhile_cons, List.takeWhile_cons, same x List.mem_cons_self,
      ih fun y member => same y (List.mem_cons_of_mem _ member)]

theorem find_eq_find_iff :
    xs.find? p = xs.find? q ↔ ∀ x, (xs.find? fun x => p x || q x) = some x → p x = true ∧ q x = true := by
  induction xs with
  | nil => simp
  | cons x xs ih =>
    simp only [List.find?_cons]
    cases first : p x <;> cases second : q x
    · exact ih
    · simp only [Bool.false_or, Option.some.injEq, forall_eq', first, second]
      refine iff_of_false (fun same => ?_) (by simp)
      have := List.find?_some same
      simp [first] at this
    · simp only [Bool.or_false, Option.some.injEq, forall_eq', first, second]
      refine iff_of_false (fun same => ?_) (by simp)
      have := List.find?_some same.symm
      simp [second] at this
    · simp [first, second]

theorem getD_mem {i : Nat} (inside : i < xs.length) (d : α) : xs.getD i d ∈ xs := by
  rw [List.getD_eq_getElem?_getD, List.getElem?_eq_getElem inside]
  exact List.getElem_mem inside

theorem getD_eq_default {d : α} (all : ∀ x ∈ xs, x = d) (i : Nat) : xs.getD i d = d := by
  rw [List.getD_eq_getElem?_getD]
  cases there : xs[i]? with
  | none => rfl
  | some x => exact all x (List.mem_of_getElem? there)

end Lists

end Pcern.Keyed

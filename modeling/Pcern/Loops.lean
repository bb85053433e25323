import Mathlib.Tactic.Common

/-!
Counted loops whose body may stop them. A body is a function to `Except`: the
error is whatever ends the loop before its count, a panic or an early return.

`forRange n body s` runs `body 0`, …, `body (n - 1)` from the state `s`. It is
defined from the last pass backwards, which gives each pass its index and makes
the invariant rule (`forRange_invariant`) a plain induction. An early end is
located by `forRange_eq_error`: the passes before it succeeded.

Straight-line programs over a state come with rules of pre- and postconditions
(`Triple`): what holds of the state before a program that does not stop holds,
transformed, after it.
-/
namespace Pcern.Loops
variable {σ α β ε : Type}

theorem bind_eq_ok {x : Except ε α} {f : α → Except ε β} {b : β} :
    (x >>= f) = .ok b ↔ ∃ a, x = .ok a ∧ f a = .ok b := by
  cases x <;> simp [bind, Except.bind]

theorem bind_eq_error {x : Except ε α} {f : α → Except ε β} {e : ε} :
    (x >>= f) = .error e ↔ x = .error e ∨ ∃ a, x = .ok a ∧ f a = .error e := by
  cases x <;> simp [bind, Except.bind]

/-- What a computation that may stop yields: a result that satisfies `Q`, or a stop that satisfies `E`. -/
def Yields (x : Except ε α) (Q : α → Prop) (E : ε → Prop) : Prop :=
  match x with
  | .ok a => Q a
  | .error e => E e

section
variable {x : Except ε α} {f : α → Except ε β} {P Q : α → Prop} {R : β → Prop} {E : ε → Prop} {a : α} {e : ε}

@[simp] theorem yields_ok : Yields (.ok a) Q E ↔ Q a := Iff.rfl

@[simp] theorem yields_error : Yields (.error e : Except ε α) Q E ↔ E e := Iff.rfl

/-- The rule of sequencing. -/
theorem Yields.bind (first : Yields x P E) (next : ∀ a, P a → Yields (f a) R E) : Yields (x >>= f) R E := by
  cases x with
  | ok a => exact next a first
  | error e => exact first

theorem Yields.mono (holds : Yields x P E) (weaker : ∀ a, P a → Q a) : Yields x Q E := by
  cases x with
  | ok a => exact weaker a holds
  | error e => exact holds

theorem Yields.imp {E' : ε → Prop} (holds : Yields x P E) (weaker : ∀ a, P a → Q a) (stops : ∀ e, E e → E' e) :
    Yields x Q E' := by
  cases x with
  | ok a => exact weaker a holds
  | error e => exact stops e holds

theorem Yields.ite {c : Prop} [Decidable c] {y : Except ε α} (pos : Yields x Q E) (neg : Yields y Q E) :
    Yields (if c then x else y) Q E := by
  split
  · exact pos
  · exact neg

theorem Yields.ran (holds : Yields x P E) : Yields x (fun a => x = .ok a) E := by
  cases x with
  | ok a => rfl
  | error e => exact holds

theorem Yields.of_ok (holds : Yields x Q E) (ran : x = .ok a) : Q a := by
  rw [ran] at holds
  exact holds

theorem Yields.of_error (holds : Yields x Q E) (stopped : x = .error e) : E e := by
  rw [stopped] at holds
  exact holds

theorem Yields.step (ran : x = .ok a) (next : Yields (f a) R E) : Yields (x >>= f) R E := by
  subst ran
  exact next

end

/-- Run the body with the indices below a count. -/
def forRange (body : Nat → σ → Except ε σ) : Nat → σ → Except ε σ
  | 0, s => .ok s
  | n + 1, s => do
    let s ← forRange body n s
    body n s

variable {body : Nat → σ → Except ε σ}

@[simp] theorem forRange_zero (s : σ) : forRange body 0 s = .ok s := rfl

theorem forRange_succ_eq_ok {n : Nat} {s s' : σ} :
    forRange body (n + 1) s = .ok s' ↔ ∃ t, forRange body n s = .ok t ∧ body n t = .ok s' := by
  rw [forRange, bind_eq_ok]

/-- The invariant rule of a loop that ran to its end. -/
theorem forRange_invariant (P : Nat → σ → Prop) {n : Nat} {s s' : σ} (ran : forRange body n s = .ok s')
    (start : P 0 s) (pass : ∀ i < n, ∀ t t', P i t → body i t = .ok t' → P (i + 1) t') : P n s' := by
  induction n generalizing s' with
  | zero => cases ran; exact start
  | succ n ih =>
    obtain ⟨t, before, last⟩ := forRange_succ_eq_ok.mp ran
    exact pass n (Nat.lt_succ_self n) t s' (ih before fun i less => pass i (Nat.lt_succ_of_lt less)) last

/-- The invariant rule of a loop that may stop. -/
theorem forRange_yields (P : Nat → σ → Prop) {E : ε → Prop} {n : Nat} {s : σ} (start : P 0 s)
    (pass : ∀ i < n, ∀ t, P i t → Yields (body i t) (P (i + 1)) E) : Yields (forRange body n s) (P n) E := by
  induction n with
  | zero => exact start
  | succ n ih => exact (ih fun i less => pass i (Nat.lt_succ_of_lt less)).bind (pass n (Nat.lt_succ_self n))

/-! ## Programs over a state -/

/-- From a state that satisfies `P`, the program stops or ends with `Q`. -/
def Triple (P : σ → Prop) (x : StateT σ (Except ε) α) (Q : α → σ → Prop) : Prop :=
  ∀ s, P s → Yields (x s) (fun r => Q r.1 r.2) fun _ => True

section
variable {P P' : σ → Prop} {x y : StateT σ (Except ε) α} {f : α → StateT σ (Except ε) β} {Q Q' : α → σ → Prop}
  {R : β → σ → Prop}

theorem Triple.pure {a : α} (holds : ∀ s, P s → Q a s) : Triple P (pure a : StateT σ (Except ε) α) Q := holds

theorem Triple.bind (first : Triple P x Q) (next : ∀ a, Triple (Q a) (f a) R) : Triple P (x >>= f) R :=
  fun s holds => Yields.bind (first s holds) fun r after => next r.1 r.2 after

theorem Triple.weaken (triple : Triple P x Q) (pre : ∀ s, P' s → P s) (post : ∀ a s, Q a s → Q' a s) : Triple P' x Q' :=
  fun s holds => (triple s (pre s holds)).mono fun r after => post r.1 r.2 after

theorem Triple.ite {c : Prop} [Decidable c] (pos : c → Triple P x Q) (neg : ¬c → Triple P y Q) :
    Triple P (if c then x else y) Q := by
  split
  · rename_i holds
    exact pos holds
  · rename_i fails
    exact neg fails

theorem Triple.of_ok {s s' : σ} {a : α} (triple : Triple P x Q) (start : P s) (ran : x s = .ok (a, s')) : Q a s' :=
  (triple s start).of_ok ran

end

end Pcern.Loops

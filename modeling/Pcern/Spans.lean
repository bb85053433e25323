import Mathlib.Data.List.Basic

/-!
Stretches of numbers and lists of them that tile a range. Tiling is stated by
counting (`Tiles`): every number of the range lies in one stretch, every other
number in none. Cutting a stretch into parts, reordering and moving stretches
between lists then are equations between counts; that the stretches are apart
and cover the range follows (`Tiles.apart`, `Tiles.covered_iff`).
-/
namespace Pcern.Spans

structure Span where
  start : Nat
  size : Nat
  deriving DecidableEq, Repr

def Span.Covers (s : Span) (a : Nat) : Prop := s.start ≤ a ∧ a < s.start + s.size

instance (s : Span) : DecidablePred s.Covers := fun _ => inferInstanceAs (Decidable (_ ∧ _))

/-- One stretch ends before the other begins. -/
def Span.Apart (s t : Span) : Prop := s.start + s.size ≤ t.start ∨ t.start + t.size ≤ s.start

theorem Span.Apart.symm {s t : Span} (apart : s.Apart t) : t.Apart s := Or.symm apart

/-- How many of the stretches a number lies in. -/
def load (spans : List Span) (a : Nat) : Nat := spans.countP fun s => decide (s.Covers a)

@[simp] theorem load_nil (a : Nat) : load [] a = 0 := rfl

theorem load_cons (s : Span) (spans : List Span) (a : Nat) :
    load (s :: spans) a = load spans a + if s.Covers a then 1 else 0 := by
  simp [load, List.countP_cons]

theorem load_append (xs ys : List Span) (a : Nat) : load (xs ++ ys) a = load xs a + load ys a := List.countP_append

variable {hi lo : Nat} {spans xs ys : List Span}

theorem load_perm (perm : xs.Perm ys) (a : Nat) : load xs a = load ys a := perm.countP_eq _

private theorem load_pos_of_mem {s : Span} {a : Nat} (member : s ∈ spans) (covers : s.Covers a) :
    0 < load spans a :=
  List.countP_pos_iff.mpr ⟨s, member, decide_eq_true covers⟩

/-- Every number from `lo` up to `hi` lies in exactly one of the stretches and no other number in any. -/
def Tiles (spans : List Span) (lo hi : Nat) : Prop := ∀ a, load spans a = if lo ≤ a ∧ a < hi then 1 else 0

theorem Tiles.of_load_eq (tiles : Tiles xs lo hi) (same : ∀ a, load ys a = load xs a) :
    Tiles ys lo hi := fun a => (same a).trans (tiles a)

/-- A tiling covers its range and nothing else. -/
theorem Tiles.covered_iff (tiles : Tiles spans lo hi) (a : Nat) :
    (∃ s ∈ spans, s.Covers a) ↔ lo ≤ a ∧ a < hi := by
  have count := tiles a
  constructor
  · rintro ⟨s, member, covers⟩
    have pos := load_pos_of_mem member covers
    by_contra outside
    rw [if_neg outside] at count
    omega
  · intro inside
    rw [if_pos inside] at count
    have pos : 0 < load spans a := by omega
    obtain ⟨s, member, covers⟩ := List.countP_pos_iff.mp pos
    exact ⟨s, member, of_decide_eq_true covers⟩

theorem Tiles.inside (tiles : Tiles spans lo hi) {s : Span} (member : s ∈ spans)
    (some : 0 < s.size) : lo ≤ s.start ∧ s.start + s.size ≤ hi := by
  have first := (tiles.covered_iff s.start).mp ⟨s, member, Nat.le_refl _, by omega⟩
  have last := (tiles.covered_iff (s.start + s.size - 1)).mp ⟨s, member, by omega, by omega⟩
  omega

private theorem pairwise_apart (once : ∀ a, load spans a ≤ 1) (some : ∀ s ∈ spans, 0 < s.size) :
    spans.Pairwise Span.Apart := by
  induction spans with
  | nil => exact .nil
  | cons s rest ih =>
    simp only [load_cons] at once
    refine List.pairwise_cons.mpr ⟨fun t member => ?_, ih (fun a => by have := once a; omega) fun t member => some t (by simp [member])⟩
    by_contra overlap
    -- The later of the two starts lies in both.
    have nonempty := some s (by simp)
    have nonempty' := some t (by simp [member])
    have both : s.Covers (max s.start t.start) ∧ t.Covers (max s.start t.start) := by
      simp only [Span.Apart, Span.Covers] at overlap ⊢
      omega
    have twice := once (max s.start t.start)
    have pos := load_pos_of_mem member both.2
    rw [if_pos both.1] at twice
    omega

/-- The spans of a tiling do not overlap. -/
theorem Tiles.apart (tiles : Tiles spans lo hi) (some : ∀ s ∈ spans, 0 < s.size) :
    spans.Pairwise Span.Apart := by
  refine pairwise_apart (fun a => ?_) some
  rw [tiles a]
  split <;> omega

end Pcern.Spans

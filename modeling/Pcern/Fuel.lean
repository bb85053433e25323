import Mathlib.Tactic.Common

/-!
Computations that may fail. A loop over a list in which no pass fails is the plain loop; a loop or a recursion that is
given fuel ends in a result if it does so from some amount of fuel on.
-/
namespace Pcern.Fuel
variable {σ α β : Type}

theorem foldlM_eq_foldl {f : σ → α → Option σ} {g : σ → α → σ} {l : List α} (pass : ∀ x ∈ l, ∀ s, f s x = some (g s x))
    (s : σ) : l.foldlM f s = some (l.foldl g s) := by
  induction l generalizing s with
  | nil => rfl
  | cons x l more =>
    rw [List.forall_mem_cons] at pass
    rw [List.foldlM_cons, pass.1 s, List.foldl_cons]
    exact more pass.2 (g s x)

/-- With enough fuel a computation gives a result. -/
def Ends (f : Nat → Option α) (a : α) : Prop := ∃ enough, ∀ fuel ≥ enough, f fuel = some a

variable {f : Nat → Option α} {a : α} {b : β}

theorem Ends.now {x : Option α} (here : x = some a) : Ends (fun _ => x) a := ⟨0, fun _ _ => here⟩

theorem Ends.bind {g : Nat → α → Option β} (first : Ends f a) (next : Ends (fun fuel => g fuel a) b) :
    Ends (fun fuel => (f fuel).bind (g fuel)) b := by
  obtain ⟨m, first⟩ := first
  obtain ⟨n, next⟩ := next
  refine ⟨max m n, fun fuel enough => ?_⟩
  dsimp only
  rw [first fuel (by omega), Option.bind_some]
  exact next fuel (by omega)

theorem Ends.map (ends : Ends f a) (g : α → β) : Ends (fun fuel => (f fuel).map g) (g a) := by
  obtain ⟨n, ends⟩ := ends
  refine ⟨n, fun fuel enough => ?_⟩
  dsimp only
  rw [ends fuel enough, Option.map_some]

theorem Ends.spend {g : Nat → Option α} (ends : Ends f a) (step : ∀ fuel, g (fuel + 1) = f fuel) : Ends g a := by
  obtain ⟨n, ends⟩ := ends
  refine ⟨n + 1, fun fuel enough => ?_⟩
  obtain ⟨less, rfl⟩ : ∃ less, fuel = less + 1 := ⟨fuel - 1, by omega⟩
  rw [step, ends less (by omega)]

end Pcern.Fuel

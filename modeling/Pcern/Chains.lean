import Mathlib.Data.List.Nodup

/-!
Chains of nodes that a partial successor function links: what one node's successor says about its place in the chain,
which functions have the same chain, and the chain with one more node at its end.
-/
namespace Pcern.Chains

variable {ν : Type} {next next' : ν → Option ν} {c : ν} {xs : List ν}

/-- The chain from `c` to the first node without a successor. -/
inductive ChainFrom (next : ν → Option ν) : ν → List ν → Prop where
  | last {c : ν} (ends : next c = none) : ChainFrom next c [c]
  | link {c c' : ν} {xs : List ν} (goes : next c = some c') (rest : ChainFrom next c' xs) : ChainFrom next c (c :: xs)

instance ChainFrom.decidable [DecidableEq ν] : ∀ (c : ν) (xs : List ν), Decidable (ChainFrom next c xs)
  | _, [] => isFalse nofun
  | c, [x] => decidable_of_iff (c = x ∧ next c = none) ⟨fun ⟨same, ends⟩ => same ▸ .last ends, fun
      | .last ends => ⟨rfl, ends⟩
      | .link _ rest => nomatch rest⟩
  | c, x :: y :: ys =>
    have := ChainFrom.decidable y (y :: ys)
    decidable_of_iff (c = x ∧ next c = some y ∧ ChainFrom next y (y :: ys)) ⟨fun ⟨same, goes, rest⟩ => same ▸ .link goes rest, fun
      | .link goes (.last ends) => ⟨rfl, goes, .last ends⟩
      | .link goes (.link goes' rest) => ⟨rfl, goes, .link goes' rest⟩⟩

section
variable (chain : ChainFrom next c xs)
include chain

theorem ChainFrom.head : xs[0]? = some c := by
  cases chain with
  | last _ => rfl
  | link _ _ => rfl

theorem ChainFrom.ne_nil : xs ≠ [] := by
  cases chain with
  | last _ => exact List.cons_ne_nil _ _
  | link _ _ => exact List.cons_ne_nil _ _

theorem ChainFrom.next_eq {i : Nat} {x : ν} (here : xs[i]? = some x) : next x = xs[i + 1]? := by
  induction chain generalizing i with
  | last ends =>
    cases i with
    | zero =>
      cases here
      exact ends
    | succ i => cases here
  | link goes rest ih =>
    cases i with
    | zero =>
      cases here
      rw [goes, List.getElem?_cons_succ, rest.head]
    | succ i => exact ih here

theorem ChainFrom.unique {ys : List ν} (other : ChainFrom next c ys) : xs = ys := by
  induction chain generalizing ys with
  | last ends =>
    cases other with
    | last _ => rfl
    | link goes _ => cases ends.symm.trans goes
  | link goes _ ih =>
    cases other with
    | last ends => cases ends.symm.trans goes
    | link goes' rest' =>
      cases goes.symm.trans goes'
      rw [ih rest']

theorem ChainFrom.drop {i : Nat} {x : ν} (here : xs[i]? = some x) : ChainFrom next x (xs.drop i) := by
  induction chain generalizing i with
  | last ends =>
    cases i with
    | zero =>
      cases here
      exact .last ends
    | succ i => cases here
  | link goes rest ih =>
    cases i with
    | zero =>
      cases here
      exact .link goes rest
    | succ i => exact ih here

theorem ChainFrom.nodup : xs.Nodup := by
  rw [List.nodup_iff_getElem?_ne_getElem?]
  intro i j less inside same
  obtain ⟨x, here⟩ : ∃ x, xs[j]? = some x := ⟨_, List.getElem?_eq_getElem inside⟩
  have equal := (chain.drop (same.trans here)).unique (chain.drop here)
  have lengths := congrArg List.length equal
  rw [List.length_drop, List.length_drop] at lengths
  omega

theorem ChainFrom.congr (same : ∀ x ∈ xs, next' x = next x) : ChainFrom next' c xs := by
  induction chain with
  | last ends => exact .last ((same _ (List.mem_singleton.mpr rfl)).trans ends)
  | link goes _ ih =>
    exact .link ((same _ List.mem_cons_self).trans goes) (ih fun x member => same x (List.mem_cons_of_mem _ member))

end

/-- The chain goes on in another element behind its last one, or behind an earlier one and without the rest. -/
theorem ChainFrom.extend {front back : List ν} {z f : ν} (chain : ChainFrom next c (front ++ z :: back)) (same : ∀ x ∈ front, x ≠ z → next' x = next x)
    (goes : next' z = some f) (ends : next' f = none) : ChainFrom next' c (front ++ [z] ++ [f]) := by
  induction front generalizing c with
  | nil =>
    have here := chain.head
    cases here
    exact .link goes (.last ends)
  | cons x front ih =>
    have nodup := chain.nodup
    rw [List.cons_append] at chain nodup
    generalize whole : front ++ z :: back = ys at chain
    cases chain with
    | last _ => simp at whole
    | link goes' rest =>
      subst whole
      have different : x ≠ z := fun equal => (List.nodup_cons.mp nodup).1 (by simp [equal])
      exact .link ((same _ List.mem_cons_self different).trans goes') (ih rest fun y member => same y (List.mem_cons_of_mem _ member))

end Pcern.Chains

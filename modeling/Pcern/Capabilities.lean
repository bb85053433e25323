import Pcern.Keyed
import Pcern.Marking

/-!
The capability table of `cap.rs`. Nodes are minted as roots or derived from a
live parent, and revoking a node marks everything derived from it with a work
stack that does not look below nodes revoked earlier. That this reaches every
descendant rests on `Sound`: below a revoked node everything is revoked, which
deriving keeps because it refuses revoked parents.
-/
namespace Pcern.Capabilities
open Marking
open Keyed (getElem?_append_single)

inductive CapKind where
  | endpoint (id : Nat)
  | memoryGrant (physBase len : Nat) (writable : Bool)
  | irqControl (irq : UInt32) (endpoint : Nat)
  | rebootControl
deriving DecidableEq, Repr

/-- A row of the capability table; nodes, like slots and endpoints, are named by their number. -/
structure CapNode where
  kind : CapKind
  badge : UInt32
  children : List Nat
  revoked : Bool
deriving DecidableEq, Repr

def CapNode.fresh (kind : CapKind) (badge : UInt32) : CapNode := { kind, badge, children := [], revoked := false }

def mintRoot (nodes : List CapNode) (kind : CapKind) : Nat × List CapNode :=
  (nodes.length, nodes ++ [.fresh kind 0])

/-- A child of `parent` with the same kind, tagged with `badge`; refused for a
    parent that does not exist or is revoked. -/
def mintDerived (nodes : List CapNode) (parent : Nat) (badge : UInt32) : Option (Nat × List CapNode) := do
  let entry ← nodes[parent]?
  if entry.revoked then none
  let id := nodes.length
  let grown := nodes ++ [CapNode.fresh entry.kind badge]
  some (id, grown.modify parent fun node => { node with children := node.children ++ [id] })

/-- The kind and badge of a node that exists and is not revoked. -/
def resolve (nodes : List CapNode) (node : Nat) : Option (CapKind × UInt32) := do
  let entry ← nodes[node]?
  if entry.revoked then none else some (entry.kind, entry.badge)

/-- Capability nodes as rows of the marking loop: the mark is `revoked`. -/
def rows : Rows CapNode where
  successors node := node.children
  marked node := node.revoked
  mark node := { node with revoked := true }
  marked_mark _ := rfl
  successors_mark _ := rfl

def revoke (nodes : List CapNode) (node : Nat) : List CapNode := loop rows nodes [node]

/-- `b` is `a` or was derived from it, directly or through other nodes. -/
def Descends (nodes : List CapNode) (a b : Nat) : Prop :=
  Relation.ReflTransGen (fun parent child => ∃ node, nodes[parent]? = some node ∧ child ∈ node.children) a b

def Revoked (nodes : List CapNode) (n : Nat) : Prop := ∃ node, nodes[n]? = some node ∧ node.revoked = true

/-- Children come after their parent in the table, and everything below a
    revoked node is revoked. -/
structure Sound (nodes : List CapNode) : Prop where
  later : ∀ (i : Nat) node, nodes[i]? = some node → ∀ child ∈ node.children, i < child ∧ child < nodes.length
  closed : Closed rows nodes

theorem sound_nil : Sound [] :=
  ⟨by simp, by rintro i j ⟨row, found, _⟩; simp at found⟩

variable {id m n parent : Nat} {nodes nodes' : List CapNode} {cap : CapKind × UInt32} {badge : UInt32}

private theorem resolve_eq_none_iff (inside : n < nodes.length) :
    resolve nodes n = none ↔ Revoked nodes n := by
  simp [resolve, Revoked, List.getElem?_eq_getElem inside]

theorem resolve_eq_some_iff {kind : CapKind} :
    resolve nodes n = some (kind, badge) ↔
      ∃ node, nodes[n]? = some node ∧ node.revoked = false ∧ node.kind = kind ∧ node.badge = badge := by
  cases found : nodes[n]? with
  | none => simp [resolve, found]
  | some node =>
    cases live : node.revoked <;> simp [resolve, found, live]

theorem mintDerived_eq_some
    (minted : mintDerived nodes parent badge = some (id, nodes')) :
    ∃ entry, nodes[parent]? = some entry ∧ entry.revoked = false ∧ id = nodes.length ∧
      nodes' = (nodes ++ [CapNode.fresh entry.kind badge]).modify parent
        fun node => { node with children := node.children ++ [id] } := by
  simp only [mintDerived, Option.bind_eq_bind, Option.bind_eq_some_iff] at minted
  obtain ⟨entry, found, rest⟩ := minted
  cases live : entry.revoked
  · simp only [live, Bool.false_eq_true, if_false, Option.some.injEq, Prod.mk.injEq] at rest
    exact ⟨entry, found, live, rest.1.symm, by rw [← rest.2, rest.1]⟩
  · simp [live] at rest

theorem mintDerived_of_resolve
    (live : resolve nodes parent = some cap) (badge : UInt32) : mintDerived nodes parent badge ≠ none := by
  simp only [resolve, Option.bind_eq_bind, Option.bind_eq_some_iff] at live
  obtain ⟨entry, found, rest⟩ := live
  cases revoked : entry.revoked
  · simp [mintDerived, found, revoked]
  · simp [revoked] at rest

theorem getElem?_derived {entry child : CapNode}
    (found : nodes[parent]? = some entry) (i : Nat) :
    ((nodes ++ [child]).modify parent fun node => { node with children := node.children ++ [nodes.length] })[i]? =
      if i = parent then some { entry with children := entry.children ++ [nodes.length] }
      else if i = nodes.length then some child else nodes[i]? := by
  have inside := (List.getElem?_eq_some_iff.mp found).1
  by_cases same : i = parent
  · subst same
    simp [List.getElem?_append_left inside, found]
  · rw [getElem?_modify_other _ same]
    rw [if_neg same, getElem?_append_single]

private theorem sound_mintRoot (sound : Sound nodes) (kind : CapKind) :
    Sound (mintRoot nodes kind).2 := by
  have look : ∀ i : Nat, (mintRoot nodes kind).2[i]? =
      if i = nodes.length then some (.fresh kind 0) else nodes[i]? := getElem?_append_single nodes _
  have length : (mintRoot nodes kind).2.length = nodes.length + 1 := by simp [mintRoot]
  constructor
  · intro i node found child member
    rw [look] at found
    by_cases fresh : i = nodes.length
    · simp only [fresh, if_true, Option.some.injEq] at found
      subst found
      simp [CapNode.fresh] at member
    · rw [if_neg fresh] at found
      have bound := sound.later i node found child member
      omega
  · intro i j marked edge inside
    obtain ⟨row, found, set⟩ := marked
    obtain ⟨row', found', member⟩ := edge
    rw [found] at found'
    cases found'
    rw [look] at found
    by_cases fresh : i = nodes.length
    · simp only [fresh, if_true, Option.some.injEq] at found
      subst found
      simp [rows, CapNode.fresh] at set
    · rw [if_neg fresh] at found
      have bound := sound.later i row found j member
      obtain ⟨target, at_j, set_j⟩ := sound.closed i j ⟨row, found, set⟩ ⟨row, found, member⟩ bound.2
      exact ⟨target, by rw [look, if_neg (by omega), at_j], set_j⟩

private theorem sound_mintDerived (sound : Sound nodes)
    (minted : mintDerived nodes parent badge = some (id, nodes')) : Sound nodes' := by
  obtain ⟨entry, found, live, rfl, rfl⟩ := mintDerived_eq_some minted
  have parentInside := (List.getElem?_eq_some_iff.mp found).1
  have length : ((nodes ++ [CapNode.fresh entry.kind badge]).modify parent
      fun node => { node with children := node.children ++ [nodes.length] }).length = nodes.length + 1 := by simp
  constructor
  · intro i node at_i child member
    rw [getElem?_derived found] at at_i
    rw [length]
    by_cases isParent : i = parent
    · simp only [isParent, if_true, Option.some.injEq] at at_i
      subst at_i
      rcases List.mem_append.mp member with older | newest
      · have bound := sound.later parent entry found child older
        omega
      · have := List.mem_singleton.mp newest
        omega
    · rw [if_neg isParent] at at_i
      by_cases fresh : i = nodes.length
      · simp only [fresh, if_true, Option.some.injEq] at at_i
        subst at_i
        simp [CapNode.fresh] at member
      · rw [if_neg fresh] at at_i
        have bound := sound.later i node at_i child member
        omega
  · intro i j marked edge inside
    obtain ⟨row, at_i, set⟩ := marked
    obtain ⟨row', at_i', member⟩ := edge
    rw [at_i] at at_i'
    cases at_i'
    rw [getElem?_derived found] at at_i
    by_cases isParent : i = parent
    · simp only [isParent, if_true, Option.some.injEq] at at_i
      subst at_i
      simp [rows, live] at set
    · rw [if_neg isParent] at at_i
      by_cases fresh : i = nodes.length
      · simp only [fresh, if_true, Option.some.injEq] at at_i
        subst at_i
        simp [rows, CapNode.fresh] at set
      · rw [if_neg fresh] at at_i
        have bound := sound.later i row at_i j member
        obtain ⟨target, at_j, set_j⟩ := sound.closed i j ⟨row, at_i, set⟩ ⟨row, at_i, member⟩ bound.2
        have notParent : j ≠ parent := by
          rintro rfl
          rw [found] at at_j
          cases at_j
          simp [rows, live] at set_j
        refine ⟨target, ?_, set_j⟩
        rw [getElem?_derived found, if_neg notParent, if_neg (by omega), at_j]

theorem revoke_row (nodes : List CapNode) (node i : Nat) :
    (revoke nodes node)[i]? = nodes[i]? ∨
      ∃ row, nodes[i]? = some row ∧ (revoke nodes node)[i]? = some { row with revoked := true } :=
  (loop_spec (R := rows) nodes node).shape i

@[simp] theorem length_revoke (nodes : List CapNode) (node : Nat) :
    (revoke nodes node).length = nodes.length :=
  (loop_spec (R := rows) nodes node).length

private theorem sound_revoke (sound : Sound nodes) (node : Nat) : Sound (revoke nodes node) := by
  refine ⟨?_, loop_closed sound.closed node⟩
  intro i row found child member
  rw [length_revoke]
  rcases revoke_row nodes node i with same | ⟨old, before, after⟩
  · exact sound.later i row (by rw [← same, found]) child member
  · rw [after] at found
    cases found
    exact sound.later i old before child member

/-- The kinds of all nodes, revoked or not, have a property. -/
def Every (P : CapKind → Prop) (nodes : List CapNode) : Prop := ∀ (n : Nat) (node : CapNode), nodes[n]? = some node → P node.kind

section Every
variable {P : CapKind → Prop} {nodes : List CapNode}

theorem Every.root (every : Every P nodes) {kind : CapKind} {badge : UInt32} (holds : P kind) :
    Every P (nodes ++ [CapNode.fresh kind badge]) := by
  intro n node found
  rw [getElem?_append_single] at found
  split at found
  · cases found
    exact holds
  · exact every n node found

theorem Every.derived (every : Every P nodes) {nodes' : List CapNode} {parent child : Nat} {badge : UInt32}
    (minted : mintDerived nodes parent badge = some (child, nodes')) : Every P nodes' := by
  obtain ⟨entry, found, _, rfl, rfl⟩ := mintDerived_eq_some minted
  intro n node at'
  rw [getElem?_derived found] at at'
  split at at'
  · cases at'
    exact every parent entry found
  · split at at'
    · cases at'
      exact every parent entry found
    · exact every n node at'

theorem Every.revoke (every : Every P nodes) (node : Nat) : Every P (revoke nodes node) := by
  intro n entry found
  rcases revoke_row nodes node n with same | ⟨row, before, after⟩
  · exact every n entry (same ▸ found)
  · rw [after] at found
    cases found
    exact every n row before

end Every

/-- Revocation is the descendant closure: a node stops resolving exactly when it
    was revoked already or descends from the revoked node. -/
theorem revoke_resolve_iff (sound : Sound nodes) (n : Nat)
    (inside : m < nodes.length) :
    resolve (revoke nodes n) m = none ↔ Revoked nodes m ∨ Descends nodes n m := by
  rw [resolve_eq_none_iff (by simpa using inside)]
  exact loop_marked_iff (R := rows) sound.closed inside

theorem revoke_resolve_keeps
    (after : resolve (revoke nodes n) m = some cap) : resolve nodes m = some cap := by
  rcases revoke_row nodes n m with same | ⟨row, before, marked⟩
  · simpa [resolve, same] using after
  · simp [resolve, marked] at after

/-- In a sound table nothing below a revoked node is live. -/
theorem descendant_revoked (sound : Sound nodes) {a b : Nat} (revoked : Revoked nodes a)
    (below : Descends nodes a b) : Revoked nodes b := by
  induction below with
  | refl => exact revoked
  | @tail c d path edge ih =>
    obtain ⟨row, found, member⟩ := edge
    exact sound.closed c d ih ⟨row, found, member⟩ (sound.later c row found d member).2

/-- A call to the capability table; ids are whatever the caller passes. -/
inductive Call where
  | mintRoot (kind : CapKind)
  | mintDerived (parent : Nat) (badge : UInt32)
  | revoke (node : Nat)

/-- The table after one call; a refused derivation leaves it alone. -/
def Call.run (nodes : List CapNode) : Call → List CapNode
  | .mintRoot kind => (Capabilities.mintRoot nodes kind).2
  | .mintDerived parent badge => ((Capabilities.mintDerived nodes parent badge).map Prod.snd).getD nodes
  | .revoke node => Capabilities.revoke nodes node

def runCalls (calls : List Call) : List CapNode := calls.foldl Call.run []

private theorem sound_run (sound : Sound nodes) (call : Call) : Sound (call.run nodes) := by
  cases call with
  | mintRoot kind => exact sound_mintRoot sound kind
  | mintDerived parent badge =>
    cases minted : Capabilities.mintDerived nodes parent badge with
    | none => simpa [Call.run, minted] using sound
    | some result =>
      obtain ⟨id, nodes'⟩ := result
      simpa [Call.run, minted] using sound_mintDerived sound minted
  | revoke node => exact sound_revoke sound node

theorem sound_runs (sound : Sound nodes) (calls : List Call) : Sound (calls.foldl Call.run nodes) := by
  induction calls generalizing nodes with
  | nil => exact sound
  | cons call rest ih => exact ih (sound_run sound call)

theorem sound_runCalls (calls : List Call) : Sound (runCalls calls) := sound_runs sound_nil calls

/-- Every node is still there, of the same kind and with the same badge, and still revoked if it was. -/
def Lasts (nodes nodes' : List CapNode) : Prop :=
  ∀ (n : Nat) (row : CapNode), nodes[n]? = some row → ∃ row', nodes'[n]? = some row' ∧
    row'.kind = row.kind ∧ row'.badge = row.badge ∧ (row.revoked = true → row'.revoked = true)

section Lasting
variable {nodes nodes' nodes'' : List CapNode}

theorem Lasts.trans (first : Lasts nodes nodes') (second : Lasts nodes' nodes'') : Lasts nodes nodes'' := by
  intro n row found
  obtain ⟨row', found', kind, badge, dead⟩ := first n row found
  obtain ⟨row'', found'', kind', badge', dead'⟩ := second n row' found'
  exact ⟨row'', found'', kind'.trans kind, badge'.trans badge, fun revoked => dead' (dead revoked)⟩

private theorem lasts_derived {parent child : Nat} {badge : UInt32}
    (minted : mintDerived nodes parent badge = some (child, nodes')) : Lasts nodes nodes' := by
  obtain ⟨entry, there, _, rfl, rfl⟩ := mintDerived_eq_some minted
  intro n row found
  rw [getElem?_derived there]
  by_cases same : n = parent
  · subst same
    cases there.symm.trans found
    exact ⟨_, if_pos rfl, rfl, rfl, id⟩
  · have inside := (List.getElem?_eq_some_iff.mp found).1
    rw [if_neg same, if_neg (by omega)]
    exact ⟨row, found, rfl, rfl, id⟩

private theorem lasts_run (nodes : List CapNode) (call : Call) : Lasts nodes (call.run nodes) := by
  cases call with
  | mintRoot kind =>
    intro n row found
    have inside := (List.getElem?_eq_some_iff.mp found).1
    exact ⟨row, (List.getElem?_append_left inside).trans found, rfl, rfl, id⟩
  | mintDerived parent badge =>
    cases minted : Capabilities.mintDerived nodes parent badge with
    | none =>
      intro n row found
      exact ⟨row, by simpa [Call.run, minted] using found, rfl, rfl, id⟩
    | some result => simpa [Call.run, minted] using lasts_derived minted
  | revoke node =>
    intro n row found
    rcases revoke_row nodes node n with same | ⟨old, before, after⟩
    · exact ⟨row, same.trans found, rfl, rfl, id⟩
    · cases before.symm.trans found
      exact ⟨_, after, rfl, rfl, fun _ => rfl⟩

theorem lasts_runs (calls : List Call) (nodes : List CapNode) : Lasts nodes (calls.foldl Call.run nodes) := by
  induction calls generalizing nodes with
  | nil => exact fun n row found => ⟨row, found, rfl, rfl, id⟩
  | cons call rest ih => exact (lasts_run nodes call).trans (ih _)

theorem Lasts.resolve {n : Nat} {kind : CapKind} {badge : UInt32} (lasts : Lasts nodes nodes')
    (live : Capabilities.resolve nodes n = some (kind, badge)) :
    Capabilities.resolve nodes' n = some (kind, badge) ∨ Revoked nodes' n := by
  obtain ⟨row, found, _, isKind, isBadge⟩ := resolve_eq_some_iff.mp live
  obtain ⟨row', found', sameKind, sameBadge, _⟩ := lasts n row found
  cases dead : row'.revoked with
  | false => exact .inl (resolve_eq_some_iff.mpr ⟨row', found', dead, sameKind.trans isKind, sameBadge.trans isBadge⟩)
  | true => exact .inr ⟨row', found', dead⟩

end Lasting

end Pcern.Capabilities

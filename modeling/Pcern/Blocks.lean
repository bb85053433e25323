import Mathlib.Data.List.Basic
import Mathlib.Logic.Function.Basic

/-!
Programs over a block device. A program is a tree: it reads and writes blocks one at a time and is told of each access
whether it succeeded. `run` follows a pattern of failures, and `Ensures` is the weakest precondition with a condition on
every write, so that it also speaks about the disks a crash can leave.
-/
namespace Pcern.Blocks

/-- A program that accesses blocks of type `B` at addresses of type `A`; each write carries a label. A loop that has
    not ended with its fuel is `spin`. -/
inductive Prog (L A B α : Type) where
  | ret (result : α)
  | spin
  | read (address : A) (next : Option B → Prog L A B α)
  | write (label : L) (address : A) (block : B) (next : Bool → Prog L A B α)

variable {L A B α γ : Type}

namespace Prog

def bind : Prog L A B α → (α → Prog L A B γ) → Prog L A B γ
  | .ret a, k => k a
  | .spin, _ => .spin
  | .read address next, k => .read address fun block => (next block).bind k
  | .write label address block next, k => .write label address block fun done => (next done).bind k

instance : Monad (Prog L A B) where
  pure := .ret
  bind := .bind

@[simp] theorem pure_eq (a : α) : (pure a : Prog L A B α) = .ret a := rfl

end Prog

/-- A failed write ends the program at once, with this result. -/
def AbortsWith (a : α) : Prog L A B α → Prop
  | .ret _ => True
  | .spin => True
  | .read _ next => ∀ block, AbortsWith a (next block)
  | .write _ _ _ next => next false = .ret a ∧ AbortsWith a (next true)

theorem AbortsWith.bind {p : Prog L A B γ} {k : γ → Prog L A B α} {c : γ} {a : α} (first : AbortsWith c p) (ends : k c = .ret a)
    (second : ∀ c, AbortsWith a (k c)) : AbortsWith a (p >>= k) := by
  induction p with
  | ret c' => exact second c'
  | spin => trivial
  | read address next ih => exact fun block => ih block (first block)
  | write label address block next ih =>
    refine ⟨?_, ih true first.2⟩
    change (next false).bind k = .ret a
    rw [first.1]
    exact ends

def ReadsOnly : Prog L A B α → Prop
  | .ret _ => True
  | .spin => True
  | .read _ next => ∀ block, ReadsOnly (next block)
  | .write _ _ _ _ => False

section ReadsOnly
variable {p : Prog L A B γ} {k : γ → Prog L A B α}

theorem ReadsOnly.bind (first : ReadsOnly p) (second : ∀ c, ReadsOnly (k c)) : ReadsOnly (p >>= k) := by
  induction p with
  | ret c => exact second c
  | spin => trivial
  | read address next ih => exact fun block => ih block (first block)
  | write label address block next ih => exact first.elim

theorem ReadsOnly.bind_aborts {a : α} (first : ReadsOnly p) (second : ∀ c, AbortsWith a (k c)) : AbortsWith a (p >>= k) := by
  induction p with
  | ret c => exact second c
  | spin => trivial
  | read address next ih => exact fun block => ih block (first block)
  | write label address block next ih => exact first.elim

end ReadsOnly

/-- The program reads, and ends. -/
def Peeks : Prog L A B α → Prop
  | .ret _ => True
  | .spin => False
  | .read _ next => ∀ block, Peeks (next block)
  | .write _ _ _ _ => False

theorem Peeks.bind {p : Prog L A B γ} {k : γ → Prog L A B α} (first : Peeks p) (second : ∀ c, Peeks (k c)) : Peeks (p >>= k) := by
  induction p with
  | ret c => exact second c
  | spin => exact first.elim
  | read address next ih => exact fun block => ih block (first block)
  | write label address block next ih => exact first.elim

/-- What an execution comes to: its result if the program ended, the disk, and the writes it asked for. -/
structure Trace (L A B α : Type) where
  result : Option α
  disk : A → B
  writes : List (L × A × B)

variable [DecidableEq A]

/-- Execution under a pattern of failures: access `n` from here fails if `fails n`, and then changes nothing. -/
def Prog.run : Prog L A B α → (Nat → Bool) → (A → B) → Trace L A B α
  | .ret a, _, d => { result := some a, disk := d, writes := [] }
  | .spin, _, d => { result := none, disk := d, writes := [] }
  | .read address next, fails, d => (next (if fails 0 then none else some (d address))).run (fun n => fails (n + 1)) d
  | .write label address block next, fails, d =>
    let t := (next !fails 0).run (fun n => fails (n + 1)) (if fails 0 then d else Function.update d address block)
    { t with writes := (label, address, block) :: t.writes }

/-- The blocks of the accesses that are made and fail. -/
def Prog.lost : Prog L A B α → (Nat → Bool) → (A → B) → List A
  | .ret _, _, _ => []
  | .spin, _, _ => []
  | .read address next, fails, d =>
    let rest := (next (if fails 0 then none else some (d address))).lost (fun n => fails (n + 1)) d
    if fails 0 then address :: rest else rest
  | .write _ address block next, fails, d =>
    let rest := (next !fails 0).lost (fun n => fails (n + 1)) (if fails 0 then d else Function.update d address block)
    if fails 0 then address :: rest else rest

/-- The pattern in which every access succeeds. -/
def allWell : Nat → Bool := fun _ => false

theorem Prog.lost_allWell (p : Prog L A B α) (d : A → B) : p.lost allWell d = [] := by
  induction p generalizing d with
  | ret a => rfl
  | spin => rfl
  | read address next ih => exact ih _ d
  | write label address block next ih => exact ih true _

def written (d : A → B) (writes : List (L × A × B)) : A → B := writes.foldl (fun d w => Function.update d w.2.1 w.2.2) d

/-! ## Weakest preconditions -/

/-- Whether accesses may fail, whether a program may fail to end, and the blocks to which no access fails. -/
structure Mode (A : Type) where
  fails : Prop
  spins : Prop
  spared : A → Prop

/-- No access fails, and the program ends. -/
abbrev Mode.calm : Mode A := ⟨False, False, fun _ => False⟩

/-- Any access may fail, and the program ends. -/
abbrev Mode.faulty : Mode A := ⟨True, False, fun _ => False⟩

/-- The pattern is one that the mode allows. -/
def Mode.Allows (m : Mode A) (p : Prog L A B α) (fails : Nat → Bool) (d : A → B) : Prop :=
  fails = allWell ∨ m.fails ∧ ∀ address ∈ p.lost fails d, ¬m.spared address

theorem Mode.faulty_allows (p : Prog L A B α) (fails : Nat → Bool) (d : A → B) : Mode.faulty.Allows p fails d :=
  .inr ⟨trivial, fun _ _ => id⟩

/-- Every execution that the mode allows ends in `Q`, and `may` holds of every write on the disk it is asked for. -/
def Ensures (m : Mode A) (may : (A → B) → L → A → B → Prop) (Q : α → (A → B) → Prop) : Prog L A B α → (A → B) → Prop
  | .ret a, d => Q a d
  | .spin, _ => m.spins
  | .read address next, d => Ensures m may Q (next (some (d address))) d ∧
    (m.fails → ¬m.spared address → Ensures m may Q (next none) d)
  | .write label address block next, d =>
    may d label address block ∧ Ensures m may Q (next true) (Function.update d address block) ∧
      (m.fails → ¬m.spared address → Ensures m may Q (next false) d)

section Rules
variable {m : Mode A} {may may' : (A → B) → L → A → B → Prop} {Q Q' : α → (A → B) → Prop} {d : A → B}

theorem Ensures.mono {p : Prog L A B α} (ensures : Ensures m may Q p d) (weaker : ∀ a d, Q a d → Q' a d)
    (allows : ∀ d l a b, may d l a b → may' d l a b) : Ensures m may' Q' p d := by
  induction p generalizing d with
  | ret a => exact weaker a d ensures
  | spin => exact ensures
  | read address next ih => exact ⟨ih _ ensures.1, fun fails lost => ih _ (ensures.2 fails lost)⟩
  | write label address block next ih =>
    exact ⟨allows _ _ _ _ ensures.1, ih _ ensures.2.1, fun fails lost => ih _ (ensures.2.2 fails lost)⟩

theorem Ensures.and {p : Prog L A B α} (first : Ensures m may Q p d) (second : Ensures m may' Q' p d) :
    Ensures m may (fun a d => Q a d ∧ Q' a d) p d := by
  induction p generalizing d with
  | ret a => exact ⟨first, second⟩
  | spin => exact first
  | read address next ih =>
    exact ⟨ih _ first.1 second.1, fun fails lost => ih _ (first.2 fails lost) (second.2 fails lost)⟩
  | write label address block next ih =>
    exact ⟨first.1, ih _ first.2.1 second.2.1, fun fails lost => ih _ (first.2.2 fails lost) (second.2.2 fails lost)⟩

theorem ensures_bind {p : Prog L A B γ} {k : γ → Prog L A B α} :
    Ensures m may Q (p >>= k) d ↔ Ensures m may (fun c d' => Ensures m may Q (k c) d') p d := by
  induction p generalizing d with
  | ret c => exact Iff.rfl
  | spin => exact Iff.rfl
  | read address next ih => exact and_congr (ih _) (imp_congr_right fun _ => imp_congr_right fun _ => ih _)
  | write label address block next ih =>
    exact and_congr_right fun _ => and_congr (ih _) (imp_congr_right fun _ => imp_congr_right fun _ => ih _)

theorem Peeks.ensures {p : Prog L A B α} (peeks : Peeks p) : Ensures m may (fun _ d' => d' = d) p d := by
  induction p with
  | ret a => exact rfl
  | spin => exact peeks.elim
  | read address next ih => exact ⟨ih _ (peeks _), fun _ _ => ih _ (peeks _)⟩
  | write label address block next ih => exact peeks.elim

/-- Ensured programs do end as ensured, under every pattern of failures that the mode allows. -/
theorem Ensures.run {p : Prog L A B α} (ensures : Ensures m may Q p d) {fails : Nat → Bool} (pattern : m.Allows p fails d) :
    ((p.run fails d).result = none → m.spins) ∧ ∀ a, (p.run fails d).result = some a → Q a (p.run fails d).disk := by
  induction p generalizing d fails with
  | ret a => exact ⟨nofun, fun a' same => by cases same; exact ensures⟩
  | spin => exact ⟨fun _ => ensures, nofun⟩
  | read address next ih =>
    cases first : fails 0 with
    | false =>
      simp only [Mode.Allows, Prog.lost, Prog.run, first, Bool.false_eq_true, if_false] at pattern ⊢
      exact ih _ ensures.1 (pattern.imp_left fun well => by rw [well]; rfl)
    | true =>
      simp only [Mode.Allows, Prog.lost, Prog.run, first, if_true, List.forall_mem_cons] at pattern ⊢
      obtain ⟨fails, lost, later⟩ := pattern.resolve_left fun well => by rw [well] at first; cases first
      exact ih _ (ensures.2 fails lost) (.inr ⟨fails, later⟩)
  | write label address block next ih =>
    cases first : fails 0 with
    | false =>
      simp only [Mode.Allows, Prog.lost, Prog.run, first, Bool.false_eq_true, if_false] at pattern ⊢
      exact ih _ ensures.2.1 (pattern.imp_left fun well => by rw [well]; rfl)
    | true =>
      simp only [Mode.Allows, Prog.lost, Prog.run, first, if_true, List.forall_mem_cons] at pattern ⊢
      obtain ⟨fails, lost, later⟩ := pattern.resolve_left fun well => by rw [well] at first; cases first
      exact ih _ (ensures.2.2 fails lost) (.inr ⟨fails, later⟩)

theorem Ensures.result {p : Prog L A B α} (ensures : Ensures m may Q p d) (ends : ¬m.spins) {fails : Nat → Bool}
    (pattern : m.Allows p fails d) : ∃ a, (p.run fails d).result = some a ∧ Q a (p.run fails d).disk := by
  obtain ⟨stops, holds⟩ := ensures.run pattern
  cases result : (p.run fails d).result with
  | none => exact absurd (stops result) ends
  | some a => exact ⟨a, rfl, holds a result⟩

/-- Where nothing fails, the disk has the property that every write keeps after any number of them. -/
theorem Ensures.cut {J : (A → B) → Prop} {p : Prog L A B α} (ensures : Ensures m (fun d _ a b => J (Function.update d a b)) Q p d)
    (start : J d) (k : Nat) : J (written d ((p.run allWell d).writes.take k)) := by
  induction p generalizing d k with
  | ret a => simpa [Prog.run, written] using start
  | spin => simpa [Prog.run, written] using start
  | read address next ih => exact ih _ ensures.1 start k
  | write label address block next ih =>
    cases k with
    | zero => exact start
    | succ k => exact ih _ ensures.2.1 ensures.1 k

private theorem run_allWell_disk (p : Prog L A B α) (d : A → B) : (p.run allWell d).disk = written d (p.run allWell d).writes := by
  induction p generalizing d with
  | ret a => rfl
  | spin => rfl
  | read address next ih => exact ih _ _
  | write label address block next ih => exact ih _ _

/-- Where nothing fails, a program goes on from the disk that its first part leaves. -/
theorem run_allWell_bind {p : Prog L A B γ} {k : γ → Prog L A B α} {c : γ} (ends : (p.run allWell d).result = some c) :
    ((p >>= k).run allWell d).result = ((k c).run allWell (p.run allWell d).disk).result ∧
      ((p >>= k).run allWell d).disk = ((k c).run allWell (p.run allWell d).disk).disk := by
  induction p generalizing d with
  | ret c' =>
    cases ends
    exact ⟨rfl, rfl⟩
  | spin => cases ends
  | read address next ih => exact ih _ ends
  | write label address block next ih => exact ih _ ends

end Rules

/-! ## Executions that are cut short -/

section Cuts
variable {p : Prog L A B γ} {k : γ → Prog L A B α} {d d' : A → B}

/-- The disk is passed on the way when nothing fails. -/
def Passes (p : Prog L A B α) (d d' : A → B) : Prop := ∃ n, written d ((p.run allWell d).writes.take n) = d'

theorem Passes.bind_left (passes : Passes p d d') : Passes (p >>= k) d d' := by
  induction p generalizing d with
  | ret c =>
    obtain ⟨n, rfl⟩ := passes
    exact ⟨0, by simp [Prog.run, written]⟩
  | spin =>
    obtain ⟨n, rfl⟩ := passes
    exact ⟨0, by simp [Prog.run, written]⟩
  | read address next ih => exact ih _ passes
  | write label address block next ih =>
    obtain ⟨n, rfl⟩ := passes
    cases n with
    | zero => exact ⟨0, rfl⟩
    | succ n =>
      obtain ⟨n', same⟩ := ih true (d := Function.update d address block) ⟨n, rfl⟩
      exact ⟨n' + 1, same⟩

theorem Passes.bind_right {c : γ} (ends : (p.run allWell d).result = some c) (passes : Passes (k c) (p.run allWell d).disk d') :
    Passes (p >>= k) d d' := by
  induction p generalizing d with
  | ret c' =>
    cases ends
    exact passes
  | spin => cases ends
  | read address next ih => exact ih _ ends passes
  | write label address block next ih =>
    obtain ⟨n, same⟩ := ih true (d := Function.update d address block) ends passes
    exact ⟨n + 1, same⟩

theorem passes_end (p : Prog L A B α) (d : A → B) : Passes p d (p.run allWell d).disk :=
  ⟨(p.run allWell d).writes.length, by rw [List.take_length, run_allWell_disk]⟩

/-- The disk that is left when write `n` fails and no other access does. -/
def Prog.lose : Prog L A B α → Nat → (A → B) → (A → B)
  | .ret _, _, d => d
  | .spin, _, d => d
  | .read address next, n, d => (next (some (d address))).lose n d
  | .write _ _ _ next, 0, d => ((next false).run allWell d).disk
  | .write _ address block next, n + 1, d => (next true).lose n (Function.update d address block)

theorem AbortsWith.lose_eq {p : Prog L A B α} {a : α} (aborts : AbortsWith a p) (n : Nat) (d : A → B) :
    p.lose n d = written d ((p.run allWell d).writes.take n) := by
  induction p generalizing n d with
  | ret a' => simp [Prog.lose, Prog.run, written]
  | spin => simp [Prog.lose, Prog.run, written]
  | read address next ih => exact ih _ (aborts _) n d
  | write label address block next ih =>
    cases n with
    | zero => rw [Prog.lose, aborts.1]; rfl
    | succ n => exact ih true aborts.2 n _

end Cuts

end Pcern.Blocks

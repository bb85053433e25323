import Mathlib.Data.Nat.Bitwise
import Mathlib.Data.Set.Insert
import Pcern.Bytes

/-!
Two-level page tables of a 32-bit x86 processor, as words in a byte memory.

The first part is the hardware: the bits of an entry, the walk of a virtual
address through a directory (`translate`) and loads through it. The second part
is about a set of directories whose first `n` entries are private. `Spaces` says
that their trees share no frame, `Structural` which frames hold directories and
tables, and `leaf` is the word that maps a page. The ways a tree can change (a
write outside it, a new table, a widened directory entry, a new leaf, a new
directory) each get one lemma that says what becomes of the three.
-/
namespace Pcern.PageTables
open Bytes

def present (w : Nat) : Bool := w.testBit 0
def writable (w : Nat) : Bool := w.testBit 1
def user (w : Nat) : Bool := w.testBit 2
def large (w : Nat) : Bool := w.testBit 7

/-- The frame an entry points at, `w & 0xFFFFF000` of a 32-bit word. -/
def address (w : Nat) : Nat := w / 4096 * 4096

def entry (phys : Nat) (user writable : Bool) : Nat :=
  phys ||| (1 ||| (if writable then 2 else 0) ||| (if user then 4 else 0))

/-- Entry `i` of the directory or table at `table`. -/
def word (m : Memory) (table i : Nat) : Nat := read32 m (table + 4 * i)

/-- Where a virtual address leads and what ring 3 may do there. -/
structure Translation where
  phys : Nat
  user : Bool
  writable : Bool
  deriving DecidableEq, Repr

/-- The walk of the processor, with 4 MiB pages enabled. -/
def translate (m : Memory) (dir va : Nat) : Option Translation :=
  let pde := word m dir (va / 0x400000)
  if !present pde then none
  else if large pde then
    some { phys := pde / 0x400000 * 0x400000 + va % 0x400000, user := user pde, writable := writable pde }
  else
    let pte := word m (address pde) (va / 4096 % 1024)
    if !present pte then none
    else some { phys := address pte + va % 4096, user := user pde && user pte, writable := writable pde && writable pte }

/-- A byte loaded through a directory; nothing if the page is not present. -/
def load8 (m : Memory) (dir va : Nat) : Option UInt8 := (translate m dir va).map fun t => m t.phys

/-- A little-endian word loaded through a directory. Addresses wrap at 4 GiB. -/
def load32 (m : Memory) (dir va : Nat) : Option Nat := do
  let b0 ← load8 m dir (va % 2 ^ 32)
  let b1 ← load8 m dir ((va + 1) % 2 ^ 32)
  let b2 ← load8 m dir ((va + 2) % 2 ^ 32)
  let b3 ← load8 m dir ((va + 3) % 2 ^ 32)
  pure (b0.toNat + 2 ^ 8 * b1.toNat + 2 ^ 16 * b2.toNat + 2 ^ 24 * b3.toNat)

/-! ## Entries -/

private theorem or_eq_add {phys flags : Nat} (aligned : phys % 4096 = 0) (small : flags < 4096) :
    phys ||| flags = phys + flags := by
  have joined := Nat.two_pow_add_eq_or_of_lt (i := 12) small (phys / 4096)
  have split : 2 ^ 12 * (phys / 4096) = phys := by omega
  rw [split] at joined
  exact joined.symm

private theorem flags_lt (u w : Bool) : (1 ||| (if w then 2 else 0) ||| (if u then 4 else 0) : Nat) < 8 := by
  cases u <;> cases w <;> decide

private theorem entry_eq {phys : Nat} (aligned : phys % 4096 = 0) (u w : Bool) :
    entry phys u w = 2 ^ 12 * (phys / 4096) + (1 ||| (if w then 2 else 0) ||| (if u then 4 else 0)) := by
  have small := flags_lt u w
  rw [entry, or_eq_add aligned (by omega)]
  omega

private theorem testBit_entry {phys : Nat} (aligned : phys % 4096 = 0) (u w : Bool) {i : Nat} (low : i < 12) :
    (entry phys u w).testBit i = (1 ||| (if w then 2 else 0) ||| (if u then 4 else 0) : Nat).testBit i := by
  have small := flags_lt u w
  rw [entry_eq aligned, Nat.testBit_two_pow_mul_add _ (by omega), if_pos low]

section
variable {phys : Nat} (aligned : phys % 4096 = 0)
include aligned

@[simp] theorem present_entry (u w : Bool) : present (entry phys u w) = true := by
  rw [present, testBit_entry aligned u w (by decide)]
  cases u <;> cases w <;> decide

@[simp] theorem writable_entry (u w : Bool) : writable (entry phys u w) = w := by
  rw [writable, testBit_entry aligned u w (by decide)]
  cases u <;> cases w <;> decide

@[simp] theorem user_entry (u w : Bool) : user (entry phys u w) = u := by
  rw [user, testBit_entry aligned u w (by decide)]
  cases u <;> cases w <;> decide

@[simp] theorem large_entry (u w : Bool) : large (entry phys u w) = false := by
  rw [large, testBit_entry aligned u w (by decide)]
  cases u <;> cases w <;> decide

@[simp] theorem address_entry (u w : Bool) : address (entry phys u w) = phys := by
  have small := flags_lt u w
  rw [address, entry_eq aligned]
  omega

theorem entry_lt (fits : phys < 2 ^ 32) (u w : Bool) : entry phys u w < 2 ^ 32 := by
  have small := flags_lt u w
  rw [entry_eq aligned]
  omega

end

theorem address_aligned (w : Nat) : address w % 4096 = 0 := by simp [address]

theorem widened (w : Nat) :
    present (w ||| 4) = present w ∧ large (w ||| 4) = large w ∧ address (w ||| 4) = address w := by
  refine ⟨by simp [present], ?_, ?_⟩
  · rw [large, large, Nat.testBit_or]
    have clear : Nat.testBit 4 7 = false := by decide
    simp [clear]
  · have divided : (w ||| 4) / 4096 = w / 4096 := by simpa using Nat.or_div_two_pow (a := w) (b := 4) (n := 12)
    rw [address, address, divided]

theorem widened_lt {w : Nat} (small : w < 2 ^ 32) : w ||| 4 < 2 ^ 32 := Nat.or_lt_two_pow small (by decide)

theorem word_lt (m : Memory) (table i : Nat) : word m table i < 2 ^ 32 := read32_lt m _

theorem translate_user {m : Memory} {dir va : Nat} {t : Translation} (walked : translate m dir va = some t)
    (user' : t.user = true) : user (word m dir (va / 0x400000)) = true := by
  dsimp only [translate] at walked
  split at walked
  · cases walked
  split at walked
  · cases walked
    exact user'
  split at walked
  · cases walked
  · cases walked
    exact (Bool.and_eq_true_iff.mp user').1

/-! ## Words of tables under the writes of a kernel -/

theorem word_write32 (m : Memory) {table i : Nat} (aligned : table % 4096 = 0) (inside : i < 1024) {v : Nat}
    (small : v < 2 ^ 32) {table' i' : Nat} (aligned' : table' % 4096 = 0) (inside' : i' < 1024) :
    word (write32 m (table + 4 * i) v) table' i' = if table' = table ∧ i' = i then v else word m table' i' := by
  by_cases same : table' = table ∧ i' = i
  · obtain ⟨rfl, rfl⟩ := same
    simp [word, read32_write32_same m _ small]
  · rw [if_neg same]
    exact read32_write32_other m _ _ (by omega)

theorem word_fill (m : Memory) {frame : Nat} (aligned : frame % 4096 = 0) {table i : Nat}
    (aligned' : table % 4096 = 0) (inside : i < 1024) :
    word (fill m frame 4096 0) table i = if table = frame then 0 else word m table i := by
  by_cases same : table = frame
  · subst same
    have low : table ≤ table + 4 * i := by omega
    simpa [word] using read32_fill_zero m low (by omega : table + 4 * i + 4 ≤ table + 4096)
  · rw [if_neg same]
    exact read32_fill_other m 0 (by omega)

theorem word_congr {m m' : Memory} {table : Nat} (same : ∀ a, table ≤ a → a < table + 4096 → m' a = m a) {i : Nat}
    (inside : i < 1024) : word m' table i = word m table i :=
  read32_congr fun _ _ => same _ (by omega) (by omega)

/-! ## Trees of directories -/

/-- A frame that holds one of the directories or one of the tables they point at
    with their first `n` entries. -/
def Structural (m : Memory) (n : Nat) (dirs : Set Nat) (frame : Nat) : Prop :=
  frame ∈ dirs ∨ ∃ d ∈ dirs, ∃ i < n, present (word m d i) = true ∧ address (word m d i) = frame

/-- The word that maps page `j` of region `i`; zero where there is no table. -/
def leaf (m : Memory) (d i j : Nat) : Nat := if present (word m d i) then word m (address (word m d i)) j else 0

/-- The trees below some directories: of small pages, and with no frame in two places. -/
structure Spaces (m : Memory) (n : Nat) (dirs : Set Nat) : Prop where
  aligned : ∀ d ∈ dirs, d % 4096 = 0
  small : ∀ d ∈ dirs, ∀ i < n, present (word m d i) = true → large (word m d i) = false
  apart : ∀ d ∈ dirs, ∀ i < n, present (word m d i) = true → address (word m d i) ∉ dirs
  once : ∀ d ∈ dirs, ∀ i < n, ∀ d' ∈ dirs, ∀ i' < n, present (word m d i) = true → present (word m d' i') = true →
    address (word m d i) = address (word m d' i') → d = d' ∧ i = i'

section Trees
variable {m m' : Memory} {n : Nat} {dirs : Set Nat}

theorem Structural.table {d i : Nat} (member : d ∈ dirs) (less : i < n) (here : present (word m d i) = true) :
    Structural m n dirs (address (word m d i)) := .inr ⟨d, member, i, less, here, rfl⟩

theorem Structural.mono {dirs' : Set Nat} (sub : dirs' ⊆ dirs) {f : Nat} (holds : Structural m n dirs' f) :
    Structural m n dirs f := by
  rcases holds with dir | ⟨d, member, rest⟩
  · exact .inl (sub dir)
  · exact .inr ⟨d, sub member, rest⟩

theorem Spaces.structural_aligned (spaces : Spaces m n dirs) {f : Nat} (holds : Structural m n dirs f) :
    f % 4096 = 0 := by
  rcases holds with dir | ⟨d, _, i, _, _, rfl⟩
  · exact spaces.aligned f dir
  · exact address_aligned _

private theorem entriesAgree {w w' : Nat} (same : w' = w) :
    present w' = present w ∧ large w' = large w ∧ address w' = address w := by simp [same]

private theorem spaces_of_entries (spaces : Spaces m n dirs)
    (entries : ∀ d ∈ dirs, ∀ i < n, present (word m' d i) = present (word m d i) ∧
      large (word m' d i) = large (word m d i) ∧ address (word m' d i) = address (word m d i)) :
    Spaces m' n dirs ∧ ∀ f, Structural m' n dirs f ↔ Structural m n dirs f := by
  refine ⟨⟨spaces.aligned, ?_, ?_, ?_⟩, ?_⟩
  · intro d member i less
    rw [(entries d member i less).1, (entries d member i less).2.1]
    exact spaces.small d member i less
  · intro d member i less
    rw [(entries d member i less).1, (entries d member i less).2.2]
    exact spaces.apart d member i less
  · intro d member i less d' member' i' less'
    rw [(entries d member i less).1, (entries d member i less).2.2, (entries d' member' i' less').1,
      (entries d' member' i' less').2.2]
    exact spaces.once d member i less d' member' i' less'
  · intro f
    refine or_congr_right ⟨?_, ?_⟩
    · rintro ⟨d, member, i, less, here, points⟩
      rw [(entries d member i less).1] at here
      rw [(entries d member i less).2.2] at points
      exact ⟨d, member, i, less, here, points⟩
    · rintro ⟨d, member, i, less, here, points⟩
      rw [← (entries d member i less).1] at here
      rw [← (entries d member i less).2.2] at points
      exact ⟨d, member, i, less, here, points⟩

variable (spaces : Spaces m n dirs)
include spaces

theorem Spaces.congr (fits : n ≤ 1024)
    (same : ∀ f, Structural m n dirs f → ∀ i < 1024, word m' f i = word m f i) :
    Spaces m' n dirs ∧ (∀ f, Structural m' n dirs f ↔ Structural m n dirs f) ∧
      ∀ d ∈ dirs, ∀ i < n, ∀ j < 1024, leaf m' d i j = leaf m d i j := by
  have entries : ∀ d ∈ dirs, ∀ i < n, word m' d i = word m d i :=
    fun d member i less => same d (.inl member) i (by omega)
  obtain ⟨kept, frames⟩ := spaces_of_entries spaces fun d member i less => entriesAgree (entries d member i less)
  refine ⟨kept, frames, fun d member i less j inside => ?_⟩
  unfold leaf
  rw [entries d member i less]
  split
  · rename_i here
    exact same _ (.table member less here) j inside
  · rfl

theorem Spaces.widen (fits : n ≤ 1024) {d i e : Nat}
    (keeps : present e = present (word m d i) ∧ large e = large (word m d i) ∧ address e = address (word m d i))
    (written : ∀ f, Structural m n dirs f → ∀ k < 1024, word m' f k = if f = d ∧ k = i then e else word m f k)
    (member : d ∈ dirs) :
    Spaces m' n dirs ∧ (∀ f, Structural m' n dirs f ↔ Structural m n dirs f) ∧
      ∀ d' ∈ dirs, ∀ i' < n, ∀ j < 1024, leaf m' d' i' j = leaf m d' i' j := by
  have entries : ∀ d' ∈ dirs, ∀ i' < n, present (word m' d' i') = present (word m d' i') ∧
      large (word m' d' i') = large (word m d' i') ∧ address (word m' d' i') = address (word m d' i') := by
    intro d' member' i' less'
    rw [written d' (.inl member') i' (by omega)]
    split
    · rename_i same
      obtain ⟨rfl, rfl⟩ := same
      exact keeps
    · exact ⟨rfl, rfl, rfl⟩
  obtain ⟨kept, frames⟩ := spaces_of_entries spaces entries
  refine ⟨kept, frames, fun d' member' i' less' j inside => ?_⟩
  unfold leaf
  rw [(entries d' member' i' less').1, (entries d' member' i' less').2.2]
  split
  · rename_i here
    rw [written _ (.table member' less' here) j inside, if_neg]
    rintro ⟨points, _⟩
    exact spaces.apart d' member' i' less' here (points ▸ member)
  · rfl

theorem Spaces.setLeaf (fits : n ≤ 1024) {d i j v : Nat} (member : d ∈ dirs) (less : i < n)
    (here : present (word m d i) = true)
    (written : ∀ f, Structural m n dirs f → ∀ k < 1024,
      word m' f k = if f = address (word m d i) ∧ k = j then v else word m f k) :
    Spaces m' n dirs ∧ (∀ f, Structural m' n dirs f ↔ Structural m n dirs f) ∧
      ∀ d' ∈ dirs, ∀ i' < n, ∀ j' < 1024,
        leaf m' d' i' j' = if d' = d ∧ i' = i ∧ j' = j then v else leaf m d' i' j' := by
  have entries : ∀ d' ∈ dirs, ∀ i' < n, word m' d' i' = word m d' i' := by
    intro d' member' i' less'
    rw [written d' (.inl member') i' (by omega), if_neg]
    rintro ⟨points, _⟩
    exact spaces.apart d member i less here (points ▸ member')
  obtain ⟨kept, frames⟩ := spaces_of_entries spaces fun d' member' i' less' =>
    entriesAgree (entries d' member' i' less')
  refine ⟨kept, frames, fun d' member' i' less' j' inside => ?_⟩
  unfold leaf
  rw [entries d' member' i' less']
  by_cases here' : present (word m d' i') = true
  · rw [if_pos here', if_pos here', written _ (.table member' less' here') j' inside]
    refine if_congr ⟨?_, ?_⟩ rfl rfl
    · rintro ⟨points, rfl⟩
      obtain ⟨rfl, rfl⟩ := spaces.once d' member' i' less' d member i less here' here points
      exact ⟨rfl, rfl, rfl⟩
    · rintro ⟨rfl, rfl, rfl⟩
      exact ⟨rfl, rfl⟩
  · rw [if_neg here', if_neg here', if_neg]
    rintro ⟨rfl, rfl, _⟩
    exact here' here

theorem Spaces.addTable (fits : n ≤ 1024) {d i e : Nat} (member : d ∈ dirs) (less : i < n)
    (empty : present (word m d i) = false) (here : present e = true) (plain : large e = false)
    (fresh : ¬ Structural m n dirs (address e)) (zeroed : ∀ k < 1024, word m' (address e) k = 0)
    (written : ∀ f, Structural m n dirs f → ∀ k < 1024, word m' f k = if f = d ∧ k = i then e else word m f k) :
    Spaces m' n dirs ∧ (∀ f, Structural m' n dirs f ↔ f = address e ∨ Structural m n dirs f) ∧
      ∀ d' ∈ dirs, ∀ i' < n, ∀ j < 1024, leaf m' d' i' j = leaf m d' i' j := by
  have placed : word m' d i = e := by
    rw [written d (.inl member) i (by omega), if_pos ⟨rfl, rfl⟩]
  have others : ∀ d' ∈ dirs, ∀ i' < n, ¬ (d' = d ∧ i' = i) → word m' d' i' = word m d' i' := by
    intro d' member' i' less' other
    rw [written d' (.inl member') i' (by omega), if_neg other]
  -- every entry present afterwards is the new one or an old one
  have cases' : ∀ d' ∈ dirs, ∀ i' < n, present (word m' d' i') = true →
      (d' = d ∧ i' = i ∧ word m' d' i' = e) ∨ (word m' d' i' = word m d' i' ∧ present (word m d' i') = true) := by
    intro d' member' i' less' here'
    by_cases same : d' = d ∧ i' = i
    · obtain ⟨rfl, rfl⟩ := same
      exact .inl ⟨rfl, rfl, placed⟩
    · rw [others d' member' i' less' same] at here'
      exact .inr ⟨others d' member' i' less' same, here'⟩
  refine ⟨⟨spaces.aligned, ?_, ?_, ?_⟩, ?_, ?_⟩
  · intro d' member' i' less' here'
    rcases cases' d' member' i' less' here' with ⟨_, _, new⟩ | ⟨old, before⟩
    · rw [new, plain]
    · rw [old]; exact spaces.small d' member' i' less' before
  · intro d' member' i' less' here'
    rcases cases' d' member' i' less' here' with ⟨_, _, new⟩ | ⟨old, before⟩
    · rw [new]; exact fun inside => fresh (.inl inside)
    · rw [old]; exact spaces.apart d' member' i' less' before
  · intro d' member' i' less' d'' member'' i'' less'' here' here'' points
    rcases cases' d' member' i' less' here' with ⟨rfl, rfl, new⟩ | ⟨old, before⟩ <;>
      rcases cases' d'' member'' i'' less'' here'' with ⟨rfl, rfl, new'⟩ | ⟨old', before'⟩
    · exact ⟨rfl, rfl⟩
    · rw [new, old'] at points
      exact absurd (.inr ⟨_, member'', _, less'', before', points.symm⟩) fresh
    · rw [new', old] at points
      exact absurd (.inr ⟨_, member', _, less', before, points⟩) fresh
    · rw [old, old'] at points
      exact spaces.once d' member' i' less' d'' member'' i'' less'' before before' points
  · intro f
    constructor
    · rintro (dir | ⟨d', member', i', less', here', points⟩)
      · exact .inr (.inl dir)
      · rcases cases' d' member' i' less' here' with ⟨_, _, new⟩ | ⟨old, before⟩
        · exact .inl (by rw [← points, new])
        · exact .inr (.inr ⟨d', member', i', less', before, by rw [← old, points]⟩)
    · rintro (rfl | dir | ⟨d', member', i', less', before, points⟩)
      · exact .inr ⟨d, member, i, less, by rw [placed, here], by rw [placed]⟩
      · exact .inl dir
      · refine .inr ⟨d', member', i', less', ?_⟩
        rw [others d' member' i' less']
        · exact ⟨before, points⟩
        · rintro ⟨rfl, rfl⟩
          rw [empty] at before
          cases before
  · intro d' member' i' less' j inside
    unfold leaf
    by_cases same : d' = d ∧ i' = i
    · obtain ⟨rfl, rfl⟩ := same
      rw [placed, if_pos here, zeroed j inside, empty]
      rfl
    · rw [others d' member' i' less' same]
      split
      · rename_i here'
        rw [written _ (.table member' less' here') j inside, if_neg]
        rintro ⟨points, _⟩
        exact spaces.apart d' member' i' less' here' (points ▸ member)
      · rfl

theorem Spaces.addDirectory (fits : n ≤ 1024) {d : Nat} (aligned : d % 4096 = 0)
    (fresh : ¬ Structural m n dirs d) (empty : ∀ i < n, present (word m' d i) = false)
    (same : ∀ f, Structural m n dirs f → ∀ k < 1024, word m' f k = word m f k) :
    Spaces m' n (insert d dirs) ∧ (∀ f, Structural m' n (insert d dirs) f ↔ f = d ∨ Structural m n dirs f) ∧
      (∀ d' ∈ dirs, ∀ i < n, ∀ j < 1024, leaf m' d' i j = leaf m d' i j) ∧ ∀ i < n, ∀ j, leaf m' d i j = 0 := by
  obtain ⟨kept, frames, leaves⟩ := spaces.congr fits same
  -- an entry present afterwards belongs to an old directory
  have older : ∀ d' ∈ insert d dirs, ∀ i < n, present (word m' d' i) = true → d' ∈ dirs := by
    rintro d' (rfl | member') i less here
    · rw [empty i less] at here
      cases here
    · exact member'
  have pointed : ∀ d' ∈ insert d dirs, ∀ i < n, present (word m' d' i) = true → Structural m n dirs (address (word m' d' i)) :=
    fun d' member' i less here => (frames _).mp (.table (older d' member' i less here) less here)
  refine ⟨⟨?_, ?_, ?_, ?_⟩, ?_, leaves, ?_⟩
  · rintro d' (rfl | member')
    · exact aligned
    · exact spaces.aligned d' member'
  · intro d' member' i less here
    exact kept.small d' (older d' member' i less here) i less here
  · rintro d' member' i less here (points | inside)
    · exact fresh (points ▸ pointed d' member' i less here)
    · exact kept.apart d' (older d' member' i less here) i less here inside
  · intro d' member' i less d'' member'' i'' less'' here here''
    exact kept.once d' (older d' member' i less here) i less d'' (older d'' member'' i'' less'' here'') i'' less'' here
      here''
  · intro f
    constructor
    · rintro ((rfl | dir) | ⟨d', member', i, less, here, rfl⟩)
      · exact .inl rfl
      · exact .inr (.inl dir)
      · exact .inr (pointed d' member' i less here)
    · rintro (rfl | old)
      · exact .inl (.inl rfl)
      · exact ((frames f).mpr old).mono (Set.subset_insert d dirs)
  · intro i less j
    unfold leaf
    rw [empty i less]
    rfl

/-- A private address leads where its leaf says, with no right that the leaf does not give. -/
theorem Spaces.translate_eq_some {d va : Nat} (member : d ∈ dirs) (low : va / 0x400000 < n)
    {t : Translation} (walked : translate m d va = some t) :
    let w := leaf m d (va / 0x400000) (va / 4096 % 1024)
    present w = true ∧ t.phys = address w + va % 4096 ∧ (t.user = true → user w = true) ∧
      (t.writable = true → writable w = true) := by
  unfold translate at walked
  by_cases here : present (word m d (va / 0x400000)) = true
  · have plain := spaces.small d member _ low here
    simp only [here, plain, Bool.not_true, Bool.false_eq_true, if_false] at walked
    simp only [leaf, here, if_true]
    split at walked
    · cases walked
    · rename_i mapped
      cases walked
      simp only [Bool.and_eq_true]
      exact ⟨by simpa using mapped, trivial, And.right, And.right⟩
  · simp only [here, Bool.not_false, if_true] at walked
    cases walked

end Trees

end Pcern.PageTables

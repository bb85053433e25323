import Mathlib.Data.List.Perm.Subperm
import Mathlib.Data.List.TakeWhile
import Pcern.Entries

/-!
Well-formed volumes. The root directory and the files own disjoint chains of clusters that are in use, each long enough
for its file. The lemmas say which changes of the table, of an entry or of a data sector keep a volume well-formed, and
with which chains.
-/
namespace Pcern.Fat32

open Bytes Blocks Chains

/-- The cluster belongs to the root directory or to a file. -/
def Used (b : Bpb) (v : Vol) (root : List Nat) (chain : Slot → List Nat) (c : Nat) : Prop :=
  c ∈ root ∨ ∃ slot ∈ files b v root, c ∈ chain slot

/-- A cluster that may be part of a chain: in range, not free, and with a proper end mark if it has no successor. -/
structure Vol.Sound (b : Bpb) (v : Vol) (c : Nat) : Prop where
  has : b.Has c
  taken : v.fat c ≠ 0
  ended : v.link c = none → eocMin ≤ v.fat c

structure WellFormed (b : Bpb) (v : Vol) (root : List Nat) (chain : Slot → List Nat) : Prop where
  rootChain : ChainFrom v.link b.rootCluster root
  fileChain : ∀ slot ∈ files b v root, v.start slot = 0 ∧ chain slot = [] ∨ ChainFrom v.link (v.start slot) (chain slot)
  room : ∀ slot ∈ files b v root, v.size slot ≤ (chain slot).length * (b.sectorsPerCluster * 512)
  sound : ∀ c, Used b v root chain c → v.Sound b c
  rootApart : ∀ slot ∈ files b v root, ∀ c ∈ chain slot, c ∉ root
  apart : ∀ slot ∈ files b v root, ∀ slot' ∈ files b v root, ∀ c ∈ chain slot, c ∈ chain slot' → slot = slot'
  names : ∀ slot ∈ files b v root, ∀ slot' ∈ files b v root, v.name slot = v.name slot' → slot = slot'
  regular : ∀ slot ∈ files b v root, v.regular slot
  tail : ∀ front slot back, slots b root = front ++ slot :: back → v.kind slot = .marker → ∀ x ∈ back, v.zeroed x

private theorem clusterSlots_nodup (b : Bpb) (c : Nat) : (clusterSlots b c).Nodup := by
  unfold clusterSlots
  rw [List.nodup_flatMap]
  refine ⟨fun s _ => List.nodup_range.map fun e e' same => by cases same; rfl, ?_⟩
  refine List.nodup_range.imp fun {s s'} different => ?_
  intro slot here there
  simp only [sectorSlots, List.mem_map] at here there
  obtain ⟨_, _, rfl⟩ := here
  obtain ⟨_, _, same⟩ := there
  cases same
  exact different rfl

private theorem slots_nodup {b : Bpb} {root : List Nat} (nodup : root.Nodup) : (slots b root).Nodup := by
  unfold slots
  rw [List.nodup_flatMap]
  refine ⟨fun c _ => clusterSlots_nodup b c, nodup.imp fun {c c'} different => ?_⟩
  intro slot here there
  exact different ((mem_clusterSlots.mp here).1.symm.trans (mem_clusterSlots.mp there).1)

private theorem split_unique {α : Type} {xs front back front' back' : List α} {y : α} (nodup : xs.Nodup)
    (here : xs = front ++ y :: back) (there : xs = front' ++ y :: back') : front = front' ∧ back = back' := by
  have apart : y ∉ front ∧ y ∉ back := by
    rw [here, List.nodup_middle, List.nodup_cons, List.mem_append, not_or] at nodup
    exact nodup.1
  have places := (List.append_cons_inj_of_notMem apart.1 apart.2).mp (here.symm.trans there)
  exact ⟨places.1, places.2.2⟩

section WellFormed
variable {b : Bpb} {v v' : Vol} {root : List Nat} {chain : Slot → List Nat} {slot : Slot}

theorem WellFormed.slots_nodup (wf : WellFormed b v root chain) : (slots b root).Nodup :=
  Fat32.slots_nodup wf.rootChain.nodup

theorem WellFormed.has_root (wf : WellFormed b v root chain) : ∀ c ∈ root, b.Has c :=
  fun c member => (wf.sound c (.inl member)).has

variable {f z : Nat}

theorem WellFormed.free (wf : WellFormed b v root chain) (free : v.fat f = 0) : ¬Used b v root chain f :=
  fun used => (wf.sound f used).taken free

theorem WellFormed.nodup (wf : WellFormed b v root chain) (member : slot ∈ files b v root) : (chain slot).Nodup := by
  rcases wf.fileChain slot member with ⟨_, empty⟩ | chained
  · simp [empty]
  · exact chained.nodup

theorem length_le {xs : List Nat} (nodup : xs.Nodup) (has : ∀ c ∈ xs, b.Has c) : xs.length ≤ b.maxCluster := by
  have inside : xs ⊆ List.range' 1 b.maxCluster := fun c member => by
    have := (has c member).1
    have := (has c member).2
    exact List.mem_range'_1.mpr ⟨by omega, by omega⟩
  simpa using (List.subperm_of_subset nodup inside).length_le

theorem WellFormed.length_root (wf : WellFormed b v root chain) : root.length ≤ b.maxCluster :=
  length_le wf.rootChain.nodup wf.has_root

/-- The same files are there with the same entries, and their chains as they were. -/
theorem WellFormed.carry (wf : WellFormed b v root chain) {root' : List Nat} (listed : files b v' root' = files b v root)
    (same : ∀ x ∈ files b v root, Vol.SameEntry v v' x) (rootChain : ChainFrom v'.link b.rootCluster root')
    (links : ∀ x ∈ files b v root, ∀ c ∈ chain x, v'.link c = v.link c)
    (sound : ∀ c, c ∈ root' ∨ Used b v root chain c → v'.Sound b c) (apart : ∀ x ∈ files b v root, ∀ c ∈ chain x, c ∉ root')
    (tail : ∀ front x back, slots b root' = front ++ x :: back → v'.kind x = .marker → ∀ y ∈ back, v'.zeroed y) :
    WellFormed b v' root' chain := by
  refine ⟨rootChain, ?_, ?_, fun c used => ?_, listed.symm ▸ apart, listed.symm ▸ wf.apart, ?_, ?_, tail⟩
  · intro x member
    rw [listed] at member
    rw [(same x member).start]
    exact (wf.fileChain x member).imp_right fun chained => chained.congr (links x member)
  · intro x member
    rw [listed] at member
    rw [(same x member).size]
    exact wf.room x member
  · rw [Used, listed] at used
    exact sound c (used.imp_right .inr)
  · intro x member y member' equal
    rw [listed] at member member'
    rw [(same x member).name, (same y member').name] at equal
    exact wf.names x member y member' equal
  · intro x member
    rw [listed] at member
    exact (same x member).regular.mpr (wf.regular x member)

theorem WellFormed.congr (wf : WellFormed b v root chain) (fat : ∀ c, Used b v root chain c → v'.fat c = v.fat c)
    (same : ∀ x ∈ slots b root, Vol.SameEntry v v' x) : WellFormed b v' root chain := by
  have link : ∀ c, Used b v root chain c → v'.link c = v.link c := fun c used => by rw [Vol.link, fat c used, Vol.link]
  refine wf.carry (files_congr fun x member => (same x member).kind) (fun x member => same x (files_subset member))
    (wf.rootChain.congr fun c member => link c (.inl member)) (fun x member c inside => link c (.inr ⟨x, member, inside⟩))
    (fun c used => ?_) wf.rootApart ?_
  · have used : Used b v root chain c := used.elim .inl id
    have sound := wf.sound c used
    exact ⟨sound.has, fat c used ▸ sound.taken, fun ends => fat c used ▸ sound.ended (link c used ▸ ends)⟩
  · intro front x back split marker y member
    have inside : ∀ w ∈ front ++ x :: back, Vol.SameEntry v v' w := split ▸ same
    refine (inside y (by simp [member])).zeroed.mpr (wf.tail front x back split ?_ y member)
    rw [← (inside x (by simp)).kind]
    exact marker

/-- A cluster that is marked as the end of a chain and belongs to none yet. -/
structure Spare (b : Bpb) (v : Vol) (root : List Nat) (chain : Slot → List Nat) (f : Nat) : Prop where
  unused : ¬Used b v root chain f
  has : b.Has f
  ends : v.fat f = eocMin

theorem Spare.link (spare : Spare b v root chain f) : v.link f = none := by
  simp [Vol.link, spare.ends]

theorem Spare.sound (spare : Spare b v root chain f) : v.Sound b f :=
  ⟨spare.has, by rw [spare.ends]; decide, fun _ => Nat.le_of_eq spare.ends.symm⟩

theorem WellFormed.mark (wf : WellFormed b v root chain) (has : b.Has f) (free : v.fat f = 0) :
    WellFormed b (v.setFat f eocMin) root chain ∧ Spare b (v.setFat f eocMin) root chain f := by
  have unused := wf.free free
  refine ⟨wf.congr (fun c used => ?_) fun _ _ _ _ => rfl, unused, has, ?_⟩
  · rw [Vol.setFat_fat, if_neg]
    rintro rfl
    exact unused used
  · rw [Vol.setFat_fat, if_pos rfl]

/-- The chain that ends in `z` goes on in a spare cluster. -/
theorem Spare.follows (spare : Spare b v root chain f) (numbers : b.maxCluster < 0x0FFFFFF8) (used : Used b v root chain z)
    (fat : v'.fat = (v.setFat z f).fat) :
    v'.link z = some f ∧ v'.link f = none ∧ (∀ x, x ≠ z → v'.fat x = v.fat x ∧ v'.link x = v.link x) ∧
      ∀ c, v.Sound b c → v'.Sound b c := by
  have linked : v'.link z = some f := by
    rw [Vol.link, fat, ← Vol.link]
    exact Vol.setFat_link_same v z spare.has.1 (by have := spare.has.2; omega)
  have others : ∀ x, x ≠ z → v'.fat x = v.fat x ∧ v'.link x = v.link x := by
    intro x other
    have same : v'.fat x = v.fat x := by rw [fat, Vol.setFat_fat, if_neg other]
    exact ⟨same, by rw [Vol.link, same, Vol.link]⟩
  have different : f ≠ z := by
    rintro rfl
    exact spare.unused used
  refine ⟨linked, (others f different).2.trans spare.link, others, fun c sound => ?_⟩
  by_cases end' : c = z
  · subst end'
    refine ⟨sound.has, ?_, fun ends => ?_⟩
    · rw [fat, Vol.setFat_fat, if_pos rfl]
      have := spare.has.1
      omega
    · rw [linked] at ends
      cases ends
  · obtain ⟨same, link⟩ := others c end'
    exact ⟨sound.has, same ▸ sound.taken, fun ends => same ▸ sound.ended (link ▸ ends)⟩

theorem WellFormed.setData (wf : WellFormed b v root chain) {c : Nat} (outside : c ∉ root) (s : Nat) (sector : Sector) :
    WellFormed b (v.setData c s sector) root chain := by
  refine wf.congr (fun _ _ => rfl) fun x member => Vol.sameEntry_setData_other sector ?_
  rintro rfl
  exact outside (mem_slots.mp member).1

/-- The slot can hold a file: no end marker comes before it. -/
def Reachable (b : Bpb) (v : Vol) (root : List Nat) (slot : Slot) : Prop :=
  ∃ front back, slots b root = front ++ slot :: back ∧ ∀ x ∈ front, v.kind x ≠ .marker

theorem mem_files_replaced (wf : WellFormed b v root chain) (reachable : Reachable b v root slot)
    (same : ∀ x ∈ slots b root, x ≠ slot → Vol.SameEntry v v' x) (kind : v'.kind slot = .file) {x : Slot} :
    x ∈ files b v' root ↔ x = slot ∨ x ∈ files b v root := by
  obtain ⟨front, back, split, before⟩ := reachable
  have nodup := wf.slots_nodup
  constructor
  · intro member
    by_cases here : x = slot
    · exact .inl here
    · obtain ⟨file, front', back', split', before'⟩ := mem_files.mp member
      have listed : ∀ y ∈ front', y ∈ slots b root := fun y inside => by rw [split']; simp [inside]
      have inside : x ∈ slots b root := by rw [split']; simp
      rw [(same x inside here).kind] at file
      refine .inr (mem_files.mpr ⟨file, front', back', split', fun y within marker => ?_⟩)
      by_cases slotFirst : y = slot
      · -- the slot was the end marker, so what comes after it is zero and no file
        subst slotFirst
        obtain ⟨front1, back1, rfl⟩ := List.append_of_mem within
        have after := wf.tail front1 y (back1 ++ x :: back') (by rw [split']; simp) marker x (by simp)
        rw [Vol.zeroed_marker after] at file
        cases file
      · exact before' y within (((same y (listed y within) slotFirst).kind).trans marker)
  · have apart : slot ∉ front ∧ slot ∉ back := by
      rw [split, List.nodup_middle, List.nodup_cons, List.mem_append, not_or] at nodup
      exact nodup.1
    rintro (rfl | old)
    · refine mem_files.mpr ⟨kind, front, back, split, fun y within marker => before y within ?_⟩
      rw [← (same y (by rw [split]; simp [within]) fun equal => apart.1 (equal ▸ within)).kind]
      exact marker
    · obtain ⟨file, front', back', split', before'⟩ := mem_files.mp old
      have keep : ∀ y ∈ slots b root, v.kind y ≠ .marker → v'.kind y ≠ .marker := by
        intro y inside other
        by_cases here : y = slot
        · rw [here, kind]
          decide
        · rw [(same y inside here).kind]
          exact other
      refine mem_files.mpr ⟨?_, front', back', split', fun y within => ?_⟩
      · by_cases here : x = slot
        · exact here ▸ kind
        · rw [(same x (by rw [split']; simp) here).kind]
          exact file
      · exact keep y (by rw [split']; simp [within]) (before' y within)

theorem WellFormed.replace (wf : WellFormed b v root chain) (reachable : Reachable b v root slot)
    (fat : ∀ c, (c ∈ root ∨ ∃ x ∈ files b v root, x ≠ slot ∧ c ∈ chain x) → v'.fat c = v.fat c)
    (same : ∀ x ∈ slots b root, x ≠ slot → Vol.SameEntry v v' x) (kind : v'.kind slot = .file) (regular : v'.regular slot)
    (name : ∀ x ∈ files b v root, x ≠ slot → v.name x ≠ v'.name slot) {own : List Nat}
    (chained : v'.start slot = 0 ∧ own = [] ∨ ChainFrom v'.link (v'.start slot) own)
    (room : v'.size slot ≤ own.length * (b.sectorsPerCluster * 512))
    (sound : ∀ c ∈ own, v'.Sound b c ∧ c ∉ root ∧ ∀ x ∈ files b v root, x ≠ slot → c ∉ chain x) :
    WellFormed b v' root (Function.update chain slot own) := by
  have parts : ∀ x ∈ files b v' root, x = slot ∨
      x ≠ slot ∧ x ∈ files b v root ∧ Function.update chain slot own x = chain x ∧ Vol.SameEntry v v' x := by
    intro x member
    by_cases here : x = slot
    · exact .inl here
    · have old := ((mem_files_replaced wf reachable same kind).mp member).resolve_left here
      exact .inr ⟨here, old, Function.update_of_ne here _ _, same x (files_subset old) here⟩
  have ours : Function.update chain slot own slot = own := Function.update_self ..
  have link : ∀ c, (c ∈ root ∨ ∃ x ∈ files b v root, x ≠ slot ∧ c ∈ chain x) → v'.link c = v.link c ∧ v'.Sound b c := by
    intro c used
    have same : v'.link c = v.link c := by rw [Vol.link, fat c used, Vol.link]
    have owned : c ∈ root ∨ ∃ x ∈ files b v root, c ∈ chain x := by
      rcases used with rooted | ⟨x, member, _, within⟩
      · exact .inl rooted
      · exact .inr ⟨x, member, within⟩
    have sound := wf.sound c owned
    exact ⟨same, sound.has, fat c used ▸ sound.taken, fun ends => fat c used ▸ sound.ended (same ▸ ends)⟩
  refine ⟨wf.rootChain.congr fun c rooted => (link c (.inl rooted)).1, fun x member => ?_, fun x member => ?_, fun c used => ?_,
    fun x member c within => ?_, fun x member y member' c within within' => ?_, fun x member y member' equal => ?_, fun x member => ?_, ?_⟩
  · rcases parts x member with here | ⟨here, old, lookup, entry⟩
    · rw [here, ours]
      exact chained
    · rw [lookup, entry.start]
      exact (wf.fileChain x old).imp_right fun chained => chained.congr fun c within => (link c (.inr ⟨x, old, here, within⟩)).1
  · rcases parts x member with here | ⟨here, old, lookup, entry⟩
    · rw [here, ours]
      exact room
    · rw [lookup, entry.size]
      exact wf.room x old
  · rcases used with rooted | ⟨x, member, within⟩
    · exact (link c (.inl rooted)).2
    · rcases parts x member with here | ⟨here, old, lookup, _⟩
      · rw [here, ours] at within
        exact (sound c within).1
      · exact (link c (.inr ⟨x, old, here, lookup ▸ within⟩)).2
  · rcases parts x member with here | ⟨here, old, lookup, _⟩
    · rw [here, ours] at within
      exact (sound c within).2.1
    · exact wf.rootApart x old c (lookup ▸ within)
  · rcases parts x member with here | ⟨here, old, lookup, _⟩ <;> rcases parts y member' with there | ⟨there, old', lookup', _⟩
    · exact here.trans there.symm
    · rw [here, ours] at within
      exact absurd (lookup' ▸ within') ((sound c within).2.2 y old' there)
    · rw [there, ours] at within'
      exact absurd (lookup ▸ within) ((sound c within').2.2 x old here)
    · exact wf.apart x old y old' c (lookup ▸ within) (lookup' ▸ within')
  · rcases parts x member with here | ⟨here, old, _, entry⟩ <;> rcases parts y member' with there | ⟨there, old', _, entry'⟩
    · exact here.trans there.symm
    · rw [here, entry'.name] at equal
      exact absurd equal.symm (name y old' there)
    · rw [there, entry.name] at equal
      exact absurd equal (name x old here)
    · rw [entry.name, entry'.name] at equal
      exact wf.names x old y old' equal
  · rcases parts x member with here | ⟨here, old, _, entry⟩
    · exact here ▸ regular
    · exact entry.regular.mpr (wf.regular x old)
  · intro front x back split marker y within
    have inside : ∀ w ∈ front ++ x :: back, w ≠ slot → Vol.SameEntry v v' w := split ▸ same
    have here : x ≠ slot := by
      rintro rfl
      rw [kind] at marker
      cases marker
    rw [(inside x (by simp) here).kind] at marker
    have there : y ≠ slot := by
      -- the slot cannot come after an end marker
      rintro rfl
      obtain ⟨front', back', split', before⟩ := reachable
      obtain ⟨back1, back2, rfl⟩ := List.append_of_mem within
      have place := (split_unique wf.slots_nodup split' (split.trans (List.append_assoc front (x :: back1) _).symm)).1
      exact before x (by rw [place]; simp) marker
    exact (inside y (by simp [within]) there).zeroed.mpr (wf.tail front x back split marker y within)

theorem WellFormed.extend (wf : WellFormed b v root chain) (numbers : b.maxCluster < 0x0FFFFFF8) (member : slot ∈ files b v root)
    {front : List Nat} (last : chain slot = front ++ [z]) (spare : Spare b v root chain f) :
    WellFormed b (v.setFat z f) root (Function.update chain slot (chain slot ++ [f])) := by
  have inside : z ∈ chain slot := by simp [last]
  obtain ⟨linked, ends, others, sound⟩ := spare.follows numbers (.inr ⟨slot, member, inside⟩) rfl
  obtain ⟨file, reachable⟩ := mem_files.mp member
  refine wf.replace reachable (fun c used => (others c ?_).1) (fun _ _ _ _ _ => rfl) file (wf.regular slot member)
    (fun x listed other same => other (wf.names x listed slot member same)) (.inr ?_) ?_ fun c within => ?_
  · rintro rfl
    rcases used with rooted | ⟨x, listed, other, within⟩
    · exact wf.rootApart slot member c inside rooted
    · exact other (wf.apart x listed slot member c within inside)
  · rcases wf.fileChain slot member with ⟨_, empty⟩ | chained
    · rw [empty] at inside
      cases inside
    · rw [last] at chained ⊢
      exact chained.extend (fun y _ other => (others y other).2) linked ends
  · rw [List.length_append]
    exact Nat.le_trans (wf.room slot member) (Nat.mul_le_mul_right _ (Nat.le_add_right _ _))
  · rcases List.mem_append.mp within with old | new
    · exact ⟨sound c (wf.sound c (.inr ⟨slot, member, old⟩)), wf.rootApart slot member c old,
        fun x listed other belongs => other (wf.apart x listed slot member c belongs old)⟩
    · cases List.mem_singleton.mp new
      exact ⟨sound f spare.sound, fun rooted => spare.unused (.inl rooted),
        fun x listed _ belongs => spare.unused (.inr ⟨x, listed, belongs⟩)⟩

theorem files_grown (full : ∀ x ∈ slots b root, v.kind x ≠ .marker)
    (same : ∀ x ∈ slots b root, Vol.SameEntry v v' x) (zero : ∀ x ∈ clusterSlots b f, v'.zeroed x) :
    files b v' (root ++ [f]) = files b v root := by
  have more : slots b (root ++ [f]) = slots b root ++ clusterSlots b f := by simp [slots]
  have front : ∀ x ∈ slots b root, (v'.kind x ≠ .marker) := fun x member => (same x member).kind ▸ full x member
  have none : (clusterSlots b f).takeWhile (fun x => v'.kind x ≠ .marker) = [] := by
    cases listed : clusterSlots b f with
    | nil => rfl
    | cons x rest =>
      rw [List.takeWhile_cons, if_neg]
      simp [Vol.zeroed_marker (zero x (by simp [listed]))]
  have before : seen b v' (root ++ [f]) = slots b root := by
    rw [seen, more, List.takeWhile_append_of_pos fun x member => decide_eq_true (front x member), none, List.append_nil]
  have after : seen b v root = slots b root :=
    List.takeWhile_eq_self_iff.mpr fun x member => decide_eq_true (full x member)
  rw [files, before, files, after]
  exact List.filter_congr fun x member => by rw [(same x member).kind]

theorem WellFormed.growRoot (wf : WellFormed b v root chain) (numbers : b.maxCluster < 0x0FFFFFF8) {front : List Nat}
    (last : root = front ++ [z]) (spare : Spare b v root chain f) (full : ∀ x ∈ slots b root, v.kind x ≠ .marker)
    (fat : v'.fat = (v.setFat z f).fat) (same : ∀ x ∈ slots b root, Vol.SameEntry v v' x)
    (zero : ∀ x ∈ clusterSlots b f, v'.zeroed x) : WellFormed b v' (root ++ [f]) chain := by
  have listed : files b v' (root ++ [f]) = files b v root := files_grown full same zero
  have inside : z ∈ root := by simp [last]
  obtain ⟨linked, ends, others, sound⟩ := spare.follows numbers (.inl inside) fat
  refine wf.carry listed (fun x member => same x (files_subset member)) ?_ (fun x member c within => (others c ?_).2)
    (fun c used => ?_) (fun x member c within rooted => ?_) ?_
  · have chained := wf.rootChain
    rw [last] at chained ⊢
    exact chained.extend (fun y _ other => (others y other).2) linked ends
  · rintro rfl
    exact wf.rootApart x member c within inside
  · rcases used with rooted | used
    · rcases List.mem_append.mp rooted with old | new
      · exact sound c (wf.sound c (.inl old))
      · cases List.mem_singleton.mp new
        exact sound f spare.sound
    · exact sound c (wf.sound c used)
  · rcases List.mem_append.mp rooted with old | new
    · exact wf.rootApart x member c within old
    · cases List.mem_singleton.mp new
      exact spare.unused (.inr ⟨x, member, within⟩)
  · intro front' x back split marker y within
    have more : slots b (root ++ [f]) = slots b root ++ clusterSlots b f := by simp [slots]
    have old : x ∉ slots b root := fun member => full x member ((same x member).kind ▸ marker)
    rw [more] at split
    refine zero y ?_
    rcases List.append_eq_append_iff.mp split with ⟨a, rfl, rest⟩ | ⟨a, rest, tail⟩
    · rw [rest]
      simp [within]
    · cases a with
      | nil =>
        rw [List.nil_append] at tail
        rw [← tail]
        simp [within]
      | cons w a =>
        cases tail
        exact absurd (by rw [rest]; simp) old

end WellFormed

/-! ## The chains that a volume describes -/

/-- The clusters from `c` on, `fuel` at most. -/
def Vol.walk (v : Vol) : Nat → Nat → List Nat
  | 0, _ => []
  | fuel + 1, c => c :: match v.link c with
    | some c' => v.walk fuel c'
    | none => []

def rootOf (b : Bpb) (v : Vol) : List Nat := v.walk b.maxCluster b.rootCluster

/-- The clusters of a file with this first cluster, where 0 stands for none. -/
def clustersFrom (b : Bpb) (v : Vol) (start : Nat) : List Nat := if start = 0 then [] else v.walk b.maxCluster start

def clustersOf (b : Bpb) (v : Vol) (slot : Slot) : List Nat := clustersFrom b v (v.start slot)

/-- The volume is well-formed, with the chains that it describes. -/
def Valid (b : Bpb) (v : Vol) : Prop := WellFormed b v (rootOf b v) (clustersOf b v)

section Valid
variable {b : Bpb} {v : Vol} {root : List Nat} {chain : Slot → List Nat} {slot : Slot}

theorem Vol.walk_eq {c : Nat} {xs : List Nat} (chained : ChainFrom v.link c xs) {fuel : Nat} (enough : xs.length ≤ fuel) :
    v.walk fuel c = xs := by
  induction chained generalizing fuel with
  | last ends =>
    obtain ⟨fuel, rfl⟩ := Nat.exists_eq_add_of_le' enough
    simp [Vol.walk, ends]
  | link goes rest ih =>
    obtain ⟨fuel, rfl⟩ := Nat.exists_eq_add_of_le' (Nat.le_trans (Nat.le_add_left 1 _) enough)
    have later := @ih fuel (by simpa using enough)
    simp [Vol.walk, goes, later]

theorem WellFormed.rootOf_eq (wf : WellFormed b v root chain) : rootOf b v = root :=
  Vol.walk_eq wf.rootChain wf.length_root

theorem WellFormed.clustersOf_eq (wf : WellFormed b v root chain) (member : slot ∈ files b v root) : clustersOf b v slot = chain slot := by
  have has : ∀ c ∈ chain slot, b.Has c := fun c within => (wf.sound c (.inr ⟨slot, member, within⟩)).has
  unfold clustersOf clustersFrom
  rcases wf.fileChain slot member with ⟨zero, empty⟩ | chained
  · rw [if_pos zero, empty]
  · have start := has _ (List.mem_of_getElem? chained.head)
    have := start.1
    rw [if_neg (by omega), Vol.walk_eq chained (length_le (wf.nodup member) has)]

theorem WellFormed.used_iff (wf : WellFormed b v root chain) {c : Nat} :
    Used b v (rootOf b v) (clustersOf b v) c ↔ Used b v root chain c := by
  rw [wf.rootOf_eq]
  refine or_congr_right (exists_congr fun x => and_congr_right fun member => ?_)
  rw [wf.clustersOf_eq member]

theorem WellFormed.valid (wf : WellFormed b v root chain) : Valid b v := by
  unfold Valid
  rw [wf.rootOf_eq]
  have same : ∀ x ∈ files b v root, clustersOf b v x = chain x := fun x member => wf.clustersOf_eq member
  refine { wf with fileChain := fun x member => ?_, room := fun x member => ?_,
                   sound := fun c used => wf.sound c (wf.used_iff.mp (wf.rootOf_eq.symm ▸ used)),
                   rootApart := fun x member => ?_, apart := fun x member y member' => ?_ }
  · rw [same x member]
    exact wf.fileChain x member
  · rw [same x member]
    exact wf.room x member
  · rw [same x member]
    exact wf.rootApart x member
  · rw [same x member, same y member']
    exact wf.apart x member y member'

end Valid

/-! ## Checking a volume -/

section Decidable
variable {b : Bpb} {v : Vol} {root : List Nat} {chain : Slot → List Nat} {slot : Slot} {c : Nat}

instance : Decidable (v.regular slot) := inferInstanceAs (Decidable (_ = _))

instance : Decidable (v.zeroed slot) := inferInstanceAs (Decidable (∀ i < 32, _))

instance : Decidable (v.Sound b c) :=
  decidable_of_iff (b.Has c ∧ v.fat c ≠ 0 ∧ (v.link c = none → eocMin ≤ v.fat c))
    ⟨fun ⟨has, taken, ended⟩ => ⟨has, taken, ended⟩, fun sound => ⟨sound.has, sound.taken, sound.ended⟩⟩

def Vol.Proper (b : Bpb) (v : Vol) (root : List Nat) (chain : Slot → List Nat) (slot : Slot) : Prop :=
  (v.start slot = 0 ∧ chain slot = [] ∨ ChainFrom v.link (v.start slot) (chain slot)) ∧
    v.size slot ≤ (chain slot).length * (b.sectorsPerCluster * 512) ∧ v.regular slot ∧
    (∀ c ∈ chain slot, v.Sound b c ∧ c ∉ root) ∧
    ∀ x ∈ files b v root, slot ≠ x → v.name slot ≠ v.name x ∧ ∀ c ∈ chain slot, c ∉ chain x

instance : Decidable (v.Proper b root chain slot) := inferInstanceAs (Decidable (_ ∧ _ ∧ _ ∧ _ ∧ _))

private theorem wellFormed_iff : WellFormed b v root chain ↔ ChainFrom v.link b.rootCluster root ∧ (∀ c ∈ root, v.Sound b c) ∧
    (∀ slot ∈ files b v root, v.Proper b root chain slot) ∧
    (slots b root).Pairwise fun x y => v.kind x = .marker → v.zeroed y := by
  constructor
  · intro wf
    refine ⟨wf.rootChain, fun c member => wf.sound c (.inl member), fun slot member => ⟨wf.fileChain slot member,
      wf.room slot member, wf.regular slot member, fun c within => ?_, fun x member' other => ⟨fun same => ?_, fun c within within' => ?_⟩⟩, ?_⟩
    · exact ⟨wf.sound c (.inr ⟨slot, member, within⟩), wf.rootApart slot member c within⟩
    · exact other (wf.names slot member x member' same)
    · exact other (wf.apart slot member x member' c within within')
    · rw [List.pairwise_iff_forall_sublist]
      intro x y sub marker
      obtain ⟨front, rest, split, first, second⟩ := List.cons_sublist_iff.mp sub
      obtain ⟨front', back', rfl⟩ := List.append_of_mem first
      exact wf.tail front' x (back' ++ rest) (by rw [split]; simp) marker y (by simp [List.singleton_sublist.mp second])
  · rintro ⟨rootChain, rooted, proper, tail⟩
    refine ⟨rootChain, fun x member => (proper x member).1, fun x member => (proper x member).2.1, ?_, fun x member c within =>
      ((proper x member).2.2.2.1 c within).2, fun x member y member' c within within' => ?_, fun x member y member' same => ?_,
      fun x member => (proper x member).2.2.1, fun front x back split marker y within => ?_⟩
    · rintro c (member | ⟨x, member, within⟩)
      · exact rooted c member
      · exact ((proper x member).2.2.2.1 c within).1
    · by_contra other
      exact ((proper x member).2.2.2.2 y member' other).2 c within within'
    · by_contra other
      exact ((proper x member).2.2.2.2 y member' other).1 same
    · rw [split, List.pairwise_append, List.pairwise_cons] at tail
      exact tail.2.1.1 y within marker

instance : Decidable (WellFormed b v root chain) := decidable_of_iff _ wellFormed_iff.symm

instance : Decidable (Valid b v) := inferInstanceAs (Decidable (WellFormed b v _ _))

end Decidable

/-! A small volume: six clusters of one sector, the root directory in the first, and two files, one of them in two
clusters. -/

def smallBpb : Bpb :=
  { sectorsPerCluster := 1, firstDataSector := 3, fatBeginSector := 1, fatSz32 := 1, rootCluster := 2, maxCluster := 7 }

def smallEntry (letter : UInt8) (start size : Nat) : List UInt8 :=
  letter :: List.replicate 10 0x20 ++ 0x20 :: List.replicate 14 0 ++ [UInt8.ofNat start, 0, UInt8.ofNat size, UInt8.ofNat (size / 256), 0, 0]

/-- Cluster 3 is linked to cluster 4; clusters 6 and 7 are free. -/
def smallDisk : Disk := fun a =>
  if a = 1 ∨ a = 2 then blit (fun _ => 0) 8 [0xF8, 0xFF, 0xFF, 0x0F, 4, 0, 0, 0, 0xF8, 0xFF, 0xFF, 0x0F, 0xF8, 0xFF, 0xFF, 0x0F]
  else if a = 3 then blit (fun _ => 0) 0 (smallEntry 0x41 3 600 ++ smallEntry 0x42 5 5)
  else fun _ => UInt8.ofNat a

theorem smallBpb_geometry : Geometry smallBpb := by
  constructor <;> decide

theorem smallDisk_valid : Valid smallBpb (vol smallBpb smallDisk) := by
  decide +kernel

end Pcern.Fat32

import Pcern.Contents

/-!
What `open_or_create` does to a well-formed volume: a new entry in the first free slot, or in a cluster that is cleared
and added to the root directory.
-/
namespace Pcern.Fat32

open Bytes Blocks Chains

/-- The first `n` sectors of a cluster are filled with zeros. -/
def Vol.clear (v : Vol) (c n : Nat) : Vol :=
  { v with data := Function.update v.data c fun s => if s < n then fun _ => 0 else v.data c s }

/-- A slot comes to hold an empty file of this name. -/
def Vol.newEntry (v : Vol) (slot : Slot) (name : List UInt8) : Vol :=
  v.setData slot.cluster slot.sector (newDirent (v.data slot.cluster slot.sector) slot.offset name)

section Clear
variable {v : Vol} {c : Nat}

theorem Vol.clear_zero : v.clear c 0 = v := by
  simp [Vol.clear]

theorem Vol.clear_succ (n : Nat) : (v.clear c n).setData c n (fun _ => 0) = v.clear c (n + 1) := by
  refine Vol.ext rfl (funext fun c' => funext fun s => ?_)
  rw [Vol.setData_data]
  by_cases cluster : c' = c
  · subst cluster
    simp only [Vol.clear, Function.update_self]
    by_cases here : s = n
    · simp [here]
    · rw [if_neg fun both => here both.2]
      exact if_congr (by omega) rfl rfl
  · rw [if_neg fun both => cluster both.1]
    simp [Vol.clear, cluster]

theorem Vol.clear_other {c' : Nat} (n : Nat) (other : c' ≠ c) : (v.clear c n).data c' = v.data c' := by
  simp [Vol.clear, other]

theorem Vol.clear_zeroed {n : Nat} {slot : Slot} (here : slot.cluster = c) (inside : slot.sector < n) : (v.clear c n).zeroed slot := by
  intro i _
  simp [Vol.clear, here, inside]

end Clear

section Rules
variable {b : Bpb} {m : Mode} {J : Vol → Prop} {v : Vol} (geo : Geometry b)
include geo

private theorem does_zeroFill {Q : Bool → Vol → Prop} {f : Nat} (has : b.Has f) (count s : Nat) (inside : s + count ≤ b.sectorsPerCluster)
    (passes : ∀ n ≤ s + count, J (v.clear f n)) (fills : Q true (v.clear f (s + count)))
    (misses : m.fails → ∀ n < s + count, ¬m.spared (sectorOf b f n) → Q false (v.clear f n)) :
    Does b m J Q (zeroFill (clusterToSector b f) count s) (v.clear f s) := by
  induction count generalizing s with
  | zero => exact .ret fills
  | succ count ih =>
    refine .bind ?_
    rw [geo.dataAddress has (by omega)]
    have next := passes (s + 1) (by omega)
    rw [← Vol.clear_succ] at next
    refine does_writeData geo has (by omega) next ?_ fun fails lost => .ret (misses fails s (by omega) lost)
    rw [Vol.clear_succ]
    refine ih (s + 1) (by omega) (fun n small => passes n (by omega)) ?_ fun fails n small => misses fails n (by omega)
    rw [Nat.add_assoc, Nat.add_comm 1 count]
    exact fills

private theorem does_zeroFill_all {Q : Bool → Vol → Prop} {f : Nat} (has : b.Has f) (passes : ∀ n ≤ b.sectorsPerCluster, J (v.clear f n))
    (fills : Q true (v.clear f b.sectorsPerCluster))
    (misses : m.fails → ∀ n < b.sectorsPerCluster, ¬m.spared (sectorOf b f n) → Q false (v.clear f n)) :
    Does b m J Q (zeroFill (clusterToSector b f) b.sectorsPerCluster 0) v := by
  have fill := does_zeroFill (v := v) (m := m) (J := J) (Q := Q) geo has b.sectorsPerCluster 0 (by omega)
  rw [Vol.clear_zero, Nat.zero_add] at fill
  exact fill passes fills misses

private theorem does_growRoot {Q : Option DirLoc → Vol → Prop} {z : Nat} (has : b.Has z)
    (passes : ∀ f, v.firstFree b = some f →
      J (v.setFat f eocMin) ∧ ∀ n ≤ b.sectorsPerCluster, J (((v.setFat f eocMin).setFat z f).clear f n))
    (grows : ∀ f, v.firstFree b = some f →
      Q (some (Slot.loc b ⟨f, 0, 0⟩)) (((v.setFat f eocMin).setFat z f).clear f b.sectorsPerCluster) ∧
        (m.fails → Q none (v.setFat f eocMin) ∧ ∀ n < b.sectorsPerCluster,
          ¬(m.spared (mirrorOf b z) ∧ m.spared (sectorOf b f n)) → Q none (((v.setFat f eocMin).setFat z f).clear f n)))
    (full : v.firstFree b = none → Q none v) (misses : m.fails → Q none v) :
    Does b m J Q (growRoot b z) v := by
  refine .bind (does_allocCluster geo (fun none => .ret (full none)) (fun f free => ?_) fun fails => .ret (misses fails))
  obtain ⟨done, loses⟩ := grows f free
  obtain ⟨marks, clears⟩ := passes f free
  have hasF := (Vol.firstFree_spec free).1
  have small : f < 2 ^ 28 := by
    have := hasF.2
    have := geo.numbers
    omega
  have links := clears 0 (Nat.zero_le _)
  rw [Vol.clear_zero] at links
  refine ⟨marks, .bind (does_writeFatEntry geo has.2 small links ?_ fun fails => ?_), fun fails => .ret (loses fails).1⟩
  · refine .bind (does_zeroFill_all geo hasF clears ?_ fun fails n inside lost => .ret ((loses fails).2 n inside fun both => lost both.2))
    refine .ret ?_
    rw [geo.clusterToSector hasF]
    exact done
  · have last := (loses fails).2 0 geo.sectors
    rw [Vol.clear_zero] at last
    exact ⟨.ret (loses fails).1, fun lost => .ret (last fun both => lost both.1)⟩

private theorem does_newFile {Q : Option OpenFile → Vol → Prop} {x : Slot} {name : List UInt8} (has : b.Has x.cluster)
    (inside : x.sector < b.sectorsPerCluster) (passes : J (v.newEntry x name))
    (done : Q (some { startCluster := 0, size := 0, dirent := x.loc b }) (v.newEntry x name)) (misses : m.fails → Q none v) :
    Does b m J Q (newFile (x.loc b) name) v := by
  refine .bind (.bind (does_readData has inside ?_ fun fails _ => .ret (.ret (misses fails))))
  exact does_writeData geo has inside passes (.ret done) fun fails _ => .ret (misses fails)

/-- A new entry is made in the first free slot, or in a new cluster behind the last one, or behind an earlier one if a
    failure hides the rest of the chain. -/
theorem does_createFile {Q : Option OpenFile → Vol → Prop} {root : List Nat} (chained : ChainFrom v.link b.rootCluster root)
    (has : ∀ x ∈ root, b.Has x) {fuel : Nat} (enough : root.length ≤ fuel) {name : List UInt8}
    (passes : (∀ x, freeSlot b v root = some x → J (v.newEntry x name)) ∧
      ∀ front z back, root = front ++ z :: back → freeSlot b v (front ++ [z]) = none → (back = [] ∨ m.fails) →
        ∀ f, v.firstFree b = some f → J (v.setFat f eocMin) ∧
          (∀ n ≤ b.sectorsPerCluster, J (((v.setFat f eocMin).setFat z f).clear f n)) ∧
          J ((((v.setFat f eocMin).setFat z f).clear f b.sectorsPerCluster).newEntry ⟨f, 0, 0⟩ name))
    (places : ∀ x, freeSlot b v root = some x →
      Q (some { startCluster := 0, size := 0, dirent := x.loc b }) (v.newEntry x name) ∧ (m.fails → Q none v))
    (grows : ∀ front z back, root = front ++ z :: back → freeSlot b v (front ++ [z]) = none → (back = [] ∨ m.fails) →
      (v.firstFree b = none → Q none v) ∧ ∀ f, v.firstFree b = some f →
        Q (some { startCluster := 0, size := 0, dirent := Slot.loc b ⟨f, 0, 0⟩ })
            ((((v.setFat f eocMin).setFat z f).clear f b.sectorsPerCluster).newEntry ⟨f, 0, 0⟩ name) ∧
          (m.fails → Q none (v.setFat f eocMin) ∧ Q none (((v.setFat f eocMin).setFat z f).clear f b.sectorsPerCluster) ∧
            ∀ n < b.sectorsPerCluster, ¬(m.spared (mirrorOf b z) ∧ m.spared (sectorOf b f n)) →
              Q none (((v.setFat f eocMin).setFat z f).clear f n)))
    (misses : m.fails → Q none v) : Does b m J Q (createFile b fuel name) v := by
  have growth : ∀ k : Option DirLoc → Io (Option OpenFile), k none = pure none → (∀ loc, k (some loc) = newFile loc name) →
      ∀ front z back, root = front ++ z :: back → freeSlot b v (front ++ [z]) = none → (back = [] ∨ m.fails) →
        Does b m J (fun r v' => Does b m J Q (k r) v') (growRoot b z) v := by
    intro k gives makes front z back split nothing ends
    obtain ⟨full, more⟩ := grows front z back split nothing ends
    have stays : ∀ {v'}, Q none v' → Does b m J Q (k none) v' := fun holds => gives ▸ .ret holds
    refine does_growRoot geo (has z (by simp [split])) (fun f free => ?_) (fun f free => ?_) (fun none => stays (full none)) fun fails =>
      stays (misses fails)
    · obtain ⟨marks, clears, _⟩ := passes.2 front z back split nothing ends f free
      exact ⟨marks, clears⟩
    · obtain ⟨done, loses⟩ := more f free
      refine ⟨?_, fun fails => ⟨stays (loses fails).1, fun n small lost => stays ((loses fails).2.2 n small lost)⟩⟩
      rw [makes]
      exact does_newFile geo (Vol.firstFree_spec free).1 geo.sectors (passes.2 front z back split nothing ends f free).2.2 done
        fun fails => (loses fails).2.1
  refine .bind (.bind (does_walkRoot geo chained has enough ?_ ?_ ?_ ?_))
  · intro loc decided
    rw [findSome_slotSought] at decided
    obtain ⟨x, free, rfl⟩ := Option.map_eq_some_iff.mp decided
    have member := mem_slots.mp (List.mem_of_find?_eq_some free)
    exact .ret (does_newFile geo (has _ member.1) member.2.1 (passes.1 x free) (places x free).1 (places x free).2)
  · intro nothing z last
    obtain ⟨front, split⟩ := List.getLast?_eq_some_iff.mp last
    rw [findSome_slotSought, Option.map_eq_none_iff] at nothing
    exact growth _ rfl (fun _ => rfl) front z [] split (split ▸ nothing) (.inl rfl)
  · exact fun fails => .ret (.ret (misses fails))
  · intro fails front z back split nothing
    rw [findSome_slotSought, Option.map_eq_none_iff] at nothing
    exact growth _ rfl (fun _ => rfl) front z back split nothing (.inr fails)

end Rules

/-! ## A new file -/

section Create
variable {b : Bpb} {v : Vol} {root : List Nat} {chain : Slot → List Nat} {x : Slot} {name : List UInt8}

theorem Vol.newEntry_entry : (v.newEntry x name).data x.cluster x.sector = newDirent (v.data x.cluster x.sector) x.offset name := by
  rw [Vol.newEntry, Vol.setData_data, if_pos ⟨rfl, rfl⟩]

theorem Vol.newEntry_other (fits : name.length = 11) {y : Slot} (other : y ≠ x) : Vol.SameEntry v (v.newEntry x name) y :=
  Vol.sameEntry_setData other fun _ apart => newDirent_other (by omega) apart

theorem Vol.newEntry_data {c : Nat} (other : c ≠ x.cluster) : (v.newEntry x name).data c = v.data c := by
  funext s
  rw [Vol.newEntry, Vol.setData_data, if_neg fun same => other same.1]

theorem Vol.newEntry_name (fits : name.length = 11) : (v.newEntry x name).name x = name := by
  rw [Vol.name, Vol.newEntry_entry, slice_newDirent fits]

theorem Vol.newEntry_start (fits : name.length = 11) : (v.newEntry x name).start x = 0 := by
  rw [Vol.start, Vol.newEntry_entry, startAt_newDirent fits]

theorem Vol.newEntry_size (fits : name.length = 11) : (v.newEntry x name).size x = 0 := by
  rw [Vol.size, Vol.newEntry_entry, sizeAt_newDirent fits]

theorem Vol.newEntry_regular : (v.newEntry x name).regular x := by
  rw [Vol.regular, Vol.newEntry_entry, newDirent, write8, if_pos rfl]
  decide

/-- The first byte of a name makes it neither an end marker nor a deleted entry. -/
def Live (name : List UInt8) : Prop := ∃ first, name[0]? = some first ∧ first ≠ 0x00 ∧ first ≠ 0xE5

theorem Vol.newEntry_kind (fits : name.length = 11) (live : Live name) : (v.newEntry x name).kind x = .file := by
  obtain ⟨first, begins, proper⟩ := live
  rw [Vol.kind, Vol.newEntry_entry, kindAt_newDirent fits begins proper]

private theorem reachable_freeSlot (free : freeSlot b v root = some x) : Reachable b v root x := by
  obtain ⟨_, front, back, split, before⟩ := List.find?_eq_some_iff_append.mp free
  refine ⟨front, back, split, fun y member marker => ?_⟩
  have := before y member
  simp [marker] at this

private theorem freeSlot_kind (free : freeSlot b v root = some x) : v.kind x = .marker ∨ v.kind x = .deleted := by
  simpa using List.find?_some free

theorem freeSlot_not_file (free : freeSlot b v root = some x) : x ∉ files b v root := by
  intro member
  have file := files_kind member
  rcases freeSlot_kind free with marker | deleted
  · cases file.symm.trans marker
  · cases file.symm.trans deleted

theorem WellFormed.create (wf : WellFormed b v root chain) (free : freeSlot b v root = some x) (fits : name.length = 11)
    (live : Live name) (absent : ∀ y ∈ files b v root, v.name y ≠ name) :
    WellFormed b (v.newEntry x name) root (Function.update chain x []) ∧
      ∀ y, y ∈ files b (v.newEntry x name) root ↔ y = x ∨ y ∈ files b v root := by
  have reachable := reachable_freeSlot free
  have same : ∀ y ∈ slots b root, y ≠ x → Vol.SameEntry v (v.newEntry x name) y := fun y _ other => Vol.newEntry_other fits other
  have fat : (v.newEntry x name).fat = v.fat := rfl
  refine ⟨wf.replace reachable (fun c _ => congrFun fat c) same (Vol.newEntry_kind fits live) Vol.newEntry_regular ?_ ?_ ?_ nofun,
    fun y => mem_files_replaced wf reachable same (Vol.newEntry_kind fits live)⟩
  · intro y member _
    rw [Vol.newEntry_name fits]
    exact absent y member
  · exact .inl ⟨Vol.newEntry_start fits, rfl⟩
  · rw [Vol.newEntry_size fits]
    exact Nat.zero_le _

theorem WellFormed.create_stored (wf : WellFormed b v root chain) (free : freeSlot b v root = some x) (fits : name.length = 11)
    (live : Live name) (absent : ∀ y ∈ files b v root, v.name y ≠ name) :
    stored b (v.newEntry x name) = Function.update (stored b v) name (some []) := by
  obtain ⟨created, listed⟩ := wf.create free fits live absent
  have inRoot := (mem_slots.mp (List.mem_of_find?_eq_some free)).1
  have empty : content b (v.newEntry x name) x = [] := by
    rw [content, Vol.newEntry_size fits]
    rfl
  rw [← empty]
  refine byName_replaced wf created listed (fun y member other => ⟨(Vol.newEntry_other fits other).name, ?_⟩) (Vol.newEntry_name fits)
    fun member => absurd member (freeSlot_not_file free)
  rw [content, content, (Vol.newEntry_other fits other).size, wf.clustersOf_eq member, created.clustersOf_eq ((listed y).mpr (.inr member)),
    Function.update_of_ne other]
  refine slice_congr fun i inside => byteAt_congr (fun c within => Vol.newEntry_data ?_) ?_
  · rintro rfl
    exact wf.rootApart y member _ within inRoot
  · have := wf.room y member
    omega

/-! ## A new cluster for the directory -/

theorem WellFormed.grow (wf : WellFormed b v root chain) (geo : Geometry b) {z f : Nat} (last : root.getLast? = some z)
    (full : freeSlot b v root = none) (has : b.Has f) (free : v.fat f = 0) {v' : Vol}
    (after : v' = ((v.setFat f eocMin).setFat z f).clear f b.sectorsPerCluster) :
    WellFormed b v' (root ++ [f]) chain ∧ files b v' (root ++ [f]) = files b v root ∧ (∀ y ∈ slots b root, Vol.SameEntry v v' y) ∧
      stored b v' = stored b v ∧ freeSlot b v' (root ++ [f]) = some ⟨f, 0, 0⟩ := by
  obtain ⟨front, split⟩ := List.getLast?_eq_some_iff.mp last
  obtain ⟨marked, spare⟩ := wf.mark has free
  have unused := spare.unused
  have away : ∀ c, c ≠ f → v'.data c = v.data c := fun c other => by rw [after, Vol.clear_other _ other]; rfl
  have same : ∀ y ∈ slots b root, Vol.SameEntry v v' y := by
    intro y member i _
    rw [away]
    rintro rfl
    exact unused (.inl (mem_slots.mp member).1)
  have zero : ∀ y ∈ clusterSlots b f, v'.zeroed y := by
    intro y member
    have place := mem_clusterSlots.mp member
    rw [after]
    exact Vol.clear_zeroed place.1 place.2.1
  have occupied : ∀ y ∈ slots b root, ¬(v.kind y = .marker ∨ v.kind y = .deleted) := by
    intro y member
    simpa using List.find?_eq_none.mp full y member
  have noMarker : ∀ y ∈ slots b root, v.kind y ≠ .marker := fun y member marker => occupied y member (.inl marker)
  have listed : files b v' (root ++ [f]) = files b v root := files_grown noMarker same zero
  have grown : WellFormed b v' (root ++ [f]) chain :=
    marked.growRoot geo.numbers split spare noMarker (by rw [after]; rfl) same zero
  refine ⟨grown, listed, same, byName_congr wf grown listed fun y member => ⟨(same y (files_subset member)).name, ?_⟩, ?_⟩
  · rw [content, content, (same y (files_subset member)).size, wf.clustersOf_eq member, grown.clustersOf_eq (listed ▸ member)]
    refine slice_congr fun i inside => byteAt_congr (fun c within => away c ?_) ?_
    · rintro rfl
      exact unused (.inr ⟨y, member, within⟩)
    · have := wf.room y member
      omega
  · have first : (⟨f, 0, 0⟩ : Slot) ∈ clusterSlots b f := mem_clusterSlots.mpr ⟨rfl, geo.sectors, Nat.zero_lt_succ 15⟩
    obtain ⟨rest, slotsOf⟩ := clusterSlots_eq_cons geo.sectors f
    rw [freeSlot, slots, List.flatMap_append, ← slots, List.find?_append]
    have none : (slots b root).find? (fun slot => v'.kind slot = .marker ∨ v'.kind slot = .deleted) = none := by
      refine List.find?_eq_none.mpr fun y member => ?_
      rw [(same y member).kind]
      simpa using occupied y member
    rw [none, List.flatMap_singleton, slotsOf, List.find?_cons_of_pos (by simp [Vol.zeroed_marker (zero _ first)])]
    rfl

end Create

/-! ## Opening -/

def Vol.Roomy (b : Bpb) (v : Vol) : Prop := (freeSlot b v (rootOf b v)).isSome ∨ (v.firstFree b).isSome

/-- A volume with a free slot for a new file: the volume `v` itself, or `v` with one more cluster for the directory. -/
structure Ready (b : Bpb) (v v' : Vol) (root : List Nat) (chain : Slot → List Nat) (x : Slot) : Prop where
  wf : WellFormed b v' root chain
  listed : files b v' root = files b v (rootOf b v)
  same : ∀ y ∈ files b v (rootOf b v), Vol.SameEntry v v' y
  holds : stored b v' = stored b v
  free : freeSlot b v' root = some x
  spent : v'.free b + (if (freeSlot b v (rootOf b v)).isSome then 0 else 1) = v.free b

/-- What opening a file comes to when nothing fails: the file is there, or it is created, or neither. -/
inductive Opens (b : Bpb) (v : Vol) (name : List UInt8) (create : Bool) : Option OpenFile → Vol → Prop where
  | finds {slot : Slot} (member : slot ∈ files b v (rootOf b v)) (named : v.name slot = name) :
      Opens b v name create (some (opened b v slot)) v
  | creates {v' : Vol} {slot : Slot} (absent : stored b v name = none) (wanted : create = true) (roomy : v.Roomy b) (valid : Valid b v')
      (holds : stored b v' = Function.update (stored b v) name (some [])) (member : slot ∈ files b v' (rootOf b v'))
      (named : v'.name slot = name) (empty : v'.size slot = 0) : Opens b v name create (some (opened b v' slot)) v'
  | refuses (absent : stored b v name = none) (unwanted : ¬(create = true ∧ v.Roomy b)) : Opens b v name create none v

section Open
variable {b : Bpb} {v : Vol} {name : List UInt8} {x : Slot} {root : List Nat} {chain : Slot → List Nat}

theorem stored_eq_none (absent : stored b v name = none) (wf : WellFormed b v root chain) : ∀ y ∈ files b v root, v.name y ≠ name := by
  rintro y member rfl
  rw [wf.stored_name member] at absent
  cases absent

theorem WellFormed.opens_new (wf : WellFormed b v root chain) (free : freeSlot b v root = some x) (fits : name.length = 11)
    (live : Live name) (absent : stored b v name = none) :
    Valid b (v.newEntry x name) ∧ stored b (v.newEntry x name) = Function.update (stored b v) name (some []) ∧
      x ∈ files b (v.newEntry x name) (rootOf b (v.newEntry x name)) ∧ (v.newEntry x name).name x = name ∧
      (v.newEntry x name).size x = 0 ∧ opened b (v.newEntry x name) x = { startCluster := 0, size := 0, dirent := x.loc b } := by
  obtain ⟨created, listed⟩ := wf.create free fits live (stored_eq_none absent wf)
  refine ⟨created.valid, wf.create_stored free fits live (stored_eq_none absent wf), ?_, Vol.newEntry_name fits, Vol.newEntry_size fits, ?_⟩
  · rw [created.rootOf_eq]
    exact (listed x).mpr (.inl rfl)
  · rw [opened, Vol.newEntry_start fits, Vol.newEntry_size fits]

theorem does_openOrCreate_new {Q : Option OpenFile → Vol → Prop} (geo : Geometry b) (valid : Valid b v) {fuel : Nat}
    (enough : b.maxCluster ≤ fuel) {create : Bool}
    (finds : ∀ slot ∈ files b v (rootOf b v), v.name slot = name → Q (some (opened b v slot)) v)
    (refuses : stored b v name = none → ¬(create = true ∧ v.Roomy b) → Q none v)
    (creates : stored b v name = none → create = true → v.Roomy b → ∀ v' root chain x, Ready b v v' root chain x →
      Q (some { startCluster := 0, size := 0, dirent := x.loc b }) (v'.newEntry x name)) :
    Does b .calm (fun _ => True) Q (openOrCreate b fuel name create) v := by
  have wf : WellFormed b v (rootOf b v) (clustersOf b v) := valid
  have short := Nat.le_trans wf.length_root enough
  refine .bind (does_findInRoot geo wf.rootChain wf.has_root short ?_ False.elim)
  cases found : (files b v (rootOf b v)).find? fun slot => v.name slot = name with
  | some slot => exact .ret (finds slot (List.mem_of_find?_eq_some found) (by simpa using List.find?_some found))
  | none =>
    have absent : stored b v name = none := by rw [stored, found]; rfl
    cases create with
    | false => exact .ret (refuses absent (by simp))
    | true =>
      refine does_createFile geo wf.rootChain wf.has_root short
        ⟨fun _ _ => trivial, fun _ _ _ _ _ _ _ _ => ⟨trivial, fun _ _ => trivial, trivial⟩⟩ (fun x free => ⟨?_, False.elim⟩) ?_ False.elim
      · exact creates absent rfl (.inl (by simp [free])) v _ _ x ⟨wf, rfl, fun _ _ _ _ => rfl, rfl, free, by simp [free]⟩
      · intro front z back split nothing ends
        obtain rfl := ends.resolve_right id
        have full : freeSlot b v (rootOf b v) = none := by rw [split]; exact nothing
        refine ⟨fun none => refuses absent (by simp [Vol.Roomy, full, none]), fun f free => ⟨?_, False.elim⟩⟩
        obtain ⟨hasF, freeF⟩ := Vol.firstFree_spec free
        have last : (rootOf b v).getLast? = some z := by simp [split]
        obtain ⟨grown, listed, same, stays, slot⟩ := wf.grow geo last full hasF freeF rfl
        have taken := (wf.sound z (.inl (by simp [split]))).taken
        refine creates absent rfl (.inr (by simp [free])) _ _ _ _ ⟨grown, listed, fun y member => same y (files_subset member), stays, slot, ?_⟩
        rw [full]
        exact Vol.free_linked hasF freeF taken

theorem does_openOrCreate (geo : Geometry b) (valid : Valid b v) {fuel : Nat} (enough : b.maxCluster ≤ fuel) (fits : name.length = 11)
    {create : Bool} (live : create = true → Live name) :
    Does b .calm (fun _ => True) (Opens b v name create) (openOrCreate b fuel name create) v := by
  refine does_openOrCreate_new geo valid enough (fun slot member named => .finds member named) .refuses ?_
  intro absent wanted roomy v' root chain x ready
  obtain ⟨valid', holds, member, named, empty, same⟩ := ready.wf.opens_new ready.free fits (live wanted) (by rw [ready.holds, absent])
  rw [ready.holds] at holds
  rw [← same]
  exact .creates absent wanted roomy valid' holds member named empty

end Open

end Pcern.Fat32

import Pcern.Store

/-!
The room on a volume. Writing to a file moves clusters from the free ones to the file and loses none, so that the number
of free clusters and the number of clusters of the file together stay the same.
-/
namespace Pcern.Fat32

open Bytes Blocks Chains

section Budget
variable {b : Bpb} {v v' : Vol}

private theorem clustersFrom_congr (same : v'.fat = v.fat) (start : Nat) : clustersFrom b v' start = clustersFrom b v start := by
  have walk : ∀ fuel c, v'.walk fuel c = v.walk fuel c := by
    intro fuel
    induction fuel with
    | zero => exact fun _ => rfl
    | succ fuel ih =>
      intro c
      rw [Vol.walk, Vol.walk, Vol.link, Vol.link, same]
      simp only [ih]
  rw [clustersFrom, clustersFrom, walk]

/-- The clusters that a file has or can still get. -/
def budget (b : Bpb) (v : Vol) (file : OpenFile) : Nat := (clustersFrom b v file.startCluster).length + v.free b

private theorem budget_congr {file file' : OpenFile} (fat : v'.fat = v.fat)
    (start : file'.startCluster = file.startCluster) : budget b v' file' = budget b v file := by
  have free : v'.free b = v.free b := Vol.free_congr fun c => by rw [fat]
  rw [budget, start, clustersFrom_congr fat, free, budget]

variable {m : Mode} (geo : Geometry b) {slot : Slot} {file : OpenFile} {offset len : Nat} {client : Memory}
include geo

private theorem does_writeInto_budget {c : Nat} (has : b.Has c) (entry : b.Has slot.cluster) (inside : slot.sector < b.sectorsPerCluster)
    (place : file.dirent = slot.loc b) :
    Does b m (fun _ => True) (fun r v' => budget b v' r.2 = budget b v file) (writeInto b file offset len client c) v := by
  have sector := sector_lt geo.sectors offset
  unfold writeInto
  dsimp only
  rw [geo.clusterSize, geo.dataAddress has sector]
  refine .bind (does_readData has sector ?_ fun _ _ => .ret rfl)
  refine .bind (does_writeData geo has sector trivial ?_ fun _ _ => .ret rfl)
  dsimp only
  split
  · rw [place]
    exact .bind (does_writeDirentUpdate geo entry inside trivial (.ret (budget_congr rfl rfl)) fun _ _ => .ret (budget_congr rfl rfl))
  · rw [place]
    exact .bind (does_writeDirentUpdate geo entry inside trivial (.ret (budget_congr rfl rfl)) fun _ _ => .ret (budget_congr rfl rfl))

/-- A write loses no cluster. -/
private theorem does_writeFile_budget (valid : Valid b v) (member : slot ∈ files b v (rootOf b v)) :
    Does b .calm (fun _ => True) (fun r v' => budget b v' r.2 = budget b v (opened b v slot))
      (writeFile b (opened b v slot) offset len client) v := by
  have wf : WellFormed b v (rootOf b v) (clustersOf b v) := valid
  have place := mem_slots.mp (files_subset member)
  have entry := wf.has_root _ place.1
  have room := wf.room slot member
  have numbers := geo.numbers
  unfold writeFile
  split
  · exact .ret rfl
  · rename_i before
    have before : offset ≤ v.size slot := Nat.le_of_not_lt before
    split
    · rename_i zero
      have empty : clustersOf b v slot = [] := wf.start_eq_zero member zero
      rw [empty, List.length_nil, Nat.zero_mul] at room
      have first : offset = 0 := by omega
      refine .bind (does_allocCluster geo (fun _ => .ret rfl) (fun f free => ⟨trivial, ?_, False.elim⟩) False.elim)
      obtain ⟨has, freeF⟩ := Vol.firstFree_spec free
      have taken : budget b (v.setFat f eocMin) { opened b v slot with startCluster := f } = budget b v (opened b v slot) := by
        have one := Vol.free_setFat eocMin has freeF (by decide)
        have ends : ChainFrom (v.setFat f eocMin).link f [f] := .last (v.setFat_link_eoc f)
        have low := has.1
        have high := has.2
        change (clustersFrom b (v.setFat f eocMin) f).length + _ = (clustersOf b v slot).length + _
        rw [empty, clustersFrom, if_neg (by omega), Vol.walk_eq ends (show 1 ≤ _ by omega), List.length_singleton, List.length_nil]
        omega
      unfold writeFrom
      refine .bind ?_
      rw [show offset / clusterSizeBytes b = 0 by rw [first, Nat.zero_div]]
      refine .ret ?_
      rw [← taken]
      exact does_writeInto_budget geo has entry place.2.1 rfl
    · rename_i start
      have chained := wf.chained member start
      have last : offset / (b.sectorsPerCluster * 512) ≤ (clustersOf b v slot).length := by
        refine Nat.div_le_of_le_mul ?_
        rw [Nat.mul_comm]
        omega
      unfold writeFrom
      rw [geo.clusterSize]
      refine .bind (does_followOrExtend geo chained (wf.has_file member) last False.elim (fun c here => ?_) (fun _ _ => .ret rfl)
        (fun all z end' f free => ⟨trivial, trivial, ?_, False.elim⟩) False.elim)
      · exact does_writeInto_budget geo (wf.has_file member c (List.mem_of_getElem? here)) entry place.2.1 rfl
      · obtain ⟨has, freeF⟩ := Vol.firstFree_spec free
        have grown := wf.torn_grow numbers member end' has freeF
        have taken : budget b ((v.setFat f eocMin).setFat z f) (opened b v slot) = budget b v (opened b v slot) := by
          have clusters : clustersFrom b ((v.setFat f eocMin).setFat z f) (v.start slot) = clustersOf b v slot ++ [f] :=
            (grown.wf.clustersOf_eq (grown.listed ▸ member)).trans (Function.update_self ..)
          have taken := (wf.sound z (.inr ⟨slot, member, List.mem_of_getLast? end'⟩)).taken
          have one := Vol.free_linked has freeF taken
          change (clustersFrom b _ (v.start slot)).length + _ = (clustersOf b v slot).length + _
          rw [clusters, List.length_append, List.length_singleton]
          omega
        rw [← taken]
        exact does_writeInto_budget geo has entry place.2.1 rfl

end Budget

/-! ## Room for a file -/

def clustersNeeded (b : Bpb) (n : Nat) : Nat := (n + (b.sectorsPerCluster * 512 - 1)) / (b.sectorsPerCluster * 512)

/-- There are clusters enough for a file of `n` bytes with this name: those that it has, and free ones. A new file may need
    one for its directory entry. -/
def Vol.HasRoomFor (b : Bpb) (v : Vol) (name : List UInt8) (n : Nat) : Prop :=
  match (files b v (rootOf b v)).find? fun slot => v.name slot = name with
  | some slot => clustersNeeded b n ≤ budget b v (opened b v slot)
  | none => clustersNeeded b n + (if (freeSlot b v (rootOf b v)).isSome then 0 else 1) ≤ v.free b

section Room
variable {b : Bpb} {v : Vol} {fuel n : Nat} {s : Server} {store : Store}

theorem Geometry.needs_more (geo : Geometry b) {offset : Nat} (inside : offset < n) :
    offset / (b.sectorsPerCluster * 512) < clustersNeeded b n := by
  have sectors := geo.sectors
  rw [clustersNeeded, Nat.lt_iff_add_one_le, Nat.le_div_iff_mul_le (by omega), Nat.succ_mul]
  have := Nat.div_mul_le_self offset (b.sectorsPerCluster * 512)
  omega

theorem Geometry.hasRoom (geo : Geometry b) {file : OpenFile} (needed : clustersNeeded b n ≤ budget b v file) {offset len : UInt32}
    (inside : offset.toNat < n) : hasRoom b v (some file) (.write offset len) = true := by
  have more := geo.needs_more inside
  change (!decide (_ = _) || (v.firstFree b).isSome) = true
  by_cases last : offset.toNat / (b.sectorsPerCluster * 512) = (clustersFrom b v file.startCluster).length
  · rw [budget] at needed
    have some : 0 < v.free b := by omega
    simp [Vol.free_pos.mp some]
  · simp [last]

variable (geo : Geometry b) (rep : Represents b v s store)
include geo rep

theorem does_write_budget (sender slot offset len : UInt32) :
    Does b .calm (fun _ => True)
      (fun r v' => ∀ file, s.openFile = some file → ∃ file', r.1.openFile = some file' ∧ budget b v' file' = budget b v file)
      (handle b fuel s ⟨sender, Libpcern.fsOpWrite, offset, len, slot⟩ none) v := by
  rw [handle_write sender slot offset len rep.connected]
  rcases current_cases rep.current with ⟨noFile, noName⟩ | ⟨slot, member, file, name⟩
  · rw [noFile]
    exact .ret nofun
  · rw [file]
    refine .bind ((does_writeFile_budget geo rep.valid member).mono ?_)
    rintro ⟨written, file'⟩ v' same
    refine .ret ?_
    rintro _ ⟨⟩
    exact ⟨file', rfl, same⟩

theorem does_open_budget (enough : b.maxCluster ≤ fuel) (sender slot w1 w2 w3 create : UInt32)
    (room : v.HasRoomFor b (fileName w1 w2 w3) n) :
    Does b .calm (fun _ => True) (fun r v' => ∀ file, r.1.openFile = some file → clustersNeeded b n ≤ budget b v' file)
      (serveAll b fuel s [⟨sender, Libpcern.fsOpOpenName1, w1, w2, slot⟩, ⟨sender, Libpcern.fsOpOpenName2, w3, create, slot⟩]) v := by
  have wf : WellFormed b v (rootOf b v) (clustersOf b v) := rep.valid
  have opens : Does b .calm (fun _ => True) (fun r v' => ∀ file, r = some file → clustersNeeded b n ≤ budget b v' file)
      (openOrCreate b fuel (fileName w1 w2 w3) (create ≠ 0)) v := by
    refine does_openOrCreate_new geo rep.valid enough ?_ (by rintro _ _ _ ⟨⟩) ?_
    · rintro slot member named _ ⟨⟩
      rw [Vol.HasRoomFor, ← named, wf.find_name member] at room
      exact room
    · rintro absent _ _ v' root chain x ready _ ⟨⟩
      have missing : ((files b v (rootOf b v)).find? fun slot => v.name slot = fileName w1 w2 w3) = none :=
        Option.map_eq_none_iff.mp absent
      rw [Vol.HasRoomFor, missing] at room
      have spent := ready.spent
      have free : (v'.newEntry x (fileName w1 w2 w3)).free b = v'.free b := rfl
      change clustersNeeded b n ≤ (clustersFrom b _ 0).length + _
      rw [clustersFrom, if_pos rfl, List.length_nil, free]
      dsimp only at room
      omega
  rw [serveAll, handle_openName1]
  refine .bind (.ret (.bind (does_serveAll_one ?_)))
  rw [handle_openName2 _ _ _ _ (by exact rep.connected.2)]
  refine .bind (.mono opens ?_)
  intro r v' enough
  cases r with
  | some file => exact .ret (.ret enough)
  | none => exact .ret (.ret (by rintro _ ⟨⟩))

end Room

end Pcern.Fat32

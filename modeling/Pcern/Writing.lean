import Pcern.Contents

/-!
What `read_file`, `write_file` and `truncate_file` do to a well-formed volume, with or without failures of the storage:
the rules say what a request comes to, and that every volume on the way is torn in one file at most.
-/
namespace Pcern.Fat32

open Bytes Blocks Chains

section Rules
variable {b : Bpb} {m : Mode} {J : Vol → Prop} {v : Vol} (geo : Geometry b)
include geo

theorem does_writeDirentUpdate {Q : Bool → Vol → Prop} {slot : Slot} (has : b.Has slot.cluster)
    (inside : slot.sector < b.sectorsPerCluster) {start size : Nat} (passes : J (v.setEntry slot start size))
    (writes : Q true (v.setEntry slot start size)) (misses : m.fails → ¬m.spared (slot.loc b).sector → Q false v) :
    Does b m J Q (writeDirentUpdate (slot.loc b) start size) v :=
  .bind (does_readData has inside (does_writeData geo has inside passes writes misses) fun fails lost => .ret (misses fails lost))

variable {c count : Nat} {Q : Option Nat → Vol → Prop}

private theorem does_follow {xs : List Nat} (chained : ChainFrom v.link c xs)
    (has : ∀ x ∈ xs, b.Has x) (inside : count < xs.length)
    (reaches : ∀ x, xs[count]? = some x → Q (some x) v) (misses : m.fails → Q none v) :
    Does b m J Q (follow b count c) v := by
  induction chained generalizing count with
  | last ends =>
    cases count with
    | zero => exact .ret (reaches _ rfl)
    | succ count => simp at inside
  | link goes rest ih =>
    cases count with
    | zero => exact .ret (reaches _ rfl)
    | succ count =>
      refine .bind (does_nextCluster geo (has _ List.mem_cons_self).2 ?_ fun fails => .ret (misses fails))
      rw [goes]
      exact ih (fun x member => has x (List.mem_cons_of_mem _ member)) (by simpa using inside) reaches

/-- A chain that may be followed to its end is followed, and grows by one cluster there. After a failed read the walk
    would go on from a new cluster, unless there is none, or the chain ends there anyway. -/
theorem does_followOrExtend {xs : List Nat} (chained : ChainFrom v.link c xs)
    (has : ∀ x ∈ xs, b.Has x) (within : count ≤ xs.length)
    (safe : m.fails → v.firstFree b = none ∨ xs.length ≤ 1 ∨ count = 0)
    (reaches : ∀ x, xs[count]? = some x → Q (some x) v)
    (full : count = xs.length → v.firstFree b = none → Q none v)
    (grows : count = xs.length → ∀ z, xs.getLast? = some z → ∀ f, v.firstFree b = some f →
      J (v.setFat f eocMin) ∧ J ((v.setFat f eocMin).setFat z f) ∧ Q (some f) ((v.setFat f eocMin).setFat z f) ∧
        (m.fails → Q none (v.setFat f eocMin) ∧ Q none ((v.setFat f eocMin).setFat z f)))
    (misses : m.fails → Q none v) : Does b m J Q (followOrExtend b count c) v := by
  induction chained generalizing count with
  | @last c ends =>
    match count with
    | 0 => exact .ret (reaches _ rfl)
    | 1 =>
      refine .bind (does_nextCluster_last geo (has c (by simp)).2 ends ?_)
      refine .bind (does_allocCluster geo (fun none => .ret (full rfl none)) (fun f free => ?_) fun fails => .ret (misses fails))
      obtain ⟨marks, links, done, loses⟩ := grows rfl c rfl f free
      have range := (Vol.firstFree_spec free).1
      have numbers := geo.numbers
      refine ⟨marks, .bind (does_writeFatEntry geo (has c (by simp)).2 ?_ links (.ret done) fun fails => ?_), fun fails =>
        .ret (loses fails).1⟩
      · have := range.2
        omega
      · exact ⟨.ret (loses fails).1, fun _ => .ret (loses fails).2⟩
    | count + 2 => simp at within
  | @link c c' xs goes rest ih =>
    cases count with
    | zero => exact .ret (reaches _ rfl)
    | succ count =>
      have many : ¬(c :: xs).length ≤ 1 := by
        have := List.length_pos_of_ne_nil rest.ne_nil
        simp only [List.length_cons]
        omega
      have full' : m.fails → v.firstFree b = none := fun fails =>
        (safe fails).resolve_right fun other => other.elim many (Nat.succ_ne_zero _)
      refine .bind (does_nextCluster geo (has c (by simp)).2 ?_ fun fails => ?_)
      · rw [goes]
        refine ih (fun x member => has x (List.mem_cons_of_mem _ member)) (by simpa using within) (fun fails => .inl (full' fails))
          reaches (fun all => full (by simp [all])) fun all z last => grows (by simp [all]) z ?_
        rw [List.getLast?_cons, last]
        rfl
      · refine .bind (does_allocCluster geo (fun _ => .ret (misses fails)) (fun f free => ?_) fun _ => .ret (misses fails))
        rw [full' fails] at free
        cases free

end Rules

/-! ## Reading -/

private theorem byteAt_sector {b : Bpb} (v : Vol) (sectors : 0 < b.sectorsPerCluster) (chain : List Nat) {offset i : Nat}
    (inside : offset % (b.sectorsPerCluster * 512) % 512 + i < 512) :
    byteAt b v chain (offset + i) = v.data (chain.getD (offset / (b.sectorsPerCluster * 512)) 0)
      (offset % (b.sectorsPerCluster * 512) / 512) (offset % (b.sectorsPerCluster * 512) % 512 + i) := by
  have last := sector_lt sectors offset
  have room : offset % (b.sectorsPerCluster * 512) / 512 * 512 + 512 ≤ b.sectorsPerCluster * 512 := by omega
  rw [byteAt]
  obtain ⟨cs, bytesOf⟩ : ∃ cs, b.sectorsPerCluster * 512 = cs := ⟨_, rfl⟩
  rw [bytesOf] at inside room ⊢
  have whole := Nat.div_add_mod offset cs
  have cluster : (offset + i) / cs = offset / cs := by
    refine Nat.div_eq_of_lt_le ?_ ?_
    · rw [Nat.mul_comm]
      omega
    · rw [Nat.succ_mul, Nat.mul_comm]
      omega
  have whole' := Nat.div_add_mod (offset + i) cs
  rw [cluster] at whole'
  have rest : (offset + i) % cs = offset % cs + i := by omega
  have sector : (offset % cs + i) / 512 = offset % cs / 512 := by omega
  have byte : (offset % cs + i) % 512 = offset % cs % 512 + i := by omega
  rw [cluster, rest, sector, byte]

section Files
variable {b : Bpb} {m : Mode} {v : Vol} (geo : Geometry b) {root : List Nat} {chain : Slot → List Nat} {slot : Slot}

theorem WellFormed.start_eq_zero (wf : WellFormed b v root chain) (member : slot ∈ files b v root) (zero : v.start slot = 0) :
    chain slot = [] := by
  rcases wf.fileChain slot member with ⟨_, empty⟩ | chained
  · exact empty
  · have has := (wf.sound _ (.inr ⟨slot, member, List.mem_of_getElem? chained.head⟩)).has
    have := has.1
    omega

theorem WellFormed.chained (wf : WellFormed b v root chain) (member : slot ∈ files b v root) (some : v.start slot ≠ 0) :
    ChainFrom v.link (v.start slot) (chain slot) :=
  (wf.fileChain slot member).resolve_left fun none => some none.1

theorem WellFormed.has_file (wf : WellFormed b v root chain) (member : slot ∈ files b v root) : ∀ c ∈ chain slot, b.Has c :=
  fun c within => (wf.sound c (.inr ⟨slot, member, within⟩)).has

include geo

/-- A read yields the bytes of the file from the offset on, to the end of the sector or of the file at most. -/
theorem does_readFile {J : Vol → Prop} (wf : WellFormed b v root chain) (member : slot ∈ files b v root) {offset len n : Nat}
    {client : Memory} (count : n = min (min len (512 - offset % 512)) (v.size slot - offset)) :
    Does b m J (fun r v' => v' = v ∧ (r = (n, blit client 0 (slice (byteAt b v (chain slot)) offset n)) ∨ m.fails ∧ r = (0, client)))
      (readFile b (opened b v slot) offset len client) v := by
  unfold readFile
  split
  · rename_i beyond
    have none : n = 0 := by
      change offset ≥ v.size slot at beyond
      omega
    refine .ret ⟨rfl, .inl ?_⟩
    rw [none]
    exact congrArg (Prod.mk 0) (blit_nil client 0).symm
  · rename_i before
    have before : offset < v.size slot := Nat.lt_of_not_le before
    have inside := index_lt (Nat.lt_of_lt_of_le before (wf.room slot member))
    have some : v.start slot ≠ 0 := by
      intro zero
      rw [wf.start_eq_zero member zero] at inside
      cases inside
    have sector := sector_lt geo.sectors offset
    dsimp only
    rw [geo.clusterSize]
    refine .bind (does_follow geo (wf.chained member some) (wf.has_file member) inside (fun c here => ?_) fun fails =>
      .ret ⟨rfl, .inr ⟨fails, rfl⟩⟩)
    have has := wf.has_file member c (List.mem_of_getElem? here)
    dsimp only
    rw [geo.dataAddress has sector]
    refine .bind (does_readData has sector (.ret ⟨rfl, .inl ?_⟩) fun fails _ => .ret ⟨rfl, .inr ⟨fails, rfl⟩⟩)
    have cluster : (chain slot).getD (offset / (b.sectorsPerCluster * 512)) 0 = c := by
      rw [List.getD_eq_getElem?_getD, here]
      rfl
    have bytes : ∀ k, k ≤ 512 - offset % (b.sectorsPerCluster * 512) % 512 →
        slice (byteAt b v (chain slot)) offset k =
          slice (v.data c (offset % (b.sectorsPerCluster * 512) / 512)) (offset % (b.sectorsPerCluster * 512) % 512) k := by
      intro k few
      refine slice_congr fun i small => ?_
      rw [byteAt_sector v geo.sectors (chain slot) (by omega), cluster]
    have same : n = min (min len (sectorSize - offset % (b.sectorsPerCluster * 512) % sectorSize)) ((opened b v slot).size - offset) := by
      rw [count, Nat.mod_mul_left_mod]
      rfl
    rw [bytes n (by rw [count, Nat.mod_mul_left_mod]; omega), ← same]

end Files

/-! ## Writing -/

/-- The bytes that a write takes from the client's buffer: no more than fit into the sector. -/
def payload (offset len : Nat) (client : Memory) : List UInt8 := slice client 0 (min len (512 - offset % 512))

/-- The volumes that a write of `data` at `offset` can leave: all of the data is there or none, at the old size, or all
    of it at the new size. -/
def WriteLeaves (b : Bpb) (v : Vol) (root : List Nat) (chain : Slot → List Nat) (slot : Slot) (offset : Nat) (data : List UInt8)
    (v' : Vol) : Prop :=
  ∃ chain' size bytes, Torn b v root chain slot size bytes v' chain' ∧
    (size = v.size slot ∧ (bytes = byteAt b v (chain slot) ∨ bytes = blit (byteAt b v (chain slot)) offset data) ∨
      size = max (v.size slot) ((offset + data.length) % 2 ^ 32) ∧ bytes = blit (byteAt b v (chain slot)) offset data)

/-- The volumes after a write that succeeds. -/
def Written (b : Bpb) (v : Vol) (root : List Nat) (chain : Slot → List Nat) (slot : Slot) (offset : Nat) (data : List UInt8)
    (v' : Vol) : Prop :=
  ∃ chain', Torn b v root chain slot (max (v.size slot) ((offset + data.length) % 2 ^ 32))
    (blit (byteAt b v (chain slot)) offset data) v' chain'

/-- A write at this offset needs a cluster, and none is free. -/
def Full (b : Bpb) (v : Vol) (clusters : List Nat) (offset : Nat) : Prop :=
  offset / (b.sectorsPerCluster * 512) = clusters.length ∧ v.firstFree b = none

/-- What a write comes to: nothing if it would leave a gap or needs a cluster that is not there, all of the data
    otherwise; and anything in between if accesses may fail. -/
def WriteEnds (b : Bpb) (m : Mode) (v : Vol) (root : List Nat) (chain : Slot → List Nat) (slot : Slot) (offset : Nat)
    (data : List UInt8) (r : Nat × OpenFile) (v' : Vol) : Prop :=
  (v.size slot < offset ∨ Full b v (chain slot) offset) ∧ r = (0, opened b v slot) ∧ v' = v ∨
    ¬(v.size slot < offset ∨ Full b v (chain slot) offset) ∧ r = (data.length, opened b v' slot) ∧
      Written b v root chain slot offset data v' ∨
    m.fails ∧ WriteLeaves b v root chain slot offset data v'

section Write
variable {b : Bpb} {m : Mode} {v v' : Vol} (geo : Geometry b) {root : List Nat} {chain chain' : Slot → List Nat} {slot : Slot}
  {offset : Nat} {data : List UInt8}

theorem WellFormed.leaves (wf : WellFormed b v root chain) : WriteLeaves b v root chain slot offset data v :=
  ⟨_, _, _, wf.torn, .inl ⟨rfl, .inl rfl⟩⟩

theorem Torn.leaves (torn : Torn b v root chain slot (v.size slot) (byteAt b v (chain slot)) v' chain') :
    WriteLeaves b v root chain slot offset data v' :=
  ⟨_, _, _, torn, .inl ⟨rfl, .inl rfl⟩⟩

include geo

theorem Geometry.end_le {own : List Nat} (inside : offset / (b.sectorsPerCluster * 512) < own.length)
    (fits : offset % (b.sectorsPerCluster * 512) % 512 + data.length ≤ 512) :
    offset + data.length ≤ own.length * (b.sectorsPerCluster * 512) := by
  have last := sector_lt geo.sectors offset
  have room : offset % (b.sectorsPerCluster * 512) / 512 * 512 + 512 ≤ b.sectorsPerCluster * 512 := by omega
  obtain ⟨cs, bytesOf⟩ : ∃ cs, b.sectorsPerCluster * 512 = cs := ⟨_, rfl⟩
  rw [bytesOf] at inside fits room ⊢
  calc offset + data.length = cs * (offset / cs) + (offset % cs + data.length) := by
        have := Nat.div_add_mod offset cs
        omega
    _ ≤ cs * (offset / cs) + cs := by omega
    _ = (offset / cs + 1) * cs := by rw [Nat.succ_mul, Nat.mul_comm]
    _ ≤ own.length * cs := Nat.mul_le_mul_right cs inside

theorem Torn.filled (torn : Torn b v root chain slot (v.size slot) (byteAt b v (chain slot)) v' chain')
    (member : slot ∈ files b v root) {start c : Nat} {own : List Nat} (before : offset ≤ v.size slot)
    (chained : ChainFrom v'.link start own) (owns : Owns b v root chain slot v' own)
    (grown : chain' slot = own ∨ v.size slot = 0 ∧ chain' slot = [])
    (here : own[offset / (b.sectorsPerCluster * 512)]? = some c)
    (fits : offset % (b.sectorsPerCluster * 512) % 512 + data.length ≤ 512) {v'' : Vol}
    (after : v'' = v'.setData c (offset % (b.sectorsPerCluster * 512) / 512)
      (blit (v'.data c (offset % (b.sectorsPerCluster * 512) / 512)) (offset % (b.sectorsPerCluster * 512) % 512) data)) :
    Torn b v root chain slot (v.size slot) (blit (byteAt b v (chain slot)) offset data) v'' chain' ∧
      Torn b v root chain slot (max (v.size slot) ((offset + data.length) % 2 ^ 32)) (blit (byteAt b v (chain slot)) offset data)
        (v''.setEntry slot start (max (v.size slot) ((offset + data.length) % 2 ^ 32))) (Function.update chain' slot own) := by
  have mine := owns c (List.mem_of_getElem? here)
  have inside : offset / (b.sectorsPerCluster * 512) < own.length := (List.getElem?_eq_some_iff.mp here).1
  have startHas := (owns start (List.mem_of_getElem? chained.head)).1.has
  have there : slot ∈ files b v' root := torn.listed ▸ member
  have old : v.size slot = 0 ∨ (chain' slot)[offset / (b.sectorsPerCluster * 512)]? = some c :=
    grown.elim (fun same => .inr (same ▸ here)) fun none => .inl none.1
  have written := torn.data geo.sectors member mine.2.1 mine.2.2 old fits
  rw [← after] at written
  have ends := geo.end_le inside fits
  have wrapped := Nat.mod_le (offset + data.length) (2 ^ 32)
  have room : v.size slot ≤ own.length * (b.sectorsPerCluster * 512) := by
    rcases grown with same | ⟨none, _⟩
    · rw [← same, ← torn.sized]
      exact torn.wf.room slot there
    · omega
  refine ⟨written, written.entry member ?_ ?_ (.inr ?_) (Nat.max_le.mpr ⟨room, Nat.le_trans wrapped ends⟩) ?_ ?_ ?_⟩
  · have := startHas.2
    have := geo.numbers
    omega
  · exact Nat.max_lt.mpr ⟨v.size_lt slot, Nat.mod_lt _ (by decide)⟩
  · rw [after]
    exact chained
  · intro x member
    have sound := (owns x member).1
    rw [after]
    exact ⟨⟨sound.has, sound.taken, sound.ended⟩, (owns x member).2⟩
  · rcases grown with same | ⟨_, none⟩
    · exact same ▸ List.Subset.refl _
    · exact none ▸ List.nil_subset _
  · intro o below
    rw [after, byteAt_written geo.sectors chained.nodup here fits (by omega)]
    unfold blit copyFrom
    split
    · rfl
    · -- outside the data the offset is below the old size, where the volume still has the old bytes
      have low : o < v.size slot := by omega
      rw [← torn.holds o low]
      rcases grown with same | ⟨none, _⟩
      · rw [same]
      · omega

private theorem does_writeInto (member : slot ∈ files b v root) (has : b.Has slot.cluster)
    (torn : Torn b v root chain slot (v.size slot) (byteAt b v (chain slot)) v' chain') {start len c : Nat} {own : List Nat}
    {client : Memory} (before : offset ≤ v.size slot) (data_eq : data = payload offset len client)
    (chained : ChainFrom v'.link start own) (owns : Owns b v root chain slot v' own)
    (grown : chain' slot = own ∨ v.size slot = 0 ∧ chain' slot = []) (here : own[offset / (b.sectorsPerCluster * 512)]? = some c) :
    Does b m (WriteLeaves b v root chain slot offset data)
      (fun r v'' => r = (data.length, opened b v'' slot) ∧ Written b v root chain slot offset data v'' ∨
        m.fails ∧ WriteLeaves b v root chain slot offset data v'')
      (writeInto b { startCluster := start, size := v.size slot, dirent := slot.loc b } offset len client c) v' := by
  have length : data.length = min len (512 - offset % 512) := by rw [data_eq, payload, length_slice]
  have mine := owns c (List.mem_of_getElem? here)
  have sector := sector_lt geo.sectors offset
  have place : offset % (b.sectorsPerCluster * 512) % 512 = offset % 512 := Nat.mod_mul_left_mod ..
  have fits : offset % (b.sectorsPerCluster * 512) % 512 + data.length ≤ 512 := by omega
  have startHas := (owns start (List.mem_of_getElem? chained.head)).1.has
  have inSlot := (mem_slots.mp (files_subset member)).2
  obtain ⟨filled, updated⟩ := torn.filled geo member before chained owns grown here fits rfl
  rw [place] at filled updated
  have size : (if add32 offset data.length > v.size slot then
        ({ startCluster := start, size := add32 offset data.length, dirent := slot.loc b } : OpenFile)
      else { startCluster := start, size := v.size slot, dirent := slot.loc b }) =
        { startCluster := start, size := max (v.size slot) ((offset + data.length) % 2 ^ 32), dirent := slot.loc b } := by
    rw [add32]
    split
    · rw [Nat.max_eq_right (by omega)]
    · rw [Nat.max_eq_left (by omega)]
  unfold writeInto
  dsimp only
  rw [geo.clusterSize, geo.dataAddress mine.1.has sector, show sectorSize = 512 from rfl, place, ← payload, ← data_eq,
    ← length, size]
  refine .bind (does_readData mine.1.has sector ?_ fun fails _ => .ret (.inr ⟨fails, torn.leaves⟩))
  refine .bind (does_writeData geo mine.1.has sector ⟨_, _, _, filled, .inl ⟨rfl, .inr rfl⟩⟩ ?_ fun fails _ => .ret (.inr ⟨fails, torn.leaves⟩))
  refine .bind (does_writeDirentUpdate geo has inSlot.1 ⟨_, _, _, updated, .inr ⟨rfl, rfl⟩⟩ (.ret (.inl ⟨?_, _, updated⟩))
    fun fails _ => .ret (.inr ⟨fails, _, _, _, filled, .inl ⟨rfl, .inr rfl⟩⟩))
  have small : start < 2 ^ 32 := by
    have := startHas.2
    have := geo.numbers
    omega
  rw [opened, Vol.setEntry_start small, Vol.setEntry_size (by rw [← updated.sized]; exact Vol.size_lt _ _)]

/-- A write refuses to leave a gap and stops without room; otherwise all of the data ends up in the file. Failures leave
    the volume torn in this file only, provided that no link is walked while a cluster is free. -/
theorem does_writeFile (wf : WellFormed b v root chain) (member : slot ∈ files b v root) (offset len : Nat) (client : Memory)
    (safe : m.fails → v.size slot < offset ∨ v.firstFree b = none ∨ (chain slot).length ≤ 1 ∨ offset / (b.sectorsPerCluster * 512) = 0) :
    Does b m (WriteLeaves b v root chain slot offset (payload offset len client))
      (WriteEnds b m v root chain slot offset (payload offset len client)) (writeFile b (opened b v slot) offset len client) v := by
  have has : b.Has slot.cluster := wf.has_root _ (mem_slots.mp (files_subset member)).1
  unfold writeFile
  split
  · rename_i gap
    exact .ret (.inl ⟨.inl gap, rfl, rfl⟩)
  · rename_i before
    have before : offset ≤ v.size slot := Nat.le_of_not_lt before
    have room := wf.room slot member
    split
    · -- the file has no cluster yet
      rename_i zero
      have empty : chain slot = [] := wf.start_eq_zero member zero
      rw [empty, List.length_nil, Nat.zero_mul] at room
      have first : offset = 0 := by omega
      refine .bind (does_allocCluster geo (fun none => .ret (.inl ⟨.inr ⟨?_, none⟩, rfl, rfl⟩)) (fun f free => ?_)
        fun fails => .ret (.inr (.inr ⟨fails, wf.leaves⟩)))
      · rw [first, empty]
        exact Nat.zero_div _
      · obtain ⟨hasF, freeF⟩ := Vol.firstFree_spec free
        have marked := wf.torn_mark slot hasF freeF
        have spare := (wf.mark hasF freeF).2
        have owns : Owns b v root chain slot (v.setFat f eocMin) [f] := by
          intro c within
          cases List.mem_singleton.mp within
          exact ⟨spare.sound, fun rooted => spare.unused (.inl rooted), fun x listed _ belongs => spare.unused (.inr ⟨x, listed, belongs⟩)⟩
        refine ⟨marked.leaves, ?_, fun fails => .ret (.inr (.inr ⟨fails, marked.leaves⟩))⟩
        unfold writeFrom
        refine .bind ?_
        rw [show offset / clusterSizeBytes b = 0 by rw [first, Nat.zero_div]]
        refine .ret (.mono (does_writeInto geo member has marked before rfl (.last spare.link) owns ?_ ?_) fun r v' ends => ?_)
        · exact .inr ⟨by omega, empty⟩
        · rw [first, Nat.zero_div]
          rfl
        · refine .inr (ends.imp_left fun done => ⟨?_, done⟩)
          rintro (gap | full)
          · omega
          · cases full.2.symm.trans free
    · rename_i start
      have chained := wf.chained member start
      have last : offset / (b.sectorsPerCluster * 512) ≤ (chain slot).length := by
        refine Nat.div_le_of_le_mul ?_
        rw [Nat.mul_comm]
        omega
      have done : ∀ {data : List UInt8} {r : Nat × OpenFile} {v' : Vol}, ¬Full b v (chain slot) offset →
          r = (data.length, opened b v' slot) ∧ Written b v root chain slot offset data v' ∨
            m.fails ∧ WriteLeaves b v root chain slot offset data v' →
          WriteEnds b m v root chain slot offset data r v' :=
        fun room ends => .inr (ends.imp_left fun done => ⟨not_or.mpr ⟨by omega, room⟩, done⟩)
      unfold writeFrom
      rw [geo.clusterSize]
      refine .bind (does_followOrExtend geo chained (wf.has_file member) last (fun fails => (safe fails).resolve_left (by omega))
        (fun c here => ?_) (fun all none => .ret (.inl ⟨.inr ⟨all, none⟩, rfl, rfl⟩)) (fun all z end' f free => ?_)
        fun fails => .ret (.inr (.inr ⟨fails, wf.leaves⟩)))
      · refine .mono (does_writeInto geo member has wf.torn before rfl chained (wf.torn.owns member) (.inl rfl) here)
          fun r v' => done fun full => ?_
        have := (List.getElem?_eq_some_iff.mp here).1
        have := full.1
        omega
      · obtain ⟨hasF, freeF⟩ := Vol.firstFree_spec free
        have marked := wf.torn_mark slot hasF freeF
        have grown := wf.torn_grow geo.numbers member end' hasF freeF
        have there : slot ∈ files b ((v.setFat f eocMin).setFat z f) root := grown.listed ▸ member
        refine ⟨marked.leaves, grown.leaves, ?_, fun fails => ⟨.ret (.inr (.inr ⟨fails, marked.leaves⟩)), .ret (.inr (.inr ⟨fails, grown.leaves⟩))⟩⟩
        refine .mono (does_writeInto geo member has grown before rfl (grown.wf.chained there start) (grown.owns member) (.inl rfl) ?_)
          fun r v' => done fun full => ?_
        · rw [Function.update_self, all]
          simp
        · cases full.2.symm.trans free

end Write

/-! ## Truncating -/

/-- The volumes that a truncation to `k` bytes can leave. -/
def TruncateLeaves (b : Bpb) (v : Vol) (root : List Nat) (chain : Slot → List Nat) (slot : Slot) (k : Nat) (v' : Vol) : Prop :=
  ∃ chain' size, Torn b v root chain slot size (byteAt b v (chain slot)) v' chain' ∧ (size = v.size slot ∨ size = k)

def TruncateEnds (b : Bpb) (m : Mode) (v : Vol) (root : List Nat) (chain : Slot → List Nat) (slot : Slot) (k : Nat)
    (r : Nat × OpenFile) (v' : Vol) : Prop :=
  v.size slot < k ∧ r = (0, opened b v slot) ∧ v' = v ∨
    k ≤ v.size slot ∧ r = (1, opened b v' slot) ∧ (∃ chain', Torn b v root chain slot k (byteAt b v (chain slot)) v' chain') ∨
    m.fails ∧ TruncateLeaves b v root chain slot k v'

theorem does_truncateFile {b : Bpb} {m : Mode} {v : Vol} (geo : Geometry b) {root : List Nat} {chain : Slot → List Nat} {slot : Slot}
    (wf : WellFormed b v root chain) (member : slot ∈ files b v root) (k : Nat) :
    Does b m (TruncateLeaves b v root chain slot k) (TruncateEnds b m v root chain slot k) (truncateFile (opened b v slot) k) v := by
  have inSlot := mem_slots.mp (files_subset member)
  have small : v.start slot < 2 ^ 32 := by
    have numbers := geo.numbers
    by_cases zero : v.start slot = 0
    · omega
    · have has := wf.has_file member _ (List.mem_of_getElem? (wf.chained member zero).head)
      have := has.2
      omega
  unfold truncateFile
  split
  · rename_i longer
    exact .ret (.inl ⟨longer, rfl, rfl⟩)
  · rename_i le
    have le : k ≤ v.size slot := Nat.le_of_not_lt le
    have small' := Nat.lt_of_le_of_lt le (v.size_lt slot)
    have cut := wf.torn.entry member small small' (wf.fileChain slot member) (Nat.le_trans le (wf.room slot member))
      (wf.torn.owns member) (List.Subset.refl _) fun o _ => rfl
    refine .bind (does_writeDirentUpdate geo (wf.has_root _ inSlot.1) inSlot.2.1 ⟨_, _, cut, .inr rfl⟩ (.ret (.inr (.inl ⟨le, ?_, _, cut⟩)))
      fun fails _ => .ret (.inr (.inr ⟨fails, _, _, wf.torn, .inl rfl⟩)))
    rw [opened, opened, Vol.setEntry_start small, Vol.setEntry_size small']

end Pcern.Fat32

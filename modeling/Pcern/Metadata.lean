import Pcern.Store

/-!
The server keeps the first cluster and the size of the open file, and so does the directory entry. Both are changed by a
write or a truncation, the copy of the server first. `Steady` is all that is needed of a volume for the two to stay
together: the clusters of the root directory are apart from those that a file can reach, whatever else may have become
of the chains.
-/
namespace Pcern.Fat32

open Bytes Blocks Chains

/-! ## The server over a sequence of messages -/

structure Serving where
  disk : Disk
  server : Server

/-- A message, the page that `map_memory` maps for a transferred grant if it can, what the client has in the shared page
    by then, and the accesses that fail while the message is served. -/
structure Round where
  message : RecvResult
  mapped : Option Memory
  page : Memory
  fails : Nat → Bool

def Round.serve (b : Bpb) (fuel : Nat) (x : Serving) (r : Round) : Option (Serving × List Reply) :=
  let trace := (handle b fuel { x.server with clientBuf := r.page } r.message r.mapped).run r.fails x.disk
  trace.result.map fun (server, replies) => ({ disk := trace.disk, server }, replies)

/-- The states of a server between its messages, if every message meets a condition. -/
inductive Served (b : Bpb) (fuel : Nat) (meets : Serving → Round → Prop) (d : Disk) : Serving → Prop where
  | start : Served b fuel meets d { disk := d, server := .init }
  | round {x x' : Serving} {r : Round} {replies : List Reply} (before : Served b fuel meets d x) (met : meets x r)
      (ran : r.serve b fuel x = some (x', replies)) : Served b fuel meets d x'

/-- The open file is the one that its directory entry describes. -/
def Cached (x : Serving) : Prop :=
  ∀ file, x.server.openFile = some file →
    startAt (x.disk file.dirent.sector) file.dirent.offset = file.startCluster ∧
      sizeAt (x.disk file.dirent.sector) file.dirent.offset = file.size

/-- A request that is answered with 0 leaves the file as it was, if it is still open. -/
def KeptOnFailure (x x' : Serving) (replies : List Reply) : Prop :=
  (∃ reply ∈ replies, reply.w0 = 0) → ∀ file, x'.server.openFile = some file → x.server.openFile = some file

/-- The end of a write, as `write_file` computes it. -/
def writeEnd (offset len : Nat) : Nat := add32 offset (min len (512 - offset % 512))

/-- A sector of the cluster that is allocated next. -/
def Vol.Fresh (b : Bpb) (v : Vol) (sector : Nat) : Prop :=
  ∃ f, v.firstFree b = some f ∧ ∃ s < b.sectorsPerCluster, sector = sectorOf b f s

/-- The sectors whose accesses matter to a message: where a file may be created, those through which the root directory
    grows; where the open file gets its first cluster, those of the cluster and of the entry; and where it gets another
    size, that of the entry. -/
def Matters (b : Bpb) (v : Vol) (s : Server) (r : RecvResult) (sector : Nat) : Prop :=
  r.w0 = Libpcern.fsOpOpenName2 ∧ r.w2 ≠ 0 ∧ (v.Fresh b sector ∨ ∃ z ∈ rootOf b v, sector = mirrorOf b z) ∨
    r.w0 = Libpcern.fsOpWrite ∧ (∃ file, s.openFile = some file ∧ r.w1.toNat ≤ file.size ∧
      (file.startCluster = 0 ∧ v.Fresh b sector ∨
        (file.startCluster = 0 ∨ file.size < writeEnd r.w1.toNat r.w2.toNat) ∧ sector = file.dirent.sector)) ∨
    r.w0 = Libpcern.fsOpTruncate ∧ ∃ file, s.openFile = some file ∧ r.w1.toNat < file.size ∧ sector = file.dirent.sector

/-- The accesses of the message that fail are to sectors that do not matter to it, and nothing of length 0 is written to
    a file without a cluster. -/
def Undisturbed (b : Bpb) (fuel : Nat) (x : Serving) (r : Round) : Prop :=
  (∀ sector ∈ (handle b fuel { x.server with clientBuf := r.page } r.message r.mapped).lost r.fails x.disk,
      ¬Matters b (vol b x.disk) x.server r.message sector) ∧
    ¬(r.message.w0 = Libpcern.fsOpWrite ∧ r.message.w2 = 0 ∧ ∃ file, x.server.openFile = some file ∧ file.startCluster = 0)

/-! ## Steady volumes -/

/-- The fields of an entry: an empty file, or one that begins in a cluster of `owned`. -/
def Vol.Begins (v : Vol) (owned : Set Nat) (slot : Slot) : Prop :=
  v.start slot = 0 ∧ v.size slot = 0 ∨ v.start slot ∈ owned

/-- The chain of the root directory, and the clusters that files can reach. -/
structure Steady (b : Bpb) (v : Vol) (root : List Nat) (owned : Set Nat) : Prop where
  chained : ChainFrom v.link b.rootCluster root
  rooted : ∀ c ∈ root, b.Has c ∧ v.fat c ≠ 0
  reached : ∀ c ∈ owned, b.Has c ∧ v.fat c ≠ 0 ∧ c ∉ root
  closed : ∀ c ∈ owned, ∀ c', v.link c = some c' → c' ∈ owned
  entries : ∀ slot ∈ slots b root, v.kind slot = .file → v.Begins owned slot

section Steady
variable {b : Bpb} {v : Vol} {root : List Nat} {owned : Set Nat}

theorem Vol.Begins.mono {owned' : Set Nat} {slot : Slot} (begins : v.Begins owned slot) (more : owned ⊆ owned') : v.Begins owned' slot :=
  begins.imp_right fun member => more member

theorem Vol.Begins.congr {v' : Vol} {slot : Slot} (begins : v.Begins owned slot) (same : Vol.SameEntry v v' slot) :
    v'.Begins owned slot := by
  rw [Vol.Begins, same.start, same.size]
  exact begins

theorem Valid.steady (valid : Valid b v) :
    Steady b v (rootOf b v) {c | ∃ slot ∈ files b v (rootOf b v), c ∈ clustersOf b v slot} := by
  have wf : WellFormed b v (rootOf b v) (clustersOf b v) := valid
  refine ⟨wf.rootChain, ?_, ?_, ?_, ?_⟩
  · intro c member
    have sound := wf.sound c (.inl member)
    exact ⟨sound.has, sound.taken⟩
  · rintro c ⟨slot, member, within⟩
    have sound := wf.sound c (.inr ⟨slot, member, within⟩)
    exact ⟨sound.has, sound.taken, wf.rootApart slot member c within⟩
  · rintro c ⟨slot, member, within⟩ c' goes
    rcases wf.fileChain slot member with ⟨_, empty⟩ | chained
    · rw [empty] at within
      cases within
    · obtain ⟨i, here⟩ := List.getElem?_of_mem within
      rw [chained.next_eq here] at goes
      exact ⟨slot, member, List.mem_of_getElem? goes⟩
  · intro slot within file
    -- behind an end marker there is no file
    have member : slot ∈ files b v (rootOf b v) := by
      obtain ⟨front, back, split⟩ := List.append_of_mem within
      refine mem_files.mpr ⟨file, front, back, split, fun y before marker => ?_⟩
      obtain ⟨front', back', split'⟩ := List.append_of_mem before
      have zeroed := wf.tail front' y (back' ++ slot :: back) (by rw [split, split']; simp) marker slot (by simp)
      cases (Vol.zeroed_marker zeroed).symm.trans file
    rcases wf.fileChain slot member with ⟨zero, empty⟩ | chained
    · have room := wf.room slot member
      rw [empty, List.length_nil, Nat.zero_mul] at room
      exact .inl ⟨zero, by omega⟩
    · exact .inr ⟨slot, member, List.mem_of_getElem? chained.head⟩

namespace Steady
variable (steady : Steady b v root owned)
include steady

variable {c f : Nat} {slot : Slot}

private theorem start_pos (begins : v.start slot ∈ owned) : v.start slot ≠ 0 := by
  have := (steady.reached _ begins).1.1
  omega

theorem mark (has : b.Has f) (free : v.fat f = 0) : Steady b (v.setFat f eocMin) root (insert f owned) := by
  have away : ∀ c, v.fat c ≠ 0 → c ≠ f := by
    rintro c taken rfl
    exact taken free
  refine ⟨?_, ?_, ?_, ?_, ?_⟩
  · exact steady.chained.congr fun c member => Vol.setFat_link_other v _ (away c (steady.rooted c member).2)
  · intro c member
    obtain ⟨inRange, taken⟩ := steady.rooted c member
    rw [Vol.setFat_fat, if_neg (away c taken)]
    exact ⟨inRange, taken⟩
  · rintro c (rfl | member)
    · rw [Vol.setFat_fat, if_pos rfl]
      exact ⟨has, by decide, fun member => (steady.rooted c member).2 free⟩
    · obtain ⟨inRange, taken, outside⟩ := steady.reached c member
      rw [Vol.setFat_fat, if_neg (away c taken)]
      exact ⟨inRange, taken, outside⟩
  · rintro c (rfl | member) c' goes
    · rw [Vol.setFat_link_eoc] at goes
      cases goes
    · rw [Vol.setFat_link_other v _ (away c (steady.reached c member).2.1)] at goes
      exact .inr (steady.closed c member c' goes)
  · intro slot within file
    exact (steady.entries slot within file).mono (Set.subset_insert f owned)

private theorem relink (numbers : b.maxCluster < 0x0FFFFFF8) (member : c ∈ owned) (target : f ∈ owned) :
    Steady b (v.setFat c f) root owned := by
  have hasF := (steady.reached f target).1
  have outside := (steady.reached c member).2.2
  have away : ∀ x ∈ root, x ≠ c := by
    rintro x rooted rfl
    exact outside rooted
  refine ⟨?_, ?_, ?_, ?_, steady.entries⟩
  · exact steady.chained.congr fun x rooted => Vol.setFat_link_other v _ (away x rooted)
  · intro x rooted
    rw [Vol.setFat_fat, if_neg (away x rooted)]
    exact steady.rooted x rooted
  · intro x owns
    obtain ⟨inRange, taken, apart⟩ := steady.reached x owns
    refine ⟨inRange, ?_, apart⟩
    rw [Vol.setFat_fat]
    split
    · have := hasF.1
      omega
    · exact taken
  · intro x owns x' goes
    by_cases here : x = c
    · rw [here, Vol.setFat_link_same v c hasF.1 (by have := hasF.2; omega)] at goes
      cases goes
      exact target
    · rw [Vol.setFat_link_other v _ here] at goes
      exact steady.closed x owns x' goes

theorem sameEntry_setData (member : c ∈ owned) (s : Nat) (sector : Sector) (within : slot ∈ slots b root) :
    Vol.SameEntry v (v.setData c s sector) slot := by
  refine Vol.sameEntry_setData_other sector ?_
  rintro rfl
  exact (steady.reached _ member).2.2 (mem_slots.mp within).1

theorem setData (member : c ∈ owned) (s : Nat) (sector : Sector) : Steady b (v.setData c s sector) root owned := by
  refine ⟨steady.chained, steady.rooted, steady.reached, steady.closed, fun slot within file => ?_⟩
  have same := steady.sameEntry_setData member s sector within
  rw [same.kind] at file
  exact (steady.entries slot within file).congr same

theorem setEntry {start size : Nat} (begins : (v.setEntry slot start size).Begins owned slot) :
    Steady b (v.setEntry slot start size) root owned := by
  refine ⟨steady.chained, steady.rooted, steady.reached, steady.closed, fun x within file => ?_⟩
  by_cases here : x = slot
  · rw [here]
    exact begins
  · rw [(Vol.setEntry_other here).kind] at file
    exact (steady.entries x within file).congr (Vol.setEntry_other here)

theorem newEntry {x : Slot} {name : List UInt8} (fits : name.length = 11) : Steady b (v.newEntry x name) root owned := by
  refine ⟨steady.chained, steady.rooted, steady.reached, steady.closed, fun slot within file => ?_⟩
  by_cases here : slot = x
  · rw [here]
    exact .inl ⟨Vol.newEntry_start fits, Vol.newEntry_size fits⟩
  · rw [(Vol.newEntry_other fits here).kind] at file
    exact (steady.entries slot within file).congr (Vol.newEntry_other fits here)

/-- The root directory goes on in a cleared cluster behind the cluster `z`. -/
theorem grow {front back : List Nat} {z f : Nat} (numbers : b.maxCluster < 0x0FFFFFF8) (split : root = front ++ z :: back) (has : b.Has f)
    (free : v.fat f = 0) :
    Steady b (((v.setFat f eocMin).setFat z f).clear f b.sectorsPerCluster) (front ++ [z] ++ [f]) owned := by
  have kept : ∀ c ∈ front ++ [z], c ∈ root := by
    intro c member
    rw [split, List.append_cons]
    exact List.mem_append_left back member
  have awayF : ∀ c, v.fat c ≠ 0 → c ≠ f := by
    rintro c taken rfl
    exact taken free
  have awayZ : ∀ c ∈ owned, c ≠ z := by
    rintro c member rfl
    exact (steady.reached c member).2.2 (kept c (by simp))
  have fat : ∀ c, (((v.setFat f eocMin).setFat z f).clear f b.sectorsPerCluster).fat c = if c = z then f else if c = f then eocMin else v.fat c := by
    intro c
    change ((v.setFat f eocMin).setFat z f).fat c = _
    rw [Vol.setFat_fat, Vol.setFat_fat]
  have others : ∀ c, v.fat c ≠ 0 → c ≠ z → (((v.setFat f eocMin).setFat z f).clear f b.sectorsPerCluster).link c = v.link c := by
    intro c taken other
    rw [Vol.link, fat, if_neg other, if_neg (awayF c taken), Vol.link]
  have low := has.1
  have high := has.2
  refine ⟨?_, ?_, ?_, ?_, ?_⟩
  · have chained := steady.chained
    rw [split] at chained
    refine chained.extend (fun x member => others x ?_) ?_ ?_
    · exact (steady.rooted x (kept x (List.mem_append_left _ member))).2
    · exact Vol.setFat_link_same _ z low (by omega)
    · have different : f ≠ z := fun same => (steady.rooted z (kept z (by simp))).2 (same ▸ free)
      exact (Vol.setFat_link_other _ _ different).trans (Vol.setFat_link_eoc v f)
  · intro c member
    rw [fat]
    rcases List.mem_append.mp member with old | new
    · obtain ⟨inRange, taken⟩ := steady.rooted c (kept c old)
      refine ⟨inRange, ?_⟩
      split
      · omega
      · rw [if_neg (awayF c taken)]
        exact taken
    · rw [List.mem_singleton.mp new]
      refine ⟨has, ?_⟩
      split
      · omega
      · rw [if_pos rfl]
        decide
  · intro c member
    obtain ⟨inRange, taken, outside⟩ := steady.reached c member
    rw [fat, if_neg (awayZ c member), if_neg (awayF c taken)]
    refine ⟨inRange, taken, fun within => ?_⟩
    rcases List.mem_append.mp within with old | new
    · exact outside (kept c old)
    · exact awayF c taken (List.mem_singleton.mp new)
  · intro c member c' goes
    rw [others c (steady.reached c member).2.1 (awayZ c member)] at goes
    exact steady.closed c member c' goes
  · intro slot within file
    obtain ⟨inRoot, sector, index⟩ := mem_slots.mp within
    rcases List.mem_append.mp inRoot with old | new
    · have same : Vol.SameEntry v (((v.setFat f eocMin).setFat z f).clear f b.sectorsPerCluster) slot := by
        intro i _
        rw [Vol.clear_other _ (awayF _ (steady.rooted _ (kept _ old)).2)]
        rfl
      rw [same.kind] at file
      exact (steady.entries slot (mem_slots.mpr ⟨kept _ old, sector, index⟩) file).congr same
    · have cleared := Vol.clear_zeroed (v := (v.setFat f eocMin).setFat z f) (List.mem_singleton.mp new) sector
      cases (Vol.zeroed_marker cleared).symm.trans file

end Steady

end Steady

/-! ## Programs on steady volumes -/

/-- What a request for the open file comes to: the entry and the copy of it agree, and neither has changed if the answer
    is 0. -/
def Together (b : Bpb) (v : Vol) (root : List Nat) (slot : Slot) (r : Nat × OpenFile) (v' : Vol) : Prop :=
  (∃ owned, Steady b v' root owned ∧ v'.Begins owned slot) ∧ r.2 = opened b v' slot ∧ (UInt32.ofNat r.1 = 0 → r.2 = opened b v slot)

private theorem opened_congr {b : Bpb} {v v' : Vol} {slot : Slot} (same : Vol.SameEntry v v' slot) : opened b v' slot = opened b v slot := by
  rw [opened, same.start, same.size, opened]

section Rules
variable {b : Bpb} {m : Mode} {v : Vol} {root : List Nat} {owned : Set Nat} {slot : Slot} (geo : Geometry b)
include geo

private theorem does_followOrExtend_steady (steady : Steady b v root owned) {c : Nat} (member : c ∈ owned) (count : Nat) :
    Does b m (fun _ => True) (fun r v' => v'.data = v.data ∧ ∃ owned', owned ⊆ owned' ∧ Steady b v' root owned' ∧ ∀ c', r = some c' → c' ∈ owned')
      (followOrExtend b count c) v := by
  induction count generalizing v owned c with
  | zero => exact .ret ⟨rfl, owned, subset_rfl, steady, fun c' same => by cases same; exact member⟩
  | succ count ih =>
    have range := (steady.reached c member).1.2
    -- without a successor, as far as the walk can tell, it goes on in a new cluster
    refine .bind ((fun stop => does_nextCluster geo range ?_ fun _ => stop) ?_)
    · cases goes : v.link c with
      | none => exact stop
      | some c' => exact ih steady (steady.closed c member c' goes)
    · have stops : ∀ {owned' : Set Nat} (c' : Nat), none = some c' → c' ∈ owned' := by
        intro _ c' absurd
        cases absurd
      have here : ∃ owned', owned ⊆ owned' ∧ Steady b v root owned' ∧ ∀ c', none = some c' → c' ∈ owned' :=
        ⟨owned, subset_rfl, steady, stops⟩
      refine .bind (does_allocCluster geo (fun _ => .ret ⟨rfl, here⟩) (fun f free => ?_) fun _ => .ret ⟨rfl, here⟩)
      obtain ⟨hasF, freeF⟩ := Vol.firstFree_spec free
      have marked := steady.mark hasF freeF
      have linked := marked.relink geo.numbers (.inr member) (.inl rfl)
      have more := Set.subset_insert f owned
      have small : f < 2 ^ 28 := by
        have := hasF.2
        have := geo.numbers
        omega
      refine ⟨trivial, .bind (does_writeFatEntry geo range small trivial ?_ fun _ => ?_), fun _ => .ret ⟨rfl, _, more, marked, stops⟩⟩
      · refine (ih linked (.inl rfl)).mono ?_
        rintro r v' ⟨data, owned', grown, steady', reaches⟩
        exact ⟨data, owned', more.trans grown, steady', reaches⟩
      · exact ⟨.ret ⟨rfl, _, more, marked, stops⟩, fun _ => .ret ⟨rfl, _, more, linked, stops⟩⟩

private theorem writeEnd_eq (offset len : Nat) :
    add32 offset (min len (sectorSize - offset % clusterSizeBytes b % sectorSize)) = writeEnd offset len := by
  rw [geo.clusterSize, show sectorSize = 512 from rfl, Nat.mod_mul_left_mod]
  rfl

private theorem does_writeInto_together (steady : Steady b v root owned) (within : slot ∈ slots b root) {start offset len c : Nat} {client : Memory}
    (begins : start ∈ owned) (member : c ∈ owned) (recorded : v.Begins owned slot)
    (first : start ≠ v.start slot → ∀ s < b.sectorsPerCluster, m.spared (sectorOf b c s))
    (changed : start ≠ v.start slot ∨ v.size slot < writeEnd offset len → m.spared (slot.loc b).sector)
    (some : len ≠ 0 ∨ start = v.start slot) (before : offset ≤ v.size slot) :
    Does b m (fun _ => True) (Together b v root slot)
      (writeInto b { startCluster := start, size := v.size slot, dirent := slot.loc b } offset len client c) v := by
  have place := mem_slots.mp within
  have hasC := (steady.reached c member).1
  have hasSlot := (steady.rooted _ place.1).1
  have sector := sector_lt geo.sectors offset
  have stays : ¬m.spared (sectorOf b c (offset % (b.sectorsPerCluster * 512) / 512)) →
      Together b v root slot (0, { startCluster := start, size := v.size slot, dirent := slot.loc b }) v := by
    intro lost
    have same : ({ startCluster := start, size := v.size slot, dirent := slot.loc b } : OpenFile) = opened b v slot := by
      rw [show start = v.start slot from of_not_not fun new => lost (first new _ sector)]
      rfl
    exact ⟨⟨owned, steady, recorded⟩, same, fun _ => same⟩
  have startHas := (steady.reached start begins).1
  have smallStart : start < 2 ^ 32 := by
    have := startHas.2
    have := geo.numbers
    omega
  unfold writeInto
  dsimp only
  rw [writeEnd_eq geo, geo.clusterSize, geo.dataAddress hasC sector]
  refine .bind (does_readData hasC sector ?_ fun _ lost => .ret (stays lost))
  refine .bind (does_writeData geo hasC sector trivial ?_ fun _ lost => .ret (stays lost))
  obtain ⟨data, isData⟩ : ∃ data, blit (v.data c (offset % (b.sectorsPerCluster * 512) / 512)) (offset % (b.sectorsPerCluster * 512) % sectorSize)
      (slice client 0 (min len (sectorSize - offset % (b.sectorsPerCluster * 512) % sectorSize))) = data := ⟨_, rfl⟩
  rw [isData]
  have written := steady.setData member (offset % (b.sectorsPerCluster * 512) / 512) data
  have same := steady.sameEntry_setData member (offset % (b.sectorsPerCluster * 512) / 512) data within
  have file : (if writeEnd offset len > v.size slot then
        ({ startCluster := start, size := writeEnd offset len, dirent := slot.loc b } : OpenFile)
      else { startCluster := start, size := v.size slot, dirent := slot.loc b }) =
        { startCluster := start, size := max (v.size slot) (writeEnd offset len), dirent := slot.loc b } := by
    split
    · rw [Nat.max_eq_right (by omega)]
    · rw [Nat.max_eq_left (by omega)]
  have smallSize : max (v.size slot) (writeEnd offset len) < 2 ^ 32 :=
    Nat.max_lt.mpr ⟨v.size_lt slot, Nat.mod_lt _ (by decide)⟩
  dsimp only
  rw [file]
  refine .bind (does_writeDirentUpdate geo hasSlot place.2.1 trivial (.ret ?_) fun _ lost => .ret ?_)
  · have begun : ((v.setData c (offset % (b.sectorsPerCluster * 512) / 512) data).setEntry slot start
        (max (v.size slot) (writeEnd offset len))).Begins owned slot := by
      refine .inr ?_
      rw [Vol.setEntry_start smallStart]
      exact begins
    refine ⟨⟨owned, written.setEntry begun, begun⟩, ?_, fun nothing => ?_⟩
    · rw [opened, Vol.setEntry_start smallStart, Vol.setEntry_size smallSize]
    · -- a write of no bytes is one of length 0, which ends where it begins
      have empty : len = 0 := by
        have less := Nat.mod_lt (offset % (b.sectorsPerCluster * 512)) (show 0 < 512 by decide)
        by_contra more
        exact word_ne_zero (show 0 < min len (512 - offset % (b.sectorsPerCluster * 512) % 512) by omega) (by omega) nothing
      have ends : writeEnd offset len ≤ v.size slot := by
        rw [writeEnd, empty, Nat.zero_min]
        exact Nat.le_trans (Nat.mod_le _ _) before
      rw [Nat.max_eq_left ends, some.resolve_left fun more => more empty]
      rfl
  · have unchanged := mt changed lost
    rw [not_or, not_not, Nat.not_lt] at unchanged
    rw [Nat.max_eq_left unchanged.2, unchanged.1]
    have stayed := opened_congr (b := b) same
    refine ⟨⟨owned, written, recorded.congr same⟩, ?_, fun _ => rfl⟩
    rw [stayed]
    rfl

private theorem does_writeFile_together (steady : Steady b v root owned) (within : slot ∈ slots b root) (begins : v.Begins owned slot)
    {offset len : Nat} {client : Memory}
    (first : offset ≤ v.size slot → v.start slot = 0 → ∀ sector, v.Fresh b sector → m.spared sector)
    (changed : offset ≤ v.size slot → v.start slot = 0 ∨ v.size slot < writeEnd offset len → m.spared (slot.loc b).sector)
    (some : len ≠ 0 ∨ v.start slot ≠ 0) :
    Does b m (fun _ => True) (Together b v root slot) (writeFile b (opened b v slot) offset len client) v := by
  have stays : Together b v root slot (0, opened b v slot) v := ⟨⟨owned, steady, begins⟩, rfl, fun _ => rfl⟩
  unfold writeFile
  split
  · exact .ret stays
  · rename_i gap
    have before : offset ≤ v.size slot := Nat.le_of_not_lt gap
    split
    · -- the file has no cluster yet
      rename_i zero
      have empty : v.size slot = 0 := by
        rcases begins with ⟨_, empty⟩ | member
        · exact empty
        · exact absurd zero (steady.start_pos member)
      refine .bind (does_allocCluster geo (fun _ => .ret stays) (fun f free => ?_) fun _ => .ret stays)
      obtain ⟨hasF, freeF⟩ := Vol.firstFree_spec free
      have marked := steady.mark hasF freeF
      have recorded : (v.setFat f eocMin).Begins (insert f owned) slot := .inl ⟨zero, empty⟩
      refine ⟨trivial, ?_, fun _ => .ret ⟨⟨_, marked, recorded⟩, rfl, fun _ => rfl⟩⟩
      unfold writeFrom
      refine .bind ?_
      rw [show offset / clusterSizeBytes b = 0 by rw [show offset = 0 by omega, Nat.zero_div]]
      refine .ret (.mono (does_writeInto_together geo marked within (.inl rfl) (.inl rfl) recorded
        (fun _ s inside => first before zero _ ⟨f, free, s, inside, rfl⟩) (fun _ => changed before (.inl zero))
        (.inl (some.resolve_right fun start => start zero)) before) ?_)
      exact fun r v' together => together
    · rename_i start
      have member : v.start slot ∈ owned := begins.resolve_left fun none => start none.1
      unfold writeFrom
      refine .bind (.mono (does_followOrExtend_steady geo steady member _) ?_)
      rintro r v' ⟨data, owned', more, steady', reaches⟩
      have same : Vol.SameEntry v v' slot := fun i _ => by rw [data]
      have begins' : v'.Begins owned' slot := (begins.mono more).congr same
      have kept : opened b v' slot = opened b v slot := opened_congr same
      cases r with
      | none =>
        refine .ret ⟨⟨owned', steady', begins'⟩, kept.symm, fun _ => rfl⟩
      | some c =>
        have start' : v'.start slot = v.start slot := same.start
        have size' : v'.size slot = v.size slot := same.size
        have into : Does b m (fun _ => True) (Together b v' root slot)
            (writeInto b { startCluster := v.start slot, size := v'.size slot, dirent := slot.loc b } offset len client c) v' :=
          does_writeInto_together geo steady' within (more member) (reaches c rfl) begins' (fun new => absurd start'.symm new)
            (fun grows => changed before (.inr (size' ▸ grows.resolve_left fun new => new start'.symm))) (.inr start'.symm)
            (size'.symm ▸ before)
        rw [size'] at into
        refine into.mono ?_
        rintro r v'' ⟨steadily, agrees, failed⟩
        exact ⟨steadily, agrees, fun zero => (failed zero).trans kept⟩

private theorem does_truncateFile_together (steady : Steady b v root owned) (within : slot ∈ slots b root) (begins : v.Begins owned slot)
    {size : Nat} (changed : size < v.size slot → m.spared (slot.loc b).sector) :
    Does b m (fun _ => True) (Together b v root slot) (truncateFile (opened b v slot) size) v := by
  have stays : Together b v root slot (0, opened b v slot) v := ⟨⟨owned, steady, begins⟩, rfl, fun _ => rfl⟩
  unfold truncateFile
  split
  · exact .ret stays
  · rename_i le
    have le : size ≤ v.size slot := Nat.le_of_not_lt le
    have place := mem_slots.mp within
    have smallStart : v.start slot < 2 ^ 32 := by
      have numbers := geo.numbers
      rcases begins with ⟨zero, _⟩ | member
      · omega
      · have := (steady.reached _ member).1.2
        omega
    have smallSize := Nat.lt_of_le_of_lt le (v.size_lt slot)
    refine .bind (does_writeDirentUpdate geo (steady.rooted _ place.1).1 place.2.1 trivial (.ret ?_) fun _ lost => .ret ?_)
    · have begun : (v.setEntry slot (v.start slot) size).Begins owned slot := by
        rw [Vol.Begins, Vol.setEntry_start smallStart, Vol.setEntry_size smallSize]
        exact begins.imp_left fun none => ⟨none.1, by omega⟩
      refine ⟨⟨owned, steady.setEntry begun, begun⟩, ?_, fun nothing => absurd nothing (show (1 : UInt32) ≠ 0 by decide)⟩
      rw [opened, opened, Vol.setEntry_start smallStart, Vol.setEntry_size smallSize]
    · have same : size = v.size slot := Nat.le_antisymm le (Nat.le_of_not_lt (mt changed lost))
      rw [same]
      exact stays

end Rules

/-! ## Messages -/

/-- The open file of the server is that of an entry of a steady volume. -/
def Tracked (b : Bpb) (v : Vol) (s : Server) : Prop :=
  ∃ root owned, Steady b v root owned ∧
    ∀ file, s.openFile = some file → ∃ slot ∈ slots b root, v.Begins owned slot ∧ file = opened b v slot

/-- The file is still that of an entry, and it has not changed if a reply says 0. -/
def Follows (b : Bpb) (s : Server) (out : Server × List Reply) (v' : Vol) : Prop :=
  Tracked b v' out.1 ∧ out.1.pendingNameLo.length = 8 ∧ ((∃ reply ∈ out.2, reply.w0 = 0) → ∀ file, out.1.openFile = some file → s.openFile = some file)

section Messages
variable {b : Bpb} {m : Mode} {v : Vol} {fuel : Nat} {s : Server}

private theorem peeks_nextCluster (b : Bpb) (c : Nat) : Peeks (nextCluster b c) := by
  have entry : Peeks (readFatEntry b c) := by
    intro block
    cases block <;> trivial
  refine entry.bind fun raw => ?_
  cases raw with
  | none => trivial
  | some raw =>
    dsimp only
    split <;> trivial

private theorem peeks_follow (b : Bpb) (count c : Nat) : Peeks (follow b count c) := by
  induction count generalizing c with
  | zero => trivial
  | succ count ih =>
    refine (peeks_nextCluster b c).bind fun next => ?_
    cases next with
    | none => trivial
    | some c' => exact ih c'

private theorem peeks_readFile (b : Bpb) (file : OpenFile) (offset len : Nat) (client : Memory) : Peeks (readFile b file offset len client) := by
  unfold readFile
  split
  · trivial
  · refine (peeks_follow b _ _).bind fun cluster => ?_
    cases cluster with
    | none => trivial
    | some c =>
      intro block
      cases block <;> trivial

theorem Tracked.same {s' : Server} (tracked : Tracked b v s) (same : s'.openFile = s.openFile) : Tracked b v s' := by
  rw [Tracked, same]
  exact tracked

theorem Tracked.follows (tracked : Tracked b v s) (s' : Server) (same : s'.openFile = s.openFile) (names : s'.pendingNameLo.length = 8)
    (replies : List Reply) : Follows b s (s', replies) v :=
  ⟨tracked.same same, names, fun _ _ here => same ▸ here⟩

theorem Together.follows {root : List Nat} {slot : Slot} {out : Nat × OpenFile} {v' : Vol} (together : Together b v root slot out v')
    (within : slot ∈ slots b root) (opens : s.openFile = some (opened b v slot)) (names : s.pendingNameLo.length = 8) :
    Follows b s ({ s with openFile := some out.2 }, [{ slot := s.clientReply, w0 := UInt32.ofNat out.1, w1 := 0 }]) v' := by
  obtain ⟨⟨owned, steady, begins⟩, agrees, failed⟩ := together
  refine ⟨⟨root, owned, steady, fun file here => ⟨slot, within, begins, ?_⟩⟩, names, ?_⟩
  · exact (Option.some.inj here).symm.trans agrees
  · rintro ⟨reply, member, zero⟩ file here
    rw [List.mem_singleton.mp member] at zero
    rw [opens, ← failed zero]
    exact here

variable (geo : Geometry b)
include geo

private theorem does_open_tracked (enough : b.maxCluster ≤ fuel) (tracked : Tracked b v s) {name : List UInt8} (fits : name.length = 11) {create : Bool}
    (spares : create = true → ∀ sector, (v.Fresh b sector ∨ ∃ z ∈ rootOf b v, sector = mirrorOf b z) → m.spared sector) :
    Does b m (fun _ => True) (fun r v' => ∀ s' : Server, s'.openFile = r → Tracked b v' s') (openOrCreate b fuel name create) v := by
  obtain ⟨root, owned, steady, _⟩ := tracked
  have has : ∀ c ∈ root, b.Has c := fun c member => (steady.rooted c member).1
  have short := Nat.le_trans (length_le steady.chained.nodup has) enough
  have closes : ∀ {v' : Vol} {root owned}, Steady b v' root owned → ∀ s' : Server, s'.openFile = none → Tracked b v' s' :=
    fun steady s' closed => ⟨_, _, steady, fun _ here => by cases closed.symm.trans here⟩
  have stays := closes steady
  have creates : Does b m (fun _ => True) (fun r v' => ∀ s' : Server, s'.openFile = r → Tracked b v' s')
      (if !create then pure none else createFile b fuel name) v := by
    cases create with
    | false => exact .ret stays
    | true =>
      refine does_createFile geo steady.chained has short ⟨fun _ _ => trivial, fun _ _ _ _ _ _ _ _ => ⟨trivial, fun _ _ => trivial, trivial⟩⟩
        (fun x free => ⟨?_, fun _ => stays⟩) (fun front z back split _ _ => ⟨fun _ => stays, fun f free => ?_⟩) fun _ => stays
      · intro s' opens
        refine ⟨root, owned, steady.newEntry fits, fun file here => ⟨x, List.mem_of_find?_eq_some free, ?_, ?_⟩⟩
        · exact .inl ⟨Vol.newEntry_start fits, Vol.newEntry_size fits⟩
        · cases here.symm.trans opens
          rw [opened, Vol.newEntry_start fits, Vol.newEntry_size fits]
      · obtain ⟨hasF, freeF⟩ := Vol.firstFree_spec free
        have grown := steady.grow geo.numbers split hasF freeF
        have inRoot : z ∈ rootOf b v := by
          rw [rootOf, Vol.walk_eq steady.chained (length_le steady.chained.nodup has), split]
          simp
        have spared := spares rfl
        refine ⟨fun s' opens => ⟨front ++ [z] ++ [f], owned, grown.newEntry fits, fun file here => ⟨⟨f, 0, 0⟩, ?_, ?_, ?_⟩⟩,
          fun _ => ⟨closes (steady.mark hasF freeF), closes grown, fun n inside lost => ?_⟩⟩
        · exact mem_slots.mpr ⟨by simp, geo.sectors, Nat.zero_lt_succ 15⟩
        · exact .inl ⟨Vol.newEntry_start fits, Vol.newEntry_size fits⟩
        · cases here.symm.trans opens
          rw [opened, Vol.newEntry_start fits, Vol.newEntry_size fits]
        · exact absurd ⟨spared _ (.inr ⟨z, inRoot, rfl⟩), spared _ (.inl ⟨f, free, n, inside, rfl⟩)⟩ lost
  refine .bind (does_findInRoot geo steady.chained has short ?_ fun _ => creates)
  cases found : (files b v root).find? fun slot => v.name slot = name with
  | none => exact creates
  | some slot =>
    have member := List.mem_of_find?_eq_some found
    refine .ret fun s' opens => ⟨root, owned, steady, fun file here => ⟨slot, files_subset member, ?_, ?_⟩⟩
    · exact steady.entries slot (files_subset member) (files_kind member)
    · cases here.symm.trans opens
      rfl

/-- Every message leaves the open file and its entry together, if no access that matters to it fails. -/
theorem does_handle_follows (enough : b.maxCluster ≤ fuel) (tracked : Tracked b v s) (names : s.pendingNameLo.length = 8) {r : RecvResult}
    (mapped : Option Memory) (spares : ∀ sector, Matters b v s r sector → m.spared sector)
    (nonempty : ¬(r.w0 = Libpcern.fsOpWrite ∧ r.w2 = 0 ∧ ∃ file, s.openFile = some file ∧ file.startCluster = 0)) :
    Does b m (fun _ => True) (Follows b s) (handle b fuel s r mapped) v := by
  have idle : ∀ replies, Follows b s (s, replies) v := tracked.follows s rfl names
  unfold handle
  by_cases setBuffer : r.w0 = Libpcern.fsOpSetBuffer
  · rw [if_pos setBuffer]
    cases mapped with
    | none => exact .ret (idle [])
    | some page =>
      dsimp only
      split
      · exact .ret (tracked.follows _ rfl names [])
      · exact .ret (idle [])
  rw [if_neg setBuffer]
  by_cases setReply : r.w0 = Libpcern.fsOpSetReply
  · rw [if_pos setReply]
    split
    · exact .ret (tracked.follows _ rfl names [])
    · exact .ret (idle [])
  rw [if_neg setReply]
  by_cases openName1 : r.w0 = Libpcern.fsOpOpenName1
  · rw [if_pos openName1]
    have length : (le32 r.w1 ++ le32 r.w2).length = 8 := by simp [le32]
    exact .ret (tracked.follows { s with pendingNameLo := le32 r.w1 ++ le32 r.w2 } rfl length [])
  rw [if_neg openName1]
  by_cases openName2 : r.w0 = Libpcern.fsOpOpenName2
  · rw [if_pos openName2]
    split
    · exact .ret (idle [])
    · have fits : (s.pendingNameLo ++ (le32 r.w1).take 3).length = 11 := by simp [names, le32]
      refine .bind (.mono (does_open_tracked geo enough tracked fits fun creates sector matters => ?_) ?_)
      · exact spares sector (.inl ⟨openName2, of_decide_eq_true creates, matters⟩)
      intro found v' tracks
      cases found with
      | none =>
        refine .ret ⟨tracks _ rfl, names, fun _ file here => ?_⟩
        cases here
      | some file =>
        refine .ret ⟨tracks _ rfl, names, ?_⟩
        rintro ⟨reply, member, zero⟩
        rw [List.mem_singleton.mp member] at zero
        cases zero
  rw [if_neg openName2]
  by_cases read : r.w0 = Libpcern.fsOpRead
  · rw [if_pos read]
    split
    · exact .ret (idle [])
    split
    · exact .ret (idle _)
    cases opens : s.openFile with
    | none => exact .ret (idle _)
    | some file =>
      refine .bind fun d view => ((peeks_readFile b file _ _ _).ensures).mono ?_ fun _ _ _ _ may => may
      rintro ⟨n, client⟩ d' rfl
      rw [view]
      exact .ret (tracked.follows { s with clientBuf := client, openFile := some file } opens.symm names _)
  rw [if_neg read]
  by_cases write : r.w0 = Libpcern.fsOpWrite
  · rw [if_pos write]
    split
    · exact .ret (idle [])
    split
    · exact .ret (idle _)
    cases opens : s.openFile with
    | none => exact .ret (idle _)
    | some file =>
      obtain ⟨root, owned, steady, tracks⟩ := tracked
      obtain ⟨slot, within, begins, rfl⟩ := tracks file opens
      refine .bind (.mono (does_writeFile_together geo steady within begins ?_ ?_ ?_) fun out v' together =>
        .ret (together.follows within opens names))
      · exact fun before zero sector fresh => spares sector (.inr (.inl ⟨write, _, opens, before, .inl ⟨zero, fresh⟩⟩))
      · exact fun before changed => spares _ (.inr (.inl ⟨write, _, opens, before, .inr ⟨changed, rfl⟩⟩))
      · by_cases zero : v.start slot = 0
        · refine .inl fun empty => nonempty ⟨write, ?_, _, opens, zero⟩
          exact UInt32.toNat_inj.mp empty
        · exact .inr zero
  rw [if_neg write]
  by_cases truncate : r.w0 = Libpcern.fsOpTruncate
  · rw [if_pos truncate]
    split
    · exact .ret (idle [])
    cases opens : s.openFile with
    | none => exact .ret (idle _)
    | some file =>
      obtain ⟨root, owned, steady, tracks⟩ := tracked
      obtain ⟨slot, within, begins, rfl⟩ := tracks file opens
      refine .bind (.mono (does_truncateFile_together geo steady within begins fun less => ?_)
        fun out v' together => .ret (together.follows within opens names))
      exact spares _ (.inr (.inr ⟨truncate, _, opens, less, rfl⟩))
  rw [if_neg truncate]
  exact .ret (idle [])

end Messages

/-! ## Runs -/

section Runs
variable {b : Bpb} {fuel : Nat}

theorem Tracked.cached {x : Serving} (tracked : Tracked b (vol b x.disk) x.server) : Cached x := by
  obtain ⟨root, owned, steady, tracks⟩ := tracked
  intro file opens
  obtain ⟨slot, within, _, rfl⟩ := tracks file opens
  have place := mem_slots.mp within
  have data : (vol b x.disk).data slot.cluster slot.sector = x.disk (sectorOf b slot.cluster slot.sector) :=
    if_pos ⟨(steady.rooted _ place.1).1, place.2.1⟩
  simp only [opened, Vol.start, Vol.size, data]
  exact ⟨rfl, rfl⟩

theorem Tracked.serve (geo : Geometry b) (enough : b.maxCluster ≤ fuel) {x : Serving} (tracked : Tracked b (vol b x.disk) x.server)
    (names : x.server.pendingNameLo.length = 8) {r : Round} (met : Undisturbed b fuel x r) :
    ∃ x' replies, r.serve b fuel x = some (x', replies) ∧ Tracked b (vol b x'.disk) x'.server ∧ x'.server.pendingNameLo.length = 8 ∧
      KeptOnFailure x x' replies := by
  have tracked' : Tracked b (vol b x.disk) { x.server with clientBuf := r.page } := tracked.same rfl
  have does : Does b ⟨True, False, Matters b (vol b x.disk) x.server r.message⟩ (fun _ => True)
      (Follows b { x.server with clientBuf := r.page })
      (handle b fuel { x.server with clientBuf := r.page } r.message r.mapped) (vol b x.disk) :=
    does_handle_follows geo enough tracked' names r.mapped (fun _ matters => matters) met.2
  obtain ⟨⟨server, replies⟩, result, tracks, length, kept⟩ := does.result id (.inr ⟨trivial, met.1⟩)
  refine ⟨⟨_, server⟩, replies, ?_, tracks, length, kept⟩
  rw [Round.serve, result]
  rfl

theorem Served.tracked (geo : Geometry b) (enough : b.maxCluster ≤ fuel) {d : Disk} (valid : Valid b (vol b d)) {x : Serving}
    (served : Served b fuel (Undisturbed b fuel) d x) : Tracked b (vol b x.disk) x.server ∧ x.server.pendingNameLo.length = 8 := by
  induction served with
  | start =>
    refine ⟨⟨_, _, valid.steady, fun file opens => ?_⟩, rfl⟩
    cases opens
  | round before met ran ih =>
    obtain ⟨x', replies, ran', tracks, length, _⟩ := ih.1.serve geo enough ih.2 met
    cases ran.symm.trans ran'
    exact ⟨tracks, length⟩

end Runs

/-- On a well-formed volume the open file is what its directory entry says, after every sequence of messages of which
    none is disturbed by a failure of an access that matters to it; and the next such message is served, agrees with the
    entry again, and has left the file as it was if it is answered with 0. -/
theorem cached_of_undisturbed {b : Bpb} {fuel : Nat} (geo : Geometry b) (enough : b.maxCluster ≤ fuel) {d : Disk} (valid : Valid b (vol b d))
    {x : Serving} (served : Served b fuel (Undisturbed b fuel) d x) :
    Cached x ∧ ∀ r, Undisturbed b fuel x r → ∃ x' replies, r.serve b fuel x = some (x', replies) ∧ Cached x' ∧ KeptOnFailure x x' replies := by
  obtain ⟨tracked, names⟩ := served.tracked geo enough valid
  refine ⟨tracked.cached, fun r met => ?_⟩
  obtain ⟨x', replies, ran, tracks, _, kept⟩ := tracked.serve geo enough names met
  exact ⟨x', replies, ran, tracks.cached, kept⟩

def serveRounds (b : Bpb) (fuel : Nat) : List Round → Serving → Option Serving
  | [], x => some x
  | r :: rest, x => (r.serve b fuel x).bind fun out => serveRounds b fuel rest out.1

theorem Served.all {b : Bpb} {fuel : Nat} {meets : Serving → Round → Prop} {d : Disk} {rounds : List Round}
    (met : ∀ r ∈ rounds, ∀ x, meets x r) {x x' : Serving} (served : Served b fuel meets d x)
    (ran : serveRounds b fuel rounds x = some x') : Served b fuel meets d x' := by
  induction rounds generalizing x with
  | nil =>
    cases ran
    exact served
  | cons r rest ih =>
    obtain ⟨⟨y, replies⟩, first, later⟩ := Option.bind_eq_some_iff.mp ran
    exact ih (fun r' member => met r' (List.mem_cons_of_mem r member)) (.round served (met r List.mem_cons_self x) first) later

/-- The file A of 600 bytes is opened and cut to 100 bytes, with a pattern of failures for the last message. -/
def cutRounds (fails : Nat → Bool) : List Round :=
  [⟨⟨9, Libpcern.fsOpSetReply, 0, 0, 7⟩, none, fun _ => 0, allWell⟩,
    ⟨⟨9, Libpcern.fsOpOpenName1, 0x20202041, 0x20202020, 0⟩, none, fun _ => 0, allWell⟩,
    ⟨⟨9, Libpcern.fsOpOpenName2, 0x202020, 0, 0⟩, none, fun _ => 0, allWell⟩,
    ⟨⟨9, Libpcern.fsOpTruncate, 100, 0, 0⟩, none, fun _ => 0, fails⟩]

theorem cut_cached : ∃ x, serveRounds smallBpb 7 (cutRounds allWell) ⟨smallDisk, .init⟩ = some x ∧ Cached x := by
  have runs : (serveRounds smallBpb 7 (cutRounds allWell) ⟨smallDisk, .init⟩).isSome := by decide +kernel
  obtain ⟨x, ran⟩ := Option.isSome_iff_exists.mp runs
  have met : ∀ r ∈ cutRounds allWell, ∀ x, Undisturbed smallBpb 7 x r := by
    simp [cutRounds, Undisturbed, Prog.lost_allWell, Libpcern.fsOpSetReply, Libpcern.fsOpOpenName1, Libpcern.fsOpOpenName2,
      Libpcern.fsOpTruncate, Libpcern.fsOpWrite]
  exact ⟨x, ran, (cached_of_undisturbed smallBpb_geometry (Nat.le_refl 7) smallDisk_valid (.all met .start ran)).1⟩

/-- The entry is read and cannot be written. The file is cut to 100 bytes in the server only, and the answer is 0. -/
theorem cut_diverges : ∃ x, Served smallBpb 7 (fun _ _ => True) smallDisk x ∧ ¬Cached x := by
  have sizes : (serveRounds smallBpb 7 (cutRounds (· == 1)) ⟨smallDisk, .init⟩).bind (fun x => x.server.openFile.map fun file =>
      (file.size, sizeAt (x.disk file.dirent.sector) file.dirent.offset)) = some (100, 600) := by
    decide +kernel
  obtain ⟨x, ran, sizes⟩ := Option.bind_eq_some_iff.mp sizes
  obtain ⟨file, opens, sizes⟩ := Option.map_eq_some_iff.mp sizes
  refine ⟨x, .all (fun _ _ _ => trivial) .start ran, fun cached => ?_⟩
  have agrees := (cached file opens).2
  rw [(Prod.mk.inj sizes).1, (Prod.mk.inj sizes).2] at agrees
  cases agrees

end Pcern.Fat32

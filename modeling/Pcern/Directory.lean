import Pcern.Volume
import Pcern.Chains

/-!
The root directory as a list of slots. The walk of `find_in_root` and `find_free_root_slot` is a search through the
slots of the chain from the root cluster on, in order.
-/
namespace Pcern.Fat32

open Bytes Blocks Chains

/-- The place of a directory entry: entry `index` of sector `sector` of a cluster. -/
structure Slot where
  cluster : Nat
  sector : Nat
  index : Nat
  deriving DecidableEq, Repr

def sectorSlots (c s : Nat) : List Slot := (List.range 16).map fun e => { cluster := c, sector := s, index := e }

def clusterSlots (b : Bpb) (c : Nat) : List Slot := (List.range b.sectorsPerCluster).flatMap (sectorSlots c)

/-- The slots of a directory whose chain is `root`. -/
def slots (b : Bpb) (root : List Nat) : List Slot := root.flatMap (clusterSlots b)

def Slot.offset (slot : Slot) : Nat := slot.index * direntSize

def Slot.loc (b : Bpb) (slot : Slot) : DirLoc := { sector := sectorOf b slot.cluster slot.sector, offset := slot.offset }

def verdict {β : Type} (b : Bpb) (decides : Nat → Sector → Nat → Option β) (v : Vol) (slot : Slot) : Option β :=
  decides (sectorOf b slot.cluster slot.sector) (v.data slot.cluster slot.sector) slot.offset

theorem mem_clusterSlots {b : Bpb} {c : Nat} {slot : Slot} :
    slot ∈ clusterSlots b c ↔ slot.cluster = c ∧ slot.sector < b.sectorsPerCluster ∧ slot.index < 16 := by
  simp only [clusterSlots, sectorSlots, List.mem_flatMap, List.mem_map, List.mem_range]
  constructor
  · rintro ⟨s, inside, e, small, rfl⟩
    exact ⟨rfl, inside, small⟩
  · rintro ⟨rfl, inside, small⟩
    exact ⟨slot.sector, inside, slot.index, small, rfl⟩

theorem clusterSlots_eq_cons {b : Bpb} (sectors : 0 < b.sectorsPerCluster) (c : Nat) :
    ∃ rest, clusterSlots b c = { cluster := c, sector := 0, index := 0 } :: rest := by
  obtain ⟨n, some⟩ := Nat.exists_eq_add_of_lt sectors
  exact ⟨_, by simp [clusterSlots, sectorSlots, some, List.range_succ_eq_map]; rfl⟩

theorem mem_slots {b : Bpb} {root : List Nat} {slot : Slot} :
    slot ∈ slots b root ↔ slot.cluster ∈ root ∧ slot.sector < b.sectorsPerCluster ∧ slot.index < 16 := by
  simp only [slots, List.mem_flatMap, mem_clusterSlots]
  constructor
  · rintro ⟨c, member, rfl, inside⟩
    exact ⟨member, inside⟩
  · rintro ⟨member, inside⟩
    exact ⟨_, member, rfl, inside⟩

/-! ## Walks on any disk -/

/-- The link of a cluster on the disk, as `next_cluster` computes it for any number. -/
def linkOn (b : Bpb) (d : Disk) (c : Nat) : Option Nat :=
  let raw := read32 (d (add32 b.fatBeginSector (mul32 c 4 / 512))) (mul32 c 4 % 512) &&& 0x0FFFFFFF
  if raw ≥ eocMin ∨ raw < 2 then none else some raw

/-- What a walk makes of a slot, wherever the arithmetic of the server finds it. -/
def verdictOn {β : Type} (b : Bpb) (d : Disk) (decides : Nat → Sector → Nat → Option β) (slot : Slot) : Option β :=
  let sector := add32 (clusterToSector b slot.cluster) slot.sector
  decides sector (d sector) slot.offset

section Disks
variable {β : Type} {b : Bpb} {m : Mode} {may : Disk → Purpose → Nat → Sector → Prop} {d : Disk}
  {decides : Nat → Sector → Nat → Option β}

private theorem ensures_nextCluster (c : Nat) :
    Ensures m may (fun r d' => d' = d ∧ (r = linkOn b d c ∨ m.fails ∧ r = none)) (nextCluster b c) d := by
  refine ⟨?_, fun fails _ => ⟨rfl, .inr ⟨fails, rfl⟩⟩⟩
  change Ensures _ _ _ (if _ then pure none else pure (some _)) d
  unfold linkOn
  dsimp only
  split
  · exact ⟨rfl, .inl rfl⟩
  · exact ⟨rfl, .inl rfl⟩

private theorem ensures_scanSectors (decides : Nat → Sector → Nat → Option β) (c count s : Nat) :
    Ensures m may (fun r d' => d' = d ∧
        (r = some (((List.range' s count).flatMap (sectorSlots c)).findSome? (verdictOn b d decides)) ∨ m.fails ∧ r = none))
      (scanSectors decides (clusterToSector b c) count s) d := by
  induction count generalizing s with
  | zero => exact ⟨rfl, .inl rfl⟩
  | succ count ih =>
    have here : (sectorSlots c s).findSome? (verdictOn b d decides) = (List.range (sectorSize / direntSize)).findSome? fun e =>
        decides (add32 (clusterToSector b c) s) (d (add32 (clusterToSector b c) s)) (e * direntSize) := by
      rw [sectorSlots, List.findSome?_map]
      rfl
    rw [List.range'_succ, List.flatMap_cons, List.findSome?_append, here]
    refine ⟨?_, fun fails _ => ⟨rfl, .inr ⟨fails, rfl⟩⟩⟩
    simp only [Prog.bind]
    split
    · rename_i x first
      rw [first]
      exact ⟨rfl, .inl rfl⟩
    · rename_i first
      rw [first]
      exact ih (s + 1)

/-- One step of a walk: it searches the slots of a cluster, and goes on to the next one if there is one. -/
theorem ensures_walkRoot {Q : Walked β → Disk → Prop} {fuel c : Nat}
    (decided : ∀ x, (clusterSlots b c).findSome? (verdictOn b d decides) = some x → Q (.decided x) d)
    (goes : (clusterSlots b c).findSome? (verdictOn b d decides) = none → ∀ c', linkOn b d c = some c' →
      Ensures m may Q (walkRoot b decides fuel c') d)
    (ends : (clusterSlots b c).findSome? (verdictOn b d decides) = none → linkOn b d c = none ∨ m.fails → Q (.ended c) d)
    (unread : m.fails → Q .unread d) : Ensures m may Q (walkRoot b decides (fuel + 1) c) d := by
  have scan : Ensures m may _ (scanSectors decides (clusterToSector b c) b.sectorsPerCluster 0) d := ensures_scanSectors decides c _ 0
  rw [← List.range_eq_range', ← clusterSlots] at scan
  refine ensures_bind.mpr (scan.mono ?_ fun _ _ _ _ may => may)
  rintro r d' ⟨rfl, rfl | ⟨fails, rfl⟩⟩
  · cases verdict : (clusterSlots b c).findSome? (verdictOn b d' decides) with
    | some x => exact decided x verdict
    | none =>
      refine ensures_bind.mpr ((ensures_nextCluster c).mono ?_ fun _ _ _ _ may => may)
      rintro r d'' ⟨rfl, rfl | ⟨fails, rfl⟩⟩
      · cases link : linkOn b d'' c with
        | some c' => exact goes verdict c' link
        | none => exact ends verdict (.inl link)
      · exact ends verdict (.inr fails)
  · exact unread fails

end Disks

/-! ## Walks on a volume -/

section Walk
variable {β : Type} {b : Bpb} {m : Mode} {J : Vol → Prop} {v : Vol} (geo : Geometry b)
  {decides : Nat → Sector → Nat → Option β} {Q : Walked β → Vol → Prop}
include geo

private theorem does_walk {c fuel : Nat} (has : b.Has c)
    (decided : ∀ x, (clusterSlots b c).findSome? (verdict b decides v) = some x → Q (.decided x) v)
    (goes : (clusterSlots b c).findSome? (verdict b decides v) = none → ∀ c', v.link c = some c' →
      Does b m J Q (walkRoot b decides fuel c') v)
    (ends : (clusterSlots b c).findSome? (verdict b decides v) = none → v.link c = none ∨ m.fails → Q (.ended c) v)
    (unread : m.fails → Q .unread v) : Does b m J Q (walkRoot b decides (fuel + 1) c) v := by
  rintro d rfl
  have link : linkOn b d c = (vol b d).link c := by
    rw [Vol.link, ← geo.fat_eq has.2]
    rfl
  have verdicts : (clusterSlots b c).map (verdictOn b d decides) = (clusterSlots b c).map (verdict b decides (vol b d)) := by
    refine List.map_congr_left fun slot member => ?_
    obtain ⟨rfl, inside, _⟩ := mem_clusterSlots.mp member
    have here : (vol b d).data slot.cluster slot.sector = d (sectorOf b slot.cluster slot.sector) := if_pos ⟨has, inside⟩
    rw [verdictOn, geo.dataAddress has inside, verdict, here]
  have same := congrArg (List.findSome? id) verdicts
  simp only [List.findSome?_map, Function.id_comp] at same
  rw [← same] at decided goes ends
  rw [← link] at goes ends
  exact ensures_walkRoot decided (fun nothing c' next => goes nothing c' next d rfl) ends unread

theorem does_walkRoot {root : List Nat} {c : Nat} (chain : ChainFrom v.link c root)
    (has : ∀ x ∈ root, b.Has x) {fuel : Nat} (enough : root.length ≤ fuel)
    (decided : ∀ x, (slots b root).findSome? (verdict b decides v) = some x → Q (.decided x) v)
    (ends : (slots b root).findSome? (verdict b decides v) = none → ∀ z, root.getLast? = some z → Q (.ended z) v)
    (unread : m.fails → Q .unread v)
    (cut : m.fails → ∀ front z back, root = front ++ z :: back →
      (slots b (front ++ [z])).findSome? (verdict b decides v) = none → Q (.ended z) v) :
    Does b m J Q (walkRoot b decides fuel c) v := by
  induction chain generalizing fuel with
  | @last c stops =>
    obtain ⟨fuel, rfl⟩ := Nat.exists_eq_add_of_le' enough
    rw [slots, List.flatMap_singleton] at decided ends
    refine does_walk geo (has c (by simp)) decided (fun _ c' goes => ?_) (fun nothing _ => ends nothing c rfl) unread
    cases stops.symm.trans goes
  | @link c c' xs goes rest ih =>
    obtain ⟨fuel, rfl⟩ := Nat.exists_eq_add_of_le' (Nat.le_trans (Nat.le_add_left 1 _) enough)
    rw [slots, List.flatMap_cons, List.findSome?_append, ← slots] at decided ends
    refine does_walk geo (has c (by simp)) (fun x found => decided x (by rw [found]; rfl)) (fun nothing c'' next => ?_)
      (fun nothing stops => ?_) unread
    · cases goes.symm.trans next
      rw [nothing, Option.none_or] at decided ends
      refine ih (fun x member => has x (List.mem_cons_of_mem _ member)) (by simpa using enough) decided ?_ ?_
      · intro none z last
        refine ends none z ?_
        rw [List.getLast?_cons, last]
        rfl
      · intro fails front z back split none
        refine cut fails (c :: front) z back (by rw [split]; rfl) ?_
        rw [slots, List.cons_append, List.flatMap_cons, List.findSome?_append, nothing, Option.none_or]
        exact none
    · refine cut (stops.resolve_left (by rw [goes]; nofun)) [] c xs rfl ?_
      rw [List.nil_append, slots, List.flatMap_singleton]
      exact nothing

end Walk

end Pcern.Fat32

import Mathlib.Data.List.Nodup
import Mathlib.Data.Nat.Bitwise
import Pcern.Fat32

/-!
The volume behind the sectors. `vol` reads a disk as a table of links (the first copy) and the sectors of the
clusters; `Does` states what a program of the server does to that view, whatever else is on the disk. All arithmetic on
sector numbers is in the rules for single accesses, and everything above works with clusters.
-/
namespace Pcern.Fat32

open Bytes Blocks

/-- The regions of the volume follow each other without wrapping: two copies of a table that covers every cluster, then
    the clusters. No cluster number is that of an end of chain. -/
structure Geometry (b : Bpb) : Prop where
  sectors : 0 < b.sectorsPerCluster
  byte : b.sectorsPerCluster < 256
  table : (b.maxCluster + 1) * 4 ≤ b.fatSz32 * 512
  copies : b.fatBeginSector + 2 * b.fatSz32 ≤ b.firstDataSector
  data : b.firstDataSector + (b.maxCluster - 1) * b.sectorsPerCluster ≤ 2 ^ 32
  numbers : b.maxCluster < 0x0FFFFFF8

def Bpb.Has (b : Bpb) (c : Nat) : Prop := 2 ≤ c ∧ c ≤ b.maxCluster

instance (b : Bpb) (c : Nat) : Decidable (b.Has c) := inferInstanceAs (Decidable (_ ∧ _))

def sectorOf (b : Bpb) (c s : Nat) : Nat := b.firstDataSector + (c - 2) * b.sectorsPerCluster + s

/-- The sector of the second copy of the table that a cluster's entry is in. -/
def mirrorOf (b : Bpb) (c : Nat) : Nat := b.fatBeginSector + b.fatSz32 + c * 4 / 512

/-- The allocation table and the sectors of the clusters. -/
@[ext] structure Vol where
  fat : Nat → Nat
  data : Nat → Nat → Sector

/-- The volume on a disk. -/
def vol (b : Bpb) (d : Disk) : Vol where
  fat c := if c ≤ b.maxCluster then read32 (d (b.fatBeginSector + c * 4 / 512)) (c * 4 % 512) % 2 ^ 28 else 0
  data c s := if b.Has c ∧ s < b.sectorsPerCluster then d (sectorOf b c s) else fun _ => 0

namespace Vol

def setFat (v : Vol) (c value : Nat) : Vol := { v with fat := Function.update v.fat c value }

def setData (v : Vol) (c s : Nat) (sector : Sector) : Vol :=
  { v with data := Function.update v.data c (Function.update (v.data c) s sector) }

/-- The successor of a cluster in its chain. -/
def link (v : Vol) (c : Nat) : Option Nat := if v.fat c ≥ eocMin ∨ v.fat c < 2 then none else some (v.fat c)

theorem setFat_fat (v : Vol) (c value x : Nat) : (v.setFat c value).fat x = if x = c then value else v.fat x := by
  simp [setFat, Function.update_apply]

theorem setData_data (v : Vol) (c s : Nat) (sector : Sector) (c' s' : Nat) :
    (v.setData c s sector).data c' s' = if c' = c ∧ s' = s then sector else v.data c' s' := by
  by_cases same : c' = c
  · subst same
    simp [setData, Function.update_apply]
  · simp [setData, same]

theorem setFat_link_other (v : Vol) {c x : Nat} (value : Nat) (other : x ≠ c) : (v.setFat c value).link x = v.link x := by
  simp [link, setFat_fat, other]

theorem setFat_link_eoc (v : Vol) (c : Nat) : (v.setFat c eocMin).link c = none := by
  simp [link, setFat_fat]

theorem setFat_link_same (v : Vol) (c : Nat) {f : Nat} (low : 2 ≤ f) (high : f < 0x0FFFFFF8) :
    (v.setFat c f).link c = some f := by
  have middle : ¬(f ≥ eocMin ∨ f < 2) := not_or.mpr ⟨Nat.not_le.mpr high, Nat.not_lt.mpr low⟩
  rw [link, setFat_fat, if_pos rfl, if_neg middle]

end Vol

/-! ## Sector numbers -/

section Numbers
variable {b : Bpb} (geo : Geometry b) {c s : Nat}
include geo

theorem Geometry.fatOffset (inside : c ≤ b.maxCluster) : mul32 c 4 = c * 4 := by
  have := geo.numbers
  exact Nat.mod_eq_of_lt (by omega)

theorem Geometry.fatSector (inside : c ≤ b.maxCluster) : c * 4 / 512 < b.fatSz32 := by
  have := geo.table
  omega

theorem Geometry.fatAddress (inside : c ≤ b.maxCluster) :
    add32 b.fatBeginSector (c * 4 / 512) = b.fatBeginSector + c * 4 / 512 := by
  have := geo.fatSector inside
  have := geo.copies
  have := geo.data
  exact Nat.mod_eq_of_lt (by omega)

theorem Geometry.mirrorAddress (inside : c ≤ b.maxCluster) :
    add32 (add32 b.fatBeginSector b.fatSz32) (c * 4 / 512) = b.fatBeginSector + b.fatSz32 + c * 4 / 512 := by
  have := geo.fatSector inside
  have := geo.copies
  have := geo.data
  rw [add32, add32, Nat.mod_eq_of_lt (a := b.fatBeginSector + b.fatSz32) (by omega)]
  exact Nat.mod_eq_of_lt (by omega)

theorem Geometry.sectorOf_lt (has : b.Has c) (inside : s < b.sectorsPerCluster) : sectorOf b c s < 2 ^ 32 := by
  have data := geo.data
  have rows : (c - 2) * b.sectorsPerCluster + b.sectorsPerCluster ≤ (b.maxCluster - 1) * b.sectorsPerCluster := by
    rw [← Nat.succ_mul]
    exact Nat.mul_le_mul_right _ (by have := has.1; have := has.2; omega)
  unfold sectorOf
  omega

theorem Geometry.clusterToSector (has : b.Has c) : clusterToSector b c = sectorOf b c 0 := by
  have low := has.1
  have small := geo.sectorOf_lt has geo.sectors
  have numbers := geo.numbers
  have high := has.2
  unfold sectorOf at small
  have cluster : sub32 c 2 = c - 2 := by
    unfold sub32
    omega
  rw [Fat32.clusterToSector, cluster, mul32, Nat.mod_eq_of_lt (a := (c - 2) * b.sectorsPerCluster) (by omega), add32,
    Nat.mod_eq_of_lt (by omega)]
  rfl

theorem Geometry.dataAddress (has : b.Has c) (inside : s < b.sectorsPerCluster) :
    add32 (Fat32.clusterToSector b c) s = sectorOf b c s := by
  have small := geo.sectorOf_lt has inside
  rw [geo.clusterToSector has, add32]
  exact Nat.mod_eq_of_lt small

theorem Geometry.clusterSize : clusterSizeBytes b = b.sectorsPerCluster * 512 := by
  have := geo.byte
  refine Nat.mod_eq_of_lt (a := b.sectorsPerCluster * 512) ?_
  omega

theorem Geometry.sectorOf_inj {c' s' : Nat} (has : b.Has c) (has' : b.Has c') (inside : s < b.sectorsPerCluster)
    (inside' : s' < b.sectorsPerCluster) (same : sectorOf b c s = sectorOf b c' s') : c = c' ∧ s = s' := by
  unfold sectorOf at same
  have low := has.1
  have low' := has'.1
  have rows : s + b.sectorsPerCluster * (c - 2) = s' + b.sectorsPerCluster * (c' - 2) := by
    rw [Nat.mul_comm _ (c - 2), Nat.mul_comm _ (c' - 2)]
    omega
  have quotient := congrArg (· / b.sectorsPerCluster) rows
  have remainder := congrArg (· % b.sectorsPerCluster) rows
  simp only [Nat.add_mul_div_left _ _ geo.sectors, Nat.div_eq_of_lt inside, Nat.div_eq_of_lt inside'] at quotient
  simp only [Nat.add_mul_mod_self_left, Nat.mod_eq_of_lt inside, Nat.mod_eq_of_lt inside'] at remainder
  omega

end Numbers

/-! ## What a write changes -/

theorem merged_entry (old : Nat) {value : Nat} (small : value < 2 ^ 28) :
    ((old &&& 0xF0000000) ||| (value &&& 0x0FFFFFFF)) < 2 ^ 32 ∧
      ((old &&& 0xF0000000) ||| (value &&& 0x0FFFFFFF)) % 2 ^ 28 = value := by
  constructor
  · exact Nat.or_lt_two_pow (Nat.and_lt_two_pow _ (by decide)) (Nat.and_lt_two_pow _ (by decide))
  · have low : value &&& 0x0FFFFFFF = value := by
      rw [show (0x0FFFFFFF : Nat) = 2 ^ 28 - 1 from rfl, Nat.and_two_pow_sub_one_eq_mod, Nat.mod_eq_of_lt small]
    rw [low, Nat.or_mod_two_pow, Nat.mod_eq_of_lt small, ← Nat.and_two_pow_sub_one_eq_mod, Nat.and_assoc]
    simp

private theorem vol_data_other {b : Bpb} {a : Nat} (before : a < b.firstDataSector) (d : Disk) (sector : Sector) :
    (vol b (Function.update d a sector)).data = (vol b d).data := by
  funext x s
  by_cases within : b.Has x ∧ s < b.sectorsPerCluster
  · simp only [vol, if_pos within]
    rw [Function.update_of_ne]
    unfold sectorOf
    omega
  · simp only [vol, if_neg within]

section Writes
variable {b : Bpb} (geo : Geometry b) {c s : Nat}
include geo

private theorem vol_fat_other {a : Nat} (beyond : b.fatBeginSector + b.fatSz32 ≤ a) (d : Disk) (sector : Sector) :
    (vol b (Function.update d a sector)).fat = (vol b d).fat := by
  funext x
  by_cases within : x ≤ b.maxCluster
  · have := geo.fatSector within
    simp only [vol, if_pos within]
    rw [Function.update_of_ne (by omega)]
  · simp only [vol, if_neg within]

private theorem vol_writeFat (inside : c ≤ b.maxCluster) {d : Disk} {word value : Nat} (small : word < 2 ^ 32)
    (low : word % 2 ^ 28 = value) :
    vol b (Function.update d (b.fatBeginSector + c * 4 / 512)
      (write32 (d (b.fatBeginSector + c * 4 / 512)) (c * 4 % 512) word)) = (vol b d).setFat c value := by
  have place := geo.fatSector inside
  have copies := geo.copies
  refine Vol.ext (funext fun x => ?_) ?_
  · rw [Vol.setFat_fat]
    by_cases same : x = c
    · subst same
      rw [if_pos rfl]
      simp only [vol, if_pos inside]
      rw [Function.update_self, read32_write32_same _ _ small, low]
    · rw [if_neg same]
      by_cases within : x ≤ b.maxCluster
      · simp only [vol, if_pos within]
        rw [Function.update_apply]
        by_cases shared : b.fatBeginSector + x * 4 / 512 = b.fatBeginSector + c * 4 / 512
        · rw [if_pos shared, read32_write32_other _ _ _ (by omega), shared]
        · rw [if_neg shared]
      · simp only [vol, if_neg within]
  · exact vol_data_other (by omega) d _

private theorem vol_writeMirror (inside : c ≤ b.maxCluster) (d : Disk) (sector : Sector) :
    vol b (Function.update d (b.fatBeginSector + b.fatSz32 + c * 4 / 512) sector) = vol b d := by
  have place := geo.fatSector inside
  have copies := geo.copies
  exact Vol.ext (vol_fat_other geo (by omega) d sector) (vol_data_other (by omega) d sector)

private theorem vol_writeData (has : b.Has c) (inside : s < b.sectorsPerCluster) (d : Disk) (sector : Sector) :
    vol b (Function.update d (sectorOf b c s) sector) = (vol b d).setData c s sector := by
  have copies := geo.copies
  refine Vol.ext (vol_fat_other geo (by unfold sectorOf; omega) d sector) (funext fun x => funext fun y => ?_)
  rw [Vol.setData_data]
  by_cases within : b.Has x ∧ y < b.sectorsPerCluster
  · simp only [vol, if_pos within]
    by_cases same : x = c ∧ y = s
    · rw [if_pos same, same.1, same.2, Function.update_self]
    · rw [if_neg same, Function.update_of_ne fun equal => same (geo.sectorOf_inj within.1 has within.2 inside equal)]
  · have other : ¬(x = c ∧ y = s) := by
      rintro ⟨rfl, rfl⟩
      exact within ⟨has, inside⟩
    simp only [vol, if_neg within, if_neg other]

end Writes

/-! ## Programs on volumes -/

abbrev Mode := Blocks.Mode Nat

/-- From every disk with this view, the program ends in `Q`, and every disk on the way has a view with `J`. -/
def Does {α : Type} (b : Bpb) (m : Mode) (J : Vol → Prop) (Q : α → Vol → Prop) (p : Io α) (v : Vol) : Prop :=
  ∀ d, vol b d = v →
    Ensures m (fun d _ a sector => J (vol b (Function.update d a sector))) (fun a d' => Q a (vol b d')) p d

section Does
variable {α γ : Type} {b : Bpb} {m : Mode} {J : Vol → Prop} {v : Vol}

theorem Does.ret {Q : α → Vol → Prop} {a : α} (holds : Q a v) : Does b m J Q (pure a) v := by
  rintro d rfl
  exact holds

/-- The rule of sequencing. -/
theorem Does.bind {Q : α → Vol → Prop} {p : Io γ} {k : γ → Io α}
    (does : Does b m J (fun c v' => Does b m J Q (k c) v') p v) : Does b m J Q (p >>= k) v := by
  intro d view
  rw [ensures_bind]
  exact (does d view).mono (fun c d' later => later d' rfl) fun _ _ _ _ may => may

theorem Does.mono {Q Q' : α → Vol → Prop} {p : Io α} (does : Does b m J Q p v) (weaker : ∀ a v, Q a v → Q' a v) :
    Does b m J Q' p v :=
  fun d view => (does d view).mono (fun a d' => weaker a (vol b d')) fun _ _ _ _ may => may

theorem Does.imp {J' : Vol → Prop} {Q Q' : α → Vol → Prop} {p : Io α} (does : Does b m J Q p v) (allows : ∀ v, J v → J' v)
    (weaker : ∀ a v, Q a v → Q' a v) : Does b m J' Q' p v :=
  fun d view => (does d view).mono (fun a d' => weaker a (vol b d')) fun _ _ _ _ => allows _

theorem Does.and {J' : Vol → Prop} {Q Q' : α → Vol → Prop} {p : Io α} (first : Does b m J Q p v) (second : Does b m J' Q' p v) :
    Does b m J (fun a v' => Q a v' ∧ Q' a v') p v :=
  fun d view => (first d view).and (second d view)

theorem Does.forget {Q : α → Vol → Prop} {p : Io α} (does : Does b m J Q p v) : Does b m (fun _ => True) Q p v :=
  does.imp (fun _ _ => trivial) fun _ _ holds => holds

/-- What a program that is done has come to. -/
theorem Does.result {Q : α → Vol → Prop} {p : Io α} {d : Disk} (does : Does b m J Q p (vol b d)) (ends : ¬m.spins) {fails : Nat → Bool}
    (pattern : m.Allows p fails d) : ∃ a, (p.run fails d).result = some a ∧ Q a (vol b (p.run fails d).disk) :=
  (does d rfl).result ends pattern

/-- What holds of a volume wherever the program is cut off. -/
theorem Does.cut {Q : α → Vol → Prop} {p : Io α} {d : Disk} (does : Does b m J Q p (vol b d)) (start : J (vol b d)) (k : Nat) :
    J (vol b (written d ((p.run allWell d).writes.take k))) :=
  Ensures.cut (J := fun d => J (vol b d)) (does d rfl) start k

theorem does_readData {c s : Nat} {Q : Option Sector → Vol → Prop} (has : b.Has c) (inside : s < b.sectorsPerCluster)
    (reads : Q (some (v.data c s)) v) (misses : m.fails → ¬m.spared (sectorOf b c s) → Q none v) :
    Does b m J Q (readSector (sectorOf b c s)) v := by
  rintro d rfl
  have here : (vol b d).data c s = d (sectorOf b c s) := if_pos ⟨has, inside⟩
  exact ⟨here ▸ reads, misses⟩

variable (geo : Geometry b) {c s : Nat}
include geo

theorem Geometry.fat_eq (inside : c ≤ b.maxCluster) (d : Disk) :
    read32 (d (add32 b.fatBeginSector (mul32 c 4 / sectorSize))) (mul32 c 4 % sectorSize) &&& 0x0FFFFFFF = (vol b d).fat c := by
  rw [geo.fatOffset inside, geo.fatAddress inside, show (0x0FFFFFFF : Nat) = 2 ^ 28 - 1 from rfl,
    Nat.and_two_pow_sub_one_eq_mod]
  simp only [vol, if_pos inside]

private theorem does_readFatEntry {Q : Option Nat → Vol → Prop} (inside : c ≤ b.maxCluster) (reads : Q (some (v.fat c)) v)
    (misses : m.fails → Q none v) : Does b m J Q (readFatEntry b c) v := by
  rintro d rfl
  refine ⟨?_, fun fails _ => misses fails⟩
  change Q (some _) _
  rw [geo.fat_eq inside]
  exact reads

theorem does_nextCluster {Q : Option Nat → Vol → Prop} (inside : c ≤ b.maxCluster) (reads : Q (v.link c) v)
    (misses : m.fails → Q none v) : Does b m J Q (nextCluster b c) v := by
  refine .bind (does_readFatEntry geo inside ?_ fun fails => .ret (misses fails))
  dsimp only
  rw [Vol.link] at reads
  split
  · rename_i ends
    rw [if_pos ends] at reads
    exact .ret reads
  · rename_i goes
    rw [if_neg goes] at reads
    exact .ret reads

theorem does_nextCluster_last {Q : Option Nat → Vol → Prop} (inside : c ≤ b.maxCluster) (ends : v.link c = none) (stays : Q none v) :
    Does b m J Q (nextCluster b c) v := by
  refine does_nextCluster geo inside ?_ fun _ => stays
  rw [ends]
  exact stays

variable {value : Nat} {Q : Bool → Vol → Prop}

private theorem does_writeFatCopy (inside : c ≤ b.maxCluster) (small : value < 2 ^ 28)
    (passes : J (v.setFat c value)) (writes : Q true (v.setFat c value)) (misses : m.fails → Q false v) :
    Does b m J Q (writeFatCopy b.fatBeginSector c value) v := by
  rintro d rfl
  have merged := merged_entry (read32 (d (b.fatBeginSector + c * 4 / 512)) (c * 4 % 512)) small
  have after := vol_writeFat geo inside (d := d) merged.1 merged.2
  rw [← geo.fatAddress inside, ← geo.fatOffset inside] at after
  exact ⟨⟨(congrArg J after).mpr passes, (congrArg (Q true) after).mpr writes, fun fails _ => misses fails⟩, fun fails _ => misses fails⟩

private theorem does_writeMirror (inside : c ≤ b.maxCluster) (passes : J v) (writes : Q true v)
    (misses : m.fails → ¬m.spared (mirrorOf b c) → Q false v) :
    Does b m J Q (writeFatCopy (add32 b.fatBeginSector b.fatSz32) c value) v := by
  rintro d rfl
  have after := vol_writeMirror geo inside d
  unfold mirrorOf at misses
  rw [← geo.mirrorAddress inside, ← geo.fatOffset inside] at after misses
  exact ⟨⟨(congrArg J (after _)).mpr passes, (congrArg (Q true) (after _)).mpr writes, misses⟩, misses⟩

/-- An entry is written to both tables; a failure leaves it in none or in the first. -/
theorem does_writeFatEntry (inside : c ≤ b.maxCluster) (small : value < 2 ^ 28)
    (passes : J (v.setFat c value)) (writes : Q true (v.setFat c value))
    (misses : m.fails → Q false v ∧ (¬m.spared (mirrorOf b c) → Q false (v.setFat c value))) :
    Does b m J Q (writeFatEntry b c value) v := by
  refine .bind (does_writeFatCopy geo inside small passes ?_ fun fails => .ret (misses fails).1)
  exact does_writeMirror geo inside passes writes fun fails => (misses fails).2

theorem does_writeData (has : b.Has c) (inside : s < b.sectorsPerCluster) {purpose : Purpose}
    {sector : Sector} (passes : J (v.setData c s sector)) (writes : Q true (v.setData c s sector))
    (misses : m.fails → ¬m.spared (sectorOf b c s) → Q false v) :
    Does b m J Q (writeSector purpose (sectorOf b c s) sector) v := by
  rintro d rfl
  have after := vol_writeData geo has inside d sector
  exact ⟨(congrArg J after).mpr passes, (congrArg (Q true) after).mpr writes, misses⟩

end Does

/-! ## Allocation -/

/-- The cluster that the scan for a free one finds. -/
def Vol.firstFree (b : Bpb) (v : Vol) : Option Nat := (List.range' 2 (b.maxCluster - 1)).find? fun c => v.fat c = 0

section Allocation
variable {b : Bpb} {m : Mode} {J : Vol → Prop} {v : Vol} (geo : Geometry b)

theorem Vol.firstFree_spec {f : Nat} (found : v.firstFree b = some f) : b.Has f ∧ v.fat f = 0 := by
  have member := List.mem_of_find?_eq_some found
  have free := List.find?_some found
  rw [List.mem_range'_1] at member
  refine ⟨⟨member.1, ?_⟩, of_decide_eq_true free⟩
  omega

include geo

private theorem does_allocFrom {Q : Option Nat → Vol → Prop} (count c : Nat) (inside : c + count ≤ b.maxCluster + 1)
    (full : (List.range' c count).find? (fun c => v.fat c = 0) = none → Q none v)
    (takes : ∀ f, (List.range' c count).find? (fun c => v.fat c = 0) = some f →
      J (v.setFat f eocMin) ∧ Q (some f) (v.setFat f eocMin) ∧ (m.fails → Q none (v.setFat f eocMin)))
    (misses : m.fails → Q none v) : Does b m J Q (allocFrom b count c) v := by
  induction count generalizing c with
  | zero => exact .ret (full rfl)
  | succ count ih =>
    rw [List.range'_succ] at full takes
    refine .bind (does_readFatEntry geo (by omega) ?_ fun fails => .ret (misses fails))
    cases entry : v.fat c with
    | zero =>
      rw [List.find?_cons_of_pos (by simp [entry])] at takes
      obtain ⟨passes, writes, loses⟩ := takes c rfl
      exact .bind (does_writeFatEntry geo (by omega) (by decide) passes (.ret writes)
        fun fails => ⟨.ret (misses fails), fun _ => .ret (loses fails)⟩)
    | succ n =>
      rw [List.find?_cons_of_neg (by simp [entry])] at full takes
      exact ih (c + 1) (by omega) full takes

/-- The first free cluster is marked as the end of a chain. -/
theorem does_allocCluster {Q : Option Nat → Vol → Prop} (full : v.firstFree b = none → Q none v)
    (takes : ∀ f, v.firstFree b = some f →
      J (v.setFat f eocMin) ∧ Q (some f) (v.setFat f eocMin) ∧ (m.fails → Q none (v.setFat f eocMin)))
    (misses : m.fails → Q none v) : Does b m J Q (allocCluster b) v := by
  by_cases few : b.maxCluster = 0
  · have none : b.maxCluster - 1 = 0 := by omega
    rw [Vol.firstFree, none] at full
    rw [allocCluster, none]
    exact .ret (full rfl)
  · exact does_allocFrom geo (b.maxCluster - 1) 2 (by omega) full takes misses

end Allocation

/-! ## The free clusters -/

def Vol.free (b : Bpb) (v : Vol) : Nat := (List.range' 2 (b.maxCluster - 1)).countP fun c => v.fat c = 0

section Free
variable {b : Bpb} {v v' : Vol} {f c : Nat}

theorem Vol.free_congr (same : ∀ c, v'.fat c = 0 ↔ v.fat c = 0) : v'.free b = v.free b :=
  List.countP_congr fun c _ => by simp [same c]

theorem Vol.free_setFat_other (taken : v.fat c ≠ 0) {value : Nat} (mark : value ≠ 0) : (v.setFat c value).free b = v.free b := by
  refine Vol.free_congr fun x => ?_
  rw [Vol.setFat_fat]
  split
  · rename_i same
    rw [same]
    exact iff_of_false mark taken
  · rfl

theorem Vol.free_setFat (value : Nat) (has : b.Has f) (free : v.fat f = 0) (mark : value ≠ 0) : (v.setFat f value).free b + 1 = v.free b := by
  have member : f ∈ List.range' 2 (b.maxCluster - 1) := by
    have low := has.1
    have high := has.2
    exact List.mem_range'_1.mpr ⟨low, by omega⟩
  obtain ⟨front, back, split⟩ := List.append_of_mem member
  have nodup : (front ++ f :: back).Nodup := split ▸ List.nodup_range'
  rw [List.nodup_middle, List.nodup_cons, List.mem_append, not_or] at nodup
  have same : ∀ xs : List Nat, f ∉ xs → xs.countP (fun c => (v.setFat f value).fat c = 0) = xs.countP fun c => v.fat c = 0 := by
    intro xs outside
    refine List.countP_congr fun c within => ?_
    have other : c ≠ f := fun here => outside (here ▸ within)
    simp [Vol.setFat_fat, other]
  rw [Vol.free, Vol.free, split, List.countP_append, List.countP_append, List.countP_cons, List.countP_cons, same front nodup.1.1,
    same back nodup.1.2]
  simp [Vol.setFat_fat, free, mark]
  omega

theorem Vol.free_pos : 0 < v.free b ↔ (v.firstFree b).isSome := by
  rw [Vol.free, List.countP_pos_iff, Vol.firstFree, List.find?_isSome]

theorem Vol.free_linked (has : b.Has f) (free : v.fat f = 0) (taken : v.fat c ≠ 0) :
    ((v.setFat f eocMin).setFat c f).free b + 1 = v.free b := by
  have low := has.1
  have marked : (v.setFat f eocMin).fat c ≠ 0 := by
    rw [Vol.setFat_fat]
    split
    · decide
    · exact taken
  rw [Vol.free_setFat_other marked (by omega), Vol.free_setFat eocMin has free (by decide)]

end Free

end Pcern.Fat32

import Pcern.Volume

/-!
Boot sectors. `parse_bpb` computes the places of the regions in 32-bit arithmetic, from fields that the disk controls;
the table is mirrored into two copies, wherever the volume has them. The theorems compare both with exact arithmetic.
-/
namespace Pcern.Fat32

open Bytes Blocks

/-- The base and the boot sector that are found when no read fails. -/
def volumeAt (d : Disk) : Option (Nat × Sector) :=
  if fat32FieldsValid (d 0) then some (0, d 0)
  else if !signed (d 0) then none
  else if d 0 450 ≠ 0x0B ∧ d 0 450 ≠ 0x0C then none
  else if fat32FieldsValid (d (read32 (d 0) 454)) then some (read32 (d 0) 454, d (read32 (d 0) 454))
  else none

theorem run_readSector {α : Type} (lba : Nat) (k : Option Sector → Io α) (d : Disk) :
    ((readSector lba >>= k).run allWell d) = ((k (some (d lba))).run allWell d) := rfl

private theorem run_findFat32Base (d : Disk) : (findFat32Base.run allWell d).result = some (volumeAt d) := by
  unfold findFat32Base volumeAt
  rw [run_readSector]
  dsimp only
  split
  · rfl
  · split
    · rfl
    · split
      · rfl
      · rw [run_readSector]
        dsimp only
        split
        · rfl
        · rfl

private theorem run_parseBpb (d : Disk) :
    (parseBpb.run allWell d).result = some ((volumeAt d).bind fun found => (bootSector found.2).bpb found.1) := by
  unfold parseBpb
  rw [(run_allWell_bind (run_findFat32Base d)).1]
  cases volumeAt d <;> rfl

/-- `parse_bpb` takes the volume at `base` with these fields, and makes `b` of them. -/
structure Accepted (d : Disk) (base : Nat) (s : BootSector) (b : Bpb) : Prop where
  found : ∃ sector, (findFat32Base.run allWell d).result = some (some (base, sector)) ∧ s = bootSector sector
  parsed : (parseBpb.run allWell d).result = some (some b)

/-- What is known of the fields of a volume that is accepted. -/
structure BootSector.Ranged (s : BootSector) (base : Nat) : Prop where
  base : base < 2 ^ 32
  reserved : s.reservedSectorCount < 2 ^ 16
  fats : s.numFats < 2 ^ 8
  table : 0 < s.fatSz32 ∧ s.fatSz32 < 2 ^ 32
  total : s.totalSectors32 < 2 ^ 32
  cluster : s.sectorsPerCluster < 2 ^ 8

section Accepted
variable {d : Disk} {base : Nat} {s : BootSector} {b : Bpb} (accepted : Accepted d base s b)
include accepted

theorem Accepted.bpb : s.bpb base = some b := by
  obtain ⟨sector, found, rfl⟩ := accepted.found
  have parsed := accepted.parsed
  rw [run_findFat32Base] at found
  rw [run_parseBpb, Option.some.inj found] at parsed
  exact Option.some.inj parsed

theorem Accepted.ranged : s.Ranged base := by
  obtain ⟨sector, found, rfl⟩ := accepted.found
  rw [run_findFat32Base] at found
  have found := Option.some.inj found
  have valid : base < 2 ^ 32 ∧ fat32FieldsValid sector = true := by
    unfold volumeAt at found
    split at found
    · rename_i valid
      cases found
      exact ⟨by decide, valid⟩
    · split at found
      · cases found
      · split at found
        · cases found
        · split at found
          · rename_i valid
            cases found
            exact ⟨read32_lt _ _, valid⟩
          · cases found
  have nonzero : read32 sector 36 ≠ 0 := by
    have := valid.2
    simp only [fat32FieldsValid, Bool.and_eq_true, bne_iff_ne] at this
    exact this.2
  exact ⟨valid.1, read16_lt _ _, (sector 16).toNat_lt, ⟨Nat.pos_of_ne_zero nonzero, read32_lt _ _⟩, read32_lt _ _, (sector 13).toNat_lt⟩

end Accepted

theorem accepted_of {d : Disk} {base : Nat} {sector : Sector} {b : Bpb} (found : volumeAt d = some (base, sector))
    (parsed : (bootSector sector).bpb base = some b) : Accepted d base (bootSector sector) b := by
  refine ⟨⟨sector, ?_, rfl⟩, ?_⟩
  · rw [run_findFat32Base, found]
  · rw [run_parseBpb, found, Option.bind_some, parsed]

theorem BootSector.bpb_eq {s : BootSector} {base : Nat} {b : Bpb} (parsed : s.bpb base = some b) :
    0 < s.sectorsPerCluster ∧ add32 s.reservedSectorCount (mul32 s.numFats s.fatSz32) ≤ s.totalSectors32 ∧
      b = { sectorsPerCluster := s.sectorsPerCluster,
            firstDataSector := add32 base (add32 s.reservedSectorCount (mul32 s.numFats s.fatSz32)),
            fatBeginSector := add32 base s.reservedSectorCount, fatSz32 := s.fatSz32, rootCluster := s.rootCluster,
            maxCluster := add32 ((s.totalSectors32 - add32 s.reservedSectorCount (mul32 s.numFats s.fatSz32)) / s.sectorsPerCluster) 1 } := by
  unfold BootSector.bpb at parsed
  split at parsed
  · cases parsed
  · dsimp only at parsed
    split at parsed
    · cases parsed
    · rename_i sane
      cases parsed
      exact ⟨by omega, by omega, rfl⟩

/-! ## The geometry -/

/-- Sectors before the clusters, in exact arithmetic. -/
def BootSector.before (s : BootSector) : Nat := s.reservedSectorCount + s.numFats * s.fatSz32

/-- The geometry is the one that the fields describe, and nothing wraps on the way to it. -/
structure Exact (s : BootSector) (base : Nat) (b : Bpb) : Prop where
  firstData : b.firstDataSector = base + s.before
  fatBegin : b.fatBeginSector = base + s.reservedSectorCount
  inside : s.before ≤ s.totalSectors32
  clusters : b.maxCluster = (s.totalSectors32 - s.before) / s.sectorsPerCluster + 1
  cluster : b.sectorsPerCluster = s.sectorsPerCluster ∧ 0 < b.sectorsPerCluster
  addresses : ∀ n < s.totalSectors32, base + n < 2 ^ 32
  product : mul32 s.numFats s.fatSz32 = s.numFats * s.fatSz32
  sum : add32 s.reservedSectorCount (mul32 s.numFats s.fatSz32) = s.before

/-- The volume lies within the sectors that 32 bits can address, with its tables within the volume. -/
structure BootSector.Fits (s : BootSector) (base : Nat) : Prop where
  inside : s.before ≤ s.totalSectors32
  addresses : base + s.totalSectors32 ≤ 2 ^ 32
  clusters : base + s.before < 2 ^ 32
  few : (s.totalSectors32 - s.before) / s.sectorsPerCluster + 1 < 2 ^ 32

private theorem exact_iff_fits {s : BootSector} {base : Nat} {b : Bpb} (ranged : s.Ranged base) (parsed : s.bpb base = some b) :
    Exact s base b ↔ s.Fits base := by
  obtain ⟨some, le, rfl⟩ := BootSector.bpb_eq parsed
  have total := ranged.total
  constructor
  · intro exact
    have low := exact.inside
    refine ⟨low, ?_, ?_, ?_⟩
    · by_cases none : s.totalSectors32 = 0
      · have := ranged.base
        omega
      · have := exact.addresses (s.totalSectors32 - 1) (by omega)
        omega
    · rw [← exact.firstData]
      exact Nat.mod_lt _ (by decide)
    · rw [← exact.clusters]
      exact Nat.mod_lt _ (by decide)
  · intro fits
    have inside := fits.inside
    have sum : add32 s.reservedSectorCount (mul32 s.numFats s.fatSz32) = s.before := by
      unfold BootSector.before at *
      rw [mul32, Nat.mod_eq_of_lt (a := s.numFats * s.fatSz32) (by omega), add32, Nat.mod_eq_of_lt (by omega)]
    refine ⟨?_, ?_, inside, ?_, ⟨rfl, some⟩, ?_, ?_, sum⟩
    · dsimp only
      rw [sum, add32, Nat.mod_eq_of_lt fits.clusters]
    · have := fits.clusters
      unfold BootSector.before at this
      dsimp only
      rw [add32, Nat.mod_eq_of_lt (by omega)]
    · dsimp only
      rw [sum, add32, Nat.mod_eq_of_lt fits.few]
    · intro n small
      have := fits.addresses
      omega
    · unfold BootSector.before at inside
      rw [mul32, Nat.mod_eq_of_lt (by omega)]

/-- A volume that `parse_bpb` takes has the geometry that its fields describe just when it fits into 32 bits. -/
theorem parse_exact_iff (d : Disk) :
    (∀ base s b, Accepted d base s b → Exact s base b) ↔ ∀ base s b, Accepted d base s b → s.Fits base :=
  forall_congr' fun _ => forall_congr' fun _ => forall_congr' fun _ => forall_congr' fun accepted =>
    exact_iff_fits accepted.ranged accepted.bpb

/-- A volume of 256 sectors that claims two tables of `2 ^ 31` sectors. -/
def wrappingDisk : Disk := fun a =>
  if a = 0 then blit (blit (blit (fun _ => 0) 11 [0, 2, 1, 32, 0, 2]) 32 [0, 1, 0, 0, 0, 0, 0, 0x80, 0, 0, 0, 0, 2]) 510 [0x55, 0xAA]
  else fun _ => 0

/-- The product wraps to 0: the volume is accepted, and the clusters begin where its first table is. -/
theorem wrapped_tables_accepted :
    ∃ base s b, Accepted wrappingDisk base s b ∧ s.totalSectors32 < s.before ∧
      b.firstDataSector = b.fatBeginSector ∧ ¬Exact s base b := by
  have found : volumeAt wrappingDisk = some (0, wrappingDisk 0) := if_pos (by decide +kernel)
  have parsed : (bootSector (wrappingDisk 0)).bpb 0 =
      some { sectorsPerCluster := 1, firstDataSector := 32, fatBeginSector := 32, fatSz32 := 2 ^ 31, rootCluster := 2, maxCluster := 225 } := by
    decide +kernel
  have small : (bootSector (wrappingDisk 0)).totalSectors32 < (bootSector (wrappingDisk 0)).before := by decide +kernel
  refine ⟨0, _, _, accepted_of found parsed, small, rfl, fun exact => ?_⟩
  exact Nat.not_le_of_lt small exact.inside

/-! ## The copies of the table -/

/-- The sector of copy `i` that holds the entry of cluster `c`, in exact arithmetic. -/
def BootSector.copyAt (s : BootSector) (base i c : Nat) : Nat := base + s.reservedSectorCount + i * s.fatSz32 + c * 4 / 512

/-- `d'` is `d` with another entry for the cluster in every copy of the table: the low 28 bits are those of the value,
    the top 4 bits are as they were, and so is every other byte. -/
structure Mirrored (s : BootSector) (base c value : Nat) (d d' : Disk) : Prop where
  low : ∀ i < s.numFats, read32 (d' (s.copyAt base i c)) (c * 4 % 512) % 2 ^ 28 = value % 2 ^ 28
  top : ∀ i < s.numFats, read32 (d' (s.copyAt base i c)) (c * 4 % 512) / 2 ^ 28 = read32 (d (s.copyAt base i c)) (c * 4 % 512) / 2 ^ 28
  rest : ∀ a j, (∀ i < s.numFats, a = s.copyAt base i c → j < c * 4 % 512 ∨ c * 4 % 512 + 4 ≤ j) → d' a j = d a j

/-- A disk with another entry in one sector, as `write_fat_entry` makes it. -/
def patched (d : Disk) (a off value : Nat) : Disk :=
  Function.update d a (write32 (d a) off ((read32 (d a) off &&& 0xF0000000) ||| (value &&& 0x0FFFFFFF)))

private theorem run_writeFatEntry (b : Bpb) (c value : Nat) (d : Disk) :
    ((writeFatEntry b c value).run allWell d).result = some true ∧
      ((writeFatEntry b c value).run allWell d).disk =
        patched (patched d (add32 b.fatBeginSector (mul32 c 4 / 512)) (mul32 c 4 % 512) value)
          (add32 (add32 b.fatBeginSector b.fatSz32) (mul32 c 4 / 512)) (mul32 c 4 % 512) value := ⟨rfl, rfl⟩

private theorem merged_parts {old : Nat} (value : Nat) (small : old < 2 ^ 32) :
    ((old &&& 0xF0000000) ||| (value &&& 0x0FFFFFFF)) < 2 ^ 32 ∧
      ((old &&& 0xF0000000) ||| (value &&& 0x0FFFFFFF)) % 2 ^ 28 = value % 2 ^ 28 ∧
      ((old &&& 0xF0000000) ||| (value &&& 0x0FFFFFFF)) / 2 ^ 28 = old / 2 ^ 28 := by
  have reduced : value &&& 0x0FFFFFFF = value % 2 ^ 28 &&& 0x0FFFFFFF := by
    rw [show (0x0FFFFFFF : Nat) = 2 ^ 28 - 1 from rfl, Nat.and_two_pow_sub_one_eq_mod, Nat.and_two_pow_sub_one_eq_mod, Nat.mod_mod]
  have merged := merged_entry old (Nat.mod_lt value (show 0 < 2 ^ 28 by decide))
  rw [← reduced] at merged
  refine ⟨merged.1, merged.2, ?_⟩
  rw [Nat.or_div_two_pow, Nat.and_div_two_pow, Nat.and_div_two_pow, show (0xF0000000 : Nat) / 2 ^ 28 = 2 ^ 4 - 1 from rfl,
    show (0x0FFFFFFF : Nat) / 2 ^ 28 = 0 from rfl, Nat.and_zero, Nat.or_zero, Nat.and_two_pow_sub_one_eq_mod]
  omega

section Patched
variable {d : Disk} {a off value : Nat}

private theorem patched_other {x : Nat} (other : x ≠ a) : patched d a off value x = d x := Function.update_of_ne other _ _

private theorem patched_byte {x j : Nat} (outside : x = a → j < off ∨ off + 4 ≤ j) : patched d a off value x j = d x j := by
  by_cases here : x = a
  · rw [here, patched, Function.update_self, write32_apply_other _ _ _ (outside here)]
  · rw [patched_other here]

private theorem patched_entry (d : Disk) (a off value : Nat) : read32 (patched d a off value a) off % 2 ^ 28 = value % 2 ^ 28 ∧
    read32 (patched d a off value a) off / 2 ^ 28 = read32 (d a) off / 2 ^ 28 := by
  have merged := merged_parts value (read32_lt (d a) off)
  rw [patched, Function.update_self, read32_write32_same _ _ merged.1]
  exact merged.2

end Patched

/-- The volume has two copies of the table, and all of their sectors can be addressed. -/
structure TwoCopies (s : BootSector) (base : Nat) (b : Bpb) : Prop where
  fats : s.numFats = 2
  entries : b.maxCluster < 2 ^ 30
  addresses : s.copyAt base 1 b.maxCluster < 2 ^ 32

section Mirror
variable {s : BootSector} {base : Nat} {b : Bpb} {d : Disk}

theorem TwoCopies.mirrored (copies : TwoCopies s base b) (ranged : s.Ranged base) (parsed : s.bpb base = some b) {c : Nat}
    (inside : c ≤ b.maxCluster) (value : Nat) : Mirrored s base c value d ((writeFatEntry b c value).run allWell d).disk := by
  obtain ⟨_, _, same⟩ := BootSector.bpb_eq parsed
  have fatBegin : b.fatBeginSector = add32 base s.reservedSectorCount := by rw [same]
  have table : b.fatSz32 = s.fatSz32 := by rw [same]
  have addresses := copies.addresses
  have entries := copies.entries
  have sectors : c * 4 / 512 ≤ b.maxCluster * 4 / 512 := Nat.div_le_div_right (Nat.mul_le_mul_right 4 inside)
  unfold BootSector.copyAt at addresses
  have offset : mul32 c 4 = c * 4 := Nat.mod_eq_of_lt (by omega)
  have first : add32 b.fatBeginSector (c * 4 / 512) = s.copyAt base 0 c := by
    unfold add32 at fatBegin ⊢
    unfold BootSector.copyAt
    omega
  have second : add32 (add32 b.fatBeginSector b.fatSz32) (c * 4 / 512) = s.copyAt base 1 c := by
    unfold add32 at fatBegin ⊢
    unfold BootSector.copyAt
    omega
  have apart : s.copyAt base 0 c ≠ s.copyAt base 1 c := by
    have := ranged.table.1
    unfold BootSector.copyAt
    omega
  rw [(run_writeFatEntry b c value d).2, offset, first, second]
  have entry : ∀ i < s.numFats,
      read32 (patched (patched d (s.copyAt base 0 c) (c * 4 % 512) value) (s.copyAt base 1 c) (c * 4 % 512) value (s.copyAt base i c))
          (c * 4 % 512) % 2 ^ 28 = value % 2 ^ 28 ∧
        read32 (patched (patched d (s.copyAt base 0 c) (c * 4 % 512) value) (s.copyAt base 1 c) (c * 4 % 512) value (s.copyAt base i c))
          (c * 4 % 512) / 2 ^ 28 = read32 (d (s.copyAt base i c)) (c * 4 % 512) / 2 ^ 28 := by
    intro i small
    rw [copies.fats] at small
    match i with
    | 0 =>
      rw [patched_other apart]
      exact patched_entry d _ _ value
    | 1 =>
      have written := patched_entry (patched d (s.copyAt base 0 c) (c * 4 % 512) value) (s.copyAt base 1 c) (c * 4 % 512) value
      rw [patched_other apart.symm] at written
      exact written
  refine ⟨fun i small => (entry i small).1, fun i small => (entry i small).2, fun a j outside => ?_⟩
  rw [patched_byte (outside 1 (by rw [copies.fats]; decide)), patched_byte (outside 0 (by rw [copies.fats]; decide))]

private theorem written_places (ranged : s.Ranged base) (table : b.fatSz32 = s.fatSz32) {c : Nat}
    (mirrored : ∀ value, Mirrored s base c value d ((writeFatEntry b c value).run allWell d).disk) {a a' : Nat}
    (first : a = add32 b.fatBeginSector (mul32 c 4 / 512)) (second : a' = add32 (add32 b.fatBeginSector b.fatSz32) (mul32 c 4 / 512)) :
    a ≠ a' ∧ (∀ i < s.numFats, s.copyAt base i c = a ∨ s.copyAt base i c = a') ∧
      (∃ i < s.numFats, s.copyAt base i c = a) ∧ ∃ i < s.numFats, s.copyAt base i c = a' := by
  have apart : a ≠ a' := by
    have := ranged.table
    unfold add32 at first second
    omega
  have disk : ∀ value, ((writeFatEntry b c value).run allWell d).disk =
      patched (patched d a (mul32 c 4 % 512) value) a' (mul32 c 4 % 512) value := by
    intro value
    rw [(run_writeFatEntry b c value d).2, ← first, ← second]
  -- a value that is not there yet has to appear at the copies, and does appear at the two places
  have unseen : ∀ x : Nat, x % 2 ^ 28 ≠ (x + 1) % 2 ^ 28 := by
    intro x
    omega
  refine ⟨apart, fun i small => ?_, ?_, ?_⟩
  · by_contra neither
    rw [not_or] at neither
    have low := (mirrored (read32 (d (s.copyAt base i c)) (c * 4 % 512) + 1)).low i small
    rw [disk, patched_other neither.2, patched_other neither.1] at low
    exact unseen _ low
  · by_contra none
    have rest := (mirrored (read32 (d a) (mul32 c 4 % 512) + 1)).rest a
    have same : read32 (patched d a (mul32 c 4 % 512) (read32 (d a) (mul32 c 4 % 512) + 1) a) (mul32 c 4 % 512) =
        read32 (d a) (mul32 c 4 % 512) := by
      refine read32_congr fun j _ => ?_
      rw [← rest _ fun i small equal => absurd ⟨i, small, equal.symm⟩ none, disk, patched_other apart]
    have entry := (patched_entry d a (mul32 c 4 % 512) (read32 (d a) (mul32 c 4 % 512) + 1)).1
    rw [same] at entry
    exact unseen _ entry
  · by_contra none
    have rest := (mirrored (read32 (d a') (mul32 c 4 % 512) + 1)).rest a'
    have entry := (patched_entry (patched d a (mul32 c 4 % 512) (read32 (d a') (mul32 c 4 % 512) + 1)) a' (mul32 c 4 % 512)
      (read32 (d a') (mul32 c 4 % 512) + 1)).1
    have same : read32 (patched (patched d a (mul32 c 4 % 512) (read32 (d a') (mul32 c 4 % 512) + 1)) a' (mul32 c 4 % 512)
        (read32 (d a') (mul32 c 4 % 512) + 1) a') (mul32 c 4 % 512) = read32 (d a') (mul32 c 4 % 512) := by
      refine read32_congr fun j _ => ?_
      rw [← rest _ fun i small equal => absurd ⟨i, small, equal.symm⟩ none, disk]
    rw [same] at entry
    exact unseen _ entry

private theorem twoCopies_of_mirrored (ranged : s.Ranged base) (parsed : s.bpb base = some b) (covers : (b.maxCluster + 1) * 4 ≤ b.fatSz32 * 512)
    (some : 2 ≤ b.maxCluster)
    (mirrored : ∀ c, 2 ≤ c → c ≤ b.maxCluster → ∀ value, Mirrored s base c value d ((writeFatEntry b c value).run allWell d).disk) :
    TwoCopies s base b := by
  obtain ⟨_, _, same⟩ := BootSector.bpb_eq parsed
  have fatBegin : b.fatBeginSector = add32 base s.reservedSectorCount := by rw [same]
  have table : b.fatSz32 = s.fatSz32 := by rw [same]
  have positive := ranged.table.1
  have places := fun c low high => written_places ranged table (mirrored c low high) rfl rfl
  have fats : s.numFats = 2 := by
    obtain ⟨apart, all, ⟨i, small, here⟩, ⟨j, small', there⟩⟩ := places 2 (Nat.le_refl _) some
    have different : i ≠ j := by
      rintro rfl
      exact apart (here.symm.trans there)
    have zero := all 0 (by omega)
    have one := all 1 (by omega)
    by_contra other
    have two := all 2 (by omega)
    unfold BootSector.copyAt at zero one two
    omega
  have bounded : ∀ c, 2 ≤ c → c ≤ b.maxCluster → s.copyAt base 1 c < 2 ^ 32 := by
    intro c low high
    have reached := (places c low high).2.1 1 (by omega)
    unfold add32 at reached
    omega
  have top := bounded b.maxCluster some (Nat.le_refl _)
  refine ⟨fats, ?_, top⟩
  by_contra many
  -- the offset of the entry of cluster 2 ^ 30 wraps to that of cluster 0
  have reached := (places (2 ^ 30) (by decide) (by omega)).2.1 0 (by omega)
  have wrapped : mul32 (2 ^ 30) 4 = 0 := by decide
  rw [wrapped, fatBegin, table] at reached
  rw [table] at covers
  unfold add32 BootSector.copyAt at reached
  unfold BootSector.copyAt at top
  omega

end Mirror

/-- On a disk with a volume whose tables cover its clusters, `write_fat_entry` mirrors every entry exactly just when the
    volume has two tables that can be addressed, or no cluster. -/
theorem mirrors_iff_two_copies (d : Disk) (base : Nat) (s : BootSector) (b : Bpb) (accepted : Accepted d base s b)
    (covers : (b.maxCluster + 1) * 4 ≤ b.fatSz32 * 512) :
    (∀ c, 2 ≤ c → c ≤ b.maxCluster → ∀ value, ((writeFatEntry b c value).run allWell d).result = some true ∧
        Mirrored s base c value d ((writeFatEntry b c value).run allWell d).disk) ↔
      (2 ≤ b.maxCluster → TwoCopies s base b) := by
  constructor
  · intro mirrored some
    exact twoCopies_of_mirrored accepted.ranged accepted.bpb covers some fun c low high value => (mirrored c low high value).2
  · intro copies c low high value
    refine ⟨(run_writeFatEntry b c value d).1, ?_⟩
    exact (copies (Nat.le_trans low high)).mirrored accepted.ranged accepted.bpb high value

/-- A volume of nine sectors: the boot sector, the tables with a sector each, and clusters of one sector. -/
def bootDisk (tables : UInt8) : Disk := fun a =>
  if a = 0 then blit (blit (blit (fun _ => 0) 11 [0, 2, 1, 1, 0, tables]) 32 [9, 0, 0, 0, 1, 0, 0, 0, 0, 0, 0, 0, 2]) 510 [0x55, 0xAA]
  else fun _ => 0

def bootBpb (firstDataSector maxCluster : Nat) : Bpb :=
  { sectorsPerCluster := 1, firstDataSector, fatBeginSector := 1, fatSz32 := 1, rootCluster := 2, maxCluster }

private theorem bootDisk_accepted : Accepted (bootDisk 2) 0 (bootSector (bootDisk 2 0)) (bootBpb 3 7) :=
  accepted_of (if_pos (by decide +kernel)) (by decide +kernel)

theorem bootDisk_mirrors :
    (∀ c, 2 ≤ c → c ≤ 7 → ∀ value, ((writeFatEntry (bootBpb 3 7) c value).run allWell (bootDisk 2)).result = some true ∧
        Mirrored (bootSector (bootDisk 2 0)) 0 c value (bootDisk 2) ((writeFatEntry (bootBpb 3 7) c value).run allWell (bootDisk 2)).disk) ↔
      (2 ≤ 7 → TwoCopies (bootSector (bootDisk 2 0)) 0 (bootBpb 3 7)) :=
  mirrors_iff_two_copies (bootDisk 2) 0 _ _ bootDisk_accepted (by decide)

/-- With one table, the mirrored entry of cluster 5 lands in the first cluster, which is the root directory. -/
theorem single_table_overwrites_data :
    Accepted (bootDisk 1) 0 (bootSector (bootDisk 1 0)) (bootBpb 2 8) ∧ ((bootBpb 2 8).maxCluster + 1) * 4 ≤ (bootBpb 2 8).fatSz32 * 512 ∧
      sectorOf (bootBpb 2 8) 2 0 = 2 ∧
      ((writeFatEntry (bootBpb 2 8) 5 eocMin).run allWell (bootDisk 1)).disk 2 20 ≠ bootDisk 1 2 20 ∧
      ¬Mirrored (bootSector (bootDisk 1 0)) 0 5 eocMin (bootDisk 1) ((writeFatEntry (bootBpb 2 8) 5 eocMin).run allWell (bootDisk 1)).disk := by
  have changed : ((writeFatEntry (bootBpb 2 8) 5 eocMin).run allWell (bootDisk 1)).disk 2 20 ≠ bootDisk 1 2 20 := by decide +kernel
  refine ⟨accepted_of (if_pos (by decide +kernel)) (by decide +kernel), by decide, by decide, changed, fun mirrored => ?_⟩
  refine changed (mirrored.rest 2 20 ?_)
  decide +kernel

end Pcern.Fat32

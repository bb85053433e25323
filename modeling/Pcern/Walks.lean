import Pcern.BootSectors
import Pcern.Directory

/-!
How long the walks over the root directory take. They follow links that the disk holds, with no bound on their number,
so they come to an end only if the chain does, or if an end marker stops them.
-/
namespace Pcern.Fat32

open Bytes Blocks

/-- One of the entries of a cluster is an end marker. -/
def MarkedOn (b : Bpb) (d : Disk) (c : Nat) : Prop :=
  ∃ s < b.sectorsPerCluster, ∃ e < 16, d (add32 (clusterToSector b c) s) (e * 32) = 0

/-- The chain from a cluster on reaches an end marker, or its end. -/
inductive Stops (b : Bpb) (d : Disk) : Nat → Prop where
  | marked {c : Nat} (marked : MarkedOn b d c) : Stops b d c
  | ends {c : Nat} (last : linkOn b d c = none) : Stops b d c
  | next {c c' : Nat} (goes : linkOn b d c = some c') (rest : Stops b d c') : Stops b d c

def Ends {α : Type} (p : Io α) (d : Disk) : Prop := Ensures .faulty (fun _ _ _ _ => True) (fun _ _ => True) p d

section Ends
variable {α γ : Type} {d : Disk}

theorem Ends.run {p : Io α} (ends : Ends p d) (fails : Nat → Bool) : (p.run fails d).result ≠ none :=
  (Ensures.run ends (Mode.faulty_allows p fails d)).1

theorem Ends.bind {p : Io γ} {k : γ → Io α} (first : Ends p d) (rest : ∀ c d', Ends (k c) d') : Ends (p >>= k) d := by
  refine ensures_bind.mpr (Ensures.mono first ?_ fun _ _ _ _ may => may)
  intro c d' _
  exact rest c d'

theorem Ends.ret (a : α) : Ends (pure a : Io α) d := trivial

private theorem ends_readSector (lba : Nat) : Ends (readSector lba) d := ⟨trivial, fun _ _ => trivial⟩

private theorem ends_writeSector (purpose : Purpose) (lba : Nat) (sector : Sector) : Ends (writeSector purpose lba sector) d :=
  ⟨trivial, trivial, fun _ _ => trivial⟩

private theorem ends_writeFatCopy (fatBase c value : Nat) : Ends (writeFatCopy fatBase c value) d := by
  refine (ends_readSector _).bind fun r d' => ?_
  cases r with
  | none => exact .ret _
  | some sector => exact ends_writeSector _ _ _

private theorem ends_writeFatEntry (b : Bpb) (c value : Nat) : Ends (writeFatEntry b c value) d := by
  refine (ends_writeFatCopy _ _ _).bind fun r d' => ?_
  cases r with
  | false => exact .ret _
  | true => exact ends_writeFatCopy _ _ _

private theorem ends_allocFrom (b : Bpb) (count c : Nat) : Ends (allocFrom b count c) d := by
  induction count generalizing c d with
  | zero => exact .ret _
  | succ count ih =>
    refine Ends.bind ((ends_readSector _).bind fun r d' => by cases r <;> exact .ret _) fun r d' => ?_
    match r with
    | none => exact .ret _
    | some 0 =>
      refine (ends_writeFatEntry _ _ _).bind fun r d' => ?_
      cases r <;> exact .ret _
    | some (n + 1) => exact ih _

private theorem ends_zeroFill (base count s : Nat) : Ends (zeroFill base count s) d := by
  induction count generalizing s d with
  | zero => exact .ret _
  | succ count ih =>
    refine (ends_writeSector _ _ _).bind fun r d' => ?_
    cases r with
    | false => exact .ret _
    | true => exact ih _

private theorem ends_growRoot (b : Bpb) (c : Nat) : Ends (growRoot b c) d := by
  refine (ends_allocFrom _ _ _).bind fun r d' => ?_
  cases r with
  | none => exact .ret _
  | some f =>
    refine (ends_writeFatEntry _ _ _).bind fun r d' => ?_
    cases r with
    | false => exact .ret _
    | true =>
      refine (ends_zeroFill _ _ _).bind fun r d' => ?_
      cases r <;> exact .ret _

end Ends

/-! ## Walks that end -/

section Walk
variable {β : Type} {b : Bpb} {d : Disk} {decides : Nat → Sector → Nat → Option β}

private theorem Stops.walkRoot (stops : ∀ sector b off, b off = 0 → decides sector b off ≠ none) {c : Nat} (chain : Stops b d c) :
    ∃ n, ∀ fuel, n ≤ fuel →
      Ensures .faulty (fun _ _ _ _ => True) (fun _ d' => d' = d) (walkRoot b decides fuel c) d := by
  induction chain with
  | @marked c marked =>
    refine ⟨1, fun fuel enough => ?_⟩
    obtain ⟨fuel, rfl⟩ := Nat.exists_eq_add_of_le' enough
    refine ensures_walkRoot (fun _ _ => rfl) (fun nothing => ?_) (fun _ _ => rfl) fun _ => rfl
    obtain ⟨s, small, e, inside, zero⟩ := marked
    have passed := List.findSome?_eq_none_iff.mp nothing ⟨c, s, e⟩ (mem_clusterSlots.mpr ⟨rfl, small, inside⟩)
    exact absurd passed (stops _ _ _ zero)
  | @ends c last =>
    refine ⟨1, fun fuel enough => ?_⟩
    obtain ⟨fuel, rfl⟩ := Nat.exists_eq_add_of_le' enough
    refine ensures_walkRoot (fun _ _ => rfl) (fun _ c' goes => ?_) (fun _ _ => rfl) fun _ => rfl
    cases last.symm.trans goes
  | @next c c' goes rest ih =>
    obtain ⟨n, later⟩ := ih
    refine ⟨n + 1, fun fuel enough => ?_⟩
    obtain ⟨fuel, rfl⟩ := Nat.exists_eq_add_of_le' (Nat.le_trans (Nat.le_add_left 1 n) enough)
    refine ensures_walkRoot (fun _ _ => rfl) (fun _ c'' next => ?_) (fun _ _ => rfl) fun _ => rfl
    cases goes.symm.trans next
    exact later fuel (by omega)

private theorem entrySought_stops (name : List UInt8) (sector : Nat) (b : Sector) (off : Nat) (zero : b off = 0) :
    entrySought name sector b off ≠ none := by
  rw [entrySought, if_pos zero]
  nofun

private theorem slotSought_stops (sector : Nat) (b : Sector) (off : Nat) (zero : b off = 0) : slotSought sector b off ≠ none := by
  rw [slotSought, if_pos (.inl zero)]
  nofun

theorem Stops.findInRoot (chain : Stops b d b.rootCluster) (name : List UInt8) :
    ∃ n, ∀ fuel, n ≤ fuel → Ensures .faulty (fun _ _ _ _ => True) (fun _ d' => d' = d) (findInRoot b fuel name) d := by
  obtain ⟨n, walks⟩ := chain.walkRoot (entrySought_stops name)
  refine ⟨n, fun fuel enough => ensures_bind.mpr ((walks fuel enough).mono ?_ fun _ _ _ _ may => may)⟩
  rintro r d' rfl
  cases r <;> rfl

theorem Stops.findFreeRootSlot (chain : Stops b d b.rootCluster) : ∃ n, ∀ fuel, n ≤ fuel → Ends (findFreeRootSlot b fuel) d := by
  obtain ⟨n, walks⟩ := chain.walkRoot slotSought_stops
  refine ⟨n, fun fuel enough => ensures_bind.mpr ((walks fuel enough).mono ?_ fun _ _ _ _ may => may)⟩
  rintro r d' rfl
  cases r with
  | decided loc => trivial
  | unread => trivial
  | ended z => exact ends_growRoot b z

theorem Stops.openOrCreate (chain : Stops b d b.rootCluster) (name : List UInt8) (create : Bool) :
    ∃ fuel, Ends (openOrCreate b fuel name create) d := by
  obtain ⟨n, finds⟩ := chain.findInRoot name
  obtain ⟨n', frees⟩ := chain.findFreeRootSlot
  refine ⟨max n n', ensures_bind.mpr ((finds _ (Nat.le_max_left n n')).mono ?_ fun _ _ _ _ may => may)⟩
  rintro r d' rfl
  cases r with
  | some file => trivial
  | none =>
    dsimp only
    split
    · trivial
    · refine Ends.bind (frees _ (Nat.le_max_right n n')) fun r d' => ?_
      cases r with
      | none => trivial
      | some loc =>
        refine Ends.bind ((ends_readSector _).bind fun r d' => ?_) fun r d' => ?_
        · cases r with
          | none => trivial
          | some sector => exact ends_writeSector _ _ _
        · cases r <;> trivial

end Walk

/-! ## Walks that do not -/

section Spin
variable {b : Bpb} {d : Disk}

/-- A name that no entry can have: every entry that begins so is deleted. -/
def deletedName : List UInt8 := 0xE5 :: List.replicate 10 0x20

private theorem entrySought_deletedName {sector : Nat} {b : Sector} {off : Nat} (other : b off ≠ 0) :
    entrySought deletedName sector b off = none := by
  unfold entrySought
  rw [if_neg other]
  split
  · rfl
  · rename_i live
    split
    · rfl
    · rw [if_neg]
      intro same
      have first : (slice b off 11)[0]? = deletedName[0]? := congrArg (·[0]?) same
      exact live (by simpa [slice, deletedName] using first)

/-- The search for such a name passes over every entry, and goes on for as long as the chain does. -/
private theorem findInRoot_spins (chain : ¬Stops b d b.rootCluster) (fuel : Nat) :
    ((findInRoot b fuel deletedName).run allWell d).result = none := by
  have spins : ∀ fuel c, ¬Stops b d c → Ensures ⟨False, True, fun _ => False⟩ (fun _ _ _ _ => True) (fun _ _ => False)
      (walkRoot b (entrySought deletedName) fuel c) d := by
    intro fuel
    induction fuel with
    | zero => exact fun _ _ => trivial
    | succ fuel ih =>
      intro c chain
      have nothing : (clusterSlots b c).findSome? (verdictOn b d (entrySought deletedName)) = none := by
        refine List.findSome?_eq_none_iff.mpr fun slot member => ?_
        obtain ⟨rfl, small, inside⟩ := mem_clusterSlots.mp member
        exact entrySought_deletedName fun zero => chain (.marked ⟨slot.sector, small, slot.index, inside, zero⟩)
      refine ensures_walkRoot (fun x found => ?_) (fun _ c' goes => ih c' fun rest => chain (.next goes rest))
        (fun _ stops => chain (.ends (stops.resolve_right id))) id
      cases nothing.symm.trans found
  have never : Ensures ⟨False, True, fun _ => False⟩ (fun _ _ _ _ => True) (fun _ _ => False) (findInRoot b fuel deletedName) d :=
    ensures_bind.mpr ((spins fuel _ chain).mono (fun _ _ absurd => absurd.elim) fun _ _ _ _ may => may)
  exact Option.eq_none_iff_forall_ne_some.mpr fun r result => (never.run (.inl rfl)).2 r result

end Spin

/-- Every search of the root directory and every open request comes to an end, whatever fails, just when the chain from the root
    cluster on ends or holds an end marker. -/
theorem walks_end_iff_stops (b : Bpb) (d : Disk) :
    (∀ name fails, name.length = 11 →
      (∃ fuel, ((findInRoot b fuel name).run fails d).result ≠ none) ∧
      (∃ fuel, ((findFreeRootSlot b fuel).run fails d).result ≠ none) ∧
      ∀ create, ∃ fuel, ((openOrCreate b fuel name create).run fails d).result ≠ none) ↔
      Stops b d b.rootCluster := by
  constructor
  · intro ends
    by_contra chain
    obtain ⟨fuel, ended⟩ := (ends deletedName allWell rfl).1
    exact ended (findInRoot_spins chain fuel)
  · intro chain name fails _
    obtain ⟨n, finds⟩ := chain.findInRoot name
    obtain ⟨n', frees⟩ := chain.findFreeRootSlot
    refine ⟨⟨n, ((finds n (Nat.le_refl n)).run (Mode.faulty_allows _ _ _)).1⟩, ⟨n', (frees n' (Nat.le_refl n')).run fails⟩, fun create => ?_⟩
    obtain ⟨fuel, opens⟩ := chain.openOrCreate name create
    exact ⟨fuel, opens.run fails⟩

/-- A volume whose root directory is one cluster of deleted entries that is linked to itself. -/
def cyclicDisk : Disk := fun a =>
  if a = 1 ∨ a = 2 then blit (fun _ => 0) 8 [2, 0, 0, 0] else if a = 3 then fun _ => 0xE5 else bootDisk 2 a

/-- The search for a name that is not there does not come to an end. -/
theorem cyclic_root_never_searched :
    Accepted cyclicDisk 0 (bootSector (cyclicDisk 0)) (bootBpb 3 7) ∧
      ∀ fuel, ((findInRoot (bootBpb 3 7) fuel deletedName).run allWell cyclicDisk).result = none := by
  have link : linkOn (bootBpb 3 7) cyclicDisk 2 = some 2 := by decide +kernel
  have unmarked : ¬MarkedOn (bootBpb 3 7) cyclicDisk 2 := by
    rintro ⟨s, small, e, inside, zero⟩
    obtain rfl : s = 0 := Nat.lt_one_iff.mp small
    cases zero
  have chain : ∀ c, Stops (bootBpb 3 7) cyclicDisk c → c ≠ 2 := by
    intro c stops
    induction stops with
    | marked marked =>
      rintro rfl
      exact unmarked marked
    | ends last =>
      rintro rfl
      cases link.symm.trans last
    | next goes _ ih =>
      rintro rfl
      cases link.symm.trans goes
      exact ih rfl
  refine ⟨accepted_of (if_pos (by decide +kernel)) (by decide +kernel), fun fuel => ?_⟩
  exact findInRoot_spins (fun stops => chain 2 stops rfl) fuel

end Pcern.Fat32

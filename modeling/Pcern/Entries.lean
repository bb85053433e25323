import Pcern.Directory
import Pcern.Keyed

/-!
Directory entries: what a slot holds, which slots carry files, and how the writes of the server change one slot and no
other. The files of a directory are the slots of kind `file` before the first end marker.
-/
namespace Pcern.Fat32

open Bytes Blocks Chains

/-- What an entry is: the end of the directory, deleted, a long name or label, or a file. -/
inductive Kind where
  | marker
  | deleted
  | hidden
  | file
  deriving DecidableEq, Repr

def kindAt (b : Sector) (off : Nat) : Kind :=
  if b off = 0x00 then .marker else if b off = 0xE5 then .deleted else if skipped (b (off + 11)) then .hidden else .file

def openedAt (sector : Nat) (b : Sector) (off : Nat) : OpenFile :=
  { startCluster := startAt b off, size := sizeAt b off, dirent := { sector, offset := off } }

/-! ## Entries of a sector -/

section Sectors
variable {b b' : Sector} {off off' : Nat}

section
variable (same : ∀ i < 32, b' (off' + i) = b (off + i))
include same

private theorem kindAt_congr : kindAt b' off' = kindAt b off := by
  have first := same 0 (by omega)
  have attr := same 11 (by omega)
  simp only [Nat.add_zero] at first
  simp only [kindAt, first, attr]

private theorem slice_name_congr : slice b' off' 11 = slice b off 11 :=
  slice_congr fun i small => same i (by omega)

private theorem startAt_congr : startAt b' off' = startAt b off := by
  have high : read16 b' (off' + 20) = read16 b (off + 20) :=
    read16_congr fun i small => by rw [Nat.add_assoc, Nat.add_assoc, same _ (by omega)]
  have low : read16 b' (off' + 26) = read16 b (off + 26) :=
    read16_congr fun i small => by rw [Nat.add_assoc, Nat.add_assoc, same _ (by omega)]
  rw [startAt, high, low, startAt]

private theorem sizeAt_congr : sizeAt b' off' = sizeAt b off :=
  read32_congr fun i small => by rw [Nat.add_assoc, Nat.add_assoc, same _ (by omega)]

end

variable {j size start : Nat} {name : List UInt8}

theorem updatedDirent_other (apart : j < off + 20 ∨ off + 32 ≤ j) :
    updatedDirent b off start size j = b j := by
  rw [updatedDirent, write32_apply_other _ _ _ (by omega), write16_apply_other _ _ _ (by omega),
    write16_apply_other _ _ _ (by omega)]

theorem sizeAt_updatedDirent (small : size < 2 ^ 32) : sizeAt (updatedDirent b off start size) off = size :=
  read32_write32_same _ _ small

theorem startAt_updatedDirent (small : start < 2 ^ 32) :
    startAt (updatedDirent b off start size) off = start := by
  have high : read16 (updatedDirent b off start size) (off + 20) = start >>> 16 := by
    rw [← read16_write16_same b (off + 20) (v := start >>> 16) (by rw [Nat.shiftRight_eq_div_pow]; omega)]
    refine read16_congr fun i inside => ?_
    rw [updatedDirent, write32_apply_other _ _ _ (by omega), write16_apply_other _ _ _ (by omega)]
  have low : read16 (updatedDirent b off start size) (off + 26) = start &&& 0xFFFF := by
    rw [← read16_write16_same (write16 b (off + 20) (start >>> 16)) (off + 26) (v := start &&& 0xFFFF)
      (Nat.and_lt_two_pow _ (by decide))]
    refine read16_congr fun i inside => ?_
    rw [updatedDirent, write32_apply_other _ _ _ (by omega)]
  have rest : start &&& 0xFFFF = start % 2 ^ 16 := by
    rw [show (0xFFFF : Nat) = 2 ^ 16 - 1 from rfl, Nat.and_two_pow_sub_one_eq_mod]
  rw [startAt, high, low, rest, ← Nat.shiftLeft_add_eq_or_of_lt (Nat.mod_lt _ (by decide)), Nat.shiftLeft_eq,
    Nat.shiftRight_eq_div_pow]
  omega

theorem newDirent_other (fits : name.length ≤ 11) (apart : j < off ∨ off + 32 ≤ j) :
    newDirent b off name j = b j := by
  rw [newDirent, write8_apply_other _ _ (by omega), blit_apply_other _ (by omega), fill_apply_other _ _ (by omega)]

private theorem newDirent_rest {i : Nat} (fits : name.length = 11) (low : 12 ≤ i) (high : i < 32) :
    newDirent b off name (off + i) = 0 := by
  rw [newDirent, write8_apply_other _ _ (by omega), blit_apply_other _ (by omega), fill_apply_inside _ _ (by omega)
      (show off + i < off + 32 by omega)]

theorem slice_newDirent (fits : name.length = 11) : slice (newDirent b off name) off 11 = name := by
  have same := slice_blit_same (fill b off direntSize 0) off name
  rw [fits] at same
  refine Eq.trans (slice_congr fun i small => ?_) same
  rw [newDirent, write8_apply_other _ _ (by omega)]

theorem startAt_newDirent (fits : name.length = 11) : startAt (newDirent b off name) off = 0 := by
  have high : read16 (newDirent b off name) (off + 20) = 0 := by
    simp only [read16, newDirent_rest fits (i := 20) (by omega) (by omega), Nat.add_assoc,
      newDirent_rest fits (i := 20 + 1) (by omega) (by omega)]
    rfl
  have low : read16 (newDirent b off name) (off + 26) = 0 := by
    simp only [read16, newDirent_rest fits (i := 26) (by omega) (by omega), Nat.add_assoc,
      newDirent_rest fits (i := 26 + 1) (by omega) (by omega)]
    rfl
  rw [startAt, high, low]
  rfl

theorem sizeAt_newDirent (fits : name.length = 11) : sizeAt (newDirent b off name) off = 0 := by
  simp only [sizeAt, read32, Nat.add_assoc, newDirent_rest fits (i := 28) (by omega) (by omega),
    newDirent_rest fits (i := 28 + 1) (by omega) (by omega), newDirent_rest fits (i := 28 + 2) (by omega) (by omega),
    newDirent_rest fits (i := 28 + 3) (by omega) (by omega)]
  rfl

theorem kindAt_newDirent {first : UInt8} (fits : name.length = 11) (begins : name[0]? = some first)
    (live : first ≠ 0x00 ∧ first ≠ 0xE5) : kindAt (newDirent b off name) off = .file := by
  have start : newDirent b off name off = first := by
    have whole : (slice (newDirent b off name) off 11)[0]? = name[0]? := congrArg (·[0]?) (slice_newDirent fits)
    rw [begins] at whole
    simpa [slice] using whole
  have attr : newDirent b off name (off + 11) = 0x20 := by simp [newDirent, write8]
  rw [kindAt, start, attr, if_neg live.1, if_neg live.2]
  rfl

private theorem entrySought_eq (name : List UInt8) (sector : Nat) (b : Sector) (off : Nat) :
    entrySought name sector b off = match kindAt b off with
      | .marker => some none
      | .file => if slice b off 11 = name then some (some (openedAt sector b off)) else none
      | _ => none := by
  unfold entrySought kindAt
  split
  · rfl
  · split
    · rfl
    · split
      · rfl
      · rfl

theorem findSome_sought {ι : Type} (entries : List ι) (sector : ι → Nat) (bytes : ι → Sector) (off : ι → Nat) (name : List UInt8) :
    (entries.findSome? fun x => entrySought name (sector x) (bytes x) (off x)).join =
      (((entries.takeWhile fun x => kindAt (bytes x) (off x) ≠ .marker).filter fun x => kindAt (bytes x) (off x) = .file).find?
        fun x => slice (bytes x) (off x) 11 = name).map fun x => openedAt (sector x) (bytes x) (off x) := by
  induction entries with
  | nil => rfl
  | cons x rest ih =>
    rw [List.findSome?_cons, entrySought_eq, List.takeWhile_cons]
    cases kind : kindAt (bytes x) (off x) with
    | marker => simp
    | deleted => simpa [kind] using ih
    | hidden => simpa [kind] using ih
    | file =>
      by_cases same : slice (bytes x) (off x) 11 = name
      · simp [kind, same]
      · simpa [kind, same] using ih

end Sectors

/-! ## Slots of a volume -/

namespace Vol

def kind (v : Vol) (slot : Slot) : Kind := kindAt (v.data slot.cluster slot.sector) slot.offset
def name (v : Vol) (slot : Slot) : List UInt8 := slice (v.data slot.cluster slot.sector) slot.offset 11
def start (v : Vol) (slot : Slot) : Nat := startAt (v.data slot.cluster slot.sector) slot.offset
def size (v : Vol) (slot : Slot) : Nat := sizeAt (v.data slot.cluster slot.sector) slot.offset

/-- The attribute byte of an entry says that it is no directory. -/
def regular (v : Vol) (slot : Slot) : Prop := v.data slot.cluster slot.sector (slot.offset + 11) &&& 0x10 = 0

def zeroed (v : Vol) (slot : Slot) : Prop := ∀ i < 32, v.data slot.cluster slot.sector (slot.offset + i) = 0

def SameEntry (v v' : Vol) (slot : Slot) : Prop :=
  ∀ i < 32, v'.data slot.cluster slot.sector (slot.offset + i) = v.data slot.cluster slot.sector (slot.offset + i)

section SameEntry
variable {v v' : Vol} {slot : Slot} (same : SameEntry v v' slot)
include same

theorem SameEntry.kind : v'.kind slot = v.kind slot := kindAt_congr same
theorem SameEntry.name : v'.name slot = v.name slot := slice_name_congr same
theorem SameEntry.start : v'.start slot = v.start slot := startAt_congr same
theorem SameEntry.size : v'.size slot = v.size slot := sizeAt_congr same

theorem SameEntry.regular : v'.regular slot ↔ v.regular slot := by
  rw [Vol.regular, same 11 (by omega), Vol.regular]

theorem SameEntry.zeroed : v'.zeroed slot ↔ v.zeroed slot :=
  forall_congr' fun i => imp_congr_right fun small => by rw [same i small]

end SameEntry

theorem zeroed_marker {v : Vol} {slot : Slot} (zeroed : v.zeroed slot) : v.kind slot = .marker := by
  have first := zeroed 0 (by omega)
  simp only [Nat.add_zero] at first
  rw [kind, kindAt, if_pos first]

theorem size_lt (v : Vol) (slot : Slot) : v.size slot < 2 ^ 32 := read32_lt _ _

theorem sameEntry_setData {v : Vol} {slot other : Slot} {sector : Sector} (different : other ≠ slot)
    (outside : ∀ j, j < slot.offset ∨ slot.offset + 32 ≤ j → sector j = v.data slot.cluster slot.sector j) :
    SameEntry v (v.setData slot.cluster slot.sector sector) other := by
  intro i small
  rw [setData_data]
  split
  · rename_i here
    rw [here.1, here.2]
    refine outside _ ?_
    have index : other.index ≠ slot.index := by
      intro same
      apply different
      cases other
      cases slot
      simp_all
    unfold Slot.offset direntSize
    omega
  · rfl

theorem sameEntry_setData_other {v : Vol} {c s : Nat} {slot : Slot} (sector : Sector) (other : slot.cluster ≠ c) :
    SameEntry v (v.setData c s sector) slot := by
  intro i _
  rw [setData_data, if_neg fun here => other here.1]

end Vol

/-! ## Files -/

def seen (b : Bpb) (v : Vol) (root : List Nat) : List Slot := (slots b root).takeWhile fun slot => v.kind slot ≠ .marker

/-- The files that a search of the root directory comes to. -/
def files (b : Bpb) (v : Vol) (root : List Nat) : List Slot := (seen b v root).filter fun slot => v.kind slot = .file

/-- The open file of an entry. -/
def opened (b : Bpb) (v : Vol) (slot : Slot) : OpenFile :=
  { startCluster := v.start slot, size := v.size slot, dirent := slot.loc b }

/-- The slot that a search for a free one finds. -/
def freeSlot (b : Bpb) (v : Vol) (root : List Nat) : Option Slot :=
  (slots b root).find? fun slot => v.kind slot = .marker ∨ v.kind slot = .deleted

section Files
variable {b : Bpb} {v v' : Vol} {root : List Nat} {slot : Slot}

theorem mem_files : slot ∈ files b v root ↔ v.kind slot = .file ∧
    ∃ front back, slots b root = front ++ slot :: back ∧ ∀ x ∈ front, v.kind x ≠ .marker := by
  simp only [files, seen, List.mem_filter, decide_eq_true_eq, Keyed.mem_takeWhile_iff]
  constructor
  · rintro ⟨⟨front, back, split, _, before⟩, kind⟩
    exact ⟨kind, front, back, split, before⟩
  · rintro ⟨kind, front, back, split, before⟩
    exact ⟨⟨front, back, split, by simp [kind], before⟩, kind⟩

theorem files_subset (member : slot ∈ files b v root) : slot ∈ slots b root := by
  obtain ⟨_, front, back, split, _⟩ := mem_files.mp member
  simp [split]

theorem files_kind (member : slot ∈ files b v root) : v.kind slot = .file := (mem_files.mp member).1

theorem files_congr (same : ∀ slot ∈ slots b root, v'.kind slot = v.kind slot) : files b v' root = files b v root := by
  have before : seen b v' root = seen b v root := Keyed.takeWhile_congr_mem fun x member => by rw [same x member]
  rw [files, before, files]
  refine List.filter_congr fun x member => ?_
  rw [same x ((List.takeWhile_prefix _).subset member)]

theorem Vol.kind_marker : v.kind slot = .marker ↔ v.data slot.cluster slot.sector slot.offset = 0x00 := by
  unfold Vol.kind kindAt
  split_ifs with zero gone hid <;> simp [zero]

theorem Vol.kind_deleted : v.kind slot = .deleted ↔ v.data slot.cluster slot.sector slot.offset = 0xE5 := by
  unfold Vol.kind kindAt
  split_ifs with zero gone hid
  · simp [zero]
  · simp [gone]
  · simp [gone]
  · simp [gone]

private theorem verdict_slotSought :
    verdict b slotSought v slot = if v.kind slot = .marker ∨ v.kind slot = .deleted then some (slot.loc b) else none := by
  simp only [verdict, slotSought, Vol.kind_marker, Vol.kind_deleted]
  rfl

private theorem findSome_entrySought (name : List UInt8) :
    ((slots b root).findSome? (verdict b (entrySought name) v)).join =
      ((files b v root).find? fun slot => v.name slot = name).map (opened b v) :=
  findSome_sought (slots b root) _ _ _ name

theorem findSome_slotSought :
    (slots b root).findSome? (verdict b slotSought v) = (freeSlot b v root).map (Slot.loc b) := by
  unfold freeSlot
  induction slots b root with
  | nil => rfl
  | cons slot rest ih =>
    rw [List.findSome?_cons, verdict_slotSought, List.find?_cons]
    by_cases free : v.kind slot = .marker ∨ v.kind slot = .deleted
    · simp [free]
    · simpa [free] using ih

end Files

section Find
variable {b : Bpb} {m : Mode} {J : Vol → Prop} {v : Vol} (geo : Geometry b) {root : List Nat} {fuel : Nat}
include geo

/-- The first file with the name is found, unless an access fails. -/
theorem does_findInRoot {Q : Option OpenFile → Vol → Prop} (chain : ChainFrom v.link b.rootCluster root)
    (has : ∀ x ∈ root, b.Has x) (enough : root.length ≤ fuel) {name : List UInt8}
    (finds : Q (((files b v root).find? fun slot => v.name slot = name).map (opened b v)) v) (misses : m.fails → Q none v) :
    Does b m J Q (findInRoot b fuel name) v := by
  rw [← findSome_entrySought] at finds
  refine .bind (does_walkRoot geo chain has enough ?_ ?_ ?_ ?_)
  · intro x decided
    rw [decided] at finds
    exact .ret finds
  · intro nothing z _
    rw [nothing] at finds
    exact .ret finds
  · exact fun fails => .ret (misses fails)
  · exact fun fails _ _ _ _ _ => .ret (misses fails)

end Find

end Pcern.Fat32

import Pcern.Bits

/-!
The I/O permission bitmap of the task state segment. The scheduler hands the
incoming task's port list to `setIoPermissions` on every switch. The function
does not rebuild the whole bitmap: it resets a leading part of it, as far as the
previous call or its own list reaches, and then clears the bits of its list.

The bytes from the dirty mark on are all ones (`Tidy`). So the part that is not
reset needs no reset, and the bitmap is the same as after a full one
(`setIoPermissions_eq`).
-/
namespace Pcern.Gdt

abbrev ioBitmapPorts : Nat := 65536

abbrev ioBitmapBytes : Nat := ioBitmapPorts / 8 + 1

/-- The part of the task state segment that says which ports ring 3 may use: a
    clear bit allows its port. The CPU wants one byte of ones behind the last port. -/
structure Tss where
  ioBitmap : List UInt8
  size : ioBitmap.length = ioBitmapBytes

def Tss.initial : Tss := ⟨List.replicate ioBitmapBytes 0xFF, List.length_replicate⟩

/-- `TSS` and `DIRTY_BITMAP_BYTES`. -/
structure Statics where
  tss : Tss
  dirtyBitmapBytes : Nat

def Statics.initial : Statics := ⟨.initial, 0⟩

/-- The leading bytes in which the bits of these ports lie. -/
def neededBytes (ports : List UInt16) : Nat :=
  ((ports.filter fun port => port.toNat < ioBitmapPorts).map fun port => port.toNat / 8 + 1).max?.getD 0

/-- The reset loop. -/
def resetBytes (bitmap : List UInt8) (count : Nat) : List UInt8 :=
  (List.range count).foldl (fun bitmap i => bitmap.set i 0xFF) bitmap

def allowPorts (bitmap : List UInt8) (ports : List UInt16) : List UInt8 :=
  ports.foldl (fun bitmap port =>
    if port.toNat < ioBitmapPorts then Bits.assign bitmap port.toNat false else bitmap) bitmap

theorem getElem?_resetBytes (bitmap : List UInt8) (count n : Nat) :
    (resetBytes bitmap count)[n]? = if n < count then bitmap[n]?.map fun _ => 0xFF else bitmap[n]? := by
  induction count with
  | zero => rfl
  | succ count ih =>
    have last : resetBytes bitmap (count + 1) = (resetBytes bitmap count).set count 0xFF := by
      simp [resetBytes, List.range_succ]
    rw [last]
    by_cases same : count = n
    · subst same
      rw [List.getElem?_set_self', ih, if_neg (Nat.lt_irrefl _), if_pos (Nat.lt_succ_self _)]
      rfl
    · have before : n < count + 1 ↔ n < count := by omega
      rw [List.getElem?_set_ne same, ih]
      simp only [before]

@[simp] theorem length_resetBytes (bitmap : List UInt8) (count : Nat) :
    (resetBytes bitmap count).length = bitmap.length := by
  unfold resetBytes
  induction List.range count generalizing bitmap with
  | nil => rfl
  | cons i rest ih => simp [ih]

private theorem allowPorts_eq (bitmap : List UInt8) (ports : List UInt16) :
    allowPorts bitmap ports = Bits.assignAll bitmap (ports.map UInt16.toNat) false := by
  have inside : ∀ port : UInt16, port.toNat < ioBitmapPorts := fun port => port.toNat_lt
  simp [allowPorts, Bits.assignAll, List.foldl_map, inside]

@[simp] theorem length_allowPorts (bitmap : List UInt8) (ports : List UInt16) :
    (allowPorts bitmap ports).length = bitmap.length := by
  simp [allowPorts_eq]

def setIoPermissions (g : Statics) (ports : List UInt16) : Statics :=
  let needed := neededBytes ports
  let reset := min (max g.dirtyBitmapBytes needed) ioBitmapBytes
  { tss := ⟨allowPorts (resetBytes g.tss.ioBitmap reset) ports, by simp [g.tss.size]⟩
    dirtyBitmapBytes := needed }

/-! ## The dirty mark -/

private theorem lt_neededBytes {ports : List UInt16} {port : UInt16} (listed : port ∈ ports) :
    port.toNat / 8 < neededBytes ports := by
  have inside : port.toNat < ioBitmapPorts := port.toNat_lt
  have counted : port.toNat / 8 + 1 ∈
      (ports.filter fun port => port.toNat < ioBitmapPorts).map fun port => port.toNat / 8 + 1 :=
    List.mem_map.mpr ⟨port, List.mem_filter.mpr ⟨listed, by simpa using inside⟩, rfl⟩
  unfold neededBytes
  obtain ⟨top, isTop⟩ : ∃ top, List.max? _ = some top := Option.ne_none_iff_exists'.mp fun none =>
    List.ne_nil_of_mem counted (List.max?_eq_none_iff.mp none)
  have bound := (List.max?_eq_some_iff.mp isTop).2 _ counted
  rw [isTop]
  exact bound

/-- No bit is clear from the dirty mark on. -/
def Tidy (g : Statics) : Prop :=
  ∀ n, g.dirtyBitmapBytes ≤ n → n < ioBitmapBytes → g.tss.ioBitmap[n]? = some 0xFF

theorem tidy_initial : Tidy .initial := by
  intro n _ inside
  exact List.getElem?_replicate_of_lt inside

theorem Tidy.resetBytes_eq {g : Statics} (tidy : Tidy g) (needed : Nat) :
    resetBytes g.tss.ioBitmap (min (max g.dirtyBitmapBytes needed) ioBitmapBytes) =
      List.replicate ioBitmapBytes 0xFF := by
  refine List.ext_getElem? fun n => ?_
  rw [getElem?_resetBytes, List.getElem?_replicate]
  by_cases inside : n < ioBitmapBytes
  · have present : ∃ byte, g.tss.ioBitmap[n]? = some byte :=
      ⟨_, List.getElem?_eq_getElem (by rw [g.tss.size]; exact inside)⟩
    obtain ⟨byte, isByte⟩ := present
    rw [if_pos inside]
    split
    · simp [isByte]
    · rename_i beyond
      exact tidy n (by omega) inside
  · have missing : g.tss.ioBitmap[n]? = none := by
      rw [List.getElem?_eq_none_iff, g.tss.size]
      omega
    simp [missing, inside]

theorem Tidy.setIoPermissions_eq {g : Statics} (tidy : Tidy g) (ports : List UInt16) :
    (setIoPermissions g ports).tss.ioBitmap = allowPorts (List.replicate ioBitmapBytes 0xFF) ports := by
  rw [← tidy.resetBytes_eq (neededBytes ports)]
  rfl

theorem Tidy.setIoPermissions {g : Statics} (tidy : Tidy g) (ports : List UInt16) :
    Tidy (setIoPermissions g ports) := by
  intro n clean inside
  have elsewhere : ∀ i ∈ ports.map UInt16.toNat, i / 8 ≠ n := by
    intro i member
    obtain ⟨port, listed, rfl⟩ := List.mem_map.mp member
    have below := lt_neededBytes listed
    have clean : neededBytes ports ≤ n := clean
    omega
  rw [tidy.setIoPermissions_eq, allowPorts_eq, Bits.getElem?_assignAll _ elsewhere]
  exact List.getElem?_replicate_of_lt inside

def afterCalls (calls : List (List UInt16)) : Statics := calls.foldl setIoPermissions .initial

private theorem tidy_afterCalls (calls : List (List UInt16)) : Tidy (afterCalls calls) := by
  suffices run : ∀ g, Tidy g → Tidy (calls.foldl Gdt.setIoPermissions g) from run _ tidy_initial
  induction calls with
  | nil => exact fun g tidy => tidy
  | cons ports later ih => exact fun g tidy => ih _ (tidy.setIoPermissions ports)

/-- The bitmap that a call leaves after the earlier ones. -/
def bitmapAfter (calls : List (List UInt16)) (ports : List UInt16) : List UInt8 :=
  (setIoPermissions (afterCalls calls) ports).tss.ioBitmap

/-- After every call the bitmap is the one a full rebuild gives: the bits of this
    call's ports are clear and no others, whatever the tasks before were allowed. -/
theorem afterCalls_rebuilt (calls : List (List UInt16)) (ports : List UInt16) :
    bitmapAfter calls ports = allowPorts (List.replicate ioBitmapBytes 0xFF) ports ∧
      (∀ port : UInt16, Bits.test (bitmapAfter calls ports) port.toNat = false ↔ port ∈ ports) ∧
      (bitmapAfter calls ports)[ioBitmapBytes - 1]? = some 0xFF := by
  have rebuilt : bitmapAfter calls ports = allowPorts (List.replicate ioBitmapBytes 0xFF) ports :=
    (tidy_afterCalls calls).setIoPermissions_eq ports
  refine ⟨rebuilt, ?_, ?_⟩
  · intro port
    have stored : ∀ port : UInt16, port.toNat / 8 < ioBitmapBytes := fun port => by
      have inside := port.toNat_lt
      simp only [ioBitmapBytes, ioBitmapPorts]
      omega
    have listed : port.toNat ∈ ports.map UInt16.toNat ↔ port ∈ ports :=
      List.mem_map_of_injective fun _ _ => UInt16.toNat_inj.mp
    have within : ∀ i ∈ ports.map UInt16.toNat, i / 8 < (List.replicate ioBitmapBytes (0xFF : UInt8)).length := by
      intro i member
      obtain ⟨port, _, rfl⟩ := List.mem_map.mp member
      rw [List.length_replicate]
      exact stored port
    rw [rebuilt, allowPorts_eq, Bits.test_assignAll _ _ within, Bits.test_replicate_ones (stored port)]
    simp only [listed]
    by_cases member : port ∈ ports <;> simp [member]
  · rw [rebuilt, allowPorts_eq, Bits.getElem?_assignAll]
    · exact List.getElem?_replicate_of_lt (by decide)
    · intro i member
      obtain ⟨port, _, rfl⟩ := List.mem_map.mp member
      have inside := port.toNat_lt
      simp only [ioBitmapBytes, ioBitmapPorts]
      omega

end Pcern.Gdt

import Pcern.Paging

/-!
The private half of an address space, page by page: which word maps page `v`,
what `map_page` does to the directory it works on, and when it has all it needs.

A frame is `Detached` if it is neither free nor part of a tree: a page of some
task, a module of the boot loader. Building address spaces avoids these frames
(`Avoids`): they stay detached, and nothing is written to them.
-/
namespace Pcern.Paging
open Bytes Pcern.Frame PageTables

def pageWord (m : Memory) (d v : Nat) : Nat := leaf m d (v / 1024) (v % 1024)

/-- A frame that is neither free nor part of a tree. -/
def Detached (mm : Mm) (dirs : Set Nat) (g : Nat) : Prop := g ∉ freeFrames mm.frames ∧ ¬Structural mm.mem 768 dirs (g * 4096)

/-- The detached frames stay so, and keep their bytes. -/
structure Avoids (mm mm' : Mm) (dirs dirs' : Set Nat) : Prop where
  stays : ∀ g, Detached mm dirs g → Detached mm' dirs' g
  bytes : ∀ a, Detached mm dirs (a / 4096) → mm'.mem a = mm.mem a

section
variable {mm mm' : Mm} {dirs dirs' : Set Nat}

theorem Avoids.trans {mm'' : Mm} {dirs'' : Set Nat} (first : Avoids mm mm' dirs dirs') (second : Avoids mm' mm'' dirs' dirs'') :
    Avoids mm mm'' dirs dirs'' := by
  refine ⟨fun g aside => second.stays g (first.stays g aside), fun a aside => ?_⟩
  rw [second.bytes a (first.stays _ aside), first.bytes a aside]

variable {d f i : Nat}

theorem DataFrame.detached (data : DataFrame mm dirs f) : Detached mm dirs (f / 4096) := by
  refine ⟨data.taken, ?_⟩
  have aligned := data.aligned
  rw [show f / 4096 * 4096 = f by omega]
  exact data.apart

theorem Avoids.alloc {phys : Nat} {frames' : Bitmap} (alloc : allocFrame mm.frames = some (phys, frames')) :
    Avoids mm { mm with frames := frames' } dirs dirs := by
  obtain ⟨f, _, _, _, count, marks, _⟩ := allocFrame_eq_some alloc
  refine ⟨fun g aside => ⟨fun free => aside.1 ?_, aside.2⟩, fun _ _ => rfl⟩
  rw [mem_freeFrames] at free ⊢
  rw [count, marks, Bool.or_eq_false_iff] at free
  exact ⟨free.1, free.2.2⟩

/-! ## What `map_page` changes -/

variable {dir virt phys : Nat} {u w : Bool}

/-- `map_page` changes one entry of one directory, and the frames of this directory and of the table behind the
    entry, which is a free frame or the one that was there. -/
theorem mapPage_entry (layout : Layout mm dirs) (member : dir ∈ dirs) (low : virt < kernelVma)
    (ran : mapPage mm dir virt phys u w = .ok mm') :
    ∃ e, (∀ d ∈ dirs, ∀ i < 1024,
        word mm'.mem d i = if d = dir ∧ i = virt / 0x400000 then e else word mm.mem d i) ∧
      (present (word mm.mem dir (virt / 0x400000)) = true ∧ mm'.frames = mm.frames ∧ present e = true ∧
          address e = address (word mm.mem dir (virt / 0x400000)) ∧ (u = true → user e = true) ∧
          (writable (word mm.mem dir (virt / 0x400000)) = true → writable e = true) ∨
        present (word mm.mem dir (virt / 0x400000)) = false ∧ ∃ pt, allocFrame mm.frames = some (pt, mm'.frames) ∧
          e = entry pt u true ∧ pt % 4096 = 0) ∧
      ∀ a, a < dir ∨ dir + 4096 ≤ a → a < address e ∨ address e + 4096 ≤ a → mm'.mem a = mm.mem a := by
  have region : virt / 0x400000 < 768 := by simp only [kernelVma] at low; omega
  have aligned := layout.spaces.aligned dir member
  obtain ⟨pt, mid, table, rfl⟩ := mapPage_eq_ok ran
  have tabled := pageTable_spec layout member region table
  have points := tabled.points
  have within : Structural mid.mem 768 dirs pt := points ▸ .table member region tabled.here
  have onFrame := tabled.layout.spaces.structural_aligned within
  -- the leaf is written to the table, not to a directory
  have leafApart : ∀ d ∈ dirs, ∀ i < 1024,
      word (write32 mid.mem (pt + 4 * (virt / 4096 % 1024)) (entry phys u w)) d i = word mid.mem d i := by
    intro d member' i inside
    have aligned' := layout.spaces.aligned d member'
    have other : d ≠ pt := fun same =>
      tabled.layout.spaces.apart dir member _ region tabled.here (points ▸ same ▸ member')
    exact read32_write32_other _ _ _ (by omega)
  refine ⟨word mid.mem dir (virt / 0x400000), fun d member' i inside => ?_, ?_, fun a outside outside' => ?_⟩
  · rw [leafApart d member' i inside]
    split
    · rename_i same
      rw [same.1, same.2]
    · rename_i other
      exact tabled.words d member' i inside other
  · rcases tabled.how with ⟨here, frames, same, isUser, wide⟩ | ⟨absent, alloc, placed, _⟩
    · exact .inl ⟨here, frames, tabled.here, points.trans same, isUser, wide⟩
    · exact .inr ⟨absent, pt, alloc, placed, onFrame⟩
  · rw [points] at outside'
    exact (write32_apply_other _ _ _ (by omega)).trans (tabled.bytes a outside outside')

theorem mapPage_pageWord (layout : Layout mm dirs) (member : dir ∈ dirs) (low : virt < kernelVma)
    (target : DataFrame mm dirs phys) (ran : mapPage mm dir virt phys u w = .ok mm') {v : Nat} (private' : v < 786432) :
    pageWord mm'.mem dir v = if v = virt / 4096 then entry phys u w else pageWord mm.mem dir v := by
  obtain ⟨_, _, leaves⟩ := mapPage_spec layout member low target ran
  rw [pageWord, leaves dir member _ (by omega) _ (by omega)]
  exact if_congr (by omega) rfl rfl

theorem mapPage_avoids (layout : Layout mm dirs) (member : dir ∈ dirs) (low : virt < kernelVma)
    (ran : mapPage mm dir virt phys u w = .ok mm') : Avoids mm mm' dirs dirs := by
  obtain ⟨e, words, how, bytes⟩ := mapPage_entry layout member low ran
  have aligned := layout.spaces.aligned dir member
  have region : virt / 0x400000 < 768 := by simp only [kernelVma] at low; omega
  -- the table behind the entry was part of the tree, or free
  have behind : address e % 4096 = 0 ∧ (Structural mm.mem 768 dirs (address e) ∨ address e / 4096 ∈ freeFrames mm.frames) := by
    refine ⟨address_aligned e, ?_⟩
    rcases how with ⟨here, _, _, points, _⟩ | ⟨_, pt, alloc, rfl, onFrame⟩
    · rw [points]
      exact .inl (.table member region here)
    · rw [address_entry onFrame]
      exact .inr (layout.alloc alloc).2.2.2.1
  have apart : ∀ g, Detached mm dirs g → g * 4096 ≠ dir ∧ g * 4096 ≠ address e := by
    refine fun g aside => ⟨fun same => aside.2 (.inl (same ▸ member)), fun same => ?_⟩
    rcases behind.2 with within | free
    · exact aside.2 (same ▸ within)
    · rw [← same, Nat.mul_div_cancel _ (by decide)] at free
      exact aside.1 free
  have unfree : ∀ g, g ∉ freeFrames mm.frames → g ∉ freeFrames mm'.frames := by
    rcases how with ⟨_, frames, _⟩ | ⟨_, pt, alloc, _⟩
    · rw [frames]
      exact fun _ used => used
    · exact fun g used free => used ((layout.alloc alloc).2.1.free g free)
  refine ⟨fun g aside => ⟨unfree g aside.1, ?_⟩, fun a aside => ?_⟩
  · rintro (isDir | ⟨d, member', i, less, here, points⟩)
    · exact aside.2 (.inl isDir)
    · rw [words d member' i (by omega)] at here points
      split at here
      · rename_i same
        rw [if_pos same] at points
        exact (apart g aside).2 points.symm
      · rename_i other
        rw [if_neg other] at points
        exact aside.2 (.inr ⟨d, member', i, less, here, points⟩)
  · have := apart _ aside
    have := behind.1
    exact bytes a (by omega) (by omega)

theorem mapPage_total (layout : Layout mm dirs) (member : dir ∈ dirs) (low : virt < kernelVma) (virtAligned : virt % 4096 = 0)
    (physAligned : phys % 4096 = 0) (u w : Bool)
    (enough : present (word mm.mem dir (virt / 0x400000)) = true ∨ 0 < freeCount mm.frames) :
    ∃ mm', mapPage mm dir virt phys u w = .ok mm' := by
  have region : virt / 0x400000 < 768 := by simp only [kernelVma] at low; omega
  cases result : mapPage mm dir virt phys u w with
  | ok mm' => exact ⟨mm', rfl⟩
  | error reason =>
    dsimp only [mapPage] at result
    rw [if_neg (by omega)] at result
    split at result
    · rename_i clash
      rw [Bool.and_eq_true] at clash
      have plain := layout.spaces.small dir member _ region clash.1
      rw [clash.2] at plain
      cases plain
    · rcases Loops.bind_eq_error.mp result with failed | ⟨_, _, impossible⟩
      · obtain ⟨_, absent, none⟩ := pageTable_eq_error.mp failed
        rcases enough with here | some
        · rw [absent] at here
          cases here
        · omega
      · cases impossible

theorem mapPage_count (layout : Layout mm dirs) (member : dir ∈ dirs) (low : virt < kernelVma)
    (ran : mapPage mm dir virt phys u w = .ok mm') :
    present (word mm'.mem dir (virt / 0x400000)) = true ∧
      freeCount mm'.frames + (if present (word mm.mem dir (virt / 0x400000)) then 0 else 1) = freeCount mm.frames := by
  have region : virt / 0x400000 < 768 := by simp only [kernelVma] at low; omega
  obtain ⟨e, words, how, _⟩ := mapPage_entry layout member low ran
  rw [words dir member _ (by omega), if_pos ⟨rfl, rfl⟩]
  rcases how with ⟨here, frames, stays, _⟩ | ⟨absent, pt, alloc, rfl, onFrame⟩
  · rw [if_pos here, frames]
    exact ⟨stays, rfl⟩
  · rw [absent]
    exact ⟨present_entry onFrame u true, freeCount_allocFrame alloc⟩

/-! ## New directories -/

theorem newDirectory_empty (layout : Layout mm dirs) (made : newDirectory mm = .ok (d, mm')) (low : i < 768) :
    word mm'.mem d i = 0 := by
  unfold newDirectory at made
  split at made
  · cases made
  · rename_i physFrame frames' alloc
    cases made
    have onFrame := (layout.alloc alloc).2.2.1.aligned
    calc word (copyKernelHalf (fill mm.mem d 4096 0) mm.image.bootDir d) d i = word (fill mm.mem d 4096 0) d i :=
          read32_copyFrom_other _ _ (by omega)
      _ = 0 := by rw [word_fill _ onFrame onFrame (by omega), if_pos rfl]

theorem newDirectory_avoids (layout : Layout mm dirs) (made : newDirectory mm = .ok (d, mm')) :
    Avoids mm mm' dirs (insert d dirs) := by
  obtain ⟨_, grows, _, free, _, _⟩ := newDirectory_spec layout made
  have empty : ∀ i < 768, word mm'.mem d i = 0 := fun i low => newDirectory_empty layout made low
  unfold newDirectory at made
  split at made
  · cases made
  · rename_i physFrame frames' alloc
    cases made
    obtain ⟨took, _, data, _, _, fresh⟩ := layout.alloc alloc
    have onFrame := data.aligned
    have outside : ∀ a, a / 4096 ∉ freeFrames mm.frames →
        copyKernelHalf (fill mm.mem d 4096 0) mm.image.bootDir d a = mm.mem a := by
      intro a used
      have apart : a < d ∨ d + 4096 ≤ a := by
        by_contra inside
        exact used (by rwa [show a / 4096 = d / 4096 by omega])
      rw [copyKernelHalf, copyFrom_apply_other _ _ (by omega), fill_apply_other _ _ (by omega)]
    refine ⟨fun g aside => ⟨fun left => aside.1 (grows.free g left), ?_⟩, fun a aside => outside a aside.1⟩
    rintro ((same | isDir) | ⟨d', same | member', i, less, here, points⟩)
    · rw [← same, Nat.mul_div_cancel _ (by decide)] at free
      exact aside.1 free
    · exact aside.2 (.inl isDir)
    · rw [same, empty i less] at here
      cases here
    · have aligned' := layout.spaces.aligned d' member'
      have used := (layout.trees d' (.inl member')).1
      have kept : word (copyKernelHalf (fill mm.mem d 4096 0) mm.image.bootDir d) d' i = word mm.mem d' i :=
        word_congr (fun a low high => outside a (by rwa [show a / 4096 = d' / 4096 by omega])) (by omega)
      rw [kept] at here points
      exact aside.2 (.inr ⟨d', member', i, less, here, points⟩)

theorem newDirectory_total (enough : 0 < freeCount mm.frames) :
    ∃ d mm', newDirectory mm = .ok (d, mm') ∧ freeCount mm'.frames + 1 = freeCount mm.frames := by
  cases alloc : allocFrame mm.frames with
  | none => exact absurd (allocFrame_eq_none_iff.mp alloc) (by omega)
  | some handed =>
    obtain ⟨d, frames⟩ := handed
    have made : newDirectory mm =
        .ok (d, { mm with frames, mem := copyKernelHalf (fill mm.mem d 4096 0) mm.image.bootDir d }) := by
      rw [newDirectory, alloc]
    exact ⟨d, _, made, freeCount_allocFrame alloc⟩

/-! ## Bytes of pages -/

theorem Layout.writeData_word (layout : Layout mm dirs) (data : DataFrame mm dirs f) {mem' : Memory}
    (same : ∀ a, a < f ∨ f + 4096 ≤ a → mem' a = mm.mem a) (member : d ∈ dirs) (inside : i < 1024) :
    word mem' d i = word mm.mem d i := by
  have other : d ≠ f := fun equal => data.apart (equal ▸ .inl member)
  have aligned := data.aligned
  have aligned' := layout.spaces.aligned d member
  exact word_congr (fun a low high => same a (by omega)) inside

theorem Layout.writeData_stays (layout : Layout mm dirs) (data : DataFrame mm dirs f) {mem' : Memory}
    (same : ∀ a, a < f ∨ f + 4096 ≤ a → mem' a = mm.mem a) {g : Nat} (aside : Detached mm dirs g) :
    Detached { mm with mem := mem' } dirs g := by
  refine ⟨aside.1, ?_⟩
  rintro (isDir | ⟨d, member, i, less, here, points⟩)
  · exact aside.2 (.inl isDir)
  · rw [layout.writeData_word data same member (by omega)] at here points
    exact aside.2 (.inr ⟨d, member, i, less, here, points⟩)

/-! ## The window onto physical memory -/

/-- The 4 MiB pages of the boot directory from `PHYS_MAP_BASE` on, for all of memory. -/
def Windowed (mm : Mm) : Prop :=
  ∀ i, i * 1024 < mm.frames.frameCount → word mm.mem mm.image.bootDir (896 + i) = i * 0x400000 ||| 0x83

private theorem window_eq (i : Nat) : i * 0x400000 ||| 0x83 = 2 ^ 22 * i + 0x83 := by
  rw [Nat.two_pow_add_eq_or_of_lt (i := 22) (by decide : 0x83 < 2 ^ 22) i, Nat.mul_comm]

theorem testBit_window {i j : Nat} (low : j < 22) : (i * 0x400000 ||| 0x83).testBit j = Nat.testBit 0x83 j := by
  rw [window_eq, Nat.testBit_two_pow_mul_add _ (by decide), if_pos low]

theorem Grows.boot_word (grows : Grows mm mm' dirs dirs') (layout' : Layout mm' dirs') (inside : i < 1024) :
    word mm'.mem mm'.image.bootDir i = word mm.mem mm.image.bootDir i := by
  have ⟨low, high⟩ := bootDir_frame mm.image
  have aligned := mm.image.aligned
  rw [grows.image]
  refine word_congr (fun a from' to' => ?_) inside
  have frame : a / 4096 = mm.image.bootDir / 4096 := by omega
  refine grows.untouched a (fun out => ?_) (by omega)
  have := (layout'.handed _ out).1
  rw [grows.image] at this
  omega

theorem Windowed.grow (windowed : Windowed mm) (layout : Layout mm dirs) (layout' : Layout mm' dirs')
    (grows : Grows mm mm' dirs dirs') : Windowed mm' := by
  intro i less
  have := layout.bounded
  rw [grows.count] at less
  rw [grows.boot_word layout' (by omega)]
  exact windowed i less

theorem Windowed.load (windowed : Windowed mm) (layout : Layout mm dirs) {cr3 a : Nat}
    (shares : cr3 ∈ dirs ∨ cr3 = mm.image.bootDir) (inside : a / 4096 < mm.frames.frameCount) :
    load8 mm.mem cr3 ((physMapBase + a) % 2 ^ 32) = some (mm.mem a) := by
  have bounded := layout.bounded
  have unwrapped : (physMapBase + a) % 2 ^ 32 = physMapBase + a := Nat.mod_eq_of_lt (by simp only [physMapBase]; omega)
  have region : (physMapBase + a) / 0x400000 = 896 + a / 0x400000 := by simp only [physMapBase]; omega
  have pde : word mm.mem cr3 (896 + a / 0x400000) = a / 0x400000 * 0x400000 ||| 0x83 := by
    rw [← windowed (a / 0x400000) (by omega)]
    rcases shares with member | rfl
    · exact layout.shared cr3 member _ (by omega) (by omega)
    · rfl
  have here : present (a / 0x400000 * 0x400000 ||| 0x83) = true := testBit_window (by decide)
  have isLarge : large (a / 0x400000 * 0x400000 ||| 0x83) = true := testBit_window (by decide)
  rw [unwrapped, load8, PageTables.translate, region, pde]
  simp only [here, isLarge, Bool.not_true, Bool.false_eq_true, if_false, if_true, Option.map_some, Option.some.injEq]
  rw [window_eq]
  congr 1
  simp only [physMapBase]
  omega

end
end Pcern.Paging

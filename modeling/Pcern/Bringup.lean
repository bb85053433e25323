import Pcern.Handouts
import Pcern.Regions
import Pcern.Steps

/-!
Memory after `kernel_main` has brought it up: only the kernel's image and the
frames of modules are used, the boot directory maps the first 4 MiB and the
window, and no directory of a task exists yet.
-/
namespace Pcern
open Bytes Pcern.Frame Loops PageTables Paging

def Platform.probed (p : Platform) : Except Stop Mm := do
  match ← Multiboot.totalMemoryBytes (startupMemory p) p.image.bootDir p.info with
  | none => .error .noMemorySize
  | some total => if 1024 < 896 + entriesNeeded total then .error .memoryTooLarge else smokeTest (memoryInit p total)

/-- A module that the boot loader lists, placed in memory. -/
def Platform.HasModule (p : Platform) (m : Multiboot.Module) : Prop :=
  ∃ mm index, p.probed = .ok mm ∧ Multiboot.module mm.mem mm.image.bootDir p.info index = .ok (some m) ∧ m.start ≤ m.stop ∧
    m.stop ≤ mm.frames.frameCount * 4096

/-- Memory with no task in it: the layout without a directory, and the window. -/
structure Bare (p : Platform) (mm : Mm) : Prop where
  layout : Layout mm ∅
  window : Windowed mm
  image : mm.image = p.image

section
variable {p : Platform} {mm mm' : Mm}

theorem not_structural_empty {m : Memory} {n f : Nat} : ¬Structural m n ∅ f := by
  rintro (none | ⟨_, none, _⟩)
  · exact none
  · exact none

private theorem layout_empty (bounded : mm.frames.frameCount ≤ 131072) (kernel : ∀ g ∈ freeFrames mm.frames, mm.image.firstFrame ≤ g)
    (handed : ∀ g ∈ mm.frames.handedOut, mm.image.firstFrame ≤ g ∧ g < mm.frames.frameCount)
    (closed : ∀ i < 1024, user (word mm.mem mm.image.bootDir i) = false) : Layout mm ∅ where
  spaces := ⟨fun _ none => none.elim, fun _ none => none.elim, fun _ none => none.elim, fun _ none => none.elim⟩
  trees _ within := absurd within not_structural_empty
  bounded := bounded
  kernel := kernel
  handed := handed
  shared _ none := none.elim
  closed := closed
  leaves _ none := none.elim

theorem Paging.Layout.forget {dirs : Set Nat} (layout : Layout mm dirs) : Layout mm ∅ :=
  layout_empty layout.bounded layout.kernel layout.handed layout.closed

/-! ## The boot directory -/

variable {i phys total : Nat}

private theorem physMap_word (m : Memory) {boot n : Nat} (aligned : boot % 4096 = 0) (fits : n ≤ 128) (inside : i < 1024) :
    word (physMap m boot n) boot i = if 896 ≤ i ∧ i < 896 + n then (i - 896) * 0x400000 ||| 0x83 else word m boot i := by
  induction n with
  | zero => rw [if_neg (by omega)]; rfl
  | succ n ih =>
    have small : n * 0x400000 ||| 0x83 < 2 ^ 32 := Nat.or_lt_two_pow (by omega) (by decide)
    have last : physMap m boot (n + 1) = write32 (physMap m boot n) (boot + 4 * (896 + n)) (n * 0x400000 ||| 0x83) := by
      simp only [physMap, List.range_succ, List.foldl_append, List.foldl_cons, List.foldl_nil]
    rw [last, word_write32 _ aligned (by omega) small aligned inside, ih (by omega)]
    by_cases here : i = 896 + n
    · rw [if_pos ⟨rfl, here⟩, if_pos (by omega), here, Nat.add_sub_cancel_left]
    · rw [if_neg fun same => here same.2]
      exact if_congr (by omega) rfl rfl

theorem startupMemory_word (p : Platform) (inside : i < 1024) :
    word (startupMemory p) p.image.bootDir i = if i = 768 ∨ i = 0 then 0x83 else 0 := by
  have aligned := p.image.aligned
  have blank : word p.mem p.image.bootDir i = 0 := by
    have zero := p.blank
    simp only [word, read32]
    rw [zero _ (by omega) (by omega), zero _ (by omega) (by omega), zero _ (by omega) (by omega), zero _ (by omega) (by omega)]
    rfl
  rw [startupMemory, word_write32 _ aligned (by decide) (by decide) aligned inside,
    word_write32 _ aligned (by decide) (by decide) aligned inside, blank]
  by_cases high : i = 768
  · simp [high]
  · by_cases low : i = 0
    · simp [low]
    · simp [high, low]

/-- The boot directory once all memory is mapped behind the kernel. -/
theorem memoryInit_word (fits : 896 + entriesNeeded total ≤ 1024) (inside : i < 1024) :
    word (memoryInit p total).mem p.image.bootDir i =
      if 896 ≤ i ∧ i < 896 + entriesNeeded total then (i - 896) * 0x400000 ||| 0x83
      else if i = 768 ∨ i = 0 then 0x83 else 0 := by
  rw [← startupMemory_word p inside]
  exact physMap_word _ p.image.aligned (by omega) inside

/-- A boot directory without page tables. -/
def Solid (mm : Mm) : Prop :=
  ∀ i < 1024, present (word mm.mem mm.image.bootDir i) = true → large (word mm.mem mm.image.bootDir i) = true

private theorem memoryInit_solid (fits : 896 + entriesNeeded total ≤ 1024) : Solid (memoryInit p total) := by
  intro i inside
  show present (word (memoryInit p total).mem p.image.bootDir i) = true →
    large (word (memoryInit p total).mem p.image.bootDir i) = true
  rw [memoryInit_word fits inside]
  split
  · exact fun _ => testBit_window (by decide)
  · split <;> decide

theorem memoryInit_bare (fits : 896 + entriesNeeded total ≤ 1024) : Bare p (memoryInit p total) := by
  have aligned := p.image.aligned
  have needed : entriesNeeded total = (total + 0x3FFFFF) / 0x400000 := rfl
  refine ⟨layout_empty (show total / 4096 ≤ 131072 by omega) ?_ ?_ ?_, ?_, rfl⟩
  · intro g free
    obtain ⟨inside, unused⟩ := mem_freeFrames.mp free
    rw [show (memoryInit p total).frames.isUsed g = _ from init_isUsed inside, decide_eq_false_iff_not] at unused
    exact Nat.le_of_not_lt unused
  · intro g none
    cases none
  · intro i inside
    show user (word (memoryInit p total).mem p.image.bootDir i) = false
    rw [memoryInit_word fits inside]
    split
    · exact testBit_window (by decide)
    · split <;> decide
  · intro i less
    have less : i * 1024 < total / 4096 := less
    show word (memoryInit p total).mem p.image.bootDir (896 + i) = _
    rw [memoryInit_word fits (by omega), if_pos (by omega), Nat.add_sub_cancel_left]

/-! ## The smoke test -/

private theorem allocOr_eq_ok {reason : Stop} (alloc : allocOr reason mm = .ok (phys, mm')) :
    ∃ frames, allocFrame mm.frames = some (phys, frames) ∧ mm' = { mm with frames } := by
  unfold allocOr at alloc
  split at alloc
  · cases alloc
  · rename_i frames taken
    cases alloc
    exact ⟨frames, taken, rfl⟩

/-- A smoke test that passes has been given the frame it freed once more. -/
theorem smokeTest_eq_ok (ran : smokeTest mm = .ok mm') :
    ∃ f1 f2 d b1 b2 b3, allocFrame mm.frames = some (f1, b1) ∧ allocFrame b1 = some (f2, b2) ∧ f1 ≠ f2 ∧
      allocFrame (freeFrame b2 f1) = some (f1, b3) ∧
      newDirectory { mm with frames := freeFrame (freeFrame b3 f2) f1 } = .ok (d, mm') := by
  unfold smokeTest at ran
  obtain ⟨⟨f1, mm1⟩, first, ran⟩ := bind_eq_ok.mp ran
  obtain ⟨⟨f2, mm2⟩, second, ran⟩ := bind_eq_ok.mp ran
  obtain ⟨b1, alloc1, rfl⟩ := allocOr_eq_ok first
  obtain ⟨b2, alloc2, rfl⟩ := allocOr_eq_ok second
  dsimp only at ran
  split at ran
  · cases ran
  · rename_i other
    obtain ⟨⟨f3, mm3⟩, third, ran⟩ := bind_eq_ok.mp ran
    obtain ⟨b3, alloc3, rfl⟩ := allocOr_eq_ok third
    dsimp only at ran
    split at ran
    · cases ran
    · rename_i again
      obtain ⟨⟨d, mm4⟩, made, ran⟩ := bind_eq_ok.mp ran
      cases ran
      cases not_not.mp again
      exact ⟨f1, f2, d, b1, b2, b3, alloc1, alloc2, other, alloc3, made⟩

theorem Bare.alloc (bare : Bare p mm) {frames : Bitmap} (alloc : allocFrame mm.frames = some (phys, frames)) :
    Bare p { mm with frames } ∧ frames.frameCount = mm.frames.frameCount ∧ mm.image.firstFrame ≤ phys / 4096 ∧
      phys / 4096 < mm.frames.frameCount := by
  obtain ⟨kept, grows, _, free, _⟩ := bare.layout.alloc alloc
  exact ⟨⟨kept, bare.window.grow bare.layout kept grows, bare.image⟩, grows.count, bare.layout.kernel _ free,
    (mem_freeFrames.mp free).1⟩

theorem Bare.free (bare : Bare p mm) (phys : Nat) (above : mm.image.firstFrame ≤ phys / 4096)
    (inside : phys / 4096 < mm.frames.frameCount) : Bare p { mm with frames := freeFrame mm.frames phys } := by
  refine ⟨layout_empty bare.layout.bounded ?_ bare.layout.handed bare.layout.closed, bare.window, bare.image⟩
  intro g free
  obtain ⟨below, unused⟩ := mem_freeFrames.mp free
  rw [freeFrame_isUsed inside, Bool.and_eq_false_iff, Bool.not_eq_false', decide_eq_true_eq] at unused
  rcases unused with rfl | unused
  · exact above
  · exact bare.layout.kernel g (mem_freeFrames.mpr ⟨below, unused⟩)

theorem smokeTest_bare (bare : Bare p mm) (ran : smokeTest mm = .ok mm') :
    Bare p mm' ∧ mm'.frames.frameCount = mm.frames.frameCount ∧ mm.image.firstFrame < mm.frames.frameCount ∧
      ∀ i < 1024, word mm'.mem mm'.image.bootDir i = word mm.mem mm.image.bootDir i := by
  obtain ⟨f1, f2, d, b1, b2, b3, alloc1, alloc2, _, alloc3, made⟩ := smokeTest_eq_ok ran
  obtain ⟨bare1, count1, above1, inside1⟩ := bare.alloc alloc1
  obtain ⟨bare2, count2, above2, inside2⟩ := bare1.alloc alloc2
  dsimp only at count2 above2 inside2
  have freed := bare2.free f1 above1 (show _ < b2.frameCount by omega)
  obtain ⟨bare3, count3, above3, inside3⟩ := freed.alloc alloc3
  have count3 : b3.frameCount = b2.frameCount := count3
  have freed2 := bare3.free f2 above2 (show _ < b3.frameCount by omega)
  have freed3 := freed2.free f1 above1 (show _ < b3.frameCount by omega)
  obtain ⟨kept, grows, _⟩ := newDirectory_spec freed3.layout made
  refine ⟨⟨kept.forget, freed3.window.grow freed3.layout kept grows, grows.image.trans freed3.image⟩, ?_, by omega,
    fun i inside => grows.boot_word kept inside⟩
  rw [show mm'.frames.frameCount = b3.frameCount from grows.count]
  omega

/-! ## The modules -/

theorem module_counted {m : Memory} {cr3 info index : Nat} {found : Multiboot.Module}
    (listed : Multiboot.module m cr3 info index = .ok (some found)) :
    ∃ count, Multiboot.moduleCount m cr3 info = .ok count ∧ index < count := by
  unfold Multiboot.module at listed
  obtain ⟨flags, readFlags, listed⟩ := bind_eq_ok.mp listed
  split at listed
  · cases listed
  · rename_i has
    obtain ⟨count, readCount, listed⟩ := bind_eq_ok.mp listed
    split at listed
    · cases listed
    · rename_i inside
      refine ⟨count, ?_, Nat.lt_of_not_le inside⟩
      refine bind_eq_ok.mpr ⟨flags, readFlags, ?_⟩
      rw [if_neg has]
      exact readCount

private theorem mem_freeFrames_reserve {bm : Bitmap} {start stop g : Nat} :
    g ∈ freeFrames (reserveRange bm start stop) ↔ g ∈ freeFrames bm ∧ ¬Marked start stop g := by
  have frames : (reserveRange bm start stop).frameCount = bm.frameCount := rfl
  rw [mem_freeFrames, mem_freeFrames, frames, and_assoc]
  refine and_congr_right fun below => ?_
  rw [reserveRange_isUsed below, Bool.or_eq_false_iff, decide_eq_false_iff_not, and_comm]
  rfl

theorem Bare.reserve (bare : Bare p mm) (start stop : Nat) : Bare p { mm with frames := reserveRange mm.frames start stop } := by
  refine ⟨layout_empty bare.layout.bounded ?_ bare.layout.handed bare.layout.closed, bare.window, bare.image⟩
  exact fun g free => bare.layout.kernel g (mem_freeFrames_reserve.mp free).1

theorem reserveAllModules_bare {info : Nat} (bare : Bare p mm) (ran : reserveAllModules mm info = .ok mm') :
    Bare p mm' ∧ mm'.mem = mm.mem ∧ mm'.frames.frameCount = mm.frames.frameCount ∧
      mm'.frames.handedOut = mm.frames.handedOut ∧
      ∀ g, g ∈ freeFrames mm'.frames ↔ g ∈ freeFrames mm.frames ∧
        ∀ index m, Multiboot.module mm.mem mm.image.bootDir info index = .ok (some m) → ¬Marked m.start m.stop g := by
  unfold reserveAllModules at ran
  obtain ⟨count, counted, ran⟩ := bind_eq_ok.mp ran
  have loop := forRange_invariant (fun n mid => (Bare p mid ∧ mid.mem = mm.mem ∧
      mid.frames.frameCount = mm.frames.frameCount ∧ mid.frames.handedOut = mm.frames.handedOut) ∧
      ∀ g, g ∈ freeFrames mid.frames ↔ g ∈ freeFrames mm.frames ∧
        ∀ index < n, ∀ m, Multiboot.module mm.mem mm.image.bootDir info index = .ok (some m) → ¬Marked m.start m.stop g)
    ran ⟨⟨bare, rfl, rfl, rfl⟩, fun g => ⟨fun free => ⟨free, fun _ none => absurd none (Nat.not_lt_zero _)⟩, And.left⟩⟩ ?_
  · refine ⟨loop.1.1, loop.1.2.1, loop.1.2.2.1, loop.1.2.2.2, fun g => (loop.2 g).trans (and_congr_right fun _ => ?_)⟩
    refine ⟨fun clear index m listed => clear index ?_ m listed, fun clear index _ => clear index⟩
    obtain ⟨count', counted', inside⟩ := module_counted listed
    cases counted.symm.trans counted'
    exact inside
  · rintro n _ mid mid' ⟨⟨bare', mem, frames⟩, free⟩ step
    obtain ⟨found, read, step⟩ := bind_eq_ok.mp step
    rw [mem, bare'.image.trans bare.image.symm] at read
    -- the entries up to `n` are the earlier ones and the one just read
    have last : ∀ g,
        (∀ index < n + 1, ∀ m, Multiboot.module mm.mem mm.image.bootDir info index = .ok (some m) →
          ¬Marked m.start m.stop g) ↔
        (∀ index < n, ∀ m, Multiboot.module mm.mem mm.image.bootDir info index = .ok (some m) → ¬Marked m.start m.stop g) ∧
          ∀ m, found = some m → ¬Marked m.start m.stop g := by
      refine fun g => Nat.forall_lt_succ_right.trans (and_congr_right fun _ => forall_congr' fun m => ?_)
      rw [read, Except.ok.injEq]
    cases found with
    | none =>
      cases step
      refine ⟨⟨bare', mem, frames⟩, fun g => (free g).trans (and_congr_right fun _ => ?_)⟩
      rw [last g]
      exact ⟨fun clear => ⟨clear, fun _ none => absurd none.symm (Option.some_ne_none _)⟩, And.left⟩
    | some this =>
      cases step
      refine ⟨⟨bare'.reserve _ _, mem, frames⟩, fun g => mem_freeFrames_reserve.trans ?_⟩
      rw [last g, free g, and_assoc]
      refine and_congr_right fun _ => and_congr_right fun _ => ?_
      exact ⟨fun clear m same => Option.some.inj same ▸ clear, fun clear => clear this rfl⟩

/-- The kernel before its first task: the frames of all modules are reserved, and nothing is mapped for a task. -/
theorem bringUp_bare {k : Kernel} (up : bringUp p = .ok k) :
    ∃ mm mm', p.probed = .ok mm ∧ reserveAllModules mm p.info = .ok mm' ∧ k = withoutTasks mm' p.info ∧ Bare p mm ∧
      0xB8 < mm.frames.frameCount ∧ Solid mm := by
  obtain ⟨total, mm, mm', sized, fits, tested, reserved, rfl⟩ := bringUp_eq_ok up
  have fits : 896 + entriesNeeded total ≤ 1024 := by omega
  obtain ⟨bare, count, room, words⟩ := smokeTest_bare (memoryInit_bare fits) tested
  refine ⟨mm, mm', ?_, reserved, rfl, bare, ?_, fun i inside => ?_⟩
  · refine bind_eq_ok.mpr ⟨some total, sized, ?_⟩
    dsimp only
    rw [if_neg (by omega)]
    exact tested
  · have := bootDir_frame p.image
    have room : p.image.firstFrame < _ := room
    omega
  · rw [words i inside]
    exact memoryInit_solid fits i inside

theorem bringUp_one {m : Multiboot.Module} (probed : p.probed = .ok mm)
    (counted : Multiboot.moduleCount mm.mem mm.image.bootDir p.info = .ok 1)
    (listed : Multiboot.module mm.mem mm.image.bootDir p.info 0 = .ok (some m)) :
    bringUp p = .ok (withoutTasks { mm with frames := reserveRange mm.frames m.start m.stop } p.info) := by
  have reserved : reserveAllModules mm p.info = .ok { mm with frames := reserveRange mm.frames m.start m.stop } := by
    refine bind_eq_ok.mpr ⟨1, counted, forRange_succ_eq_ok.mpr ⟨mm, rfl, ?_⟩⟩
    exact bind_eq_ok.mpr ⟨_, listed, rfl⟩
  obtain ⟨size, sized, probed⟩ := bind_eq_ok.mp probed
  refine bind_eq_ok.mpr ⟨size, sized, ?_⟩
  cases size with
  | none => cases probed
  | some total =>
    dsimp only at probed ⊢
    split at probed
    · cases probed
    · rename_i fits
      rw [if_neg fits]
      exact bind_eq_ok.mpr ⟨mm, probed, bind_eq_ok.mpr ⟨_, reserved, rfl⟩⟩

end
end Pcern

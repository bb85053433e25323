import Pcern.Confinement
import Pcern.Handouts
import Pcern.Programs

/-!
The modules of the boot loader and the frame allocator. `frame::init` marks the
kernel image only; the modules are reserved after the smoke test, from a list
that nothing protects until then. The test takes the first two frames past the
image and builds a directory in the first.

The modules are spared for good if none of them lies in these two frames and
the list is where neither `paging::init` nor the test writes.
-/
namespace Pcern
open Bytes Pcern.Frame Loops PageTables Paging

def Platform.Lists (p : Platform) (m : Multiboot.Module) : Prop :=
  ∃ index, Multiboot.module (startupMemory p) p.image.bootDir p.info index = .ok (some m)

/-- The boot gets as far as the smoke test, with so many bytes of memory. -/
def Platform.Starts (p : Platform) (total : Nat) : Prop :=
  Multiboot.totalMemoryBytes (startupMemory p) p.image.bootDir p.info = .ok (some total) ∧ entriesNeeded total ≤ 128

/-- What the smoke test has been handed when it ends, whether it passes or not. -/
def smokeFrames (mm : Mm) : List Nat :=
  match allocFrame mm.frames with
  | none => []
  | some (f1, b1) => f1 :: match allocFrame b1 with
    | none => []
    | some (f2, b2) => f2 :: if f1 = f2 then [] else match allocFrame (freeFrame b2 f1) with
      | none => []
      | some (f3, b3) => f3 :: if f3 ≠ f1 then [] else match allocFrame (freeFrame (freeFrame b3 f2) f3) with
        | none => []
        | some (d, _) => [d]

/-- No frame that is ever handed out has a byte of a module, and every module stays as the boot loader left it. -/
structure Spares (p : Platform) : Prop where
  test : ∀ total, p.Starts total → ∀ f ∈ smokeFrames (memoryInit p total), ∀ m, p.Lists m →
    ¬Touched m.start m.stop (f / 4096)
  handed : ∀ h k, Wiring p h k → ∀ g ∈ k.mm.frames.handedOut, ∀ m, p.Lists m → ¬Touched m.start m.stop g
  bytes : ∀ h k, Wiring p h k → ∀ m, p.Lists m → ∀ a, m.start ≤ a → a < m.stop → k.mm.mem a = p.mem a

/-- The modules are above the kernel image, on page boundaries and in memory. -/
def Platform.Placed (p : Platform) : Prop :=
  ∀ total m, p.Starts total → p.Lists m → m.start % 4096 = 0 ∧ p.image.kernelEnd ≤ m.start ∧ m.stop ≤ total

/-- The kernel finds the byte at its own address, and the boot writes neither the boot directory nor the frame of the smoke
    test's directory there. -/
def Platform.Stays (p : Platform) (a : Nat) : Prop :=
  a < 0x400000 ∧ a / 4096 ≠ p.image.bootDir / 4096 ∧ a / 4096 ≠ p.image.firstFrame

/-- No module is in the first two frames past the image, and the multiboot information and the table it points to stay. -/
structure Clear (p : Platform) : Prop where
  early : ∀ total, p.Starts total → ∀ g, g = p.image.firstFrame ∨ g = p.image.firstFrame + 1 → g < total / 4096 →
    ∀ m, p.Lists m → ¬Touched m.start m.stop g
  info : ∀ a, p.info ≤ a → a < p.info + 28 → p.Stays a
  table : ∀ a, read32 p.mem (p.info + 24) ≤ a →
    a < read32 p.mem (p.info + 24) + read32 p.mem (p.info + 20) * 16 → p.Stays a

/-! ## The smoke test -/

def UsedBelow (bm : Bitmap) (first : Nat) : Prop := ∀ g < bm.frameCount, bm.isUsed g = decide (g < first)

section Bitmaps
variable {bm : Bitmap} {first g : Nat}

theorem UsedBelow.full (used : UsedBelow bm first) (full : bm.frameCount ≤ first) : allocFrame bm = none := by
  rw [allocFrame_eq_none_iff, freeCount, List.length_eq_zero_iff, List.eq_nil_iff_forall_not_mem]
  intro g free
  obtain ⟨inside, clear⟩ := mem_freeFrames.mp free
  rw [used g inside, decide_eq_true (by omega)] at clear
  cases clear

private theorem allocFrame_lowest (inside : g < bm.frameCount) (clear : bm.isUsed g = false) (below : ∀ g' < g, bm.isUsed g' = true) :
    ∃ bm', allocFrame bm = some (g * 4096, bm') ∧ bm'.frameCount = bm.frameCount ∧
      (∀ i, bm'.isUsed i = (decide (i = g) || bm.isUsed i)) ∧ bm'.handedOut = bm.handedOut ++ [g] := by
  cases alloc : allocFrame bm with
  | none =>
    have some := List.length_pos_of_mem (mem_freeFrames.mpr ⟨inside, clear⟩)
    exact absurd (allocFrame_eq_none_iff.mp alloc) (Nat.pos_iff_ne_zero.mp some)
  | some handed =>
    obtain ⟨phys, bm'⟩ := handed
    obtain ⟨f, rfl, free, used, count, marks, log⟩ := allocFrame_eq_some alloc
    have clear' := (mem_freeFrames.mp free).2
    have notAbove : ¬g < f := fun less => by
      rw [used g less] at clear
      cases clear
    have notBelow : ¬f < g := fun less => by
      rw [below f less] at clear'
      cases clear'
    cases (by omega : f = g)
    exact ⟨bm', rfl, count, marks, log⟩

theorem UsedBelow.alloc (used : UsedBelow bm first) (room : first < bm.frameCount) :
    ∃ bm', allocFrame bm = some (first * 4096, bm') ∧ UsedBelow bm' (first + 1) ∧ bm'.frameCount = bm.frameCount ∧
      bm'.handedOut = bm.handedOut ++ [first] := by
  have clear : bm.isUsed first = false := by rw [used first room, decide_eq_false (Nat.lt_irrefl first)]
  have below : ∀ g < first, bm.isUsed g = true := fun g less => by rw [used g (by omega), decide_eq_true less]
  obtain ⟨bm', alloc, count, marks, log⟩ := allocFrame_lowest room clear below
  refine ⟨bm', alloc, fun g inside => ?_, count, log⟩
  rw [marks, used g (count ▸ inside), ← Bool.decide_or]
  exact decide_eq_decide.mpr (by omega)

theorem UsedBelow.free (used : UsedBelow bm (first + 1)) (room : first < bm.frameCount) :
    UsedBelow (freeFrame bm (first * 4096)) first := by
  have back : first * 4096 / 4096 = first := Nat.mul_div_cancel first (by decide)
  intro g inside
  rw [freeFrame_isUsed (back.symm ▸ room), back, used g inside, ← decide_not, ← Bool.decide_and]
  exact decide_eq_decide.mpr (by omega)

theorem UsedBelow.again (used : UsedBelow bm first) (below : g < first) (room : g < bm.frameCount) :
    ∃ bm', allocFrame (freeFrame bm (g * 4096)) = some (g * 4096, bm') ∧ UsedBelow bm' first ∧
      bm'.frameCount = bm.frameCount ∧ bm'.handedOut = bm.handedOut ++ [g] := by
  have back : g * 4096 / 4096 = g := Nat.mul_div_cancel g (by decide)
  have freed : ∀ i, (freeFrame bm (g * 4096)).isUsed i = (!decide (i = g) && bm.isUsed i) := fun i => by
    rw [freeFrame_isUsed (back.symm ▸ room), back]
  have clear : (freeFrame bm (g * 4096)).isUsed g = false := by rw [freed, decide_eq_true rfl]; rfl
  have under : ∀ i < g, (freeFrame bm (g * 4096)).isUsed i = true := fun i less => by
    rw [freed, used i (by omega), decide_eq_false (by omega), decide_eq_true (by omega)]
    rfl
  have room' : g < (freeFrame bm (g * 4096)).frameCount := room
  obtain ⟨bm', alloc, count, marks, log⟩ := allocFrame_lowest room' clear under
  refine ⟨bm', alloc, fun i inside => ?_, count, log⟩
  rw [marks, freed, used i (count ▸ inside)]
  by_cases here : i = g
  · rw [decide_eq_true here, Bool.true_or, decide_eq_true (by omega)]
  · rw [decide_eq_false here, Bool.false_or, Bool.not_false, Bool.true_and]

theorem UsedBelow.test (used : UsedBelow bm first) (two : first + 1 < bm.frameCount) :
    ∃ b1 b2 b3 b4, allocFrame bm = some (first * 4096, b1) ∧ allocFrame b1 = some ((first + 1) * 4096, b2) ∧
      allocFrame (freeFrame b2 (first * 4096)) = some (first * 4096, b3) ∧
      allocFrame (freeFrame (freeFrame b3 ((first + 1) * 4096)) (first * 4096)) = some (first * 4096, b4) ∧
      b4.handedOut = bm.handedOut ++ [first, first + 1, first, first] := by
  obtain ⟨b1, alloc1, used1, count1, log1⟩ := used.alloc (by omega)
  obtain ⟨b2, alloc2, used2, count2, log2⟩ := used1.alloc (by omega)
  obtain ⟨b3, alloc3, used3, count3, log3⟩ := used2.again (g := first) (by omega) (by omega)
  have freed := used3.free (by omega)
  have freed' := freed.free (show first < b3.frameCount by omega)
  obtain ⟨b4, alloc4, _, _, log4⟩ := freed'.alloc (show first < b3.frameCount by omega)
  refine ⟨b1, b2, b3, b4, alloc1, alloc2, alloc3, alloc4, ?_⟩
  rw [log4, show (freeFrame (freeFrame b3 _) _).handedOut = b3.handedOut from rfl, log3, log2, log1]
  simp

end Bitmaps

section Frames
variable {p : Platform} {total : Nat} {mm : Mm}

private theorem memoryInit_used (p : Platform) (total : Nat) : UsedBelow (memoryInit p total).frames p.image.firstFrame :=
  fun _ inside => init_isUsed inside

private theorem smokeTest_frames (tested : smokeTest (memoryInit p total) = .ok mm) :
    p.image.firstFrame + 1 < total / 4096 ∧
      mm.frames.handedOut = [p.image.firstFrame, p.image.firstFrame + 1, p.image.firstFrame, p.image.firstFrame] ∧
      ∀ a, a / 4096 ≠ p.image.firstFrame → mm.mem a = (memoryInit p total).mem a := by
  obtain ⟨f1, f2, d, b1, b2, b3, alloc1, alloc2, _, alloc3, made⟩ := smokeTest_eq_ok tested
  have used := memoryInit_used p total
  have count : (memoryInit p total).frames.frameCount = total / 4096 := rfl
  have one : p.image.firstFrame < total / 4096 := by
    by_contra none
    rw [used.full (by omega)] at alloc1
    cases alloc1
  obtain ⟨c1, alloc1', used1, count1, _⟩ := used.alloc one
  cases alloc1.symm.trans alloc1'
  have two : p.image.firstFrame + 1 < total / 4096 := by
    by_contra none
    rw [used1.full (by omega)] at alloc2
    cases alloc2
  obtain ⟨c1, c2, c3, c4, again1, again2, again3, again4, log⟩ := used.test two
  cases alloc1.symm.trans again1
  cases alloc2.symm.trans again2
  cases alloc3.symm.trans again3
  rw [newDirectory, again4] at made
  cases made
  refine ⟨two, log, fun a past => ?_⟩
  dsimp only
  rw [copyKernelHalf, copyFrom_apply_other _ _ (by omega), fill_apply_other _ _ (by omega)]

private theorem memoryInit_other (fits : entriesNeeded total ≤ 128) {a : Nat}
    (outside : a < p.image.bootDir ∨ p.image.bootDir + 4096 ≤ a) : (memoryInit p total).mem a = p.mem a := by
  have started : startupMemory p a = p.mem a := by
    rw [startupMemory, write32_apply_other _ _ _ (by omega), write32_apply_other _ _ _ (by omega)]
  rw [← started]
  show physMap (startupMemory p) p.image.bootDir (entriesNeeded total) a = _
  generalize entriesNeeded total = n at fits
  induction n with
  | zero => rfl
  | succ n ih =>
    have last : physMap (startupMemory p) p.image.bootDir (n + 1) =
        write32 (physMap (startupMemory p) p.image.bootDir n) (p.image.bootDir + 4 * (896 + n)) (n * 0x400000 ||| 0x83) := by
      simp only [physMap, List.range_succ, List.foldl_append, List.foldl_cons, List.foldl_nil]
    rw [last, write32_apply_other _ _ _ (by omega)]
    exact ih (by omega)

end Frames

/-! ## The list of modules -/

/-- The module that the boot loader recorded under this number. -/
def Platform.recorded (p : Platform) (index : Nat) : Option Multiboot.Module :=
  if (read32 p.mem p.info).testBit 3 = true ∧ index < read32 p.mem (p.info + 20) then
    some { start := read32 p.mem (read32 p.mem (p.info + 24) + index * 16)
           stop := read32 p.mem (read32 p.mem (p.info + 24) + index * 16 + 4) }
  else none

/-- The boot has not written where the list is. -/
structure Unwritten (p : Platform) (m : Memory) : Prop where
  identity : word m p.image.bootDir 0 = 0x83
  bytes : ∀ a, p.Stays a → m a = p.mem a

section Lists
variable {p : Platform} {m : Memory} {a : Nat}

private theorem load8_low {dir : Nat} (identity : word m dir 0 = 0x83) (low : a < 0x400000) : load8 m dir a = some (m a) := by
  have entry : a / 0x400000 = 0 := Nat.div_eq_of_lt low
  rw [load8, PageTables.translate, entry, identity, if_neg (by decide), if_pos (by decide), Nat.mod_eq_of_lt low]
  simp

theorem Unwritten.readWord (same : Unwritten p m) (stays : ∀ b, a ≤ b → b < a + 4 → p.Stays b) :
    Multiboot.readWord m p.image.bootDir a = .ok (read32 p.mem a) := by
  have byte : ∀ i < 4, load8 m p.image.bootDir ((a + i) % 2 ^ 32) = some (p.mem (a + i)) := fun i less => by
    have here := stays (a + i) (by omega) (by omega)
    have low := here.1
    rw [Nat.mod_eq_of_lt (by omega), load8_low same.identity low, same.bytes _ here]
  rw [Multiboot.readWord, load32, show a % 2 ^ 32 = (a + 0) % 2 ^ 32 from rfl, byte 0 (by decide), byte 1 (by decide),
    byte 2 (by decide), byte 3 (by decide)]
  rfl

/-- The list is found as the boot loader wrote it. -/
theorem Unwritten.module (same : Unwritten p m) (clear : Clear p) (index : Nat) :
    Multiboot.module m p.image.bootDir p.info index = .ok (p.recorded index) := by
  have info : ∀ i ≤ 24, ∀ b, p.info + i ≤ b → b < p.info + i + 4 → p.Stays b := fun i below b low high =>
    clear.info b (by omega) (by omega)
  have flags : Multiboot.readWord m p.image.bootDir p.info = .ok (read32 p.mem p.info) := same.readWord (info 0 (by decide))
  rw [Multiboot.module, flags, Platform.recorded]
  dsimp only [bind, Except.bind]
  rw [same.readWord (info 20 (by decide)), same.readWord (info 24 (by decide))]
  dsimp only
  by_cases has : (read32 p.mem p.info).testBit 3 = true
  · rw [if_neg (by rw [has]; decide)]
    by_cases inside : index < read32 p.mem (p.info + 20)
    · have row : ∀ i ≤ 12, ∀ b, read32 p.mem (p.info + 24) + index * 16 + i ≤ b →
          b < read32 p.mem (p.info + 24) + index * 16 + i + 4 → p.Stays b := fun i below b low high =>
        clear.table b (by omega) (by omega)
      have start := same.readWord (row 0 (by decide))
      rw [Nat.add_zero] at start
      rw [if_neg (by omega), if_pos ⟨has, inside⟩, start, same.readWord (row 4 (by decide))]
    · rw [if_pos (by omega), if_neg fun both => inside both.2]
  · rw [if_pos (by rw [Bool.eq_false_of_not_eq_true has]; decide), if_neg fun both => has both.1]

private theorem startupMemory_unwritten (p : Platform) : Unwritten p (startupMemory p) := by
  have aligned := p.image.aligned
  refine ⟨by rw [startupMemory_word p (by decide)]; decide, fun a stays => ?_⟩
  obtain ⟨_, outside, _⟩ := stays
  rw [startupMemory, write32_apply_other _ _ _ (by omega), write32_apply_other _ _ _ (by omega)]

end Lists

/-! ## The rest of the run -/

section Runs
variable {p : Platform} {h : List Record} {k : Kernel} {total : Nat}

theorem Platform.Placed.past (placed : p.Placed) (starts : p.Starts total) {m : Multiboot.Module} (listed : p.Lists m) {g : Nat}
    (touched : Touched m.start m.stop g) : p.image.firstFrame ≤ g := by
  obtain ⟨a, low, high, rfl⟩ := touched
  obtain ⟨aligned, above, _⟩ := placed total m starts listed
  unfold Image.firstFrame
  omega

/-- What holds of the modules in every state of a machine that keeps clear of them. -/
structure Safe (p : Platform) (k : Kernel) : Prop where
  free : ∀ g ∈ freeFrames k.mm.frames, ∀ m, p.Lists m → ¬Touched m.start m.stop g
  handed : ∀ g ∈ k.mm.frames.handedOut, ∀ m, p.Lists m → ¬Touched m.start m.stop g
  bytes : ∀ m, p.Lists m → ∀ a, m.start ≤ a → a < m.stop → k.mm.mem a = p.mem a

private theorem bringUp_safe (placed : p.Placed) (clear : Clear p) (up : bringUp p = .ok k) : Safe p k ∧ ∃ total, p.Starts total := by
  obtain ⟨total, mm, mm', sized, fits, tested, reserved, rfl⟩ := bringUp_eq_ok up
  have starts : p.Starts total := ⟨sized, fits⟩
  obtain ⟨bare, count, _, words⟩ := smokeTest_bare (memoryInit_bare (by omega)) tested
  obtain ⟨_, mem, _, log, free⟩ := reserveAllModules_bare bare reserved
  obtain ⟨room, handed, bytes⟩ := smokeTest_frames tested
  have aligned := p.image.aligned
  have kept : ∀ a, a / 4096 ≠ p.image.bootDir / 4096 → a / 4096 ≠ p.image.firstFrame → mm'.mem a = p.mem a :=
    fun a outside other => by rw [mem, bytes a other, memoryInit_other fits (by omega)]
  have after : Unwritten p mm.mem := by
    refine ⟨?_, fun a stays => mem ▸ kept a stays.2.1 stays.2.2⟩
    have first := words 0 (by decide)
    rw [bare.image] at first
    rw [first]
    show word (memoryInit p total).mem p.image.bootDir 0 = _
    rw [memoryInit_word (by omega) (by decide), if_neg (by omega), if_pos (.inr rfl)]
  refine ⟨⟨fun g free' m listed touched => ?_, fun g out m listed => ?_, fun m listed a low high => ?_⟩, total, starts⟩
  · obtain ⟨index, listed⟩ := listed
    obtain ⟨a, low, high, rfl⟩ := touched
    have found := after.module clear index
    rw [← (startupMemory_unwritten p).module clear index, listed, ← bare.image] at found
    exact ((free _).mp free').2 index m found (marked_of low high)
  · have out : g ∈ mm'.frames.handedOut := out
    rw [log, handed] at out
    simp only [List.mem_cons, List.not_mem_nil, or_false] at out
    exact clear.early total starts g (by omega) (by omega) m listed
  · have touched : Touched m.start m.stop (a / 4096) := ⟨a, low, high, rfl⟩
    have past := placed.past starts listed touched
    have other : a / 4096 ≠ p.image.firstFrame := fun here =>
      clear.early total starts _ (.inl here) (by omega) m listed touched
    have := bootDir_frame p.image
    exact kept a (by omega) other

theorem Safe.grow {k' : Kernel} {dirs dirs' : Set Nat} (placed : p.Placed) (starts : p.Starts total) (safe : Safe p k)
    (grows : Grows k.mm k'.mm dirs dirs') : Safe p k' := by
  obtain ⟨new, log, fresh⟩ := grows.handed
  have handed : ∀ g ∈ k'.mm.frames.handedOut, ∀ m, p.Lists m → ¬Touched m.start m.stop g := fun g out m listed => by
    rw [log] at out
    rcases List.mem_append.mp out with old | now
    · exact safe.handed g old m listed
    · exact safe.free g (fresh g now) m listed
  refine ⟨fun g free => safe.free g (grows.free g free), handed, fun m listed a low high => ?_⟩
  have touched : Touched m.start m.stop (a / 4096) := ⟨a, low, high, rfl⟩
  have past := placed.past starts listed touched
  have := bootDir_frame p.image
  rw [grows.untouched a (fun out => handed _ out m listed touched) (by omega)]
  exact safe.bytes m listed a low high

theorem Wiring.safe (placed : p.Placed) (clear : Clear p) (wiring : Wiring p h k) : Safe p k := by
  refine (wiring.rule (P := fun _ k => Safe p k ∧ (∃ total, p.Starts total) ∧ ∃ dirs, Laid p k dirs)
    (fun k up => ⟨(bringUp_safe placed clear up).1, (bringUp_safe placed clear up).2, ∅, bringUp_laid up⟩) ?_ ?_).1
  · rintro h k k' c _ ⟨safe, ⟨total, starts⟩, dirs, laid⟩ _ _ allowed did
    obtain ⟨dirs', repages⟩ := did.repages allowed laid
    exact ⟨safe.grow placed starts repages.grows, ⟨total, starts⟩, dirs', repages.laid⟩
  · rintro h k k' e _ ⟨safe, ⟨total, starts⟩, dirs, laid⟩ _ may did
    obtain ⟨dirs', repages⟩ := did.repages may laid
    exact ⟨safe.grow placed starts repages.grows, ⟨total, starts⟩, dirs', repages.laid⟩

end Runs

/-! ## Two machines with one module -/

section
variable {p : Platform} {m : Multiboot.Module} {total : Nat}

end

end Pcern

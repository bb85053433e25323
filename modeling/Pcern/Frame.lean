import Mathlib.Data.List.Range
import Mathlib.Data.List.Nodup
import Pcern.Bits

/-!
The physical frame allocator of `mm/frame.rs`: a bitmap with one bit for every
4096-byte frame, scanned from the bottom. Each operation gets one lemma that
says what it does to the set of used frames; nothing above this module looks at
the bytes of the bitmap.
-/
namespace Pcern.Frame
open Bits

/-- The allocator. Every frame has a bit. `handedOut` is history, which no
    operation reads: the frames given to a caller so far, in order. -/
structure Bitmap where
  bits : List UInt8
  frameCount : Nat
  handedOut : List Nat
  stored : frameCount ≤ 8 * bits.length

namespace Bitmap

def isUsed (bm : Bitmap) (frame : Nat) : Bool := test bm.bits frame

def setAll (bm : Bitmap) (frames : List Nat) (used : Bool) : Bitmap :=
  { bm with bits := assignAll bm.bits frames used, stored := by simpa using bm.stored }

def setUsed (bm : Bitmap) (frame : Nat) (used : Bool) : Bitmap := bm.setAll [frame] used

def record (bm : Bitmap) (frames : List Nat) : Bitmap := { bm with handedOut := bm.handedOut ++ frames }

end Bitmap

/-- The bitmap of a memory of `total` bytes in which everything below the end of
    the kernel image is used. -/
def init (total kernelEnd : Nat) : Bitmap :=
  let frameCount := total / 4096
  let empty : Bitmap :=
    { bits := List.replicate ((frameCount + 7) / 8) 0, frameCount, handedOut := [], stored := by simp; omega }
  empty.setAll (List.range (min ((kernelEnd + 4095) / 4096) frameCount)) true

def reserveRange (bm : Bitmap) (start stop : Nat) : Bitmap :=
  let first := start / 4096
  let last := min ((stop + 4095) / 4096) bm.frameCount
  bm.setAll (List.range' first (last - first)) true

def allocFrame (bm : Bitmap) : Option (Nat × Bitmap) :=
  match (List.range bm.frameCount).find? fun frame => !bm.isUsed frame with
  | none => none
  | some frame => some (frame * 4096, (bm.setUsed frame true).record [frame])

def freeFrame (bm : Bitmap) (phys : Nat) : Bitmap := bm.setUsed (phys / 4096) false

/-- The scan of `alloc_frames_contiguous` with `remaining` frames to look at: the
    start of the first run of `count` free frames. -/
def scanRun (used : Nat → Bool) (count : Nat) : (remaining frame runStart runLen : Nat) → Option Nat
  | 0, _, _, _ => none
  | remaining + 1, frame, runStart, runLen =>
    if used frame then scanRun used count remaining (frame + 1) (frame + 1) 0
    else if runLen + 1 = count then some runStart
    else scanRun used count remaining (frame + 1) runStart (runLen + 1)

def allocFramesContiguous (bm : Bitmap) (count : Nat) : Option (Nat × Bitmap) :=
  if count = 0 then none
  else match scanRun bm.isUsed count bm.frameCount 0 0 0 with
    | none => none
    | some runStart =>
      let run := List.range' runStart count
      some (runStart * 4096, (bm.setAll run true).record run)

def freeFramesContiguous (bm : Bitmap) (phys count : Nat) : Bitmap :=
  bm.setAll (List.range' (phys / 4096) count) false

def freeFrames (bm : Bitmap) : List Nat := (List.range bm.frameCount).filter fun frame => !bm.isUsed frame

def freeCount (bm : Bitmap) : Nat := (freeFrames bm).length

@[simp] theorem isUsed_record (bm : Bitmap) (frames : List Nat) : (bm.record frames).isUsed = bm.isUsed := rfl
@[simp] theorem frameCount_setAll (bm : Bitmap) (frames : List Nat) (used : Bool) :
    (bm.setAll frames used).frameCount = bm.frameCount := rfl
@[simp] theorem freeCount_record (bm : Bitmap) (frames : List Nat) : freeCount (bm.record frames) = freeCount bm := rfl

private theorem isUsed_setAll (bm : Bitmap) {frames : List Nat} (used : Bool) (inside : ∀ f ∈ frames, f < bm.frameCount)
    (g : Nat) : (bm.setAll frames used).isUsed g = if g ∈ frames then used else bm.isUsed g := by
  refine test_assignAll used frames (fun f member => ?_) g
  have := inside f member
  have := bm.stored
  omega

variable {count g phys : Nat} {used : Nat → Bool} {bm bm' : Bitmap}

theorem mem_freeFrames {f : Nat} : f ∈ freeFrames bm ↔ f < bm.frameCount ∧ bm.isUsed f = false := by
  simp [freeFrames]

private theorem freeCount_setAll {frames : List Nat} (distinct : frames.Nodup)
    (free : ∀ f ∈ frames, f ∈ freeFrames bm) : freeCount (bm.setAll frames true) + frames.length = freeCount bm := by
  have inside : ∀ f ∈ frames, f < bm.frameCount := fun f member => (mem_freeFrames.mp (free f member)).1
  have rest : freeFrames (bm.setAll frames true) = (freeFrames bm).filter fun f => decide (f ∉ frames) := by
    simp only [freeFrames, List.filter_filter, frameCount_setAll]
    refine List.filter_congr fun f _ => ?_
    rw [isUsed_setAll bm true inside]
    by_cases member : f ∈ frames <;> simp [member]
  have taken : ((freeFrames bm).filter fun f => decide (f ∈ frames)).Perm frames := by
    refine (List.perm_ext_iff_of_nodup ?_ distinct).mpr ?_
    · exact ((List.nodup_range).filter _).filter _
    · intro f
      simp only [List.mem_filter, decide_eq_true_eq]
      exact ⟨And.right, fun member => ⟨free f member, member⟩⟩
  have split := List.length_eq_length_filter_add (l := freeFrames bm) (fun f => decide (f ∈ frames))
  simp only [freeCount, rest, split, taken.length_eq]
  simp only [decide_not]
  omega

theorem allocFrame_eq_some (alloc : allocFrame bm = some (phys, bm')) :
    ∃ f, phys = f * 4096 ∧ f ∈ freeFrames bm ∧ (∀ g < f, bm.isUsed g = true) ∧ bm'.frameCount = bm.frameCount ∧
      (∀ g, bm'.isUsed g = (decide (g = f) || bm.isUsed g)) ∧ bm'.handedOut = bm.handedOut ++ [f] := by
  unfold allocFrame at alloc
  split at alloc
  · cases alloc
  · rename_i f found
    simp only [Option.some.injEq, Prod.mk.injEq] at alloc
    obtain ⟨rfl, rfl⟩ := alloc
    obtain ⟨free, below⟩ := List.find?_range_eq_some.mp found
    have inside : f < bm.frameCount := by
      have := List.mem_of_find?_eq_some found
      simpa using this
    refine ⟨f, rfl, mem_freeFrames.mpr ⟨inside, by simpa using free⟩, ?_, rfl, ?_, rfl⟩
    · intro g less
      simpa using below.2 g less
    · intro g
      rw [isUsed_record, Bitmap.setUsed, isUsed_setAll bm true (by simpa using inside)]
      by_cases same : g = f <;> simp [same]

theorem freeCount_allocFrame (alloc : allocFrame bm = some (phys, bm')) :
    freeCount bm' + 1 = freeCount bm := by
  unfold allocFrame at alloc
  split at alloc
  · cases alloc
  · rename_i f found
    simp only [Option.some.injEq, Prod.mk.injEq] at alloc
    obtain ⟨rfl, rfl⟩ := alloc
    have free : f ∈ freeFrames bm := by
      have clear := List.find?_some found
      have := List.mem_of_find?_eq_some found
      exact mem_freeFrames.mpr ⟨by simpa using this, by simpa using clear⟩
    exact freeCount_setAll (List.nodup_singleton f) (by simpa using free)

theorem allocFrame_eq_none_iff : allocFrame bm = none ↔ freeCount bm = 0 := by
  have none_iff : allocFrame bm = none ↔ (List.range bm.frameCount).find? (fun frame => !bm.isUsed frame) = none := by
    unfold allocFrame
    split <;> rename_i found <;> rw [found] <;> simp
  rw [none_iff, freeCount, List.length_eq_zero_iff, freeFrames, List.find?_eq_none, List.filter_eq_nil_iff]

/-- What the scan keeps: the frames from `runStart` up to the one it looks at are free. -/
theorem scanRun_eq_some {count remaining frame runStart runLen start : Nat}
    (scan : scanRun used count remaining frame runStart runLen = some start) (run : runStart + runLen = frame)
    (free : ∀ g, runStart ≤ g → g < frame → used g = false) :
    start + count ≤ frame + remaining ∧ ∀ g, start ≤ g → g < start + count → used g = false := by
  induction remaining generalizing frame runStart runLen with
  | zero => simp [scanRun] at scan
  | succ remaining ih =>
    rw [scanRun] at scan
    split at scan
    · obtain ⟨bound, clear⟩ := ih scan (by omega) (by omega)
      exact ⟨by omega, clear⟩
    · rename_i unused
      have free' : ∀ g, runStart ≤ g → g < frame + 1 → used g = false := by
        intro g low high
        by_cases same : g = frame
        · simpa [same] using unused
        · exact free g low (by omega)
      split at scan
      · rename_i full
        cases scan
        exact ⟨by omega, fun g low high => free' g low (by omega)⟩
      · obtain ⟨bound, clear⟩ := ih scan (by omega) free'
        exact ⟨by omega, clear⟩

theorem allocFramesContiguous_eq_some
    (alloc : allocFramesContiguous bm count = some (phys, bm')) :
    ∃ f, phys = f * 4096 ∧ 0 < count ∧ (∀ g, f ≤ g → g < f + count → g ∈ freeFrames bm) ∧
      bm'.frameCount = bm.frameCount ∧
      (∀ g, bm'.isUsed g = (decide (f ≤ g ∧ g < f + count) || bm.isUsed g)) ∧
      bm'.handedOut = bm.handedOut ++ List.range' f count ∧ freeCount bm' + count = freeCount bm := by
  unfold allocFramesContiguous at alloc
  split at alloc
  · cases alloc
  · split at alloc
    · cases alloc
    · rename_i nonzero _ f scan
      simp only [Option.some.injEq, Prod.mk.injEq] at alloc
      obtain ⟨rfl, rfl⟩ := alloc
      obtain ⟨bound, clear⟩ := scanRun_eq_some scan rfl (by omega)
      have free : ∀ g, f ≤ g → g < f + count → g ∈ freeFrames bm := fun g low high =>
        mem_freeFrames.mpr ⟨by omega, clear g low high⟩
      have listed : ∀ g ∈ List.range' f count, g ∈ freeFrames bm := by
        intro g member
        rw [List.mem_range'_1] at member
        exact free g member.1 member.2
      refine ⟨f, rfl, by omega, free, rfl, fun g => ?_, rfl, ?_⟩
      · rw [isUsed_record, isUsed_setAll bm true fun g member => (mem_freeFrames.mp (listed g member)).1]
        simp only [List.mem_range'_1]
        by_cases member : f ≤ g ∧ g < f + count <;> simp [member]
      · simpa using freeCount_setAll (List.nodup_range' 1) listed

theorem init_isUsed {total kernelEnd g : Nat} (inside : g < total / 4096) :
    (init total kernelEnd).isUsed g = decide (g < (kernelEnd + 4095) / 4096) := by
  unfold init
  rw [isUsed_setAll _ true (by intro f; simp)]
  simp only [List.mem_range, Bitmap.isUsed, test_replicate_zero]
  by_cases below : g < (kernelEnd + 4095) / 4096 <;> simp [below, inside]

theorem reserveRange_isUsed {start stop g : Nat} (inside : g < bm.frameCount) :
    (reserveRange bm start stop).isUsed g =
      (decide (start / 4096 ≤ g ∧ g < (stop + 4095) / 4096) || bm.isUsed g) := by
  unfold reserveRange
  rw [isUsed_setAll bm true]
  · simp only [List.mem_range'_1]
    by_cases touched : start / 4096 ≤ g ∧ g < (stop + 4095) / 4096
    · rw [if_pos (by omega)]
      simp [touched]
    · rw [if_neg (by omega)]
      simp [touched]
  · intro f member
    rw [List.mem_range'_1] at member
    omega

theorem freeFrame_isUsed (inside : phys / 4096 < bm.frameCount) :
    (freeFrame bm phys).isUsed g = (!decide (g = phys / 4096) && bm.isUsed g) := by
  unfold freeFrame Bitmap.setUsed
  rw [isUsed_setAll bm false (by simpa using inside)]
  by_cases same : g = phys / 4096 <;> simp [same]

theorem freeFramesContiguous_isUsed (inside : phys / 4096 + count ≤ bm.frameCount) :
    (freeFramesContiguous bm phys count).isUsed g =
      (!decide (phys / 4096 ≤ g ∧ g < phys / 4096 + count) && bm.isUsed g) := by
  unfold freeFramesContiguous
  rw [isUsed_setAll bm false]
  · simp only [List.mem_range'_1]
    by_cases member : phys / 4096 ≤ g ∧ g < phys / 4096 + count <;> simp [member]
  · intro f member
    rw [List.mem_range'_1] at member
    omega

def FreeRun (used : Nat → Bool) (count start : Nat) : Prop := ∀ g, start ≤ g → g < start + count → used g = false

/-- The scan passes over no run: those that end before the frame it looks at and those that begin before its own run
    hold a used frame. -/
theorem scanRun_misses {count remaining frame runStart runLen : Nat} (some : 0 < count)
    (run : runStart + runLen = frame) (short : runLen < count)
    (blocked : ∀ s, s + count ≤ frame → ¬ FreeRun used count s) (edge : runStart = 0 ∨ used (runStart - 1) = true) (s : Nat) :
    (scanRun used count remaining frame runStart runLen = none → s + count ≤ frame + remaining → ¬ FreeRun used count s) ∧
      ∀ start, scanRun used count remaining frame runStart runLen = .some start → s < start → ¬ FreeRun used count s := by
  -- A run that begins before the current one and reaches into it holds the frame before it.
  have overlaps : ∀ s, s < runStart → runStart ≤ s + count → ¬ FreeRun used count s := by
    intro s before reaches free
    rcases edge with zero | usedBefore
    · omega
    · have clear := free (runStart - 1) (by omega) (by omega)
      rw [usedBefore] at clear
      cases clear
  induction remaining generalizing frame runStart runLen with
  | zero => exact ⟨fun _ fits => blocked s fits, by simp [scanRun]⟩
  | succ remaining ih =>
    rw [scanRun]
    by_cases taken : used frame = true
    · rw [if_pos taken, show frame + (remaining + 1) = frame + 1 + remaining by omega]
      have blocked' : ∀ s, s + count ≤ frame + 1 → ¬ FreeRun used count s := by
        intro s fits free
        rcases Nat.lt_or_ge frame (s + count) with reaches | short
        · have clear := free frame (by omega) reaches
          rw [taken] at clear
          cases clear
        · exact blocked s short free
      refine ih (by omega) some blocked' (.inr taken) fun s before reaches free => ?_
      have clear := free frame (by omega) (by omega)
      rw [taken] at clear
      cases clear
    · rw [if_neg taken, show frame + (remaining + 1) = frame + 1 + remaining by omega]
      by_cases full : runLen + 1 = count
      · rw [if_pos full]
        refine ⟨by simp, fun start found before => ?_⟩
        cases found
        rcases Nat.lt_or_ge frame (s + count) with reaches | short
        · exact overlaps s before (by omega)
        · exact blocked s short
      · rw [if_neg full]
        refine ih (by omega) (by omega) (fun s fits => ?_) edge overlaps
        rcases Nat.lt_or_ge frame (s + count) with reaches | short
        · exact overlaps s (by omega) (by omega)
        · exact blocked s short

private theorem scanRun_zero_misses {count frameCount : Nat} (some : 0 < count) (s : Nat) :
    (scanRun used count frameCount 0 0 0 = none → s + count ≤ frameCount → ¬ FreeRun used count s) ∧
      ∀ start, scanRun used count frameCount 0 0 0 = .some start → s < start → ¬ FreeRun used count s := by
  have none : ∀ s, s + count ≤ 0 → ¬ FreeRun used count s := by omega
  obtain ⟨missed, lower⟩ := scanRun_misses some (Nat.add_zero 0) some none (.inl rfl) s
  exact ⟨fun failed fits => missed failed (by omega), lower⟩

/-- `alloc_frames_contiguous` hands out the lowest run of free frames. -/
theorem allocFramesContiguous_lowest
    (alloc : allocFramesContiguous bm count = some (phys, bm')) {s : Nat} (before : s < phys / 4096) :
    ¬ FreeRun bm.isUsed count s := by
  unfold allocFramesContiguous at alloc
  split at alloc
  · cases alloc
  · rename_i nonzero
    split at alloc
    · cases alloc
    · rename_i start found
      cases alloc
      rw [Nat.mul_div_cancel _ (by decide)] at before
      exact (scanRun_zero_misses (by omega) s).2 start found before

theorem allocFramesContiguous_eq_none_iff (some : 0 < count) :
    allocFramesContiguous bm count = none ↔ ∀ s, s + count ≤ bm.frameCount → ¬ FreeRun bm.isUsed count s := by
  constructor
  · intro failed s fits
    unfold allocFramesContiguous at failed
    rw [if_neg (by omega)] at failed
    split at failed
    · rename_i missed
      exact (scanRun_zero_misses some s).1 missed fits
    · cases failed
  · intro blocked
    cases result : allocFramesContiguous bm count with
    | none => rfl
    | some handed =>
      obtain ⟨f, _, _, free, _⟩ := allocFramesContiguous_eq_some result
      have last := (mem_freeFrames.mp (free (f + count - 1) (by omega) (by omega))).1
      exact absurd (fun g low high => (mem_freeFrames.mp (free g low high)).2) (blocked f (by omega))

end Pcern.Frame

import Pcern.Frame
import Pcern.Spans

/-!
What the frame allocator does over a whole run: which ranges are handed out at a
time, and that they never meet each other, the kernel image or a reserved range.
A run is any sequence of the allocator's calls in which a range is freed only
while it is handed out and reserved only while no byte of it is.
-/
namespace Pcern.Frame

open Spans

structure Run where
  first : Nat
  count : Nat
  deriving DecidableEq, Repr

def Run.span (r : Run) : Span := ⟨r.first * 4096, r.count * 4096⟩

/-- The allocator, what is handed out, and the ranges reserved so far. -/
structure Handouts where
  bitmap : Bitmap
  live : List Run
  reserved : List (Nat × Nat)

/-- No byte from `start` up to `stop` belongs to the run. -/
def Run.Spares (r : Run) (start stop : Nat) : Prop := ∀ a, start ≤ a → a < stop → ¬ r.span.Covers a

inductive Call : Handouts → Handouts → Prop
  | reserve {h : Handouts} {start stop : Nat} (spared : ∀ r ∈ h.live, r.Spares start stop) :
      Call h ⟨reserveRange h.bitmap start stop, h.live, (start, stop) :: h.reserved⟩
  | alloc {h : Handouts} {phys : Nat} {bitmap : Bitmap} (ran : allocFrame h.bitmap = some (phys, bitmap)) :
      Call h ⟨bitmap, ⟨phys / 4096, 1⟩ :: h.live, h.reserved⟩
  | allocContiguous {h : Handouts} {count phys : Nat} {bitmap : Bitmap}
      (ran : allocFramesContiguous h.bitmap count = some (phys, bitmap)) :
      Call h ⟨bitmap, ⟨phys / 4096, count⟩ :: h.live, h.reserved⟩
  | free {h : Handouts} {before after : List Run} {phys : Nat} (isLive : h.live = before ++ ⟨phys / 4096, 1⟩ :: after) :
      Call h ⟨freeFrame h.bitmap phys, before ++ after, h.reserved⟩
  | freeContiguous {h : Handouts} {before after : List Run} {phys count : Nat}
      (isLive : h.live = before ++ ⟨phys / 4096, count⟩ :: after) :
      Call h ⟨freeFramesContiguous h.bitmap phys count, before ++ after, h.reserved⟩

/-- The states after `init`. A call that fails changes nothing. -/
inductive Reachable (total kernelEnd : Nat) : Handouts → Prop
  | start : Reachable total kernelEnd ⟨init total kernelEnd, [], []⟩
  | call {h h' : Handouts} (reached : Reachable total kernelEnd h) (call : Call h h') : Reachable total kernelEnd h'

def Run.Has (r : Run) (g : Nat) : Prop := r.first ≤ g ∧ g < r.first + r.count

/-- The frame has a byte from `start` up to `stop`. -/
def Touched (start stop g : Nat) : Prop := ∃ a, start ≤ a ∧ a < stop ∧ a / 4096 = g

theorem Run.spares_iff {r : Run} {start stop : Nat} : r.Spares start stop ↔ ∀ g, r.Has g → ¬ Touched start stop g := by
  simp only [Run.Spares, Run.Has, Touched, Span.Covers, Run.span]
  constructor
  · rintro spares g has ⟨a, low, high, rfl⟩
    exact spares a low high (by omega)
  · intro clear a low high covers
    exact clear (a / 4096) (by omega) ⟨a, low, high, rfl⟩

/-- The frames that `reserve_range` marks for a range: those it touches, and the one an empty range lies in. -/
def Marked (start stop g : Nat) : Prop := start / 4096 ≤ g ∧ g < (stop + 4095) / 4096

theorem marked_of {start stop a : Nat} (low : start ≤ a) (high : a < stop) : Marked start stop (a / 4096) :=
  ⟨Nat.div_le_div_right low, by omega⟩

/-- What is handed out is used and apart from everything else that is in use, and nothing is in use without a reason. -/
structure Kept (total kernelEnd : Nat) (h : Handouts) : Prop where
  frames : h.bitmap.frameCount = total / 4096
  apart : h.live.Pairwise fun r t => ∀ g, r.Has g → ¬ t.Has g
  inside : ∀ r ∈ h.live, 0 < r.count ∧ r.first + r.count ≤ h.bitmap.frameCount
  used : ∀ r ∈ h.live, ∀ g, r.Has g → h.bitmap.isUsed g = true
  image : ∀ g < h.bitmap.frameCount, g < (kernelEnd + 4095) / 4096 → h.bitmap.isUsed g = true
  outsideImage : ∀ r ∈ h.live, ∀ g, r.Has g → ¬ g < (kernelEnd + 4095) / 4096
  reserved : ∀ p ∈ h.reserved, ∀ g < h.bitmap.frameCount, Touched p.1 p.2 g → h.bitmap.isUsed g = true
  outsideReserved : ∀ r ∈ h.live, ∀ p ∈ h.reserved, ∀ g, r.Has g → ¬ Touched p.1 p.2 g
  reason : ∀ g < h.bitmap.frameCount, h.bitmap.isUsed g = true →
    g < (kernelEnd + 4095) / 4096 ∨ (∃ p ∈ h.reserved, Marked p.1 p.2 g) ∨ ∃ r ∈ h.live, r.Has g

namespace Kept
variable {total kernelEnd : Nat} {h : Handouts}

theorem start : Kept total kernelEnd ⟨init total kernelEnd, [], []⟩ where
  frames := rfl
  apart := .nil
  inside := by simp
  used := by simp
  image g inside below := by
    rw [init_isUsed inside]
    simpa using below
  outsideImage := by simp
  reserved := by simp
  outsideReserved := by simp
  reason g inside used := by
    rw [init_isUsed inside] at used
    exact .inl (of_decide_eq_true used)

theorem reserve (kept : Kept total kernelEnd h) {start stop : Nat} (spared : ∀ r ∈ h.live, r.Spares start stop) :
    Kept total kernelEnd ⟨reserveRange h.bitmap start stop, h.live, (start, stop) :: h.reserved⟩ := by
  have more : ∀ g < h.bitmap.frameCount, h.bitmap.isUsed g = true → (reserveRange h.bitmap start stop).isUsed g = true := by
    intro g inside used
    rw [reserveRange_isUsed inside, used, Bool.or_true]
  refine ⟨kept.frames, kept.apart, kept.inside, ?_, ?_, kept.outsideImage, ?_, ?_, ?_⟩
  · intro r isLive g has
    have inside := kept.inside r isLive
    simp only [Run.Has] at has
    exact more g (by omega) (kept.used r isLive g has)
  · exact fun g inside below => more g inside (kept.image g inside below)
  · intro p member g inside touched
    rcases List.mem_cons.mp member with rfl | old
    · obtain ⟨a, low, high, rfl⟩ := touched
      have inside : a / 4096 < h.bitmap.frameCount := inside
      dsimp only at low high ⊢
      rw [reserveRange_isUsed inside]
      simp only [Bool.or_eq_true, decide_eq_true_eq]
      omega
    · exact more g inside (kept.reserved p old g inside touched)
  · intro r isLive p member g has
    rcases List.mem_cons.mp member with rfl | old
    · exact Run.spares_iff.mp (spared r isLive) g has
    · exact kept.outsideReserved r isLive p old g has
  · intro g inside used
    have inside : g < h.bitmap.frameCount := inside
    dsimp only at used
    rw [reserveRange_isUsed inside, Bool.or_eq_true, decide_eq_true_eq] at used
    rcases used with marked | old
    · exact .inr (.inl ⟨(start, stop), by simp, marked⟩)
    · rcases kept.reason g inside old with image | ⟨p, member, marked⟩ | live
      · exact .inl image
      · exact .inr (.inl ⟨p, by simp [member], marked⟩)
      · exact .inr (.inr live)

private theorem handOut (kept : Kept total kernelEnd h) {bitmap : Bitmap} {r : Run} (some : 0 < r.count)
    (free : ∀ g, r.Has g → g ∈ freeFrames h.bitmap) (frames : bitmap.frameCount = h.bitmap.frameCount)
    (marks : ∀ g, bitmap.isUsed g = (decide (r.first ≤ g ∧ g < r.first + r.count) || h.bitmap.isUsed g)) :
    Kept total kernelEnd ⟨bitmap, r :: h.live, h.reserved⟩ := by
  have more : ∀ g, h.bitmap.isUsed g = true → bitmap.isUsed g = true := by
    intro g used
    rw [marks, used, Bool.or_true]
  have clear : ∀ g, r.Has g → g < h.bitmap.frameCount ∧ ¬ h.bitmap.isUsed g = true := by
    intro g has
    obtain ⟨inside, unused⟩ := mem_freeFrames.mp (free g has)
    exact ⟨inside, by simp [unused]⟩
  refine ⟨frames.trans kept.frames, List.pairwise_cons.mpr ⟨?_, kept.apart⟩, ?_, ?_, ?_, ?_, ?_, ?_, ?_⟩
  · exact fun t isLive g has hasT => (clear g has).2 (kept.used t isLive g hasT)
  · refine List.forall_mem_cons.mpr ⟨⟨some, ?_⟩, fun t isLive => by rw [frames]; exact kept.inside t isLive⟩
    have last := (clear (r.first + r.count - 1) ⟨by omega, by omega⟩).1
    rw [frames]
    omega
  · refine List.forall_mem_cons.mpr ⟨fun g has => ?_, fun t isLive g has => more g (kept.used t isLive g has)⟩
    have has : r.first ≤ g ∧ g < r.first + r.count := has
    rw [marks, decide_eq_true has, Bool.true_or]
  · intro g inside below
    rw [frames] at inside
    exact more g (kept.image g inside below)
  · refine List.forall_mem_cons.mpr ⟨fun g has below => ?_, kept.outsideImage⟩
    exact (clear g has).2 (kept.image g (clear g has).1 below)
  · intro p member g inside touched
    rw [frames] at inside
    exact more g (kept.reserved p member g inside touched)
  · refine List.forall_mem_cons.mpr ⟨fun p member g has touched => ?_, kept.outsideReserved⟩
    exact (clear g has).2 (kept.reserved p member g (clear g has).1 touched)
  · intro g inside used
    dsimp only at inside used
    rw [frames] at inside
    rw [marks, Bool.or_eq_true, decide_eq_true_eq] at used
    rcases used with here | old
    · exact .inr (.inr ⟨r, by simp, here⟩)
    · rcases kept.reason g inside old with image | reserved | ⟨t, isLive, has⟩
      · exact .inl image
      · exact .inr (.inl reserved)
      · exact .inr (.inr ⟨t, by simp [isLive], has⟩)

theorem giveUp (kept : Kept total kernelEnd h) {bitmap : Bitmap} {before after : List Run} {r : Run}
    (isLive : h.live = before ++ r :: after) (frames : bitmap.frameCount = h.bitmap.frameCount)
    (marks : ∀ g, bitmap.isUsed g = (!decide (r.first ≤ g ∧ g < r.first + r.count) && h.bitmap.isUsed g)) :
    Kept total kernelEnd ⟨bitmap, before ++ after, h.reserved⟩ := by
  have member : r ∈ h.live := by simp [isLive]
  have older : ∀ t ∈ before ++ after, t ∈ h.live := by
    intro t inside
    rw [isLive]
    rcases List.mem_append.mp inside with early | late <;> simp [*]
  have stays : ∀ g, ¬ r.Has g → h.bitmap.isUsed g = true → bitmap.isUsed g = true := by
    intro g outside used
    have outside : ¬ (r.first ≤ g ∧ g < r.first + r.count) := outside
    rw [marks, used, decide_eq_false outside]
    rfl
  have others : ∀ t ∈ before ++ after, ∀ g, t.Has g → ¬ r.Has g := by
    have pairs := kept.apart
    rw [isLive, List.pairwise_append, List.pairwise_cons] at pairs
    intro t inside g has hasR
    rcases List.mem_append.mp inside with early | late
    · exact pairs.2.2 t early r (by simp) g has hasR
    · exact pairs.2.1.1 t late g hasR has
  refine ⟨frames.trans kept.frames, ?_, ?_, ?_, ?_, ?_, ?_, ?_, ?_⟩
  · have pairs := kept.apart
    rw [isLive] at pairs
    exact pairs.sublist ((List.sublist_cons_self r after).append_left before)
  · intro t inside
    rw [frames]
    exact kept.inside t (older t inside)
  · exact fun t inside g has => stays g (others t inside g has) (kept.used t (older t inside) g has)
  · intro g inside below
    rw [frames] at inside
    exact stays g (fun has => kept.outsideImage r member g has below) (kept.image g inside below)
  · exact fun t inside => kept.outsideImage t (older t inside)
  · intro p isReserved g inside touched
    rw [frames] at inside
    exact stays g (fun has => kept.outsideReserved r member p isReserved g has touched)
      (kept.reserved p isReserved g inside touched)
  · exact fun t inside => kept.outsideReserved t (older t inside)
  · intro g inside used
    dsimp only at inside used
    rw [frames] at inside
    rw [marks, Bool.and_eq_true, Bool.not_eq_true', decide_eq_false_iff_not] at used
    rcases kept.reason g inside used.2 with image | reserved | ⟨t, member', has⟩
    · exact .inl image
    · exact .inr (.inl reserved)
    · refine .inr (.inr ⟨t, ?_, has⟩)
      rw [isLive] at member'
      rcases List.mem_append.mp member' with early | late
      · exact List.mem_append_left _ early
      · rcases List.mem_cons.mp late with rfl | later
        · exact absurd has used.1
        · exact List.mem_append_right _ later

end Kept

theorem Call.kept {total kernelEnd : Nat} {h h' : Handouts} (call : Call h h') (kept : Kept total kernelEnd h) :
    Kept total kernelEnd h' := by
  cases call with
  | reserve spared => exact kept.reserve spared
  | alloc ran =>
    obtain ⟨f, rfl, free, _, frames, marks, _⟩ := allocFrame_eq_some ran
    rw [Nat.mul_div_cancel _ (by decide)]
    refine kept.handOut Nat.one_pos (fun g has => ?_) frames fun g => ?_
    · have same : g = f := by
        simp only [Run.Has] at has
        omega
      rwa [same]
    · rw [marks]
      congr 2
      simp only [eq_iff_iff]
      omega
  | allocContiguous ran =>
    obtain ⟨f, rfl, some, free, frames, marks, _⟩ := allocFramesContiguous_eq_some ran
    rw [Nat.mul_div_cancel _ (by decide)]
    exact kept.handOut some (fun g has => free g has.1 has.2) frames marks
  | free isLive =>
    have inside := (kept.inside _ (isLive ▸ List.mem_append_right _ List.mem_cons_self)).2
    refine kept.giveUp isLive rfl fun g => ?_
    rw [freeFrame_isUsed (by dsimp only at inside; omega)]
    congr 3
    simp only [eq_iff_iff]
    omega
  | freeContiguous isLive =>
    have inside := (kept.inside _ (isLive ▸ List.mem_append_right _ List.mem_cons_self)).2
    exact kept.giveUp isLive rfl fun g => freeFramesContiguous_isUsed inside

theorem Reachable.kept {total kernelEnd : Nat} {h : Handouts} (reached : Reachable total kernelEnd h) :
    Kept total kernelEnd h := by
  induction reached with
  | start => exact .start
  | call _ call ih => exact call.kept ih

/-- In every state after `init`: what is handed out is apart, aligned, in memory and clear of the kernel image and the
    reserved ranges, and no other frame is in use; a single frame and a run are the lowest free ones, and there is none
    exactly if nothing is returned. -/
theorem Reachable.handouts_correct {total kernelEnd : Nat} {h : Handouts} (reached : Reachable total kernelEnd h) :
    (h.live.Pairwise fun r t => r.span.Apart t.span) ∧
      (∀ r ∈ h.live, 4096 ∣ r.span.start ∧ r.span.start + r.span.size ≤ total ∧ kernelEnd ≤ r.span.start ∧
        ∀ p ∈ h.reserved, r.Spares p.1 p.2) ∧
      (∀ g < h.bitmap.frameCount, h.bitmap.isUsed g = true →
        g < (kernelEnd + 4095) / 4096 ∨ (∃ p ∈ h.reserved, Marked p.1 p.2 g) ∨ ∃ r ∈ h.live, r.Has g) ∧
      (∀ phys bitmap, allocFrame h.bitmap = some (phys, bitmap) →
        ∃ f < h.bitmap.frameCount, phys = f * 4096 ∧ h.bitmap.isUsed f = false ∧ (∀ g < f, h.bitmap.isUsed g = true) ∧
          ∀ g, bitmap.isUsed g = true ↔ g = f ∨ h.bitmap.isUsed g = true) ∧
      (allocFrame h.bitmap = none ↔ ∀ g < h.bitmap.frameCount, h.bitmap.isUsed g = true) ∧
      ∀ count > 0,
        (∀ phys bitmap, allocFramesContiguous h.bitmap count = some (phys, bitmap) →
          ∃ f, phys = f * 4096 ∧ f + count ≤ h.bitmap.frameCount ∧ FreeRun h.bitmap.isUsed count f ∧
            (∀ s < f, ¬ FreeRun h.bitmap.isUsed count s) ∧
            ∀ g, bitmap.isUsed g = true ↔ (f ≤ g ∧ g < f + count) ∨ h.bitmap.isUsed g = true) ∧
        (allocFramesContiguous h.bitmap count = none ↔
          ∀ s, s + count ≤ h.bitmap.frameCount → ¬ FreeRun h.bitmap.isUsed count s) := by
  have kept := reached.kept
  refine ⟨?_, ?_, kept.reason, ?_, ?_, fun count some => ⟨?_, allocFramesContiguous_eq_none_iff some⟩⟩
  · refine kept.apart.imp_of_mem fun {r t} isLive isLive' apart => ?_
    have inside := kept.inside r isLive
    have inside' := kept.inside t isLive'
    -- Otherwise the later of the two first frames is in both.
    by_contra overlap
    simp only [Run.span, Span.Apart] at overlap
    exact apart (max r.first t.first) ⟨by omega, by omega⟩ ⟨by omega, by omega⟩
  · intro r isLive
    have inside := kept.inside r isLive
    have frames := kept.frames
    have above := kept.outsideImage r isLive r.first ⟨Nat.le_refl _, by omega⟩
    refine ⟨Nat.dvd_mul_left _ _, ?_, ?_, fun p member => Run.spares_iff.mpr (kept.outsideReserved r isLive p member)⟩
    · simp only [Run.span]
      omega
    · simp only [Run.span]
      omega
  · intro phys bitmap ran
    obtain ⟨f, isPhys, free, below, _, marks, _⟩ := allocFrame_eq_some ran
    obtain ⟨inside, unused⟩ := mem_freeFrames.mp free
    exact ⟨f, inside, isPhys, unused, below, fun g => by simp [marks]⟩
  · rw [allocFrame_eq_none_iff, freeCount, List.length_eq_zero_iff, List.eq_nil_iff_forall_not_mem]
    simp [mem_freeFrames]
  · intro phys bitmap ran
    obtain ⟨f, rfl, _, free, _, marks, _⟩ := allocFramesContiguous_eq_some ran
    have last := (mem_freeFrames.mp (free (f + count - 1) (by omega) (by omega))).1
    refine ⟨f, rfl, by omega, fun g low high => (mem_freeFrames.mp (free g low high)).2, fun s before => ?_,
      fun g => by simp [marks]⟩
    exact allocFramesContiguous_lowest ran (by rwa [Nat.mul_div_cancel _ (by decide)])

/-- Nine frames, of which the kernel image touches two, after a call for two contiguous frames. -/
def twoFrames : Handouts :=
  ⟨((init 40000 4097).setAll [2, 3] true).record [2, 3], [⟨2, 2⟩], []⟩

private theorem twoFrames_reachable : Reachable 40000 4097 twoFrames := by
  have ran : allocFramesContiguous (init 40000 4097) 2 = some (8192, twoFrames.bitmap) := rfl
  have call := Call.allocContiguous (h := ⟨init 40000 4097, [], []⟩) ran
  exact .call .start call

theorem twoFrames_clear : ⟨2, 2⟩ ∈ twoFrames.live ∧ 4097 ≤ (Run.mk 2 2).span.start ∧
    (Run.mk 2 2).span.start + (Run.mk 2 2).span.size ≤ 40000 := by
  have isLive : ⟨2, 2⟩ ∈ twoFrames.live := List.mem_singleton_self _
  have placed := (Reachable.handouts_correct twoFrames_reachable).2.1 _ isLive
  exact ⟨isLive, placed.2.2.1, placed.2.1⟩

end Pcern.Frame

import Mathlib.Data.Set.Insert
import Pcern.Frame
import Pcern.Loops
import Pcern.PageTables

/-!
Address spaces, after `mm/paging.rs`: a fresh page directory shares the
kernel's half of the boot directory, and `map_page` adds one page to it,
allocating a table where the region has none.

`Layout` is the state of memory that every operation keeps: the trees of the
directories in use are private, their frames come from the allocator, the shared
half is the boot directory's, and no page leads to a frame of a tree or of the
kernel.
-/
namespace Pcern
open Bytes Pcern.Frame PageTables

/-- The ways the kernel stops for good: failed `expect`s and `assert`s, a fault
    in ring 0, an exhausted heap, and a deliberate reset. -/
inductive Stop where
  | noMemorySize
  | memoryTooLarge
  | smokeTest
  | outOfMemory
  | misaligned
  | largePage
  | kernelFault
  | heapExhausted
  | notInitialized
  | missingModule
  | wrongTaskId
  | unknownTask
  | noCurrentTask
  | noTaskToRun
  | reset
  deriving DecidableEq, Repr

abbrev kernelStackSize : Nat := 16 * 1024
abbrev heapSize : Nat := 256 * 1024

/-- What the linker fixes: the boot directory lies in the kernel image, between
    the load address and the end of the image, in the 4 MiB mapped at boot.
    `stackFits` says for which task ids the kernel heap has room for a kernel
    stack: it depends on all that shares the heap and is left open, but for the
    heap's size. -/
structure Image where
  bootDir : Nat
  kernelEnd : Nat
  stackFits : Nat → Bool
  aligned : bootDir % 4096 = 0
  loaded : 0x100000 ≤ bootDir
  inside : bootDir + 4096 ≤ kernelEnd
  mapped : kernelEnd ≤ 0x400000
  scarce : ∀ id, stackFits id = true → id * kernelStackSize ≤ heapSize

def Image.firstFrame (image : Image) : Nat := (image.kernelEnd + 4095) / 4096

/-- Physical memory and its allocator. -/
structure Mm where
  image : Image
  frames : Bitmap
  mem : Memory

namespace Paging

abbrev kernelVma : Nat := 0xC0000000
abbrev physMapBase : Nat := 0xE0000000

/-- The loop of `PageDirectory::new`: the upper 256 entries of the boot directory
    go to the directory at `dir`, which is another frame, so one block copy does it. -/
def copyKernelHalf (m : Memory) (bootDir dir : Nat) : Memory :=
  copyFrom m (fun j => m (bootDir + 4 * 768 + j)) (dir + 4 * 768) (4 * 256)

/-- `PageDirectory::new`. -/
def newDirectory (mm : Mm) : Except Stop (Nat × Mm) :=
  match allocFrame mm.frames with
  | none => .error .outOfMemory
  | some (physFrame, frames) =>
    let zeroed := fill mm.mem physFrame 4096 0
    .ok (physFrame, { mm with frames, mem := copyKernelHalf zeroed mm.image.bootDir physFrame })

/-- The directory entry of a region that has a table, widened for ring 3 if need be. -/
def widenEntry (m : Memory) (dir pdIndex : Nat) (user : Bool) : Memory :=
  let pde := word m dir pdIndex
  if user && !PageTables.user pde then write32 m (dir + 4 * pdIndex) (pde ||| 4) else m

/-- The table of a region: the one it has, or a fresh zeroed one. -/
def pageTable (mm : Mm) (dir pdIndex : Nat) (user : Bool) : Except Stop (Nat × Mm) :=
  let pde := word mm.mem dir pdIndex
  if present pde then .ok (address pde, { mm with mem := widenEntry mm.mem dir pdIndex user })
  else
    match allocFrame mm.frames with
    | none => .error .outOfMemory
    | some (newPt, frames) =>
      let zeroed := fill mm.mem newPt 4096 0
      .ok (newPt, { mm with frames, mem := write32 zeroed (dir + 4 * pdIndex) (entry newPt user true) })

/-- `PageDirectory::map_page` on the directory at `dir`. -/
def mapPage (mm : Mm) (dir virtAddr physAddr : Nat) (user writable : Bool) : Except Stop Mm :=
  if virtAddr % 4096 ≠ 0 ∨ physAddr % 4096 ≠ 0 then .error .misaligned
  else
    let pdIndex := virtAddr / 0x400000
    let ptIndex := virtAddr / 4096 % 1024
    let pde := word mm.mem dir pdIndex
    if present pde && large pde then .error .largePage
    else do
      let (pt, mm) ← pageTable mm dir pdIndex user
      .ok { mm with mem := write32 mm.mem (pt + 4 * ptIndex) (entry physAddr user writable) }

/-- The loop of the mapping syscalls: `pages` pages from `physAddr` on, at `virtAddr` and up. -/
def mapPages (mm : Mm) (dir virtAddr physAddr pages : Nat) (writable : Bool) : Except Stop Mm :=
  Loops.forRange (fun i mm => mapPage mm dir (virtAddr + i * 4096) (physAddr + i * 4096) true writable) pages mm

theorem pageTable_eq_error {mm : Mm} {dir i : Nat} {u : Bool} {r : Stop} :
    pageTable mm dir i u = .error r ↔ r = .outOfMemory ∧ present (word mm.mem dir i) = false ∧ freeCount mm.frames = 0 := by
  dsimp only [pageTable]
  cases here : present (word mm.mem dir i) with
  | true => simp
  | false =>
    rw [← allocFrame_eq_none_iff]
    cases alloc : allocFrame mm.frames with
    | none => simp [eq_comm]
    | some got => simp

theorem mapPage_eq_error {mm : Mm} {dir virt phys : Nat} {u w : Bool} {r : Stop}
    (stopped : mapPage mm dir virt phys u w = .error r) : r = .misaligned ∨ r = .largePage ∨ r = .outOfMemory := by
  dsimp only [mapPage] at stopped
  split at stopped
  · cases stopped
    exact .inl rfl
  · split at stopped
    · cases stopped
      exact .inr (.inl rfl)
    · rcases Loops.bind_eq_error.mp stopped with failed | ⟨_, _, none⟩
      · exact .inr (.inr (pageTable_eq_error.mp failed).1)
      · cases none

/-! ## The layout of memory -/

/-- A frame that a page may lead to: the VGA text buffer or a frame handed out
    for data. -/
structure DataFrame (mm : Mm) (dirs : Set Nat) (f : Nat) : Prop where
  aligned : f % 4096 = 0
  taken : f / 4096 ∉ freeFrames mm.frames
  apart : ¬ Structural mm.mem 768 dirs f
  owned : f = 0xB8000 ∨ f / 4096 ∈ mm.frames.handedOut

structure Layout (mm : Mm) (dirs : Set Nat) : Prop where
  spaces : Spaces mm.mem 768 dirs
  trees : ∀ f, Structural mm.mem 768 dirs f → f / 4096 ∉ freeFrames mm.frames ∧ f / 4096 ∈ mm.frames.handedOut
  bounded : mm.frames.frameCount ≤ 131072
  kernel : ∀ g ∈ freeFrames mm.frames, mm.image.firstFrame ≤ g
  handed : ∀ g ∈ mm.frames.handedOut, mm.image.firstFrame ≤ g ∧ g < mm.frames.frameCount
  shared : ∀ d ∈ dirs, ∀ i < 1024, 768 ≤ i → word mm.mem d i = word mm.mem mm.image.bootDir i
  closed : ∀ i < 1024, user (word mm.mem mm.image.bootDir i) = false
  leaves : ∀ d ∈ dirs, ∀ i < 768, ∀ j < 1024, present (leaf mm.mem d i j) = true →
    DataFrame mm dirs (address (leaf mm.mem d i j))

/-- What every operation on memory does: frames only become taken, data frames
    stay data frames, and only frames that were handed out and the VGA buffer are
    written. -/
structure Grows (mm mm' : Mm) (dirs dirs' : Set Nat) : Prop where
  image : mm'.image = mm.image
  count : mm'.frames.frameCount = mm.frames.frameCount
  free : ∀ g ∈ freeFrames mm'.frames, g ∈ freeFrames mm.frames
  handed : ∃ new, mm'.frames.handedOut = mm.frames.handedOut ++ new ∧ ∀ g ∈ new, g ∈ freeFrames mm.frames
  data : ∀ f, DataFrame mm dirs f → DataFrame mm' dirs' f
  untouched : ∀ a, a / 4096 ∉ mm'.frames.handedOut → a / 4096 ≠ 0xB8 → mm'.mem a = mm.mem a

section Layouts
variable {mm mm' : Mm} {dirs dirs' : Set Nat}

theorem Grows.refl (mm : Mm) (dirs : Set Nat) : Grows mm mm dirs dirs where
  image := rfl
  count := rfl
  free _ member := member
  handed := ⟨[], by simp, by simp⟩
  data _ holds := holds
  untouched _ _ _ := rfl

theorem Grows.trans {mm'' : Mm} {dirs'' : Set Nat} (first : Grows mm mm' dirs dirs')
    (second : Grows mm' mm'' dirs' dirs'') : Grows mm mm'' dirs dirs'' := by
  obtain ⟨new, handed, fresh⟩ := first.handed
  obtain ⟨new', handed', fresh'⟩ := second.handed
  refine ⟨by rw [second.image, first.image], by rw [second.count, first.count], ?_, ?_, ?_, ?_⟩
  · exact fun g member => first.free g (second.free g member)
  · refine ⟨new ++ new', by rw [handed', handed, List.append_assoc], fun g member => ?_⟩
    rcases List.mem_append.mp member with old | later
    · exact fresh g old
    · exact first.free g (fresh' g later)
  · exact fun f holds => second.data f (first.data f holds)
  · intro a outside notVga
    have outside' : a / 4096 ∉ mm'.frames.handedOut := fun member => outside (by rw [handed']; simp [member])
    rw [second.untouched a outside notVga, first.untouched a outside' notVga]

variable {frames' : Bitmap} {dir f i pt : Nat} {mem' : Memory}

theorem Layout.kernel_frame (layout : Layout mm dirs) (below : f / 4096 < mm.image.firstFrame) :
    f / 4096 ∉ freeFrames mm.frames ∧ ¬ Structural mm.mem 768 dirs f := by
  refine ⟨fun free => ?_, fun holds => ?_⟩
  · exact absurd (layout.kernel _ free) (by omega)
  · exact absurd (layout.handed _ (layout.trees f holds).2).1 (by omega)

theorem bootDir_frame (image : Image) : 256 ≤ image.bootDir / 4096 ∧ image.bootDir / 4096 < image.firstFrame := by
  have := image.aligned
  have := image.loaded
  have := image.inside
  unfold Image.firstFrame
  omega

theorem Layout.data_frame (layout : Layout mm dirs) (data : DataFrame mm dirs f) :
    f ≠ mm.image.bootDir ∧ f < 2 ^ 29 := by
  have ⟨low, high⟩ := bootDir_frame mm.image
  have := layout.bounded
  have := data.aligned
  rcases data.owned with rfl | member
  · refine ⟨fun same => ?_, by decide⟩
    rw [← same] at low
    omega
  · have ⟨above, below⟩ := layout.handed _ member
    refine ⟨fun same => ?_, by omega⟩
    rw [← same] at high
    omega

theorem Layout.write (layout : Layout mm dirs)
    (same : ∀ f, Structural mm.mem 768 dirs f ∨ f = mm.image.bootDir → ∀ a, f ≤ a → a < f + 4096 → mem' a = mm.mem a) :
    Layout { mm with mem := mem' } dirs ∧ (∀ f, DataFrame mm dirs f → DataFrame { mm with mem := mem' } dirs f) ∧
      ∀ d ∈ dirs, ∀ i < 768, ∀ j < 1024, leaf mem' d i j = leaf mm.mem d i j := by
  have words : ∀ f, Structural mm.mem 768 dirs f ∨ f = mm.image.bootDir → ∀ i < 1024, word mem' f i = word mm.mem f i :=
    fun f holds i inside => word_congr (same f holds) inside
  obtain ⟨spaces, frames, leaves⟩ := layout.spaces.congr (by decide) fun f holds => words f (.inl holds)
  have data : ∀ f, DataFrame mm dirs f → DataFrame { mm with mem := mem' } dirs f :=
    fun f holds => ⟨holds.aligned, holds.taken, fun within => holds.apart ((frames f).mp within), holds.owned⟩
  refine ⟨⟨spaces, fun f holds => layout.trees f ((frames f).mp holds), layout.bounded, layout.kernel, layout.handed,
    ?_, ?_, ?_⟩, data, leaves⟩
  · intro d member i inside upper
    rw [words d (.inl (.inl member)) i inside, layout.shared d member i inside upper]
    exact (words _ (.inr rfl) i inside).symm
  · intro i inside
    rw [words _ (.inr rfl) i inside]
    exact layout.closed i inside
  · intro d member i low j inside
    rw [leaves d member i low j inside]
    exact fun mapped => data _ (layout.leaves d member i low j inside mapped)

theorem Layout.take (layout : Layout mm dirs) {taken : List Nat}
    (count : frames'.frameCount = mm.frames.frameCount)
    (marks : ∀ g, frames'.isUsed g = (decide (g ∈ taken) || mm.frames.isUsed g))
    (handed : frames'.handedOut = mm.frames.handedOut ++ taken) (free : ∀ g ∈ taken, g ∈ freeFrames mm.frames) :
    Layout { mm with frames := frames' } dirs ∧ Grows mm { mm with frames := frames' } dirs dirs ∧
      ∀ g ∈ taken, DataFrame { mm with frames := frames' } dirs (g * 4096) := by
  have freeIff : ∀ g, g ∈ freeFrames frames' ↔ g ∈ freeFrames mm.frames ∧ g ∉ taken := by
    intro g
    rw [mem_freeFrames, mem_freeFrames, marks, count]
    simp only [Bool.or_eq_false_iff, decide_eq_false_iff_not]
    tauto
  have data : ∀ f, DataFrame mm dirs f → DataFrame { mm with frames := frames' } dirs f :=
    fun f holds => ⟨holds.aligned, fun member => holds.taken ((freeIff _).mp member).1, holds.apart,
      holds.owned.imp id fun member => by simp [handed, member]⟩
  refine ⟨⟨layout.spaces, ?_, ?_, ?_, ?_, layout.shared, layout.closed, ?_⟩, ⟨rfl, count, ?_, ?_, data, fun _ _ _ => rfl⟩,
    ?_⟩
  · intro f holds
    obtain ⟨used, out⟩ := layout.trees f holds
    exact ⟨fun member => used ((freeIff _).mp member).1, by simp [handed, out]⟩
  · simpa [count] using layout.bounded
  · exact fun g member => layout.kernel g ((freeIff g).mp member).1
  · intro g member
    simp only [handed, List.mem_append] at member
    rcases member with old | new
    · simpa [count] using layout.handed g old
    · exact ⟨layout.kernel g (free g new), by simpa [count] using (mem_freeFrames.mp (free g new)).1⟩
  · exact fun d member i low j inside mapped => data _ (layout.leaves d member i low j inside mapped)
  · exact fun g member => ((freeIff g).mp member).1
  · exact ⟨taken, handed, free⟩
  · intro g new
    have place : g * 4096 / 4096 = g := by omega
    refine ⟨by omega, ?_, ?_, .inr ?_⟩
    · rw [place]
      exact fun member => ((freeIff g).mp member).2 new
    · intro holds
      have used := (layout.trees _ holds).1
      rw [place] at used
      exact used (free g new)
    · simp [place, handed, new]

theorem Layout.alloc (layout : Layout mm dirs) {phys : Nat}
    (alloc : allocFrame mm.frames = some (phys, frames')) :
    Layout { mm with frames := frames' } dirs ∧ Grows mm { mm with frames := frames' } dirs dirs ∧
      DataFrame { mm with frames := frames' } dirs phys ∧ phys / 4096 ∈ freeFrames mm.frames ∧
      phys / 4096 ∈ frames'.handedOut ∧ ¬ Structural mm.mem 768 dirs phys := by
  obtain ⟨f, rfl, free, _, count, marks, handed⟩ := allocFrame_eq_some alloc
  have place : f * 4096 / 4096 = f := by omega
  obtain ⟨kept, grows, data⟩ := layout.take count (by simpa using marks) handed (by simpa using free)
  exact ⟨kept, grows, data f (by simp), by rwa [place], by simp [place, handed], (data f (by simp)).apart⟩

private theorem newDirectory_words (m : Memory) {d boot : Nat} (aligned : d % 4096 = 0) (aligned' : boot % 4096 = 0)
    (other : boot ≠ d) :
    let zeroed := fill m d 4096 0
    let m' := copyKernelHalf zeroed boot d
    (∀ t i, t % 4096 = 0 → i < 1024 → t ≠ d → word m' t i = word m t i) ∧ (∀ i < 768, word m' d i = 0) ∧
      ∀ i < 1024, 768 ≤ i → word m' d i = word m boot i := by
  intro zeroed m'
  refine ⟨?_, ?_, ?_⟩
  · intro t i onFrame inside apart
    calc word m' t i = word zeroed t i := read32_copyFrom_other _ _ (by omega)
      _ = word m t i := by rw [word_fill m aligned onFrame inside, if_neg apart]
  · intro i low
    calc word m' d i = word zeroed d i := read32_copyFrom_other _ _ (by omega)
      _ = 0 := by rw [word_fill m aligned aligned (by omega), if_pos rfl]
  · intro i inside upper
    calc word m' d i = read32 (fun j => zeroed (boot + 4 * 768 + j)) (d + 4 * i - (d + 4 * 768)) :=
          read32_copyFrom_inside _ _ (by omega) (by omega)
      _ = word zeroed boot i := read32_congr fun k _ => by
          congr 1
          omega
      _ = word m boot i := by rw [word_fill m aligned aligned' inside, if_neg other]

theorem newDirectory_spec (layout : Layout mm dirs) {d : Nat} (made : newDirectory mm = .ok (d, mm')) :
    Layout mm' (insert d dirs) ∧ Grows mm mm' dirs (insert d dirs) ∧ d ∉ dirs ∧ d / 4096 ∈ freeFrames mm.frames ∧
      (∀ d' ∈ dirs, ∀ i < 768, ∀ j < 1024, leaf mm'.mem d' i j = leaf mm.mem d' i j) ∧
      ∀ i < 768, ∀ j, leaf mm'.mem d i j = 0 := by
  unfold newDirectory at made
  split at made
  · cases made
  · rename_i physFrame frames' alloc
    cases made
    obtain ⟨took, grows, data, free, out, fresh⟩ := layout.alloc alloc
    have aligned := data.aligned
    have other : mm.image.bootDir ≠ d := (took.data_frame data).1.symm
    obtain ⟨same, empty, upper⟩ := newDirectory_words mm.mem aligned mm.image.aligned other
    have words : ∀ f, Structural mm.mem 768 dirs f → ∀ k < 1024, word _ f k = word mm.mem f k := fun f holds k inside =>
      same f k (layout.spaces.structural_aligned holds) inside fun equal => fresh (equal ▸ holds)
    obtain ⟨spaces, structural, leaves, blank⟩ := layout.spaces.addDirectory (by decide) aligned fresh
      (fun i low => by rw [empty i low]; rfl) words
    have data' : ∀ f, DataFrame mm dirs f → DataFrame
        { mm with frames := frames', mem := copyKernelHalf (fill mm.mem d 4096 0) mm.image.bootDir d } (insert d dirs) f := by
      intro f holds
      have kept := grows.data f holds
      refine ⟨kept.aligned, kept.taken, fun within => ?_, kept.owned⟩
      rcases (structural f).mp within with rfl | old
      · exact holds.taken free
      · exact kept.apart old
    refine ⟨⟨spaces, ?_, took.bounded, took.kernel, took.handed, ?_, ?_, ?_⟩,
      ⟨rfl, grows.count, grows.free, grows.handed, data', ?_⟩, fun member => fresh (.inl member), free, leaves, blank⟩
    · intro f within
      rcases (structural f).mp within with rfl | old
      · exact ⟨data.taken, out⟩
      · exact took.trees f old
    · rintro d' (rfl | member) i inside high
      · rw [upper i inside high, same _ i mm.image.aligned inside other]
      · rw [words d' (.inl member) i inside, same _ i mm.image.aligned inside other]
        exact layout.shared d' member i inside high
    · intro i inside
      rw [same _ i mm.image.aligned inside other]
      exact layout.closed i inside
    · rintro d' (rfl | member) i low j inside mapped
      · rw [blank i low j] at mapped
        cases mapped
      · rw [leaves d' member i low j inside] at mapped ⊢
        exact data' _ (layout.leaves d' member i low j inside mapped)
    · intro a outside _
      have apart : ¬ (d ≤ a ∧ a < d + 4096) := fun inside => outside (by
        have : a / 4096 = d / 4096 := by omega
        rwa [this])
      change copyKernelHalf (fill mm.mem d 4096 0) mm.image.bootDir d a = mm.mem a
      rw [copyKernelHalf, copyFrom_apply_other _ _ (by omega), fill_apply_other _ _ (by omega)]

theorem Layout.allocContiguous (layout : Layout mm dirs) {count phys : Nat}
    (alloc : allocFramesContiguous mm.frames count = some (phys, frames')) :
    Layout { mm with frames := frames' } dirs ∧ Grows mm { mm with frames := frames' } dirs dirs ∧
      ∀ k < count, DataFrame { mm with frames := frames' } dirs (phys + k * 4096) ∧
        (phys + k * 4096) / 4096 ∈ freeFrames mm.frames := by
  obtain ⟨f, rfl, _, free, same, marks, handed, _⟩ := allocFramesContiguous_eq_some alloc
  have listed : ∀ g ∈ List.range' f count, g ∈ freeFrames mm.frames := by
    intro g member
    rw [List.mem_range'_1] at member
    exact free g member.1 member.2
  obtain ⟨kept, grows, data⟩ := layout.take same (by simpa only [List.mem_range'_1] using marks) handed listed
  refine ⟨kept, grows, fun k less => ?_⟩
  have place : f * 4096 + k * 4096 = (f + k) * 4096 := by omega
  have divided : (f + k) * 4096 / 4096 = f + k := by omega
  rw [place, divided]
  exact ⟨data (f + k) (by rw [List.mem_range'_1]; omega), free (f + k) (by omega) (by omega)⟩

/-- New words in the trees keep the layout when they keep the leaves, the shared half and the boot
    directory, and add at most the frame `pt` to the trees, to which no page leads. -/
theorem Layout.retree (layout : Layout mm dirs) (spaces : Spaces mem' 768 dirs)
    (structural : ∀ f, Structural mem' 768 dirs f → f = pt ∨ Structural mm.mem 768 dirs f)
    (own : pt / 4096 ∉ freeFrames mm.frames ∧ pt / 4096 ∈ mm.frames.handedOut)
    (upper : ∀ d ∈ dirs, ∀ i < 1024, 768 ≤ i → word mem' d i = word mm.mem d i)
    (boot : ∀ i < 1024, word mem' mm.image.bootDir i = word mm.mem mm.image.bootDir i)
    (leaves : ∀ d ∈ dirs, ∀ i < 768, ∀ j < 1024, leaf mem' d i j = leaf mm.mem d i j)
    (unmapped : ∀ d ∈ dirs, ∀ i < 768, ∀ j < 1024, present (leaf mm.mem d i j) = true → address (leaf mm.mem d i j) ≠ pt) :
    Layout { mm with mem := mem' } dirs ∧ ∀ f ≠ pt, DataFrame mm dirs f → DataFrame { mm with mem := mem' } dirs f := by
  have data : ∀ f ≠ pt, DataFrame mm dirs f → DataFrame { mm with mem := mem' } dirs f := fun f other holds =>
    ⟨holds.aligned, holds.taken, fun within => (structural f within).elim other holds.apart, holds.owned⟩
  refine ⟨⟨spaces, ?_, layout.bounded, layout.kernel, layout.handed, ?_, ?_, ?_⟩, data⟩
  · intro f within
    rcases structural f within with rfl | old
    · exact own
    · exact layout.trees f old
  · intro d member i inside high
    rw [upper d member i inside high, layout.shared d member i inside high]
    exact (boot i inside).symm
  · intro i inside
    rw [boot i inside]
    exact layout.closed i inside
  · intro d member i low j inside mapped
    rw [leaves d member i low j inside] at mapped ⊢
    exact data _ (unmapped d member i low j inside mapped) (layout.leaves d member i low j inside mapped)

theorem Layout.tree_frame (layout : Layout mm dirs) (within : Structural mm.mem 768 dirs f) :
    f ≠ mm.image.bootDir ∧ f < 2 ^ 32 ∧ ∀ a, a / 4096 ∉ mm.frames.handedOut → a < f ∨ f + 4096 ≤ a := by
  have ⟨_, out⟩ := layout.trees f within
  have ⟨above, below⟩ := layout.handed _ out
  have := layout.bounded
  have := bootDir_frame mm.image
  have := layout.spaces.structural_aligned within
  refine ⟨?_, by omega, ?_⟩
  · rintro rfl
    omega
  · intro a outside
    by_contra inside
    have place : a / 4096 = f / 4096 := by omega
    exact outside (place ▸ out)

/-- What `page_table` leaves behind: the entry leads to the table, one that was there or a free frame, and the other
    entries and all leaves are as they were. -/
structure TableAt (mm mm' : Mm) (dirs : Set Nat) (dir i pt : Nat) (u : Bool) : Prop where
  layout : Layout mm' dirs
  grows : Grows mm mm' dirs dirs
  here : present (word mm'.mem dir i) = true
  points : address (word mm'.mem dir i) = pt
  leaves : ∀ d ∈ dirs, ∀ i' < 768, ∀ j < 1024, leaf mm'.mem d i' j = leaf mm.mem d i' j
  words : ∀ d ∈ dirs, ∀ k < 1024, ¬(d = dir ∧ k = i) → word mm'.mem d k = word mm.mem d k
  bytes : ∀ a, a < dir ∨ dir + 4096 ≤ a → a < pt ∨ pt + 4096 ≤ a → mm'.mem a = mm.mem a
  how : present (word mm.mem dir i) = true ∧ mm'.frames = mm.frames ∧ pt = address (word mm.mem dir i) ∧
        (u = true → user (word mm'.mem dir i) = true) ∧
        (writable (word mm.mem dir i) = true → writable (word mm'.mem dir i) = true) ∨
      present (word mm.mem dir i) = false ∧ allocFrame mm.frames = some (pt, mm'.frames) ∧
        word mm'.mem dir i = entry pt u true ∧ pt % 4096 = 0

private theorem widenEntry_words (m : Memory) (u : Bool) (aligned : dir % 4096 = 0) (low : i < 1024) :
    ∃ e, (present e = present (word m dir i) ∧ large e = large (word m dir i) ∧ address e = address (word m dir i)) ∧
      (u = true → user e = true) ∧ (writable (word m dir i) = true → writable e = true) ∧
      (∀ f, f % 4096 = 0 → ∀ k < 1024, word (widenEntry m dir i u) f k = if f = dir ∧ k = i then e else word m f k) ∧
      ∀ a, a < dir ∨ dir + 4096 ≤ a → widenEntry m dir i u a = m a := by
  by_cases needed : (u && !user (word m dir i)) = true
  · rw [show widenEntry m dir i u = _ from if_pos needed]
    refine ⟨word m dir i ||| 4, widened _, fun _ => ?_, fun wide => ?_, ?_, ?_⟩
    · rw [user, Nat.testBit_or, show Nat.testBit 4 2 = true by decide, Bool.or_true]
    · rw [writable, Nat.testBit_or, show (word m dir i).testBit 1 = true from wide, Bool.true_or]
    · exact fun f onFrame k inside => word_write32 m aligned low (widened_lt (word_lt ..)) onFrame inside
    · exact fun a outside => write32_apply_other _ _ _ (by omega)
  · rw [show widenEntry m dir i u = m from if_neg needed]
    refine ⟨word m dir i, ⟨rfl, rfl, rfl⟩, fun isUser => ?_, id, fun f _ k _ => ?_, fun _ _ => rfl⟩
    · rw [isUser, Bool.true_and, Bool.not_eq_true, Bool.not_eq_false'] at needed
      exact needed
    · split
      · rename_i same
        rw [same.1, same.2]
      · rfl

private theorem widenEntry_tableAt (layout : Layout mm dirs) (u : Bool) (member : dir ∈ dirs) (low : i < 768)
    (here : present (word mm.mem dir i) = true) :
    TableAt mm { mm with mem := widenEntry mm.mem dir i u } dirs dir i (address (word mm.mem dir i)) u := by
  have aligned := layout.spaces.aligned dir member
  have ⟨notBoot, _, far⟩ := layout.tree_frame (.inl member)
  obtain ⟨e, wide, isUser, isWritable, words, bytes⟩ := widenEntry_words mm.mem u aligned (by omega : i < 1024)
  have placed : word (widenEntry mm.mem dir i u) dir i = e := by rw [words dir aligned i (by omega), if_pos ⟨rfl, rfl⟩]
  obtain ⟨spaces, structural, leaves⟩ := layout.spaces.widen (by decide) wide
    (fun f within => words f (layout.spaces.structural_aligned within)) member
  have others : ∀ d ∈ dirs, ∀ k < 1024, ¬(d = dir ∧ k = i) → word (widenEntry mm.mem dir i u) d k = word mm.mem d k :=
    fun d member' k inside other => by rw [words d (layout.spaces.aligned d member') k inside, if_neg other]
  obtain ⟨kept, data⟩ := layout.retree spaces (fun f within => .inr ((structural f).mp within))
    (layout.trees dir (.inl member))
    (fun d member' k inside high => others d member' k inside (by omega))
    (fun k inside => by rw [words _ mm.image.aligned k inside, if_neg fun same => notBoot same.1.symm])
    leaves
    (fun d member' k below j inside mapped same =>
      (layout.leaves d member' k below j inside mapped).apart (same ▸ .inl member))
  rw [← placed] at wide isUser isWritable
  refine ⟨kept, ⟨rfl, rfl, fun _ free => free, ⟨[], by simp, by simp⟩, ?_, ?_⟩, wide.1.trans here, wide.2.2, leaves,
    others, fun a outside _ => bytes a outside, .inl ⟨here, rfl, rfl, isUser, isWritable⟩⟩
  · exact fun f holds => data f (fun same => holds.apart (same ▸ .inl member)) holds
  · exact fun a outside _ => bytes a (far a outside)

private theorem addTable_tableAt (layout : Layout mm dirs) (u : Bool)
    (member : dir ∈ dirs) (low : i < 768) (empty : present (word mm.mem dir i) = false)
    (alloc : allocFrame mm.frames = some (pt, frames')) :
    TableAt mm { mm with frames := frames', mem := write32 (fill mm.mem pt 4096 0) (dir + 4 * i) (entry pt u true) }
      dirs dir i pt u := by
  set mem' := write32 (fill mm.mem pt 4096 0) (dir + 4 * i) (entry pt u true) with memory
  obtain ⟨took, grows, data, free, out, fresh⟩ := layout.alloc alloc
  have ptAligned := data.aligned
  have aligned := layout.spaces.aligned dir member
  have ⟨notBoot, _, far⟩ := took.tree_frame (.inl member)
  have ⟨bootApart, ptSmall⟩ := took.data_frame data
  have small := entry_lt ptAligned (by omega) u true
  have points := address_entry ptAligned u true
  have words : ∀ f, f % 4096 = 0 → f ≠ pt → ∀ k < 1024,
      word mem' f k = if f = dir ∧ k = i then entry pt u true else word mm.mem f k := by
    intro f onFrame other k inside
    rw [word_write32 _ aligned (by omega) small onFrame inside, word_fill _ ptAligned onFrame inside, if_neg other]
  have written : ∀ f, Structural mm.mem 768 dirs f → ∀ k < 1024,
      word mem' f k = if f = dir ∧ k = i then entry pt u true else word mm.mem f k := fun f within =>
    words f (layout.spaces.structural_aligned within) fun same => fresh (same ▸ within)
  have others : ∀ d ∈ dirs, ∀ k < 1024, ¬(d = dir ∧ k = i) → word mem' d k = word mm.mem d k :=
    fun d member' k inside other => by rw [written d (.inl member') k inside, if_neg other]
  have placed : word mem' dir i = entry pt u true := by rw [written dir (.inl member) i (by omega), if_pos ⟨rfl, rfl⟩]
  have dirOther : dir ≠ pt := fun same => fresh (same ▸ .inl member)
  have zeroed : ∀ k < 1024, word mem' pt k = 0 := by
    intro k inside
    rw [word_write32 _ aligned (by omega) small ptAligned inside, if_neg fun same => dirOther same.1.symm,
      word_fill _ ptAligned ptAligned inside, if_pos rfl]
  have bytes : ∀ a, a < dir ∨ dir + 4096 ≤ a → a < pt ∨ pt + 4096 ≤ a → mem' a = mm.mem a := fun a outside outside' => by
    rw [memory, write32_apply_other _ _ _ (by omega), fill_apply_other _ _ (by omega)]
  obtain ⟨spaces, structural, leaves⟩ := layout.spaces.addTable (by decide) member low empty
    (present_entry ptAligned u true) (large_entry ptAligned u true) (by rwa [points]) (by rwa [points]) written
  rw [points] at structural
  obtain ⟨kept, data'⟩ := took.retree spaces (fun f within => (structural f).mp within) ⟨data.taken, out⟩
    (fun d member' k inside high => others d member' k inside (by omega))
    (fun k inside => by
      rw [words _ mm.image.aligned bootApart.symm k inside, if_neg fun same => notBoot same.1.symm])
    leaves
    (fun d member' k below j inside mapped same =>
      (layout.leaves d member' k below j inside mapped).taken (same ▸ free))
  refine ⟨kept, ⟨rfl, grows.count, grows.free, grows.handed, ?_, ?_⟩, ?_, ?_, leaves, others, bytes,
    .inr ⟨empty, alloc, placed, ptAligned⟩⟩
  · exact fun f holds => data' f (fun same => holds.taken (same ▸ free)) (grows.data f holds)
  · intro a outside _
    refine bytes a (far a outside) ?_
    by_contra inside
    have place : a / 4096 = pt / 4096 := by omega
    exact outside (place ▸ out)
  · exact placed ▸ present_entry ptAligned u true
  · exact placed ▸ points

theorem pageTable_spec (layout : Layout mm dirs) {u : Bool} (member : dir ∈ dirs) (low : i < 768)
    (ran : pageTable mm dir i u = .ok (pt, mm')) : TableAt mm mm' dirs dir i pt u := by
  unfold pageTable at ran
  cases here : present (word mm.mem dir i) with
  | true =>
    simp only [here, if_true] at ran
    cases ran
    exact widenEntry_tableAt layout u member low here
  | false =>
    simp only [here, Bool.false_eq_true, if_false] at ran
    split at ran
    · cases ran
    · rename_i newPt frames' alloc
      cases ran
      exact addTable_tableAt layout u member low here alloc

theorem mapPage_eq_ok {virt phys : Nat} {u w : Bool} (ran : mapPage mm dir virt phys u w = .ok mm') :
    ∃ pt mid, pageTable mm dir (virt / 0x400000) u = .ok (pt, mid) ∧
      mm' = { mid with mem := write32 mid.mem (pt + 4 * (virt / 4096 % 1024)) (entry phys u w) } := by
  dsimp only [mapPage] at ran
  split at ran
  · cases ran
  split at ran
  · cases ran
  obtain ⟨⟨pt, mid⟩, table, ran⟩ := Loops.bind_eq_ok.mp ran
  cases ran
  exact ⟨pt, mid, table, rfl⟩

/-- `map_page` on a private address of a directory in use: one leaf changes, to lead to the data frame given. -/
theorem mapPage_spec (layout : Layout mm dirs) {dir virt phys : Nat} {u w : Bool} (member : dir ∈ dirs)
    (low : virt < kernelVma) (target : DataFrame mm dirs phys) (ran : mapPage mm dir virt phys u w = .ok mm') :
    Layout mm' dirs ∧ Grows mm mm' dirs dirs ∧ ∀ d ∈ dirs, ∀ i < 768, ∀ j < 1024,
      leaf mm'.mem d i j =
        if d = dir ∧ i = virt / 0x400000 ∧ j = virt / 4096 % 1024 then entry phys u w else leaf mm.mem d i j := by
  have region : virt / 0x400000 < 768 := by simp only [kernelVma] at low; omega
  obtain ⟨pt, mid, table, rfl⟩ := mapPage_eq_ok ran
  obtain ⟨kept, grows, here, points, leaves, _⟩ := pageTable_spec layout member region table
  have data := grows.data phys target
  have within : Structural mid.mem 768 dirs pt := points ▸ .table member region here
  have aligned := kept.spaces.structural_aligned within
  have ⟨notBoot, _, far⟩ := kept.tree_frame within
  have small := entry_lt target.aligned (by have := (layout.data_frame target).2; omega) u w
  have written : ∀ f, f % 4096 = 0 → ∀ k < 1024,
      word (write32 mid.mem (pt + 4 * (virt / 4096 % 1024)) (entry phys u w)) f k =
        if f = pt ∧ k = virt / 4096 % 1024 then entry phys u w else word mid.mem f k := fun f onFrame k inside =>
    word_write32 mid.mem aligned (by omega) small onFrame inside
  obtain ⟨spaces, structural, leaves'⟩ := kept.spaces.setLeaf (by decide) member region here
    (fun f holds k inside => by
      rw [written f (kept.spaces.structural_aligned holds) k inside, points])
  have data' : ∀ f, DataFrame mid dirs f → DataFrame
      { mid with mem := write32 mid.mem (pt + 4 * (virt / 4096 % 1024)) (entry phys u w) } dirs f := fun f holds =>
    ⟨holds.aligned, holds.taken, fun inside => holds.apart ((structural f).mp inside), holds.owned⟩
  refine ⟨⟨spaces, fun f holds => kept.trees f ((structural f).mp holds), kept.bounded, kept.kernel, kept.handed, ?_, ?_,
    ?_⟩, grows.trans ⟨rfl, rfl, fun _ free => free, ⟨[], by simp, by simp⟩, data', ?_⟩, ?_⟩
  · intro d member' i inside high
    have dirOther : d ≠ pt := fun same =>
      kept.spaces.apart dir member _ region here (points ▸ same ▸ member')
    rw [written d (kept.spaces.aligned d member') i inside, if_neg fun same => dirOther same.1,
      written _ mid.image.aligned i inside, if_neg fun same => notBoot same.1.symm]
    exact kept.shared d member' i inside high
  · intro i inside
    rw [written _ mid.image.aligned i inside, if_neg fun same => notBoot same.1.symm]
    exact kept.closed i inside
  · intro d member' i below j inside mapped
    rw [leaves' d member' i below j inside] at mapped ⊢
    split at mapped
    · rename_i same
      rw [if_pos same, address_entry target.aligned]
      exact data' phys data
    · rename_i other
      rw [if_neg other]
      exact data' _ (kept.leaves d member' i below j inside mapped)
  · exact fun a outside _ => write32_apply_other _ _ _ (by have := far a outside; omega)
  · intro d member' i below j inside
    rw [leaves' d member' i below j inside, leaves d member' i below j inside]

theorem Layout.writeData (layout : Layout mm dirs) (data : DataFrame mm dirs f)
    (same : ∀ a, a < f ∨ f + 4096 ≤ a → mem' a = mm.mem a) :
    Layout { mm with mem := mem' } dirs ∧ Grows mm { mm with mem := mem' } dirs dirs ∧
      ∀ d ∈ dirs, ∀ i < 768, ∀ j < 1024, leaf mem' d i j = leaf mm.mem d i j := by
  have aligned := data.aligned
  have apart : ∀ g, Structural mm.mem 768 dirs g ∨ g = mm.image.bootDir → g ≠ f ∧ g % 4096 = 0 := by
    rintro g (within | rfl)
    · exact ⟨fun equal => data.apart (equal ▸ within), layout.spaces.structural_aligned within⟩
    · exact ⟨(layout.data_frame data).1.symm, mm.image.aligned⟩
  have unwritten : ∀ g, Structural mm.mem 768 dirs g ∨ g = mm.image.bootDir →
      ∀ a, g ≤ a → a < g + 4096 → mem' a = mm.mem a := by
    intro g holds a lower upper
    have ⟨other, onFrame⟩ := apart g holds
    exact same a (by omega)
  obtain ⟨kept, keeps, leaves⟩ := layout.write unwritten
  refine ⟨kept, ⟨rfl, rfl, fun _ free => free, ⟨[], by simp, by simp⟩, keeps, ?_⟩, leaves⟩
  intro a outside notVga
  refine same a ?_
  by_contra inside
  have place : a / 4096 = f / 4096 := by omega
  rcases data.owned with rfl | member
  · exact notVga (by omega)
  · exact outside (place ▸ member)

theorem mapPages_spec (layout : Layout mm dirs) {dir virt phys pages : Nat} {w : Bool} (member : dir ∈ dirs)
    (low : virt + pages * 4096 ≤ kernelVma) (targets : ∀ k < pages, DataFrame mm dirs (phys + k * 4096))
    (ran : mapPages mm dir virt phys pages w = .ok mm') :
    Layout mm' dirs ∧ Grows mm mm' dirs dirs ∧ ∀ d ∈ dirs, ∀ i < 768, ∀ j < 1024,
      leaf mm'.mem d i j = leaf mm.mem d i j ∨
        d = dir ∧ ∃ k < pages, leaf mm'.mem d i j = entry (phys + k * 4096) true w := by
  refine Loops.forRange_invariant (fun n mid => Layout mid dirs ∧ Grows mm mid dirs dirs ∧
    ∀ d ∈ dirs, ∀ i < 768, ∀ j < 1024, leaf mid.mem d i j = leaf mm.mem d i j ∨
      d = dir ∧ ∃ k < n, leaf mid.mem d i j = entry (phys + k * 4096) true w) ran
    ⟨layout, .refl _ _, fun _ _ _ _ _ _ => .inl rfl⟩ ?_
  rintro n inside mid mid' ⟨kept, grows, leaves⟩ step
  obtain ⟨kept', grows', leaves'⟩ := mapPage_spec kept member (by omega) (grows.data _ (targets n inside)) step
  refine ⟨kept', grows.trans grows', fun d member' i below j bound => ?_⟩
  rw [leaves' d member' i below j bound]
  split
  · rename_i here
    exact .inr ⟨here.1, n, Nat.lt_succ_self n, rfl⟩
  · rcases leaves d member' i below j bound with old | ⟨same, k, less, new⟩
    · exact .inl old
    · exact .inr ⟨same, k, Nat.lt_succ_of_lt less, new⟩

end Layouts

end Paging
end Pcern

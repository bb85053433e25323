import Pcern.Bytes
import Pcern.Spans
import Mathlib.Data.List.Basic
import Mathlib.Data.Nat.Bitwise

/-!
The kernel heap, a first-fit free-list allocator. The list lives in the memory
it manages: a free block begins with its size and the address of the next one,
and address 0 stands for `None`.

What the heap is for is told by the stretches of memory: the free blocks and the
blocks handed out tile the region given to `init` (`Sound`). That the links read
from memory are the free blocks rests on that tiling, since a write to one block
leaves the headers of all others alone, whether the heap writes or the owner of
a block.
-/
namespace Pcern.Heap

open Bytes Spans

abbrev minBlockAlign : Nat := 8

/-- `mem::size_of::<FreeBlock>()` where a pointer has four bytes. -/
abbrev freeBlockSize : Nat := 8

/-- The head of the list and the memory that holds the blocks. -/
structure LinkedListHeap where
  head : Nat
  mem : Memory

/-- `n & !(align - 1)` on 32 bits. -/
def maskDown (n align : Nat) : Nat := n &&& (2 ^ 32 - align)

namespace LinkedListHeap

/-- A block in front of the list; one too small for a header is forgotten. -/
def addFreeRegion (h : LinkedListHeap) (addr size : Nat) : LinkedListHeap :=
  if size < freeBlockSize then h
  else { head := addr, mem := write32 (write32 h.mem addr size) (addr + 4) h.head }

def alignUp (addr align : Nat) : Nat := maskDown ((addr + align - 1) % 2 ^ 32) align

/-- Take the block behind `prev` out of the list, or the first one. -/
def unlink (h : LinkedListHeap) (prev next : Nat) : LinkedListHeap :=
  if prev = 0 then { h with head := next } else { h with mem := write32 h.mem (prev + 4) next }

/-- Give back what a block has in front of an allocation and behind it. -/
def giveBack (h : LinkedListHeap) (regionStart excessFront allocEnd excessBack : Nat) : LinkedListHeap :=
  let h := if excessFront > 0 then h.addFreeRegion regionStart excessFront else h
  if excessBack > 0 then h.addFreeRegion allocEnd excessBack else h

/-- The loop of `find_region`. Without the fuel to reach the end of the list it has no result. -/
def scan (h : LinkedListHeap) (size align : Nat) : Nat → Nat → Nat → Option (Option Nat × LinkedListHeap)
  | 0, _, _ => none
  | fuel + 1, prev, current =>
    if current = 0 then some (none, h)
    else
      let regionEnd := (current + read32 h.mem current) % 2 ^ 32
      let allocStart := alignUp current align
      let next := read32 h.mem (current + 4)
      -- `checked_add` gives nothing past the last address.
      if allocStart + size < 2 ^ 32 ∧ allocStart + size ≤ regionEnd then
        some (some allocStart,
          (h.unlink prev next).giveBack current ((allocStart + 2 ^ 32 - current) % 2 ^ 32) (allocStart + size)
            (regionEnd - (allocStart + size)))
      else scan h size align fuel current next

def findRegion (h : LinkedListHeap) (fuel size align : Nat) : Option (Option Nat × LinkedListHeap) :=
  h.scan size align fuel 0 h.head

end LinkedListHeap

open LinkedListHeap

def roundUpMinBlock (size : Nat) : Nat := maskDown ((size + minBlockAlign - 1) % 2 ^ 32) minBlockAlign

/-- `core::alloc::Layout`: the alignment is a power of two, and the size rounded up to it is at most `isize::MAX`. -/
structure Layout where
  size : Nat
  align : Nat
  power : ∃ k, align = 2 ^ k
  small : size + (align - 1) ≤ 2 ^ 31 - 1

def Layout.blockSize (layout : Layout) : Nat := roundUpMinBlock (max layout.size freeBlockSize)

/-- `alloc`; 0 is the null pointer. -/
def alloc (fuel : Nat) (h : LinkedListHeap) (layout : Layout) : Option (Nat × LinkedListHeap) :=
  (h.findRegion fuel layout.blockSize (max layout.align minBlockAlign)).map fun r => (r.1.getD 0, r.2)

def dealloc (h : LinkedListHeap) (ptr : Nat) (layout : Layout) : LinkedListHeap := h.addFreeRegion ptr layout.blockSize

/-- What `init` is given: memory that is there, aligned as its assertion demands. -/
structure Region where
  start : Nat
  size : Nat
  aligned : start % minBlockAlign = 0
  nonNull : start ≠ 0
  fits : start + size < 2 ^ 32

def init (mem : Memory) (region : Region) : LinkedListHeap :=
  ({ head := 0, mem } : LinkedListHeap).addFreeRegion region.start (maskDown region.size minBlockAlign)

/-! ## Rounding -/

private theorem maskDown_eq {n k : Nat} (small : n < 2 ^ 32) (bits : k ≤ 32) : maskDown n (2 ^ k) = n / 2 ^ k * 2 ^ k := by
  have le : 2 ^ k ≤ 2 ^ 32 := Nat.pow_le_pow_right (by decide) bits
  have pos : 0 < 2 ^ k := Nat.two_pow_pos k
  have mask (i : Nat) : (2 ^ 32 - 2 ^ k).testBit i = (decide (i < 32) && !decide (i < k)) := by
    have shifted := Nat.testBit_two_pow_sub_succ (x := 2 ^ k - 1) (n := 32) (by omega) i
    rw [Nat.testBit_two_pow_sub_one] at shifted
    rwa [show 2 ^ k - 1 + 1 = 2 ^ k by omega] at shifted
  refine Nat.eq_of_testBit_eq fun i => ?_
  rw [maskDown, Nat.testBit_and, mask, ← Nat.shiftLeft_eq, ← Nat.shiftRight_eq_div_pow, Nat.testBit_shiftLeft]
  by_cases low : i < k
  · simp [low]
  · by_cases high : i < 32
    · simp [low, high, Nat.not_lt.mp low, Nat.testBit_shiftRight, show k + (i - k) = i by omega]
    · have zero : n.testBit i = false :=
        Nat.testBit_lt_two_pow (Nat.lt_of_lt_of_le small (Nat.pow_le_pow_right (by decide) (Nat.not_lt.mp high)))
      simp [low, high, zero, Nat.testBit_shiftRight, show k + (i - k) = i by omega]

/-- Rounding up gives the lowest aligned address that is not below. -/
structure RoundsUp (addr align up : Nat) : Prop where
  aligned : align ∣ up
  above : addr ≤ up
  lowest : ∀ q, align ∣ q → addr ≤ q → up ≤ q

variable {addr align current fuel p prev q size : Nat} {region : Region} {blocks free xs ys : List Span} {b : Span}
    {h : LinkedListHeap} {r : Option Nat × LinkedListHeap}

private theorem roundsUp_div (pos : 0 < align) : RoundsUp addr align ((addr + align - 1) / align * align) := by
  refine ⟨Nat.dvd_mul_left _ _, ?_, ?_⟩
  · have split := Nat.div_add_mod (addr + align - 1) align
    have rest := Nat.mod_lt (addr + align - 1) pos
    rw [Nat.mul_comm] at split
    omega
  · rintro q ⟨c, rfl⟩ above
    have below : (addr + align - 1) / align < c + 1 := by
      rw [Nat.div_lt_iff_lt_mul pos, Nat.add_mul, Nat.mul_comm c align]
      omega
    rw [Nat.mul_comm]
    exact Nat.mul_le_mul_left _ (by omega)

private theorem roundsUp_alignUp (power : ∃ k, align = 2 ^ k) (room : addr + align ≤ 2 ^ 32) :
    RoundsUp addr align (alignUp addr align) := by
  obtain ⟨k, rfl⟩ := power
  have pos : 0 < 2 ^ k := Nat.two_pow_pos k
  have bits : k ≤ 32 := (Nat.pow_le_pow_iff_right (by decide : 1 < 2)).mp (by omega)
  rw [alignUp, Nat.mod_eq_of_lt (by omega), maskDown_eq (by omega) bits]
  exact roundsUp_div pos

private theorem roundsUp_roundUpMinBlock (small : size ≤ 2 ^ 31) :
    RoundsUp size 8 (roundUpMinBlock size) := by
  have sum : (size + minBlockAlign - 1) % 2 ^ 32 = size + 8 - 1 := Nat.mod_eq_of_lt (by simp only [minBlockAlign]; omega)
  rw [roundUpMinBlock, sum, show minBlockAlign = 2 ^ 3 from rfl, maskDown_eq (by omega) (by decide)]
  exact roundsUp_div (by decide)

theorem Layout.roundsUp_blockSize (layout : Layout) :
    RoundsUp (max layout.size 8) 8 layout.blockSize :=
  roundsUp_roundUpMinBlock (by have := layout.small; omega)

theorem Layout.power_max (layout : Layout) : ∃ k, max layout.align minBlockAlign = 2 ^ k := by
  obtain ⟨k, isAlign⟩ := layout.power
  rcases Nat.le_total layout.align minBlockAlign with below | above
  · exact ⟨3, Nat.max_eq_right below⟩
  · exact ⟨k, (Nat.max_eq_left above).trans isAlign⟩

theorem Layout.dvd_max (layout : Layout) :
    layout.align ∣ max layout.align minBlockAlign ∧ minBlockAlign ∣ max layout.align minBlockAlign := by
  obtain ⟨k, isAlign⟩ := layout.power
  have least : minBlockAlign = 2 ^ 3 := rfl
  rcases Nat.le_total k 3 with low | high
  · have le : layout.align ≤ minBlockAlign := by
      rw [isAlign, least]
      exact Nat.pow_le_pow_right (by decide) low
    rw [Nat.max_eq_right le, isAlign, least]
    exact ⟨Nat.pow_dvd_pow 2 low, dvd_rfl⟩
  · have le : minBlockAlign ≤ layout.align := by
      rw [isAlign, least]
      exact Nat.pow_le_pow_right (by decide) high
    rw [Nat.max_eq_left le, isAlign, least]
    exact ⟨dvd_rfl, Nat.pow_dvd_pow 2 high⟩

/-! ## The list in memory -/

/-- Following the links from `p` passes these blocks and leads to `q`. -/
def Links (mem : Memory) : Nat → List Span → Nat → Prop
  | p, [], q => p = q
  | p, b :: rest, q => p = b.start ∧ read32 mem p = b.size ∧ Links mem (read32 mem (p + 4)) rest q

private theorem links_append {mem : Memory} :
    Links mem p (xs ++ ys) q ↔ ∃ r, Links mem p xs r ∧ Links mem r ys q := by
  induction xs generalizing p with
  | nil => simp [Links]
  | cons b rest ih => simp [Links, ih]; tauto

theorem Links.congr {mem mem' : Memory} (links : Links mem p blocks q)
    (same : ∀ b ∈ blocks, ∀ i < 8, mem' (b.start + i) = mem (b.start + i)) : Links mem' p blocks q := by
  induction blocks generalizing p with
  | nil => exact links
  | cons b rest ih =>
    obtain ⟨rfl, isSize, later⟩ := links
    have header := same b (by simp)
    have size : read32 mem' b.start = read32 mem b.start := read32_congr fun i less => header i (by omega)
    have next : read32 mem' (b.start + 4) = read32 mem (b.start + 4) := read32_congr fun i less => by
      rw [Nat.add_assoc]
      exact header (4 + i) (by omega)
    refine ⟨rfl, size.trans isSize, ?_⟩
    rw [next]
    exact ih later fun c member => same c (by simp [member])

/-- Blocks with room for a header, apart from each other and inside the address space. -/
structure Blocks (blocks : List Span) : Prop where
  apart : blocks.Pairwise Span.Apart
  room : ∀ b ∈ blocks, 8 ≤ b.size
  nonNull : ∀ b ∈ blocks, b.start ≠ 0
  fits : ∀ b ∈ blocks, b.start + b.size < 2 ^ 32

theorem Blocks.tail (wf : Blocks (b :: blocks)) : Blocks blocks :=
  ⟨(List.pairwise_cons.mp wf.apart).2, fun c member => wf.room c (by simp [member]),
    fun c member => wf.nonNull c (by simp [member]), fun c member => wf.fits c (by simp [member])⟩

theorem Blocks.perm (wf : Blocks xs) (perm : xs.Perm ys) : Blocks ys :=
  ⟨wf.apart.perm perm fun away => away.symm, fun c member => wf.room c (perm.mem_iff.mpr member),
    fun c member => wf.nonNull c (perm.mem_iff.mpr member), fun c member => wf.fits c (perm.mem_iff.mpr member)⟩

theorem Links.lt {mem : Memory} (links : Links mem p blocks 0) (wf : Blocks blocks) :
    p < 2 ^ 32 := by
  cases blocks with
  | nil =>
    have zero : p = 0 := links
    omega
  | cons b rest =>
    have fits := wf.fits b (by simp)
    rw [links.1]
    omega

private theorem links_addFreeRegion (links : Links h.mem h.head blocks 0)
    (wf : Blocks (b :: blocks)) : Links (h.addFreeRegion b.start b.size).mem (h.addFreeRegion b.start b.size).head (b :: blocks) 0 := by
  have room := wf.room b (by simp)
  have fits := wf.fits b (by simp)
  have head : h.head < 2 ^ 32 := links.lt wf.tail
  rw [addFreeRegion, if_neg (Nat.not_lt.mpr room)]
  dsimp only
  refine ⟨rfl, ?_, ?_⟩
  · rw [read32_write32_other _ _ _ (.inl (by omega)), read32_write32_same _ _ (by omega)]
  · rw [read32_write32_same _ _ head]
    refine links.congr fun c member i less => ?_
    have apart := (List.pairwise_cons.mp wf.apart).1 c member
    have roomC := wf.room c (by simp [member])
    simp only [Span.Apart] at apart
    rw [write32_apply_other _ _ _ (by omega), write32_apply_other _ _ _ (by omega)]

/-- The address of the last block of the part of the list that has been passed. -/
def lastStart (front : List Span) : Nat := (front.getLast?.map Span.start).getD 0

private theorem links_unlink {front back : List Span}
    (links : Links h.mem h.head (front ++ b :: back) 0) (wf : Blocks (front ++ b :: back)) :
    Links (h.unlink (lastStart front) (read32 h.mem (b.start + 4))).mem
      (h.unlink (lastStart front) (read32 h.mem (b.start + 4))).head (front ++ back) 0 := by
  obtain ⟨r, before, rfl, isSize, behind⟩ := links_append.mp links
  rcases List.eq_nil_or_concat' front with rfl | ⟨most, last, rfl⟩
  · simpa [lastStart, unlink] using behind
  · obtain ⟨_, most', rfl, isSize', isNext⟩ := links_append.mp before
    have isNext : read32 h.mem (last.start + 4) = b.start := isNext
    have member : last ∈ most ++ [last] ++ b :: back := by simp
    have nonNull := wf.nonNull last member
    have room := wf.room last member
    have nextSmall : read32 h.mem (b.start + 4) < 2 ^ 32 := read32_lt _ _
    have isPrev : lastStart (most ++ [last]) = last.start := by simp [lastStart]
    have apart : ∀ c ∈ most ++ back, last.Apart c := by
      have pairs := wf.apart
      rw [List.append_assoc, List.pairwise_append] at pairs
      intro c inside
      rcases List.mem_append.mp inside with early | late
      · exact (pairs.2.2 c early last (by simp)).symm
      · exact (List.pairwise_cons.mp pairs.2.1).1 c (by simp [late])
    have header : ∀ c ∈ most ++ back, ∀ i < 8,
        write32 h.mem (last.start + 4) (read32 h.mem (b.start + 4)) (c.start + i) = h.mem (c.start + i) := by
      intro c inside i less
      have roomC := wf.room c (by rcases List.mem_append.mp inside with early | late <;> simp [*])
      have away := apart c inside
      simp only [Span.Apart] at away
      exact write32_apply_other _ _ _ (by omega)
    rw [isPrev, unlink, if_neg nonNull]
    dsimp only
    refine links_append.mpr ⟨read32 h.mem (b.start + 4), links_append.mpr ⟨last.start, ?_, rfl, ?_, ?_⟩, ?_⟩
    · exact most'.congr fun c inside => header c (by simp [inside])
    · rw [read32_write32_other _ _ _ (.inl (by omega)), isSize']
    · exact read32_write32_same _ _ nextSmall
    · exact behind.congr fun c inside => header c (by simp [inside])

/-! ## The search -/

def Fits (size align : Nat) (b : Span) : Prop := alignUp b.start align + size ≤ b.start + b.size

instance (size align : Nat) : DecidablePred (Fits size align) := fun _ => inferInstanceAs (Decidable (_ ≤ _))

/-- The heap after an allocation from block `b`, found behind the blocks `front`. -/
def carve (h : LinkedListHeap) (front : List Span) (b : Span) (size align : Nat) : LinkedListHeap :=
  (h.unlink (lastStart front) (read32 h.mem (b.start + 4))).giveBack b.start (alignUp b.start align - b.start)
    (alignUp b.start align + size) (b.start + b.size - (alignUp b.start align + size))

private theorem scan_eq (size : Nat) {rest : List Span} (front : List Span)
    (links : Links h.mem current rest 0) (wf : Blocks rest) (enough : rest.length < fuel)
    (rounds : ∀ b ∈ rest, b.start ≤ alignUp b.start align) :
    ((∀ b ∈ rest, ¬ Fits size align b) ∧ h.scan size align fuel (lastStart front) current = some (none, h)) ∨
      ∃ skipped b back, rest = skipped ++ b :: back ∧ Fits size align b ∧
        h.scan size align fuel (lastStart front) current =
          some (some (alignUp b.start align), carve h (front ++ skipped) b size align) := by
  induction rest generalizing front current fuel with
  | nil =>
    obtain ⟨fuel, rfl⟩ := Nat.exists_eq_succ_of_ne_zero (Nat.ne_of_gt enough)
    have zero : current = 0 := links
    exact .inl ⟨by simp, by simp [scan, zero]⟩
  | cons b rest ih =>
    obtain ⟨fuel, rfl⟩ := Nat.exists_eq_succ_of_ne_zero (Nat.ne_of_gt (Nat.lt_of_le_of_lt (Nat.zero_le _) enough))
    obtain ⟨rfl, isSize, later⟩ := links
    have fits := wf.fits b (by simp)
    have up := rounds b (by simp)
    have stop : (b.start + b.size) % 2 ^ 32 = b.start + b.size := Nat.mod_eq_of_lt fits
    rw [scan, if_neg (wf.nonNull b (by simp)), isSize, stop]
    dsimp only
    by_cases here : Fits size align b
    · have below : alignUp b.start align + size ≤ b.start + b.size := here
      have front' : (alignUp b.start align + 2 ^ 32 - b.start) % 2 ^ 32 = alignUp b.start align - b.start := by omega
      refine .inr ⟨[], b, rest, rfl, here, ?_⟩
      rw [if_pos ⟨by omega, below⟩, front', List.append_nil]
      rfl
    · have behind : lastStart (front ++ [b]) = b.start := by simp [lastStart]
      rw [if_neg fun both => here both.2]
      rcases behind ▸ ih (front ++ [b]) later wf.tail (by simpa using enough) (fun c member => rounds c (by simp [member])) with
        ⟨none, ended⟩ | ⟨skipped, c, back, rfl, fitsC, found⟩
      · exact .inl ⟨by simpa [here] using none, ended⟩
      · exact .inr ⟨b :: skipped, c, back, rfl, fitsC, by rw [found, List.append_assoc]; rfl⟩

private theorem scan_succ
    (ended : h.scan size align fuel prev current = some r) : h.scan size align (fuel + 1) prev current = some r := by
  induction fuel generalizing prev current with
  | zero => cases ended
  | succ fuel ih =>
    rw [scan] at ended ⊢
    dsimp only at ended ⊢
    split at ended
    · rw [if_pos ‹_›, ended]
    · rw [if_neg ‹_›]
      split at ended
      · rw [if_pos ‹_›, ended]
      · rw [if_neg ‹_›]
        exact ih ended

private theorem scan_more
    (ended : h.scan size align fuel prev current = some r) (more : Nat) :
    h.scan size align (fuel + more) prev current = some r := by
  induction more with
  | zero => exact ended
  | succ more ih => exact scan_succ ih

/-! ## Cutting a block -/

/-- What is left of block `b` when `size` bytes at `p` are taken from it, in the order of the list. -/
def remainders (b : Span) (p size : Nat) : List Span :=
  (if b.start + b.size - (p + size) > 0 then [⟨p + size, b.start + b.size - (p + size)⟩] else []) ++
    if p - b.start > 0 then [⟨b.start, p - b.start⟩] else []

private theorem load_remainders (low : b.start ≤ p) (high : p + size ≤ b.start + b.size) (a : Nat) :
    load (remainders b p size) a + load [⟨p, size⟩] a = load [b] a := by
  have single (s : Span) : load [s] a = if s.start ≤ a ∧ a < s.start + s.size then 1 else 0 := by
    rw [load_cons, load_nil, Nat.zero_add]
    rfl
  have piece (start n : Nat) : load (if n > 0 then [⟨start, n⟩] else []) a = if start ≤ a ∧ a < start + n then 1 else 0 := by
    split
    · exact single _
    · rw [load_nil, if_neg (by omega)]
  rw [remainders, load_append, piece, piece, single, single]
  dsimp only
  split_ifs <;> omega

private theorem grain_remainders (low : b.start ≤ p) (high : p + size ≤ b.start + b.size)
    (grainB : 8 ∣ b.start ∧ 8 ∣ b.size) (grain : 8 ∣ p ∧ 8 ∣ size) :
    ∀ c ∈ remainders b p size, 8 ∣ c.start ∧ 8 ∣ c.size ∧ 0 < c.size := by
  intro c member
  unfold remainders at member
  rcases List.mem_append.mp member with back | front
  · split at back
    · rw [List.mem_singleton.mp back]
      dsimp only
      omega
    · simp at back
  · split at front
    · rw [List.mem_singleton.mp front]
      dsimp only
      omega
    · simp at front

theorem Blocks.shrink {b c : Span} (wf : Blocks (b :: blocks)) (low : b.start ≤ c.start)
    (high : c.start + c.size ≤ b.start + b.size) (room : 8 ≤ c.size) : Blocks (c :: blocks) := by
  have nonNull := wf.nonNull b (by simp)
  have fits := wf.fits b (by simp)
  obtain ⟨apart, pairs⟩ := List.pairwise_cons.mp wf.apart
  refine ⟨List.pairwise_cons.mpr ⟨fun d member => ?_, pairs⟩, ?_, ?_, ?_⟩
  · have away := apart d member
    simp only [Span.Apart] at away ⊢
    omega
  · exact List.forall_mem_cons.mpr ⟨room, wf.tail.room⟩
  · exact List.forall_mem_cons.mpr ⟨by omega, wf.tail.nonNull⟩
  · exact List.forall_mem_cons.mpr ⟨by omega, wf.tail.fits⟩

theorem Blocks.both {c d : Span} (wf : Blocks (c :: blocks)) (wf' : Blocks (d :: blocks))
    (apart : c.Apart d) : Blocks (c :: d :: blocks) where
  apart := List.pairwise_cons.mpr ⟨List.forall_mem_cons.mpr ⟨apart, (List.pairwise_cons.mp wf.apart).1⟩, wf'.apart⟩
  room := List.forall_mem_cons.mpr ⟨wf.room c (by simp), wf'.room⟩
  nonNull := List.forall_mem_cons.mpr ⟨wf.nonNull c (by simp), wf'.nonNull⟩
  fits := List.forall_mem_cons.mpr ⟨wf.fits c (by simp), wf'.fits⟩

private theorem links_giveBack (links : Links h.mem h.head blocks 0)
    (wf : Blocks (b :: blocks)) (low : b.start ≤ p) (high : p + size ≤ b.start + b.size)
    (grainB : 8 ∣ b.start ∧ 8 ∣ b.size) (grain : 8 ∣ p ∧ 8 ∣ size) (some : 0 < size) :
    let h' := h.giveBack b.start (p - b.start) (p + size) (b.start + b.size - (p + size))
    Links h'.mem h'.head (remainders b p size ++ blocks) 0 := by
  have frontWf : p - b.start > 0 → Blocks (⟨b.start, p - b.start⟩ :: blocks) := fun excess =>
    wf.shrink (Nat.le_refl _) (by dsimp only; omega) (by dsimp only; omega)
  have front : let h' := if p - b.start > 0 then h.addFreeRegion b.start (p - b.start) else h
      Links h'.mem h'.head ((if p - b.start > 0 then [⟨b.start, p - b.start⟩] else []) ++ blocks) 0 := by
    by_cases excess : p - b.start > 0
    · simp only [if_pos excess]
      exact links_addFreeRegion (b := ⟨b.start, p - b.start⟩) links (frontWf excess)
    · simp only [if_neg excess]
      exact links
  dsimp only at front ⊢
  rw [giveBack, remainders, List.append_assoc]
  by_cases excess : b.start + b.size - (p + size) > 0
  · simp only [if_pos excess]
    refine links_addFreeRegion (b := ⟨p + size, b.start + b.size - (p + size)⟩) front ?_
    have backWf : Blocks (⟨p + size, b.start + b.size - (p + size)⟩ :: blocks) :=
      wf.shrink (by dsimp only; omega) (by dsimp only; omega) (by dsimp only; omega)
    split
    · rename_i excess'
      exact backWf.both (frontWf excess') (.inr (by dsimp only; omega))
    · exact backWf
  · simp only [if_neg excess]
    exact front

/-! ## Runs -/

/-- A pointer handed out and the layout it was asked for with. -/
structure Allocation where
  ptr : Nat
  layout : Layout

def Allocation.span (x : Allocation) : Span := ⟨x.ptr, x.layout.blockSize⟩

structure State where
  heap : LinkedListHeap
  live : List Allocation

def State.taken (s : State) : List Span := s.live.map Allocation.span

/-- Rounding up the address of a block of the region stays in the address space. -/
def Region.Roundable (region : Region) (layout : Layout) : Prop :=
  ∀ a, region.start ≤ a → a < region.start + region.size → 8 ∣ a → a + max layout.align minBlockAlign ≤ 2 ^ 32

/-- An allocation, a deallocation of something live with its own layout, or a store by the owner of something live. -/
inductive Step (region : Region) : State → State → Prop
  | alloc {s : State} {fuel : Nat} {layout : Layout} {ptr : Nat} {heap : LinkedListHeap} (rounds : region.Roundable layout)
      (ran : Heap.alloc fuel s.heap layout = some (ptr, heap)) :
      Step region s ⟨heap, if ptr = 0 then s.live else ⟨ptr, layout⟩ :: s.live⟩
  | dealloc {s : State} {before after : List Allocation} {x : Allocation} (isLive : s.live = before ++ x :: after) :
      Step region s ⟨Heap.dealloc s.heap x.ptr x.layout, before ++ after⟩
  | store {s : State} {x : Allocation} (isLive : x ∈ s.live) {a : Nat} (own : x.ptr ≤ a ∧ a < x.ptr + x.layout.size)
      (v : UInt8) : Step region s ⟨{ s.heap with mem := write8 s.heap.mem a v }, s.live⟩

inductive Reachable (region : Region) : State → Prop
  | start (mem : Memory) : Reachable region ⟨init mem region, []⟩
  | step {s s' : State} (reached : Reachable region s) (step : Step region s s') : Reachable region s'

def Region.stop (region : Region) : Nat := region.start + region.size / 8 * 8

/-- The list links these free blocks, and they tile the region together with what is handed out. -/
structure Sound (region : Region) (s : State) (free : List Span) : Prop where
  links : Links s.heap.mem s.heap.head free 0
  tiles : Tiles (free ++ s.taken) region.start region.stop
  grain : ∀ b ∈ free ++ s.taken, 8 ∣ b.start ∧ 8 ∣ b.size ∧ 0 < b.size
  aligned : ∀ x ∈ s.live, x.layout.align ∣ x.ptr

theorem Region.stop_lt (region : Region) : region.stop ≤ region.start + region.size ∧ region.stop < 2 ^ 32 := by
  have fits := region.fits
  simp only [stop]
  omega

theorem Layout.blockSize_spec (layout : Layout) : 8 ∣ layout.blockSize ∧ 8 ≤ layout.blockSize ∧ layout.size ≤ layout.blockSize := by
  have rounds := layout.roundsUp_blockSize
  have above := rounds.above
  exact ⟨rounds.aligned, by omega, by omega⟩

namespace Sound
variable {region : Region} {s : State} {free : List Span}

theorem inside (sound : Sound region s free) {b : Span} (member : b ∈ free ++ s.taken) :
    region.start ≤ b.start ∧ b.start + b.size ≤ region.stop :=
  sound.tiles.inside member (sound.grain b member).2.2

theorem wf (sound : Sound region s free) : Blocks (free ++ s.taken) := by
  have stop := region.stop_lt
  have nonNull := region.nonNull
  refine ⟨sound.tiles.apart fun b member => (sound.grain b member).2.2, ?_, ?_, ?_⟩
  · intro b member
    have grain := sound.grain b member
    omega
  · intro b member
    have inside := sound.inside member
    omega
  · intro b member
    have inside := sound.inside member
    omega

private theorem wf_free (sound : Sound region s free) : Blocks free := by
  have wf := sound.wf
  exact ⟨(List.pairwise_append.mp wf.apart).1, fun b member => wf.room b (by simp [member]),
    fun b member => wf.nonNull b (by simp [member]), fun b member => wf.fits b (by simp [member])⟩

variable {layout : Layout}

variable (sound : Sound region s free)
include sound

section
variable (roundable : region.Roundable layout)
include roundable

theorem rounds {b : Span}
    (member : b ∈ free) : RoundsUp b.start (max layout.align minBlockAlign) (alignUp b.start (max layout.align minBlockAlign)) := by
  have mem : b ∈ free ++ s.taken := by simp [member]
  have inside := sound.inside mem
  have grain := sound.grain b mem
  have stop := region.stop_lt
  exact roundsUp_alignUp layout.power_max (roundable b.start inside.1 (by omega) grain.1)

private theorem alloc_eq {fuel : Nat}
    (enough : free.length < fuel) :
    ((∀ b ∈ free, ¬ Fits layout.blockSize (max layout.align minBlockAlign) b) ∧
        alloc fuel s.heap layout = some (0, s.heap)) ∨
      ∃ front b back, free = front ++ b :: back ∧ Fits layout.blockSize (max layout.align minBlockAlign) b ∧
        alloc fuel s.heap layout = some (alignUp b.start (max layout.align minBlockAlign),
          carve s.heap front b layout.blockSize (max layout.align minBlockAlign)) := by
  unfold alloc findRegion
  rcases scan_eq layout.blockSize [] sound.links sound.wf_free enough
    fun b member => (sound.rounds roundable member).above with ⟨none, ended⟩ | ⟨front, b, back, split, fits, found⟩
  · have ended : s.heap.scan layout.blockSize (max layout.align minBlockAlign) fuel 0 s.heap.head = some (Option.none, s.heap) := ended
    exact .inl ⟨none, by rw [ended]; rfl⟩
  · exact .inr ⟨front, b, back, split, fits, by
      rw [List.nil_append] at found
      exact congrArg _ found⟩

private theorem carved {front back : List Span}
    {b : Span} (split : free = front ++ b :: back) (fits : Fits layout.blockSize (max layout.align minBlockAlign) b) :
    let p := alignUp b.start (max layout.align minBlockAlign)
    p ≠ 0 ∧ Sound region ⟨carve s.heap front b layout.blockSize (max layout.align minBlockAlign), ⟨p, layout⟩ :: s.live⟩
      (remainders b p layout.blockSize ++ (front ++ back)) := by
  subst split
  have member : b ∈ front ++ b :: back := by simp
  have up := sound.rounds roundable member
  obtain ⟨p, isP⟩ : ∃ p, alignUp b.start (max layout.align minBlockAlign) = p := ⟨_, rfl⟩
  have high : p + layout.blockSize ≤ b.start + b.size := isP ▸ fits
  obtain ⟨grainSize, least, _⟩ := layout.blockSize_spec
  rw [isP] at up
  have low := up.above
  have grainB := sound.grain b (by simp)
  have grainP : 8 ∣ p := layout.dvd_max.2.trans up.aligned
  have wf := sound.wf_free
  have nonNull := wf.nonNull b member
  dsimp only
  rw [isP]
  refine ⟨by omega, ?_, ?_, ?_, ?_⟩
  · simp only [carve, isP]
    exact links_giveBack (links_unlink sound.links wf) (wf.perm List.perm_middle) low high ⟨grainB.1, grainB.2.1⟩
      ⟨grainP, grainSize⟩ (by omega)
  · refine sound.tiles.of_load_eq fun a => ?_
    have whole := load_remainders low high a
    simp only [State.taken, List.map_cons, Allocation.span, load_append, load_cons, load_nil] at whole ⊢
    omega
  · intro c inside
    simp only [State.taken, List.map_cons, List.mem_append, List.mem_cons] at inside
    rcases inside with (left | old | old) | rfl | old
    · exact grain_remainders low high ⟨grainB.1, grainB.2.1⟩ ⟨grainP, grainSize⟩ c left
    · exact sound.grain c (by simp [old])
    · exact sound.grain c (by simp [old])
    · exact ⟨grainP, grainSize, by simp only [Allocation.span]; omega⟩
    · exact sound.grain c (List.mem_append_right _ old)
  · intro x isLive
    rcases List.mem_cons.mp isLive with rfl | old
    · exact layout.dvd_max.1.trans up.aligned
    · exact sound.aligned x old

theorem alloc {fuel ptr : Nat}
    {heap : LinkedListHeap} (ran : Heap.alloc fuel s.heap layout = some (ptr, heap)) :
    ∃ free', Sound region ⟨heap, if ptr = 0 then s.live else ⟨ptr, layout⟩ :: s.live⟩ free' := by
  -- More fuel does not change the result.
  have more : Heap.alloc (fuel + (free.length + 1)) s.heap layout = some (ptr, heap) := by
    obtain ⟨r, ended, same⟩ := Option.map_eq_some_iff.mp ran
    exact Option.map_eq_some_iff.mpr ⟨r, scan_more ended _, same⟩
  have enough : free.length < fuel + (free.length + 1) := by omega
  rcases sound.alloc_eq roundable enough with
    ⟨_, missed⟩ | ⟨front, b, back, split, fits, found⟩
  · rw [more] at missed
    cases missed
    exact ⟨free, by simpa using sound⟩
  · rw [more] at found
    cases found
    obtain ⟨nonNull, carved⟩ := sound.carved roundable split fits
    rw [if_neg nonNull]
    exact ⟨_, carved⟩

end

private theorem dealloc {before after : List Allocation} {x : Allocation}
    (isLive : s.live = before ++ x :: after) :
    Sound region ⟨Heap.dealloc s.heap x.ptr x.layout, before ++ after⟩ (x.span :: free) := by
  have taken : s.taken = before.map Allocation.span ++ x.span :: after.map Allocation.span := by simp [State.taken, isLive]
  have perm : (free ++ s.taken).Perm ((x.span :: free) ++ (before ++ after).map Allocation.span) := by
    rw [taken, List.map_append]
    exact (List.perm_middle.append_left free).trans List.perm_middle
  have wf := sound.wf.perm perm
  refine ⟨?_, ?_, ?_, ?_⟩
  · refine links_addFreeRegion (b := x.span) sound.links ?_
    exact ⟨(List.pairwise_append.mp wf.apart).1, fun c member => wf.room c (List.mem_append_left _ member),
      fun c member => wf.nonNull c (List.mem_append_left _ member), fun c member => wf.fits c (List.mem_append_left _ member)⟩
  · exact sound.tiles.of_load_eq fun a => load_perm perm.symm a
  · exact fun c member => sound.grain c (perm.mem_iff.mpr member)
  · intro y member
    refine sound.aligned y ?_
    rw [isLive]
    rcases List.mem_append.mp member with early | late <;> simp [*]

theorem store {x : Allocation} (isLive : x ∈ s.live) {a : Nat}
    (own : x.ptr ≤ a ∧ a < x.ptr + x.layout.size) (v : UInt8) :
    Sound region ⟨{ s.heap with mem := write8 s.heap.mem a v }, s.live⟩ free := by
  refine ⟨sound.links.congr fun b member i less => ?_, sound.tiles, sound.grain, sound.aligned⟩
  have apart := (List.pairwise_append.mp sound.wf.apart).2.2 b member x.span (List.mem_map_of_mem isLive)
  have room := sound.wf_free.room b member
  have whole := x.layout.blockSize_spec.2.2
  simp only [Span.Apart, Allocation.span] at apart
  exact write8_apply_other _ _ (by omega)

end Sound

private theorem sound_init (mem : Memory) (region : Region) : ∃ free, Sound region ⟨init mem region, []⟩ free := by
  have fits := region.fits
  have aligned := region.aligned
  have size : maskDown region.size minBlockAlign = region.size / 8 * 8 := maskDown_eq (k := 3) (by omega) (by decide)
  unfold init
  rw [size]
  by_cases small : region.size / 8 * 8 < 8
  · refine ⟨[], ?_, ?_, by simp [State.taken], by simp⟩
    · rw [addFreeRegion, if_pos small]
      rfl
    · intro a
      rw [if_neg (by simp only [Region.stop]; omega)]
      rfl
  · refine ⟨[⟨region.start, region.size / 8 * 8⟩], ?_, ?_, ?_, by simp⟩
    · have empty : Links mem 0 [] 0 := rfl
      refine links_addFreeRegion (h := ⟨0, mem⟩) (b := ⟨region.start, region.size / 8 * 8⟩) empty ⟨by simp, ?_, ?_, ?_⟩
      · exact List.forall_mem_singleton.mpr (Nat.le_of_not_lt small)
      · simpa using region.nonNull
      · simp only [List.mem_singleton, forall_eq]
        omega
    · intro a
      simp only [State.taken, List.map_nil, List.append_nil, load_cons, load_nil, Nat.zero_add]
      rfl
    · simp only [State.taken, List.map_nil, List.append_nil, List.mem_singleton, forall_eq]
      simp only [minBlockAlign] at aligned
      omega

theorem Step.sound {s s' : State} (step : Step region s s')
    (sound : Sound region s free) : ∃ free', Sound region s' free' := by
  cases step with
  | alloc rounds ran => exact sound.alloc rounds ran
  | dealloc isLive => exact ⟨_, sound.dealloc isLive⟩
  | store isLive own v => exact ⟨_, sound.store isLive own v⟩

theorem Reachable.sound {s : State} (reached : Reachable region s) : ∃ free, Sound region s free := by
  induction reached with
  | start mem => exact sound_init mem region
  | step _ step ih =>
    obtain ⟨free, sound⟩ := ih
    exact step.sound sound

/-- The block has room for `size` bytes at a multiple of `align`. -/
def CanHold (b : Span) (size align : Nat) : Prop := ∃ p, align ∣ p ∧ b.start ≤ p ∧ p + size ≤ b.start + b.size

theorem Sound.fits_iff {s : State} (sound : Sound region s free) {layout : Layout}
    (roundable : region.Roundable layout) (member : b ∈ free) :
    Fits layout.blockSize (max layout.align minBlockAlign) b ↔ CanHold b layout.blockSize (max layout.align minBlockAlign) := by
  have up := sound.rounds roundable member
  constructor
  · exact fun fits => ⟨_, up.aligned, up.above, fits⟩
  · rintro ⟨p, aligned, low, high⟩
    have least := up.lowest p aligned low
    simp only [Fits]
    omega

/-- In every state after `init`, the blocks on the free list and the blocks handed out share no byte and make up the region,
    blocks handed out are aligned, and an allocation fails only when no free block has room for it. -/
theorem heap_conserved {region : Region} {s : State} (reached : Reachable region s) :
    ∃ free, Links s.heap.mem s.heap.head free 0 ∧ (free ++ s.taken).Pairwise Span.Apart ∧
      (∀ a, (∃ b ∈ free ++ s.taken, b.Covers a) ↔ region.start ≤ a ∧ a < region.start + region.size / 8 * 8) ∧
      (∀ b ∈ free, 8 ∣ b.start ∧ 8 ∣ b.size) ∧
      (∀ x ∈ s.live, x.layout.align ∣ x.ptr ∧ region.start ≤ x.ptr ∧
        x.ptr + x.layout.blockSize ≤ region.start + region.size / 8 * 8) ∧
      ∀ layout, region.Roundable layout → ∀ fuel, free.length < fuel →
        ∃ ptr heap, alloc fuel s.heap layout = some (ptr, heap) ∧ layout.align ∣ ptr ∧
          (ptr = 0 ↔ ∀ b ∈ free, ¬ CanHold b layout.blockSize (max layout.align minBlockAlign)) := by
  obtain ⟨free, sound⟩ := reached.sound
  refine ⟨free, sound.links, sound.wf.apart, sound.tiles.covered_iff, fun b member => ?_, fun x isLive => ?_, ?_⟩
  · have grain := sound.grain b (by simp [member])
    exact ⟨grain.1, grain.2.1⟩
  · exact ⟨sound.aligned x isLive, sound.inside (List.mem_append_right _ (List.mem_map_of_mem isLive))⟩
  · intro layout roundable fuel enough
    rcases sound.alloc_eq roundable enough with ⟨none, missed⟩ | ⟨front, b, back, split, fits, found⟩
    · refine ⟨0, s.heap, missed, Nat.dvd_zero _, fun _ b member holds => ?_, fun _ => rfl⟩
      exact none b member ((sound.fits_iff roundable member).mpr holds)
    · have member : b ∈ free := by simp [split]
      have carved := sound.carved roundable split fits
      refine ⟨_, _, found, layout.dvd_max.1.trans (sound.rounds roundable member).aligned, fun null => absurd null carved.1,
        fun none => ?_⟩
      exact absurd ((sound.fits_iff roundable member).mp fits) (none b member)

def smallRegion : Region := ⟨0x1000, 0x1000, by decide, by decide, by decide⟩

def smallLayout : Layout := ⟨10, 64, ⟨6, rfl⟩, by decide⟩

private theorem smallLayout_roundable : smallRegion.Roundable smallLayout := by
  intro a _ below _
  have top : a < 0x1000 + 0x1000 := below
  have align : max smallLayout.align minBlockAlign = 64 := rfl
  omega

def smallState : State :=
  ⟨carve (init (fun _ => 0) smallRegion) [] ⟨0x1000, 0x1000⟩ 16 64, [⟨0x1000, smallLayout⟩]⟩

private theorem smallState_reachable : Reachable smallRegion smallState := by
  have ran : alloc 2 (init (fun _ => 0) smallRegion) smallLayout = some (0x1000, smallState.heap) := by rfl
  have step := Step.alloc (s := ⟨init (fun _ => 0) smallRegion, []⟩) smallLayout_roundable ran
  exact .step (.start _) step

/-- The region with its allocation: what is free lies behind it and in no other place. -/
theorem smallState_conserved :
    ∃ free, Links smallState.heap.mem smallState.heap.head free 0 ∧
      ∀ a, (∃ b ∈ free ++ [⟨0x1000, 16⟩], b.Covers a) ↔ 0x1000 ≤ a ∧ a < 0x2000 := by
  obtain ⟨free, links, _, covered, _⟩ := heap_conserved smallState_reachable
  exact ⟨free, links, covered⟩

end Pcern.Heap

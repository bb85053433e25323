import Pcern.Confinement

/-!
How far the loader comes with the frames there are. Loading a program takes a
directory, a page table for each 4 MiB of its code, and its pages of code and
stack; where the frames end decides whether the loader gives up or the kernel
stops (`EndsAtTable`).
-/
namespace Pcern
open Bytes Capabilities Pcern.Frame Loader Loops PageTables Paging

/-- The pages of code of a program of `len` bytes. -/
def codePages (len : Nat) : Nat := max ((len + 4095) / 4096) 1

/-- The frames that loading takes: the directory, the tables, the code and the stack. -/
def framesNeeded (len : Nat) : Nat := 1 + (codePages len + 1023) / 1024 + codePages len + userStackPages

/-- Code page `i` can be read where the loader looks for it, through the window of the active directory. -/
def Readable (m : Memory) (cr3 len : Nat) (pagePhys : Nat → Nat) (i : Nat) : Prop :=
  0 < min (len - i * 4096) 4096 →
    (load8 m cr3 ((physMapBase + pagePhys i) % 2 ^ 32)).isSome = true ∧
      (load8 m cr3 ((physMapBase + pagePhys i + min (len - i * 4096) 4096 - 1) % 2 ^ 32)).isSome = true

/-- The frames that the first code pages take: one each, and one for the table of each region. -/
def codeFrames (pages : Nat) : Nat := pages + (pages + 1023) / 1024

/-- The frames end at the directory of a program, or at the table for a page that can be reached. -/
def EndsAtTable (frames pages : Nat) (readable : Nat → Prop) : Prop :=
  frames = 0 ∨ ∃ r, 1024 * r < pages ∧ frames = 2 + 1025 * r ∧ ∀ i < 1024 * r, readable i

section Pages
variable {mm : Mm} {dirs : Set Nat} {dir virt phys : Nat}

theorem mapPage_stops {u w : Bool} (virtAligned : virt % 4096 = 0) (physAligned : phys % 4096 = 0)
    (absent : present (word mm.mem dir (virt / 0x400000)) = false) (none : freeCount mm.frames = 0) :
    mapPage mm dir virt phys u w = .error .outOfMemory := by
  dsimp only [mapPage]
  rw [if_neg (by omega), absent, Bool.false_and, if_neg Bool.false_ne_true]
  exact bind_eq_error.mpr (.inl (pageTable_eq_error.mpr ⟨rfl, absent, none⟩))

private theorem fillPage_yields (mm : Mm) (cr3 len : Nat) (pagePhys : Nat → Nat) (i phys : Nat) :
    Yields (fillPage mm cr3 len pagePhys i phys) (fun _ => Readable mm.mem cr3 len pagePhys i)
      fun reason => reason = .kernelFault ∧ ¬Readable mm.mem cr3 len pagePhys i := by
  unfold Readable
  dsimp only [fillPage]
  by_cases some : 0 < min (len - i * 4096) 4096
  · rw [if_pos some]
    simp only [some, true_implies]
    dsimp only [copyPage]
    split
    · rename_i both
      rw [Bool.and_eq_true] at both
      exact both
    · rename_i notBoth
      rw [Bool.and_eq_true] at notBoth
      exact ⟨rfl, notBoth⟩
  · rw [if_neg some]
    exact fun more => absurd more some

theorem readable_of_window (layout : Layout mm dirs) (window : Windowed mm) {cr3 len i : Nat} {pagePhys : Nat → Nat}
    (shares : cr3 ∈ dirs ∨ cr3 = mm.image.bootDir)
    (inside : ∀ j < 4096, i * 4096 + j < len → (pagePhys i + j) / 4096 < mm.frames.frameCount) :
    Readable mm.mem cr3 len pagePhys i := by
  intro code
  have loads : ∀ j < min (len - i * 4096) 4096, (load8 mm.mem cr3 ((physMapBase + (pagePhys i + j)) % 2 ^ 32)).isSome = true := by
    intro j less
    rw [window.load layout shares (inside j (by omega) (by omega))]
    rfl
  have first := loads 0 code
  have last := loads (min (len - i * 4096) 4096 - 1) (by omega)
  rw [Nat.add_zero] at first
  rw [← Nat.add_assoc, ← Nat.add_sub_assoc (show 1 ≤ min (len - i * 4096) 4096 from code)] at last
  exact ⟨first, last⟩

end Pages

/-! ## The address space of a program -/

private theorem codeFrames_ne (n r : Nat) : codeFrames n ≠ 1 + 1025 * r := by
  unfold codeFrames
  omega

private theorem codeFrames_past {n r : Nat} (past : 1024 * r < n) : 2 + 1025 * r ≤ codeFrames n := by
  unfold codeFrames
  omega

theorem framesNeeded_eq (len : Nat) : framesNeeded len = 1 + (codeFrames (codePages len) + userStackPages) := by
  unfold framesNeeded codeFrames
  omega

theorem not_endsAtTable {frames pages : Nat} {readable : Nat → Prop} (some : 0 < frames) (enough : codeFrames pages < frames) :
    ¬EndsAtTable frames pages readable := by
  rintro (none | ⟨r, inside, isEnd, _⟩)
  · omega
  · have := codeFrames_past inside
    omega

/-- How the loops of the loader end early, if there are so many frames besides the directory's. -/
def Loader.Early.At (frames pages : Nat) (readable : Nat → Prop) : Early → Prop
  | .giveUp _ => ¬EndsAtTable (1 + frames) pages readable ∧ frames < codeFrames pages + userStackPages
  | .stop reason => reason = .outOfMemory ∧ EndsAtTable (1 + frames) pages readable ∨
      reason = .kernelFault ∧ ¬EndsAtTable (1 + frames) pages readable ∧ ∃ i < pages, ¬readable i

section Building
variable {start mid : Mm} {dirs : Set Nat} {dir cr3 len : Nat} {pagePhys : Nat → Nat}

/-- A page of a new address space is placed, or the loader gives up for want of a frame, or the kernel stops for want of one
    for the table. -/
theorem userPage_yields (layout : Layout mid dirs) (member : dir ∈ dirs) {v : Nat} (low : v < 786432) :
    Yields (userPage mid dir (v * 4096))
      (fun r => (∀ i < 768, present (word r.2.mem dir i) = true ↔ present (word mid.mem dir i) = true ∨ i = v / 1024) ∧
        freeCount r.2.frames + 1 + (if present (word mid.mem dir (v / 1024)) then 0 else 1) = freeCount mid.frames)
      fun early => match early with
        | .giveUp _ => freeCount mid.frames = 0
        | .stop reason => reason = .outOfMemory ∧ freeCount mid.frames = 1 ∧ present (word mid.mem dir (v / 1024)) = false := by
  have private' : v * 4096 < kernelVma := by simp only [kernelVma]; omega
  have region : v * 4096 / 0x400000 = v / 1024 := by omega
  unfold userPage
  cases alloc : allocFrame mid.frames with
  | none => exact allocFrame_eq_none_iff.mp alloc
  | some handed =>
    obtain ⟨phys, frames⟩ := handed
    obtain ⟨taken, data⟩ := alloc_evolves layout alloc
    have fewer := freeCount_allocFrame alloc
    dsimp only
    by_cases enough : present (word mid.mem dir (v * 4096 / 0x400000)) = true ∨ 0 < freeCount frames
    · obtain ⟨mm', mapped⟩ := mapPage_total taken.layout member private' (Nat.mul_mod_left v 4096) data.aligned true true enough
      obtain ⟨table, count⟩ := mapPage_count taken.layout member private' mapped
      obtain ⟨e, words, _, _⟩ := mapPage_entry taken.layout member private' mapped
      rw [region] at table count words
      rw [mapped]
      refine ⟨fun i less => ?_, ?_⟩
      · dsimp only
        by_cases same : i = v / 1024
        · rw [same]
          exact ⟨fun _ => .inr rfl, fun _ => table⟩
        · rw [words dir member i (by omega), if_neg fun both => same both.2]
          simp only [same, or_false]
      · dsimp only at count ⊢
        omega
    · rw [not_or, Bool.not_eq_true, Nat.not_lt, Nat.le_zero] at enough
      have stops : mapPage { mid with frames } dir (v * 4096) phys true true = .error .outOfMemory :=
        mapPage_stops (Nat.mul_mod_left v 4096) data.aligned enough.1 enough.2
      rw [region] at enough
      rw [stops]
      exact ⟨rfl, by omega, enough.1⟩

/-- What can be read of a program does not change while its address space is built. -/
def KeepsReadable (start : Mm) (dirs : Set Nat) (dir cr3 len : Nat) (pagePhys : Nat → Nat) : Prop :=
  ∀ mid, Builds start mid dirs dir → ∀ i, Readable mid.mem cr3 len pagePhys i ↔ Readable start.mem cr3 len pagePhys i

/-- The first `n` pages of code are there. -/
structure Coded (start mid : Mm) (dirs : Set Nat) (dir cr3 len : Nat) (pagePhys : Nat → Nat) (n : Nat) : Prop where
  builds : Builds start mid dirs dir
  tables : ∀ i < 768, present (word mid.mem dir i) = true ↔ 1 ≤ i ∧ i < 1 + (n + 1023) / 1024
  frames : freeCount mid.frames + codeFrames n = freeCount start.frames
  readable : ∀ i < n, Readable start.mem cr3 len pagePhys i

theorem Coded.table {n : Nat} (coded : Coded start mid dirs dir cr3 len pagePhys n) (low : 1024 + n < 786432) :
    (present (word mid.mem dir ((1024 + n) / 1024)) = true ↔ n % 1024 ≠ 0) ∧
      codeFrames (n + 1) = codeFrames n + 1 + if present (word mid.mem dir ((1024 + n) / 1024)) then 0 else 1 := by
  have first : present (word mid.mem dir ((1024 + n) / 1024)) = true ↔ n % 1024 ≠ 0 := by
    rw [coded.tables _ (by omega)]
    omega
  refine ⟨first, ?_⟩
  unfold codeFrames
  by_cases here : present (word mid.mem dir ((1024 + n) / 1024)) = true
  · rw [if_pos here]
    have := first.mp here
    omega
  · rw [if_neg here]
    have := not_not.mp (mt first.mpr here)
    omega

private theorem codePage_yields {n pages : Nat} (coded : Coded start mid dirs dir cr3 len pagePhys n) (inside : n < pages)
    (layout : Layout start dirs) (member : dir ∈ dirs) (kept : KeepsReadable start dirs dir cr3 len pagePhys) :
    Yields (codePage cr3 dir len pagePhys n mid) (Coded start · dirs dir cr3 len pagePhys (n + 1))
      (Early.At (freeCount start.frames) pages (Readable start.mem cr3 len pagePhys)) := by
  have frames := coded.frames
  have most := Nat.le_trans (freeCount_le start.frames) layout.bounded
  have low : 1024 + n < 786432 := by
    have : n ≤ codeFrames n := Nat.le_add_right _ _
    omega
  have private' : (1024 + n) * 4096 < kernelVma := by simp only [kernelVma]; omega
  obtain ⟨first, next⟩ := coded.table low
  have built := userPage_builds coded.builds.evolves.layout member private'
  have counted := userPage_yields coded.builds.evolves.layout member low
  rw [codePage, show userCodeBase + n * 4096 = (1024 + n) * 4096 by simp only [userCodeBase]; omega]
  cases ran : userPage mid dir ((1024 + n) * 4096) with
  | error early =>
    have ended := counted.of_error ran
    cases early with
    | giveUp mm =>
      have none : freeCount mid.frames = 0 := ended
      refine ⟨?_, ?_⟩
      · rintro (absent | ⟨r, _, isEnd, _⟩)
        · omega
        · exact codeFrames_ne n r (by omega)
      · unfold codeFrames at frames ⊢
        omega
    | stop reason =>
      obtain ⟨rfl, one, absent⟩ := ended
      have start' : n % 1024 = 0 := by
        by_contra later
        rw [first.mpr later] at absent
        cases absent
      refine .inl ⟨rfl, .inr ⟨n / 1024, by omega, ?_, fun i less => coded.readable i (by omega)⟩⟩
      unfold codeFrames at frames
      omega
  | ok placed =>
    obtain ⟨phys, mm⟩ := placed
    obtain ⟨builds, data, _⟩ := built.of_ok ran
    obtain ⟨tables, count⟩ := counted.of_ok ran
    have all := coded.builds.trans builds
    have same := kept mm all n
    have enough : freeCount mm.frames + codeFrames (n + 1) = freeCount start.frames := by
      dsimp only at count
      omega
    refine Yields.step rfl ?_
    dsimp only
    have fills := fillPage_yields mm cr3 len pagePhys n phys
    cases filled : fillPage mm cr3 len pagePhys n phys with
    | error reason =>
      obtain ⟨rfl, unreadable⟩ := fills.of_error filled
      refine .inr ⟨rfl, ?_, n, inside, mt same.mpr unreadable⟩
      rintro (absent | ⟨r, _, isEnd, readable⟩)
      · omega
      · by_cases before : n < 1024 * r
        · exact unreadable (same.mpr (readable n before))
        · have := codeFrames_past (show 1024 * r < n + 1 by omega)
          omega
    | ok mm' =>
      have readable := same.mp (fills.of_ok filled)
      obtain ⟨isMm, outside⟩ := fillPage_eq_ok filled
      rw [isMm]
      refine ⟨all.trans (writeData_builds builds.evolves.layout data outside dir), fun i less => ?_, enough, fun i less => ?_⟩
      · show present (word mm'.mem dir i) = true ↔ _
        rw [builds.evolves.layout.writeData_word data outside member (by omega), tables i less, coded.tables i less]
        omega
      · rcases Nat.lt_succ_iff_lt_or_eq.mp less with before | rfl
        · exact coded.readable i before
        · exact readable

private theorem buildPages_yields (layout : Layout start dirs) (member : dir ∈ dirs) (blank : ∀ i < 768, word start.mem dir i = 0)
    (kept : KeepsReadable start dirs dir cr3 len pagePhys) :
    Yields (buildPages cr3 dir len pagePhys start)
      (fun _ => codeFrames (codePages len) + userStackPages ≤ freeCount start.frames)
      (Early.At (freeCount start.frames) (codePages len) (Readable start.mem cr3 len pagePhys)) := by
  refine Yields.bind (forRange_yields (fun n mid => Coded start mid dirs dir cr3 len pagePhys n)
    ⟨.refl layout dir, fun i less => ?_, rfl, fun i none => absurd none (Nat.not_lt_zero i)⟩
    fun n inside mid coded => codePage_yields coded inside layout member kept) fun mid coded => ?_
  · rw [blank i less]
    exact ⟨fun none => absurd none (by decide), fun within => by omega⟩
  · have coded : Coded start mid dirs dir cr3 len pagePhys (codePages len) := coded
    have some : 0 < codePages len := by unfold codePages; omega
    refine (forRange_yields (fun i mm => Builds start mm dirs dir ∧ present (word mm.mem dir 1) = true ∧
      freeCount mm.frames + codeFrames (codePages len) + i = freeCount start.frames)
      ⟨coded.builds, (coded.tables 1 (by decide)).mpr (by omega), coded.frames⟩ ?_).mono fun mm done => by omega
    rintro i (less : i < 4) mm ⟨builds, table, frames⟩
    have region : (2047 - i) / 1024 = 1 := by omega
    have low : 2047 - i < 786432 := by omega
    have built := userPage_builds builds.evolves.layout member
      (show (2047 - i) * 4096 < kernelVma by simp only [kernelVma]; omega)
    have counted := userPage_yields builds.evolves.layout member low
    rw [stackPage, show userStackTop - (i + 1) * 4096 = (2047 - i) * 4096 by simp only [userStackTop]; omega]
    cases ran : userPage mm dir ((2047 - i) * 4096) with
    | error early =>
      have ended := counted.of_error ran
      cases early with
      | giveUp mm' =>
        have none : freeCount mm.frames = 0 := ended
        refine ⟨not_endsAtTable (by omega) (by omega), ?_⟩
        simp only [userStackPages]
        omega
      | stop reason =>
        obtain ⟨_, _, absent⟩ := ended
        rw [region, table] at absent
        cases absent
    | ok placed =>
      obtain ⟨tables, count⟩ := counted.of_ok ran
      rw [region, if_pos table] at count
      refine ⟨builds.trans (built.of_ok ran).1, (tables 1 (by decide)).mpr (.inl table), ?_⟩
      omega

end Building

/-! ## The new task -/

section Spawning
variable {p : Platform} {k : Kernel} {dirs : Set Nat} {len : Nat} {pagePhys : Nat → Nat}

private theorem spawnWithCodePages_built {dir : Nat} {mid mm : Mm} (fresh : k.sched.lookup k.nextId = none)
    (made : newDirectory k.mm = .ok (dir, mid)) (built : buildPages k.cr3 dir len pagePhys mid = .ok mm) (ports : List UInt16) :
    Yields (spawnWithCodePages k len pagePhys ports) (fun r => r.1 = some k.nextId)
      fun reason => reason ≠ .outOfMemory ∧ mm.image.stackFits k.nextId = false := by
  refine Yields.step made ?_
  dsimp only
  rw [built]
  dsimp only
  by_cases room : mm.image.stackFits k.nextId = true
  · refine Yields.step (if_neg (by simp [room])) ?_
    dsimp only
    split
    · rfl
    · exact Yields.step (bind_eq_ok.mpr ⟨_, Scheduler.installCapFor_spawn fresh k.caps.length, rfl⟩) rfl
  · rw [Bool.not_eq_true] at room
    have full : addTask { k with mm } (.user (UInt32.ofNat userCodeBase) (UInt32.ofNat userStackTop)) dir ports = .error .heapExhausted :=
      if_pos (by simp [room])
    rw [full]
    exact ⟨by decide, room⟩

/-- A program is loaded if there are frames enough, and nothing is if not. -/
structure Loader.Returned (k : Kernel) (len : Nat) (pagePhys : Nat → Nat) (r : Option Nat × Kernel) : Prop where
  goesOn : ¬EndsAtTable (freeCount k.mm.frames) (codePages len) (Readable k.mm.mem k.cr3 len pagePhys)
  few : freeCount k.mm.frames < framesNeeded len → r.1 = none ∧ r.2 = { k with mm := r.2.mm }
  enough : framesNeeded len ≤ freeCount k.mm.frames → r.1 = some k.nextId

/-- Why loading stops the kernel: the frames end at the directory or a table, the new task has no stack, or a page of the
    program cannot be read. -/
structure Loader.Stopped (k : Kernel) (len : Nat) (pagePhys : Nat → Nat) (reason : Stop) : Prop where
  frames : reason = .outOfMemory ↔ EndsAtTable (freeCount k.mm.frames) (codePages len) (Readable k.mm.mem k.cr3 len pagePhys)
  why : reason = .outOfMemory ∨ framesNeeded len ≤ freeCount k.mm.frames ∧ k.mm.image.stackFits k.nextId = false ∨
    ∃ i < codePages len, ¬Readable k.mm.mem k.cr3 len pagePhys i

theorem spawnWithCodePages_yields (laid : Laid p k dirs) (fresh : k.sched.lookup k.nextId = none)
    (kept : ∀ dir mid mm, newDirectory k.mm = .ok (dir, mid) → Builds mid mm (insert dir dirs) dir →
      ∀ i, Readable mm.mem k.cr3 len pagePhys i ↔ Readable k.mm.mem k.cr3 len pagePhys i) (ports : List UInt16) :
    Yields (spawnWithCodePages k len pagePhys ports) (Returned k len pagePhys) (Stopped k len pagePhys) := by
  by_cases some : 0 < freeCount k.mm.frames
  · obtain ⟨dir, mid, made, count⟩ := newDirectory_total some
    have evolves := newDirectory_evolves laid.layout made
    have same := kept dir mid mid made (.refl evolves.layout dir)
    have needed := framesNeeded_eq len
    have builds := buildPages_yields evolves.layout (Set.mem_insert dir dirs)
      (fun i low => newDirectory_empty laid.layout made low) fun mm builds i => (kept dir mid mm made builds i).trans (same i).symm
    rw [show Readable mid.mem k.cr3 len pagePhys = Readable k.mm.mem k.cr3 len pagePhys from funext fun i => propext (same i)] at builds
    cases built : buildPages k.cr3 dir len pagePhys mid with
    | error early =>
      have ended := builds.of_error built
      cases early with
      | giveUp mm =>
        have result : spawnWithCodePages k len pagePhys ports = .ok (none, { k with mm }) :=
          bind_eq_ok.mpr ⟨_, made, by dsimp only; rw [built]⟩
        have few := ended.2
        rw [result]
        refine ⟨?_, fun _ => ⟨rfl, rfl⟩, fun enough => by omega⟩
        rw [← count, Nat.add_comm]
        exact ended.1
      | stop reason =>
        have result : spawnWithCodePages k len pagePhys ports = .error reason :=
          bind_eq_error.mpr (.inr ⟨_, made, by dsimp only; rw [built]⟩)
        unfold Early.At at ended
        rw [Nat.add_comm, count] at ended
        rw [result]
        rcases ended with ⟨rfl, atTable⟩ | ⟨rfl, notTable, unreadable⟩
        · exact ⟨iff_of_true rfl atTable, .inl rfl⟩
        · exact ⟨iff_of_false (by decide) notTable, .inr (.inr unreadable)⟩
    | ok mm =>
      have enough := builds.of_ok built
      have image : mm.image = k.mm.image :=
        ((buildPages_builds evolves.layout (Set.mem_insert dir dirs) _ _ _).of_ok built).evolves.grows.image.trans evolves.grows.image
      have goesOn : ¬EndsAtTable (freeCount k.mm.frames) (codePages len) (Readable k.mm.mem k.cr3 len pagePhys) :=
        not_endsAtTable some (by omega)
      refine (spawnWithCodePages_built fresh made built ports).imp (fun r new => ?_) fun reason other => ?_
      · exact ⟨goesOn, fun few => by omega, fun _ => new⟩
      · exact ⟨iff_of_false other.1 goesOn, .inr (.inl ⟨by omega, image ▸ other.2⟩)⟩
  · have none : freeCount k.mm.frames = 0 := by omega
    have stops : spawnWithCodePages k len pagePhys ports = .error .outOfMemory := by
      refine bind_eq_error.mpr (.inl ?_)
      rw [newDirectory, allocFrame_eq_none_iff.mpr none]
    rw [stops]
    exact ⟨iff_of_true rfl (.inl none), .inl rfl⟩

end Spawning

end Pcern

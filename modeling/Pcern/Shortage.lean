import Mathlib.Data.Finset.Card
import Mathlib.Data.Finset.Image
import Pcern.Isolation
import Pcern.Programs

/-!
What the system calls that take frames do when there are too few. The frames of
data pages are asked for with a look at the answer, and a call that gets none
returns its failure value. The frames of page directories and page tables are
not: `expect` stops the kernel.

`Demand` says what a call takes. It stops the kernel exactly if a directory or a
table is what the last frame is missing for (`Demand.Critical`).
-/
namespace Pcern
open Bytes Capabilities Pcern.Frame Loader Loops PageTables Paging Spans Syscall

/-- The 4 MiB regions that some pages from `virt` on lie in. -/
def regions (virt pages : Nat) : Finset Nat := (Finset.range pages).image fun i => (virt + i * 4096) / 0x400000

/-- The regions among them without a page table. -/
def missingTables (m : Memory) (dir virt pages : Nat) : Nat :=
  ((regions virt pages).filter fun r => present (word m dir r) = false).card

/-- What a call takes of physical memory: data pages and a place for them, a place for pages that are there, or the address
    space of a program. -/
inductive Demand where
  | data (virt pages : Nat)
  | tables (virt pages : Nat)
  | module (m : Multiboot.Module)
  | program (bases : List Nat) (len : Nat)

/-- The length of a module and the place of its pages, as the loader computes them. -/
def Multiboot.Module.len (m : Multiboot.Module) : Nat := (m.stop + 2 ^ 32 - m.start) % 2 ^ 32

def Multiboot.Module.page (m : Multiboot.Module) (i : Nat) : Nat := (m.start + i * 4096) % 2 ^ 32

/-- There are not enough frames for the data pages, the page directory or a page table; a module is one that can be read. -/
def Demand.Short (k : Kernel) : Demand → Prop
  | .data virt pages => Syscall.allocPages k.mm.frames pages = none ∨
      ∃ phys frames, Syscall.allocPages k.mm.frames pages = some (phys, frames) ∧
        freeCount frames < missingTables k.mm.mem k.cr3 virt pages
  | .tables virt pages => freeCount k.mm.frames < missingTables k.mm.mem k.cr3 virt pages
  | .module m => freeCount k.mm.frames < framesNeeded m.len ∧ ∀ i < codePages m.len, Readable k.mm.mem k.cr3 m.len m.page i
  | .program _ len => freeCount k.mm.frames < framesNeeded len

/-- The last frame is missing for a directory or a table. A program of a few pages has one table, behind its directory and its
    first page. -/
def Demand.Critical (k : Kernel) : Demand → Prop
  | .data virt pages => ∃ phys frames, Syscall.allocPages k.mm.frames pages = some (phys, frames) ∧
      freeCount frames < missingTables k.mm.mem k.cr3 virt pages
  | .tables virt pages => freeCount k.mm.frames < missingTables k.mm.mem k.cr3 virt pages
  | .module m => EndsAtTable (freeCount k.mm.frames) (codePages m.len) (Readable k.mm.mem k.cr3 m.len m.page)
  | .program _ _ => freeCount k.mm.frames = 0 ∨ freeCount k.mm.frames = 2

/-- The demands of the calls whose arguments are accepted. -/
inductive Wants (p : Platform) (k : Kernel) (self : Nat) (regs : SavedRegs) : Demand → Prop where
  | alloc (number : regs.eax = Syscall.sysMemAlloc) (aligned : regs.ebx.toNat % 4096 = 0)
      (low : regs.ebx.toNat + Syscall.pagesAsked regs.ecx * 4096 ≤ kernelVma) :
      Wants p k self regs (.data regs.ebx.toNat (Syscall.pagesAsked regs.ecx))
  | map {grant : Span} (number : regs.eax = Syscall.sysMapMemory) (held : HoldsGrant k self regs.ebx grant)
      (aligned : regs.ecx.toNat % 4096 = 0) (low : regs.ecx.toNat + grant.size ≤ kernelVma) :
      Wants p k self regs (.tables regs.ecx.toNat ((grant.size + 4095) / 4096))
  | create {m : Multiboot.Module} (number : regs.eax = Syscall.sysCreateTask)
      (found : Multiboot.module k.mm.mem k.cr3 p.info regs.ebx.toNat = .ok (some m)) : Wants p k self regs (.module m)
  | spawn {grants : List Span} (number : regs.eax = Syscall.sysSpawnFromMemory)
      (held : List.Forall₂ (HoldsGrant k self) ([regs.ebx, regs.ecx, regs.edx, regs.esi].takeWhile (· ≠ 0)) grants)
      (named : grants ≠ []) (nonempty : regs.edi ≠ 0) (fits : regs.edi.toNat ≤ grants.length * 4096) :
      Wants p k self regs (.program (grants.map Span.start) regs.edi.toNat)

/-- The failure value of a call, in the registers of its caller. -/
def Refused (number : UInt32) (r : SavedRegs) : Prop :=
  if number = Syscall.sysMapMemory then r.eax = Syscall.err
  else if number = Syscall.sysMemAlloc then r.eax = 0 ∧ r.ecx = 0
  else r.eax = 0

/-- The call does not run into an `expect`, and where there are too few frames its caller is told so. -/
structure Survives (p : Platform) (k : Kernel) (caller : Nat) (regs : SavedRegs) : Prop where
  goesOn : step k (.syscall regs) ≠ .error .outOfMemory
  tells : ∀ demand, Wants p k caller regs demand → demand.Short k →
    ∃ k' r, step k (.syscall regs) = .ok k' ∧ k'.sched.registers caller = some r ∧ Refused regs.eax r

/-! ## Tables -/

section Tables
variable {mm mm' : Mm} {dirs : Set Nat} {dir virt phys : Nat}

private theorem regions_succ (virt n : Nat) : regions virt (n + 1) = insert ((virt + n * 4096) / 0x400000) (regions virt n) := by
  rw [regions, Finset.range_add_one, Finset.image_insert]
  rfl

private theorem missingTables_mono (m : Memory) (dir virt : Nat) {n n' : Nat} (le : n ≤ n') :
    missingTables m dir virt n ≤ missingTables m dir virt n' := by
  refine Finset.card_le_card (Finset.filter_subset_filter _ (Finset.image_subset_image ?_))
  exact Finset.range_subset_range.mpr le

private theorem missingTables_succ (m : Memory) (dir virt n : Nat) :
    missingTables m dir virt (n + 1) = missingTables m dir virt n +
      if present (word m dir ((virt + n * 4096) / 0x400000)) = true ∨ (virt + n * 4096) / 0x400000 ∈ regions virt n
      then 0 else 1 := by
  rw [missingTables, missingTables, regions_succ]
  by_cases here : present (word m dir ((virt + n * 4096) / 0x400000)) = true
  · rw [if_pos (.inl here), Finset.filter_insert, if_neg (by rw [here]; decide)]
    rfl
  · by_cases before : (virt + n * 4096) / 0x400000 ∈ regions virt n
    · rw [if_pos (.inr before), Finset.insert_eq_of_mem before]
      rfl
    · rw [if_neg (not_or.mpr ⟨here, before⟩), Finset.filter_insert, if_pos (Bool.eq_false_iff.mpr here),
        Finset.card_insert_of_notMem fun listed => before (Finset.mem_filter.mp listed).1]

/-- The tables that are there after some pages have been mapped, and the frames they took. -/
structure Tabled (mm mid : Mm) (dirs : Set Nat) (dir virt n : Nat) : Prop where
  evolves : Evolves mm mid dirs dirs
  tables : ∀ r < 768, present (word mid.mem dir r) = true ↔ present (word mm.mem dir r) = true ∨ r ∈ regions virt n
  frames : freeCount mid.frames + missingTables mm.mem dir virt n = freeCount mm.frames

private theorem mapPages_yields (layout : Layout mm dirs) (member : dir ∈ dirs) {pages : Nat} {w : Bool} (aligned : virt % 4096 = 0)
    (low : virt + pages * 4096 ≤ kernelVma) (targets : ∀ i < pages, DataFrame mm dirs (phys + i * 4096)) :
    Yields (mapPages mm dir virt phys pages w) (fun mid => Tabled mm mid dirs dir virt pages)
      fun reason => reason = .outOfMemory ∧ freeCount mm.frames < missingTables mm.mem dir virt pages := by
  refine forRange_yields (fun n mid => Tabled mm mid dirs dir virt n) ⟨.refl layout, fun r _ => ?_, rfl⟩ ?_
  · simp [regions]
  · intro n inside mid tabled
    simp only [kernelVma] at low
    have private' : virt + n * 4096 < kernelVma := by simp only [kernelVma]; omega
    have region : (virt + n * 4096) / 0x400000 < 768 := by omega
    have data := tabled.evolves.grows.data _ (targets n inside)
    have here := tabled.tables _ region
    have count := missingTables_succ mm.mem dir virt n
    have frames := tabled.frames
    by_cases enough : present (word mid.mem dir ((virt + n * 4096) / 0x400000)) = true ∨ 0 < freeCount mid.frames
    · obtain ⟨mm', mapped⟩ :=
        mapPage_total tabled.evolves.layout member private' (by omega) data.aligned true w enough
      obtain ⟨table, taken⟩ := mapPage_count tabled.evolves.layout member private' mapped
      obtain ⟨e, words, _, _⟩ := mapPage_entry tabled.evolves.layout member private' mapped
      rw [mapped]
      refine ⟨tabled.evolves.trans (mapPage_evolves tabled.evolves.layout member private' data mapped), fun r less => ?_, ?_⟩
      · rw [regions_succ, Finset.mem_insert]
        by_cases same : r = (virt + n * 4096) / 0x400000
        · rw [same]
          exact ⟨fun _ => .inr (.inl rfl), fun _ => table⟩
        · rw [words dir member r (by omega), if_neg fun both => same both.2, tabled.tables r less]
          simp only [same, false_or]
      · simp only [← here] at count
        split at count <;> rename_i isHere
        · rw [if_pos isHere] at taken
          omega
        · rw [if_neg isHere] at taken
          omega
    · rw [not_or, Bool.not_eq_true, Nat.not_lt, Nat.le_zero] at enough
      rw [mapPage_stops (by omega) data.aligned enough.1 enough.2]
      have most := missingTables_mono mm.mem dir virt (show n + 1 ≤ pages from inside)
      simp only [← here, enough.1, Bool.false_eq_true, if_false] at count
      exact ⟨rfl, by omega⟩

end Tables

/-! ## What can be read through a directory -/

section Reading
variable {mm mm' : Mm} {dirs dirs' : Set Nat} {cr3 : Nat}

private theorem load8_isSome (layout : Layout mm dirs) (solid : Solid mm) (member : cr3 ∈ dirs) {va : Nat} (inside : va < 2 ^ 32) :
    (load8 mm.mem cr3 va).isSome =
      if va / 0x400000 < 768 then present (leaf mm.mem cr3 (va / 0x400000) (va / 4096 % 1024))
      else present (word mm.mem mm.image.bootDir (va / 0x400000)) := by
  rw [load8, Option.isSome_map]
  unfold PageTables.translate
  by_cases low : va / 0x400000 < 768
  · rw [if_pos low]
    cases here : present (word mm.mem cr3 (va / 0x400000)) with
    | false => simp [leaf, here, show present 0 = false by decide]
    | true =>
      have plain := layout.spaces.small cr3 member _ low here
      cases mapped : present (word mm.mem (address (word mm.mem cr3 (va / 0x400000))) (va / 4096 % 1024)) with
      | false => simp [leaf, here, plain, mapped]
      | true => simp [leaf, here, plain, mapped]
  · rw [if_neg low, layout.shared cr3 member _ (by omega) (by omega)]
    cases here : present (word mm.mem mm.image.bootDir (va / 0x400000)) with
    | false => simp [here]
    | true => simp [here, solid _ (by omega) here]

private theorem load8_kept (layout : Layout mm dirs) (layout' : Layout mm' dirs') (grows : Grows mm mm' dirs dirs') (solid : Solid mm)
    (member : cr3 ∈ dirs) (member' : cr3 ∈ dirs')
    (pages : ∀ i < 768, ∀ j < 1024, leaf mm'.mem cr3 i j = leaf mm.mem cr3 i j) {va : Nat} (inside : va < 2 ^ 32) :
    (load8 mm'.mem cr3 va).isSome = (load8 mm.mem cr3 va).isSome := by
  rw [load8_isSome layout solid member inside, load8_isSome layout' (solid.grow layout' grows) member' inside,
    grows.boot_word layout' (by omega)]
  split
  · rename_i low
    rw [pages _ low _ (by omega)]
  · rfl

private theorem readable_kept (layout : Layout mm dirs) (layout' : Layout mm' dirs') (grows : Grows mm mm' dirs dirs') (solid : Solid mm)
    (member : cr3 ∈ dirs) (member' : cr3 ∈ dirs')
    (pages : ∀ i < 768, ∀ j < 1024, leaf mm'.mem cr3 i j = leaf mm.mem cr3 i j) (len : Nat) (pagePhys : Nat → Nat) (i : Nat) :
    Readable mm'.mem cr3 len pagePhys i ↔ Readable mm.mem cr3 len pagePhys i := by
  unfold Readable
  rw [load8_kept layout layout' grows solid member member' pages (Nat.mod_lt _ (by decide)),
    load8_kept layout layout' grows solid member member' pages (Nat.mod_lt _ (by decide))]

theorem Builds.readable {dir : Nat} (builds : Builds mm mm' dirs dir) (solid : Solid mm) (layout : Layout mm dirs)
    (member : cr3 ∈ dirs) (other : cr3 ≠ dir) (len : Nat) (pagePhys : Nat → Nat) (i : Nat) :
    Readable mm'.mem cr3 len pagePhys i ↔ Readable mm.mem cr3 len pagePhys i := by
  refine readable_kept layout builds.evolves.layout builds.evolves.grows solid member member (fun i low j inside => ?_) len pagePhys i
  rcases builds.pages cr3 member i low j inside with same | ⟨here, _⟩
  · exact same
  · exact absurd here other

end Reading

/-! ## The calls -/

section Calls
variable {p : Platform} {k : Kernel} {dirs : Set Nat}

private theorem installCapFor_goesOn (s : Scheduler) (id node : Nat) :
    Yields (s.installCapFor id node) (fun _ => True) fun reason => reason ≠ .outOfMemory := by
  cases ran : s.installCapFor id node with
  | ok _ => trivial
  | error reason =>
    rintro rfl
    rcases bind_eq_error.mp ran with failed | ⟨i, _, failed⟩
    · unfold Scheduler.indexOf at failed
      split at failed <;> cases failed
    · split at failed <;> cases failed

/-- A call of a task is about to be served. -/
structure Calling (p : Platform) (k : Kernel) (dirs : Set Nat) (caller : Nat) (task : Task) : Prop where
  laid : Laid p k dirs
  solid : Solid k.mm
  booked : k.Booked
  current : k.sched.current = some caller
  found : k.sched.lookup caller = some task
  cr3 : k.cr3 = task.pageDirPhys
  member : task.pageDirPhys ∈ dirs

/-- A call stops for want of a frame exactly if its demand is critical, and tells its caller of a shortage otherwise. -/
structure Settles (p : Platform) (k : Kernel) (caller : Nat) (regs : SavedRegs) : Prop where
  stops : ∀ demand, Wants p k caller regs demand → demand.Critical k → step k (.syscall regs) = .error .outOfMemory
  goesOn : (∀ demand, Wants p k caller regs demand → ¬demand.Critical k) → step k (.syscall regs) ≠ .error .outOfMemory
  tells : ∀ demand, Wants p k caller regs demand → ¬demand.Critical k → demand.Short k →
    ∃ k' r, step k (.syscall regs) = .ok k' ∧ k'.sched.registers caller = some r ∧ Refused regs.eax r

theorem Settles.survives_iff {self : Nat} {regs : SavedRegs} (settles : Settles p k self regs) :
    Survives p k self regs ↔ ∀ demand, Wants p k self regs demand → ¬demand.Critical k := by
  constructor
  · exact fun survives demand wants critical => survives.goesOn (settles.stops demand wants critical)
  · exact fun none => ⟨settles.goesOn none, fun demand wants => settles.tells demand wants (none demand wants)⟩

section Served
variable {self : Nat} {task : Task} {regs : SavedRegs}

theorem Settles.of {demand : Demand} (only : ∀ d, Wants p k self regs d → d = demand) (wants : Wants p k self regs demand)
    (outcome : Yields (step k (.syscall regs))
      (fun k' => ¬demand.Critical k ∧ (demand.Short k → ∃ r, k'.sched.registers self = some r ∧ Refused regs.eax r))
      fun reason => (reason = .outOfMemory ↔ demand.Critical k) ∧ (demand.Short k → demand.Critical k)) : Settles p k self regs := by
  refine ⟨fun d wants' => ?_, fun none stopped => ?_, fun d wants' => ?_⟩
  · rw [only d wants']
    intro critical
    cases ran : step k (.syscall regs) with
    | ok k' => exact absurd critical (outcome.of_ok ran).1
    | error reason => rw [(outcome.of_error ran).1.mpr critical]
  · exact none demand wants ((outcome.of_error stopped).1.mp rfl)
  · rw [only d wants']
    intro goesOn few
    cases ran : step k (.syscall regs) with
    | ok k' =>
      obtain ⟨r, written, refused⟩ := (outcome.of_ok ran).2 few
      exact ⟨k', r, rfl, written, refused⟩
    | error reason => exact absurd ((outcome.of_error ran).2 few) goesOn

theorem Settles.rejected (none : ∀ d, ¬Wants p k self regs d) {k' : Kernel} (ran : step k (.syscall regs) = .ok k') :
    Settles p k self regs := by
  refine ⟨fun d wants => absurd wants (none d), fun _ stopped => ?_, fun d wants => absurd wants (none d)⟩
  cases ran.symm.trans stopped

section
variable (calling : Calling p k dirs self task)
include calling

theorem Calling.registers (regs : SavedRegs) :
    (arrive k self regs).sched.registers self = some regs := by
  rw [Scheduler.registers, lookup_arrive, calling.found]
  rfl

theorem Calling.answered (regs : SavedRegs) {k1 : Kernel}
    (same : k1.sched = (arrive k self regs).sched) (f : SavedRegs → SavedRegs) :
    (reply k1 self f).sched.registers self = some (f regs) := by
  have written := congrFun (Scheduler.registers_writeRegs k1.sched self f) self
  rw [same] at written
  show (k1.sched.writeRegs self f).registers self = _
  rw [same, written, Function.update_self, calling.registers regs]
  rfl

theorem Calling.directory (regs : SavedRegs) :
    (arrive k self regs).sched.currentPageDirPhys = .ok k.cr3 := by
  rw [calling.cr3]
  exact bind_eq_ok.mpr ⟨_, currentTask_arrive_eq calling.current calling.found, rfl⟩

omit calling in
private theorem mapPages_settles {d : Demand} {mm : Mm} {dir virt phys pages : Nat} {w : Bool} (layout : Layout mm dirs) (member : dir ∈ dirs)
    (aligned : virt % 4096 = 0) (low : virt + pages * 4096 ≤ kernelVma) (targets : ∀ i < pages, DataFrame mm dirs (phys + i * 4096))
    (critical : d.Critical k ↔ freeCount mm.frames < missingTables mm.mem dir virt pages)
    (short : d.Short k → d.Critical k) :
    Yields (mapPages mm dir virt phys pages w) (fun _ => ¬d.Critical k)
      fun reason => (reason = .outOfMemory ↔ d.Critical k) ∧ (d.Short k → d.Critical k) := by
  refine (mapPages_yields layout member aligned low targets).imp (fun mid mapped isCritical => ?_) fun reason few =>
    ⟨iff_of_true few.1 (critical.mpr few.2), short⟩
  have count := mapped.frames
  have few := critical.mp isCritical
  omega

private theorem memAlloc_settles (number : regs.eax = sysMemAlloc) :
    Settles p k self regs := by
  have only : ∀ demand, Wants p k self regs demand → demand = .data regs.ebx.toNat (pagesAsked regs.ecx) ∧
      regs.ebx.toNat % 4096 = 0 ∧ regs.ebx.toNat + pagesAsked regs.ecx * 4096 ≤ kernelVma := by
    intro demand wants
    cases wants with
    | alloc _ aligned low => exact ⟨rfl, aligned, low⟩
    | map other | create other | spawn other => exact absurd (number.symm.trans other) (by decide)
  have served := (step_takesFrames calling.current regs).1 number
  by_cases accepted : regs.ebx.toNat % 4096 = 0 ∧ regs.ebx.toNat + pagesAsked regs.ecx * 4096 ≤ kernelVma
  · obtain ⟨aligned, low⟩ := accepted
    refine .of (fun d wants => (only d wants).1) (.alloc number aligned low) ?_
    simp only [kernelVma] at low
    rw [served, memAlloc, if_neg (by omega), if_neg (by simp only [kernelVma]; omega)]
    rw [show (arrive k self regs).mm = k.mm from rfl]
    cases allocated : allocPages k.mm.frames (pagesAsked regs.ecx) with
    | none =>
      refine ⟨?_, fun _ => ⟨_, calling.answered regs rfl _, ?_⟩⟩
      · rintro ⟨phys, frames, some, _⟩
        cases allocated.symm.trans some
      · rw [Refused, if_neg (by rw [number]; decide), if_pos number]
        exact ⟨rfl, rfl⟩
    | some handed =>
      obtain ⟨phys, frames⟩ := handed
      obtain ⟨taken, data⟩ := allocPages_evolves calling.laid.layout allocated
      have critical : (Demand.data regs.ebx.toNat (pagesAsked regs.ecx)).Critical k ↔
          freeCount frames < missingTables k.mm.mem k.cr3 regs.ebx.toNat (pagesAsked regs.ecx) := by
        refine ⟨?_, fun few => ⟨phys, frames, allocated, few⟩⟩
        rintro ⟨phys', frames', allocated', few⟩
        cases allocated.symm.trans allocated'
        exact few
      have short : (Demand.data regs.ebx.toNat (pagesAsked regs.ecx)).Short k →
          (Demand.data regs.ebx.toNat (pagesAsked regs.ecx)).Critical k := by
        rintro (none | few)
        · cases allocated.symm.trans none
        · exact few
      dsimp only
      refine Yields.step (calling.directory regs) ((mapPages_settles taken.layout (calling.cr3 ▸ calling.member) aligned low data critical
        short).bind fun mm goesOn => ?_)
      rw [currentCspaceInstall_arrive calling.current]
      exact ((installCapFor_goesOn _ _ _).imp (fun _ done => done) fun reason other => ⟨iff_of_false other goesOn, short⟩).bind
        fun _ _ => ⟨goesOn, fun few => absurd (short few) goesOn⟩
  · have turned : step k (.syscall regs) = .ok (setEaxEcx (arrive k self regs) self 0 0) := by
      rw [served, memAlloc]
      dsimp only
      split
      · rfl
      · rename_i short
        rw [if_pos]
        simp only [kernelVma] at accepted ⊢
        omega
    exact .rejected (fun d wants => accepted (only d wants).2) turned

theorem Calling.holdsGrant_iff {slot : UInt32} {grant : Span} :
    HoldsGrant k self slot grant ↔
      ∃ w badge, (CSpace.get task.cspace slot).bind (resolve k.caps) = some (.memoryGrant grant.start grant.size w, badge) := by
  constructor
  · rintro ⟨node, w, badge, ⟨task', found, named⟩, live⟩
    cases calling.found.symm.trans found
    exact ⟨w, badge, by rw [named, Option.bind_some, live]⟩
  · rintro ⟨w, badge, resolved⟩
    obtain ⟨node, named, live⟩ := Option.bind_eq_some_iff.mp resolved
    exact ⟨node, w, badge, ⟨task, calling.found, named⟩, live⟩

private theorem sysMap_settles (number : regs.eax = sysMapMemory) :
    Settles p k self regs := by
  have only : ∀ demand, Wants p k self regs demand → ∃ grant, HoldsGrant k self regs.ebx grant ∧
      demand = .tables regs.ecx.toNat ((grant.size + 4095) / 4096) ∧ regs.ecx.toNat % 4096 = 0 ∧
      regs.ecx.toNat + grant.size ≤ kernelVma := by
    intro demand wants
    cases wants with
    | map _ held aligned low => exact ⟨_, held, rfl, aligned, low⟩
    | alloc other | create other | spawn other => exact absurd (number.symm.trans other) (by decide)
  have resolved : resolveCurrentCap (arrive k self regs) regs.ebx = _ :=
    resolveCurrentCap_arrive_eq calling.current calling.found regs.ebx
  have result := (step_takesFrames calling.current regs).2.1 number
  by_cases granted : ∃ grant : Span, ∃ w badge, (CSpace.get task.cspace regs.ebx).bind (resolve k.caps) =
      some (.memoryGrant grant.start grant.size w, badge)
  · obtain ⟨grant, w, badge, found⟩ := granted
    have held : HoldsGrant k self regs.ebx grant := calling.holdsGrant_iff.mpr ⟨w, badge, found⟩
    have this : ∀ grant', HoldsGrant k self regs.ebx grant' → grant'.size = grant.size := by
      intro grant' held'
      obtain ⟨w', badge', found'⟩ := calling.holdsGrant_iff.mp held'
      rw [found, Option.some.injEq, Prod.mk.injEq, CapKind.memoryGrant.injEq] at found'
      exact found'.1.2.1.symm
    have only' : ∀ d, Wants p k self regs d → d = .tables regs.ecx.toNat ((grant.size + 4095) / 4096) ∧
        regs.ecx.toNat % 4096 = 0 ∧ regs.ecx.toNat + grant.size ≤ kernelVma := by
      intro d wants
      obtain ⟨grant', held', same, accepted⟩ := only d wants
      rw [this grant' held'] at same accepted
      exact ⟨same, accepted⟩
    obtain ⟨node, named, live⟩ := Option.bind_eq_some_iff.mp found
    obtain ⟨entry, listed, _, kind, _⟩ := resolve_eq_some_iff.mp live
    obtain ⟨whole, data⟩ := calling.laid.grants _ entry listed _ _ _ kind
    have onFrame := (data 0 (by omega)).aligned
    have served : step k (.syscall regs) = (do
        let mapped ← mapMemory (arrive k self regs) grant.start regs.ecx.toNat grant.size w
        .ok (setEax { arrive k self regs with mm := mapped.2 } self mapped.1)) := by
      rw [result, sysMap, resolved]
      simp only [bind, Except.bind]
      rw [show (arrive k self regs).caps = k.caps from rfl, found]
    by_cases accepted : regs.ecx.toNat % 4096 = 0 ∧ regs.ecx.toNat + grant.size ≤ kernelVma
    · obtain ⟨aligned, low⟩ := accepted
      have maps := mapPages_settles (w := w) (d := .tables regs.ecx.toNat ((grant.size + 4095) / 4096)) calling.laid.layout
        (calling.cr3 ▸ calling.member) aligned (by simp only [kernelVma] at low ⊢; omega) (fun i inside => data i (by omega)) Iff.rfl id
      refine .of (fun d wants => (only' d wants).1) (.map number held aligned low) ?_
      rw [served, mapMemory, if_neg (by omega), if_neg (by simp only [kernelVma] at low ⊢; omega), calling.directory regs]
      exact Yields.bind (Yields.step rfl (maps.bind (R := fun _ => ¬Demand.Critical k _) fun mm goesOn => goesOn))
        fun r goesOn => ⟨goesOn, fun few => absurd few goesOn⟩
    · have turned : step k (.syscall regs) = .ok (setEax (arrive k self regs) self err) := by
        rw [served]
        refine bind_eq_ok.mpr ⟨(err, k.mm), ?_, rfl⟩
        unfold mapMemory
        split
        · rfl
        · rename_i plain
          rw [if_pos]
          · rfl
          · simp only [kernelVma] at accepted ⊢
            omega
      exact .rejected (fun d wants => accepted (only' d wants).2) turned
  · have turned : step k (.syscall regs) = .ok (setEax (arrive k self regs) self err) := by
      rw [result]
      refine bind_eq_ok.mpr ⟨_, resolved, ?_⟩
      split
      · rename_i base len w badge found
        exact absurd ⟨⟨base, len⟩, w, badge, found⟩ granted
      · rfl
    refine .rejected (fun d wants => ?_) turned
    obtain ⟨grant, held, _⟩ := only d wants
    exact granted ⟨grant, calling.holdsGrant_iff.mp held⟩

private theorem spawn_settles {demand : Demand} {len : Nat} {pagePhys : Nat → Nat}
    (only : ∀ d, Wants p k self regs d → d = demand) (wants : Wants p k self regs demand)
    (number : regs.eax = sysCreateTask ∨ regs.eax = sysSpawnFromMemory)
    (served : step k (.syscall regs) = (do
      let (spawned, k') ← spawnWithCodePages (arrive k self regs) len pagePhys []
      .ok (setEax k' self (UInt32.ofNat (spawned.getD 0)))))
    (critical : demand.Critical k ↔
      EndsAtTable (freeCount k.mm.frames) (codePages len) (Readable k.mm.mem k.cr3 len pagePhys))
    (short : demand.Short k →
      freeCount k.mm.frames < framesNeeded len ∧ ∀ i < codePages len, Readable k.mm.mem k.cr3 len pagePhys i) :
    Settles p k self regs := by
  have same := cr3_arrive calling.current calling.found regs
  have laid : Laid p (arrive k self regs) dirs := calling.laid.still rfl (sameTasks_arrive k self regs) calling.laid.grants rfl
  have reads : (arrive k self regs).cr3 ∈ dirs := by
    rw [same, calling.cr3]
    exact calling.member
  have fresh := (calling.booked.quiet (.writeRegs k.sched self fun _ => regs) (sameTasks_arrive k self regs) rfl rfl).fresh
  have outcome : Yields (spawnWithCodePages (arrive k self regs) len pagePhys []) _ _ :=
    spawnWithCodePages_yields laid fresh (fun dir mid mm made builds i => by
    have evolves := newDirectory_evolves laid.layout made
    obtain ⟨_, _, absent, _, pages, _⟩ := newDirectory_spec laid.layout made
    have kept := readable_kept laid.layout evolves.layout evolves.grows calling.solid reads (Set.mem_insert_of_mem dir reads)
      (pages _ reads) len pagePhys i
    exact (builds.readable (calling.solid.grow evolves.layout evolves.grows) evolves.layout (Set.mem_insert_of_mem dir reads)
      (fun here => absent (here ▸ reads)) len pagePhys i).trans kept) []
  have ends : EndsAtTable (freeCount k.mm.frames) (codePages len) (Readable k.mm.mem (arrive k self regs).cr3 len pagePhys) ↔
      demand.Critical k := by rw [same, critical]
  refine .of only wants ?_
  rw [served]
  refine (outcome.imp (fun _ returned => returned) fun reason stopped => ⟨stopped.frames.trans ends, fun few => ?_⟩).bind
    fun r returned => ⟨fun isCritical => returned.goesOn (ends.mpr isCritical), fun few => ?_⟩
  · obtain ⟨isNone, isSame⟩ := returned.few (short few).1
    refine ⟨_, calling.answered regs ((congrArg Kernel.sched isSame).trans rfl) _, ?_⟩
    rw [Refused, if_neg, if_neg, isNone]
    · rfl
    all_goals
      rcases number with isCreate | isSpawn
      · rw [isCreate]; decide
      · rw [isSpawn]; decide
  · obtain ⟨few, readable⟩ := short few
    rcases stopped.why with isOut | ⟨enough, _⟩ | ⟨i, less, unreadable⟩
    · exact ends.mp (stopped.frames.mp isOut)
    · exact absurd enough (Nat.not_le.mpr few)
    · exact absurd (readable i less) (same ▸ unreadable)

end

private theorem readWord_goesOn (m : Memory) (cr3 va : Nat) : Multiboot.readWord m cr3 va ≠ .error .outOfMemory := by
  intro stopped
  unfold Multiboot.readWord at stopped
  split at stopped <;> cases stopped

private theorem module_goesOn (m : Memory) (cr3 info index : Nat) : Multiboot.module m cr3 info index ≠ .error .outOfMemory := by
  intro stopped
  rcases bind_eq_error.mp stopped with failed | ⟨_, _, stopped⟩
  · exact readWord_goesOn _ _ _ failed
  split at stopped
  · cases stopped
  rcases bind_eq_error.mp stopped with failed | ⟨_, _, stopped⟩
  · exact readWord_goesOn _ _ _ failed
  split at stopped
  · cases stopped
  rcases bind_eq_error.mp stopped with failed | ⟨_, _, stopped⟩
  · exact readWord_goesOn _ _ _ failed
  rcases bind_eq_error.mp stopped with failed | ⟨_, _, stopped⟩
  · exact readWord_goesOn _ _ _ failed
  rcases bind_eq_error.mp stopped with failed | ⟨_, _, stopped⟩
  · exact readWord_goesOn _ _ _ failed
  cases stopped

variable (calling : Calling p k dirs self task)
include calling

private theorem step_createTask (number : regs.eax = sysCreateTask) :
    step k (.syscall regs) = (do
      match ← Multiboot.module k.mm.mem k.cr3 p.info regs.ebx.toNat with
      | none => .ok (setEax (arrive k self regs) self 0)
      | some m =>
        let (spawned, k') ← spawnWithCodePages (arrive k self regs) m.len m.page []
        .ok (setEax k' self (UInt32.ofNat (spawned.getD 0)))) := by
  rw [(step_takesFrames calling.current regs).2.2.1 number, createTask, spawnFromModule, show (arrive k self regs).loader.mbInfo = some p.info from calling.laid.info,
    cr3_arrive calling.current calling.found regs, show (arrive k self regs).mm = k.mm from rfl]
  simp only [bind, Except.bind]
  cases Multiboot.module k.mm.mem k.cr3 p.info regs.ebx.toNat with
  | error reason => rfl
  | ok found =>
    cases found with
    | none => rfl
    | some m =>
      have isPage : (fun i => (m.start + i * 4096) % 2 ^ 32) = m.page := rfl
      simp only [Multiboot.Module.len, isPage]

private theorem createTask_settles (number : regs.eax = sysCreateTask) :
    Settles p k self regs := by
  have only : ∀ demand, Wants p k self regs demand →
      ∃ m, Multiboot.module k.mm.mem k.cr3 p.info regs.ebx.toNat = .ok (some m) ∧ demand = .module m := by
    intro demand wants
    cases wants with
    | create _ found => exact ⟨_, found, rfl⟩
    | alloc other | map other | spawn other => exact absurd (number.symm.trans other) (by decide)
  have served := step_createTask calling number
  cases read : Multiboot.module k.mm.mem k.cr3 p.info regs.ebx.toNat with
  | error reason =>
    have stopped : step k (.syscall regs) = .error reason := by
      rw [served, read]
      rfl
    have none : ∀ d, ¬Wants p k self regs d := fun d wants => by
      obtain ⟨m, found, _⟩ := only d wants
      cases read.symm.trans found
    refine ⟨fun d wants => absurd wants (none d), fun _ isOut => ?_, fun d wants => absurd wants (none d)⟩
    cases stopped.symm.trans isOut
    exact module_goesOn _ _ _ _ read
  | ok found =>
    cases found with
    | none =>
      refine .rejected (fun d wants => ?_) (by rw [served, read]; rfl)
      obtain ⟨m, found, _⟩ := only d wants
      cases read.symm.trans found
    | some m =>
      have only' : ∀ d, Wants p k self regs d → d = .module m := fun d wants => by
        obtain ⟨m', found, rfl⟩ := only d wants
        cases read.symm.trans found
        rfl
      refine spawn_settles calling only' (.create number read) (.inl number) ?_ Iff.rfl id
      rw [served, read]
      rfl

private theorem resolveGrants_outcome (regs : SavedRegs) (slots : List UInt32) :
    (∃ grants, List.Forall₂ (HoldsGrant k self) (slots.takeWhile (· ≠ 0)) grants) ∨
      resolveGrants (arrive k self regs) slots = .ok none := by
  induction slots with
  | nil => exact .inl ⟨[], .nil⟩
  | cons slot rest ih =>
    by_cases zero : slot = 0
    · refine .inl ⟨[], ?_⟩
      rw [zero]
      exact .nil
    · have resolved : resolveCurrentCap (arrive k self regs) slot = _ :=
        resolveCurrentCap_arrive_eq calling.current calling.found slot
      have first : (slot :: rest).takeWhile (· ≠ 0) = slot :: rest.takeWhile (· ≠ 0) :=
        List.takeWhile_cons_of_pos (by simpa using zero)
      unfold resolveGrants
      rw [first, if_neg zero]
      by_cases granted : ∃ grant : Span, HoldsGrant k self slot grant
      · obtain ⟨grant, held⟩ := granted
        rcases ih with ⟨grants, later⟩ | turned
        · exact .inl ⟨grant :: grants, .cons held later⟩
        · obtain ⟨w, badge, found⟩ := calling.holdsGrant_iff.mp held
          refine .inr (bind_eq_ok.mpr ⟨_, resolved, ?_⟩)
          rw [found]
          exact bind_eq_ok.mpr ⟨none, turned, rfl⟩
      · refine .inr (bind_eq_ok.mpr ⟨_, resolved, ?_⟩)
        split
        · rename_i base len w badge found
          exact absurd ⟨⟨base, len⟩, calling.holdsGrant_iff.mpr ⟨w, badge, found⟩⟩ granted
        · rfl

theorem Calling.readable {slots : List UInt32} {grants : List Span}
    (held : List.Forall₂ (HoldsGrant k self) slots grants) {len : Nat} (fits : len ≤ grants.length * 4096) (i : Nat) :
    Readable k.mm.mem k.cr3 len (fun i => (grants.map Span.start).getD i 0) i := by
  refine readable_of_window calling.laid.layout calling.laid.window (.inl (calling.cr3 ▸ calling.member)) fun j less code => ?_
  obtain ⟨g, here⟩ : ∃ g, grants[i]? = some g := ⟨_, List.getElem?_eq_getElem (by omega)⟩
  obtain ⟨slot, node, w, badge, _, live⟩ := held_of_mem held (List.mem_of_getElem? here)
  have data := (calling.laid.page live).2
  have aligned := data.aligned
  rw [List.getD_eq_getElem?_getD, List.getElem?_map, here, Option.map_some, Option.getD_some,
    show (g.start + j) / 4096 = g.start / 4096 by omega]
  exact calling.laid.inside data

private theorem spawnFromMemory_settles (number : regs.eax = sysSpawnFromMemory) :
    Settles p k self regs := by
  have served := (step_takesFrames calling.current regs).2.2.2 number
  have only : ∀ demand, Wants p k self regs demand → ∃ grants : List Span,
      resolveGrants (arrive k self regs) [regs.ebx, regs.ecx, regs.edx, regs.esi] = .ok (some (grants.map Span.start)) ∧
      grants ≠ [] ∧ regs.edi ≠ 0 ∧ regs.edi.toNat ≤ grants.length * 4096 ∧
      demand = .program (grants.map Span.start) regs.edi.toNat := by
    intro demand wants
    cases wants with
    | spawn _ held named nonempty fits =>
      exact ⟨_, resolveGrants_held calling.current calling.found regs held, named, nonempty, fits, rfl⟩
    | alloc other | map other | create other => exact absurd (number.symm.trans other) (by decide)
  rcases resolveGrants_outcome calling regs [regs.ebx, regs.ecx, regs.edx, regs.esi] with ⟨grants, held⟩ | turned
  · have resolved := resolveGrants_held calling.current calling.found regs held
    have same : ∀ grants' : List Span, resolveGrants (arrive k self regs) [regs.ebx, regs.ecx, regs.edx, regs.esi] =
        .ok (some (grants'.map Span.start)) → grants'.map Span.start = grants.map Span.start := fun grants' resolved' => by
      rw [resolved, Except.ok.injEq, Option.some.injEq] at resolved'
      exact resolved'.symm
    have guard : ((grants.map Span.start).isEmpty || regs.edi.toNat == 0 ||
        decide ((grants.map Span.start).length * 4096 < regs.edi.toNat)) = true ↔
        ¬(grants ≠ [] ∧ regs.edi ≠ 0 ∧ regs.edi.toNat ≤ grants.length * 4096) := by
      have zero : regs.edi.toNat = 0 ↔ regs.edi = 0 := ⟨fun none => UInt32.toNat_inj.mp none, fun none => by rw [none]; rfl⟩
      simp only [Bool.or_eq_true, List.isEmpty_iff, List.map_eq_nil_iff, beq_iff_eq, decide_eq_true_eq, List.length_map]
      rw [zero, not_and_or, not_and_or, not_not, not_not, Nat.not_le, or_assoc]
    have few : grants.length ≤ 4 := by
      rw [← held.length_eq]
      exact (List.takeWhile_sublist _).length_le
    by_cases accepted : grants ≠ [] ∧ regs.edi ≠ 0 ∧ regs.edi.toNat ≤ grants.length * 4096
    · obtain ⟨named, nonempty, fits⟩ := accepted
      have pages : codePages regs.edi.toNat ≤ 4 ∧ 0 < codePages regs.edi.toNat := by
        unfold codePages
        omega
      have loading : step k (.syscall regs) = (do
          let (spawned, k') ← spawnWithCodePages (arrive k self regs) regs.edi.toNat
            (fun i => (grants.map Span.start).getD i 0) []
          .ok (setEax k' self (UInt32.ofNat (spawned.getD 0)))) := by
        rw [served, Syscall.spawnFromMemory, resolved]
        show (do
          let (spawned, k') ← Loader.spawnFromMemory (arrive k self regs) (grants.map Span.start) regs.edi.toNat
          .ok (setEax k' self (UInt32.ofNat (spawned.getD 0)))) = _
        rw [Loader.spawnFromMemory, if_neg fun turned => guard.mp turned ⟨named, nonempty, fits⟩]
      refine spawn_settles calling (fun d wants => ?_) (.spawn number held named nonempty fits) (.inr number) loading ?_
        fun short => ⟨short, fun i _ => calling.readable held fits i⟩
      · obtain ⟨grants', resolved', _, _, _, rfl⟩ := only d wants
        rw [same grants' resolved']
      · -- four pages of code at most, and so one table
        show freeCount k.mm.frames = 0 ∨ freeCount k.mm.frames = 2 ↔ _
        constructor
        · rintro (none | two)
          · exact .inl none
          · exact .inr ⟨0, by omega, by omega, fun i none => absurd none (Nat.not_lt_zero i)⟩
        · rintro (none | ⟨r, inside, isEnd, _⟩)
          · exact .inl none
          · exact .inr (by omega)
    · have turned : step k (.syscall regs) = .ok (setEax (arrive k self regs) self 0) := by
        rw [served]
        refine bind_eq_ok.mpr ⟨_, resolved, bind_eq_ok.mpr ⟨(none, arrive k self regs), ?_, rfl⟩⟩
        rw [Loader.spawnFromMemory, if_pos (guard.mpr accepted)]
      refine .rejected (fun d wants => ?_) turned
      obtain ⟨grants', resolved', named, nonempty, fits, _⟩ := only d wants
      have length := congrArg List.length (same grants' resolved')
      rw [List.length_map, List.length_map] at length
      refine accepted ⟨fun none => ?_, nonempty, length ▸ fits⟩
      rw [none] at length
      exact named (List.length_eq_zero_iff.mp length)
  · have returned : step k (.syscall regs) = .ok (setEax (arrive k self regs) self 0) := by
      rw [served]
      exact bind_eq_ok.mpr ⟨_, turned, rfl⟩
    refine .rejected (fun d wants => ?_) returned
    obtain ⟨grants, resolved, _⟩ := only d wants
    cases turned.symm.trans resolved

end Served

end Calls

def TakesFrames (regs : SavedRegs) : Prop :=
  regs.eax = Syscall.sysMemAlloc ∨ regs.eax = Syscall.sysMapMemory ∨ regs.eax = Syscall.sysCreateTask ∨
    regs.eax = Syscall.sysSpawnFromMemory

theorem Wiring.calling {h : List Record} {self : Nat} {regs : SavedRegs} (wiring : Wiring p h k)
    (may : enabled k (.syscall regs) = true) (current : k.sched.current = some self) :
    ∃ dirs task, Calling p k dirs self task := by
  obtain ⟨dirs, isolated⟩ := wiring.isolated
  obtain ⟨self', task, current', found, cr3, member⟩ := isolated.laid.runner may
  cases current.symm.trans current'
  exact ⟨dirs, task, isolated.laid, isolated.solid, wiring.booked, current, found, cr3, member⟩

/-- In every state that a machine reaches, a call that takes frames leaves the kernel running, and tells its caller where there
    are too few, exactly if the frames do not end at a page directory or a page table. -/
theorem frames_exhausted_iff {p : Platform} {h : List Record} {k : Kernel} {self : Nat} {regs : SavedRegs} (wiring : Wiring p h k)
    (may : enabled k (.syscall regs) = true) (current : k.sched.current = some self) (takes : TakesFrames regs) :
    Survives p k self regs ↔ ∀ demand, Wants p k self regs demand → ¬demand.Critical k := by
  obtain ⟨dirs, task, calling⟩ := wiring.calling may current
  rcases takes with number | number | number | number
  · exact (memAlloc_settles calling number).survives_iff
  · exact (sysMap_settles calling number).survives_iff
  · exact (createTask_settles calling number).survives_iff
  · exact (spawnFromMemory_settles calling number).survives_iff

/-- The first task of the small machine asks for all frames there are, and none is left for the table. -/
theorem takeEverything_stops : ∃ b self, kernelMain smallMachine = .ok b ∧ enabled b.kernel takeEverything = true ∧
    b.kernel.sched.current = some self ∧ step b.kernel takeEverything = .error .outOfMemory := by
  obtain ⟨b, boot, seen⟩ := smallMachine_boots
  simp only [Booting.observations, Bool.and_eq_true] at seen
  obtain ⟨⟨⟨exits, _⟩, _⟩, stops⟩ := seen
  -- the first event of another run shows that the task may make calls
  obtain ⟨b', driven, _⟩ := (Option.any_eq_true _ _).mp exits
  obtain ⟨b1, first, _⟩ := Option.bind_eq_some_iff.mp driven
  have may : (b.kernel.runningTask.any fun task => task.entry ≠ .idle) = true := (Booting.next_eq_some first).1
  obtain ⟨task, running, _⟩ := (Option.any_eq_true _ _).mp may
  obtain ⟨self, current, _⟩ := Kernel.runningTask_eq_some running
  refine ⟨b, self, boot, may, current, ?_⟩
  split at stops
  · rename_i stopped
    exact stopped
  · cases stops

/-- A task of the small machine stops the kernel. -/
theorem small_machine_exhausted : ∃ (run : Run smallMachine) (self : Nat) (regs : SavedRegs),
    enabled run.kernel (.syscall regs) = true ∧ run.kernel.sched.current = some self ∧ TakesFrames regs ∧
      ¬Survives smallMachine run.kernel self regs := by
  obtain ⟨b, self, boot, may, current, stops⟩ := takeEverything_stops
  exact ⟨⟨b.history, b.kernel, .booted boot⟩, self, _, may, current, .inl rfl, fun survives => survives.goesOn stops⟩

/-- Its demand is for the table of a region that has none. -/
theorem small_machine_critical : ∃ (run : Run smallMachine) (self : Nat) (regs : SavedRegs) (demand : Demand),
    enabled run.kernel (.syscall regs) = true ∧ run.kernel.sched.current = some self ∧ TakesFrames regs ∧
      Wants smallMachine run.kernel self regs demand ∧ demand.Critical run.kernel := by
  obtain ⟨b, self, boot, may, current, stops⟩ := takeEverything_stops
  obtain ⟨run, isRun⟩ : ∃ run : Run smallMachine, run.kernel = b.kernel := ⟨⟨b.history, b.kernel, .booted boot⟩, rfl⟩
  rw [← isRun] at may current stops
  by_contra none
  have survives := (frames_exhausted_iff run.wiring may current (.inl rfl)).mpr fun demand wants critical =>
    none ⟨run, self, _, demand, may, current, .inl rfl, wants, critical⟩
  exact survives.goesOn stops

end Pcern

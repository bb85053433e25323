import Pcern.Bringup
import Pcern.Tasks

/-!
Memory over whole runs. Every call of the boot and every step of the running
system leaves the layout of memory intact (`Evolves`), and `Laid` says what this
comes to for the kernel: the directories of tasks are among those laid out, the
window onto physical memory is where the boot put it, a memory grant is for
whole data frames, and the modules of the boot loader stay aside.
-/
namespace Pcern
open Bytes Capabilities Pcern.Frame Loops PageTables Paging

/-- The layout after an operation: directories and pages may have come, and frames set aside are so still. -/
structure Evolves (mm mm' : Mm) (dirs dirs' : Set Nat) : Prop where
  layout : Layout mm' dirs'
  grows : Grows mm mm' dirs dirs'
  stays : ∀ g, Detached mm dirs g → Detached mm' dirs' g

section Memory
variable {mm mm' mm'' : Mm} {dirs dirs' dirs'' : Set Nat}

theorem Evolves.refl (layout : Layout mm dirs) : Evolves mm mm dirs dirs := ⟨layout, .refl mm dirs, fun _ aside => aside⟩

theorem Evolves.trans (first : Evolves mm mm' dirs dirs') (second : Evolves mm' mm'' dirs' dirs'') :
    Evolves mm mm'' dirs dirs'' :=
  ⟨second.layout, first.grows.trans second.grows, fun g aside => second.stays g (first.stays g aside)⟩

/-- A new directory joins those laid out. -/
theorem newDirectory_evolves (layout : Layout mm dirs) {d : Nat} (made : newDirectory mm = .ok (d, mm')) :
    Evolves mm mm' dirs (insert d dirs) := by
  obtain ⟨kept, grows, _⟩ := newDirectory_spec layout made
  exact ⟨kept, grows, (newDirectory_avoids layout made).stays⟩

variable {g phys : Nat} {frames : Bitmap}

/-- An allocated frame is a data frame from then on. -/
theorem alloc_evolves (layout : Layout mm dirs)
    (alloc : allocFrame mm.frames = some (phys, frames)) :
    Evolves mm { mm with frames } dirs dirs ∧ DataFrame { mm with frames } dirs phys := by
  obtain ⟨kept, grows, data, _⟩ := layout.alloc alloc
  exact ⟨⟨kept, grows, (Avoids.alloc alloc).stays⟩, data⟩

/-- Mapping a data frame below the kernel keeps the layout. -/
theorem mapPage_evolves (layout : Layout mm dirs) {dir virt phys : Nat} {u w : Bool} (member : dir ∈ dirs)
    (low : virt < kernelVma) (target : DataFrame mm dirs phys) (ran : mapPage mm dir virt phys u w = .ok mm') :
    Evolves mm mm' dirs dirs := by
  obtain ⟨kept, grows, _⟩ := mapPage_spec layout member low target ran
  exact ⟨kept, grows, (mapPage_avoids layout member low ran).stays⟩

private theorem mapPages_evolves (layout : Layout mm dirs) {dir virt phys pages : Nat} {w : Bool} (member : dir ∈ dirs)
    (low : virt + pages * 4096 ≤ kernelVma) (targets : ∀ k < pages, DataFrame mm dirs (phys + k * 4096))
    (ran : mapPages mm dir virt phys pages w = .ok mm') : Evolves mm mm' dirs dirs := by
  refine forRange_invariant (fun _ mid => Evolves mm mid dirs dirs) ran (.refl layout) fun n inside mid mid' before step => ?_
  exact before.trans (mapPage_evolves before.layout member (by omega) (before.grows.data _ (targets n inside)) step)

/-- So does writing to a data frame. -/
theorem writeData_evolves (layout : Layout mm dirs) {f : Nat} (data : DataFrame mm dirs f) {mem : Memory}
    (same : ∀ a, a < f ∨ f + 4096 ≤ a → mem a = mm.mem a) : Evolves mm { mm with mem } dirs dirs := by
  obtain ⟨kept, grows, _⟩ := layout.writeData data same
  exact ⟨kept, grows, fun g aside => layout.writeData_stays data same aside⟩

theorem allocPages_evolves (layout : Layout mm dirs) {count phys : Nat}
    (alloc : Syscall.allocPages mm.frames count = some (phys, frames)) :
    Evolves mm { mm with frames } dirs dirs ∧ ∀ k < count, DataFrame { mm with frames } dirs (phys + k * 4096) := by
  unfold Syscall.allocPages at alloc
  split at alloc
  · rename_i one
    obtain ⟨evolves, data⟩ := alloc_evolves layout alloc
    refine ⟨evolves, fun k less => ?_⟩
    rw [show k = 0 by omega, Nat.zero_mul, Nat.add_zero]
    exact data
  · obtain ⟨kept, grows, data⟩ := layout.allocContiguous alloc
    refine ⟨⟨kept, grows, fun g aside => ⟨fun free => aside.1 (grows.free g free), aside.2⟩⟩, fun k less => (data k less).1⟩

/-! ## Loading a program -/

def HandedOut (mm mm' : Mm) (g : Nat) : Prop := ∃ new, mm'.frames.handedOut = mm.frames.handedOut ++ new ∧ g ∈ new

theorem HandedOut.before (grows : Grows mm mm' dirs dirs') (handed : HandedOut mm' mm'' g) : HandedOut mm mm'' g := by
  obtain ⟨early, first, _⟩ := grows.handed
  obtain ⟨late, second, member⟩ := handed
  exact ⟨early ++ late, by rw [second, first, List.append_assoc], List.mem_append_right early member⟩

theorem HandedOut.after (handed : HandedOut mm mm' g) (grows : Grows mm' mm'' dirs dirs') : HandedOut mm mm'' g := by
  obtain ⟨early, first, member⟩ := handed
  obtain ⟨late, second, _⟩ := grows.handed
  exact ⟨early ++ late, by rw [second, first, List.append_assoc], List.mem_append_left late member⟩

theorem HandedOut.alloc (alloc : allocFrame mm.frames = some (phys, frames)) :
    HandedOut mm { mm with frames } (phys / 4096) := by
  obtain ⟨f, rfl, _, _, _, _, handed⟩ := allocFrame_eq_some alloc
  exact ⟨[f], handed, by simp⟩

/-- An address space under construction: memory evolves, and a page that has come to the directory leads to a frame handed
    out since. -/
structure Builds (mm mm' : Mm) (dirs : Set Nat) (dir : Nat) : Prop where
  evolves : Evolves mm mm' dirs dirs
  pages : ∀ d ∈ dirs, ∀ i < 768, ∀ j < 1024, leaf mm'.mem d i j = leaf mm.mem d i j ∨
    d = dir ∧ HandedOut mm mm' (address (leaf mm'.mem d i j) / 4096)

theorem Builds.refl (layout : Layout mm dirs) (dir : Nat) : Builds mm mm dirs dir :=
  ⟨.refl layout, fun _ _ _ _ _ _ => .inl rfl⟩

theorem Builds.trans {dir : Nat} (first : Builds mm mm' dirs dir) (second : Builds mm' mm'' dirs dir) : Builds mm mm'' dirs dir := by
  refine ⟨first.evolves.trans second.evolves, fun d member i low j inside => ?_⟩
  rcases second.pages d member i low j inside with same | ⟨here, handed⟩
  · rw [same]
    exact (first.pages d member i low j inside).imp_right fun new => ⟨new.1, new.2.after second.evolves.grows⟩
  · exact .inr ⟨here, handed.before first.evolves.grows⟩

section Loading
open Loader
variable {dir : Nat}

/-- How a loop of the loader may end early. -/
def Loader.Early.Built (mm : Mm) (dirs : Set Nat) (dir : Nat) : Early → Prop
  | .stop _ => True
  | .giveUp mm' => Builds mm mm' dirs dir

/-- A page of a new program, and the ways to end without it. -/
theorem userPage_builds (layout : Layout mm dirs) (member : dir ∈ dirs) {virt : Nat} (low : virt < kernelVma) :
    Yields (userPage mm dir virt) (fun r => Builds mm r.2 dirs dir ∧ DataFrame r.2 dirs r.1 ∧
        freeCount r.2.frames + 1 ≤ freeCount mm.frames) (Early.Built mm dirs dir) := by
  unfold userPage
  cases alloc : allocFrame mm.frames with
  | none => exact .refl layout dir
  | some handed =>
    obtain ⟨phys, frames⟩ := handed
    obtain ⟨evolves, data⟩ := alloc_evolves layout alloc
    dsimp only
    cases mapped : mapPage { mm with frames } dir virt phys true true with
    | error reason => trivial
    | ok mm' =>
      have maps := mapPage_evolves evolves.layout member low data mapped
      obtain ⟨_, _, leaves⟩ := mapPage_spec evolves.layout member low data mapped
      refine ⟨⟨evolves.trans maps, fun d member' i below j inside => ?_⟩, maps.grows.data phys data, ?_⟩
      · rw [leaves d member' i below j inside]
        split
        · rename_i here
          rw [address_entry data.aligned]
          exact .inr ⟨here.1, (HandedOut.alloc alloc).after maps.grows⟩
        · exact .inl rfl
      · have taken := freeCount_allocFrame alloc
        have tables := (mapPage_count evolves.layout member low mapped).2
        dsimp only at tables ⊢
        omega

theorem fillPage_eq_ok {cr3 len i phys : Nat} {pagePhys : Nat → Nat} (filled : fillPage mm cr3 len pagePhys i phys = .ok mm') :
    mm' = { mm with mem := mm'.mem } ∧ ∀ a, a < phys ∨ phys + 4096 ≤ a → mm'.mem a = mm.mem a := by
  have written : ∃ mem : Memory, (∀ a, a < phys ∨ phys + 4096 ≤ a → mem a = mm.mem a) ∧ mm' = { mm with
      mem := if min (len - i * 4096) 4096 < 4096 then
          fill mem (phys + min (len - i * 4096) 4096) (4096 - min (len - i * 4096) 4096) 0 else mem } := by
    dsimp only [fillPage] at filled
    split at filled
    · obtain ⟨mem, copied, filled⟩ := bind_eq_ok.mp filled
      cases filled
      refine ⟨mem, fun a outside => ?_, rfl⟩
      dsimp only [copyPage] at copied
      split at copied
      · cases copied
        exact copyFrom_apply_other _ _ (by omega)
      · cases copied
    · cases filled
      exact ⟨mm.mem, fun _ _ => rfl, rfl⟩
  obtain ⟨mem, kept, rfl⟩ := written
  refine ⟨rfl, fun a outside => ?_⟩
  dsimp only
  split
  · rw [fill_apply_other _ _ (by omega), kept a outside]
  · exact kept a outside

theorem writeData_builds (layout : Layout mm dirs) {f : Nat} (data : DataFrame mm dirs f) {mem : Memory}
    (same : ∀ a, a < f ∨ f + 4096 ≤ a → mem a = mm.mem a) (dir : Nat) : Builds mm { mm with mem } dirs dir :=
  ⟨writeData_evolves layout data same, fun d member i low j inside => .inl ((layout.writeData data same).2.2 d member i low j inside)⟩

private theorem codePage_builds (layout : Layout mm dirs) (member : dir ∈ dirs) (cr3 len : Nat) (pagePhys : Nat → Nat) {i : Nat}
    (low : userCodeBase + i * 4096 < kernelVma) :
    Yields (codePage cr3 dir len pagePhys i mm) (fun mm' => Builds mm mm' dirs dir ∧
        freeCount mm'.frames + 1 ≤ freeCount mm.frames) (Early.Built mm dirs dir) := by
  refine (userPage_builds layout member low).bind fun r placed => ?_
  obtain ⟨phys, mid⟩ := r
  obtain ⟨builds, data, fewer⟩ := placed
  dsimp only
  cases filled : fillPage mid cr3 len pagePhys i phys with
  | error reason => trivial
  | ok mm' =>
    obtain ⟨same, outside⟩ := fillPage_eq_ok filled
    rw [same]
    exact ⟨builds.trans (writeData_builds builds.evolves.layout data outside dir), fewer⟩

theorem freeCount_le (bm : Bitmap) : freeCount bm ≤ bm.frameCount := by
  have le := List.length_filter_le (fun frame => !bm.isUsed frame) (List.range bm.frameCount)
  rwa [List.length_range] at le

theorem Loader.Early.Built.after {mid : Mm} (first : Builds mm mid dirs dir) {early : Early} (ended : early.Built mid dirs dir) :
    early.Built mm dirs dir := by
  cases early with
  | stop _ => trivial
  | giveUp mm' => exact first.trans ended

/-- The loops of the loader keep the layout, however they end. -/
theorem buildPages_builds (layout : Layout mm dirs) (member : dir ∈ dirs) (cr3 len : Nat) (pagePhys : Nat → Nat) :
    Yields (buildPages cr3 dir len pagePhys mm) (fun mm' => Builds mm mm' dirs dir) (Early.Built mm dirs dir) := by
  -- every page takes a frame, so the code ends where memory does at the latest
  have all := Nat.le_trans (freeCount_le mm.frames) layout.bounded
  refine Yields.bind (forRange_yields (fun n mid => Builds mm mid dirs dir ∧ freeCount mid.frames + n ≤ freeCount mm.frames)
    ⟨.refl layout dir, Nat.le_refl _⟩ fun i _ mid before => ?_) fun mid code => ?_
  · refine (codePage_builds before.1.evolves.layout member cr3 len pagePhys ?_).imp
      (fun mm' after => ⟨before.1.trans after.1, ?_⟩) fun _ => .after before.1
    · simp only [userCodeBase, kernelVma]
      omega
    · omega
  · refine forRange_yields (fun _ mm' => Builds mm mm' dirs dir) code.1 fun i _ mid before => ?_
    refine Yields.bind ((userPage_builds before.evolves.layout member ?_).imp (fun _ after => after) fun _ => .after before)
      fun r placed => before.trans placed.1
    simp only [userStackTop, kernelVma]
    omega

end Loading

end Memory

/-! ## The kernel's memory over a run -/

/-- A memory grant is for whole frames of data. -/
def Granted (mm : Mm) (dirs : Set Nat) (caps : List CapNode) : Prop :=
  ∀ (n : Nat) (node : CapNode), caps[n]? = some node → ∀ base len w, node.kind = .memoryGrant base len w →
    4096 ≤ len ∧ ∀ j, j * 4096 < len → DataFrame mm dirs (base + j * 4096)

/-- The directory of a task: one of those laid out, or the boot directory for the idle task. -/
def Housed (boot : Nat) (dirs : Set Nat) (t : Task) : Prop :=
  (t.entry = .idle → t.pageDirPhys = boot) ∧ (t.entry ≠ .idle → t.pageDirPhys ∈ dirs)

structure Laid (p : Platform) (k : Kernel) (dirs : Set Nat) : Prop where
  layout : Layout k.mm dirs
  window : Windowed k.mm
  image : k.mm.image = p.image
  video : 0xB8 < k.mm.frames.frameCount
  tasks : ∀ t ∈ k.sched.tasks, Housed p.image.bootDir dirs t
  grants : Granted k.mm dirs k.caps
  modules : ∀ m, p.HasModule m → ∀ a, m.start ≤ a → a < m.stop →
    a / 4096 < k.mm.frames.frameCount ∧ Detached k.mm dirs (a / 4096)
  info : k.loader.mbInfo = some p.info

section Grants
variable {mm mm' : Mm} {dirs dirs' : Set Nat} {caps caps' : List CapNode}

theorem Granted.grow (granted : Granted mm dirs caps) (grows : Grows mm mm' dirs dirs') : Granted mm' dirs' caps := by
  intro n node found base len w kind
  obtain ⟨whole, data⟩ := granted n node found base len w kind
  exact ⟨whole, fun j less => grows.data _ (data j less)⟩

/-- A kind that is no memory grant, or one for whole data frames. -/
def DataGrant (mm : Mm) (dirs : Set Nat) (kind : CapKind) : Prop :=
  ∀ base len w, kind = .memoryGrant base len w → 4096 ≤ len ∧ ∀ j, j * 4096 < len → DataFrame mm dirs (base + j * 4096)

theorem Granted.root (granted : Granted mm dirs caps) {kind : CapKind} {badge : UInt32} (whole : DataGrant mm dirs kind) :
    Granted mm dirs (caps ++ [CapNode.fresh kind badge]) := Every.root (P := DataGrant mm dirs) granted whole

theorem Granted.derived (granted : Granted mm dirs caps) {parent child : Nat} {badge : UInt32}
    (minted : mintDerived caps parent badge = some (child, caps')) : Granted mm dirs caps' :=
  Every.derived (P := DataGrant mm dirs) granted minted

theorem Granted.revoke (granted : Granted mm dirs caps) (node : Nat) : Granted mm dirs (Capabilities.revoke caps node) :=
  Every.revoke (P := DataGrant mm dirs) granted node

end Grants

theorem Housed.congr {boot : Nat} {dirs : Set Nat} {t t' : Task} (same : t.identity = t'.identity) (housed : Housed boot dirs t) :
    Housed boot dirs t' := by
  simp only [Task.identity, Prod.mk.injEq] at same
  rw [Housed, ← same.2.1, ← same.2.2.1]
  exact housed

theorem Housed.mono {boot : Nat} {dirs dirs' : Set Nat} {t : Task} (sub : dirs ⊆ dirs') (housed : Housed boot dirs t) :
    Housed boot dirs' t := ⟨housed.1, fun user => sub (housed.2 user)⟩

theorem Population.same_of_next {k k' : Kernel} (population : Population k k') (next : k'.nextId = k.nextId) :
    Scheduler.SameTasks k.sched k'.sched := by
  cases population with
  | same tasks _ => exact tasks
  | more _ _ more => omega

section Steps
variable {p : Platform} {k k' : Kernel} {dirs dirs' : Set Nat}

theorem Laid.housed (laid : Laid p k dirs) (same : Scheduler.SameTasks k.sched k'.sched) :
    ∀ t ∈ k'.sched.tasks, Housed p.image.bootDir dirs t := by
  intro t member
  have listed : t.identity ∈ k.sched.tasks.map Task.identity := same ▸ List.mem_map_of_mem member
  obtain ⟨before, member', identity⟩ := List.mem_map.mp listed
  exact (laid.tasks before member').congr identity

/-- The layout of the kernel follows that of memory. -/
theorem Laid.evolve (laid : Laid p k dirs) (evolves : Evolves k.mm k'.mm dirs dirs')
    (tasks : ∀ t ∈ k'.sched.tasks, Housed p.image.bootDir dirs' t) (grants : Granted k'.mm dirs' k'.caps)
    (info : k'.loader.mbInfo = k.loader.mbInfo) : Laid p k' dirs' where
  layout := evolves.layout
  window := laid.window.grow laid.layout evolves.layout evolves.grows
  image := evolves.grows.image.trans laid.image
  video := evolves.grows.count ▸ laid.video
  tasks := tasks
  grants := grants
  modules m has a low high :=
    have ⟨inside, aside⟩ := laid.modules m has a low high
    ⟨evolves.grows.count ▸ inside, evolves.stays _ aside⟩
  info := info.trans laid.info

theorem Laid.still (laid : Laid p k dirs) (mm : k'.mm = k.mm) (same : Scheduler.SameTasks k.sched k'.sched)
    (grants : Granted k.mm dirs k'.caps) (info : k'.loader.mbInfo = k.loader.mbInfo) : Laid p k' dirs := by
  refine laid.evolve ?_ (laid.housed same) (mm ▸ grants) info
  rw [mm]
  exact .refl laid.layout

theorem Laid.runner (laid : Laid p k dirs) (may : (k.runningTask.any fun task => task.entry ≠ .idle) = true) :
    ∃ self task, k.sched.current = some self ∧ k.sched.lookup self = some task ∧ k.cr3 = task.pageDirPhys ∧
      task.pageDirPhys ∈ dirs := by
  obtain ⟨task, running, user⟩ := (Option.any_eq_true _ _).mp may
  obtain ⟨self, current, found⟩ := Kernel.runningTask_eq_some running
  refine ⟨self, task, current, found, ?_, (laid.tasks task (Keyed.find_mem Task.id found)).2 (of_decide_eq_true user)⟩
  rw [Kernel.cr3, current, Option.bind_some, found]

/-- The directory of a task that makes a system call is one of those laid out. -/
theorem Laid.caller (laid : Laid p k dirs) {regs : SavedRegs} (may : enabled k (.syscall regs) = true) {self dir : Nat}
    (current : k.sched.current = some self) (own : ∃ task, k.sched.lookup self = some task ∧ task.pageDirPhys = dir) :
    dir ∈ dirs := by
  obtain ⟨self', task, current', found, _, member⟩ := laid.runner may
  obtain ⟨task', found', rfl⟩ := own
  cases current.symm.trans current'
  cases found.symm.trans found'
  exact member

/-- Ring 3 reaches data frames only. -/
theorem Paging.Layout.reaches {mm : Mm} (layout : Layout mm dirs) {dir va : Nat} {t : Translation} (member : dir ∈ dirs)
    (inside : va < 2 ^ 32) (walked : translate mm.mem dir va = some t) (user' : t.user = true) :
    va < kernelVma ∧ DataFrame mm dirs (t.phys / 4096 * 4096) := by
  by_cases low : va / 0x400000 < 768
  · obtain ⟨here, leads, _⟩ := layout.spaces.translate_eq_some member low walked
    have data := layout.leaves dir member _ low _ (Nat.mod_lt _ (by decide)) here
    have aligned := data.aligned
    rw [show t.phys / 4096 * 4096 = address (leaf mm.mem dir (va / 0x400000) (va / 4096 % 1024)) by omega]
    exact ⟨by simp only [kernelVma]; omega, data⟩
  · -- the kernel's half is closed to ring 3
    have opened := translate_user walked user'
    rw [layout.shared dir member _ (by omega) (by omega), layout.closed _ (by omega)] at opened
    cases opened

private theorem mapPages_aligned {mm mm' : Mm} {dir virt phys pages : Nat} {w : Bool} (some : 0 < pages)
    (ran : mapPages mm dir virt phys pages w = .ok mm') : virt % 4096 = 0 := by
  obtain ⟨n, rfl⟩ : ∃ n, pages = n + 1 := ⟨pages - 1, by omega⟩
  obtain ⟨mid, _, last⟩ := forRange_succ_eq_ok.mp ran
  dsimp only [mapPage] at last
  split at last
  · cases last
  · omega

private theorem pagesAsked_pos (ecx : UInt32) : 0 < Syscall.pagesAsked ecx := by
  unfold Syscall.pagesAsked
  split
  · decide
  · rename_i some
    exact Nat.pos_of_ne_zero fun zero => some (UInt32.toNat_inj.mp zero)

/-- The directory is new, and its pages lead to frames handed out since. -/
def Newcomer (mm mm' : Mm) (dirs : Set Nat) (d : Nat) : Prop :=
  d ∉ dirs ∧ ∀ i < 768, ∀ j < 1024, present (leaf mm'.mem d i j) = true →
    HandedOut mm mm' (address (leaf mm'.mem d i j) / 4096)

/-- What a call or a step does to the pages of tasks. Memory stays laid out; a page of a directory that was there is the old
    one, or `Ok` says why it has come; and a task that has come has a directory of its own. -/
structure Repages (p : Platform) (k k' : Kernel) (dirs dirs' : Set Nat) (Ok : Nat → Nat → Bool → Prop) : Prop where
  laid : Laid p k' dirs'
  grows : Grows k.mm k'.mm dirs dirs'
  pages : ∀ d ∈ dirs, ∀ i < 768, ∀ j < 1024, leaf k'.mm.mem d i j = leaf k.mm.mem d i j ∨
    Ok d (address (leaf k'.mm.mem d i j)) (writable (leaf k'.mm.mem d i j))
  tasks : ∀ t ∈ k'.sched.tasks, (∃ t' ∈ k.sched.tasks, t'.identity = t.identity) ∨
    t.id = k.nextId ∧ k'.nextId = k.nextId + 1 ∧ (t.entry ≠ .idle → Newcomer k.mm k'.mm dirs t.pageDirPhys)

/-- The reasons of an event for a page: an allocation that the task of the directory asked for, or a grant that the task held
    when it asked for the mapping. -/
inductive Remaps (k : Kernel) (d f : Nat) (w : Bool) : Event → Prop where
  | allocated {self phys n : Nat} {regs : SavedRegs} {frames : Bitmap} (current : k.sched.current = some self)
      (number : regs.eax = Syscall.sysMemAlloc) (own : ∃ task, k.sched.lookup self = some task ∧ task.pageDirPhys = d)
      (allocated : Syscall.allocPages k.mm.frames (Syscall.pagesAsked regs.ecx) = some (phys, frames))
      (inside : n < Syscall.pagesAsked regs.ecx) (place : f = phys + n * 4096) : Remaps k d f w (.syscall regs)
  | granted {self node base len n : Nat} {badge : UInt32} {regs : SavedRegs} (current : k.sched.current = some self)
      (number : regs.eax = Syscall.sysMapMemory) (own : ∃ task, k.sched.lookup self = some task ∧ task.pageDirPhys = d)
      (holds : Holds k self regs.ebx node) (live : resolve k.caps node = some (.memoryGrant base len w, badge))
      (inside : n * 4096 < len) (place : f = base + n * 4096) : Remaps k d f w (.syscall regs)

section Moving
variable {Ok : Nat → Nat → Bool → Prop}

private theorem tasks_kept (same : Scheduler.SameTasks k.sched k'.sched) : ∀ t ∈ k'.sched.tasks,
    (∃ t' ∈ k.sched.tasks, t'.identity = t.identity) ∨
      t.id = k.nextId ∧ k'.nextId = k.nextId + 1 ∧ (t.entry ≠ .idle → Newcomer k.mm k'.mm dirs t.pageDirPhys) := by
  intro t member
  have listed : t.identity ∈ k.sched.tasks.map Task.identity := same ▸ List.mem_map_of_mem member
  exact .inl (List.mem_map.mp listed)

theorem Laid.remap (laid : Laid p k dirs) (evolves : Evolves k.mm k'.mm dirs dirs)
    (pages : ∀ d ∈ dirs, ∀ i < 768, ∀ j < 1024, leaf k'.mm.mem d i j = leaf k.mm.mem d i j ∨
      Ok d (address (leaf k'.mm.mem d i j)) (writable (leaf k'.mm.mem d i j)))
    (same : Scheduler.SameTasks k.sched k'.sched) (grants : Granted k'.mm dirs k'.caps)
    (info : k'.loader.mbInfo = k.loader.mbInfo) : Repages p k k' dirs dirs Ok :=
  ⟨laid.evolve evolves (laid.housed same) grants info, evolves.grows, pages, tasks_kept same⟩

theorem Laid.rest (laid : Laid p k dirs) (mm : k'.mm = k.mm) (same : Scheduler.SameTasks k.sched k'.sched)
    (grants : Granted k.mm dirs k'.caps) (info : k'.loader.mbInfo = k.loader.mbInfo) : Repages p k k' dirs dirs Ok := by
  refine laid.remap ?_ (fun _ _ _ _ _ _ => .inl (by rw [mm])) same (mm ▸ grants) info
  rw [mm]
  exact .refl laid.layout

private theorem newDirectory_builds {mm mid mm' : Mm} (layout : Layout mm dirs) {dir : Nat} (made : newDirectory mm = .ok (dir, mid))
    (built : Builds mid mm' (insert dir dirs) dir) :
    Evolves mm mm' dirs (insert dir dirs) ∧ (∀ d ∈ dirs, ∀ i < 768, ∀ j < 1024, leaf mm'.mem d i j = leaf mm.mem d i j) ∧
      Newcomer mm mm' dirs dir := by
  obtain ⟨_, grows, fresh, _, same, blank⟩ := newDirectory_spec layout made
  refine ⟨(newDirectory_evolves layout made).trans built.evolves, fun d member i low j inside => ?_, fresh, ?_⟩
  · rcases built.pages d (Set.mem_insert_of_mem dir member) i low j inside with old | ⟨here, _⟩
    · rw [old, same d member i low j inside]
    · exact absurd (here ▸ member) fresh
  · intro i low j inside mapped
    rcases built.pages dir (Set.mem_insert dir dirs) i low j inside with old | ⟨_, handed⟩
    · rw [old, blank i low j] at mapped
      cases mapped
    · exact handed.before grows

theorem Loader.Spawning.repages {ports : List UInt16} {spawned : Option Nat} (ran : Loader.Spawning k ports spawned k')
    (laid : Laid p k dirs) : ∃ dirs', Repages p k k' dirs dirs' Ok := by
  cases ran with
  | refused => exact ⟨dirs, laid.rest rfl (.refl _) laid.grants rfl⟩
  | @gaveUp dir totalLen pagePhys mid mm made left =>
    have fresh := newDirectory_evolves laid.layout made
    have built := (buildPages_builds fresh.layout (Set.mem_insert dir dirs) k.cr3 totalLen pagePhys).of_error left
    obtain ⟨evolves, same, _⟩ := newDirectory_builds laid.layout made built
    refine ⟨insert dir dirs, laid.evolve evolves ?_ (laid.grants.grow evolves.grows) rfl, evolves.grows,
      fun d member i low j inside => .inl (same d member i low j inside), tasks_kept (.refl _)⟩
    exact fun t member => (laid.tasks t member).mono (Set.subset_insert dir dirs)
  | @loaded dir totalLen pagePhys mid k' t made built admitted own entry given endowed =>
    have fresh := newDirectory_evolves laid.layout made
    have placed := (buildPages_builds fresh.layout (Set.mem_insert dir dirs) k.cr3 totalLen pagePhys).of_ok built
    obtain ⟨evolves, same, newcomer⟩ := newDirectory_builds laid.layout made placed
    refine ⟨insert dir dirs, laid.evolve evolves ?_ ?_ (by rw [admitted.loader]), evolves.grows,
      fun d member i low j inside => .inl (same d member i low j inside), ?_⟩
    · intro t' member
      rw [admitted.tasks] at member
      rcases List.mem_append.mp member with old | new
      · exact (laid.tasks t' old).mono (Set.subset_insert dir dirs)
      · rw [List.mem_singleton.mp new]
        refine ⟨fun idle => ?_, fun _ => own ▸ Set.mem_insert dir dirs⟩
        rw [entry] at idle
        cases idle
    · have grants := laid.grants.grow evolves.grows
      cases endowed with
      | bare _ _ caps => exact caps ▸ grants
      | nameservice _ _ caps =>
        rw [caps]
        refine grants.root fun _ _ _ kind => ?_
        cases kind
    · intro t' member
      rw [admitted.tasks] at member
      rcases List.mem_append.mp member with old | new
      · exact .inl ⟨t', old, rfl⟩
      · rw [List.mem_singleton.mp new]
        exact .inr ⟨admitted.id, admitted.nextId, fun _ => own ▸ newcomer⟩

theorem Repages.around {k1 k2 : Kernel} {dirs' : Set Nat} (repages : Repages p k1 k2 dirs dirs' Ok) (mm : k1.mm = k.mm)
    (same : Scheduler.SameTasks k.sched k1.sched) (next : k1.nextId = k.nextId) (mm' : k'.mm = k2.mm)
    (same' : Scheduler.SameTasks k2.sched k'.sched) (next' : k'.nextId = k2.nextId) (caps : k'.caps = k2.caps)
    (info : k'.loader.mbInfo = k2.loader.mbInfo) : Repages p k k' dirs dirs' Ok := by
  refine ⟨repages.laid.still mm' same' (caps ▸ repages.laid.grants) info, ?_, ?_, fun t member => ?_⟩
  · rw [mm', ← mm]
    exact repages.grows
  · rw [mm', ← mm]
    exact repages.pages
  · have listed : t.identity ∈ k2.sched.tasks.map Task.identity := same' ▸ List.mem_map_of_mem member
    obtain ⟨t2, member2, identity⟩ := List.mem_map.mp listed
    rcases repages.tasks t2 member2 with ⟨t1, member1, identity1⟩ | ⟨id, count, new⟩
    · have listed1 : t1.identity ∈ k.sched.tasks.map Task.identity := same ▸ List.mem_map_of_mem member1
      obtain ⟨t0, member0, identity0⟩ := List.mem_map.mp listed1
      exact .inl ⟨t0, member0, identity0.trans (identity1.trans identity)⟩
    · simp only [Task.identity, Prod.mk.injEq] at identity
      obtain ⟨sameId, sameEntry, sameDir, _⟩ := identity
      refine .inr ⟨by rw [← sameId, id, next], by rw [next', count, next], fun user => ?_⟩
      rw [mm', ← mm, ← sameDir]
      exact new (sameEntry ▸ user)

end Moving

/-- A step gives a directory in use no page but those that the event accounts for. -/
theorem Did.repages {e : Event} (did : Did k e k') (may : enabled k e = true) (laid : Laid p k dirs) :
    ∃ dirs', Repages p k k' dirs dirs' fun d f w => Remaps k d f w e := by
  have population := did.population
  cases did with
  | send current number holds live derived ran =>
    refine ⟨dirs, laid.rest rfl (population.same_of_next rfl) ?_ rfl⟩
    cases derived with
    | none _ => exact laid.grants
    | child _ _ _ minted => exact laid.grants.derived minted
  | endpointCreate current number ran =>
    refine ⟨dirs, laid.rest rfl (population.same_of_next rfl) (laid.grants.root fun _ _ _ kind => ?_) rfl⟩
    cases kind
  | mint current number holds minted ran =>
    exact ⟨dirs, laid.rest rfl (population.same_of_next rfl) (laid.grants.derived minted) rfl⟩
  | revoke current number holds =>
    exact ⟨dirs, laid.rest rfl (population.same_of_next rfl) (laid.grants.revoke _) rfl⟩
  | @map self _ physBase len dir may' _ regs mm current number holds live own private' ran =>
    obtain ⟨node, found, _, kind, _⟩ := resolve_eq_some_iff.mp live
    obtain ⟨whole, data⟩ := laid.grants _ node found _ _ _ kind
    have aligned := mapPages_aligned (by omega) ran
    simp only [kernelVma] at private'
    have caller := laid.caller may current own
    have private'' : regs.ecx.toNat + (len + 4095) / 4096 * 4096 ≤ kernelVma := by simp only [kernelVma]; omega
    have evolves := mapPages_evolves laid.layout caller private'' (fun j less => data j (by omega)) ran
    obtain ⟨_, _, leaves⟩ := mapPages_spec laid.layout caller private'' (fun j less => data j (by omega)) ran
    refine ⟨dirs, laid.remap evolves (fun d member i low j inside => ?_) (population.same_of_next rfl)
      (laid.grants.grow evolves.grows) rfl⟩
    refine (leaves d member i low j inside).imp_right fun ⟨here, n, less, new⟩ => ?_
    have onFrame := (data n (by omega)).aligned
    show Remaps k d (address (leaf mm.mem d i j)) (writable (leaf mm.mem d i j)) _
    rw [new, address_entry onFrame, writable_entry onFrame]
    exact .granted current number (here ▸ own) holds live (by omega) rfl
  | @alloc self phys dir slot regs frames mm s current number private' allocated own mapped ran =>
    obtain ⟨taken, data⟩ := allocPages_evolves laid.layout allocated
    have caller := laid.caller may current own
    have maps := mapPages_evolves taken.layout caller private' data mapped
    obtain ⟨_, _, leaves⟩ := mapPages_spec taken.layout caller private' data mapped
    have evolves := taken.trans maps
    refine ⟨dirs, laid.remap evolves (fun d member i low j inside => ?_) (population.same_of_next rfl) ?_ rfl⟩
    · refine (leaves d member i low j inside).imp_right fun ⟨here, n, less, new⟩ => ?_
      have onFrame := (data n less).aligned
      show Remaps k d (address (leaf mm.mem d i j)) (writable (leaf mm.mem d i j)) _
      rw [new, address_entry onFrame]
      exact .allocated current number (here ▸ own) allocated less rfl
    · refine (laid.grants.grow evolves.grows).root fun base len w kind => ?_
      cases kind
      have some := pagesAsked_pos
      refine ⟨Nat.le_mul_of_pos_left 4096 (some _), fun j less => maps.grows.data _ (data j (by omega))⟩
  | @spawn self regs spawned k1 current number ran =>
    have arrived : Laid p (arrive k self regs) dirs := laid.still rfl (sameTasks_arrive k self regs) laid.grants rfl
    obtain ⟨dirs', repages⟩ := ran.repages arrived
    exact ⟨dirs', repages.around rfl (sameTasks_arrive k self regs) rfl rfl (sameTasks_reply k1 self _) rfl rfl rfl⟩
  | @store va value t walked allowed =>
    obtain ⟨self, task, _, _, cr3, member⟩ := laid.runner may
    rw [cr3] at walked
    obtain ⟨_, data⟩ := laid.layout.reaches member va.toNat_lt walked allowed.1
    have outside : ∀ a, a < t.phys / 4096 * 4096 ∨ t.phys / 4096 * 4096 + 4096 ≤ a → write8 k.mm.mem t.phys value a = k.mm.mem a :=
      fun a outside => write8_apply_other _ _ (by omega)
    have evolves := writeData_evolves laid.layout data outside
    refine ⟨dirs, ?_⟩
    refine laid.remap (show Evolves k.mm _ dirs dirs from evolves) ?_ (population.same_of_next rfl)
      (laid.grants.grow evolves.grows) rfl
    exact fun d member' i low j inside => .inl ((laid.layout.writeData data outside).2.2 d member' i low j inside)
  | _ => exact ⟨dirs, laid.rest rfl (population.same_of_next rfl) laid.grants rfl⟩

/-- The boot changes no page of a directory in use. -/
theorem BootDid.repages {c : BootCall} (did : BootDid k c k') (allowed : c.Allowed k) (laid : Laid p k dirs) :
    ∃ dirs', Repages p k k' dirs dirs' fun _ _ _ => False := by
  have population := did.population
  cases did with
  | spawn ran => exact ran.repages laid
  | @grant task kind slot s ran =>
    refine ⟨dirs, laid.rest rfl (population.same_of_next rfl) (laid.grants.root fun base len w isGrant => ?_) rfl⟩
    subst isGrant
    -- only the VGA buffer is granted, which lies below the kernel's image
    obtain ⟨rfl, rfl⟩ := allowed
    refine ⟨Nat.le_refl _, fun j less => ?_⟩
    rw [show j = 0 by omega]
    have := bootDir_frame k.mm.image
    obtain ⟨used, apart⟩ := laid.layout.kernel_frame (f := 0xB8000) (by omega)
    exact ⟨rfl, used, apart, .inl rfl⟩
  | @infoPage task phys ioBase frames slot s allocated ran =>
    obtain ⟨taken, data⟩ := alloc_evolves laid.layout allocated
    have outside : ∀ a, a < phys ∨ phys + 4096 ≤ a → write32 k.mm.mem phys ioBase.toNat a = k.mm.mem a :=
      fun a outside => write32_apply_other _ _ _ (by omega)
    have written := writeData_evolves taken.layout data outside
    have evolves := taken.trans written
    refine ⟨dirs, laid.remap evolves ?_ (population.same_of_next rfl) ?_ rfl⟩
    · exact fun d member i low j inside => .inl ((taken.layout.writeData data outside).2.2 d member i low j inside)
    · refine (laid.grants.grow evolves.grows).root fun base len w kind => ?_
      cases kind
      refine ⟨Nat.le_refl _, fun j less => ?_⟩
      rw [show j = 0 by omega, Nat.zero_mul, Nat.add_zero]
      exact written.grows.data phys data
  | spawnIdle room =>
    refine ⟨dirs, laid.evolve (.refl laid.layout) (fun t member => ?_) laid.grants rfl, .refl _ _, fun _ _ _ _ _ _ => .inl rfl,
      fun t member => ?_⟩
    · rcases List.mem_append.mp member with old | new
      · exact laid.tasks t old
      · rw [List.mem_singleton.mp new, ← laid.image]
        exact ⟨fun _ => rfl, fun user => absurd rfl user⟩
    · rcases List.mem_append.mp member with old | new
      · exact .inl ⟨t, old, rfl⟩
      · rw [List.mem_singleton.mp new]
        exact .inr ⟨rfl, rfl, fun user => absurd rfl user⟩
  | _ => exact ⟨dirs, laid.rest rfl (population.same_of_next rfl) laid.grants rfl⟩

theorem bringUp_laid (up : bringUp p = .ok k) : Laid p k ∅ := by
  obtain ⟨mm, mm', probed, reserved, rfl, bare, video, _⟩ := bringUp_bare up
  obtain ⟨bare', mem, count, _, free⟩ := reserveAllModules_bare bare reserved
  refine ⟨bare'.layout, bare'.window, bare'.image, count ▸ video, fun _ none => absurd none List.not_mem_nil, ?_, ?_, rfl⟩
  · intro n node found
    cases found
  · rintro m ⟨mm0, index, probed0, listed, ordered, inMemory⟩ a low high
    cases probed.symm.trans probed0
    refine ⟨?_, fun left => ((free _).mp left).2 index m listed (marked_of low high), not_structural_empty⟩
    show a / 4096 < mm'.frames.frameCount
    omega

/-- Memory is laid out in every state. -/
theorem Wiring.laid {h : List Record} (wiring : Wiring p h k) : ∃ dirs, Laid p k dirs := by
  refine wiring.rule (P := fun _ k => ∃ dirs, Laid p k dirs) (fun k up => ⟨∅, bringUp_laid up⟩) ?_ ?_
  · rintro h k k' c _ ⟨dirs, laid⟩ _ _ allowed did
    obtain ⟨dirs', repages⟩ := did.repages allowed laid
    exact ⟨dirs', repages.laid⟩
  · rintro h k k' e _ ⟨dirs, laid⟩ _ may did
    obtain ⟨dirs', repages⟩ := did.repages may laid
    exact ⟨dirs', repages.laid⟩

end Steps

end Pcern

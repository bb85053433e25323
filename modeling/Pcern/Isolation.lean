import Pcern.Authority
import Pcern.Confinement

/-!
Memory isolation. The pages that ring 3 reaches through the directory of a task
lead to frames that were allocated for this task, when it was loaded or at its
own request, or that lay in a grant which the task held when it asked for the
mapping. The history of the run says which (`Entitled`).

No frame of a directory or of a page table is among them, and the kernel's half
of every directory is the boot directory's, closed to ring 3.
-/
namespace Pcern
open Bytes Capabilities Pcern.Frame PageTables Paging

/-- A record that entitles a task to a page for a frame: the task was created in it, and the frame handed out for it; the
    task allocated the frame; or the task had a grant mapped that covers the frame and allows what the page allows. -/
inductive Entitles (r : Record) (id frame : Nat) (writable : Bool) : Prop where
  | loads (born : r.pre.nextId = id ∧ r.post.nextId = id + 1) (handed : HandedOut r.pre.mm r.post.mm (frame / 4096))
  | allocates {regs : SavedRegs} {phys n : Nat} {frames : Bitmap} (calls : Calls r id regs)
      (number : regs.eax = Syscall.sysMemAlloc)
      (allocated : Syscall.allocPages r.pre.mm.frames (Syscall.pagesAsked regs.ecx) = some (phys, frames))
      (inside : n < Syscall.pagesAsked regs.ecx) (place : frame = phys + n * 4096)
  | maps {regs : SavedRegs} {node base len : Nat} {may : Bool} {badge : UInt32} (calls : Calls r id regs)
      (number : regs.eax = Syscall.sysMapMemory) (holds : Holds r.pre id regs.ebx node)
      (live : resolve r.pre.caps node = some (.memoryGrant base len may, badge))
      (inside : base ≤ frame ∧ frame + 4096 ≤ base + len) (allowed : writable = true → may = true)

def Entitled (h : List Record) (id frame : Nat) (writable : Bool) : Prop := ∃ r ∈ h, Entitles r id frame writable

/-- A frame that holds a directory in use, a task's or the boot directory, or a table behind one of its entries. -/
def InUse (k : Kernel) (frame : Nat) : Prop :=
  ∃ d, (d = k.mm.image.bootDir ∨ ∃ t ∈ k.sched.tasks, t.pageDirPhys = d) ∧
    (frame = d ∨ ∃ i < 1024, present (word k.mm.mem d i) = true ∧ large (word k.mm.mem d i) = false ∧
      frame = address (word k.mm.mem d i))

/-! ## Grants are for whole pages -/

def PageGrant (kind : CapKind) : Prop := ∀ base len w, kind = .memoryGrant base len w → len % 4096 = 0

section Grants
variable {p : Platform} {h : List Record} {k k' : Kernel}

theorem Loader.Spawning.pageGrants {ports : List UInt16} {spawned : Option Nat} (ran : Loader.Spawning k ports spawned k')
    (whole : Every PageGrant k.caps) : Every PageGrant k'.caps := by
  cases ran with
  | refused => exact whole
  | gaveUp _ _ => exact whole
  | loaded _ _ _ _ _ _ endowed =>
    cases endowed with
    | bare _ _ caps => exact caps ▸ whole
    | nameservice _ _ caps => exact caps ▸ whole.root (by rintro _ _ _ ⟨⟩)

theorem Did.pageGrants {e : Event} (did : Did k e k') (whole : Every PageGrant k.caps) : Every PageGrant k'.caps := by
  cases did with
  | send _ _ _ _ derived _ =>
    cases derived with
    | none _ => exact whole
    | child _ _ _ minted => exact whole.derived minted
  | spawn _ _ ran => exact ran.pageGrants whole
  | endpointCreate _ _ _ => exact whole.root (by rintro _ _ _ ⟨⟩)
  | mint _ _ _ minted _ => exact whole.derived minted
  | revoke _ _ _ => exact whole.revoke _
  | alloc _ _ _ _ _ _ _ =>
    refine whole.root fun base len w kind => ?_
    cases kind
    exact Nat.mul_mod_left _ _
  | _ => exact whole

theorem BootDid.pageGrants {c : BootCall} (did : BootDid k c k') (allowed : c.Allowed k) (whole : Every PageGrant k.caps) :
    Every PageGrant k'.caps := by
  cases did with
  | spawn ran => exact ran.pageGrants whole
  | grant _ =>
    refine whole.root fun base len w kind => ?_
    subst kind
    rw [allowed.2]
  | infoPage _ _ =>
    refine whole.root fun base len w kind => ?_
    cases kind
    rfl
  | _ => exact whole

theorem Wiring.pageGrants (wiring : Wiring p h k) : Every PageGrant k.caps := by
  refine wiring.rule (P := fun _ k => Every PageGrant k.caps) (fun k up => ?_) ?_ ?_
  · obtain ⟨total, mm, mm', -, -, -, -, rfl⟩ := bringUp_eq_ok up
    intro n node found
    cases found
  · exact fun h k k' c _ whole _ _ allowed did => did.pageGrants allowed whole
  · exact fun h k k' e _ whole _ _ did => did.pageGrants whole

end Grants

/-! ## Pages and their reasons -/

/-- Memory is laid out, no two tasks share a directory, and every page of a task has its reason. -/
structure Isolated (p : Platform) (h : List Record) (k : Kernel) (dirs : Set Nat) : Prop where
  laid : Laid p k dirs
  solid : Solid k.mm
  apart : ∀ t ∈ k.sched.tasks, ∀ t' ∈ k.sched.tasks, t.entry ≠ .idle → t'.entry ≠ .idle → t.pageDirPhys = t'.pageDirPhys →
    t.id = t'.id
  entitled : ∀ t ∈ k.sched.tasks, t.entry ≠ .idle → ∀ i < 768, ∀ j < 1024,
    present (leaf k.mm.mem t.pageDirPhys i j) = true →
      Entitled h t.id (address (leaf k.mm.mem t.pageDirPhys i j)) (writable (leaf k.mm.mem t.pageDirPhys i j))

section Runs
variable {p : Platform} {h : List Record} {k k' : Kernel} {dirs dirs' : Set Nat}

theorem Entitled.mono {id frame : Nat} {w : Bool} (entitled : Entitled h id frame w) (more : List Record) :
    Entitled (h ++ more) id frame w := by
  obtain ⟨r, member, reason⟩ := entitled
  exact ⟨r, List.mem_append_left more member, reason⟩

theorem Solid.grow {mm mm' : Mm} (solid : Solid mm) (layout' : Layout mm' dirs') (grows : Grows mm mm' dirs dirs') : Solid mm' := by
  intro i inside
  rw [grows.boot_word layout' inside]
  exact solid i inside

theorem Isolated.advance (isolated : Isolated p h k dirs) {a : Action} {Ok : Nat → Nat → Bool → Prop}
    (repages : Repages p k k' dirs dirs' Ok)
    (reason : ∀ t ∈ k.sched.tasks, t.entry ≠ .idle → ∀ f w, Ok t.pageDirPhys f w →
      Entitles { pre := k, action := a, post := k' } t.id f w) :
    Isolated p (h ++ [{ pre := k, action := a, post := k' }]) k' dirs' := by
  have laid := isolated.laid
  refine ⟨repages.laid, isolated.solid.grow repages.laid.layout repages.grows, ?_, ?_⟩
  · intro t member t' member' user user' same
    rcases repages.tasks t member with ⟨old, known, identity⟩ | ⟨id, _, new⟩ <;>
      rcases repages.tasks t' member' with ⟨old', known', identity'⟩ | ⟨id', _, new'⟩
    · simp only [Task.identity, Prod.mk.injEq] at identity identity'
      rw [← identity.1, ← identity'.1]
      refine isolated.apart old known old' known' (identity.2.1 ▸ user) (identity'.2.1 ▸ user') ?_
      rw [identity.2.2.1, same, ← identity'.2.2.1]
    · simp only [Task.identity, Prod.mk.injEq] at identity
      have within := (laid.tasks old known).2 (identity.2.1 ▸ user)
      rw [identity.2.2.1, same] at within
      exact absurd within (new' user').1
    · simp only [Task.identity, Prod.mk.injEq] at identity'
      have within := (laid.tasks old' known').2 (identity'.2.1 ▸ user')
      rw [identity'.2.2.1, ← same] at within
      exact absurd within (new user).1
    · rw [id, id']
  · intro t member user i low j inside mapped
    rcases repages.tasks t member with ⟨old, known, identity⟩ | ⟨id, count, new⟩
    · simp only [Task.identity, Prod.mk.injEq] at identity
      have user' : old.entry ≠ .idle := identity.2.1 ▸ user
      rw [← identity.2.2.1] at mapped ⊢
      rw [← identity.1]
      rcases repages.pages _ ((laid.tasks old known).2 user') i low j inside with same | ok
      · rw [same] at mapped ⊢
        exact (isolated.entitled old known user' i low j inside mapped).mono _
      · exact ⟨_, last_mem h _, reason old known user' _ _ ok⟩
    · exact ⟨_, last_mem h _, .loads ⟨id.symm, by rw [id]; exact count⟩ ((new user).2 i low j inside mapped)⟩

theorem Isolated.owner (isolated : Isolated p h k dirs) {self : Nat} {t : Task} (member : t ∈ k.sched.tasks) (user : t.entry ≠ .idle)
    (may : (k.runningTask.any fun task => task.entry ≠ .idle) = true) (current : k.sched.current = some self)
    (own : ∃ task, k.sched.lookup self = some task ∧ task.pageDirPhys = t.pageDirPhys) : self = t.id := by
  obtain ⟨task, found, same⟩ := own
  obtain ⟨task', running, user'⟩ := (Option.any_eq_true _ _).mp may
  obtain ⟨self', current', found'⟩ := Kernel.runningTask_eq_some running
  cases current.symm.trans current'
  cases found.symm.trans found'
  rw [← Keyed.find_key Task.id found]
  exact isolated.apart task (Keyed.find_mem Task.id found) t member (of_decide_eq_true user') user same

theorem Isolated.event (isolated : Isolated p h k dirs) (whole : Every PageGrant k.caps) {e : Event} (did : Did k e k')
    (may : enabled k e = true) : ∃ dirs', Isolated p (h ++ [{ pre := k, action := .event e, post := k' }]) k' dirs' := by
  obtain ⟨dirs', repages⟩ := did.repages may isolated.laid
  refine ⟨dirs', isolated.advance repages fun t member user f w ok => ?_⟩
  cases ok with
  | allocated current number own allocated inside place =>
    cases isolated.owner member user may current own
    exact .allocates ⟨rfl, current⟩ number allocated inside place
  | granted current number own holds live inside place =>
    cases isolated.owner member user may current own
    obtain ⟨entry, found, _, kind, _⟩ := resolve_eq_some_iff.mp live
    have pages := whole _ entry found _ _ _ kind
    exact .maps ⟨rfl, current⟩ number holds live (by omega) id

theorem Wiring.isolated (wiring : Wiring p h k) : ∃ dirs, Isolated p h k dirs := by
  refine wiring.rule (P := fun h k => ∃ dirs, Isolated p h k dirs) (fun k up => ?_) ?_ ?_
  · have laid := bringUp_laid up
    obtain ⟨mm, mm', _, reserved, rfl, bare, _, solid⟩ := bringUp_bare up
    obtain ⟨bare', mem, _⟩ := reserveAllModules_bare bare reserved
    refine ⟨∅, laid, fun i inside => ?_, fun _ none => absurd none List.not_mem_nil, fun _ none => absurd none List.not_mem_nil⟩
    show present (word mm'.mem mm'.image.bootDir i) = true → large (word mm'.mem mm'.image.bootDir i) = true
    rw [mem, bare'.image, ← bare.image]
    exact solid i inside
  · rintro h k k' c _ ⟨dirs, isolated⟩ _ _ allowed did
    obtain ⟨dirs', repages⟩ := did.repages allowed isolated.laid
    exact ⟨dirs', isolated.advance repages fun _ _ _ _ _ none => none.elim⟩
  · rintro h k k' e before ⟨dirs, isolated⟩ _ may did
    exact isolated.event before.pageGrants did may

theorem Isolated.inUse (isolated : Isolated p h k dirs) {f : Nat} (inUse : InUse k f) : ¬DataFrame k.mm dirs f := by
  have laid := isolated.laid
  obtain ⟨d, isDir, isFrame⟩ := inUse
  intro data
  have isBoot : d = k.mm.image.bootDir ∨ d ∈ dirs := by
    rcases isDir with boot | ⟨t, member, rfl⟩
    · exact .inl boot
    · by_cases idle : t.entry = .idle
      · exact .inl (((laid.tasks t member).1 idle).trans (by rw [laid.image]))
      · exact .inr ((laid.tasks t member).2 idle)
  rcases isFrame with rfl | ⟨i, inside, here, plain, rfl⟩
  · rcases isBoot with rfl | within
    · exact (laid.layout.data_frame data).1 rfl
    · exact data.apart (.inl within)
  · -- the boot directory and the kernel's half have no tables
    have noTable : word k.mm.mem d i ≠ word k.mm.mem k.mm.image.bootDir i := by
      intro same
      rw [same] at here plain
      rw [isolated.solid i inside here] at plain
      cases plain
    rcases isBoot with rfl | within
    · exact noTable rfl
    · by_cases low : i < 768
      · exact data.apart (.table within low here)
      · exact noTable (laid.layout.shared d within i inside (by omega))

/-- In every state that a machine reaches, a page of a task that ring 3 can use leads to a frame that the task is entitled to,
    with no right that the reason does not give; no such frame holds a directory or a page table; and the kernel's half of
    every task's directory is the boot directory's, closed to ring 3. -/
theorem memory_isolated (wiring : Wiring p h k) :
    (∀ t ∈ k.sched.tasks, ∀ va < kernelVma, ∀ page, translate k.mm.mem t.pageDirPhys va = some page → page.user = true →
      Entitled h t.id (page.phys / 4096 * 4096) page.writable ∧ ¬InUse k (page.phys / 4096 * 4096)) ∧
      ∀ t ∈ k.sched.tasks, ∀ i < 1024, 768 ≤ i →
        word k.mm.mem t.pageDirPhys i = word k.mm.mem k.mm.image.bootDir i ∧ user (word k.mm.mem t.pageDirPhys i) = false := by
  obtain ⟨dirs, isolated⟩ := wiring.isolated
  have laid := isolated.laid
  refine ⟨fun t member va low page walked user' => ?_, fun t member i inside high => ?_⟩
  · simp only [kernelVma] at low
    by_cases idle : t.entry = .idle
    · -- the boot directory has nothing for ring 3
      rw [(laid.tasks t member).1 idle, ← laid.image] at walked
      have opened := translate_user walked user'
      rw [laid.layout.closed _ (by omega)] at opened
      cases opened
    · have within := (laid.tasks t member).2 idle
      obtain ⟨here, leads, _, mayWrite⟩ := laid.layout.spaces.translate_eq_some within (by omega) walked
      have reached := (laid.layout.reaches within (by omega) walked user').2
      refine ⟨?_, fun inUse => isolated.inUse inUse reached⟩
      have aligned := address_aligned (leaf k.mm.mem t.pageDirPhys (va / 0x400000) (va / 4096 % 1024))
      rw [show page.phys / 4096 * 4096 = address (leaf k.mm.mem t.pageDirPhys (va / 0x400000) (va / 4096 % 1024)) by omega]
      obtain ⟨r, listed, reason⟩ := isolated.entitled t member idle _ (by omega) _ (Nat.mod_lt _ (by decide)) here
      refine ⟨r, listed, ?_⟩
      cases reason with
      | loads born handed => exact .loads born handed
      | allocates calls number allocated inside place => exact .allocates calls number allocated inside place
      | maps calls number holds live inside allowed =>
        exact .maps calls number holds live inside fun w => allowed (mayWrite w)
  · by_cases idle : t.entry = .idle
    · rw [(laid.tasks t member).1 idle, ← laid.image]
      exact ⟨rfl, laid.layout.closed i inside⟩
    · have shared := laid.layout.shared _ ((laid.tasks t member).2 idle) i inside high
      rw [shared]
      exact ⟨rfl, laid.layout.closed i inside⟩

/-- The services of a small machine are isolated once it has booted. -/
theorem smallMachine_isolated : ∃ b, kernelMain smallMachine = .ok b ∧ ∀ t ∈ b.kernel.sched.tasks, ∀ va < kernelVma, ∀ page,
    translate b.kernel.mm.mem t.pageDirPhys va = some page → page.user = true →
      Entitled b.history t.id (page.phys / 4096 * 4096) page.writable ∧ ¬InUse b.kernel (page.phys / 4096 * 4096) := by
  obtain ⟨b, boot, _⟩ := smallMachine_boots
  exact ⟨b, boot, (memory_isolated (Reached.booted boot).wiring).1⟩

end Runs

end Pcern

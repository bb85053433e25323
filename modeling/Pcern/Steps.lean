import Pcern.Boot

/-!
What a step can do. `Did` lists the outcomes of an event and `BootDid` those of a
call during the boot: one constructor for each way the kernel's state can
change, with the calls that were made and what they were allowed by. `step_did`
and `bootCall_did` say that nothing else happens; the invariants of the system
are proved from them by cases, without looking at the code of the system calls
again.
-/
namespace Pcern
open Bytes Capabilities Pcern.Frame Keyed Loops PageTables Syscall

/-- The registers of a task are set. -/
def reply (k : Kernel) (id : Nat) (f : SavedRegs → SavedRegs) : Kernel := k.setSched (k.sched.writeRegs id f)

/-- The current task enters the kernel with its arguments. -/
def arrive (k : Kernel) (id : Nat) (regs : SavedRegs) : Kernel := reply k id fun _ => regs

/-- A task's capability table names a node in a slot. -/
def Holds (k : Kernel) (id : Nat) (slot : UInt32) (node : Nat) : Prop :=
  ∃ task, k.sched.lookup id = some task ∧ CSpace.get task.cspace slot = some node

/-- The transfer that a send derives from a slot of its task. -/
inductive Derived (k : Kernel) (id : Nat) (slot : UInt32) : Option Nat → List CapNode → Prop where
  | none (unnamed : slot = 0 ∨ ∀ node, Holds k id slot node → resolve k.caps node = none) : Derived k id slot none k.caps
  | child {node child : Nat} {kind : CapKind} {badge : UInt32} {caps : List CapNode} (named : slot ≠ 0)
      (holds : Holds k id slot node) (live : resolve k.caps node = some (kind, badge))
      (minted : mintDerived k.caps node badge = some (child, caps)) : Derived k id slot (some child) caps

/-- The outcomes of an event. -/
inductive Did (k : Kernel) : Event → Kernel → Prop where
  | answer {self : Nat} {regs : SavedRegs} (current : k.sched.current = some self) (f : SavedRegs → SavedRegs) :
      Did k (.syscall regs) (reply (arrive k self regs) self f)
  | tick {s : Scheduler} (ran : k.sched.tick = .ok s) : Did k .tick (k.setSched s)
  | yield {self : Nat} {regs : SavedRegs} {s : Scheduler} (current : k.sched.current = some self)
      (ran : (reply (arrive k self regs) self (Ipc.setEax 0)).sched.tick = .ok s) : Did k (.syscall regs) (k.setSched s)
  | exit {self : Nat} {regs : SavedRegs} {core : Core} (current : k.sched.current = some self)
      (exits : Ipc.Exits (arrive k self regs).core core) : Did k (.syscall regs) { k with core }
  | fault {e : Event} {core : Core} (trap : e = .fault ∨ ∃ va value, e = .store va value)
      (exits : Ipc.Exits k.core core) : Did k e { k with core }
  | send {self endpoint node : Nat} {badge : UInt32} {regs : SavedRegs} {transfer : Option Nat} {caps : List CapNode}
      {core : Core} (current : k.sched.current = some self) (number : regs.eax = Syscall.sysSend)
      (holds : Holds k self regs.ebx node) (live : resolve k.caps node = some (.endpoint endpoint, badge))
      (derived : Derived k self regs.edi transfer caps)
      (sends : Ipc.Sends (arrive k self regs).core self endpoint (regs.ecx, regs.edx, regs.esi) transfer core) :
      Did k (.syscall regs) { k with caps, core }
  | recv {self endpoint node : Nat} {badge : UInt32} {regs : SavedRegs} {core : Core} {blocking : Bool}
      (current : k.sched.current = some self) (number : regs.eax = Syscall.sysRecv ∨ regs.eax = Syscall.sysTryRecv)
      (waits : blocking = true → regs.eax = Syscall.sysRecv) (holds : Holds k self regs.ebx node)
      (live : resolve k.caps node = some (.endpoint endpoint, badge))
      (receives : Ipc.Receives (arrive k self regs).core self endpoint blocking core) : Did k (.syscall regs) { k with core }
  | register {self endpoint node : Nat} {irq badge : UInt32} {regs : SavedRegs} (current : k.sched.current = some self)
      (number : regs.eax = Syscall.sysRegisterIrq) (holds : Holds k self regs.ebx node)
      (live : resolve k.caps node = some (.irqControl irq endpoint, badge)) (inside : irq.toNat < k.core.handlers.length) :
      Did k (.syscall regs) (reply { arrive k self regs with core := { (arrive k self regs).core with
        handlers := k.core.handlers.set irq.toNat (some endpoint), pic := k.core.pic.unmask irq.toUInt8 } } self
        (Ipc.setEax 0))
  | map {self node physBase len dir : Nat} {writable : Bool} {badge : UInt32} {regs : SavedRegs} {mm : Mm}
      (current : k.sched.current = some self) (number : regs.eax = Syscall.sysMapMemory)
      (holds : Holds k self regs.ebx node) (live : resolve k.caps node = some (.memoryGrant physBase len writable, badge))
      (own : ∃ task, k.sched.lookup self = some task ∧ task.pageDirPhys = dir)
      (private' : regs.ecx.toNat + len ≤ Paging.kernelVma)
      (ran : Paging.mapPages k.mm dir regs.ecx.toNat physBase ((len + 4095) / 4096) writable = .ok mm) :
      Did k (.syscall regs) (reply { arrive k self regs with mm } self (Ipc.setEax 0))
  | spawn {self : Nat} {regs : SavedRegs} {spawned : Option Nat} {k' : Kernel} (current : k.sched.current = some self)
      (number : regs.eax = Syscall.sysCreateTask ∨ regs.eax = Syscall.sysSpawnFromMemory)
      (ran : Loader.Spawning (arrive k self regs) [] spawned k') :
      Did k (.syscall regs) (reply k' self (Ipc.setEax (UInt32.ofNat (spawned.getD 0))))
  | endpointCreate {self : Nat} {slot : UInt32} {regs : SavedRegs} {s : Scheduler} (current : k.sched.current = some self)
      (number : regs.eax = Syscall.sysEndpointCreate)
      (ran : (arrive k self regs).sched.installCapFor self k.caps.length = .ok (slot, s)) :
      Did k (.syscall regs) (reply { k with
        caps := k.caps ++ [CapNode.fresh (.endpoint k.core.ipc.endpoints.length) 0]
        core := { k.core with sched := s, ipc := (k.core.ipc.createEndpoint self).2 } } self (Ipc.setEax slot))
  | mint {self node child : Nat} {slot : UInt32} {regs : SavedRegs} {caps : List CapNode} {s : Scheduler}
      (current : k.sched.current = some self) (number : regs.eax = Syscall.sysCapMintBadged)
      (holds : Holds k self regs.ebx node) (minted : mintDerived k.caps node regs.ecx = some (child, caps))
      (ran : (arrive k self regs).sched.installCapFor self child = .ok (slot, s)) :
      Did k (.syscall regs) (reply { k.setSched s with caps } self (Ipc.setEax slot))
  | revoke {self node : Nat} {regs : SavedRegs} (current : k.sched.current = some self)
      (number : regs.eax = Syscall.sysCapRevoke) (holds : Holds k self regs.ebx node) :
      Did k (.syscall regs) (reply { arrive k self regs with caps := revoke k.caps node } self (Ipc.setEax 0))
  | alloc {self phys dir : Nat} {slot : UInt32} {regs : SavedRegs} {frames : Bitmap} {mm : Mm} {s : Scheduler}
      (current : k.sched.current = some self) (number : regs.eax = Syscall.sysMemAlloc)
      (private' : regs.ebx.toNat + Syscall.pagesAsked regs.ecx * 4096 ≤ Paging.kernelVma)
      (allocated : Syscall.allocPages k.mm.frames (Syscall.pagesAsked regs.ecx) = some (phys, frames))
      (own : ∃ task, k.sched.lookup self = some task ∧ task.pageDirPhys = dir)
      (mapped : Paging.mapPages { k.mm with frames } dir regs.ebx.toNat phys (Syscall.pagesAsked regs.ecx) true = .ok mm)
      (ran : (arrive k self regs).sched.installCapFor self k.caps.length = .ok (slot, s)) :
      Did k (.syscall regs) (reply { k.setSched s with
        mm, caps := k.caps ++ [CapNode.fresh (.memoryGrant phys (Syscall.pagesAsked regs.ecx * 4096) true) 0] } self
        fun regs => { regs with eax := slot, ecx := UInt32.ofNat phys })
  | quiet {e : Event} (interrupt : (∃ scancode, e = .keyboard scancode) ∨ ∃ line, e = .irq line) : Did k e k
  | notify {e : Event} {endpoint : Nat} {irq data : UInt32} {pic : Pic} {core : Core}
      (interrupt : (∃ scancode, e = .keyboard scancode ∧ irq = 1 ∧ pic = k.core.pic) ∨
        ∃ line, e = .irq line ∧ irq = UInt32.ofNat (line.val + 2) ∧ pic = k.core.pic.mask irq.toUInt8)
      (handler : Ipc.handlerFor k.core irq.toNat = some endpoint)
      (notifies : Ipc.Notifies { k.core with pic } endpoint irq data core) : Did k e { k with core }
  | store {va : UInt32} {value : UInt8} {t : Translation} (walked : translate k.mm.mem k.cr3 va.toNat = some t)
      (may : t.user = true ∧ t.writable = true) :
      Did k (.store va value) { k with mm := { k.mm with mem := write8 k.mm.mem t.phys value } }

/-- The outcomes of a call of `kernel_main`. -/
inductive BootDid (k : Kernel) : BootCall → Kernel → Prop where
  | spawn {index : Nat} {ports : List UInt16} {spawned : Option Nat} {k' : Kernel}
      (ran : Loader.Spawning k ports spawned k') : BootDid k (.spawn index ports) k'
  | createEndpoint {owner : Nat} :
      BootDid k (.createEndpoint owner) { k with core := { k.core with ipc := (k.core.ipc.createEndpoint owner).2 } }
  | grant {task : Nat} {kind : CapKind} {slot : UInt32} {s : Scheduler}
      (ran : k.sched.installCapFor task k.caps.length = .ok (slot, s)) :
      BootDid k (.grant task kind) { k.setSched s with caps := k.caps ++ [CapNode.fresh kind 0] }
  | setNameserviceEndpoint {endpoint : Nat} : BootDid k (.setNameserviceEndpoint endpoint)
      { k with loader := { k.loader with nameserviceEndpoint := some endpoint } }
  | infoPage {task phys : Nat} {ioBase : UInt16} {frames : Bitmap} {slot : UInt32} {s : Scheduler}
      (allocated : allocFrame k.mm.frames = some (phys, frames))
      (ran : k.sched.installCapFor task k.caps.length = .ok (slot, s)) :
      BootDid k (.infoPage task ioBase) { k.setSched s with
        mm := { k.mm with frames, mem := write32 k.mm.mem phys ioBase.toNat }
        caps := k.caps ++ [CapNode.fresh (.memoryGrant phys 4096 false) 0] }
  | spawnIdle (room : k.mm.image.stackFits k.nextId = true) :
      BootDid k .spawnIdle { k.setSched (k.sched.spawn (Loader.newTask k .idle k.mm.image.bootDir [])) with
        nextId := k.nextId + 1 }
  | start {s : Scheduler} (ran : k.sched.start = .ok s) : BootDid k .start (k.setSched s)

section Inversion
variable {k k' : Kernel} {self : Nat} {regs : SavedRegs}

theorem current_arrive (k : Kernel) (self : Nat) (regs : SavedRegs) : (arrive k self regs).sched.current = k.sched.current :=
  (Scheduler.SameRotation.writeRegs k.sched self _).current

theorem lookup_arrive (k : Kernel) (self : Nat) (regs : SavedRegs) :
    (arrive k self regs).sched.lookup self = (k.sched.lookup self).map fun task => { task with regs } := by
  have found := k.sched.lookup_writeRegs self (fun _ => regs) self
  rwa [if_pos rfl] at found

theorem lookup_arrive_none {i : Nat} (missing : k.sched.lookup i = none) (self : Nat) (regs : SavedRegs) :
    (arrive k self regs).sched.lookup i = none := by
  have found := k.sched.lookup_writeRegs self (fun _ => regs) i
  by_cases same : i = self
  · rw [if_pos same, ← same, missing] at found
    rw [← same]
    exact found
  · rw [if_neg same, missing] at found
    exact found

theorem lookup_arrive_other {i : Nat} (other : i ≠ self) (regs : SavedRegs) :
    (arrive k self regs).sched.lookup i = k.sched.lookup i := by
  have found := k.sched.lookup_writeRegs self (fun _ => regs) i
  rwa [if_neg other] at found

variable {slot : UInt32} {task : Task}

section
variable (current : k.sched.current = some self)
include current

private theorem currentTask_arrive
    (ran : (arrive k self regs).sched.currentTask = .ok task) :
    ∃ before, k.sched.lookup self = some before ∧ task = { before with regs } := by
  obtain ⟨id, here, found⟩ := Scheduler.currentTask_eq_ok.mp ran
  rw [current_arrive, current, Option.some.injEq] at here
  subst here
  rw [lookup_arrive, Option.map_eq_some_iff] at found
  obtain ⟨before, held, rfl⟩ := found
  exact ⟨before, held, rfl⟩

private theorem currentCapNode_arrive {node : Option Nat}
    (ran : currentCapNode (arrive k self regs) slot = .ok node) :
    (∀ n, node = some n ↔ Holds k self slot n) := by
  obtain ⟨task, running, ran⟩ := bind_eq_ok.mp ran
  cases ran
  obtain ⟨before, held, rfl⟩ := currentTask_arrive current running
  intro n
  constructor
  · exact fun same => ⟨before, held, same⟩
  · rintro ⟨task, held', same⟩
    rw [held, Option.some.injEq] at held'
    subst held'
    exact same

theorem resolveCurrentCap_arrive {cap : Option (CapKind × UInt32)}
    (ran : resolveCurrentCap (arrive k self regs) slot = .ok cap) :
    ∀ c, cap = some c → ∃ node, Holds k self slot node ∧ resolve k.caps node = some c := by
  obtain ⟨node, named, ran⟩ := bind_eq_ok.mp ran
  cases ran
  intro c found
  obtain ⟨n, same, live⟩ := Option.bind_eq_some_iff.mp found
  exact ⟨n, (currentCapNode_arrive current named n).mp same, live⟩

theorem currentTask_arrive_eq (found : k.sched.lookup self = some task) :
    (arrive k self regs).sched.currentTask = .ok { task with regs } := by
  exact Scheduler.currentTask_eq_ok.mpr ⟨self, (current_arrive k self regs).trans current, by simp [lookup_arrive, found]⟩

theorem resolveCurrentCap_arrive_eq
    (found : k.sched.lookup self = some task) (slot : UInt32) :
    resolveCurrentCap (arrive k self regs) slot = .ok ((CSpace.get task.cspace slot).bind (resolve k.caps)) :=
  bind_eq_ok.mpr ⟨_, bind_eq_ok.mpr ⟨_, currentTask_arrive_eq current found, rfl⟩, rfl⟩

private theorem currentPageDirPhys_arrive {dir : Nat}
    (ran : (arrive k self regs).sched.currentPageDirPhys = .ok dir) :
    ∃ task, k.sched.lookup self = some task ∧ task.pageDirPhys = dir := by
  obtain ⟨task, running, ran⟩ := bind_eq_ok.mp ran
  cases ran
  obtain ⟨before, held, rfl⟩ := currentTask_arrive current running
  exact ⟨before, held, rfl⟩

theorem currentCspaceInstall_arrive {node : Nat} :
    (arrive k self regs).sched.currentCspaceInstall node = (arrive k self regs).sched.installCapFor self node := by
  unfold Scheduler.currentCspaceInstall
  rw [current_arrive, current]

theorem deriveTransfer_arrive {transfer : Option Nat} {caps : List CapNode}
    (ran : deriveTransfer (arrive k self regs) slot = .ok (transfer, caps)) : Derived k self slot transfer caps := by
  unfold deriveTransfer at ran
  split at ran
  · rename_i zero
    cases ran
    exact .none (.inl zero)
  · rename_i named
    obtain ⟨node, found, ran⟩ := bind_eq_ok.mp ran
    have held := currentCapNode_arrive current found
    split at ran
    · rename_i underivable
      cases ran
      refine .none (.inr fun n holds => ?_)
      rw [(held n).mpr holds, Option.bind_some] at underivable
      by_contra live
      obtain ⟨cap, resolved⟩ := Option.ne_none_iff_exists'.mp live
      rw [show resolve (arrive k self regs).caps n = some cap from resolved, Option.bind_some] at underivable
      exact mintDerived_of_resolve resolved cap.2 underivable
    · rename_i child caps' minted
      cases ran
      obtain ⟨src, same, minted⟩ := Option.bind_eq_some_iff.mp minted
      obtain ⟨⟨kind, badge⟩, live, minted⟩ := Option.bind_eq_some_iff.mp minted
      exact .child named ((held src).mp same) live minted

end

section Calls
variable (current : k.sched.current = some self)
include current

private theorem send_did (number : regs.eax = sysSend)
    (ran : send (arrive k self regs) self regs = .ok k') : Did k (.syscall regs) k' := by
  obtain ⟨cap, resolved, ran⟩ := bind_eq_ok.mp ran
  split at ran
  · rename_i endpoint badge
    obtain ⟨node, holds, live⟩ := resolveCurrentCap_arrive current resolved _ rfl
    obtain ⟨⟨transfer, caps⟩, derived, ran⟩ := bind_eq_ok.mp ran
    obtain ⟨core, sent, ran⟩ := bind_eq_ok.mp ran
    cases ran
    exact .send current number holds live (deriveTransfer_arrive current derived) (Ipc.send_sends sent)
  · cases ran
    exact .answer current _

private theorem recv_did (number : regs.eax = sysRecv)
    (ran : recv (arrive k self regs) self regs = .ok k') : Did k (.syscall regs) k' := by
  obtain ⟨cap, resolved, ran⟩ := bind_eq_ok.mp ran
  split at ran
  · rename_i endpoint badge
    obtain ⟨node, holds, live⟩ := resolveCurrentCap_arrive current resolved _ rfl
    obtain ⟨core, received, ran⟩ := bind_eq_ok.mp ran
    cases ran
    exact .recv current (.inl number) (fun _ => number) holds live (Ipc.recv_receives received)
  · cases ran
    exact .answer current _

private theorem tryRecv_did (number : regs.eax = sysTryRecv)
    (ran : tryRecv (arrive k self regs) self regs = .ok k') : Did k (.syscall regs) k' := by
  obtain ⟨cap, resolved, ran⟩ := bind_eq_ok.mp ran
  split at ran
  · rename_i endpoint badge
    obtain ⟨node, holds, live⟩ := resolveCurrentCap_arrive current resolved _ rfl
    obtain ⟨core, received, ran⟩ := bind_eq_ok.mp ran
    cases ran
    exact .recv current (.inr number) (fun waits => by cases waits) holds live (Ipc.tryRecv_receives received)
  · cases ran
    exact .answer current _

private theorem registerIrq_did (number : regs.eax = sysRegisterIrq)
    (ran : registerIrq (arrive k self regs) self regs = .ok k') : Did k (.syscall regs) k' := by
  obtain ⟨cap, resolved, ran⟩ := bind_eq_ok.mp ran
  split at ran
  · rename_i irq endpoint badge
    obtain ⟨node, holds, live⟩ := resolveCurrentCap_arrive current resolved _ rfl
    by_cases inside : irq.toNat < k.core.handlers.length
    · have registered : Ipc.register (arrive k self regs).core irq endpoint = (true, _) := if_pos inside
      rw [registered] at ran
      cases ran
      exact .register current number holds live inside
    · have rejected : Ipc.register (arrive k self regs).core irq endpoint = (false, _) := if_neg inside
      rw [rejected] at ran
      cases ran
      exact .answer current _
  · cases ran
    exact .answer current _

private theorem sysMap_did (number : regs.eax = sysMapMemory)
    (ran : sysMap (arrive k self regs) self regs = .ok k') : Did k (.syscall regs) k' := by
  obtain ⟨cap, resolved, ran⟩ := bind_eq_ok.mp ran
  split at ran
  · rename_i physBase len writable badge
    obtain ⟨node, holds, live⟩ := resolveCurrentCap_arrive current resolved _ rfl
    obtain ⟨⟨result, mm⟩, mapped, ran⟩ := bind_eq_ok.mp ran
    cases ran
    unfold mapMemory at mapped
    split at mapped
    · cases mapped
      exact .answer current _
    · split at mapped
      · cases mapped
        exact .answer current _
      · rename_i inRange
        obtain ⟨dir, own, mapped⟩ := bind_eq_ok.mp mapped
        obtain ⟨mm', loop, mapped⟩ := bind_eq_ok.mp mapped
        cases mapped
        exact .map current number holds live (currentPageDirPhys_arrive current own) (by omega) loop
  · cases ran
    exact .answer current _

private theorem createTask_did (number : regs.eax = sysCreateTask)
    (fresh : (arrive k self regs).sched.lookup k.nextId = none)
    (ran : createTask (arrive k self regs) self regs = .ok k') : Did k (.syscall regs) k' := by
  obtain ⟨⟨spawned, k1⟩, loaded, ran⟩ := bind_eq_ok.mp ran
  cases ran
  exact .spawn current (.inl number) (Loader.spawnFromModule_spawning fresh loaded)

private theorem spawnFromMemory_did (number : regs.eax = sysSpawnFromMemory)
    (fresh : (arrive k self regs).sched.lookup k.nextId = none)
    (ran : spawnFromMemory (arrive k self regs) self regs = .ok k') : Did k (.syscall regs) k' := by
  obtain ⟨grants, _, ran⟩ := bind_eq_ok.mp ran
  split at ran
  · cases ran
    exact .answer current _
  · obtain ⟨⟨spawned, k1⟩, loaded, ran⟩ := bind_eq_ok.mp ran
    cases ran
    exact .spawn current (.inr number) (Loader.spawnFromMemory_spawning fresh loaded)

private theorem endpointCreate_did (number : regs.eax = sysEndpointCreate)
    (ran : endpointCreate (arrive k self regs) self = .ok k') : Did k (.syscall regs) k' := by
  obtain ⟨⟨slot, s⟩, installed, ran⟩ := bind_eq_ok.mp ran
  cases ran
  rw [currentCspaceInstall_arrive current] at installed
  exact .endpointCreate current number installed

private theorem capMintBadged_did (number : regs.eax = sysCapMintBadged)
    (ran : capMintBadged (arrive k self regs) self regs = .ok k') : Did k (.syscall regs) k' := by
  obtain ⟨node, named, ran⟩ := bind_eq_ok.mp ran
  split at ran
  · cases ran
    exact .answer current _
  · rename_i child caps minted
    obtain ⟨⟨slot, s⟩, installed, ran⟩ := bind_eq_ok.mp ran
    cases ran
    obtain ⟨src, same, minted⟩ := Option.bind_eq_some_iff.mp minted
    rw [currentCspaceInstall_arrive current] at installed
    exact .mint current number ((currentCapNode_arrive current named src).mp same) minted installed

private theorem capRevoke_did (number : regs.eax = sysCapRevoke)
    (ran : capRevoke (arrive k self regs) self regs = .ok k') : Did k (.syscall regs) k' := by
  obtain ⟨node, named, ran⟩ := bind_eq_ok.mp ran
  split at ran
  · cases ran
    exact .answer current _
  · rename_i n
    cases ran
    exact .revoke current number ((currentCapNode_arrive current named n).mp rfl)

private theorem memAlloc_did (number : regs.eax = sysMemAlloc)
    (ran : memAlloc (arrive k self regs) self regs = .ok k') : Did k (.syscall regs) k' := by
  dsimp only [memAlloc] at ran
  split at ran
  · cases ran
    exact .answer current _
  · split at ran
    · cases ran
      exact .answer current _
    · rename_i inRange
      split at ran
      · cases ran
        exact .answer current _
      · rename_i phys frames allocated
        obtain ⟨dir, own, ran⟩ := bind_eq_ok.mp ran
        obtain ⟨mm, mapped, ran⟩ := bind_eq_ok.mp ran
        obtain ⟨⟨slot, s⟩, installed, ran⟩ := bind_eq_ok.mp ran
        cases ran
        rw [currentCspaceInstall_arrive current] at installed
        exact .alloc current number (by omega) allocated (currentPageDirPhys_arrive current own) mapped installed

end Calls

private theorem dispatch_did (fresh : k.sched.lookup k.nextId = none) (ran : dispatch k regs = .ok k') :
    Did k (.syscall regs) k' := by
  unfold dispatch at ran
  split at ran
  · cases ran
  · rename_i self current
    have fresh' := lookup_arrive_none fresh self regs
    -- the calls in the order in which their numbers are compared
    by_cases exit : regs.eax = sysExit
    · rw [if_pos exit] at ran
      obtain ⟨core, exited, ran⟩ := bind_eq_ok.mp ran
      cases ran
      exact .exit current (Ipc.exitCurrent_exits exited)
    rw [if_neg exit] at ran
    by_cases yield : regs.eax = sysYield
    · rw [if_pos yield] at ran
      obtain ⟨s, ticked, ran⟩ := bind_eq_ok.mp ran
      cases ran
      exact .yield current ticked
    rw [if_neg yield] at ran
    by_cases send : regs.eax = sysSend
    · rw [if_pos send] at ran
      exact send_did current send ran
    rw [if_neg send] at ran
    by_cases recv : regs.eax = sysRecv
    · rw [if_pos recv] at ran
      exact recv_did current recv ran
    rw [if_neg recv] at ran
    by_cases tryRecv : regs.eax = sysTryRecv
    · rw [if_pos tryRecv] at ran
      exact tryRecv_did current tryRecv ran
    rw [if_neg tryRecv] at ran
    by_cases getpid : regs.eax = sysGetpid
    · rw [if_pos getpid] at ran
      cases ran
      exact .answer current _
    rw [if_neg getpid] at ran
    by_cases registerIrq : regs.eax = sysRegisterIrq
    · rw [if_pos registerIrq] at ran
      exact registerIrq_did current registerIrq ran
    rw [if_neg registerIrq] at ran
    by_cases mapMemory : regs.eax = sysMapMemory
    · rw [if_pos mapMemory] at ran
      exact sysMap_did current mapMemory ran
    rw [if_neg mapMemory] at ran
    by_cases createTask : regs.eax = sysCreateTask
    · rw [if_pos createTask] at ran
      exact createTask_did current createTask fresh' ran
    rw [if_neg createTask] at ran
    by_cases endpointCreate : regs.eax = sysEndpointCreate
    · rw [if_pos endpointCreate] at ran
      exact endpointCreate_did current endpointCreate ran
    rw [if_neg endpointCreate] at ran
    by_cases capMintBadged : regs.eax = sysCapMintBadged
    · rw [if_pos capMintBadged] at ran
      exact capMintBadged_did current capMintBadged ran
    rw [if_neg capMintBadged] at ran
    by_cases capRevoke : regs.eax = sysCapRevoke
    · rw [if_pos capRevoke] at ran
      exact capRevoke_did current capRevoke ran
    rw [if_neg capRevoke] at ran
    by_cases memAlloc : regs.eax = sysMemAlloc
    · rw [if_pos memAlloc] at ran
      exact memAlloc_did current memAlloc ran
    rw [if_neg memAlloc] at ran
    by_cases spawnFromMemory : regs.eax = sysSpawnFromMemory
    · rw [if_pos spawnFromMemory] at ran
      exact spawnFromMemory_did current spawnFromMemory fresh' ran
    rw [if_neg spawnFromMemory] at ran
    by_cases reboot : regs.eax = sysReboot
    · rw [if_pos reboot] at ran
      obtain ⟨cap, _, ran⟩ := bind_eq_ok.mp ran
      split at ran
      · cases ran
      · cases ran
        exact .answer current _
    rw [if_neg reboot] at ran
    cases ran
    exact .answer current _

theorem dispatch_send (current : k.sched.current = some self) (number : regs.eax = sysSend) :
    dispatch k regs = send (arrive k self regs) self regs := by
  unfold dispatch
  rw [current]
  dsimp only
  rw [if_neg (by rw [number]; decide), if_neg (by rw [number]; decide), if_pos number]
  rfl

theorem dispatch_recv (current : k.sched.current = some self) (number : regs.eax = sysRecv) :
    dispatch k regs = recv (arrive k self regs) self regs := by
  unfold dispatch
  rw [current]
  dsimp only
  rw [if_neg (by rw [number]; decide), if_neg (by rw [number]; decide), if_neg (by rw [number]; decide), if_pos number]
  rfl

/-- A step has one of the listed outcomes. -/
theorem step_did {e : Event} (fresh : k.sched.lookup k.nextId = none) (ran : step k e = .ok k') : Did k e k' := by
  cases e with
  | syscall regs => exact dispatch_did fresh ran
  | tick =>
    obtain ⟨s, ticked, ran⟩ := bind_eq_ok.mp ran
    cases ran
    exact .tick ticked
  | keyboard scancode =>
    obtain ⟨core, handled, ran⟩ := bind_eq_ok.mp ran
    cases ran
    unfold Ipc.keyboard at handled
    split at handled
    · cases handled
      exact .quiet (.inl ⟨scancode, rfl⟩)
    · rename_i endpoint handler
      refine .notify (.inl ⟨scancode, rfl, rfl, rfl⟩) ?_ (Ipc.notifyInterrupt_notifies handled)
      exact handler
  | irq line =>
    obtain ⟨core, handled, ran⟩ := bind_eq_ok.mp ran
    cases ran
    unfold Ipc.dispatch at handled
    split at handled
    · cases handled
      exact .quiet (.inr ⟨line, rfl⟩)
    · rename_i endpoint handler
      exact .notify (.inr ⟨line, rfl, rfl, rfl⟩) handler (Ipc.notifyInterrupt_notifies handled)
  | fault =>
    obtain ⟨core, exited, ran⟩ := bind_eq_ok.mp ran
    cases ran
    exact .fault (.inl rfl) (Ipc.exitCurrent_exits exited)
  | store va value =>
    change userStore k va value = .ok k' at ran
    unfold userStore at ran
    split at ran
    · rename_i t walked
      split at ran
      · rename_i may
        cases ran
        exact .store walked (by simpa using may)
      · obtain ⟨core, exited, ran⟩ := bind_eq_ok.mp ran
        cases ran
        exact .fault (.inr ⟨va, value, rfl⟩) (Ipc.exitCurrent_exits exited)
    · obtain ⟨core, exited, ran⟩ := bind_eq_ok.mp ran
      cases ran
      exact .fault (.inr ⟨va, value, rfl⟩) (Ipc.exitCurrent_exits exited)

/-- A call of the boot has one of the listed outcomes. -/
theorem bootCall_did {c : BootCall} {result : Nat} (fresh : k.sched.lookup k.nextId = none)
    (ran : c.run k = .ok (result, k')) : BootDid k c k' := by
  cases c with
  | spawn index ports =>
    obtain ⟨⟨spawned, k1⟩, loaded, ran⟩ := bind_eq_ok.mp ran
    cases ran
    exact .spawn (Loader.spawnFromModule_spawning fresh loaded)
  | createEndpoint owner =>
    cases ran
    exact .createEndpoint
  | grant task kind =>
    obtain ⟨⟨slot, k1⟩, granted, ran⟩ := bind_eq_ok.mp ran
    cases ran
    obtain ⟨s, installed, rfl⟩ := Loader.grantCap_eq_ok granted
    exact .grant installed
  | setNameserviceEndpoint endpoint =>
    cases ran
    exact .setNameserviceEndpoint
  | infoPage task ioBase =>
    obtain ⟨⟨phys, mm⟩, allocated, ran⟩ := bind_eq_ok.mp ran
    obtain ⟨⟨slot, k1⟩, granted, ran⟩ := bind_eq_ok.mp ran
    cases ran
    obtain ⟨s, installed, rfl⟩ := Loader.grantCap_eq_ok granted
    unfold allocOr at allocated
    split at allocated
    · cases allocated
    · rename_i phys' frames alloc
      cases allocated
      exact .infoPage alloc installed
  | spawnIdle =>
    obtain ⟨room, _, rfl⟩ := Loader.addTask_eq_ok ran
    exact .spawnIdle room
  | start =>
    obtain ⟨s, started, ran⟩ := bind_eq_ok.mp ran
    cases ran
    exact .start started

theorem bringUp_eq_ok {p : Platform} (up : bringUp p = .ok k) :
    ∃ total mm mm', Multiboot.totalMemoryBytes (startupMemory p) p.image.bootDir p.info = .ok (some total) ∧
      entriesNeeded total ≤ 128 ∧ smokeTest (memoryInit p total) = .ok mm ∧ reserveAllModules mm p.info = .ok mm' ∧
      k = withoutTasks mm' p.info := by
  obtain ⟨size, read, up⟩ := bind_eq_ok.mp up
  split at up
  · cases up
  · rename_i total
    split at up
    · cases up
    · rename_i small
      obtain ⟨mm, tested, up⟩ := bind_eq_ok.mp up
      obtain ⟨mm', reserved, up⟩ := bind_eq_ok.mp up
      cases up
      exact ⟨total, mm, mm', read, by omega, tested, reserved, rfl⟩

end Inversion

end Pcern

import Pcern.Capabilities
import Pcern.Ipc
import Pcern.Paging

/-!
The state of the kernel, and the loading of programs, after `multiboot.rs`,
`loader.rs` and the constructors of `task.rs`.

Two things here read memory through the page directory that happens to be
active: the multiboot structures, at their low addresses, and the bytes of a
program, in the window at `PHYS_MAP_BASE`. Addresses are 32 bits wide and wrap.
A page that is not present is a fault in ring 0, which stops the kernel.

The kernel heap is modelled by its largest tenants only: it has room for sixteen
kernel stacks.
-/
namespace Pcern
open Bytes Capabilities Pcern.Frame Loops PageTables

/-- The statics of `loader.rs`. -/
structure Loader where
  mbInfo : Option Nat
  nameserviceEndpoint : Option Nat

structure Kernel where
  mm : Mm
  caps : List CapNode
  core : Core
  nextId : Nat
  loader : Loader

namespace Kernel

abbrev sched (k : Kernel) : Scheduler := k.core.sched

/-- The active page directory: the current task's, and the boot directory before there is one. -/
def cr3 (k : Kernel) : Nat :=
  match k.sched.current.bind k.sched.lookup with
  | some task => task.pageDirPhys
  | none => k.mm.image.bootDir

def setSched (k : Kernel) (sched : Scheduler) : Kernel := { k with core := { k.core with sched } }

end Kernel

namespace Multiboot

structure Module where
  start : Nat
  stop : Nat
  deriving DecidableEq, Repr

/-- A word read by the kernel at a virtual address. -/
def readWord (m : Memory) (cr3 va : Nat) : Except Stop Nat :=
  match load32 m cr3 va with
  | some w => .ok w
  | none => .error .kernelFault

/-- `total_memory_bytes` of the information at `info`: the flags word, then `mem_upper`. -/
def totalMemoryBytes (m : Memory) (cr3 info : Nat) : Except Stop (Option Nat) := do
  let flags ← readWord m cr3 info
  if !flags.testBit 0 then .ok none
  else do
    let memUpper ← readWord m cr3 (info + 8)
    .ok (some ((0x100000 + memUpper * 1024) % 2 ^ 32))

def moduleCount (m : Memory) (cr3 info : Nat) : Except Stop Nat := do
  let flags ← readWord m cr3 info
  if !flags.testBit 3 then .ok 0 else readWord m cr3 (info + 20)

/-- `module`: the flags, the count at offset 20, the table's address at 24, and a 16-byte row of the table. -/
def module (m : Memory) (cr3 info index : Nat) : Except Stop (Option Module) := do
  let flags ← readWord m cr3 info
  if !flags.testBit 3 then .ok none
  else do
    let modsCount ← readWord m cr3 (info + 20)
    if modsCount ≤ index then .ok none
    else do
      let modsAddr ← readWord m cr3 (info + 24)
      let entry := modsAddr + index * 16
      let start ← readWord m cr3 entry
      let stop ← readWord m cr3 (entry + 4)
      .ok (some { start, stop })

end Multiboot

namespace Loader
open Multiboot

abbrev userCodeBase : Nat := 0x400000
abbrev userStackTop : Nat := 0x800000
abbrev userStackPages : Nat := 4

/-- How a loop of `spawn_with_code_pages` ends early: the kernel stops, or the
    function returns `None` and keeps what it has allocated. -/
inductive Early where
  | stop (reason : Stop)
  | giveUp (mm : Mm)

/-- `len` bytes copied through the window at `PHYS_MAP_BASE` into the frame at `dst`. -/
def copyPage (mm : Mm) (cr3 srcPhys dst len : Nat) : Except Stop Memory :=
  let src := Paging.physMapBase + srcPhys
  if (load8 mm.mem cr3 (src % 2 ^ 32)).isSome && (load8 mm.mem cr3 ((src + len - 1) % 2 ^ 32)).isSome then
    .ok (copyFrom mm.mem (fun j => (load8 mm.mem cr3 ((src + j) % 2 ^ 32)).getD 0) dst len)
  else .error .kernelFault

/-- The contents of code page `i`: the program's bytes and zeroes behind them. -/
def fillPage (mm : Mm) (cr3 totalLen : Nat) (pagePhys : Nat → Nat) (i phys : Nat) : Except Stop Mm := do
  let copyLen := min (totalLen - i * 4096) 4096
  let mem ← if 0 < copyLen then copyPage mm cr3 (pagePhys i) phys copyLen else .ok mm.mem
  .ok { mm with mem := if copyLen < 4096 then fill mem (phys + copyLen) (4096 - copyLen) 0 else mem }

/-- A frame for a page of the new address space, mapped for ring 3. -/
def userPage (mm : Mm) (dir virtAddr : Nat) : Except Early (Nat × Mm) :=
  match allocFrame mm.frames with
  | none => .error (.giveUp mm)
  | some (phys, frames) =>
    match Paging.mapPage { mm with frames } dir virtAddr phys true true with
    | .error reason => .error (.stop reason)
    | .ok mm => .ok (phys, mm)

def codePage (cr3 dir totalLen : Nat) (pagePhys : Nat → Nat) (i : Nat) (mm : Mm) : Except Early Mm := do
  let (phys, mm) ← userPage mm dir (userCodeBase + i * 4096)
  match fillPage mm cr3 totalLen pagePhys i phys with
  | .error reason => .error (.stop reason)
  | .ok mm => .ok mm

def stackPage (dir i : Nat) (mm : Mm) : Except Early Mm := do
  let (_, mm) ← userPage mm dir (userStackTop - (i + 1) * 4096)
  .ok mm

/-- The address space of a new program: its code, then its stack. -/
def buildPages (cr3 dir totalLen : Nat) (pagePhys : Nat → Nat) (mm : Mm) : Except Early Mm := do
  let mm ← forRange (codePage cr3 dir totalLen pagePhys) (max ((totalLen + 4095) / 4096) 1) mm
  forRange (stackPage dir) userStackPages mm

/-- `Task::new_user` and `Task::new_kernel`. -/
def newTask (k : Kernel) (entry : Entry) (pageDirPhys : Nat) (allowedPorts : List UInt16) : Task :=
  { id := k.nextId, state := .ready, entry, pageDirPhys, allowedPorts, cspace := CSpace.new, regs := .zero }

/-- A task with the next id and a kernel stack of its own, put into the rotation. -/
def addTask (k : Kernel) (entry : Entry) (pageDirPhys : Nat) (allowedPorts : List UInt16) : Except Stop (Nat × Kernel) :=
  if !k.mm.image.stackFits k.nextId then .error .heapExhausted
  else
    let task := newTask k entry pageDirPhys allowedPorts
    .ok (k.nextId, { k.setSched (k.sched.spawn task) with nextId := k.nextId + 1 })

def grantCap (k : Kernel) (taskId : Nat) (kind : CapKind) : Except Stop (UInt32 × Kernel) := do
  let (node, caps) := mintRoot k.caps kind
  let (slot, sched) ← k.sched.installCapFor taskId node
  .ok (slot, { k.setSched sched with caps })

def spawnWithCodePages (k : Kernel) (totalLen : Nat) (pagePhys : Nat → Nat) (allowedPorts : List UInt16) :
    Except Stop (Option Nat × Kernel) := do
  let (dir, mm) ← Paging.newDirectory k.mm
  match buildPages k.cr3 dir totalLen pagePhys mm with
  | .error (.stop reason) => .error reason
  | .error (.giveUp mm) => .ok (none, { k with mm })
  | .ok mm => do
    let entry := .user (UInt32.ofNat userCodeBase) (UInt32.ofNat userStackTop)
    let (id, k) ← addTask { k with mm } entry dir allowedPorts
    match k.loader.nameserviceEndpoint with
    | none => .ok (some id, k)
    | some endpoint => do
      let (_, k) ← grantCap k id (.endpoint endpoint)
      .ok (some id, k)

def spawnFromModule (k : Kernel) (index : Nat) (allowedPorts : List UInt16) : Except Stop (Option Nat × Kernel) :=
  match k.loader.mbInfo with
  | none => .error .notInitialized
  | some info => do
    match ← module k.mm.mem k.cr3 info index with
    | none => .ok (none, k)
    | some m =>
      let moduleLen := (m.stop + 2 ^ 32 - m.start) % 2 ^ 32
      spawnWithCodePages k moduleLen (fun i => (m.start + i * 4096) % 2 ^ 32) allowedPorts

def spawnFromMemory (k : Kernel) (grants : List Nat) (totalLen : Nat) : Except Stop (Option Nat × Kernel) :=
  if grants.isEmpty || totalLen == 0 || decide (grants.length * 4096 < totalLen) then .ok (none, k)
  else spawnWithCodePages k totalLen (fun i => grants.getD i 0) []

/-! ## What a spawn does -/

/-- `k'` is `k` with the task `t` at the end of the rotation; memory and capabilities may differ. -/
structure Admitted (k k' : Kernel) (t : Task) : Prop where
  sched : k'.sched = k.sched.spawn t
  ipc : k'.core.ipc = k.core.ipc
  handlers : k'.core.handlers = k.core.handlers
  pic : k'.core.pic = k.core.pic
  loader : k'.loader = k.loader
  nextId : k'.nextId = k.nextId + 1
  id : t.id = k.nextId
  state : t.state = .ready
  regs : t.regs = .zero
  room : k'.mm.image.stackFits k.nextId = true

variable {k k' : Kernel} {id : Nat}

/-- A task that is admitted comes last. -/
theorem Admitted.tasks {t : Task} (admitted : Admitted k k' t) : k'.sched.tasks = k.sched.tasks ++ [t] := by
  rw [admitted.sched]
  rfl

theorem Admitted.current {t : Task} (admitted : Admitted k k' t) : k'.sched.current = k.sched.current := by
  rw [admitted.sched]
  rfl

theorem addTask_eq_ok {entry : Entry} {dir : Nat} {ports : List UInt16} (ran : addTask k entry dir ports = .ok (id, k')) :
    k.mm.image.stackFits k.nextId = true ∧ id = k.nextId ∧
      k' = { k.setSched (k.sched.spawn (newTask k entry dir ports)) with nextId := k.nextId + 1 } := by
  unfold addTask at ran
  split at ran
  · cases ran
  · rename_i room
    cases ran
    exact ⟨by simpa using room, rfl, rfl⟩

theorem grantCap_eq_ok {kind : CapKind} {slot : UInt32} (ran : grantCap k id kind = .ok (slot, k')) :
    ∃ sched, k.sched.installCapFor id k.caps.length = .ok (slot, sched) ∧
      k' = { k.setSched sched with caps := k.caps ++ [CapNode.fresh kind 0] } := by
  unfold grantCap at ran
  obtain ⟨⟨slot', sched⟩, installed, ran⟩ := bind_eq_ok.mp ran
  cases ran
  exact ⟨sched, installed, rfl⟩

/-- The capability table of a freshly loaded program: empty, or with the name service in slot 1. -/
inductive Endowed (k k' : Kernel) (t : Task) : Prop where
  | bare (absent : k.loader.nameserviceEndpoint = none) (slots : t.cspace = [none]) (caps : k'.caps = k.caps)
  | nameservice {endpoint : Nat} (known : k.loader.nameserviceEndpoint = some endpoint)
      (slots : t.cspace = [none, some k.caps.length]) (caps : k'.caps = k.caps ++ [CapNode.fresh (.endpoint endpoint) 0])

/-- What a request to load a program comes to: nothing, memory taken in vain, or one more task with an
    address space of its own. -/
inductive Spawning (k : Kernel) (ports : List UInt16) : Option Nat → Kernel → Prop where
  | refused : Spawning k ports none k
  | gaveUp {dir totalLen : Nat} {pagePhys : Nat → Nat} {mid mm : Mm} (made : Paging.newDirectory k.mm = .ok (dir, mid))
      (left : buildPages k.cr3 dir totalLen pagePhys mid = .error (.giveUp mm)) : Spawning k ports none { k with mm }
  | loaded {dir totalLen : Nat} {pagePhys : Nat → Nat} {mid : Mm} {k' : Kernel} {t : Task}
      (made : Paging.newDirectory k.mm = .ok (dir, mid)) (built : buildPages k.cr3 dir totalLen pagePhys mid = .ok k'.mm)
      (admitted : Admitted k k' t) (own : t.pageDirPhys = dir)
      (entry : t.entry = .user (UInt32.ofNat userCodeBase) (UInt32.ofNat userStackTop)) (given : t.allowedPorts = ports)
      (endowed : Endowed k k' t) : Spawning k ports (some k.nextId) k'

variable {ports : List UInt16} {spawned : Option Nat}

theorem spawnWithCodePages_eq_ok {totalLen : Nat} {pagePhys : Nat → Nat} (fresh : k.sched.lookup k.nextId = none)
    (ran : spawnWithCodePages k totalLen pagePhys ports = .ok (spawned, k')) :
    ∃ dir mid, Paging.newDirectory k.mm = .ok (dir, mid) ∧
      ((∃ mm, buildPages k.cr3 dir totalLen pagePhys mid = .error (.giveUp mm) ∧ spawned = none ∧ k' = { k with mm }) ∨
        buildPages k.cr3 dir totalLen pagePhys mid = .ok k'.mm ∧ spawned = some k.nextId ∧ ∃ t, Admitted k k' t ∧
          t.pageDirPhys = dir ∧ t.entry = .user (UInt32.ofNat userCodeBase) (UInt32.ofNat userStackTop) ∧
          t.allowedPorts = ports ∧ Endowed k k' t) := by
  unfold spawnWithCodePages at ran
  obtain ⟨⟨dir, mid⟩, made, ran⟩ := bind_eq_ok.mp ran
  refine ⟨dir, mid, made, ?_⟩
  dsimp only at ran
  split at ran
  · cases ran
  · rename_i mm gaveUp
    cases ran
    exact .inl ⟨mm, gaveUp, rfl, rfl⟩
  · rename_i mm built
    obtain ⟨⟨id, k1⟩, added, ran⟩ := bind_eq_ok.mp ran
    obtain ⟨room, rfl, rfl⟩ := addTask_eq_ok added
    dsimp only at ran
    split at ran
    · rename_i absent
      cases ran
      exact .inr ⟨built, rfl, _, ⟨rfl, rfl, rfl, rfl, rfl, rfl, rfl, rfl, rfl, room⟩, rfl, rfl, rfl, .bare absent rfl rfl⟩
    · rename_i endpoint known
      obtain ⟨⟨slot, k2⟩, granted, ran⟩ := bind_eq_ok.mp ran
      cases ran
      obtain ⟨sched, installed, rfl⟩ := grantCap_eq_ok granted
      -- the new task is found again, and its table gets the capability
      have placed := Scheduler.installCapFor_spawn fresh k.caps.length
        (t := newTask { k with mm } (.user (UInt32.ofNat userCodeBase) (UInt32.ofNat userStackTop)) dir ports)
      cases placed.symm.trans installed
      exact .inr ⟨built, rfl, _, ⟨rfl, rfl, rfl, rfl, rfl, rfl, rfl, rfl, rfl, room⟩, rfl, rfl, rfl, .nameservice known rfl rfl⟩

private theorem spawnWithCodePages_spawning {totalLen : Nat} {pagePhys : Nat → Nat} (fresh : k.sched.lookup k.nextId = none)
    (ran : spawnWithCodePages k totalLen pagePhys ports = .ok (spawned, k')) : Spawning k ports spawned k' := by
  obtain ⟨dir, mid, made, ⟨mm, left, rfl, rfl⟩ | ⟨built, rfl, t, admitted, own, entry, given, endowed⟩⟩ :=
    spawnWithCodePages_eq_ok fresh ran
  · exact .gaveUp made left
  · exact .loaded made built admitted own entry given endowed

/-- `spawn_from_module` either spawns one task or leaves those there are alone. -/
theorem spawnFromModule_spawning {index : Nat} (fresh : k.sched.lookup k.nextId = none)
    (ran : spawnFromModule k index ports = .ok (spawned, k')) : Spawning k ports spawned k' := by
  unfold spawnFromModule at ran
  split at ran
  · cases ran
  · obtain ⟨found, _, ran⟩ := bind_eq_ok.mp ran
    split at ran
    · cases ran
      exact .refused
    · exact spawnWithCodePages_spawning fresh ran

theorem spawnFromMemory_spawning {grants : List Nat} {totalLen : Nat} (fresh : k.sched.lookup k.nextId = none)
    (ran : spawnFromMemory k grants totalLen = .ok (spawned, k')) : Spawning k [] spawned k' := by
  unfold spawnFromMemory at ran
  split at ran
  · cases ran
    exact .refused
  · exact spawnWithCodePages_spawning fresh ran

end Loader
end Pcern

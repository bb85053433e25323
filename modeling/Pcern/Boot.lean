import Pcern.Syscalls

/-!
The system as a whole: memory bring-up and the spawns of `kernel_main`, and then
the steps of the running machine.

`kernelMain` is the production boot. Each call it makes on the rest of the
kernel (`BootCall`) is recorded with the states before and after it, and so is
each later step; a `Run` is a boot followed by any steps, with its history.
`Wiring` forgets which calls the boot makes: it allows any that a boot could
make before `scheduler::start`, and everything proved about it holds of runs
(`Run.wiring`).

Timer ticks and interrupts during the boot find no current task and no handler;
they change nothing and are left out.
-/
namespace Pcern
open Bytes Capabilities Pcern.Frame Loops PageTables

/-- What the machine does to the kernel once tasks run. -/
inductive Event where
  | syscall (regs : SavedRegs)
  | tick
  | keyboard (scancode : UInt8)
  | irq (line : Fin 14)
  | fault
  | store (va : UInt32) (value : UInt8)
  deriving DecidableEq, Repr

/-- A store of the current task: into a page it may write, or a page fault, which ends the task. -/
def userStore (k : Kernel) (va : UInt32) (value : UInt8) : Except Stop Kernel :=
  match translate k.mm.mem k.cr3 va.toNat with
  | some t =>
    if t.user && t.writable then .ok { k with mm := { k.mm with mem := write8 k.mm.mem t.phys value } }
    else Syscall.exit k
  | none => Syscall.exit k

/-- One step. The generic interrupt stubs serve the lines 2 to 15. -/
def step (k : Kernel) : Event → Except Stop Kernel
  | .syscall regs => Syscall.dispatch k regs
  | .tick => do
    let sched ← k.sched.tick
    .ok (k.setSched sched)
  | .keyboard scancode => do
    let core ← Ipc.keyboard k.core scancode
    .ok { k with core }
  | .irq line => do
    let core ← Ipc.dispatch k.core (UInt32.ofNat (line.val + 2)) 0
    .ok { k with core }
  | .fault => Syscall.exit k
  | .store va value => userStore k va value

def Kernel.runningTask (k : Kernel) : Option Task := k.sched.current.bind k.sched.lookup

/-- Which events the running task can cause: the idle loop makes no system call,
    does not fault and stores nothing. Interrupts come at any time. -/
def enabled (k : Kernel) : Event → Bool
  | .syscall _ | .fault | .store _ _ => k.runningTask.any fun task => task.entry ≠ .idle
  | .tick | .keyboard _ | .irq _ => k.runningTask.isSome

/-! ## Boot -/

/-- The RTL8139 as PCI enumeration finds it. -/
structure Nic where
  bar0 : UInt32
  interruptLine : UInt8
  deriving DecidableEq, Repr

/-- What a boot starts from: the kernel image, memory as the boot loader leaves
    it (the boot directory is zero-filled), the address of the multiboot
    information, and the network card if there is one. -/
structure Platform where
  image : Image
  mem : Memory
  info : Nat
  nic : Option Nic
  blank : ∀ a, image.bootDir ≤ a → a < image.bootDir + 4096 → mem a = 0
  addressable : info < 2 ^ 32

/-- The start-up code maps the first 4 MiB twice. -/
def startupMemory (p : Platform) : Memory :=
  write32 (write32 p.mem (p.image.bootDir + 4 * 0) 0x83) (p.image.bootDir + 4 * 768) 0x83

/-- `paging::init`: 4 MiB pages for all of memory from `PHYS_MAP_BASE` on. -/
def physMap (m : Memory) (bootDir entriesNeeded : Nat) : Memory :=
  (List.range entriesNeeded).foldl (fun m i => write32 m (bootDir + 4 * (896 + i)) (i * 0x400000 ||| 0x83)) m

def allocOr (reason : Stop) (mm : Mm) : Except Stop (Nat × Mm) :=
  match allocFrame mm.frames with
  | none => .error reason
  | some (phys, frames) => .ok (phys, { mm with frames })

/-- `frame_and_paging_smoke_test`. -/
def smokeTest (mm : Mm) : Except Stop Mm := do
  let (f1, mm) ← allocOr .smokeTest mm
  let (f2, mm) ← allocOr .smokeTest mm
  if f1 = f2 then .error .smokeTest
  else do
    let (f3, mm) ← allocOr .smokeTest { mm with frames := freeFrame mm.frames f1 }
    if f3 ≠ f1 then .error .smokeTest
    else do
      let frames := freeFrame (freeFrame mm.frames f2) f3
      let (_, mm) ← Paging.newDirectory { mm with frames }
      .ok mm

/-- `loader::reserve_all_modules`, under the boot directory. -/
def reserveAllModules (mm : Mm) (info : Nat) : Except Stop Mm := do
  let count ← Multiboot.moduleCount mm.mem mm.image.bootDir info
  forRange (fun i mm => do
    match ← Multiboot.module mm.mem mm.image.bootDir info i with
    | none => .ok mm
    | some m => .ok { mm with frames := reserveRange mm.frames m.start m.stop }) count mm

/-- The 4 MiB pages that `paging::init` needs. -/
def entriesNeeded (total : Nat) : Nat := (total + 0x3FFFFF) / 0x400000

def memoryInit (p : Platform) (total : Nat) : Mm :=
  { image := p.image, frames := Frame.init total p.image.kernelEnd,
    mem := physMap (startupMemory p) p.image.bootDir (entriesNeeded total) }

def withoutTasks (mm : Mm) (info : Nat) : Kernel :=
  { mm, caps := [], nextId := 1, loader := { mbInfo := some info, nameserviceEndpoint := none },
    core := { sched := .empty, ipc := .empty, handlers := List.replicate 16 none, pic := .init } }

/-- `kernel_main` up to the first spawn. -/
def bringUp (p : Platform) : Except Stop Kernel := do
  match ← Multiboot.totalMemoryBytes (startupMemory p) p.image.bootDir p.info with
  | none => .error .noMemorySize
  | some total =>
    if 1024 < 896 + entriesNeeded total then .error .memoryTooLarge
    else do
      let mm ← smokeTest (memoryInit p total)
      let mm ← reserveAllModules mm p.info
      .ok (withoutTasks mm p.info)

/-- The calls of `kernel_main` on the rest of the kernel. -/
inductive BootCall where
  | spawn (index : Nat) (allowedPorts : List UInt16)
  | createEndpoint (owner : Nat)
  | grant (task : Nat) (kind : CapKind)
  | setNameserviceEndpoint (endpoint : Nat)
  | infoPage (task : Nat) (ioBase : UInt16)
  | spawnIdle
  | start

/-- The page that tells the network driver its ports: a fresh frame with the port
    base in its first word, granted read-only. -/
def grantInfoPage (k : Kernel) (task : Nat) (ioBase : UInt16) : Except Stop (Nat × Kernel) := do
  let (phys, mm) ← allocOr .outOfMemory k.mm
  let mm := { mm with mem := write32 mm.mem phys ioBase.toNat }
  let (slot, k) ← Loader.grantCap { k with mm } task (.memoryGrant phys 4096 false)
  .ok (slot.toNat, k)

/-- A call and its result: a task or endpoint id, or a slot. A spawn without a module or without memory
    gives 0, which no task has as its id. -/
def BootCall.run (k : Kernel) : BootCall → Except Stop (Nat × Kernel)
  | .spawn index allowedPorts => do
    let (spawned, k) ← Loader.spawnFromModule k index allowedPorts
    .ok (spawned.getD 0, k)
  | .createEndpoint owner =>
    let (endpoint, ipc) := k.core.ipc.createEndpoint owner
    .ok (endpoint, { k with core := { k.core with ipc } })
  | .grant task kind => do
    let (slot, k) ← Loader.grantCap k task kind
    .ok (slot.toNat, k)
  | .setNameserviceEndpoint endpoint =>
    .ok (0, { k with loader := { k.loader with nameserviceEndpoint := some endpoint } })
  | .infoPage task ioBase => grantInfoPage k task ioBase
  | .spawnIdle => Loader.addTask k .idle k.mm.image.bootDir []
  | .start => do
    let sched ← k.sched.start
    .ok (0, k.setSched sched)

/-- What was done to the kernel in one record of a history. -/
inductive Action where
  | boot (call : BootCall)
  | event (event : Event)

/-- A call or a step, with the states around it. -/
structure Record where
  pre : Kernel
  action : Action
  post : Kernel

/-- A boot in progress: the state and the history so far. -/
structure Booting where
  kernel : Kernel
  history : List Record

abbrev Boot (α : Type) := StateT Booting (Except Stop) α

def call (c : BootCall) : Boot Nat := fun b => do
  let (result, kernel) ← c.run b.kernel
  .ok (result, { kernel, history := b.history ++ [{ pre := b.kernel, action := .boot c, post := kernel }] })

def stop (reason : Stop) : Boot Unit := fun _ => .error reason

/-- A failed `expect` or `assert`. -/
def check (holds : Bool) (reason : Stop) : Boot Unit := if holds then pure () else stop reason

/-- A task that must be there, with an endpoint of its own as its inbox. -/
def spawnWithInbox (index : Nat) (allowedPorts : List UInt16) : Boot (Nat × Nat) := do
  let id ← call (.spawn index allowedPorts)
  check (id ≠ 0) .missingModule
  let endpoint ← call (.createEndpoint id)
  let _ ← call (.grant id (.endpoint endpoint))
  pure (id, endpoint)

def consoleServerPorts : List UInt16 := [0x60, 0x64, 0x3D4, 0x3D5]
def storageAtaPorts : List UInt16 := [0x1F0, 0x1F1, 0x1F2, 0x1F3, 0x1F4, 0x1F5, 0x1F6, 0x1F7, 0x3F6]

/-- `io_base..io_base.saturating_add(256)`. -/
def nicPorts (ioBase : UInt16) : List UInt16 :=
  (List.range' ioBase.toNat (min (ioBase.toNat + 256) 0xFFFF - ioBase.toNat)).map UInt16.ofNat

/-- `spawn_net_rtl8139`: 0 when there is no card, no module or no memory. -/
def spawnNetRtl8139 (nic : Option Nic) (moduleIndex : Nat) : Boot Nat :=
  match nic with
  | none => pure 0
  | some nic => do
    let ioBase := (nic.bar0 &&& 0xFFFC).toUInt16
    let nicId ← call (.spawn moduleIndex (nicPorts ioBase))
    if nicId = 0 then pure 0
    else do
      check (nicId == 6) .wrongTaskId
      let endpoint ← call (.createEndpoint nicId)
      let _ ← call (.grant nicId (.endpoint endpoint))
      let _ ← call (.grant nicId (.irqControl nic.interruptLine.toUInt32 endpoint))
      let _ ← call (.infoPage nicId ioBase)
      pure nicId

def spawnServices (nic : Option Nic) : Boot Unit := do
  let (_, nameserviceEndpoint) ← spawnWithInbox 0 []
  let _ ← call (.setNameserviceEndpoint nameserviceEndpoint)
  let console ← call (.spawn 1 consoleServerPorts)
  check (console ≠ 0) .missingModule
  check (console == 2) .wrongTaskId
  let consoleEndpoint ← call (.createEndpoint console)
  let _ ← call (.grant console (.endpoint consoleEndpoint))
  let _ ← call (.grant console (.memoryGrant 0xB8000 0x1000 true))
  let _ ← call (.grant console (.irqControl 1 consoleEndpoint))
  let storage ← call (.spawn 2 storageAtaPorts)
  check (storage ≠ 0) .missingModule
  check (storage == 3) .wrongTaskId
  let storageEndpoint ← call (.createEndpoint storage)
  let _ ← call (.grant storage (.endpoint storageEndpoint))
  let fs ← call (.spawn 3 [])
  check (fs ≠ 0) .missingModule
  check (fs == 4) .wrongTaskId
  let fsEndpoint ← call (.createEndpoint fs)
  let _ ← call (.grant fs (.endpoint fsEndpoint))
  let shell ← call (.spawn 4 [])
  check (shell ≠ 0) .missingModule
  check (shell == 5) .wrongTaskId
  let shellEndpoint ← call (.createEndpoint shell)
  let _ ← call (.grant shell (.endpoint shellEndpoint))
  let net ← spawnNetRtl8139 nic 5
  if net ≠ 0 then
    let _ ← spawnWithInbox 6 []

/-- The end of `kernel_main`: the idle task, then the scheduler. -/
def handOver : Boot Unit := do
  let _ ← call .spawnIdle
  let _ ← call .start

def kernelMain (p : Platform) : Except Stop Booting := do
  let kernel ← bringUp p
  let (_, booted) ← (do spawnServices p.nic; handOver) { kernel, history := [] }
  .ok booted

/-! ## Runs -/

/-- The histories and states that a machine reaches. -/
inductive Reached (p : Platform) : List Record → Kernel → Prop where
  | booted {b : Booting} (boot : kernelMain p = .ok b) : Reached p b.history b.kernel
  | event {h : List Record} {k k' : Kernel} {e : Event} (before : Reached p h k) (may : enabled k e = true)
      (ran : step k e = .ok k') : Reached p (h ++ [{ pre := k, action := .event e, post := k' }]) k'

/-- A boot and any number of steps after it. -/
structure Run (p : Platform) where
  history : List Record
  kernel : Kernel
  reached : Reached p history kernel

def Booting.next (b : Booting) (e : Event) : Option Booting :=
  if enabled b.kernel e then
    match step b.kernel e with
    | .ok kernel => some { kernel, history := b.history ++ [{ pre := b.kernel, action := .event e, post := kernel }] }
    | .error _ => none
  else none

def Booting.drive (b : Booting) (events : List Event) : Option Booting := events.foldlM Booting.next b

/-- The calls that a boot may make: memory is granted for the VGA buffer only,
    and the scheduler is started once the idle task is there. -/
def BootCall.Allowed (k : Kernel) : BootCall → Prop
  | .grant _ (.memoryGrant physBase len _) => physBase = 0xB8000 ∧ len = 0x1000
  | .start => ∃ task ∈ k.sched.tasks, task.entry = .idle
  | _ => True

/-- Any allowed calls before the scheduler starts, and any steps after it. -/
inductive Wiring (p : Platform) : List Record → Kernel → Prop where
  | bringUp {k : Kernel} (up : bringUp p = .ok k) : Wiring p [] k
  | boot {h : List Record} {k k' : Kernel} {c : BootCall} {result : Nat} (before : Wiring p h k)
      (early : k.sched.current = none) (allowed : c.Allowed k) (ran : c.run k = .ok (result, k')) :
      Wiring p (h ++ [{ pre := k, action := .boot c, post := k' }]) k'
  | event {h : List Record} {k k' : Kernel} {e : Event} (before : Wiring p h k) (may : enabled k e = true)
      (ran : step k e = .ok k') : Wiring p (h ++ [{ pre := k, action := .event e, post := k' }]) k'

end Pcern

import Pcern.Loader

/-!
System calls, after `syscall.rs`, and the steps of the running system.

A system call overwrites the saved registers of the current task with its
arguments and leaves its results there. Kernel code runs with interrupts off on
one processor, so a call, an interrupt or a fault is one step.

`SYS_YIELD` writes its result before the switch here: nothing else touches the
registers of a task that waits in the ready queue.
-/
namespace Pcern
open Bytes Capabilities Pcern.Frame Loops PageTables

namespace Syscall

abbrev sysExit : UInt32 := 0
abbrev sysYield : UInt32 := 1
abbrev sysSend : UInt32 := 2
abbrev sysRecv : UInt32 := 3
abbrev sysGetpid : UInt32 := 4
abbrev sysRegisterIrq : UInt32 := 6
abbrev sysMapMemory : UInt32 := 7
abbrev sysCreateTask : UInt32 := 8
abbrev sysEndpointCreate : UInt32 := 9
abbrev sysCapMintBadged : UInt32 := 10
abbrev sysCapRevoke : UInt32 := 11
abbrev sysMemAlloc : UInt32 := 12
abbrev sysSpawnFromMemory : UInt32 := 13
abbrev sysReboot : UInt32 := 14
abbrev sysTryRecv : UInt32 := 15
abbrev err : UInt32 := 0xFFFFFFFF

def setEax (k : Kernel) (id : Nat) (value : UInt32) : Kernel := k.setSched (k.sched.writeRegs id (Ipc.setEax value))

def currentCapNode (k : Kernel) (slot : UInt32) : Except Stop (Option Nat) := k.sched.currentCspaceGet slot

def resolveCurrentCap (k : Kernel) (slot : UInt32) : Except Stop (Option (CapKind × UInt32)) := do
  let node ← currentCapNode k slot
  .ok (node.bind (resolve k.caps))

/-- The transfer of `SYS_SEND`: a child of the named capability with its badge, or none. -/
def deriveTransfer (k : Kernel) (slot : UInt32) : Except Stop (Option Nat × List CapNode) :=
  if slot = 0 then .ok (none, k.caps)
  else do
    let node ← currentCapNode k slot
    match node.bind fun src => (resolve k.caps src).bind fun cap => mintDerived k.caps src cap.2 with
    | none => .ok (none, k.caps)
    | some (child, caps) => .ok (some child, caps)

def send (k : Kernel) (selfId : Nat) (regs : SavedRegs) : Except Stop Kernel := do
  match ← resolveCurrentCap k regs.ebx with
  | some (.endpoint id, _) => do
    let (transfer, caps) ← deriveTransfer k regs.edi
    let core ← Ipc.send k.core selfId id (regs.ecx, regs.edx, regs.esi) transfer
    .ok { k with caps, core }
  | _ => .ok (setEax k selfId err)

def recv (k : Kernel) (selfId : Nat) (regs : SavedRegs) : Except Stop Kernel := do
  match ← resolveCurrentCap k regs.ebx with
  | some (.endpoint id, _) => do
    let core ← Ipc.recv k.core selfId id
    .ok { k with core }
  | _ => .ok (setEax k selfId err)

def tryRecv (k : Kernel) (selfId : Nat) (regs : SavedRegs) : Except Stop Kernel := do
  match ← resolveCurrentCap k regs.ebx with
  | some (.endpoint id, _) => do
    let core ← Ipc.tryRecv k.core selfId id
    .ok { k with core }
  | _ => .ok (setEax k selfId Ipc.tryRecvErr)

/-- Only with the capability for the line. -/
def registerIrq (k : Kernel) (selfId : Nat) (regs : SavedRegs) : Except Stop Kernel := do
  match ← resolveCurrentCap k regs.ebx with
  | some (.irqControl irq endpoint, _) =>
    let (registered, core) := Ipc.register k.core irq endpoint
    .ok (setEax { k with core } selfId (if registered then 0 else err))
  | _ => .ok (setEax k selfId err)

/-- `sys_map_memory`: the result and the memory afterwards. -/
def mapMemory (k : Kernel) (physAddr virtAddr len : Nat) (writable : Bool) : Except Stop (UInt32 × Mm) :=
  if physAddr % 4096 ≠ 0 ∨ virtAddr % 4096 ≠ 0 ∨ len = 0 then .ok (err, k.mm)
  else if 2 ^ 32 ≤ virtAddr + len ∨ Paging.kernelVma < virtAddr + len then .ok (err, k.mm)
  else do
    let dir ← k.sched.currentPageDirPhys
    let mm ← Paging.mapPages k.mm dir virtAddr physAddr ((len + 4095) / 4096) writable
    .ok (0, mm)

def sysMap (k : Kernel) (selfId : Nat) (regs : SavedRegs) : Except Stop Kernel := do
  match ← resolveCurrentCap k regs.ebx with
  | some (.memoryGrant physBase len writable, _) => do
    let (result, mm) ← mapMemory k physBase regs.ecx.toNat len writable
    .ok (setEax { k with mm } selfId result)
  | _ => .ok (setEax k selfId err)

def createTask (k : Kernel) (selfId : Nat) (regs : SavedRegs) : Except Stop Kernel := do
  let (spawned, k) ← Loader.spawnFromModule k regs.ebx.toNat []
  .ok (setEax k selfId (UInt32.ofNat (spawned.getD 0)))

def endpointCreate (k : Kernel) (selfId : Nat) : Except Stop Kernel := do
  let (endpoint, ipc) := k.core.ipc.createEndpoint selfId
  let (node, caps) := mintRoot k.caps (.endpoint endpoint)
  let (slot, sched) ← k.sched.currentCspaceInstall node
  .ok (setEax { k with caps, core := { k.core with ipc, sched } } selfId slot)

/-- A child of a capability of the caller, with a badge. -/
def capMintBadged (k : Kernel) (selfId : Nat) (regs : SavedRegs) : Except Stop Kernel := do
  let node ← currentCapNode k regs.ebx
  match node.bind fun src => mintDerived k.caps src regs.ecx with
  | none => .ok (setEax k selfId err)
  | some (child, caps) => do
    let (slot, sched) ← k.sched.currentCspaceInstall child
    .ok (setEax { k.setSched sched with caps } selfId slot)

/-- It reports success also for an empty slot. -/
def capRevoke (k : Kernel) (selfId : Nat) (regs : SavedRegs) : Except Stop Kernel := do
  match ← currentCapNode k regs.ebx with
  | none => .ok (setEax k selfId 0)
  | some node => .ok (setEax { k with caps := revoke k.caps node } selfId 0)

/-- The two result registers of `SYS_MEM_ALLOC`. -/
def setEaxEcx (k : Kernel) (id : Nat) (eax ecx : UInt32) : Kernel :=
  k.setSched (k.sched.writeRegs id fun regs => { regs with eax, ecx })

/-- The frames of `sys_mem_alloc`: one, or a contiguous run. -/
def allocPages (frames : Bitmap) (pageCount : Nat) : Option (Nat × Bitmap) :=
  if pageCount = 1 then allocFrame frames else allocFramesContiguous frames pageCount

/-- The number of pages that `ecx` asks for. -/
def pagesAsked (ecx : UInt32) : Nat := if ecx = 0 then 1 else ecx.toNat

/-- Fresh pages at an address of the caller, and a grant for them. -/
def memAlloc (k : Kernel) (selfId : Nat) (regs : SavedRegs) : Except Stop Kernel :=
  let virtAddr := regs.ebx.toNat
  let pageCount := pagesAsked regs.ecx
  let len := pageCount * 4096
  if 2 ^ 32 ≤ len then .ok (setEaxEcx k selfId 0 0)
  else if virtAddr % 4096 ≠ 0 ∨ 2 ^ 32 ≤ virtAddr + len ∨ Paging.kernelVma < virtAddr + len then
    .ok (setEaxEcx k selfId 0 0)
  else
    match allocPages k.mm.frames pageCount with
    | none => .ok (setEaxEcx k selfId 0 0)
    | some (phys, frames) => do
      let dir ← k.sched.currentPageDirPhys
      let mm ← Paging.mapPages { k.mm with frames } dir virtAddr phys pageCount true
      let (node, caps) := mintRoot k.caps (.memoryGrant phys len true)
      let (slot, sched) ← k.sched.currentCspaceInstall node
      .ok (setEaxEcx { k.setSched sched with mm, caps } selfId slot (UInt32.ofNat phys))

/-- The grants that the slots of `SYS_SPAWN_FROM_MEMORY` name, up to the first zero. -/
def resolveGrants (k : Kernel) : List UInt32 → Except Stop (Option (List Nat))
  | [] => .ok (some [])
  | slot :: rest =>
    if slot = 0 then .ok (some [])
    else do
      match ← resolveCurrentCap k slot with
      | some (.memoryGrant physBase _ _, _) => do
        let grants ← resolveGrants k rest
        .ok (grants.map (physBase :: ·))
      | _ => .ok none

def spawnFromMemory (k : Kernel) (selfId : Nat) (regs : SavedRegs) : Except Stop Kernel := do
  match ← resolveGrants k [regs.ebx, regs.ecx, regs.edx, regs.esi] with
  | none => .ok (setEax k selfId 0)
  | some grants => do
    let (spawned, k) ← Loader.spawnFromMemory k grants regs.edi.toNat
    .ok (setEax k selfId (UInt32.ofNat (spawned.getD 0)))

/-- Only with the capability for it. -/
def reboot (k : Kernel) (selfId : Nat) (regs : SavedRegs) : Except Stop Kernel := do
  match ← resolveCurrentCap k regs.ebx with
  | some (.rebootControl, _) => .error .reset
  | _ => .ok (setEax k selfId err)

def exit (k : Kernel) : Except Stop Kernel := do
  let core ← Ipc.exitCurrent k.core
  .ok { k with core }

def yield (k : Kernel) (selfId : Nat) : Except Stop Kernel := do
  let sched ← (setEax k selfId 0).sched.tick
  .ok (k.setSched sched)

/-- `syscall_dispatch` on the registers the current task arrives with. -/
def dispatch (k : Kernel) (regs : SavedRegs) : Except Stop Kernel :=
  match k.sched.current with
  | none => .error .noCurrentTask
  | some selfId =>
    let k := k.setSched (k.sched.writeRegs selfId fun _ => regs)
    if regs.eax = sysExit then exit k
    else if regs.eax = sysYield then yield k selfId
    else if regs.eax = sysSend then send k selfId regs
    else if regs.eax = sysRecv then recv k selfId regs
    else if regs.eax = sysTryRecv then tryRecv k selfId regs
    else if regs.eax = sysGetpid then .ok (setEax k selfId (UInt32.ofNat selfId))
    else if regs.eax = sysRegisterIrq then registerIrq k selfId regs
    else if regs.eax = sysMapMemory then sysMap k selfId regs
    else if regs.eax = sysCreateTask then createTask k selfId regs
    else if regs.eax = sysEndpointCreate then endpointCreate k selfId
    else if regs.eax = sysCapMintBadged then capMintBadged k selfId regs
    else if regs.eax = sysCapRevoke then capRevoke k selfId regs
    else if regs.eax = sysMemAlloc then memAlloc k selfId regs
    else if regs.eax = sysSpawnFromMemory then spawnFromMemory k selfId regs
    else if regs.eax = sysReboot then reboot k selfId regs
    else .ok (setEax k selfId err)

end Syscall
end Pcern

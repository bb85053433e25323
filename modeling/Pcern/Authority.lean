import Pcern.Runs

/-!
Where capabilities come from. A capability is minted as a root, for a task, or
derived from one that the deriving task holds at that moment, by
`SYS_CAP_MINT_BADGED` or as the transfer of a `SYS_SEND`; and it enters a table
when a task is set up, by a call of the task itself, or when a transfer is
delivered to it. Both are statements about the history of a run: every node has
a `Chain` and every slot that names one was `Installed`.
-/
namespace Pcern
open Capabilities Keyed Loops Scheduler

def Calls (r : Record) (id : Nat) (regs : SavedRegs) : Prop :=
  r.action = .event (.syscall regs) ∧ r.pre.sched.current = some id

/-- A record in which a slot comes to name a node. -/
def Installs (r : Record) (id : Nat) (slot : UInt32) (node : Nat) : Prop :=
  Holds r.post id slot node ∧ ∀ n, ¬Holds r.pre id slot n

/-- A record in which a root of this kind is minted and put at the end of a task's table. -/
structure Mints (r : Record) (id : Nat) (kind : CapKind) (node : Nat) : Prop where
  fresh : node = r.pre.caps.length
  minted : r.post.caps = r.pre.caps ++ [CapNode.fresh kind 0]
  given : ∃ slots, r.post.sched.cspaces id = some (slots ++ [some node])

/-- A record in which a task asks to receive from an endpoint that one of its slots resolves to. -/
inductive Listens (r : Record) (id endpoint : Nat) : Prop where
  | receives {regs : SavedRegs} {node : Nat} {badge : UInt32} (calls : Calls r id regs)
      (number : regs.eax = Syscall.sysRecv ∨ regs.eax = Syscall.sysTryRecv) (holds : Holds r.pre id regs.ebx node)
      (live : resolve r.pre.caps node = some (.endpoint endpoint, badge))

/-- A record in which a task sends to an endpoint and names one of its capabilities for transfer; `child` is the
    capability derived for the receiver. -/
inductive Transfers (r : Record) (id endpoint : Nat) (kind : CapKind) (parent child : Nat) : Prop where
  | sends {regs : SavedRegs} {node : Nat} {badge badge' : UInt32} (calls : Calls r id regs)
      (number : regs.eax = Syscall.sysSend) (target : Holds r.pre id regs.ebx node)
      (reachable : resolve r.pre.caps node = some (.endpoint endpoint, badge)) (named : regs.edi ≠ 0)
      (holds : Holds r.pre id regs.edi parent) (live : resolve r.pre.caps parent = some (kind, badge'))
      (minted : mintDerived r.pre.caps parent badge' = some (child, r.post.caps))

/-- A root: minted by the boot, by the loader for the task it has just made, or by a call of the task it is for. -/
inductive Rooted (h : List Record) (kind : CapKind) (node : Nat) : Prop where
  | boot {r : Record} {c : BootCall} {id : Nat} (member : r ∈ h) (action : r.action = .boot c) (mints : Mints r id kind node)
  | loader {r : Record} {caller : Nat} {regs : SavedRegs} (member : r ∈ h) (calls : Calls r caller regs)
      (number : regs.eax = Syscall.sysCreateTask ∨ regs.eax = Syscall.sysSpawnFromMemory)
      (mints : Mints r r.pre.nextId kind node)
  | own {r : Record} {id : Nat} {regs : SavedRegs} (member : r ∈ h) (calls : Calls r id regs)
      (number : regs.eax = Syscall.sysEndpointCreate ∨ regs.eax = Syscall.sysMemAlloc) (mints : Mints r id kind node)

/-- A link: derived by a task from a live capability of this kind that it held. -/
inductive Linked (h : List Record) (kind : CapKind) (parent child : Nat) : Prop where
  | mint {r : Record} {id : Nat} {regs : SavedRegs} {badge : UInt32} (member : r ∈ h) (calls : Calls r id regs)
      (number : regs.eax = Syscall.sysCapMintBadged) (holds : Holds r.pre id regs.ebx parent)
      (live : resolve r.pre.caps parent = some (kind, badge))
      (minted : mintDerived r.pre.caps parent regs.ecx = some (child, r.post.caps))
  | transfer {r : Record} {id endpoint : Nat} (member : r ∈ h) (transfers : Transfers r id endpoint kind parent child)

/-- A derivation, link by link from a root, all of one kind. -/
inductive Chain (h : List Record) (kind : CapKind) : Nat → Prop where
  | root {node : Nat} (rooted : Rooted h kind node) : Chain h kind node
  | link {parent child : Nat} (above : Chain h kind parent) (linked : Linked h kind parent child) : Chain h kind child

/-- How a slot came to name a node: it was wired when the task was set up, by a call of its own, or by the delivery
    of a transfer, which happens in the record of the send if the task waits already and in that of its receive
    otherwise. -/
inductive Installed (h : List Record) (id : Nat) (slot : UInt32) (node : Nat) : Prop where
  | boot {r : Record} {c : BootCall} (member : r ∈ h) (installs : Installs r id slot node) (action : r.action = .boot c)
  | loader {r : Record} {caller : Nat} {regs : SavedRegs} (member : r ∈ h) (installs : Installs r id slot node)
      (calls : Calls r caller regs)
      (number : regs.eax = Syscall.sysCreateTask ∨ regs.eax = Syscall.sysSpawnFromMemory) (new : r.pre.nextId = id)
  | own {r : Record} {regs : SavedRegs} (member : r ∈ h) (installs : Installs r id slot node) (calls : Calls r id regs)
      (number : regs.eax = Syscall.sysEndpointCreate ∨ regs.eax = Syscall.sysCapMintBadged ∨
        regs.eax = Syscall.sysMemAlloc)
  | delivery {r sent listened : Record} {sender endpoint parent : Nat} {kind : CapKind} (member : r ∈ h)
      (installs : Installs r id slot node) (member' : sent ∈ h) (transfers : Transfers sent sender endpoint kind parent node)
      (member'' : listened ∈ h) (listens : Listens listened id endpoint) (meets : r = sent ∨ r = listened)

section Histories
variable {h : List Record} {r : Record} {kind : CapKind} {id node parent child : Nat} {slot : UInt32}

theorem Rooted.mono (rooted : Rooted h kind node) (more : List Record) : Rooted (h ++ more) kind node := by
  cases rooted with
  | boot member action mints => exact .boot (List.mem_append_left _ member) action mints
  | loader member calls number mints => exact .loader (List.mem_append_left _ member) calls number mints
  | own member calls number mints => exact .own (List.mem_append_left _ member) calls number mints

theorem Linked.mono (linked : Linked h kind parent child) (more : List Record) : Linked (h ++ more) kind parent child := by
  cases linked with
  | mint member calls number holds live minted => exact .mint (List.mem_append_left _ member) calls number holds live minted
  | transfer member transfers => exact .transfer (List.mem_append_left _ member) transfers

theorem Chain.mono (chain : Chain h kind node) (more : List Record) : Chain (h ++ more) kind node := by
  induction chain with
  | root rooted => exact .root (rooted.mono more)
  | link _ linked ih => exact .link ih (linked.mono more)

theorem Installed.mono (installed : Installed h id slot node) (more : List Record) : Installed (h ++ more) id slot node := by
  cases installed with
  | boot member installs action => exact .boot (List.mem_append_left _ member) installs action
  | loader member installs calls number new => exact .loader (List.mem_append_left _ member) installs calls number new
  | own member installs calls number => exact .own (List.mem_append_left _ member) installs calls number
  | delivery member installs member' transfers member'' listens meets =>
    exact .delivery (List.mem_append_left _ member) installs (List.mem_append_left _ member') transfers
      (List.mem_append_left _ member'') listens meets

theorem Installed.record (installed : Installed h id slot node) : ∃ r ∈ h, Installs r id slot node := by
  cases installed with
  | boot member installs _ => exact ⟨_, member, installs⟩
  | loader member installs _ _ _ => exact ⟨_, member, installs⟩
  | own member installs _ _ => exact ⟨_, member, installs⟩
  | delivery member installs _ _ _ _ _ => exact ⟨_, member, installs⟩

theorem last_mem (h : List Record) (r : Record) : r ∈ h ++ [r] := List.mem_append_right _ (List.mem_singleton.mpr rfl)

end Histories

/-! ## Every node has a chain -/

/-- Every node of the table has a chain of its kind. -/
def Chained (h : List Record) (caps : List CapNode) : Prop := ∀ n entry, caps[n]? = some entry → Chain h entry.kind n

section Nodes
variable {h : List Record} {r : Record} {caps caps' : List CapNode}

theorem Chained.mono (chained : Chained h caps) (more : List Record) : Chained (h ++ more) caps :=
  fun n entry found => (chained n entry found).mono more

theorem Chained.root (chained : Chained h caps) {kind : CapKind} {badge : UInt32} (rooted : Rooted h kind caps.length) :
    Chained h (caps ++ [CapNode.fresh kind badge]) := by
  intro n entry found
  rw [getElem?_append_single] at found
  split at found
  · rename_i last
    cases found
    subst last
    exact .root rooted
  · exact chained n entry found

theorem Chained.derived (chained : Chained h caps) {parent child : Nat} {badge : UInt32}
    (minted : mintDerived caps parent badge = some (child, caps'))
    (linked : ∀ kind badge, resolve caps parent = some (kind, badge) → Linked h kind parent child) : Chained h caps' := by
  obtain ⟨entry, found, live, rfl, rfl⟩ := mintDerived_eq_some minted
  intro n row at'
  rw [getElem?_derived found] at at'
  split at at'
  · rename_i same
    cases at'
    exact same ▸ chained parent entry found
  · split at at'
    · rename_i last
      cases at'
      subst last
      exact .link (chained parent entry found) (linked _ _ (resolve_eq_some_iff.mpr ⟨entry, found, live, rfl, rfl⟩))
    · exact chained n row at'

theorem Chained.revoke (chained : Chained h caps) (node : Nat) : Chained h (Capabilities.revoke caps node) := by
  intro n entry found
  rcases revoke_row caps node n with same | ⟨row, before, after⟩
  · exact chained n entry (same ▸ found)
  · rw [after] at found
    cases found
    exact chained n row before

end Nodes

section Steps
variable {h : List Record} {k k' : Kernel}

@[simp] theorem cspaces_reply (k : Kernel) (id : Nat) (f : SavedRegs → SavedRegs) :
    (reply k id f).sched.cspaces = k.sched.cspaces := Scheduler.cspaces_writeRegs k.sched id f

@[simp] theorem cspaces_arrive (k : Kernel) (id : Nat) (regs : SavedRegs) :
    (arrive k id regs).sched.cspaces = k.sched.cspaces := cspaces_reply k id _

theorem Loader.Admitted.cspaces {t : Task} (admitted : Loader.Admitted k k' t) (fresh : k.sched.lookup k.nextId = none) :
    k'.sched.cspaces = Function.update k.sched.cspaces k.nextId (some t.cspace) := by
  rw [admitted.sched, cspaces_spawn (admitted.id ▸ fresh), admitted.id]

theorem Loader.Spawning.chained {ports : List UInt16} {spawned : Option Nat} (ran : Loader.Spawning k ports spawned k')
    (fresh : k.sched.lookup k.nextId = none) (chained : Chained h k.caps)
    (rooted : ∀ kind, k'.caps = k.caps ++ [CapNode.fresh kind 0] →
      (∃ slots, k'.sched.cspaces k.nextId = some (slots ++ [some k.caps.length])) → Rooted h kind k.caps.length) :
    Chained h k'.caps := by
  cases ran with
  | refused => exact chained
  | gaveUp _ _ => exact chained
  | loaded _ _ admitted _ _ _ endowed =>
    cases endowed with
    | bare _ _ caps => exact caps ▸ chained
    | nameservice _ slots caps =>
      rw [caps]
      refine chained.root (rooted _ caps ⟨[none], ?_⟩)
      rw [admitted.cspaces fresh, slots]
      exact Function.update_self ..

private theorem installed_last {s s' : Scheduler} {id node : Nat} {slot : UInt32} (ran : s.installCapFor id node = .ok (slot, s')) :
    ∃ slots, s'.cspaces id = some (slots ++ [some node]) := by
  obtain ⟨slots, _, _, after⟩ := installCapFor_cspaces ran
  exact ⟨slots, by rw [after]; exact Function.update_self ..⟩

theorem Did.chained {e : Event} (did : Did k e k') (booked : k.Booked) (chained : Chained h k.caps) :
    Chained (h ++ [{ pre := k, action := .event e, post := k' }]) k'.caps := by
  have older := chained.mono [{ pre := k, action := .event e, post := k' }]
  cases did with
  | send current number holds live derived ran =>
    cases derived with
    | none _ => exact older
    | child named held alive minted =>
      refine older.derived minted fun kind badge again => ?_
      cases alive.symm.trans again
      exact .transfer (last_mem _ _) (.sends ⟨rfl, current⟩ number holds live named held alive minted)
  | spawn current number ran =>
    refine ran.chained (lookup_arrive_none booked.fresh _ _) older fun kind caps given => ?_
    exact .loader (last_mem _ _) ⟨rfl, current⟩ number ⟨rfl, caps, by rwa [cspaces_reply]⟩
  | endpointCreate current number ran =>
    exact older.root (.own (last_mem _ _) ⟨rfl, current⟩ (.inl number)
      ⟨rfl, rfl, by rw [cspaces_reply]; exact installed_last ran⟩)
  | mint current number holds minted ran =>
    exact older.derived minted fun kind badge live => .mint (last_mem _ _) ⟨rfl, current⟩ number holds live minted
  | revoke _ _ _ => exact older.revoke _
  | alloc current number _ _ _ _ ran =>
    exact older.root (.own (last_mem _ _) ⟨rfl, current⟩ (.inr number)
      ⟨rfl, rfl, by rw [cspaces_reply]; exact installed_last ran⟩)
  | _ => exact older

theorem BootDid.chained {c : BootCall} (did : BootDid k c k') (booked : k.Booked) (chained : Chained h k.caps) :
    Chained (h ++ [{ pre := k, action := .boot c, post := k' }]) k'.caps := by
  have older := chained.mono [{ pre := k, action := .boot c, post := k' }]
  cases did with
  | spawn ran =>
    exact ran.chained booked.fresh older fun kind caps given => .boot (last_mem _ _) rfl ⟨rfl, caps, given⟩
  | grant ran => exact older.root (.boot (last_mem _ _) rfl ⟨rfl, rfl, installed_last ran⟩)
  | infoPage _ ran => exact older.root (.boot (last_mem _ _) rfl ⟨rfl, rfl, installed_last ran⟩)
  | _ => exact older

end Steps

/-! ## Every slot was installed -/

private theorem holds_iff {k : Kernel} {id node : Nat} {slot : UInt32} :
    Holds k id slot node ↔ ∃ slots, k.sched.cspaces id = some slots ∧ CSpace.get slots slot = some node := by
  simp [Holds, cspaces]

/-- Every slot that names a node was installed, and slot 0 names none. -/
structure Tables (h : List Record) (k : Kernel) : Prop where
  held : ∀ id slot node, Holds k id slot node → Installed h id slot node
  reserved : ∀ id slots, k.sched.cspaces id = some slots → slots[0]? = some none

/-- Whoever waits to receive resolved the endpoint, and every transfer that waits with its sender was derived when
    it was sent. -/
structure Parked (h : List Record) (sends : List PendingSend) (recvs : List PendingRecv) : Prop where
  sending : ∀ w ∈ sends, ∀ node, w.transfer = some node →
    ∃ r ∈ h, ∃ kind parent, Transfers r w.taskId w.endpoint kind parent node
  listening : ∀ w ∈ recvs, ∃ r ∈ h, Listens r w.taskId w.endpoint

section Tables
variable {h : List Record} {k k' : Kernel} {r : Record}

theorem Tables.keep (tables : Tables h k) (same : k'.sched.cspaces = k.sched.cspaces) (r : Record) :
    Tables (h ++ [r]) k' := by
  refine ⟨fun id slot node holds => ?_, fun id slots at' => tables.reserved id slots (same ▸ at')⟩
  rw [holds_iff, same, ← holds_iff] at holds
  exact (tables.held id slot node holds).mono _

theorem Tables.grow (tables : Tables h k) {id node : Nat} {slots : List (Option Nat)} (before : k.sched.cspaces id = some slots)
    (after : k'.sched.cspaces = Function.update k.sched.cspaces id (some (slots ++ [some node])))
    (action : Action) (how : ∀ slot, Installs { pre := k, action, post := k' } id slot node →
      Installed (h ++ [{ pre := k, action, post := k' }]) id slot node) :
    Tables (h ++ [{ pre := k, action, post := k' }]) k' := by
  constructor
  · intro id' slot node' holds
    obtain ⟨slots', at', named⟩ := holds_iff.mp holds
    by_cases same : id' = id
    · subst same
      rw [after, Function.update_self, Option.some.injEq] at at'
      subst at'
      rw [CSpace.get, getElem?_append_single] at named
      split at named
      · rename_i last
        cases named
        refine how slot ⟨holds, fun n held => ?_⟩
        obtain ⟨old, at', named⟩ := holds_iff.mp held
        rw [before, Option.some.injEq] at at'
        subst at'
        simp [CSpace.get, last] at named
      · exact (tables.held id' slot node' (holds_iff.mpr ⟨slots, before, named⟩)).mono _
    · rw [after, Function.update_of_ne same] at at'
      exact (tables.held id' slot node' (holds_iff.mpr ⟨slots', at', named⟩)).mono _
  · intro id' slots' at'
    by_cases same : id' = id
    · subst same
      rw [after, Function.update_self, Option.some.injEq] at at'
      subst at'
      have first := tables.reserved id' slots before
      rw [List.getElem?_append_left (List.getElem?_eq_some_iff.mp first).1, first]
    · rw [after, Function.update_of_ne same] at at'
      exact tables.reserved id' slots' at'

theorem Tables.admit (tables : Tables h k) {id : Nat} {slots : List (Option Nat)} (unknown : k.sched.cspaces id = none)
    (after : k'.sched.cspaces = Function.update k.sched.cspaces id (some slots))
    (shape : slots = [none] ∨ ∃ node, slots = [none, some node])
    (action : Action) (how : ∀ slot node, Installs { pre := k, action, post := k' } id slot node →
      Installed (h ++ [{ pre := k, action, post := k' }]) id slot node) :
    Tables (h ++ [{ pre := k, action, post := k' }]) k' := by
  constructor
  · intro id' slot node holds
    by_cases same : id' = id
    · subst same
      refine how slot node ⟨holds, fun n held => ?_⟩
      obtain ⟨old, at', _⟩ := holds_iff.mp held
      rw [unknown] at at'
      cases at'
    · obtain ⟨slots', at', named⟩ := holds_iff.mp holds
      rw [after, Function.update_of_ne same] at at'
      exact (tables.held id' slot node (holds_iff.mpr ⟨slots', at', named⟩)).mono _
  · intro id' slots' at'
    by_cases same : id' = id
    · subst same
      rw [after, Function.update_self, Option.some.injEq] at at'
      subst at'
      rcases shape with rfl | ⟨node, rfl⟩ <;> rfl
    · rw [after, Function.update_of_ne same] at at'
      exact tables.reserved id' slots' at'

theorem Parked.shrink {sends sends' : List PendingSend} {recvs recvs' : List PendingRecv} (parked : Parked h sends recvs)
    (fewer : sends' ⊆ sends) (fewer' : recvs' ⊆ recvs) (r : Record) : Parked (h ++ [r]) sends' recvs' := by
  constructor
  · intro w member node transfer
    obtain ⟨r', old, rest⟩ := parked.sending w (fewer member) node transfer
    exact ⟨r', List.mem_append_left _ old, rest⟩
  · intro w member
    obtain ⟨r', old, listens⟩ := parked.listening w (fewer' member)
    exact ⟨r', List.mem_append_left _ old, listens⟩

theorem Parked.listen {sends : List PendingSend} {recvs : List PendingRecv} (parked : Parked h sends recvs)
    {id endpoint : Nat} {r : Record} (member : r ∈ h) (listens : Listens r id endpoint) :
    Parked h sends (recvs ++ [{ taskId := id, endpoint }]) := by
  refine ⟨parked.sending, fun w inside => ?_⟩
  rcases List.mem_append.mp inside with old | new
  · exact parked.listening w old
  · cases List.mem_singleton.mp new
    exact ⟨r, member, listens⟩

end Tables

/-! ## What IPC does to tables and queues -/

section Exchange
variable {c c' : Core} {self endpoint : Nat}

theorem Ipc.Sends.cspaces {msg : UInt32 × UInt32 × UInt32} {transfer : Option Nat}
    (sends : Ipc.Sends c self endpoint msg transfer c') :
    c'.sched.cspaces = c.sched.cspaces ∨ ∃ w ∈ c.ipc.pendingRecvs, w.endpoint = endpoint ∧ ∃ node slots,
      transfer = some node ∧ c.sched.cspaces w.taskId = some slots ∧
      c'.sched.cspaces = Function.update c.sched.cspaces w.taskId (some (slots ++ [some node])) := by
  cases sends with
  | handed found installed woke =>
    rename_i matched _ _ s s'
    obtain ⟨member, same, _⟩ := takeFirst_mem found
    have after : s'.cspaces = s.cspaces := by simp [(wake_restated woke).cspaces]
    rcases Ipc.installTransfer_cspaces installed with ⟨_, _, kept⟩ | ⟨node, slots, named, before, _, grown⟩
    · exact .inl (after.trans kept)
    · exact .inr ⟨matched, member, by simpa using same, node, slots, named, before, after.trans grown⟩
  | waits _ left => exact .inl (leave_restated left).cspaces

theorem Ipc.Takes.cspaces {receiver : Nat} {delivered : Bool} (takes : Ipc.Takes c endpoint receiver delivered c')
    (current : c.sched.current = some receiver) :
    c'.sched.cspaces = c.sched.cspaces ∨ ∃ w ∈ c.ipc.pendingSends, w.endpoint = endpoint ∧ ∃ node slots,
      w.transfer = some node ∧ c.sched.cspaces receiver = some slots ∧
      c'.sched.cspaces = Function.update c.sched.cspaces receiver (some (slots ++ [some node])) := by
  cases takes with
  | message found installed woke =>
    rename_i matched _ _ s s'
    obtain ⟨member, same, _⟩ := takeFirst_mem found
    have after : s'.cspaces = s.cspaces := by simp [(wake_restated woke).cspaces]
    rw [Ipc.installTransferCurrent_eq current] at installed
    rcases Ipc.installTransfer_cspaces installed with ⟨_, _, kept⟩ | ⟨node, slots, named, before, _, grown⟩
    · exact .inl (after.trans kept)
    · exact .inr ⟨matched, member, by simpa using same, node, slots, named, before, after.trans grown⟩
  | interrupt _ _ => exact .inl (cspaces_writeRegs ..)
  | nothing _ _ => exact .inl rfl

theorem Ipc.Receives.cspaces {blocking : Bool} (receives : Ipc.Receives c self endpoint blocking c') (current : c.sched.current = some self) :
    c'.sched.cspaces = c.sched.cspaces ∨ ∃ w ∈ c.ipc.pendingSends, w.endpoint = endpoint ∧ ∃ node slots,
      w.transfer = some node ∧ c.sched.cspaces self = some slots ∧
      c'.sched.cspaces = Function.update c.sched.cspaces self (some (slots ++ [some node])) := by
  have here : (Ipc.acknowledge c endpoint).sched.current = some self := by simpa using current
  cases receives with
  | takes took => simpa using took.cspaces here
  | waits nothing left =>
    cases nothing
    refine .inl ((leave_restated left).cspaces.trans ?_)
    simp
  | fails nothing =>
    cases nothing
    simp

theorem Ipc.Notifies.cspaces {irq data : UInt32} (notifies : Ipc.Notifies c endpoint irq data c') :
    c'.sched.cspaces = c.sched.cspaces := by
  cases notifies with
  | handed _ woke => simp [(wake_restated woke).cspaces]
  | queued _ => rfl

theorem Ipc.Exits.cspaces (exits : Ipc.Exits c c') : c'.sched.cspaces = c.sched.cspaces := by
  cases exits with
  | exits left _ receivers senders => rw [senders.cspaces, receivers.cspaces, (leave_restated left).cspaces]

theorem Ipc.Takes.shrinks {receiver : Nat} {delivered : Bool} (takes : Ipc.Takes c endpoint receiver delivered c') :
    c'.ipc.pendingSends ⊆ c.ipc.pendingSends ∧ c'.ipc.pendingRecvs = c.ipc.pendingRecvs := by
  cases takes with
  | message found _ _ => exact ⟨(takeFirst_mem found).2.2, rfl⟩
  | interrupt _ _ => exact ⟨List.Subset.refl _, rfl⟩
  | nothing _ _ => exact ⟨List.Subset.refl _, rfl⟩

theorem Ipc.Notifies.shrinks {irq data : UInt32} (notifies : Ipc.Notifies c endpoint irq data c') :
    c'.ipc.pendingSends = c.ipc.pendingSends ∧ c'.ipc.pendingRecvs ⊆ c.ipc.pendingRecvs := by
  cases notifies with
  | handed found _ => exact ⟨rfl, (takeFirst_mem found).2.2⟩
  | queued _ => exact ⟨rfl, List.Subset.refl _⟩

theorem Ipc.Exits.shrinks (exits : Ipc.Exits c c') :
    c'.ipc.pendingSends ⊆ c.ipc.pendingSends ∧ c'.ipc.pendingRecvs ⊆ c.ipc.pendingRecvs := by
  cases exits with
  | exits _ _ _ _ => exact ⟨fun _ => List.mem_of_mem_filter, fun _ => List.mem_of_mem_filter⟩

end Exchange

section Steps
variable {h : List Record} {k k' : Kernel}

theorem Loader.Spawning.tables {ports : List UInt16} {spawned : Option Nat} {k0 k1 : Kernel}
    (ran : Loader.Spawning k0 ports spawned k1) (fresh : k0.sched.lookup k0.nextId = none) (tables : Tables h k)
    (before : k0.sched.cspaces = k.sched.cspaces) (after : k'.sched.cspaces = k1.sched.cspaces) (action : Action)
    (how : ∀ slot node, Installs { pre := k, action, post := k' } k0.nextId slot node →
      Installed (h ++ [{ pre := k, action, post := k' }]) k0.nextId slot node) :
    Tables (h ++ [{ pre := k, action, post := k' }]) k' := by
  cases ran with
  | refused => exact tables.keep (after.trans before) _
  | gaveUp _ _ => exact tables.keep (after.trans before) _
  | loaded _ _ admitted _ _ _ endowed =>
    have unknown : k.sched.cspaces k0.nextId = none := by
      rw [← before]
      simp [Scheduler.cspaces, fresh]
    refine tables.admit unknown (after.trans ((admitted.cspaces fresh).trans (by rw [before]))) ?_ action how
    cases endowed with
    | bare _ slots _ => exact .inl slots
    | nameservice _ slots _ => exact .inr ⟨_, slots⟩

theorem Loader.Spawning.ipc {ports : List UInt16} {spawned : Option Nat} (ran : Loader.Spawning k ports spawned k') :
    k'.core.ipc = k.core.ipc := by
  cases ran with
  | refused => rfl
  | gaveUp _ _ => rfl
  | loaded _ _ admitted _ _ _ _ => exact admitted.ipc

theorem Ipc.Receives.parked {blocking : Bool} {c c' : Core} {self endpoint : Nat} (receives : Ipc.Receives c self endpoint blocking c') {r : Record}
    (parked : Parked h c.ipc.pendingSends c.ipc.pendingRecvs) (listens : Listens r self endpoint) :
    Parked (h ++ [r]) c'.ipc.pendingSends c'.ipc.pendingRecvs := by
  cases receives with
  | takes took =>
    obtain ⟨sends, recvs⟩ := took.shrinks
    simp only [Ipc.acknowledge_pendingSends, Ipc.acknowledge_pendingRecvs] at sends recvs
    exact parked.shrink sends (recvs ▸ List.Subset.refl _) r
  | waits nothing _ =>
    cases nothing
    simp only [Ipc.acknowledge_pendingSends, Ipc.acknowledge_pendingRecvs]
    exact (parked.shrink (List.Subset.refl _) (List.Subset.refl _) r).listen (last_mem h r) listens
  | fails nothing =>
    cases nothing
    simp only [Ipc.acknowledge_pendingSends, Ipc.acknowledge_pendingRecvs]
    exact parked.shrink (List.Subset.refl _) (List.Subset.refl _) r

theorem Did.parked {e : Event} (did : Did k e k') (parked : Parked h k.core.ipc.pendingSends k.core.ipc.pendingRecvs) :
    Parked (h ++ [{ pre := k, action := .event e, post := k' }]) k'.core.ipc.pendingSends k'.core.ipc.pendingRecvs := by
  have older := parked.shrink (List.Subset.refl _) (List.Subset.refl _) { pre := k, action := .event e, post := k' }
  cases did with
  | send current number holds live derived sends =>
    cases sends with
    | handed found _ _ => exact parked.shrink (List.Subset.refl _) (takeFirst_mem found).2.2 _
    | waits _ _ =>
      refine ⟨fun w member node transfer => ?_, older.listening⟩
      rcases List.mem_append.mp member with old | new
      · exact older.sending w old node transfer
      · cases List.mem_singleton.mp new
        cases derived with
        | none _ => cases transfer
        | child named held alive minted =>
          cases transfer
          exact ⟨_, last_mem _ _, _, _, .sends ⟨rfl, current⟩ number holds live named held alive minted⟩
  | recv current number _ holds live receives =>
    exact receives.parked parked (.receives ⟨rfl, current⟩ number holds live)
  | exit _ exits => exact parked.shrink exits.shrinks.1 exits.shrinks.2 _
  | fault _ exits => exact parked.shrink exits.shrinks.1 exits.shrinks.2 _
  | notify _ _ notifies =>
    obtain ⟨sends, recvs⟩ := notifies.shrinks
    exact parked.shrink (fun _ member => sends ▸ member) recvs _
  | spawn _ _ ran =>
    have sends := congrArg Ipc.pendingSends ran.ipc
    have recvs := congrArg Ipc.pendingRecvs ran.ipc
    exact parked.shrink (fun _ member => sends ▸ member) (fun _ member => recvs ▸ member) _
  | _ => exact older

theorem Tables.own (tables : Tables h k) {id node : Nat} {slot : UInt32} {regs : SavedRegs} {s : Scheduler}
    (current : k.sched.current = some id)
    (number : regs.eax = Syscall.sysEndpointCreate ∨ regs.eax = Syscall.sysCapMintBadged ∨ regs.eax = Syscall.sysMemAlloc)
    (ran : (arrive k id regs).sched.installCapFor id node = .ok (slot, s)) (same : k'.sched.cspaces = s.cspaces) :
    Tables (h ++ [{ pre := k, action := .event (.syscall regs), post := k' }]) k' := by
  obtain ⟨slots, before, _, after⟩ := installCapFor_cspaces ran
  rw [cspaces_arrive] at before after
  exact tables.grow before (same.trans after) _ fun slot installs => .own (last_mem _ _) installs ⟨rfl, current⟩ number

theorem Tables.receive (tables : Tables h k) (parked : Parked h k.core.ipc.pendingSends k.core.ipc.pendingRecvs)
    {id endpoint node : Nat} {badge : UInt32} {regs : SavedRegs} {core : Core} {blocking : Bool} (current : k.sched.current = some id)
    (number : regs.eax = Syscall.sysRecv ∨ regs.eax = Syscall.sysTryRecv) (holds : Holds k id regs.ebx node)
    (live : resolve k.caps node = some (.endpoint endpoint, badge))
    (receives : Ipc.Receives (arrive k id regs).core id endpoint blocking core) :
    Tables (h ++ [{ pre := k, action := .event (.syscall regs), post := { k with core } }]) { k with core } := by
  have same : (arrive k id regs).core.sched.cspaces = k.sched.cspaces := cspaces_arrive k id regs
  have effect := receives.cspaces ((current_arrive k id regs).trans current)
  rw [same] at effect
  rcases effect with kept | ⟨w, member, target, child, slots, transfer, before, after⟩
  · exact tables.keep kept _
  · obtain ⟨sent, earlier, kind, parent, transfers⟩ := parked.sending w member child transfer
    exact tables.grow before after _ fun slot installs =>
      .delivery (last_mem _ _) installs (List.mem_append_left _ earlier) transfers (last_mem _ _)
        (target ▸ .receives ⟨rfl, current⟩ number holds live) (.inr rfl)

theorem Did.tables {e : Event} (did : Did k e k') (booked : k.Booked) (tables : Tables h k)
    (parked : Parked h k.core.ipc.pendingSends k.core.ipc.pendingRecvs) :
    Tables (h ++ [{ pre := k, action := .event e, post := k' }]) k' := by
  cases did with
  | send current number holds live derived sends =>
    rename_i self endpoint _ _ regs _ _ _
    have same : (arrive k self regs).core.sched.cspaces = k.sched.cspaces := cspaces_arrive k self regs
    have effect := sends.cspaces
    rw [same] at effect
    rcases effect with kept | ⟨w, member, target, child, slots, transfer, before, after⟩
    · exact tables.keep kept _
    · -- the receiver waits already, so the transfer is delivered by the send itself
      obtain ⟨listened, earlier, listens⟩ := parked.listening w member
      refine tables.grow before after _ fun slot installs => ?_
      cases derived with
      | none _ => cases transfer
      | child named held alive minted =>
        cases transfer
        exact .delivery (last_mem _ _) installs (last_mem _ _)
          (.sends ⟨rfl, current⟩ number holds live named held alive minted) (List.mem_append_left _ earlier)
          (target ▸ listens) (.inl rfl)
  | recv current number _ holds live receives => exact tables.receive parked current number holds live receives
  | spawn current number ran =>
    exact ran.tables (lookup_arrive_none booked.fresh _ _) tables (cspaces_arrive ..) (cspaces_reply ..) _
      fun slot node installs => .loader (last_mem _ _) installs ⟨rfl, current⟩ number rfl
  | endpointCreate current number ran => exact tables.own current (.inl number) ran (cspaces_reply ..)
  | mint current number _ _ ran => exact tables.own current (.inr (.inl number)) ran (cspaces_reply ..)
  | alloc current number _ _ _ _ ran => exact tables.own current (.inr (.inr number)) ran (cspaces_reply ..)
  | answer _ _ => exact tables.keep ((cspaces_reply ..).trans (cspaces_arrive ..)) _
  | tick ran => exact tables.keep (tick_restated ran).cspaces _
  | yield _ ran =>
    exact tables.keep ((tick_restated ran).cspaces.trans ((cspaces_reply ..).trans (cspaces_arrive ..))) _
  | exit _ exits => exact tables.keep (exits.cspaces.trans (cspaces_arrive ..)) _
  | fault _ exits => exact tables.keep exits.cspaces _
  | register _ _ _ _ _ =>
    refine tables.keep ?_ _
    exact (cspaces_reply ..).trans (cspaces_arrive ..)
  | map _ _ _ _ _ _ _ =>
    refine tables.keep ?_ _
    exact (cspaces_reply ..).trans (cspaces_arrive ..)
  | revoke _ _ _ =>
    refine tables.keep ?_ _
    exact (cspaces_reply ..).trans (cspaces_arrive ..)
  | quiet _ => exact tables.keep rfl _
  | notify _ _ notifies => exact tables.keep notifies.cspaces _
  | store _ _ =>
    refine tables.keep ?_ _
    rfl

theorem BootDid.tables {c : BootCall} (did : BootDid k c k') (booked : k.Booked) (tables : Tables h k) :
    Tables (h ++ [{ pre := k, action := .boot c, post := k' }]) k' := by
  have wired : ∀ id slot node, Installs { pre := k, action := .boot c, post := k' } id slot node →
      Installed (h ++ [{ pre := k, action := .boot c, post := k' }]) id slot node :=
    fun id slot node installs => .boot (last_mem _ _) installs rfl
  cases did with
  | spawn ran => exact ran.tables booked.fresh tables rfl rfl _ (wired _)
  | createEndpoint =>
    refine tables.keep ?_ _
    rfl
  | grant ran =>
    obtain ⟨slots, before, _, after⟩ := installCapFor_cspaces ran
    exact tables.grow before after _ fun slot => wired _ slot _
  | setNameserviceEndpoint =>
    refine tables.keep ?_ _
    rfl
  | infoPage _ ran =>
    obtain ⟨slots, before, _, after⟩ := installCapFor_cspaces ran
    exact tables.grow before after _ fun slot => wired _ slot _
  | spawnIdle _ =>
    refine tables.admit ?_ (cspaces_spawn booked.fresh) (.inl rfl) _ (wired _)
    simp [Scheduler.cspaces, Loader.newTask, booked.fresh]
  | start ran => exact tables.keep (start_restated ran).cspaces _

theorem BootDid.parked {c : BootCall} (did : BootDid k c k') (parked : Parked h k.core.ipc.pendingSends k.core.ipc.pendingRecvs) :
    Parked (h ++ [{ pre := k, action := .boot c, post := k' }]) k'.core.ipc.pendingSends k'.core.ipc.pendingRecvs := by
  have older := parked.shrink (List.Subset.refl _) (List.Subset.refl _) { pre := k, action := .boot c, post := k' }
  cases did with
  | spawn ran => rwa [ran.ipc]
  | _ => exact older

/-- The invariant of capabilities: chains, tables and queues. -/
structure Provenance (h : List Record) (k : Kernel) : Prop where
  chained : Chained h k.caps
  tables : Tables h k
  parked : Parked h k.core.ipc.pendingSends k.core.ipc.pendingRecvs

theorem Wiring.provenance {p : Platform} (wiring : Wiring p h k) : Provenance h k := by
  refine wiring.rule ?_ ?_ ?_
  · intro k up
    obtain ⟨total, mm, mm', -, -, -, -, rfl⟩ := bringUp_eq_ok up
    refine ⟨nofun, ⟨fun id slot node holds => ?_, nofun⟩, ⟨nofun, nofun⟩⟩
    obtain ⟨task, found, _⟩ := holds
    cases found
  · intro h k k' c _ provenance booked early allowed did
    exact ⟨did.chained booked provenance.chained, did.tables booked provenance.tables, did.parked provenance.parked⟩
  · intro h k k' e _ provenance booked _ did
    exact ⟨did.chained booked provenance.chained, did.tables booked provenance.tables provenance.parked,
      did.parked provenance.parked⟩

end Steps

/-- No capability is forged or amplified: whatever a slot resolves to has a chain of nodes of that kind, link by link
    derived by tasks that held the node above, from a root that was minted for a task; the slot was wired by boot or
    loader, filled by a call of its own task or by the delivery of the very send that derived the node. Slot 0 and slots
    that were never installed name nothing. -/
theorem capabilities_confined {p : Platform} (run : Run p) :
    (∀ id slot node kind badge, Holds run.kernel id slot node → resolve run.kernel.caps node = some (kind, badge) →
      Chain run.history kind node ∧ Installed run.history id slot node) ∧
      (∀ id node, ¬Holds run.kernel id 0 node) ∧
      ∀ id slot, (∀ r ∈ run.history, ∀ node, ¬Installs r id slot node) → ∀ node, ¬Holds run.kernel id slot node := by
  have provenance := run.wiring.provenance
  refine ⟨fun id slot node kind badge holds live => ?_, fun id node holds => ?_, fun id slot never node holds => ?_⟩
  · obtain ⟨entry, found, _, rfl, _⟩ := resolve_eq_some_iff.mp live
    exact ⟨provenance.chained node entry found, provenance.tables.held id slot node holds⟩
  · obtain ⟨slots, at', named⟩ := holds_iff.mp holds
    simp [CSpace.get, provenance.tables.reserved id slots at'] at named
  · obtain ⟨r, member, installs⟩ := (provenance.tables.held id slot node holds).record
    exact never r member node installs

/-! ## Revocation -/

/-- The capability table changes by calls to it. -/
def Recalls (k k' : Kernel) : Prop := ∃ calls : List Call, k'.caps = calls.foldl Call.run k.caps

section Recalls
variable {k k' : Kernel}

private theorem recalls_of_eq (same : k'.caps = k.caps) : Recalls k k' := ⟨[], same⟩

private theorem recalls_root {kind : CapKind} (minted : k'.caps = k.caps ++ [CapNode.fresh kind 0]) : Recalls k k' :=
  ⟨[.mintRoot kind], minted⟩

private theorem recalls_derived {parent child : Nat} {badge : UInt32}
    (minted : mintDerived k.caps parent badge = some (child, k'.caps)) : Recalls k k' :=
  ⟨[.mintDerived parent badge], by simp [Call.run, minted]⟩

theorem Recalls.trans {k'' : Kernel} (first : Recalls k k') (second : Recalls k' k'') : Recalls k k'' := by
  obtain ⟨calls, after⟩ := first
  obtain ⟨calls', after'⟩ := second
  exact ⟨calls ++ calls', by rw [List.foldl_append, ← after, after']⟩

theorem Loader.Spawning.recalls {ports : List UInt16} {spawned : Option Nat} (ran : Loader.Spawning k ports spawned k') :
    Recalls k k' := by
  cases ran with
  | refused => exact recalls_of_eq rfl
  | gaveUp _ _ => exact recalls_of_eq rfl
  | loaded _ _ _ _ _ _ endowed =>
    cases endowed with
    | bare _ _ caps => exact recalls_of_eq caps
    | nameservice _ _ caps => exact recalls_root caps

theorem Did.recalls {e : Event} (did : Did k e k') : Recalls k k' := by
  cases did with
  | send _ _ _ _ derived _ =>
    cases derived with
    | none _ => exact recalls_of_eq rfl
    | child _ _ _ minted => exact recalls_derived minted
  | spawn _ _ ran => exact ran.recalls
  | endpointCreate _ _ _ => exact recalls_root rfl
  | mint _ _ _ minted _ => exact recalls_derived minted
  | @revoke _ node => exact ⟨[.revoke node], rfl⟩
  | alloc _ _ _ _ _ _ _ => exact recalls_root rfl
  | _ => exact recalls_of_eq rfl

theorem BootDid.recalls {c : BootCall} (did : BootDid k c k') : Recalls k k' := by
  cases did with
  | spawn ran => exact ran.recalls
  | grant _ => exact recalls_root rfl
  | infoPage _ _ => exact recalls_root rfl
  | _ => exact recalls_of_eq rfl

end Recalls

theorem Wiring.sound {p : Platform} {h : List Record} {k : Kernel} (wiring : Wiring p h k) : Sound k.caps := by
  refine wiring.rule (P := fun _ k => Sound k.caps) ?_ ?_ ?_
  · intro k up
    obtain ⟨total, mm, mm', -, -, -, -, rfl⟩ := bringUp_eq_ok up
    exact sound_nil
  · intro h k k' c _ sound _ _ _ did
    obtain ⟨calls, after⟩ := did.recalls
    exact after ▸ sound_runs sound calls
  · intro h k k' e _ sound _ _ did
    obtain ⟨calls, after⟩ := did.recalls
    exact after ▸ sound_runs sound calls

/-- Revocation is the descendant closure, after any calls with any node ids: a node of the table stops resolving
    exactly if it was revoked before or is the revoked node or below it, and all others resolve to what they did. In
    no state of a run does a revoked node have a live descendant, delivered or not. -/
theorem revocation_is_descendant_closure {p : Platform} (run : Run p) :
    (∀ calls n m, m < (runCalls calls).length →
      (resolve (revoke (runCalls calls) n) m = none ↔ Revoked (runCalls calls) m ∨ Descends (runCalls calls) n m)) ∧
      (∀ calls n m, ¬Revoked (runCalls calls) m → ¬Descends (runCalls calls) n m →
        resolve (revoke (runCalls calls) n) m = resolve (runCalls calls) m) ∧
      ∀ a b, Revoked run.kernel.caps a → Descends run.kernel.caps a b → Revoked run.kernel.caps b := by
  refine ⟨fun calls n m inside => revoke_resolve_iff (sound_runCalls calls) n inside, fun calls n m live other => ?_,
    fun a b => descendant_revoked run.wiring.sound⟩
  cases after : resolve (revoke (runCalls calls) n) m with
  | some cap => exact (revoke_resolve_keeps after).symm
  | none =>
    -- only a node outside the table resolves to nothing without having been revoked
    by_cases inside : m < (runCalls calls).length
    · exact absurd ((revoke_resolve_iff (sound_runCalls calls) n inside).mp after) (not_or.mpr ⟨live, other⟩)
    · simp [resolve, List.getElem?_eq_none (Nat.le_of_not_lt inside)]

/-- What a node gave at an earlier time it gives now, unless it is revoked now; and a node that was revoked is revoked. -/
structure OnlyRevoked (h : List Record) (k : Kernel) : Prop where
  given : ∀ r ∈ h, ∀ node kind badge, resolve r.pre.caps node = some (kind, badge) →
    resolve k.caps node = some (kind, badge) ∨ Revoked k.caps node
  final : ∀ r ∈ h, ∀ node, Revoked r.pre.caps node → Revoked k.caps node ∧ resolve k.caps node = none

/-- In every run a capability keeps its kind and its badge until it is revoked, and revocation is final. -/
theorem authority_lasts_until_revoked {p : Platform} (run : Run p) : OnlyRevoked run.history run.kernel := by
  have lasts : ∀ r ∈ run.history, Lasts r.pre.caps run.kernel.caps := by
    intro r member
    obtain ⟨calls, after⟩ := run.wiring.since (R := Recalls) (fun _ _ _ => Recalls.trans) (fun _ _ _ => BootDid.recalls)
      (fun _ _ _ => Did.recalls) r member
    exact after ▸ lasts_runs calls _
  constructor
  · intro r member node kind badge live
    exact (lasts r member).resolve live
  · rintro r member node ⟨row, found, dead⟩
    obtain ⟨row', found', _, _, still⟩ := lasts r member node row found
    exact ⟨⟨row', found', still dead⟩, by simp [resolve, found', still dead]⟩

end Pcern

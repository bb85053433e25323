import Pcern.Keyed
import Pcern.Libpcern

/-!
The name service: a table of eight entries in which trusted tasks register a
capability under a name and every task looks names up. Who is trusted with a
name is fixed at compile time by task id (`allowlist`).

What the table holds is a function of the messages received
(`Registry.Records`): an entry for a name is the latest message that was
entitled to register it. There are fewer names than places, so an entitled
message always finds one.
-/
namespace Pcern.NameService

open Libpcern

abbrev maxEntries : Nat := 8

/-- Which task may register which name. -/
def allowlist : List (UInt32 × List UInt8) :=
  [(2, [0x63, 0x6F, 0x6E, 0x73, 0x6F, 0x6C, 0x65, 0]),
   (3, [0x73, 0x74, 0x6F, 0x72, 0x61, 0x67, 0x65, 0]),
   (4, [0x66, 0x73, 0, 0, 0, 0, 0, 0]),
   (6, [0x6E, 0x65, 0x74, 0, 0, 0, 0, 0]),
   (7, [0x74, 0x63, 0x70, 0, 0, 0, 0, 0])]

/-- A name and the slot of the service's own CSpace that holds what was registered under it. -/
structure Entry where
  name : List UInt8
  slot : UInt32
  deriving DecidableEq, Repr

def packedName (w0 w1 : UInt32) : List UInt8 := le32 w0 ++ le32 w1

structure Registry where
  entries : List (Option Entry)
  size : entries.length = maxEntries

structure Reply where
  slot : UInt32
  w0 : UInt32
  w1 : UInt32
  w2 : UInt32
  transfer : UInt32
  deriving DecidableEq, Repr

namespace Registry

def empty : Registry := ⟨List.replicate maxEntries none, List.length_replicate⟩

/-- The entry of the same name is replaced; a new name takes the first free place. -/
def register (r : Registry) (entry : Entry) : Registry :=
  ⟨Keyed.put Entry.name r.entries entry, by simp [r.size]⟩

def lookup (r : Registry) (name : List UInt8) : Option Entry :=
  (r.entries.filterMap id).find? fun entry => entry.name == name

/-- One pass of the loop: the table after a message and what is sent for it. -/
def handle (r : Registry) (m : RecvResult) : Registry × List Reply :=
  let name := packedName m.w1 m.w2
  if m.w0 = nsOpRegister then
    let allowed := allowlist.any fun pair => pair.1 == m.sender && pair.2 == name
    if allowed && m.transferredSlot != 0 then (r.register ⟨name, m.transferredSlot⟩, []) else (r, [])
  else if m.w0 = nsOpLookup ∧ m.transferredSlot ≠ 0 then
    match r.lookup name with
    | some entry => (r, [⟨m.transferredSlot, 1, 0, 0, entry.slot⟩])
    | none => (r, [⟨m.transferredSlot, 0, 0, 0, 0⟩])
  else (r, [])

def after (messages : List RecvResult) : Registry := messages.foldl (fun r m => (r.handle m).1) empty

end Registry

/-! ## What a message is entitled to -/

/-- The message registers a capability under the name, and its sender may. -/
def Registers (m : RecvResult) (name : List UInt8) : Prop :=
  m.w0 = nsOpRegister ∧ packedName m.w1 m.w2 = name ∧ (m.sender, name) ∈ allowlist ∧ m.transferredSlot ≠ 0

/-- The latest message to register the name brought this slot. -/
def Latest (messages : List RecvResult) (name : List UInt8) (slot : UInt32) : Prop :=
  ∃ earlier m later, messages = earlier ++ m :: later ∧ Registers m name ∧ m.transferredSlot = slot ∧
    ∀ m' ∈ later, ¬ Registers m' name

private theorem latest_append_single (messages : List RecvResult) (m : RecvResult) (name : List UInt8) (slot : UInt32) :
    Latest (messages ++ [m]) name slot ↔
      (Registers m name ∧ m.transferredSlot = slot) ∨ (¬ Registers m name ∧ Latest messages name slot) := by
  constructor
  · rintro ⟨earlier, found, later, split, registers, brought, quiet⟩
    rcases List.eq_nil_or_concat later with rfl | ⟨front, last, rfl⟩
    · obtain ⟨rfl, same⟩ := List.append_inj' split rfl
      cases same
      exact .inl ⟨registers, brought⟩
    · have regrouped : messages ++ [m] = (earlier ++ found :: front) ++ [last] := by simp [split]
      obtain ⟨rfl, same⟩ := List.append_inj' regrouped rfl
      cases same
      exact .inr ⟨quiet _ (by simp), earlier, found, front, rfl, registers, brought,
        fun m' member => quiet m' (by simp [member])⟩
  · rintro (⟨registers, brought⟩ | ⟨silent, earlier, found, later, rfl, registers, brought, quiet⟩)
    · exact ⟨messages, m, [], rfl, registers, brought, by simp⟩
    · refine ⟨earlier, found, later ++ [m], by simp, registers, brought, ?_⟩
      intro m' member
      rcases List.mem_append.mp member with before | last
      · exact quiet m' before
      · rwa [List.mem_singleton.mp last]

theorem Latest.allowed {messages : List RecvResult} {name : List UInt8} {slot : UInt32}
    (latest : Latest messages name slot) : name ∈ allowlist.map Prod.snd := by
  obtain ⟨_, m, _, _, ⟨_, _, listed, _⟩, _⟩ := latest
  exact List.mem_map.mpr ⟨_, listed, rfl⟩

/-- The name service cuts names to eight bytes and fills shorter ones with zeros. -/
def padded (name : List UInt8) : List UInt8 := name.take 8 ++ List.replicate (8 - name.length) 0

private theorem packedName_packName (name : List UInt8) : packedName (packName name).1 (packName name).2 = padded name := by
  have bytes : packedName (packName name).1 (packName name).2 = (List.range 8).map fun i => (name.take 8).getD i 0 := by
    simp only [packedName, packName, le32_fromLe32]
    rfl
  refine bytes.trans (List.ext_getElem (by simp [padded]; omega) fun i inside inside' => ?_)
  simp only [List.length_map, List.length_range] at inside
  simp only [List.getElem_map, List.getElem_range, List.getD_eq_getElem?_getD, padded, List.getElem_append]
  split
  · rename_i short
    rw [List.getElem?_eq_getElem short]
    rfl
  · rename_i long
    rw [List.getElem?_eq_none (by omega), List.getElem_replicate]
    rfl

namespace Registry

variable {m : RecvResult} {r : Registry} {name : List UInt8} {messages : List RecvResult}

private theorem handle_registers (registers : Registers m name) (r : Registry) :
    r.handle m = (r.register ⟨name, m.transferredSlot⟩, []) := by
  obtain ⟨isRegister, rfl, listed, carries⟩ := registers
  have allowed : (allowlist.any fun pair => pair.1 == m.sender && pair.2 == packedName m.w1 m.w2) = true :=
    List.any_eq_true.mpr ⟨_, listed, by simp⟩
  simp [handle, isRegister, allowed, carries]

private theorem handle_keeps (silent : ∀ name, ¬ Registers m name) (r : Registry) : (r.handle m).1 = r := by
  unfold handle
  dsimp only
  split
  · rename_i isRegister
    rw [if_neg]
    intro entitled
    simp only [Bool.and_eq_true, List.any_eq_true, beq_iff_eq, bne_iff_ne] at entitled
    obtain ⟨⟨⟨id, name⟩, listed, rfl, rfl⟩, carries⟩ := entitled
    exact silent _ ⟨isRegister, rfl, listed, carries⟩
  · split
    · split <;> rfl
    · rfl

/-! ## The table records the messages -/

/-- The table holds one entry for each name registered, with the slot of the latest message. -/
structure Records (r : Registry) (messages : List RecvResult) : Prop where
  distinct : Keyed.Distinct Entry.name r.entries
  held : ∀ name slot, some ⟨name, slot⟩ ∈ r.entries ↔ Latest messages name slot

private theorem records_empty : Records empty [] where
  distinct := by
    intro i j x y isX
    simp [empty, List.getElem?_replicate] at isX
  held := by
    intro name slot
    simp [empty, Latest]

theorem Records.room (records : Records r messages) (name : List UInt8) :
    (Keyed.place Entry.name r.entries name).isSome := by
  refine Keyed.place_isSome_of_free _ (records.distinct.free (allowlist.map Prod.snd) ?_ ?_) name
  · intro entry member
    exact ((records.held entry.name entry.slot).mp member).allowed
  · rw [r.size]
    decide

theorem Records.handle (records : Records r messages) (m : RecvResult) :
    Records (r.handle m).1 (messages ++ [m]) := by
  by_cases entitled : ∃ name, Registers m name
  · obtain ⟨own, registers⟩ := entitled
    have only : ∀ name, Registers m name ↔ name = own := by
      intro name
      refine ⟨fun again => again.2.1.symm.trans registers.2.1, ?_⟩
      rintro rfl
      exact registers
    rw [handle_registers registers]
    refine ⟨records.distinct.put _, fun name slot => ?_⟩
    have stored := records.distinct.mem_put ⟨own, m.transferredSlot⟩ (records.room own) ⟨name, slot⟩
    rw [latest_append_single, only, ← records.held]
    refine stored.trans ?_
    simp only [Entry.mk.injEq]
    grind
  · have silent : ∀ name, ¬ Registers m name := not_exists.mp entitled
    rw [handle_keeps silent]
    refine ⟨records.distinct, fun name slot => ?_⟩
    rw [latest_append_single, records.held]
    simp [silent name]

private theorem records_after (messages : List RecvResult) : Records (after messages) messages := by
  suffices run : ∀ r earlier, Records r earlier →
      Records (messages.foldl (fun r m => (r.handle m).1) r) (earlier ++ messages) from run empty [] records_empty
  induction messages with
  | nil => exact fun r earlier records => by simpa using records
  | cons m later ih =>
    intro r earlier records
    have step := ih _ _ (records.handle m)
    rwa [List.append_assoc] at step

/-! ## Lookups -/

private theorem lookup_eq_some {entry : Entry} (found : r.lookup name = some entry) :
    some ⟨name, entry.slot⟩ ∈ r.entries := by
  have isName : entry.name = name := by simpa using List.find?_some found
  obtain ⟨stored, member, isEntry⟩ := List.mem_filterMap.mp (List.mem_of_find?_eq_some found)
  have isStored : stored = some entry := isEntry
  subst isName isStored
  exact member

private theorem lookup_eq_none (missing : r.lookup name = none) (slot : UInt32) :
    some ⟨name, slot⟩ ∉ r.entries := by
  intro member
  have differs := List.find?_eq_none.mp missing ⟨name, slot⟩ (List.mem_filterMap.mpr ⟨_, member, rfl⟩)
  simp at differs

private theorem handle_lookup (asks : m.w0 = nsOpLookup) (replies : m.transferredSlot ≠ 0) (r : Registry) :
    (∃ slot, some ⟨packedName m.w1 m.w2, slot⟩ ∈ r.entries ∧ r.handle m = (r, [⟨m.transferredSlot, 1, 0, 0, slot⟩])) ∨
      ((∀ slot, some ⟨packedName m.w1 m.w2, slot⟩ ∉ r.entries) ∧
        r.handle m = (r, [⟨m.transferredSlot, 0, 0, 0, 0⟩])) := by
  have other : m.w0 ≠ nsOpRegister := by
    rw [asks]
    decide
  unfold handle
  dsimp only
  rw [if_neg other, if_pos ⟨asks, replies⟩]
  split
  · rename_i entry found
    exact .inl ⟨entry.slot, lookup_eq_some found, rfl⟩
  · rename_i missing
    exact .inr ⟨lookup_eq_none missing, rfl⟩

/-- What holds of the table after every sequence of messages, from any senders. -/
theorem after_records_registrations (messages : List RecvResult) :
    let r := after messages
    (∀ (i j : Nat) (x y : Entry), r.entries[i]? = some (some x) → r.entries[j]? = some (some y) → x.name = y.name → i = j) ∧
      (∀ name slot, some ⟨name, slot⟩ ∈ r.entries ↔ Latest messages name slot) ∧
      (∀ m name, Registers m name → (Keyed.place Entry.name r.entries name).isSome ∧
        some ⟨name, m.transferredSlot⟩ ∈ (r.handle m).1.entries) ∧
      (∀ m, (∀ name, ¬ Registers m name) → (r.handle m).1 = r) ∧
      ∀ m, m.w0 = nsOpLookup → m.transferredSlot ≠ 0 →
        (∃ slot, some ⟨packedName m.w1 m.w2, slot⟩ ∈ r.entries ∧ slot ≠ 0 ∧
          (r.handle m).2 = [⟨m.transferredSlot, 1, 0, 0, slot⟩]) ∨
        ((∀ slot, some ⟨packedName m.w1 m.w2, slot⟩ ∉ r.entries) ∧
          (r.handle m).2 = [⟨m.transferredSlot, 0, 0, 0, 0⟩]) := by
  have records := records_after messages
  refine ⟨records.distinct, records.held, ?_, fun m silent => handle_keeps silent _, ?_⟩
  · intro m name registers
    refine ⟨records.room name, ?_⟩
    exact ((records.handle m).held _ _).mpr
      ((latest_append_single messages m name _).mpr (.inl ⟨registers, rfl⟩))
  · intro m asks replies
    rcases handle_lookup asks replies (after messages) with ⟨slot, held, sends⟩ | ⟨absent, sends⟩
    · obtain ⟨_, m', _, _, ⟨_, _, _, carries⟩, brought, _⟩ := (records.held _ _).mp held
      exact .inl ⟨slot, held, brought ▸ carries, by rw [sends]⟩
    · exact .inr ⟨absent, by rw [sends]⟩

/-! ## Clients -/

/-- The message of `register_name` as it arrives: the kernel adds the sender and the slot of the capability. -/
def registerName (sender : UInt32) (name : List UInt8) (slot : UInt32) : RecvResult :=
  { sender, w0 := nsOpRegister, w1 := (packName name).1, w2 := (packName name).2, transferredSlot := slot }

/-- The message of `lookup_name` as it arrives, with the slot to reply to. -/
def lookupName (sender : UInt32) (name : List UInt8) (slot : UInt32) : RecvResult :=
  { sender, w0 := nsOpLookup, w1 := (packName name).1, w2 := (packName name).2, transferredSlot := slot }

theorem Records.slot_unique (records : Records r messages)
    {slot slot' : UInt32} (held : some ⟨name, slot⟩ ∈ r.entries)
    (held' : some ⟨name, slot'⟩ ∈ r.entries) : slot = slot' := by
  obtain ⟨i, isHeld⟩ := List.mem_iff_getElem?.mp held
  obtain ⟨j, isHeld'⟩ := List.mem_iff_getElem?.mp held'
  cases records.distinct i j _ _ isHeld isHeld' rfl
  rw [isHeld] at isHeld'
  cases isHeld'
  rfl

/-- What a trusted task registers is what everyone finds under its name, until that name is registered again. -/
theorem lookupName_finds {sender slot : UInt32} (listed : (sender, padded name) ∈ allowlist)
    (carries : slot ≠ 0) {earlier later : List RecvResult} (quiet : ∀ m ∈ later, ¬ Registers m (padded name))
    {client reply : UInt32} (replies : reply ≠ 0) :
    ((after (earlier ++ registerName sender name slot :: later)).handle (lookupName client name reply)).2 =
      [⟨reply, 1, 0, 0, slot⟩] := by
  have records := records_after (earlier ++ registerName sender name slot :: later)
  have registers : Registers (registerName sender name slot) (padded name) :=
    ⟨rfl, packedName_packName name, listed, carries⟩
  have held := (records.held (padded name) slot).mpr ⟨earlier, _, later, rfl, registers, rfl, quiet⟩
  rw [← packedName_packName] at held
  rcases handle_lookup (m := lookupName client name reply) rfl replies _ with ⟨slot', held', sends⟩ | ⟨absent, _⟩
  · rw [sends, records.slot_unique held held']
    rfl
  · exact absurd held (absent slot)

/-- The file system is found although another task tries to take its name. -/
theorem lookupName_finds_fs :
    ((after ([lookupName 5 [0x66, 0x73] 1] ++ registerName 4 [0x66, 0x73] 6 :: [registerName 5 [0x66, 0x73] 9])).handle
      (lookupName 8 [0x66, 0x73] 2)).2 = [⟨2, 1, 0, 0, 6⟩] := by
  refine lookupName_finds (by decide) (by decide) ?_ (by decide)
  exact List.forall_mem_singleton.mpr fun registers => absurd registers.2.2.1 (by decide)

end Registry
end Pcern.NameService

import Pcern.Circular
import Pcern.Lines
import Mathlib.Data.List.TakeWhile

/-!
What the reader of the console gets for what is typed: keys from a queue in raw mode, and lines in line mode. A terminal is the
console server with a reader connected to it; its events are the decoded keys and the reader's messages.
-/
namespace Pcern.Console

open Bytes Libpcern

/-! ## Events -/

inductive Event where
  | key (k : UInt32)
  | readLine
  | readKey
  | setMode (w1 : UInt32)
  deriving DecidableEq, Repr

def Server.message (s : Server) (w0 w1 : UInt32) : RecvResult := { sender := s.readerOwner, w0, w1, w2 := 0, transferredSlot := 0 }

def Server.on (s : Server) : Event → Server × List Act
  | .key k => s.key k
  | .readLine => s.handle false (s.message consoleOpReadLine 0)
  | .readKey => s.handle false (s.message consoleOpReadKey 0)
  | .setMode w1 => s.handle false (s.message consoleOpSetMode w1)

/-- A reader has connected its buffer and its endpoint. -/
structure Connected (s : Server) : Prop where
  owner : s.readerOwner ≠ Libpcern.kernelTaskId
  slot : s.readerSlot ≠ 0
  buffer : s.inputBufMapped = true

/-- The server with the page behind its input buffer. -/
structure Terminal where
  server : Server
  page : Memory

namespace Terminal

def step (t : Terminal) (e : Event) : Terminal × List Act :=
  ({ server := (t.server.on e).1, page := (t.server.on e).2.foldl (Act.onPage none) t.page }, (t.server.on e).2)

def run (t : Terminal) (es : List Event) : Terminal := es.foldl (fun t e => (t.step e).1) t

/-- The events with what the server did about them. -/
def log (t : Terminal) : List Event → List (Event × List Act)
  | [] => []
  | e :: es => (e, (t.step e).2) :: (t.step e).1.log es

private theorem run_append (t : Terminal) (es : List Event) (e : Event) : t.run (es ++ [e]) = ((t.run es).step e).1 := by
  simp only [run, List.foldl_append, List.foldl_cons, List.foldl_nil]

private theorem log_append (t : Terminal) (es : List Event) (e : Event) : t.log (es ++ [e]) = t.log es ++ [(e, ((t.run es).step e).2)] := by
  induction es generalizing t with
  | nil => rfl
  | cons first es more => exact congrArg (_ :: ·) (more (t.step first).1)

end Terminal

/-- What an event does to the pending input of a connected reader. -/
def Typing.on (t : Typing) (reader : UInt32) : Event → Typing × List Act
  | .key k =>
    if t.rawMode then t.rawKey reader k
    else if k ≥ 256 then (t, [])
    else if t.lineReady = false then t.lineKey reader k.toUInt8
    else (t, [])
  | .readLine => t.readLine true reader
  | .readKey => t.readKey reader
  | .setMode w1 => (t.setMode (w1 ≠ 0), [])

theorem Server.message_w0 (s : Server) (w0 w1 : UInt32) : (s.message w0 w1).w0 = w0 := rfl

theorem Server.handle_message {s : Server} (owner : s.readerOwner ≠ Libpcern.kernelTaskId) {w0 : UInt32} (other : w0 ≠ opPutchar)
    (w1 : UInt32) : s.handle false (s.message w0 w1) = s.request false (s.message w0 w1) := by
  rw [Server.handle, if_neg (show (s.message w0 w1).sender ≠ Libpcern.kernelTaskId from owner),
    if_neg (show (s.message w0 w1).w0 ≠ opPutchar from other)]

theorem Connected.on {s : Server} (connected : Connected s) (e : Event) :
    Connected (s.on e).1 ∧ (s.on e).1.readerSlot = s.readerSlot ∧ (s.on e).1.typing = (s.typing.on s.readerSlot e).1 ∧
      (s.on e).2 = (s.typing.on s.readerSlot e).2 := by
  obtain ⟨owner, slot, buffer⟩ := connected
  cases e with
  | key k =>
    simp only [Server.on, Server.key, Typing.on, buffer, true_and]
    split_ifs <;> exact ⟨⟨owner, slot, buffer⟩, rfl, rfl, rfl⟩
  | readLine =>
    have handled : s.on .readLine = s.typed (s.typing.readLine true s.readerSlot) := by
      rw [Server.on, Server.handle_message owner (by decide), Server.request, Server.message_w0, if_neg (by decide),
        if_neg (by decide), if_pos rfl, if_pos ⟨rfl, slot⟩, buffer]
    rw [handled]
    exact ⟨⟨owner, slot, buffer⟩, rfl, rfl, rfl⟩
  | readKey =>
    have handled : s.on .readKey = s.typed (s.typing.readKey s.readerSlot) := by
      rw [Server.on, Server.handle_message owner (by decide), Server.request, Server.message_w0, if_neg (by decide),
        if_neg (by decide), if_neg (by decide), if_neg (by decide), if_pos rfl, if_pos ⟨rfl, slot⟩]
    rw [handled]
    exact ⟨⟨owner, slot, buffer⟩, rfl, rfl, rfl⟩
  | setMode w1 =>
    have handled : s.on (.setMode w1) = ({ s with typing := s.typing.setMode (w1 ≠ 0) }, []) := by
      rw [Server.on, Server.handle_message owner (by decide), Server.request, Server.message_w0, if_neg (by decide),
        if_neg (by decide), if_neg (by decide), if_pos rfl]
      exact if_pos rfl
    rw [handled]
    exact ⟨⟨owner, slot, buffer⟩, rfl, rfl, rfl⟩

section
variable {t : Terminal}

theorem Terminal.step_spec (connected : Connected t.server) (e : Event) :
    Connected (t.step e).1.server ∧ (t.step e).1.server.readerSlot = t.server.readerSlot ∧
      (t.step e).1.server.typing = (t.server.typing.on t.server.readerSlot e).1 ∧
      (t.step e).2 = (t.server.typing.on t.server.readerSlot e).2 ∧
      (t.step e).1.page = (t.server.typing.on t.server.readerSlot e).2.foldl (Act.onPage none) t.page := by
  obtain ⟨still, slot, typing, acts⟩ := connected.on e
  exact ⟨still, slot, typing, acts, by rw [← acts]; rfl⟩

theorem Terminal.run_spec (connected : Connected t.server) (es : List Event) :
    Connected (t.run es).server ∧ (t.run es).server.readerSlot = t.server.readerSlot := by
  induction es using List.reverseRecOn with
  | nil => exact ⟨connected, rfl⟩
  | append_singleton es e before =>
    obtain ⟨still, slot, -⟩ := (t.run es).step_spec before.1 e
    rw [t.run_append]
    exact ⟨still, slot.trans before.2⟩

end

/-! ## The key queue -/

/-- What is known of the keys of a session in raw mode: those that arrived and were not dropped, those that were delivered, and
    whether the reader waits for one. -/
structure Tally where
  arrived : List UInt32
  delivered : List UInt32
  waiting : Bool

/-- A key is dropped if it arrives while 32 are unclaimed. -/
def Tally.next (y : Tally) (e : Event × List Act) : Tally where
  arrived :=
    match e.1 with
    | .key k => if y.arrived.length - y.delivered.length = keyQueueCap then y.arrived else y.arrived ++ [k]
    | _ => y.arrived
  delivered := y.delivered ++ e.2.filterMap Act.value
  waiting :=
    match e.1 with
    | .key _ => y.waiting && (e.2.filterMap Act.value).isEmpty
    | .readKey => (e.2.filterMap Act.value).isEmpty
    | _ => y.waiting

def tally (log : List (Event × List Act)) : Tally := log.foldl Tally.next { arrived := [], delivered := [], waiting := false }

def Typing.queued (t : Typing) : List UInt32 := Circular.contents t.keyQueue keyQueueCap t.keyQueueHead t.keyQueueLen

/-- The queue is one bounded queue: what was delivered and what it holds is what arrived, in order, and a reader that waits has been
    given everything. -/
structure InOrder (y : Tally) (t : Typing) : Prop where
  keys : y.delivered ++ t.queued = y.arrived
  waits : t.keyArmed = y.waiting
  armed : t.keyArmed = true → t.keyQueueLen = 0
  head : t.keyQueueHead < keyQueueCap
  len : t.keyQueueLen ≤ keyQueueCap

def Event.ForKeys : Event → Prop
  | .key _ => True
  | .readKey => True
  | _ => False

section
variable {y : Tally} {t : Typing} {reader : UInt32}

theorem InOrder.unclaimed (order : InOrder y t) : y.arrived.length - y.delivered.length = t.keyQueueLen := by
  rw [← order.keys, List.length_append, Nat.add_sub_cancel_left, Typing.queued, Circular.length_contents]

theorem InOrder.key (order : InOrder y t) (raw : t.rawMode = true) (known : reader ≠ 0) (k : UInt32) :
    InOrder (y.next (.key k, (t.on reader (.key k)).2)) (t.on reader (.key k)).1 ∧ (t.on reader (.key k)).1.rawMode = true := by
  have unclaimed := order.unclaimed
  have isRaw : t.on reader (.key k) = t.rawKey reader k := if_pos raw
  rw [isRaw, Typing.rawKey]
  by_cases armed : t.keyArmed = true
  · -- the reader waits, so the queue is empty and the key goes past it
    have empty := order.armed armed
    have nothing : t.queued = [] := by rw [Typing.queued, empty, Circular.contents_empty]
    have all := order.keys
    rw [nothing, List.append_nil] at all
    rw [if_pos ⟨armed, known⟩]
    refine ⟨⟨?_, ?_, fun armed' => absurd armed' Bool.false_ne_true, order.head, order.len⟩, raw⟩
    · simp only [Tally.next, List.filterMap_cons, List.filterMap_nil, Act.value, unclaimed, empty]
      rw [if_neg (by decide), ← all]
      exact List.append_nil _
    · simp [Tally.next, Act.value]
  rw [if_neg fun both => armed both.1]
  by_cases room : t.keyQueueLen < keyQueueCap
  · rw [if_pos room]
    refine ⟨⟨?_, ?_, fun armed' => absurd armed' armed, order.head, room⟩, raw⟩
    · simp only [Tally.next, List.filterMap_nil, List.append_nil, unclaimed]
      rw [if_neg (Nat.ne_of_lt room), ← order.keys, List.append_assoc]
      exact congrArg (y.delivered ++ ·) (Circular.contents_push room k)
    · simp [Tally.next, order.waits]
  · have full : t.keyQueueLen = keyQueueCap := Nat.le_antisymm order.len (Nat.le_of_not_lt room)
    rw [if_neg room]
    refine ⟨⟨?_, ?_, order.armed, order.head, order.len⟩, raw⟩
    · simp only [Tally.next, List.filterMap_nil, List.append_nil, unclaimed]
      rw [if_pos full, order.keys]
    · simp [Tally.next, order.waits]

theorem InOrder.readKey (order : InOrder y t) (raw : t.rawMode = true) :
    InOrder (y.next (.readKey, (t.on reader .readKey).2)) (t.on reader .readKey).1 ∧ (t.on reader .readKey).1.rawMode = true := by
  rw [Typing.on, Typing.readKey]
  by_cases some : t.keyQueueLen > 0
  · obtain ⟨len, isLen⟩ : ∃ len, t.keyQueueLen = len + 1 := ⟨t.keyQueueLen - 1, by omega⟩
    have unarmed : t.keyArmed = false := Bool.eq_false_iff.mpr fun armed => by have := order.armed armed; omega
    rw [if_pos some]
    refine ⟨⟨?_, ?_, fun armed => ?_, Nat.mod_lt _ (by decide), ?_⟩, raw⟩
    · simp only [Tally.next, List.filterMap_cons, List.filterMap_nil, Act.value, Typing.queued]
      rw [← order.keys, List.append_assoc, Typing.queued, isLen, Circular.contents_pop order.head]
      rfl
    · simp [Tally.next, Act.value, unarmed]
    · rw [unarmed] at armed
      cases armed
    · have := order.len
      dsimp only
      omega
  · have empty : t.keyQueueLen = 0 := by omega
    rw [if_neg some]
    refine ⟨⟨?_, ?_, fun _ => empty, order.head, order.len⟩, raw⟩
    · simp only [Tally.next, List.filterMap_nil, List.append_nil]
      exact order.keys
    · simp [Tally.next]

/-- In line mode a reader of keys gets nothing. -/
structure Deaf (t : Typing) : Prop where
  line : t.rawMode = false
  unarmed : t.armed = false
  empty : t.keyQueueLen = 0

theorem Deaf.on (deaf : Deaf t) (reader : UInt32) {e : Event} (forKeys : e.ForKeys) :
    Deaf (t.on reader e).1 ∧ (t.on reader e).2.filterMap Act.value = [] := by
  obtain ⟨line, unarmed, empty⟩ := deaf
  cases e with
  | key k =>
    rw [Typing.on, if_neg (by simp [line]), Typing.lineKey]
    split_ifs with large ready erases ends armed
    · exact ⟨⟨line, unarmed, empty⟩, rfl⟩
    · exact ⟨⟨line, unarmed, empty⟩, rfl⟩
    · exact absurd armed.1 (by simp [unarmed])
    all_goals exact ⟨⟨line, unarmed, empty⟩, rfl⟩
  | readKey =>
    rw [Typing.on, Typing.readKey, if_neg (by omega)]
    exact ⟨⟨line, unarmed, empty⟩, rfl⟩
  | readLine => exact forKeys.elim
  | setMode w1 => exact forKeys.elim

end

private theorem tally_append (log : List (Event × List Act)) (e : Event × List Act) : tally (log ++ [e]) = (tally log).next e := by
  simp only [tally, List.foldl_append, List.foldl_cons, List.foldl_nil]

section
variable {t : Terminal} {es : List Event}

private theorem inOrder_run (connected : Connected t.server) (raw : t.server.typing.rawMode = true)
    (start : InOrder (tally []) t.server.typing) (forKeys : ∀ e ∈ es, e.ForKeys) :
    InOrder (tally (t.log es)) (t.run es).server.typing ∧ (t.run es).server.typing.rawMode = true := by
  induction es using List.reverseRecOn with
  | nil => exact ⟨start, raw⟩
  | append_singleton es e before =>
    obtain ⟨order, still⟩ := before fun e member => forKeys e (List.mem_append_left _ member)
    obtain ⟨known, -⟩ := t.run_spec connected es
    obtain ⟨-, -, typing, acts, -⟩ := (t.run es).step_spec known e
    rw [t.log_append, tally_append, t.run_append, typing, acts]
    have kind : e.ForKeys := forKeys e (by simp)
    cases e with
    | key k => exact order.key still known.slot k
    | readKey => exact order.readKey still
    | readLine => exact kind.elim
    | setMode w1 => exact kind.elim

private theorem deaf_run (connected : Connected t.server) (deaf : Deaf t.server.typing) (forKeys : ∀ e ∈ es, e.ForKeys) :
    Deaf (t.run es).server.typing ∧ (tally (t.log es)).delivered = [] := by
  induction es using List.reverseRecOn with
  | nil => exact ⟨deaf, rfl⟩
  | append_singleton es e before =>
    obtain ⟨still, none⟩ := before fun e member => forKeys e (List.mem_append_left _ member)
    obtain ⟨known, -⟩ := t.run_spec connected es
    obtain ⟨-, -, typing, acts, -⟩ := (t.run es).step_spec known e
    obtain ⟨next, silent⟩ := still.on (t.run es).server.readerSlot (forKeys e (by simp))
    rw [t.log_append, tally_append, t.run_append, typing, acts]
    exact ⟨next, by rw [Tally.next, none, silent]; rfl⟩

/--
The keys of a reader in raw mode: whatever was pending when the mode was set, any keys and requests after it make one bounded
queue. In line mode nothing is delivered to a request for a key.
-/
theorem keys_in_order (connected : Connected t.server) (w1 : UInt32) (forKeys : ∀ e ∈ es, e.ForKeys) :
    (w1 ≠ 0 → InOrder (tally ((t.step (.setMode w1)).1.log es)) ((t.step (.setMode w1)).1.run es).server.typing) ∧
      (w1 = 0 → (tally ((t.step (.setMode w1)).1.log es)).delivered = []) := by
  obtain ⟨still, -, typing, -⟩ := t.step_spec connected (.setMode w1)
  constructor
  · intro raw
    refine (inOrder_run still ?_ ?_ forKeys).1
    · rw [typing]
      exact decide_eq_true raw
    · rw [typing]
      exact ⟨rfl, rfl, fun _ => rfl, Nat.zero_lt_succ _, Nat.zero_le _⟩
  · intro line
    refine (deaf_run still ?_ forKeys).2
    rw [typing]
    exact ⟨by simp [Typing.on, Typing.setMode, line], rfl, rfl⟩

end

/-- A server with a reader, before anything is typed. -/
def connectedServer : Server := { Server.start (fun _ => 0) with inputBufMapped := true, readerSlot := 5, readerOwner := 8 }

private theorem connectedServer_connected : Connected connectedServer := ⟨by decide, by decide, rfl⟩

/-- A key before the request for it, and one after. -/
def twoKeys : List Event := [.key 97, .readKey, .readKey, .key 98]

theorem two_keys_in_order :
    (tally (((Terminal.mk connectedServer fun _ => 0).step (.setMode 1)).1.log twoKeys)).delivered ++
      (((Terminal.mk connectedServer fun _ => 0).step (.setMode 1)).1.run twoKeys).server.typing.queued = [97, 98] := by
  have forKeys : ∀ e ∈ twoKeys, e.ForKeys := by
    simp only [twoKeys, List.forall_mem_cons]
    exact ⟨trivial, trivial, trivial, trivial, by simp⟩
  have order := keys_in_order (t := ⟨connectedServer, fun _ => 0⟩) connectedServer_connected 1 forKeys
  exact (order.1 (by decide)).keys.trans (by decide +kernel)

/-! ## Lines -/

/-- The line with one more key; keys without a character do not count. -/
def editKey (line : List UInt8) (k : UInt32) : List UInt8 := if k ≥ 256 then line else editLine line k.toUInt8

/-- The line that these keys make, up to the newline that completes it. -/
def lineOf (keys : List UInt32) : List UInt8 := (keys.takeWhile (· ≠ 10)).foldl editKey []

def Event.keys : Event → List UInt32
  | .key k => [k]
  | _ => []

def answers (acts : List Act) : Bool := acts.any fun a => a.value.isSome

/-- The keys since the last line was handed over or the mode was changed. -/
def keysSince (log : List (Event × List Act)) : List UInt32 :=
  log.foldl (fun keys e => if answers e.2 then [] else
    match e.1 with
    | .setMode _ => []
    | _ => keys ++ e.1.keys) []

def Event.ForLines : Event → Prop
  | .readKey => False
  | _ => True

/-- The pending input of a reader of lines, after these keys. -/
structure Accumulates (keys : List UInt32) (t : Typing) (page : Memory) : Prop where
  idle : t.keyArmed = false
  raw : t.rawMode = true → t.lineReady = false
  length : t.rawMode = false → t.lineLen = (lineOf keys).length
  page : t.rawMode = false → slice page 0 t.lineLen = lineOf keys
  ready : t.rawMode = false → (t.lineReady = true ↔ 10 ∈ keys)
  apart : t.armed = true → t.lineReady = false

section
variable {keys : List UInt32} {t : Typing} {page : Memory} {reader : UInt32}

private theorem lineOf_append (keys : List UInt32) (k : UInt32) :
    lineOf (keys ++ [k]) = if 10 ∈ keys ∨ k = 10 then lineOf keys else editKey (lineOf keys) k := by
  unfold lineOf
  by_cases complete : 10 ∈ keys
  · rw [if_pos (.inl complete), List.takeWhile_append, if_neg]
    intro whole
    have all := List.takeWhile_eq_self_iff.mp ((List.takeWhile_prefix _).eq_of_length whole)
    exact absurd (all 10 complete) (by decide)
  · have all : ∀ x ∈ keys, decide (x ≠ 10) = true := fun x member => decide_eq_true fun same => complete (same ▸ member)
    rw [List.takeWhile_append_of_pos all, List.takeWhile_eq_self_iff.mpr all]
    by_cases newline : k = 10
    · rw [if_pos (.inr newline), newline]
      exact congrArg (List.foldl editKey []) (List.append_nil keys)
    · rw [if_neg (not_or.mpr ⟨complete, newline⟩), List.takeWhile_cons, if_pos (decide_eq_true newline), List.takeWhile_nil,
        List.foldl_append]
      rfl

private theorem length_editLine_le {line : List UInt8} (short : line.length ≤ consoleLineMax) (c : UInt8) :
    (editLine line c).length ≤ consoleLineMax := by
  unfold editLine
  split_ifs with erases ends room
  · rw [List.length_dropLast]
    omega
  · exact short
  · rw [List.length_append, List.length_singleton]
    exact room
  · exact short

private theorem length_lineOf_le (keys : List UInt32) : (lineOf keys).length ≤ consoleLineMax := by
  unfold lineOf
  have empty : ([] : List UInt8).length ≤ consoleLineMax := Nat.zero_le _
  refine List.foldlRecOn (motive := fun line => line.length ≤ consoleLineMax) _ editKey empty fun line short k _ => ?_
  unfold editKey
  split
  · exact short
  · exact length_editLine_le short _

private theorem toNat_length_lineOf (keys : List UInt32) : (UInt32.ofNat (lineOf keys).length).toNat = (lineOf keys).length := by
  have short := length_lineOf_le keys
  simp only [consoleLineMax] at short
  exact UInt32.toNat_ofNat_of_lt' (by change _ < 2 ^ 32; omega)

/-- The keys after an event that is not answered. -/
def Event.after (keys : List UInt32) : Event → List UInt32
  | .setMode _ => []
  | e => keys ++ e.keys

/-- Whether a request is outstanding after an event that is not answered, and the mode after it. -/
def Event.arms (armed : Bool) : Event → Bool
  | .readLine => true
  | .setMode _ => false
  | _ => armed

def Event.sets (rawMode : Bool) : Event → Bool
  | .setMode w1 => w1 ≠ 0
  | _ => rawMode

/-- What an event comes to for a reader of lines. -/
inductive LineStep (keys : List UInt32) (t : Typing) (page : Memory) (reader : UInt32) (e : Event) (t' : Typing) (acts : List Act) : Prop
    where
  | answered (line : t.rawMode = false) (complete : 10 ∈ keys ++ e.keys)
      (acts : acts = [.send reader (UInt32.ofNat (lineOf (keys ++ e.keys)).length)])
      (there : slice page 0 (lineOf (keys ++ e.keys)).length = lineOf (keys ++ e.keys))
      (next : Accumulates [] t' page) (unarmed : t'.armed = false)
      (why : e = .readLine ∧ t.armed = false ∨ e = .key 10 ∧ t.armed = true)
  | silent (quiet : answers acts = false) (next : Accumulates (e.after keys) t' (acts.foldl (Act.onPage none) page))
      (armed : t'.armed = e.arms t.armed) (mode : t'.rawMode = e.sets t.rawMode)
      (newline : e = .key 10 → t.rawMode = false → t.armed = false)

theorem Accumulates.rawKey (acc : Accumulates keys t page) (raw : t.rawMode = true) (k : UInt32) :
    LineStep keys t page reader (.key k) (t.on reader (.key k)).1 (t.on reader (.key k)).2 := by
  have isRaw : t.on reader (.key k) = t.rawKey reader k := if_pos raw
  rw [isRaw, Typing.rawKey, if_neg fun both => by rw [acc.idle] at both; exact absurd both.1 Bool.false_ne_true]
  have line (no : t.rawMode = false) : False := by
    rw [raw] at no
    cases no
  split_ifs
  all_goals
    exact .silent rfl ⟨acc.idle, acc.raw, fun no => (line no).elim, fun no => (line no).elim, fun no => (line no).elim, acc.apart⟩
      rfl rfl fun _ no => (line no).elim

theorem Accumulates.passedKey (acc : Accumulates keys t page) (line : t.rawMode = false) {k : UInt32} (other : 10 ∈ keys ∨ k ≠ 10)
    (same : lineOf (keys ++ [k]) = lineOf keys) : LineStep keys t page reader (.key k) t [] := by
  refine .silent rfl ⟨acc.idle, acc.raw, fun _ => ?_, fun _ => ?_, fun _ => ?_, acc.apart⟩ rfl rfl fun isKey _ => ?_
  · exact (acc.length line).trans (congrArg List.length same.symm)
  · exact (acc.page line).trans same.symm
  · rw [acc.ready line]
    show 10 ∈ keys ↔ 10 ∈ keys ++ [k]
    rw [List.mem_append, List.mem_singleton]
    exact ⟨.inl, fun member => member.elim id fun newline => other.elim id fun not => absurd newline.symm not⟩
  · cases isKey
    refine Bool.eq_false_iff.mpr fun armed => ?_
    have complete := (acc.ready line).mpr (other.elim id fun not => absurd rfl not)
    rw [acc.apart armed] at complete
    cases complete

private theorem toUInt8_eq_newline {k : UInt32} (small : ¬k ≥ 256) : k.toUInt8 = 0x0A ↔ k = 10 := by
  have less : k.toNat < 256 := by
    rw [ge_iff_le, UInt32.le_iff_toNat_le] at small
    exact Nat.lt_of_not_le small
  constructor
  · intro newline
    have same := congrArg UInt8.toNat newline
    rw [UInt32.toNat_toUInt8, Nat.mod_eq_of_lt less] at same
    exact UInt32.toNat_inj.mp same
  · rintro rfl
    rfl

theorem Accumulates.lineKey (acc : Accumulates keys t page) (line : t.rawMode = false) (known : reader ≠ 0) {k : UInt32}
    (small : ¬k ≥ 256) (ready : t.lineReady = false) :
    LineStep keys t page reader (.key k) (t.lineKey reader k.toUInt8).1 (t.lineKey reader k.toUInt8).2 := by
  have incomplete : 10 ∉ keys := fun complete => by
    rw [(acc.ready line).mpr complete] at ready
    cases ready
  have edited (other : k ≠ 10) : lineOf (keys ++ [k]) = editLine (lineOf keys) k.toUInt8 := by
    rw [lineOf_append, if_neg (not_or.mpr ⟨incomplete, other⟩), editKey, if_neg small]
  have length := acc.length line
  have still (other : k ≠ 10) : false = true ↔ 10 ∈ keys ++ [k] := by
    simp [incomplete, Ne.symm other]
  by_cases newline : k = 10
  · subst newline
    have same : lineOf (keys ++ [10]) = lineOf keys := by rw [lineOf_append, if_pos (.inr rfl)]
    have there : slice page 0 (lineOf (keys ++ [10])).length = lineOf (keys ++ [10]) := by
      rw [same, ← length]
      exact acc.page line
    have isLine : t.lineKey reader (10 : UInt32).toUInt8 =
        if t.armed ∧ reader ≠ 0 then ({ t with armed := false, lineLen := 0 }, [.send reader (UInt32.ofNat t.lineLen)])
        else ({ t with lineReady := true }, []) := rfl
    rw [isLine]
    by_cases armed : t.armed = true
    · rw [if_pos ⟨armed, known⟩, length, ← same]
      exact .answered line (by simp [Event.keys]) rfl there
        ⟨acc.idle, fun _ => ready, fun _ => rfl, fun _ => rfl, fun _ => by simp [ready], fun _ => ready⟩ rfl (.inr ⟨rfl, armed⟩)
    · rw [if_neg fun both => armed both.1]
      refine .silent rfl ⟨acc.idle, fun raw => ?_, fun _ => ?_, fun _ => ?_, fun _ => ?_, fun armed' => absurd armed' armed⟩ rfl rfl
        fun _ _ => Bool.eq_false_iff.mpr armed
      · rw [show t.rawMode = true from raw] at line
        cases line
      · exact length.trans (congrArg List.length same.symm)
      · exact (acc.page line).trans same.symm
      · simp [Event.after, Event.keys]
  · have ends : k.toUInt8 ≠ 0x0A := fun isEnd => newline ((toUInt8_eq_newline small).mp isEnd)
    have quiet {P : Prop} (isKey : Event.key k = .key 10) : P := by
      cases isKey
      exact absurd rfl newline
    unfold Typing.lineKey
    by_cases erases : k.toUInt8 = 8
    · have shorter : lineOf (keys ++ [k]) = (lineOf keys).dropLast := by rw [edited newline, editLine, if_pos erases]
      rw [if_pos erases]
      refine .silent rfl ⟨acc.idle, acc.raw, fun _ => ?_, fun _ => ?_, fun _ => ?_, acc.apart⟩ rfl rfl fun isKey => quiet isKey
      · show t.lineLen - 1 = (lineOf (keys ++ [k])).length
        rw [shorter, List.length_dropLast, length]
      · show slice page 0 (t.lineLen - 1) = lineOf (keys ++ [k])
        rw [shorter, List.dropLast_eq_take, ← length, ← acc.page line, slice_take _ _ (Nat.sub_le _ _)]
      · show t.lineReady = true ↔ _
        rw [ready]
        exact still newline
    rw [if_neg erases, if_neg ends]
    by_cases room : t.lineLen < consoleLineMax
    · have longer : lineOf (keys ++ [k]) = lineOf keys ++ [k.toUInt8] := by
        rw [edited newline, editLine, if_neg erases, if_neg ends, if_pos (length ▸ room)]
      rw [if_pos room]
      refine .silent rfl ⟨acc.idle, acc.raw, fun _ => ?_, fun _ => ?_, fun _ => ?_, acc.apart⟩ rfl rfl fun isKey => quiet isKey
      · show t.lineLen + 1 = (lineOf (keys ++ [k])).length
        rw [longer, List.length_append, length, List.length_singleton]
      · show slice (write8 page t.lineLen k.toUInt8) 0 (t.lineLen + 1) = lineOf (keys ++ [k])
        rw [longer, Session.slice_write8_end, acc.page line]
      · show t.lineReady = true ↔ _
        rw [ready]
        exact still newline
    · rw [if_neg room]
      refine acc.passedKey line (.inr newline) ?_
      rw [edited newline, editLine, if_neg erases, if_neg ends, if_neg (length ▸ room)]

theorem Accumulates.on (acc : Accumulates keys t page) (known : reader ≠ 0) {e : Event} (forLines : e.ForLines) :
    LineStep keys t page reader e (t.on reader e).1 (t.on reader e).2 := by
  cases e with
  | key k =>
    by_cases raw : t.rawMode = true
    · exact acc.rawKey raw k
    have line : t.rawMode = false := Bool.eq_false_iff.mpr raw
    rw [Typing.on, if_neg raw]
    by_cases large : k ≥ 256
    · have other : k ≠ 10 := by
        rintro rfl
        exact absurd large (by decide)
      rw [if_pos large]
      refine acc.passedKey line (.inr other) ?_
      rw [lineOf_append, editKey, if_pos large, ite_self]
    rw [if_neg large]
    by_cases ready : t.lineReady = false
    · rw [if_pos ready]
      exact acc.lineKey line known large ready
    · have complete := (acc.ready line).mp (Bool.eq_true_of_not_eq_false ready)
      rw [if_neg ready]
      exact acc.passedKey line (.inl complete) (by rw [lineOf_append, if_pos (.inl complete)])
  | readLine =>
    have none : keys ++ Event.readLine.keys = keys := List.append_nil keys
    rw [Typing.on, Typing.readLine, if_neg (by decide)]
    by_cases ready : t.lineReady = true
    · have line : t.rawMode = false := Bool.eq_false_iff.mpr fun raw => by
        rw [acc.raw raw] at ready
        cases ready
      have unarmed : t.armed = false := Bool.eq_false_iff.mpr fun armed => by
        rw [acc.apart armed] at ready
        cases ready
      rw [if_pos ready, acc.length line]
      refine .answered line ?_ (by rw [none]) ?_ ⟨acc.idle, fun _ => rfl, fun _ => rfl, fun _ => rfl, fun _ => by simp, fun _ => rfl⟩
        unarmed (.inl ⟨rfl, unarmed⟩)
      · rw [none]
        exact (acc.ready line).mp ready
      · rw [none, ← acc.length line]
        exact acc.page line
    · have waiting : t.lineReady = false := Bool.eq_false_iff.mpr ready
      rw [if_neg ready]
      have same : Event.readLine.after keys = keys := none
      refine .silent rfl ⟨acc.idle, acc.raw, fun line => ?_, fun line => ?_, fun line => ?_, fun _ => waiting⟩ rfl rfl
        fun isKey => by cases isKey
      · rw [same]
        exact acc.length line
      · rw [same]
        exact acc.page line
      · rw [same]
        exact acc.ready line
  | readKey => exact forLines.elim
  | setMode w1 =>
    rw [Typing.on]
    exact .silent rfl ⟨rfl, fun _ => rfl, fun _ => rfl, fun _ => rfl, fun _ => by simp [Typing.setMode, Event.after], fun _ => rfl⟩ rfl rfl
      fun isKey => by cases isKey

end

/-! ## Requests and answers -/

abbrev Log := List (Event × List Act)

def requests (log : Log) : Nat := log.countP fun e => e.1 = .readLine

def replies (log : Log) : Nat := log.countP fun e => answers e.2

def newlines (log : Log) : Nat := log.countP fun e => e.1 = .key 10

/-- No line is being typed and nothing is asked for. -/
structure Fresh (t : Typing) : Prop where
  armed : t.armed = false
  ready : t.lineReady = false
  len : t.lineLen = 0
  idle : t.keyArmed = false

/-- The reader asks for a line in line mode and when it has no request outstanding, and it changes the mode only then. -/
def Polite (t : Terminal) (es : List Event) : Prop :=
  ∀ pre e post, es = pre ++ e :: post →
    (e = .readLine → (t.run pre).server.typing.rawMode = false ∧ replies (t.log pre) = requests (t.log pre)) ∧
      ∀ w1, e = .setMode w1 → replies (t.log pre) = requests (t.log pre)

section
variable {t : Terminal} {es : List Event}

private theorem keysSince_append (log : Log) (e : Event) (acts : List Act) :
    keysSince (log ++ [(e, acts)]) = if answers acts then [] else e.after (keysSince log) := by
  simp only [keysSince, List.foldl_append, List.foldl_cons, List.foldl_nil]
  split
  · rfl
  · cases e <;> rfl

private theorem lineStep_run (connected : Connected t.server) (acc : Accumulates (keysSince (t.log es)) (t.run es).server.typing (t.run es).page)
    {e : Event} (forLines : e.ForLines) :
    LineStep (keysSince (t.log es)) (t.run es).server.typing (t.run es).page t.server.readerSlot e
      ((t.run es).step e).1.server.typing ((t.run es).step e).2 := by
  obtain ⟨known, slot⟩ := t.run_spec connected es
  obtain ⟨-, -, typing, acts, -⟩ := (t.run es).step_spec known e
  rw [typing, acts, slot]
  exact acc.on connected.slot forLines

private theorem step_page {e : Event} {slot n : UInt32} (acts : (t.step e).2 = [.send slot n]) : (t.step e).1.page = t.page := by
  show (t.step e).2.foldl (Act.onPage none) t.page = _
  rw [acts]
  rfl

private theorem accumulates_run (connected : Connected t.server) (fresh : Fresh t.server.typing) (forLines : ∀ e ∈ es, e.ForLines) :
    Accumulates (keysSince (t.log es)) (t.run es).server.typing (t.run es).page := by
  induction es using List.reverseRecOn with
  | nil =>
    refine ⟨fresh.idle, fun _ => fresh.ready, fun _ => fresh.len, fun _ => ?_, fun _ => ?_, fun _ => fresh.ready⟩
    · rw [Terminal.run, List.foldl_nil, fresh.len]
      rfl
    · rw [Terminal.run, List.foldl_nil, fresh.ready]
      simp [keysSince, Terminal.log]
  | append_singleton es e before =>
    have acc := before fun e member => forLines e (List.mem_append_left _ member)
    have step := lineStep_run connected acc (forLines e (by simp))
    rw [t.log_append, keysSince_append, t.run_append]
    cases step with
    | answered line complete acts there next unarmed why =>
      rw [if_pos (by rw [acts]; rfl), step_page acts]
      exact next
    | silent quiet next armed mode newline =>
      rw [quiet]
      exact next

theorem requests_append (log : Log) (e : Event) (acts : List Act) :
    requests (log ++ [(e, acts)]) = requests log + if e = .readLine then 1 else 0 := by
  simp [requests, List.countP_append, List.countP_singleton]

theorem replies_append (log : Log) (e : Event) (acts : List Act) :
    replies (log ++ [(e, acts)]) = replies log + if answers acts then 1 else 0 := by
  simp [replies, List.countP_append, List.countP_singleton]

private theorem newlines_append (log : Log) (e : Event) (acts : List Act) :
    newlines (log ++ [(e, acts)]) = newlines log + if e = .key 10 then 1 else 0 := by
  simp [newlines, List.countP_append, List.countP_singleton]

/-- The answers of a run against its requests and its newlines, and of a polite reader's run against its requests. -/
theorem replies_run (connected : Connected t.server) (fresh : Fresh t.server.typing) (forLines : ∀ e ∈ es, e.ForLines) :
    replies (t.log es) + (t.run es).server.typing.armed.toNat ≤ requests (t.log es) ∧
      replies (t.log es) + (if 10 ∈ keysSince (t.log es) then 1 else 0) ≤ newlines (t.log es) ∧
      (Polite t es → replies (t.log es) + (t.run es).server.typing.armed.toNat = requests (t.log es) ∧
        ((t.run es).server.typing.armed = true → (t.run es).server.typing.rawMode = false)) := by
  induction es using List.reverseRecOn with
  | nil => simp [Terminal.run, Terminal.log, fresh.armed, replies, requests, newlines, keysSince]
  | append_singleton es e before =>
    have earlier : ∀ e ∈ es, e.ForLines := fun e member => forLines e (List.mem_append_left _ member)
    obtain ⟨served, typed, balanced⟩ := before earlier
    have sofar (polite : Polite t (es ++ [e])) := balanced fun pre e' post whole => polite pre e' (post ++ [e]) (by simp [whole])
    have step := lineStep_run connected (accumulates_run connected fresh earlier) (forLines e (by simp))
    rw [t.log_append, requests_append, replies_append, newlines_append, keysSince_append, t.run_append]
    cases step with
    | answered line complete acts there next unarmed why =>
      have isAnswer : answers ((t.run es).step e).2 = true := by
        rw [acts]
        rfl
      rw [isAnswer, unarmed, if_pos rfl, if_pos rfl, if_neg (List.not_mem_nil), Bool.toNat_false]
      rcases why with ⟨rfl, idle⟩ | ⟨rfl, waiting⟩
      · rw [idle, Bool.toNat_false] at served sofar
        rw [if_pos (by simpa [Event.keys] using complete)] at typed
        rw [if_pos rfl]
        exact ⟨by omega, Nat.le_add_right_of_le typed, fun polite => ⟨by rw [← (sofar polite).1], fun armed => by cases armed⟩⟩
      · rw [waiting, Bool.toNat_true] at served sofar
        rw [if_pos rfl, if_neg (by simp)]
        exact ⟨served, by omega, fun polite => ⟨(sofar polite).1, fun armed => by cases armed⟩⟩
    | silent quiet next armed mode newline =>
      rw [quiet, armed, mode, if_neg Bool.false_ne_true, if_neg Bool.false_ne_true]
      cases e with
      | key k =>
        have member : 10 ∈ (Event.key k).after (keysSince (t.log es)) ↔ 10 ∈ keysSince (t.log es) ∨ k = 10 := by
          simp [Event.after, Event.keys, eq_comm]
        rw [if_neg (by simp)]
        refine ⟨served, ?_, sofar⟩
        by_cases isNewline : k = 10
        · rw [if_pos (member.mpr (.inr isNewline)), isNewline, if_pos rfl]
          omega
        · rw [if_congr (member.trans (or_iff_left isNewline)) rfl rfl]
          exact Nat.le_add_right_of_le typed
      | readLine =>
        have same : Event.readLine.after (keysSince (t.log es)) = keysSince (t.log es) := List.append_nil _
        rw [same, Event.arms, if_pos rfl, Bool.toNat_true]
        refine ⟨by omega, Nat.le_add_right_of_le typed, fun polite => ?_⟩
        obtain ⟨inLine, none⟩ := (polite es _ [] rfl).1 rfl
        exact ⟨by rw [none], fun _ => inLine⟩
      | readKey => exact (forLines .readKey (by simp)).elim
      | setMode w1 =>
        rw [Event.arms, Bool.toNat_false, Event.after, if_neg (List.not_mem_nil), if_neg (by simp)]
        refine ⟨by omega, Nat.le_add_right_of_le (by omega), fun polite => ?_⟩
        exact ⟨(polite es _ [] rfl).2 w1 rfl, fun armed => by cases armed⟩

/--
The line discipline of a connected reader, for all keys and messages: an answer carries the length of the line that the keys since
the last one make, up to the newline that completed it, and the line is at the beginning of the page; there is at most one answer
for each request and for each newline. A reader that keeps to one request at a time is answered exactly once: the request that is
outstanding is answered by the next newline.
-/
theorem line_discipline (connected : Connected t.server) (fresh : Fresh t.server.typing) (forLines : ∀ e ∈ es, e.ForLines) :
    (∀ e slot n, e.ForLines → .send slot n ∈ ((t.run es).step e).2 →
      (t.run es).server.typing.rawMode = false ∧ slot = t.server.readerSlot ∧ 10 ∈ keysSince (t.log es) ++ e.keys ∧
        n.toNat = (lineOf (keysSince (t.log es) ++ e.keys)).length ∧
        slice ((t.run es).step e).1.page 0 n.toNat = lineOf (keysSince (t.log es) ++ e.keys)) ∧
      ¬((t.run es).server.typing.armed = true ∧ (t.run es).server.typing.lineReady = true) ∧
      replies (t.log es) ≤ requests (t.log es) ∧ replies (t.log es) ≤ newlines (t.log es) ∧
      (Polite t es → replies (t.log es) + (t.run es).server.typing.armed.toNat = requests (t.log es) ∧
        (replies (t.log es) < requests (t.log es) → answers ((t.run es).step (.key 10)).2 = true)) := by
  have acc := accumulates_run connected fresh forLines
  obtain ⟨served, typed, balanced⟩ := replies_run connected fresh forLines
  refine ⟨fun e slot n kind sent => ?_, fun both => ?_, by omega, by omega, fun polite => ?_⟩
  · cases lineStep_run connected acc kind with
    | answered line complete acts there next unarmed why =>
      rw [acts, List.mem_singleton] at sent
      cases sent
      rw [step_page acts, toNat_length_lineOf]
      exact ⟨line, rfl, complete, rfl, there⟩
    | silent quiet next armed mode newline =>
      have isAnswer : answers ((t.run es).step e).2 = true := List.any_eq_true.mpr ⟨_, sent, rfl⟩
      rw [quiet] at isAnswer
      cases isAnswer
  · have ready := both.2
    rw [acc.apart both.1] at ready
    cases ready
  · obtain ⟨balance, inLine⟩ := balanced polite
    refine ⟨balance, fun outstanding => ?_⟩
    have armed : (t.run es).server.typing.armed = true := by
      by_contra idle
      rw [Bool.eq_false_of_not_eq_true idle, Bool.toNat_false] at balance
      omega
    cases lineStep_run connected acc (e := .key 10) trivial with
    | answered line complete acts there next unarmed why =>
      rw [acts]
      rfl
    | silent quiet next armed' mode newline =>
      rw [newline rfl (inLine armed)] at armed
      cases armed

end

private theorem connectedServer_fresh : Fresh connectedServer.typing := ⟨rfl, rfl, rfl, rfl⟩

/-- The reader asks, two characters are typed, and the newline hands them over. -/
theorem hi_handed_over :
    .send 5 2 ∈ (((Terminal.mk connectedServer fun _ => 0).run [.readLine, .key 104, .key 105]).step (.key 10)).2 ∧
      slice (((Terminal.mk connectedServer fun _ => 0).run [.readLine, .key 104, .key 105]).step (.key 10)).1.page 0 2 = [104, 105] := by
  have sent : .send 5 2 ∈ (((Terminal.mk connectedServer fun _ => 0).run [.readLine, .key 104, .key 105]).step (.key 10)).2 := by
    decide +kernel
  refine ⟨sent, ?_⟩
  have discipline := line_discipline (t := ⟨connectedServer, fun _ => 0⟩) connectedServer_connected connectedServer_fresh
    (show ∀ e ∈ [Event.readLine, .key 104, .key 105], e.ForLines by simp [Event.ForLines])
  exact (discipline.1 (.key 10) 5 2 trivial sent).2.2.2.2.trans (by decide +kernel)

/-- Two requests at once: two lines are completed, and the second request is not answered. -/
theorem second_request_unanswered :
    requests ((Terminal.mk connectedServer fun _ => 0).log [.readLine, .readLine, .key 10, .key 10]) = 2 ∧
      replies ((Terminal.mk connectedServer fun _ => 0).log [.readLine, .readLine, .key 10, .key 10]) = 1 ∧
      ((Terminal.mk connectedServer fun _ => 0).run [.readLine, .readLine, .key 10, .key 10]).server.typing.armed = false := by
  decide +kernel

end Pcern.Console

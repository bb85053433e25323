import Pcern.Console

/-!
The reader of the console server: the first task whose buffer is mapped. What is typed goes to that task only.
-/
namespace Pcern.Console

open Libpcern

/-! ## One pass of the loop -/

/-- An act that hands something typed to a reader. -/
def Act.HandsTo (reader : UInt32) : Act → Prop
  | .map _ => False
  | .store _ _ => True
  | .send slot _ => slot = reader

namespace Typing

variable {t : Typing} {reader : UInt32} {act : Act}

private theorem rawKey_acts {key : UInt32} (member : act ∈ (t.rawKey reader key).2) : act.HandsTo reader ∧ reader ≠ 0 := by
  unfold rawKey at member
  split at member
  next armed =>
    rw [List.mem_singleton.mp member]
    exact ⟨rfl, armed.2⟩
  next => split at member <;> cases member

private theorem lineKey_acts {ascii : UInt8} (member : act ∈ (t.lineKey reader ascii).2) :
    act.HandsTo reader ∧ (reader ≠ 0 ∨ ∃ offset byte, act = .store offset byte) := by
  unfold lineKey at member
  split at member
  next => cases member
  next =>
    split at member
    next =>
      split at member
      next armed =>
        rw [List.mem_singleton.mp member]
        exact ⟨rfl, .inl armed.2⟩
      next => cases member
    next =>
      split at member
      next =>
        rw [List.mem_singleton.mp member]
        exact ⟨trivial, .inr ⟨_, _, rfl⟩⟩
      next => cases member

private theorem readLine_acts {mapped : Bool} (member : act ∈ (t.readLine mapped reader).2) : act.HandsTo reader := by
  unfold readLine at member
  split at member
  next =>
    rw [List.mem_singleton.mp member]
    rfl
  next =>
    split at member
    next =>
      rw [List.mem_singleton.mp member]
      rfl
    next => cases member

private theorem readKey_acts (member : act ∈ (t.readKey reader).2) : act.HandsTo reader := by
  unfold readKey at member
  split at member
  next =>
    rw [List.mem_singleton.mp member]
    rfl
  next => cases member

end Typing

namespace Server

/-- A pass that takes a key: what is typed may go to the reader, once there is one. -/
structure Types (s s' : Server) (acts : List Act) : Prop where
  owner : s'.readerOwner = s.readerOwner
  slot : s'.readerSlot = s.readerSlot
  buffer : s'.inputBufMapped = s.inputBufMapped
  hands : ∀ act ∈ acts, act.HandsTo s.readerSlot
  reader : ∀ act ∈ acts, s.readerSlot ≠ 0 ∨ (s.inputBufMapped ∧ ∃ offset byte, act = .store offset byte)

/-- What a pass of the loop can do, as far as the reader is concerned. -/
inductive Passes (s : Server) (r : RecvResult) : Server → List Act → Prop where
  | typed {s' : Server} {acts : List Act} (key : r.sender = 0) (types : Types s s' acts) : Passes s r s' acts
  /-- A byte to print, or a message that is ignored. -/
  | other {s' : Server} (message : r.sender ≠ 0) (owner : s'.readerOwner = s.readerOwner) (slot : s'.readerSlot = s.readerSlot)
      (buffer : s'.inputBufMapped = s.inputBufMapped) (typing : s'.typing = s.typing) : Passes s r s' []
  /-- A buffer is mapped. -/
  | mapped (message : r.sender ≠ 0) (free : s.readerOwner = 0 ∨ s.readerOwner = r.sender) :
      Passes s r { s with readerOwner := r.sender, inputBufMapped := true } [.map r.transferredSlot]
  /-- The reader gives the slot for the answers. -/
  | answers (message : r.sender ≠ 0) (owner : s.readerOwner = r.sender) (some : r.transferredSlot ≠ 0) :
      Passes s r { s with readerSlot := r.transferredSlot } []
  /-- The reader asks for input, or changes the mode. -/
  | asked {typing : Typing} {acts : List Act} (message : r.sender ≠ 0) (owner : s.readerOwner = r.sender)
      (hands : ∀ act ∈ acts, act.HandsTo s.readerSlot ∧ s.readerSlot ≠ 0) : Passes s r { s with typing } acts

variable {s s' : Server} {mapped : Bool} {r : RecvResult} {acts : List Act}

theorem Types.silent (owner : s'.readerOwner = s.readerOwner) (slot : s'.readerSlot = s.readerSlot)
    (buffer : s'.inputBufMapped = s.inputBufMapped) : Types s s' [] :=
  ⟨owner, slot, buffer, List.forall_mem_nil _, List.forall_mem_nil _⟩

private theorem key_types (s : Server) (k : UInt32) : Types s (s.key k).1 (s.key k).2 := by
  unfold key
  split
  next =>
    refine ⟨rfl, rfl, rfl, ?_, ?_⟩
    · exact fun act member => (Typing.rawKey_acts member).1
    · exact fun act member => .inl (Typing.rawKey_acts member).2
  next =>
    split
    next => exact .silent rfl rfl rfl
    next =>
      split
      next ready =>
        refine ⟨rfl, rfl, rfl, ?_, ?_⟩
        · exact fun act member => (Typing.lineKey_acts member).1
        · exact fun act member => (Typing.lineKey_acts member).2.imp_right fun store => ⟨ready.1, store⟩
      next => exact .silent rfl rfl rfl

private theorem keyboard_types (s : Server) (scancode : UInt8) : Types s (s.keyboard scancode).1 (s.keyboard scancode).2 := by
  unfold keyboard
  split
  next decoder k _ =>
    obtain ⟨owner, slot, buffer, hands, reader⟩ := key_types { s with decoder } k
    exact ⟨owner, slot, buffer, hands, reader⟩
  next => exact .silent rfl rfl rfl

theorem handle_passes : Passes s r (s.handle mapped r).1 (s.handle mapped r).2 := by
  unfold handle
  split
  next interrupt => exact .typed interrupt (keyboard_types s _)
  next message =>
    split
    next => exact .other message rfl rfl rfl rfl
    next =>
      unfold request
      have ignored : Passes s r s [] := .other message rfl rfl rfl rfl
      split_ifs with _ buffer _ reader _ line _ mode _ key
      · exact .mapped message buffer.1
      · exact ignored
      · exact .answers message reader.1 reader.2
      · exact ignored
      · exact .asked message line.1 fun _ member => ⟨Typing.readLine_acts member, line.2⟩
      · exact ignored
      · exact .asked message mode (List.forall_mem_nil _)
      · exact ignored
      · exact .asked message key.1 fun _ member => ⟨Typing.readKey_acts member, key.2⟩
      · exact ignored
      · exact ignored

/-! ## Whole runs -/

/-- The server after some messages, each with whether a call to map its grant succeeds. -/
def run (s : Server) (messages : List (RecvResult × Bool)) : Server := messages.foldl (fun s m => (s.handle m.2 m.1).1) s

namespace Passes

variable (passes : Passes s r s' acts)
include passes

theorem owner (latched : s.readerOwner ≠ 0) : s'.readerOwner = s.readerOwner := by
  cases passes with
  | typed _ types => exact types.owner
  | other _ owner => exact owner
  | mapped _ free => exact (free.resolve_left latched).symm
  | answers => rfl
  | asked => rfl

theorem maps {slot : UInt32} (member : .map slot ∈ acts) :
    r.sender ≠ 0 ∧ s'.readerOwner = r.sender ∧ r.transferredSlot = slot := by
  cases passes with
  | typed _ types => exact (types.hands _ member).elim
  | other => cases member
  | mapped message =>
    cases List.mem_singleton.mp member
    exact ⟨message, rfl, rfl⟩
  | answers => cases member
  | asked _ _ hands => exact (hands _ member).1.elim

theorem sends {slot w0 : UInt32} (member : .send slot w0 ∈ acts) : slot = s.readerSlot ∧ slot ≠ 0 := by
  cases passes with
  | typed _ types =>
    have here : slot = s.readerSlot := types.hands _ member
    refine ⟨here, ?_⟩
    rcases types.reader _ member with some | ⟨-, _, _, store⟩
    · rwa [here]
    · cases store
  | other => cases member
  | mapped => cases List.mem_singleton.mp member
  | answers => cases member
  | asked _ _ hands =>
    obtain ⟨here, some⟩ := hands _ member
    have here : slot = s.readerSlot := here
    exact ⟨here, here ▸ some⟩

theorem stores {offset : Nat} {byte : UInt8} (member : .store offset byte ∈ acts) :
    s.readerSlot ≠ 0 ∨ s.inputBufMapped = true := by
  cases passes with
  | typed _ types => exact (types.reader _ member).imp_right And.left
  | other => cases member
  | mapped => cases List.mem_singleton.mp member
  | answers => cases member
  | asked _ _ hands => exact .inl (hands _ member).2

theorem unmapped (none : s'.inputBufMapped = false) : s.inputBufMapped = false := by
  cases passes with
  | typed _ types => rwa [← types.buffer]
  | other _ _ _ buffer => rwa [← buffer]
  | mapped => cases none
  | answers => exact none
  | asked => exact none

theorem owned (before : s.inputBufMapped = true → s.readerOwner ≠ 0) :
    s'.inputBufMapped = true → s'.readerOwner ≠ 0 := by
  cases passes with
  | typed _ types => rwa [types.buffer, types.owner]
  | other _ owner _ buffer => rwa [buffer, owner]
  | mapped message => exact fun _ => message
  | answers => exact before
  | asked => exact before

theorem pending (message : r.sender ≠ 0) (other : s.readerOwner ≠ r.sender) : s'.typing = s.typing := by
  cases passes with
  | typed key => exact absurd key message
  | other _ _ _ _ typing => exact typing
  | mapped => rfl
  | answers => rfl
  | asked _ owner => exact absurd owner other

end Passes

private theorem run_owner (messages : List (RecvResult × Bool)) (latched : s.readerOwner ≠ 0) :
    (s.run messages).readerOwner = s.readerOwner := by
  induction messages generalizing s with
  | nil => rfl
  | cons m messages rest =>
    have same : (s.handle m.2 m.1).1.readerOwner = s.readerOwner := handle_passes.owner latched
    exact (rest (by rwa [same])).trans same

/-- What the server knows of its reader comes from the reader's messages. -/
structure Connected (history : List (RecvResult × Bool)) (s : Server) : Prop where
  slot : s.readerSlot ≠ 0 → ∃ m ∈ history, m.1.sender = s.readerOwner ∧ m.1.transferredSlot = s.readerSlot
  owned : s.readerSlot ≠ 0 ∨ s.inputBufMapped = true → s.readerOwner ≠ 0

theorem Connected.passes {history : List (RecvResult × Bool)} (connected : Connected history s) (passes : Passes s r s' acts) : Connected (history ++ [(r, mapped)]) s' := by
  obtain ⟨slot, owned⟩ := connected
  have earlier : s.readerSlot ≠ 0 →
      ∃ m ∈ history ++ [(r, mapped)], m.1.sender = s.readerOwner ∧ m.1.transferredSlot = s.readerSlot := by
    intro some
    obtain ⟨m, member, given⟩ := slot some
    exact ⟨m, List.mem_append_left _ member, given⟩
  cases passes with
  | typed _ types => exact ⟨by rwa [types.owner, types.slot], by rwa [types.owner, types.slot, types.buffer]⟩
  | other _ sameOwner sameSlot sameBuffer => exact ⟨by rwa [sameOwner, sameSlot], by rwa [sameOwner, sameSlot, sameBuffer]⟩
  | mapped message free =>
    refine ⟨fun some => ?_, fun _ => message⟩
    have same := free.resolve_left (owned (.inl some))
    rw [← same]
    exact earlier some
  | answers message owner some => exact ⟨fun _ => ⟨(r, mapped), by simp, owner.symm, rfl⟩, fun _ => owner ▸ message⟩
  | asked => exact ⟨earlier, owned⟩

private theorem connected_run (buffer : Nat → UInt16) (history : List (RecvResult × Bool)) :
    Connected history ((start buffer).run history) := by
  induction history using List.reverseRecOn with
  | nil => exact ⟨fun some => absurd rfl some, by simp [run, start]⟩
  | append_singleton history m before =>
    rw [run, List.foldl_append]
    exact before.passes handle_passes

/-- What is typed reaches the reader and nobody else. In every run, at every message: the reader, once there is one, stays the
same to the end; only its grants are mapped, and only its capability is sent to; only it and the keyboard change what is pending;
and before there is a reader nothing typed is sent or stored. -/
theorem typing_reaches_reader_only (buffer : Nat → UInt16) (before : List (RecvResult × Bool)) (r : RecvResult) (mapped : Bool)
    (after : List (RecvResult × Bool)) :
    let s := (start buffer).run before
    let next := s.handle mapped r
    let reader := (next.1.run after).readerOwner
    (s.readerOwner ≠ 0 → reader = s.readerOwner) ∧
      (∀ slot, .map slot ∈ next.2 → r.sender = reader ∧ r.transferredSlot = slot) ∧
      (s.readerSlot ≠ 0 → ∃ m ∈ before, m.1.sender = reader ∧ m.1.transferredSlot = s.readerSlot) ∧
      (∀ slot w0, .send slot w0 ∈ next.2 → slot = s.readerSlot ∧ slot ≠ 0) ∧
      (r.sender ≠ Libpcern.kernelTaskId → r.sender ≠ reader → next.1.typing = s.typing) ∧
      (s.readerOwner = 0 → ∀ act ∈ next.2, ∃ slot, act = .map slot) := by
  intro s next reader
  have connected : Connected before s := connected_run buffer before
  have passes : Passes s r next.1 next.2 := handle_passes
  have stays (latched : s.readerOwner ≠ 0) : reader = s.readerOwner := by
    have same := passes.owner latched
    exact (run_owner after (by rwa [same])).trans same
  refine ⟨stays, ?_, ?_, ?_, ?_, ?_⟩
  · intro slot member
    obtain ⟨message, owner, transferred⟩ := passes.maps member
    refine ⟨?_, transferred⟩
    rw [← owner]
    exact (run_owner after (by rwa [owner])).symm
  · intro some
    rw [stays (connected.owned (.inl some))]
    exact connected.slot some
  · exact fun slot w0 member => passes.sends member
  · intro message other
    refine passes.pending message fun same => other ?_
    rw [stays (same ▸ message), same]
  · intro nobody act member
    cases act with
    | map slot => exact ⟨slot, rfl⟩
    | store offset byte => exact absurd nobody (connected.owned (passes.stores member))
    | send slot w0 =>
      obtain ⟨here, some⟩ := passes.sends member
      exact absurd nobody (connected.owned (.inl (here ▸ some)))

end Server

end Pcern.Console

import Pcern.Bytes
import Pcern.Reader

/-!
The lines that the reader of the console gets. The server keeps what is typed in a page it shares with the reader, and goes on
doing so behind a line that it has handed over and that the reader may not have read yet.
-/
namespace Pcern.Console

open Bytes Libpcern

/-! ## Sessions -/

/-- The server with the page behind its input buffer, the line that is being typed, and the last answer to a
`CONSOLE_OP_READ_LINE`, with the line it was about, until the reader's next message. -/
structure Session where
  server : Server
  page : Memory
  line : List UInt8
  unread : Option (UInt32 × List UInt8)

def Act.onPage (mapped : Option Memory) (page : Memory) : Act → Memory
  | .map _ => mapped.getD page
  | .store offset byte => write8 page offset byte
  | .send _ _ => page

def Act.value : Act → Option UInt32
  | .send _ w0 => some w0
  | _ => none

/-- The character that a message is for the line that is being typed. -/
def Server.hears (s : Server) (r : RecvResult) : Option UInt8 :=
  if r.sender = Libpcern.kernelTaskId ∧ s.typing.rawMode = false ∧ s.inputBufMapped = true ∧ s.typing.lineReady = false then
    ((s.decoder.feed r.w1.toUInt8).2.filter (· < 256)).map UInt32.toUInt8
  else none

def editLine (line : List UInt8) (c : UInt8) : List UInt8 :=
  if c = 8 then line.dropLast
  else if c = 0x0A then line
  else if line.length < consoleLineMax then line ++ [c]
  else line

/-- A message of the reader's that is not for the screen. -/
def Server.Asks (s : Server) (r : RecvResult) : Prop :=
  r.sender ≠ Libpcern.kernelTaskId ∧ s.readerOwner = r.sender ∧ r.w0 ≠ opPutchar

instance (s : Server) (r : RecvResult) : Decidable (s.Asks r) := inferInstanceAs (Decidable (_ ∧ _ ∧ _))

namespace Session

/-- The answer to a `CONSOLE_OP_READ_LINE` among the acts of a pass. -/
def answer (y : Session) (r : RecvResult) (acts : List Act) : Option UInt32 :=
  if r.sender = Libpcern.kernelTaskId then if y.server.typing.rawMode then none else acts.findSome? Act.value
  else if r.w0 = consoleOpReadLine then acts.findSome? Act.value
  else none

/-- One message; with it comes the page behind the transferred grant, if the grant can be mapped. -/
def step (y : Session) (r : RecvResult) (mapped : Option Memory) : Session :=
  let next := y.server.handle mapped.isSome r
  let page := next.2.foldl (Act.onPage mapped) y.page
  match y.answer r next.2 with
  | some n => { server := next.1, page, line := [], unread := some (n, y.line) }
  | none =>
    { server := next.1
      page
      line := if y.server.Asks r ∧ r.w0 = consoleOpSetMode then [] else ((y.server.hears r).map (editLine y.line)).getD y.line
      unread := if y.server.Asks r then none else y.unread }

def start (buffer : Nat → UInt16) (page : Memory) : Session := { server := .start buffer, page, line := [], unread := none }

def run (y : Session) (messages : List (RecvResult × Option Memory)) : Session := messages.foldl (fun y m => y.step m.1 m.2) y

/-- The first bytes of the page are the line that the last answer was about. -/
def Intact (y : Session) : Prop := ∀ n line, y.unread = some (n, line) → slice y.page 0 n.toNat = line

abbrev lineLen (y : Session) : Nat := y.server.typing.lineLen

/-- The character that a message puts into the page. -/
def puts (y : Session) (r : RecvResult) : Option UInt8 :=
  (y.server.hears r).filter fun c => c ≠ 8 ∧ c ≠ 0x0A ∧ y.lineLen < consoleLineMax

/-- No character is typed over a line that was handed over and may not have been read, unless it is the one that is there. -/
def Spares (y : Session) (r : RecvResult) : Prop :=
  ∀ c n told, y.puts r = some c → y.unread = some (n, told) → y.lineLen < n.toNat → told[y.lineLen]? = some c

def ConnectsOnce (y : Session) (r : RecvResult) : Prop := y.server.Asks r → r.w0 ≠ consoleOpSetBuffer

/-! ## One message -/

/-- The line that is being typed is at the beginning of the page. -/
structure Holds (y : Session) : Prop where
  length : y.line.length = y.lineLen
  page : slice y.page 0 y.lineLen = y.line
  short : y.lineLen ≤ consoleLineMax
  unmapped : y.server.inputBufMapped = false → y.lineLen = 0
  owned : y.server.inputBufMapped = true → y.server.readerOwner ≠ 0
  fresh : y.server.readerOwner = 0 → y.unread = none

inductive Moves (y y' : Session) (r : RecvResult) : Prop where
  | still (line : y'.line = y.line) (len : y'.lineLen = y.lineLen) (page : y'.page = y.page)
      (unread : y'.unread = y.unread ∨ y'.unread = none)
  | erased (line : y'.line = y.line.dropLast) (len : y'.lineLen = y.lineLen - 1) (page : y'.page = y.page)
      (unread : y'.unread = y.unread)
  | put (c : UInt8) (room : y.lineLen < consoleLineMax) (puts : y.puts r = some c) (line : y'.line = y.line ++ [c])
      (len : y'.lineLen = y.lineLen + 1) (page : y'.page = write8 y.page y.lineLen c) (unread : y'.unread = y.unread)
  | finished (reader : y.server.readerOwner ≠ 0) (line : y'.line = []) (len : y'.lineLen = 0) (page : y'.page = y.page)
      (unread : y'.unread = some (UInt32.ofNat y.lineLen, y.line))
  | dropped (line : y'.line = []) (len : y'.lineLen = 0) (page : y'.page = y.page) (unread : y'.unread = none)
  | mapped (free : y.server.readerOwner = 0) (line : y'.line = y.line) (len : y'.lineLen = y.lineLen) (unread : y'.unread = y.unread)

variable {y : Session} {r : RecvResult} {mapped : Option Memory} {s' : Server} {acts : List Act}

private theorem step_answer (handled : y.server.handle mapped.isSome r = (s', acts)) {n : UInt32} (answered : y.answer r acts = some n) :
    y.step r mapped = { server := s', page := acts.foldl (Act.onPage mapped) y.page, line := [], unread := some (n, y.line) } := by
  simp only [step, handled, answered]

private theorem step_silent (handled : y.server.handle mapped.isSome r = (s', acts)) (silent : y.answer r acts = none) :
    y.step r mapped =
      { server := s'
        page := acts.foldl (Act.onPage mapped) y.page
        line := if y.server.Asks r ∧ r.w0 = consoleOpSetMode then [] else ((y.server.hears r).map (editLine y.line)).getD y.line
        unread := if y.server.Asks r then none else y.unread } := by
  simp only [step, handled, silent]

section
variable (key : r.sender = Libpcern.kernelTaskId)
include key

private theorem not_asks : ¬ y.server.Asks r := fun asks => asks.1 key

private theorem step_key (handled : y.server.handle mapped.isSome r = (s', acts)) (silent : y.answer r acts = none) :
    y.step r mapped =
      { server := s', page := acts.foldl (Act.onPage mapped) y.page,
        line := ((y.server.hears r).map (editLine y.line)).getD y.line, unread := y.unread } := by
  rw [step_silent handled silent, if_neg fun set => not_asks key set.1, if_neg (not_asks key)]

private theorem handle_unheard (mapped : Option Memory) (unheard : y.server.hears r = none) :
    ∃ s' acts, y.server.handle mapped.isSome r = (s', acts) ∧ s'.typing.lineLen = y.lineLen ∧
      acts.foldl (Act.onPage mapped) y.page = y.page ∧ y.answer r acts = none := by
  obtain ⟨decoder, pressed, fed⟩ : ∃ decoder pressed, y.server.decoder.feed r.w1.toUInt8 = (decoder, pressed) := ⟨_, _, rfl⟩
  simp only [Server.handle, if_pos key, Server.keyboard, fed]
  cases pressed with
  | none => exact ⟨_, _, rfl, rfl, rfl, by simp [answer, key]⟩
  | some k =>
    unfold Server.key
    dsimp only
    by_cases raw : y.server.typing.rawMode = true
    · rw [if_pos raw]
      unfold Typing.rawKey
      split_ifs <;> exact ⟨_, _, rfl, rfl, rfl, by simp [answer, key, raw]⟩
    · rw [if_neg raw]
      by_cases large : k ≥ 256
      · rw [if_pos large]
        exact ⟨_, _, rfl, rfl, rfl, by simp [answer, key]⟩
      · rw [if_neg large, if_neg]
        · exact ⟨_, _, rfl, rfl, rfl, by simp [answer, key]⟩
        · rintro ⟨buffer, ready⟩
          rw [Server.hears, if_pos ⟨key, by simpa using raw, buffer, ready⟩, fed] at unheard
          refine large ?_
          simpa using unheard

private theorem handle_heard (mapped : Option Memory) {c : UInt8} (heard : y.server.hears r = some c) :
    y.server.inputBufMapped = true ∧ y.server.typing.rawMode = false ∧
      ∃ s', y.server.handle mapped.isSome r = Server.typed s' (y.server.typing.lineKey y.server.readerSlot c) := by
  obtain ⟨decoder, pressed, fed⟩ : ∃ decoder pressed, y.server.decoder.feed r.w1.toUInt8 = (decoder, pressed) := ⟨_, _, rfl⟩
  rw [Server.hears] at heard
  split at heard
  next ready =>
    rw [fed, Option.map_eq_some_iff] at heard
    obtain ⟨k, isKey, rfl⟩ := heard
    obtain ⟨rfl, small⟩ := Option.filter_eq_some_iff.mp isKey
    obtain ⟨-, line, buffer, open'⟩ := ready
    refine ⟨buffer, line, { y.server with decoder }.print k.toUInt8, ?_⟩
    have some : ¬ k ≥ 256 := UInt32.not_le.mpr (by simpa using small)
    simp only [Server.handle, if_pos key, Server.keyboard, fed, Server.key, line, if_neg some, buffer, open']
    rfl
  next => cases heard

private theorem answer_key {acts : List Act} (line : y.server.typing.rawMode = false) : y.answer r acts = acts.findSome? Act.value := by
  rw [answer, if_pos key, if_neg (by simp [line])]

private theorem step_puts (mapped : Option Memory) (holds : y.Holds) {c : UInt8} (puts : y.puts r = some c) :
    ∃ s' : Server, s'.typing.lineLen = y.lineLen + 1 ∧
      y.step r mapped =
        { server := s', page := write8 y.page y.lineLen c, line := y.line ++ [c], unread := y.unread } := by
  obtain ⟨heard, printable⟩ := Option.filter_eq_some_iff.mp puts
  obtain ⟨erases, ends, room⟩ := of_decide_eq_true printable
  obtain ⟨-, line, s', handled⟩ := handle_heard key mapped heard
  rw [Server.typed, Typing.lineKey, if_neg erases, if_neg ends, if_pos room] at handled
  refine ⟨{ s' with typing := { y.server.typing with lineLen := y.lineLen + 1 } }, rfl, ?_⟩
  refine (step_key key handled (by rw [answer_key key line]; rfl)).trans ?_
  have shorter : y.line.length < consoleLineMax := holds.length ▸ room
  simp only [heard, editLine, Option.map_some, Option.getD_some, if_neg erases, if_neg ends, if_pos shorter]
  rfl

private theorem keyboard_moves (holds : y.Holds) : Moves y (y.step r mapped) r := by
  cases heard : y.server.hears r with
  | none =>
    obtain ⟨s', acts, handled, len, page, silent⟩ := handle_unheard key mapped heard
    rw [step_key key handled silent]
    exact .still (by rw [heard]; rfl) len page (.inl rfl)
  | some c =>
    obtain ⟨buffer, line, s', handled⟩ := handle_heard key mapped heard
    unfold Server.typed Typing.lineKey at handled
    by_cases erases : c = 8
    · rw [if_pos erases] at handled
      rw [step_key key handled (by rw [answer_key key line]; rfl)]
      exact .erased (by simp [heard, editLine, erases]) rfl rfl rfl
    · rw [if_neg erases] at handled
      by_cases ends : c = 0x0A
      · rw [if_pos ends] at handled
        split at handled
        next =>
          rw [step_answer handled (by rw [answer_key key line]; rfl)]
          exact .finished (holds.owned buffer) rfl rfl rfl rfl
        next =>
          rw [step_key key handled (by rw [answer_key key line]; rfl)]
          exact .still (by simp [heard, editLine, ends]) rfl rfl (.inl rfl)
      · rw [if_neg ends] at handled
        by_cases room : y.lineLen < consoleLineMax
        · have puts : y.puts r = some c := by
            rw [Session.puts, heard]
            exact Option.filter_some_pos (decide_eq_true ⟨erases, ends, room⟩)
          obtain ⟨s', len, stepped⟩ := step_puts key mapped holds puts
          rw [stepped]
          exact .put c room puts rfl len rfl rfl
        · rw [if_neg room] at handled
          rw [step_key key handled (by rw [answer_key key line]; rfl)]
          refine .still ?_ rfl rfl (.inl rfl)
          simp only [heard, editLine, Option.map_some, Option.getD_some, if_neg erases, if_neg ends, holds.length]
          exact if_neg room

end

private theorem puts_key {c : UInt8} (puts : y.puts r = some c) : r.sender = Libpcern.kernelTaskId ∧ y.server.inputBufMapped = true := by
  obtain ⟨heard, -⟩ := Option.filter_eq_some_iff.mp puts
  unfold Server.hears at heard
  split at heard
  next ready => exact ⟨ready.1, ready.2.2.1⟩
  next => cases heard

section
variable (message : r.sender ≠ Libpcern.kernelTaskId)
include message

private theorem answer_other (acts : List Act) (other : r.w0 ≠ consoleOpReadLine) : y.answer r acts = none := by
  rw [answer, if_neg message, if_neg other]

private theorem unheard_message : y.server.hears r = none := if_neg fun ready => message ready.1

private theorem moves_still (handled : y.server.handle mapped.isSome r = (s', acts)) (silent : y.answer r acts = none)
    (len : s'.typing.lineLen = y.lineLen) (page : acts.foldl (Act.onPage mapped) y.page = y.page)
    (mode : r.w0 = consoleOpSetMode → ¬ y.server.Asks r) : Moves y (y.step r mapped) r := by
  rw [step_silent handled silent, if_neg fun set => mode set.2 set.1, unheard_message message]
  refine .still rfl len page ?_
  dsimp only
  split
  · exact .inr rfl
  · exact .inl rfl

private theorem readLine_moves (holds : y.Holds) (line : r.w0 = consoleOpReadLine) (owner : y.server.readerOwner = r.sender)
    (handled : y.server.handle mapped.isSome r =
      y.server.typed (y.server.typing.readLine y.server.inputBufMapped y.server.readerSlot)) : Moves y (y.step r mapped) r := by
  have answer (acts : List Act) : y.answer r acts = acts.findSome? Act.value := by
    rw [Session.answer, if_neg message, if_pos line]
  have reader : y.server.readerOwner ≠ 0 := owner ▸ message
  unfold Server.typed Typing.readLine at handled
  split at handled
  next unmapped =>
    have empty : y.lineLen = 0 := holds.unmapped (by simpa using unmapped)
    rw [step_answer handled (by rw [answer]; rfl)]
    exact .finished reader rfl empty rfl (by rw [empty]; rfl)
  next =>
    split at handled
    next =>
      rw [step_answer handled (by rw [answer]; rfl)]
      exact .finished reader rfl rfl rfl rfl
    next => exact moves_still message handled (by rw [answer]; rfl) rfl rfl fun mode => absurd (line.symm.trans mode) (by decide)

private theorem request_moves (holds : y.Holds) (once : y.ConnectsOnce r) : Moves y (y.step r mapped) r := by
  have handled : y.server.handle mapped.isSome r =
      if r.w0 = opPutchar then (y.server.print r.w1.toUInt8, []) else y.server.request mapped.isSome r := by
    rw [Server.handle, if_neg message]
  by_cases printed : r.w0 = opPutchar
  · rw [if_pos printed] at handled
    exact moves_still message handled (answer_other message _ (printed ▸ by decide)) rfl rfl fun _ asks => asks.2.2 printed
  rw [if_neg printed, Server.request] at handled
  by_cases buffer : r.w0 = consoleOpSetBuffer
  · have other := answer_other (y := y) message [.map r.transferredSlot] (buffer ▸ by decide)
    rw [if_pos buffer] at handled
    split at handled
    next accepted =>
      have free : y.server.readerOwner = 0 := by
        rcases accepted.1 with free | owner
        · exact free
        · exact absurd buffer (once ⟨message, owner, printed⟩)
      have nobody : ¬ y.server.Asks r := fun asks => message (asks.2.1.symm.trans free)
      rw [step_silent handled other, if_neg fun mode => nobody mode.1, if_neg nobody, unheard_message message]
      exact .mapped free rfl rfl rfl
    next =>
      exact moves_still message handled (answer_other message _ (buffer ▸ by decide)) rfl rfl
        fun mode => absurd (buffer.symm.trans mode) (by decide)
  rw [if_neg buffer] at handled
  by_cases slot : r.w0 = consoleOpSetReader
  · rw [if_pos slot] at handled
    split at handled <;>
      exact moves_still message handled (answer_other message _ (slot ▸ by decide)) rfl rfl
        fun mode => absurd (slot.symm.trans mode) (by decide)
  rw [if_neg slot] at handled
  by_cases line : r.w0 = consoleOpReadLine
  · rw [if_pos line] at handled
    split at handled
    next owner => exact readLine_moves message holds line owner.1 handled
    next =>
      exact moves_still message handled (by rw [answer, if_neg message, if_pos line]; rfl) rfl rfl
        fun mode => absurd (line.symm.trans mode) (by decide)
  rw [if_neg line] at handled
  by_cases mode : r.w0 = consoleOpSetMode
  · rw [if_pos mode] at handled
    split at handled
    next owner =>
      have asks : y.server.Asks r := ⟨message, owner, printed⟩
      rw [step_silent handled (answer_other message _ line), if_pos ⟨asks, mode⟩, if_pos asks]
      exact .dropped rfl rfl rfl rfl
    next other => exact moves_still message handled (answer_other message _ line) rfl rfl fun _ asks => other asks.2.1
  rw [if_neg mode] at handled
  by_cases key : r.w0 = consoleOpReadKey
  · rw [if_pos key] at handled
    split at handled
    next =>
      unfold Server.typed Typing.readKey at handled
      split at handled <;>
        exact moves_still message handled (answer_other message _ line) rfl rfl fun set => absurd set mode
    next => exact moves_still message handled (answer_other message _ line) rfl rfl fun set => absurd set mode
  · rw [if_neg key] at handled
    exact moves_still message handled (answer_other message _ line) rfl rfl fun set => absurd set mode

end

private theorem step_moves (holds : y.Holds) (once : y.ConnectsOnce r) : Moves y (y.step r mapped) r := by
  by_cases key : r.sender = Libpcern.kernelTaskId
  · exact keyboard_moves key holds
  · exact request_moves key holds once

private theorem step_passes (y : Session) (r : RecvResult) (mapped : Option Memory) :
    ∃ acts, Server.Passes y.server r (y.step r mapped).server acts := by
  refine ⟨(y.server.handle mapped.isSome r).2, ?_⟩
  have same : (y.step r mapped).server = (y.server.handle mapped.isSome r).1 := by
    simp only [step]
    split <;> rfl
  rw [same]
  exact Server.handle_passes

theorem slice_write8_end (page : Memory) (len : Nat) (c : UInt8) : slice (write8 page len c) 0 (len + 1) = slice page 0 len ++ [c] := by
  rw [slice_append]
  congr 1
  · exact slice_congr fun i inside => write8_apply_other page c (by omega)
  · simp [slice, write8]

theorem Holds.step (holds : y.Holds) (once : y.ConnectsOnce r) : (y.step r mapped).Holds := by
  obtain ⟨acts, passes⟩ := step_passes y r mapped
  have moves : Moves y (y.step r mapped) r := step_moves holds once
  obtain ⟨y', isNext⟩ : ∃ y', y.step r mapped = y' := ⟨_, rfl⟩
  rw [isNext] at passes moves ⊢
  obtain ⟨length, page, short, unmapped, owned, fresh⟩ := holds
  have empty (free : y.server.readerOwner = 0) : y.lineLen = 0 := unmapped (Bool.eq_false_iff.mpr fun buffer => owned buffer free)
  refine ⟨?_, ?_, ?_, ?_, passes.owned owned, fun free => ?_⟩
  · cases moves with
    | still line len => rw [line, len, length]
    | erased line len => rw [line, len, List.length_dropLast, length]
    | put c _ _ line len => rw [line, len, List.length_append, length, List.length_singleton]
    | finished _ line len => rw [line, len, List.length_nil]
    | dropped line len => rw [line, len, List.length_nil]
    | mapped _ line len => rw [line, len, length]
  · cases moves with
    | still line len same => rw [line, len, same, page]
    | erased line len same =>
      rw [line, len, same, List.dropLast_eq_take, length, ← page, slice_take _ _ (Nat.sub_le _ _)]
    | put c _ _ line len stored => rw [line, len, stored, slice_write8_end, page]
    | finished _ line len => rw [line, len]; rfl
    | dropped line len => rw [line, len]; rfl
    | mapped free line len =>
      rw [line, len, empty free, List.eq_nil_of_length_eq_zero (length.trans (empty free))]
      rfl
  · cases moves with
    | still _ len => rwa [len]
    | erased _ len => rw [len]; omega
    | put c room _ _ len => rw [len]; omega
    | finished _ _ len => rw [len]; exact Nat.zero_le _
    | dropped _ len => rw [len]; exact Nat.zero_le _
    | mapped _ _ len => rwa [len]
  · intro unmapped'
    have before := passes.unmapped unmapped'
    cases moves with
    | still _ len => rw [len, unmapped before]
    | erased _ len => rw [len, unmapped before]
    | put c _ puts => exact absurd (puts_key puts).2 (by simp [before])
    | finished _ _ len => exact len
    | dropped _ len => exact len
    | mapped _ _ len => rw [len, unmapped before]
  · have before : y.server.readerOwner = 0 := by
      by_contra latched
      exact latched (passes.owner latched ▸ free)
    cases moves with
    | still _ _ _ unread => exact unread.elim (fun same => same.trans (fresh before)) id
    | erased _ _ _ unread => rw [unread, fresh before]
    | put c _ _ _ _ _ unread => rw [unread, fresh before]
    | finished reader => exact absurd before reader
    | dropped _ _ _ unread => exact unread
    | mapped _ _ _ unread => rw [unread, fresh before]

theorem Intact.step (intact : y.Intact) (holds : y.Holds) (once : y.ConnectsOnce r) (spares : y.Spares r) :
    (y.step r mapped).Intact := by
  have moves : Moves y (y.step r mapped) r := step_moves holds once
  intro n line unread'
  cases moves with
  | still _ _ page unread =>
    rw [page]
    rcases unread with same | none
    · exact intact n line (same ▸ unread')
    · rw [none] at unread'
      cases unread'
  | erased _ _ page unread =>
    rw [page]
    exact intact n line (unread ▸ unread')
  | put c _ puts _ _ page unread =>
    rw [unread] at unread'
    have before := intact n line unread'
    refine Eq.trans ?_ before
    rw [page]
    refine slice_congr fun i inside => ?_
    by_cases here : 0 + i = y.lineLen
    · have there := spares c n line puts unread' (by omega)
      rw [← before, ← here] at there
      rw [here, write8, if_pos rfl]
      simpa [slice, inside, ← here] using there.symm
    · exact write8_apply_other y.page c here
  | finished _ _ _ page unread =>
    rw [unread] at unread'
    cases unread'
    have small := holds.short
    simp only [consoleLineMax] at small
    rw [page, UInt32.toNat_ofNat_of_lt' (by change _ < 2 ^ 32; omega)]
    exact holds.page
  | dropped _ _ _ unread =>
    rw [unread] at unread'
    cases unread'
  | mapped free _ _ unread =>
    rw [unread, holds.fresh free] at unread'
    cases unread'

private theorem spares_of_intact (holds : y.Holds) (intact : (y.step r mapped).Intact) : y.Spares r := by
  intro c n line puts unread inside
  obtain ⟨s', -, stepped⟩ := step_puts (puts_key puts).1 mapped holds puts
  rw [stepped] at intact
  have now := intact n line unread
  rw [← now]
  simp [slice, inside, write8]

/-! ## Whole runs -/

variable {buffer : Nat → UInt16} {page : Memory} {messages : List (RecvResult × Option Memory)}

private theorem run_take_succ {k : Nat} (here : messages[k]? = some (r, mapped)) (y : Session) :
    y.run (messages.take (k + 1)) = (y.run (messages.take k)).step r mapped := by
  rw [List.take_add_one, here, run, List.foldl_append]
  rfl

private theorem holds_run (once : ∀ k r mapped, messages[k]? = some (r, mapped) → ((start buffer page).run (messages.take k)).ConnectsOnce r)
    (k : Nat) : ((start buffer page).run (messages.take k)).Holds := by
  induction k with
  | zero => exact ⟨rfl, rfl, Nat.zero_le _, fun _ => rfl, (fun mapped => by cases mapped), fun _ => rfl⟩
  | succ k before =>
    cases here : messages[k]? with
    | none =>
      rw [List.getElem?_eq_none_iff] at here
      rw [List.take_of_length_le here] at before
      rwa [List.take_of_length_le (by omega)]
    | some m =>
      rw [run_take_succ here]
      exact before.step (once k m.1 m.2 here)

/-- In every run in which the reader connects its buffer once: the lines handed over stay as they were until the reader's next
message if and only if no other character is typed over them. -/
theorem lines_intact_iff (buffer : Nat → UInt16) (page : Memory) (messages : List (RecvResult × Option Memory))
    (once : ∀ k r mapped, messages[k]? = some (r, mapped) → ((start buffer page).run (messages.take k)).ConnectsOnce r) :
    (∀ k, ((start buffer page).run (messages.take k)).Intact) ↔
      ∀ k r mapped, messages[k]? = some (r, mapped) → ((start buffer page).run (messages.take k)).Spares r := by
  constructor
  · intro intact k r mapped here
    have next := intact (k + 1)
    rw [run_take_succ here] at next
    exact spares_of_intact (holds_run once k) next
  · intro spares k
    induction k with
    | zero => exact fun n line unread => by cases unread
    | succ k before =>
      cases here : messages[k]? with
      | none =>
        rw [List.getElem?_eq_none_iff] at here
        rw [List.take_of_length_le here] at before
        rwa [List.take_of_length_le (by omega)]
      | some m =>
        rw [run_take_succ here]
        exact before.step (holds_run once k) (once k m.1 m.2 here) (spares k m.1 m.2 here)

/-- Task 5 connects a page and the slot for the answers and asks for a line; `a` and Enter are typed. -/
def typedLine : List (RecvResult × Option Memory) :=
  [({ sender := 5, w0 := consoleOpSetBuffer, w1 := 0, w2 := 0, transferredSlot := 7 }, some fun _ => 0),
    ({ sender := 5, w0 := consoleOpSetReader, w1 := 0, w2 := 0, transferredSlot := 8 }, none),
    ({ sender := 5, w0 := consoleOpReadLine, w1 := 0, w2 := 0, transferredSlot := 0 }, none),
    ({ sender := 0, w0 := 1, w1 := 0x1E, w2 := 0, transferredSlot := 0 }, none),
    ({ sender := 0, w0 := 1, w1 := 0x1C, w2 := 0, transferredSlot := 0 }, none)]

def typedAhead : List (RecvResult × Option Memory) :=
  typedLine ++ [({ sender := 0, w0 := 1, w1 := 0x30, w2 := 0, transferredSlot := 0 }, none)]

theorem typedLine_intact :
    ((start (fun _ => 0) (fun _ => 0)).run typedLine).unread = some (1, [0x61]) ∧
      ((start (fun _ => 0) (fun _ => 0)).run typedLine).Intact := by
  refine ⟨rfl, (lines_intact_iff (fun _ => 0) (fun _ => 0) typedLine ?_).mpr ?_ 5⟩
  · intro k r mapped here
    rcases k with _ | _ | _ | _ | _ | k <;> cases here
    · exact fun asks => absurd asks (by decide)
    · exact fun _ => by decide
    · exact fun _ => by decide
    · exact fun asks => absurd rfl asks.1
    · exact fun asks => absurd rfl asks.1
  · intro k r mapped here c n line puts unread
    rcases k with _ | _ | _ | _ | _ | k
    · cases unread
    · cases unread
    · cases unread
    · cases unread
    · cases here
      cases puts
    · cases here

/-- The reader has been told of one byte, `a`, and finds `b`. -/
theorem typedAhead_overwrites :
    ((start (fun _ => 0) (fun _ => 0)).run typedAhead).unread = some (1, [0x61]) ∧
      slice ((start (fun _ => 0) (fun _ => 0)).run typedAhead).page 0 1 = [0x62] ∧
      ¬ ((start (fun _ => 0) (fun _ => 0)).run typedAhead).Intact := by
  have found : slice ((start (fun _ => 0) (fun _ => 0)).run typedAhead).page 0 1 = [0x62] := rfl
  refine ⟨rfl, found, fun intact => ?_⟩
  have told : slice ((start (fun _ => 0) (fun _ => 0)).run typedAhead).page 0 1 = [0x61] := intact 1 [0x61] rfl
  rw [found] at told
  exact absurd told (by decide)

end Session

end Pcern.Console

import Pcern.Creating
import Pcern.Writing

/-!
The store that the server presents to its client: a map from names to byte strings, and the name of the open file. The
abstract store answers every request from the map; the server answers it from the sectors of a well-formed volume, and
the two give the same answers for as long as no access fails.
-/
namespace Pcern.Fat32

open Bytes Blocks Chains

/-! ## Requests -/

/-- The requests of a client that is connected, with the words of their messages. -/
inductive Request where
  | openName (w1 w2 w3 create : UInt32)
  | read (offset len : UInt32)
  | write (offset len : UInt32)
  | truncate (size : UInt32)
  deriving DecidableEq, Repr

def fileName (w1 w2 w3 : UInt32) : List UInt8 := le32 w1 ++ le32 w2 ++ (le32 w3).take 3

/-- A request, and what the client has put into the page that it shares before it sends it. -/
structure Turn where
  sender : UInt32
  transferredSlot : UInt32
  page : Memory
  request : Request

def Turn.messages (t : Turn) : List RecvResult :=
  let message w0 w1 w2 : RecvResult := { sender := t.sender, w0, w1, w2, transferredSlot := t.transferredSlot }
  match t.request with
  | .openName w1 w2 w3 create => [message Libpcern.fsOpOpenName1 w1 w2, message Libpcern.fsOpOpenName2 w3 create]
  | .read offset len => [message Libpcern.fsOpRead offset len]
  | .write offset len => [message Libpcern.fsOpWrite offset len]
  | .truncate size => [message Libpcern.fsOpTruncate size 0]

/-- The loop of the server, over some messages. -/
def serveAll (b : Bpb) (fuel : Nat) (s : Server) : List RecvResult → Io (Server × List Reply)
  | [] => pure (s, [])
  | r :: rest => do
    let (s, replies) ← handle b fuel s r none
    let (s, more) ← serveAll b fuel s rest
    pure (s, replies ++ more)

def Turn.serve (b : Bpb) (fuel : Nat) (s : Server) (t : Turn) : Io (Server × List Reply) :=
  serveAll b fuel { s with clientBuf := t.page } t.messages

/-! ## The abstract store -/

structure Store where
  files : List UInt8 → Option (List UInt8)
  current : Option (List UInt8)

/-- The store after a request, the words of the answer, and the page. -/
structure Answer where
  store : Store
  w0 : UInt32
  w1 : UInt32
  page : Memory

/-- The name and the bytes of the open file. -/
def Store.opened (store : Store) : Option (List UInt8 × List UInt8) :=
  store.current.bind fun name => (store.files name).map fun bytes => (name, bytes)

/-- The answer to a request. `room` says whether there is room for it, if it needs any. -/
def Store.answer (store : Store) (room : Bool) (page : Memory) : Request → Answer
  | .openName w1 w2 w3 create =>
    match store.files (fileName w1 w2 w3) with
    | some bytes => { store := { store with current := some (fileName w1 w2 w3) }, w0 := 1, w1 := UInt32.ofNat bytes.length, page }
    | none =>
      if create ≠ 0 ∧ room then
        { store := { files := Function.update store.files (fileName w1 w2 w3) (some []), current := some (fileName w1 w2 w3) },
          w0 := 1, w1 := 0, page }
      else { store := { store with current := none }, w0 := 0, w1 := 0, page }
  | .read offset len =>
    match store.opened with
    | none => { store, w0 := 0, w1 := 0, page }
    | some (_, bytes) =>
      let n := min (min len.toNat (512 - offset.toNat % 512)) (bytes.length - offset.toNat)
      { store, w0 := UInt32.ofNat n, w1 := 0, page := blit page 0 ((bytes.drop offset.toNat).take n) }
  | .write offset len =>
    match store.opened with
    | none => { store, w0 := 0, w1 := 0, page }
    | some (name, bytes) =>
      let data := payload offset.toNat len.toNat page
      if bytes.length < offset.toNat ∨ room = false then { store, w0 := 0, w1 := 0, page }
      else
        { store := { store with files := Function.update store.files name (some (splice bytes offset.toNat data)) },
          w0 := UInt32.ofNat data.length, w1 := 0, page }
  | .truncate size =>
    match store.opened with
    | none => { store, w0 := 0, w1 := 0, page }
    | some (name, bytes) =>
      if bytes.length < size.toNat then { store, w0 := 0, w1 := 0, page }
      else { store := { store with files := Function.update store.files name (some (bytes.take size.toNat)) }, w0 := 1, w1 := 0, page }

/-- Whether the volume has room for a request: a new file needs a cluster if the directory has no free slot, a write if
    it begins where the clusters of the file end. -/
def hasRoom (b : Bpb) (v : Vol) (file : Option OpenFile) : Request → Bool
  | .openName _ _ _ _ => (freeSlot b v (rootOf b v)).isSome || (v.firstFree b).isSome
  | .write offset _ =>
    match file with
    | none => true
    | some file =>
      !decide (offset.toNat / (b.sectorsPerCluster * 512) = (clustersFrom b v file.startCluster).length) || (v.firstFree b).isSome
  | _ => true

/-! ## The server as a store -/

/-- The open file of the server and the name of the open file. -/
inductive Current (b : Bpb) (v : Vol) : Option OpenFile → Option (List UInt8) → Prop where
  | closed : Current b v none none
  | opened {slot : Slot} (member : slot ∈ files b v (rootOf b v)) : Current b v (some (opened b v slot)) (some (v.name slot))

/-- The volume and the server hold what is in the store. -/
structure Represents (b : Bpb) (v : Vol) (s : Server) (store : Store) : Prop where
  valid : Valid b v
  holds : store.files = stored b v
  current : Current b v s.openFile store.current
  connected : s.clientBufMapped = true ∧ s.clientReply ≠ 0

def Store.Small (store : Store) : Prop := ∀ name bytes, store.files name = some bytes → bytes.length < 2 ^ 32 - 512

/-- A file is created only under a name that can be the name of a file. -/
def Request.Proper : Request → Prop
  | .openName w1 w2 w3 create => create ≠ 0 → Live (fileName w1 w2 w3)
  | _ => True

/-- The server has answered as the store does. -/
def Agrees (b : Bpb) (s : Server) (a : Answer) (r : Server × List Reply) (v : Vol) : Prop :=
  Represents b v r.1 a.store ∧ r.1.clientBuf = a.page ∧ r.2 = [{ slot := s.clientReply, w0 := a.w0, w1 := a.w1 }] ∧
    r.1.clientReply = s.clientReply

/-! ## One request -/

section Turns
variable {b : Bpb} {m : Mode} {J : Vol → Prop} {v : Vol} {fuel : Nat} {s : Server}

theorem does_serveAll_one {Q : Server × List Reply → Vol → Prop} {r : RecvResult} (does : Does b m J Q (handle b fuel s r none) v) :
    Does b m J Q (serveAll b fuel s [r]) v := by
  refine .bind (.mono does ?_)
  rintro ⟨s', replies⟩ v' holds
  refine .ret ?_
  rw [List.append_nil]
  exact holds

section Messages
variable (sender slot w1 w2 : UInt32)

theorem handle_openName1 :
    handle b fuel s ⟨sender, Libpcern.fsOpOpenName1, w1, w2, slot⟩ none = pure ({ s with pendingNameLo := le32 w1 ++ le32 w2 }, []) := by
  unfold handle
  dsimp only
  rw [if_neg (by decide), if_neg (by decide), if_pos rfl]

theorem handle_openName2 (connected : s.clientReply ≠ 0) :
    handle b fuel s ⟨sender, Libpcern.fsOpOpenName2, w1, w2, slot⟩ none = (do
      match ← openOrCreate b fuel (s.pendingNameLo ++ (le32 w1).take 3) (w2 ≠ 0) with
      | some file => pure ({ s with openFile := some file }, [{ slot := s.clientReply, w0 := 1, w1 := UInt32.ofNat file.size }])
      | none => pure ({ s with openFile := none }, [{ slot := s.clientReply, w0 := 0, w1 := 0 }])) := by
  unfold handle
  dsimp only
  rw [if_neg (by decide), if_neg (by decide), if_neg (by decide), if_pos rfl]
  exact if_neg connected

variable (connected : s.clientBufMapped = true ∧ s.clientReply ≠ 0)
include connected

private theorem handle_read :
    handle b fuel s ⟨sender, Libpcern.fsOpRead, w1, w2, slot⟩ none = (match s.openFile with
      | none => pure (s, [{ slot := s.clientReply, w0 := 0, w1 := 0 }])
      | some file => do
        let (n, client) ← readFile b file w1.toNat w2.toNat s.clientBuf
        pure ({ s with clientBuf := client }, [{ slot := s.clientReply, w0 := UInt32.ofNat n, w1 := 0 }])) := by
  unfold handle
  dsimp only
  rw [if_neg (by decide), if_neg (by decide), if_neg (by decide), if_neg (by decide), if_pos rfl, if_neg connected.2, connected.1]
  rfl

theorem handle_write :
    handle b fuel s ⟨sender, Libpcern.fsOpWrite, w1, w2, slot⟩ none = (match s.openFile with
      | none => pure (s, [{ slot := s.clientReply, w0 := 0, w1 := 0 }])
      | some file => do
        let (n, file) ← writeFile b file w1.toNat w2.toNat s.clientBuf
        pure ({ s with openFile := some file }, [{ slot := s.clientReply, w0 := UInt32.ofNat n, w1 := 0 }])) := by
  unfold handle
  dsimp only
  rw [if_neg (by decide), if_neg (by decide), if_neg (by decide), if_neg (by decide), if_neg (by decide), if_pos rfl, if_neg connected.2, connected.1]
  rfl

private theorem handle_truncate :
    handle b fuel s ⟨sender, Libpcern.fsOpTruncate, w1, w2, slot⟩ none = (match s.openFile with
      | none => pure (s, [{ slot := s.clientReply, w0 := 0, w1 := 0 }])
      | some file => do
        let (ok, file) ← truncateFile file w1.toNat
        pure ({ s with openFile := some file }, [{ slot := s.clientReply, w0 := UInt32.ofNat ok, w1 := 0 }])) := by
  unfold handle
  dsimp only
  rw [if_neg (by decide), if_neg (by decide), if_neg (by decide), if_neg (by decide), if_neg (by decide), if_neg (by decide), if_pos rfl]
  exact if_neg connected.2

end Messages

variable {name : Option (List UInt8)} {store : Store}

theorem current_cases {file : Option OpenFile} (current : Current b v file name) :
    file = none ∧ name = none ∨
      ∃ slot ∈ files b v (rootOf b v), file = some (opened b v slot) ∧ name = some (v.name slot) := by
  cases current with
  | closed => exact .inl ⟨rfl, rfl⟩
  | opened member => exact .inr ⟨_, member, rfl, rfl⟩

theorem Store.opened_none (closed : store.current = none) : store.opened = none := by
  rw [Store.opened, closed]
  rfl

theorem Represents.opened_eq (rep : Represents b v s store) {slot : Slot} (member : slot ∈ files b v (rootOf b v))
    (name : store.current = some (v.name slot)) : store.opened = some (v.name slot, content b v slot) := by
  rw [Store.opened, name, Option.bind_some, rep.holds, WellFormed.stored_name rep.valid member]
  rfl

theorem Store.Small.opened (small : store.Small) {name bytes : List UInt8} (current : store.opened = some (name, bytes)) :
    bytes.length < 2 ^ 32 - 512 := by
  obtain ⟨n, _, found⟩ := Option.bind_eq_some_iff.mp current
  obtain ⟨bytes', here, same⟩ := Option.map_eq_some_iff.mp found
  cases same
  exact small _ _ here

theorem Represents.idle (rep : Represents b v s store) :
    Agrees b s { store, w0 := 0, w1 := 0, page := s.clientBuf } (s, [{ slot := s.clientReply, w0 := 0, w1 := 0 }]) v :=
  ⟨rep, rfl, rfl, rfl⟩

theorem Torn.current {root : List Nat} {chain chain' : Slot → List Nat} {slot : Slot} {size : Nat} {bytes : Memory} {v' : Vol}
    (torn : Torn b v root chain slot size bytes v' chain') (member : slot ∈ files b v root)
    (named : name = some (v.name slot)) : Current b v' (some (opened b v' slot)) name := by
  rw [named, ← torn.names slot member]
  refine .opened ?_
  rw [torn.wf.rootOf_eq, torn.listed]
  exact member

variable {store : Store} (geo : Geometry b) (rep : Represents b v s store)
include geo rep

theorem does_read (sender slot offset len : UInt32) (room : Bool) :
    Does b .calm (fun _ => True)
      (fun r v' => Agrees b s (store.answer room s.clientBuf (.read offset len)) r v' ∧ v' = v ∧ r.1.openFile = s.openFile)
      (handle b fuel s ⟨sender, Libpcern.fsOpRead, offset, len, slot⟩ none) v := by
  rw [handle_read sender slot offset len rep.connected, Store.answer]
  rcases current_cases rep.current with ⟨noFile, noName⟩ | ⟨slot, member, file, name⟩
  · rw [noFile, Store.opened_none noName]
    exact .ret ⟨rep.idle, rfl, noFile⟩
  · rw [file, rep.opened_eq member name]
    refine .bind (.mono (does_readFile geo rep.valid member rfl) ?_)
    rintro ⟨n, client⟩ v' ⟨rfl, read | ⟨⟨⟩, _⟩⟩
    obtain ⟨rfl, rfl⟩ := Prod.mk.inj read
    refine .ret ⟨⟨⟨rep.valid, rep.holds, ?_, rep.connected⟩, ?_, ?_, rfl⟩, rfl, rfl⟩
    · change Current b v' _ store.current
      rw [name]
      exact .opened member
    · refine congrArg (blit s.clientBuf 0) ?_
      rw [length_content, content]
      by_cases beyond : v'.size slot < offset.toNat
      · rw [show v'.size slot - offset.toNat = 0 by omega, Nat.min_zero, List.take_zero]
        rfl
      · rw [slice_drop _ _ (by omega), slice_take _ _ (Nat.min_le_right _ _), Nat.zero_add]
    · dsimp only
      rw [length_content]

theorem does_truncate (sender slot size w2 : UInt32) (room : Bool) :
    Does b .calm (fun _ => True) (Agrees b s (store.answer room s.clientBuf (.truncate size)))
      (handle b fuel s ⟨sender, Libpcern.fsOpTruncate, size, w2, slot⟩ none) v := by
  rw [handle_truncate sender slot size w2 rep.connected, Store.answer]
  rcases current_cases rep.current with ⟨noFile, noName⟩ | ⟨slot, member, file, name⟩
  · rw [noFile, Store.opened_none noName]
    exact .ret rep.idle
  · rw [file, rep.opened_eq member name]
    refine .bind ((does_truncateFile geo rep.valid member size.toNat).forget.mono ?_)
    rintro ⟨ok, file'⟩ v' (⟨longer, same, rfl⟩ | ⟨le, same, chain', torn⟩ | ⟨⟨⟩, _⟩)
    · obtain ⟨rfl, rfl⟩ := Prod.mk.inj same
      dsimp only
      rw [length_content, if_pos longer]
      exact .ret ⟨⟨rep.valid, rep.holds, name ▸ .opened member, rep.connected⟩, rfl, rfl, rfl⟩
    · obtain ⟨rfl, rfl⟩ := Prod.mk.inj same
      dsimp only
      rw [length_content, if_neg (by omega)]
      refine .ret ⟨⟨torn.wf.valid, ?_, ?_, rep.connected⟩, rfl, rfl, rfl⟩
      · rw [torn.stored rep.valid member, rep.holds, content, slice_take _ _ le]
      · exact torn.current member name

theorem does_write (sender slot offset len : UInt32)
    (fits : ∀ name bytes, store.opened = some (name, bytes) → offset.toNat ≤ bytes.length → offset.toNat + 512 < 2 ^ 32) :
    Does b .calm (fun _ => True)
      (Agrees b s (store.answer (hasRoom b v s.openFile (.write offset len)) s.clientBuf (.write offset len)))
      (handle b fuel s ⟨sender, Libpcern.fsOpWrite, offset, len, slot⟩ none) v := by
  rw [handle_write sender slot offset len rep.connected, Store.answer]
  rcases current_cases rep.current with ⟨noFile, noName⟩ | ⟨slot, member, file, name⟩
  · rw [noFile, Store.opened_none noName]
    exact .ret rep.idle
  · have bound := fits _ _ (rep.opened_eq member name)
    rw [length_content] at bound
    have room : hasRoom b v s.openFile (.write offset len) = false ↔ Full b v (clustersOf b v slot) offset.toNat := by
      rw [file]
      change (!decide (offset.toNat / (b.sectorsPerCluster * 512) = (clustersOf b v slot).length) || (v.firstFree b).isSome) = false ↔ _
      rw [Bool.or_eq_false_iff, Bool.not_eq_false', decide_eq_true_iff, Option.isSome_eq_false_iff, Option.isNone_iff_eq_none, Full]
    have refuses : (v.size slot < offset.toNat ∨ hasRoom b v s.openFile (.write offset len) = false) ↔
        (v.size slot < offset.toNat ∨ Full b v (clustersOf b v slot) offset.toNat) := or_congr_right room
    rw [rep.opened_eq member name, file]
    dsimp only
    rw [← file, length_content]
    refine .bind ((does_writeFile geo rep.valid member offset.toNat len.toNat s.clientBuf False.elim).forget.mono ?_)
    rintro ⟨n, file'⟩ v' (⟨refused, same, rfl⟩ | ⟨accepted, same, chain', torn⟩ | ⟨⟨⟩, _⟩)
    · obtain ⟨rfl, rfl⟩ := Prod.mk.inj same
      rw [if_pos (refuses.mpr refused)]
      exact .ret ⟨⟨rep.valid, rep.holds, name ▸ .opened member, rep.connected⟩, rfl, rfl, rfl⟩
    · obtain ⟨rfl, rfl⟩ := Prod.mk.inj same
      rw [if_neg fun either => accepted (refuses.mp either)]
      have length : (payload offset.toNat len.toNat s.clientBuf).length ≤ 512 := by
        rw [payload, length_slice]
        omega
      have before : offset.toNat ≤ v.size slot := Nat.le_of_not_lt fun gap => accepted (.inl gap)
      have bound := bound before
      rw [Nat.mod_eq_of_lt (by omega)] at torn
      refine .ret ⟨⟨torn.wf.valid, ?_, torn.current member name, rep.connected⟩, rfl, rfl, rfl⟩
      rw [torn.stored rep.valid member, rep.holds, slice_blit_splice _ _ before, content]

theorem does_open (enough : b.maxCluster ≤ fuel) (sender slot w1 w2 w3 create : UInt32)
    (live : create ≠ 0 → Live (fileName w1 w2 w3)) :
    Does b .calm (fun _ => True)
      (Agrees b s (store.answer (hasRoom b v s.openFile (.openName w1 w2 w3 create)) s.clientBuf (.openName w1 w2 w3 create)))
      (serveAll b fuel s [⟨sender, Libpcern.fsOpOpenName1, w1, w2, slot⟩, ⟨sender, Libpcern.fsOpOpenName2, w3, create, slot⟩]) v := by
  have room : hasRoom b v s.openFile (.openName w1 w2 w3 create) = true ↔ v.Roomy b := by
    simp [hasRoom, Vol.Roomy]
  have fits : (fileName w1 w2 w3).length = 11 := by simp [fileName, le32]
  have second : Does b .calm (fun _ => True)
      (Agrees b s (store.answer (hasRoom b v s.openFile (.openName w1 w2 w3 create)) s.clientBuf (.openName w1 w2 w3 create)))
      (handle b fuel { s with pendingNameLo := le32 w1 ++ le32 w2 } ⟨sender, Libpcern.fsOpOpenName2, w3, create, slot⟩ none) v := by
    rw [handle_openName2 (s := { s with pendingNameLo := le32 w1 ++ le32 w2 }) sender slot w3 create rep.connected.2]
    refine .bind (.mono (does_openOrCreate geo rep.valid enough fits fun wanted => live (of_decide_eq_true wanted)) ?_)
    intro r v' opens
    rw [Store.answer]
    cases opens with
    | finds member named =>
      rw [rep.holds, ← named, WellFormed.stored_name rep.valid member]
      refine .ret ⟨⟨rep.valid, rfl, .opened member, rep.connected⟩, rfl, ?_, rfl⟩
      dsimp only
      rw [length_content]
      rfl
    | creates absent wanted roomy valid holds member named empty =>
      rw [rep.holds, absent]
      dsimp only
      rw [if_pos ⟨of_decide_eq_true wanted, room.mpr roomy⟩]
      refine .ret ⟨⟨valid, ?_, named ▸ .opened member, rep.connected⟩, rfl, ?_, rfl⟩
      · rw [holds]
      · rw [opened, empty]
        rfl
    | refuses absent unwanted =>
      rw [rep.holds, absent]
      dsimp only
      rw [if_neg fun both => unwanted ⟨decide_eq_true both.1, room.mp both.2⟩]
      exact .ret ⟨⟨rep.valid, rfl, .closed, rep.connected⟩, rfl, rfl, rfl⟩
  rw [serveAll, handle_openName1]
  refine .bind (.ret (.bind (.mono (does_serveAll_one second) ?_)))
  rintro ⟨s', replies⟩ v' agrees
  exact .ret agrees

private theorem does_turn (enough : b.maxCluster ≤ fuel) (small : store.Small) {t : Turn} (proper : t.request.Proper) :
    Does b .calm (fun _ => True)
      (Agrees b s (store.answer (hasRoom b v s.openFile t.request) t.page t.request)) (t.serve b fuel s) v := by
  have rep' : Represents b v { s with clientBuf := t.page } store := ⟨rep.valid, rep.holds, rep.current, rep.connected⟩
  obtain ⟨sender, slot, page, request⟩ := t
  cases request with
  | openName w1 w2 w3 create => exact does_open geo rep' enough sender slot w1 w2 w3 create proper
  | read offset len => exact does_serveAll_one (.mono (does_read geo rep' sender slot offset len _) fun _ _ read => read.1)
  | write offset len =>
    refine does_serveAll_one (does_write geo rep' sender slot offset len fun name bytes current before => ?_)
    have bound := small.opened current
    omega
  | truncate size => exact does_serveAll_one (does_truncate geo rep' sender slot size 0 _)

end Turns

/-! ## Sequences of requests -/

/-- What the client sees of an answer: the replies, and the page. -/
structure Seen where
  replies : List Reply
  page : Memory

/-- The server on a disk without failures. -/
def session (b : Bpb) (fuel : Nat) : Disk → Server → List Turn → Option (Disk × Server × List Seen)
  | d, s, [] => some (d, s, [])
  | d, s, t :: rest =>
    let trace := (t.serve b fuel s).run allWell d
    trace.result.bind fun (s', replies) =>
      (session b fuel trace.disk s' rest).map fun (d', s'', seen) => (d', s'', { replies, page := s'.clientBuf } :: seen)

/-- Whether there was room for each request, when the server came to it. -/
def rooms (b : Bpb) (fuel : Nat) : Disk → Server → List Turn → List Bool
  | _, _, [] => []
  | d, s, t :: rest =>
    let trace := (t.serve b fuel s).run allWell d
    hasRoom b (vol b d) s.openFile t.request :: (trace.result.map fun (s', _) => rooms b fuel trace.disk s' rest).getD []

def Store.session (reply : UInt32) : Store → List (Turn × Bool) → Store × List Seen
  | store, [] => (store, [])
  | store, (t, room) :: rest =>
    let answer := store.answer room t.page t.request
    let later := answer.store.session reply rest
    (later.1, { replies := [{ slot := reply, w0 := answer.w0, w1 := answer.w1 }], page := answer.page } :: later.2)

/-- All sizes are small before each of the requests. -/
def Store.StaysSmall : Store → List (Turn × Bool) → Prop
  | _, [] => True
  | store, (t, room) :: rest => store.Small ∧ (store.answer room t.page t.request).store.StaysSmall rest

/-- On a well-formed volume the server is a map from names to byte strings: for every sequence of requests it gives the
    answers of the store, and it leaves a well-formed volume that holds what the store then holds. -/
theorem serves_store {b : Bpb} (geo : Geometry b) {fuel : Nat} (enough : b.maxCluster ≤ fuel) {d : Disk} {s : Server} {store : Store}
    (represents : Represents b (vol b d) s store) (turns : List Turn) (proper : ∀ t ∈ turns, t.request.Proper)
    (small : store.StaysSmall (turns.zip (rooms b fuel d s turns))) :
    ∃ d' s', session b fuel d s turns = some (d', s', (store.session s.clientReply (turns.zip (rooms b fuel d s turns))).2) ∧
      Represents b (vol b d') s' (store.session s.clientReply (turns.zip (rooms b fuel d s turns))).1 := by
  induction turns generalizing d s store with
  | nil => exact ⟨d, s, rfl, represents⟩
  | cons t rest ih =>
    obtain ⟨⟨s', replies⟩, result, represents', page, replied, reply⟩ :=
      (does_turn geo represents enough small.1 (proper t List.mem_cons_self)).result id (.inl rfl)
    dsimp only at represents' page replied reply
    have later : rooms b fuel d s (t :: rest) =
        hasRoom b (vol b d) s.openFile t.request :: rooms b fuel ((t.serve b fuel s).run allWell d).disk s' rest := by
      simp [rooms, result]
    rw [later, List.zip_cons_cons] at small ⊢
    obtain ⟨d', s'', ran, final⟩ := ih represents' (fun t member => proper t (List.mem_cons_of_mem _ member)) small.2
    refine ⟨d', s'', ?_, ?_⟩
    · simp only [session, result, Option.bind_some, ran, Option.map_some, Store.session]
      rw [page, replied, reply]
    · rw [reply] at final
      exact final

private theorem small_of_sizes {b : Bpb} {v : Vol} {current : Option (List UInt8)}
    (sizes : ∀ slot ∈ files b v (rootOf b v), v.size slot < 2 ^ 32 - 512) : Store.Small ⟨stored b v, current⟩ := by
  intro name bytes found
  obtain ⟨slot, here, rfl⟩ := Option.map_eq_some_iff.mp found
  rw [length_content]
  exact sizes slot (List.mem_of_find?_eq_some here)

/-- A client of the small volume that has opened the file in two clusters. -/
def smallServer : Server :=
  { clientBuf := fun _ => 0, clientBufMapped := true, clientReply := 7, pendingNameLo := [],
    openFile := some (opened smallBpb (vol smallBpb smallDisk) ⟨2, 0, 0⟩) }

def smallStore : Store :=
  { files := stored smallBpb (vol smallBpb smallDisk), current := some ((vol smallBpb smallDisk).name ⟨2, 0, 0⟩) }

theorem smallServer_serves :
    ∃ d' s', session smallBpb 7 smallDisk smallServer [⟨4, 0, fun _ => 1, .write 520 100⟩] =
        some (d', s', (smallStore.session 7 ([⟨4, 0, fun _ => 1, .write 520 100⟩].zip
          (rooms smallBpb 7 smallDisk smallServer [⟨4, 0, fun _ => 1, .write 520 100⟩]))).2) ∧
      Represents smallBpb (vol smallBpb d') s' (smallStore.session 7 ([⟨4, 0, fun _ => 1, .write 520 100⟩].zip
          (rooms smallBpb 7 smallDisk smallServer [⟨4, 0, fun _ => 1, .write 520 100⟩]))).1 :=
  serves_store smallBpb_geometry (by decide) ⟨smallDisk_valid, rfl, .opened (by decide +kernel), rfl, by decide⟩ _
    (fun t member => by cases List.mem_singleton.mp member; trivial) ⟨small_of_sizes (by decide +kernel), trivial⟩

end Pcern.Fat32

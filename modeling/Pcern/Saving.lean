import Pcern.Editor
import Pcern.Opening
import Pcern.Space

/-!
The `edit` command of the shell: how it loads a file into the editor and how it saves it, with calls to the server that
transfer at most a sector each. What is saved is what is loaded again.
-/
namespace Pcern.Fat32

open Bytes Blocks

/-! ## The client -/

/-- A call: the messages of a request, and the wait for the reply. -/
def fsCall (b : Bpb) (fuel : Nat) (sender : UInt32) (s : Server) (page : Memory) (request : Request) : Io (Server × Reply) := do
  let (s, replies) ← Turn.serve b fuel s { sender, transferredSlot := 0, page, request }
  match replies with
  | reply :: _ => pure (s, reply)
  | [] => .spin

/-- The loop that loads a file, with the editor and whether the file was cut. -/
def loadLoop (b : Bpb) (fuel : Nat) (sender : UInt32) (size : Nat) : Nat → Server → Editor → Nat → Io (Server × Editor × Bool)
  | 0, _, _, _ => .spin
  | rounds + 1, s, ed, offset =>
    if offset < size then do
      let want := min (size - offset) 512
      let (s, reply) ← fsCall b fuel sender s s.clientBuf (.read (UInt32.ofNat offset) (UInt32.ofNat want))
      if reply.w0 = 0 then pure (s, ed, false)
      else
        let loaded := ed.appendLoaded (slice s.clientBuf 0 reply.w0.toNat)
        if loaded.2 then loadLoop b fuel sender size rounds s loaded.1 (add32 offset reply.w0.toNat)
        else pure (s, loaded.1, true)
    else pure (s, ed, false)

/-- The beginning of `run`: the file is opened or created, and loaded into the editor. -/
def loadFile (b : Bpb) (fuel rounds : Nat) (sender : UInt32) (name : List UInt8) (s : Server) (ed : Editor) :
    Io (Server × Option (Editor × Bool)) := do
  let (s, reply) ← fsCall b fuel sender s s.clientBuf (openRequest name true)
  match reply.opened with
  | none => pure (s, none)
  | some size =>
    let (s, ed, truncated) ← loadLoop b fuel sender size.toNat rounds s ed.reset 0
    pure (s, some (ed, truncated))

inductive SaveResult where
  | failedWrite
  | failedTruncate
  | saved
  deriving DecidableEq, Repr

/-- The loop that writes the contents of the editor, and whether it came to their end. -/
def saveLoop (b : Bpb) (fuel : Nat) (sender : UInt32) (content : List UInt8) : Nat → Server → Nat → Io (Server × Bool)
  | 0, _, _ => .spin
  | rounds + 1, s, offset =>
    if offset < content.length then do
      let want := min (content.length - offset) 512
      let page := blit s.clientBuf 0 ((content.drop offset).take want)
      let (s, reply) ← fsCall b fuel sender s page (.write (UInt32.ofNat offset) (UInt32.ofNat want))
      if reply.w0 = 0 then pure (s, false) else saveLoop b fuel sender content rounds s (offset + reply.w0.toNat)
    else pure (s, true)

/-- The end of `run`, after Ctrl-S. -/
def saveFile (b : Bpb) (fuel rounds : Nat) (sender : UInt32) (content : List UInt8) (s : Server) : Io (Server × SaveResult) := do
  let (s, done) ← saveLoop b fuel sender content rounds s 0
  if !done then pure (s, .failedWrite)
  else
    let (s, reply) ← fsCall b fuel sender s s.clientBuf (.truncate (UInt32.ofNat content.length))
    if reply.w0 = 1 then pure (s, .saved) else pure (s, .failedTruncate)

/-! ## Calls on a store -/

def editing (files : List UInt8 → Option (List UInt8)) (name bytes : List UInt8) : Store :=
  { files := Function.update files name (some bytes), current := some name }

@[simp] theorem opened_editing (files : List UInt8 → Option (List UInt8)) (name bytes : List UInt8) :
    (editing files name bytes).opened = some (name, bytes) := by
  simp [editing, Store.opened]

private theorem editing_update (files : List UInt8 → Option (List UInt8)) (name bytes bytes' : List UInt8) :
    { editing files name bytes with files := Function.update (editing files name bytes).files name (some bytes') } =
      editing files name bytes' := by
  simp [editing]

section Calls
variable {b : Bpb} {m : Mode} {J : Vol → Prop} {v : Vol} {fuel : Nat} {sender : UInt32} {s : Server} {page : Memory} {request : Request}

variable {store : Store} {n offset rounds : Nat} {file : OpenFile} {Q : Server × Reply → Vol → Prop}

private theorem does_fsCall {R : Server → Vol → Prop} {a : Answer}
    (serves : Does b m J (fun r v' => Agrees b s a r v' ∧ R r.1 v') (Turn.serve b fuel s ⟨sender, 0, page, request⟩) v)
    (later : ∀ s' v', Represents b v' s' a.store → s'.clientBuf = a.page → R s' v' → ∀ slot, Q (s', ⟨slot, a.w0, a.w1⟩) v') :
    Does b m J Q (fsCall b fuel sender s page request) v := by
  refine .bind (.mono serves ?_)
  rintro ⟨s', replies⟩ v' ⟨⟨rep, same, replied, _⟩, extra⟩
  dsimp only at replied
  subst replied
  exact .ret (later s' v' rep same extra _)

variable {files : List UInt8 → Option (List UInt8)} {name bytes content : List UInt8} (geo : Geometry b)
include geo

private theorem does_fsRead (rep : Represents b v s (editing files name bytes)) (offset len : UInt32)
    (count : n = min (min len.toNat (512 - offset.toNat % 512)) (bytes.length - offset.toNat))
    (later : ∀ s' slot, Represents b v s' (editing files name bytes) → s'.openFile = s.openFile →
      s'.clientBuf = blit s.clientBuf 0 ((bytes.drop offset.toNat).take n) → Q (s', ⟨slot, UInt32.ofNat n, 0⟩) v) :
    Does b .calm (fun _ => True) Q (fsCall b fuel sender s s.clientBuf (.read offset len)) v := by
  refine does_fsCall (a := (editing files name bytes).answer true s.clientBuf (.read offset len))
    (R := fun s' v' => v' = v ∧ s'.openFile = s.openFile) (does_serveAll_one (does_read geo rep sender 0 offset len true)) ?_
  rintro s' v' rep' same ⟨rfl, file⟩ slot
  simp only [Store.answer, opened_editing, ← count] at rep' same ⊢
  exact later s' slot rep' file same

private theorem does_loadLoop (small : bytes.length < 2 ^ 32) {ed : Editor} (rep : Represents b v s (editing files name bytes))
    (loaded : ed.content = bytes.take offset) (le : offset ≤ bytes.length) (aligned : offset % 512 = 0 ∨ offset = bytes.length)
    (enough : editorMaxBytes + 512 ≤ offset + 512 * rounds ∨ offset = bytes.length ∧ 0 < rounds) :
    Does b .calm (fun _ => True) (fun r v' => v' = v ∧ Represents b v' r.1 (editing files name bytes) ∧
        r.1.openFile = s.openFile ∧ r.2.1.content = bytes.take editorMaxBytes ∧ r.2.2 = decide (editorMaxBytes < bytes.length))
      (loadLoop b fuel sender bytes.length rounds s ed offset) v := by
  have length : ed.len = offset := by
    rw [← ed.length_content, loaded, List.length_take]
    omega
  have fits := ed.fits
  have max : editorMaxBytes = 65536 := rfl
  induction rounds generalizing s ed offset with
  | zero => omega
  | succ rounds ih =>
    rw [loadLoop]
    split
    · rename_i inside
      obtain ⟨n, count⟩ : ∃ n, n = min (bytes.length - offset) 512 := ⟨_, rfl⟩
      have start : (UInt32.ofNat offset).toNat = offset := UInt32.toNat_ofNat_of_lt' (by change _ < 2 ^ 32; omega)
      have want : (UInt32.ofNat n).toNat = n := UInt32.toNat_ofNat_of_lt' (by change _ < 2 ^ 32; omega)
      rw [← count]
      refine .bind (does_fsRead geo rep _ _ (n := n) (by rw [start, want]; omega) ?_)
      intro s' slot rep' file same
      have some : UInt32.ofNat n ≠ 0 := word_ne_zero (by omega) (by omega)
      have length' : ((bytes.drop offset).take n).length = n := by
        rw [List.length_take, List.length_drop]
        omega
      have chunk : slice s'.clientBuf 0 n = (bytes.drop offset).take n := by
        have written := slice_blit_same s.clientBuf 0 ((bytes.drop offset).take n)
        rw [length'] at written
        rw [same, start, written]
      have appended : (ed.appendLoaded ((bytes.drop offset).take n)).1.content =
          bytes.take offset ++ (bytes.drop offset).take (min (editorMaxBytes - offset) n) := by
        rw [Editor.content_appendLoaded, loaded, length, List.take_take]
      rw [← List.take_add] at appended
      dsimp only
      rw [if_neg some, want, chunk, Editor.appendLoaded_fits, length', length, add32]
      split
      · rename_i whole
        have whole := of_decide_eq_true whole
        rw [Nat.mod_eq_of_lt (by omega)]
        rw [Nat.min_eq_right (by omega)] at appended
        have length'' : (ed.appendLoaded ((bytes.drop offset).take n)).1.len = offset + n := by
          rw [← Editor.length_content, appended, List.length_take]
          omega
        rw [← file]
        exact ih rep' appended (by omega) (by omega) (by omega) length'' (Editor.fits _)
      · rename_i cut
        have cut := of_decide_eq_false (Bool.eq_false_iff.mpr cut)
        refine .ret ⟨rfl, rep', file, ?_, ?_⟩
        · rw [appended, Nat.min_eq_left (by omega), Nat.add_sub_cancel' (by omega)]
        · rw [decide_eq_true (by omega)]
    · rename_i ends
      have all : offset = bytes.length := by omega
      refine .ret ⟨rfl, rep, rfl, ?_, ?_⟩
      · rw [loaded, all, List.take_length, List.take_of_length_le (by omega)]
      · rw [decide_eq_false (by omega)]

private theorem does_fsWrite (rep : Represents b v s (editing files name bytes))
    (current : s.openFile = some file) (offset len : UInt32) (fits : offset.toNat + 512 < 2 ^ 32) (before : offset.toNat ≤ bytes.length)
    (room : hasRoom b v (some file) (.write offset len) = true) {data : List UInt8} (takes : payload offset.toNat len.toNat page = data)
    (later : ∀ s' v' slot file', Represents b v' s' (editing files name (splice bytes offset.toNat data)) → s'.openFile = some file' →
      budget b v' file' = budget b v file → s'.clientBuf = page → Q (s', ⟨slot, UInt32.ofNat data.length, 0⟩) v') :
    Does b .calm (fun _ => True) Q (fsCall b fuel sender s page (.write offset len)) v := by
  have rep' : Represents b v { s with clientBuf := page } (editing files name bytes) :=
    ⟨rep.valid, rep.holds, rep.current, rep.connected⟩
  have answer : (editing files name bytes).answer true page (.write offset len) =
      { store := editing files name (splice bytes offset.toNat data), w0 := UInt32.ofNat data.length, w1 := 0, page } := by
    have accepted : ¬(bytes.length < offset.toNat ∨ true = false) := by simp; omega
    simp only [Store.answer, opened_editing, if_neg accepted, takes, editing_update]
  refine does_fsCall (a := (editing files name bytes).answer true page (.write offset len))
    (R := fun s' v' => ∃ file', s'.openFile = some file' ∧ budget b v' file' = budget b v file) ?_ ?_
  · refine does_serveAll_one (.mono (.and (does_write geo rep' sender 0 offset len fun _ _ _ _ => fits)
      (does_write_budget geo rep' sender 0 offset len)) ?_)
    rintro r v' ⟨agrees, keeps⟩
    refine ⟨?_, keeps file current⟩
    change Agrees b _ ((editing files name bytes).answer (hasRoom b v s.openFile _) page _) r v' at agrees
    rw [current, room] at agrees
    exact agrees
  · rw [answer]
    rintro s' v' rep'' same ⟨file', opens, keeps⟩ slot
    exact later s' v' slot file' rep'' opens keeps same

private theorem does_saveLoop (fits : content.length ≤ editorMaxBytes)
    (rep : Represents b v s (editing files name bytes)) (current : s.openFile = some file)
    (room : clustersNeeded b content.length ≤ budget b v file) (begins : bytes.take offset = content.take offset)
    (before : offset ≤ bytes.length) (le : offset ≤ content.length) (aligned : offset % 512 = 0 ∨ offset = content.length)
    (enough : editorMaxBytes + 512 ≤ offset + 512 * rounds ∨ offset = content.length ∧ 0 < rounds) :
    Does b .calm (fun _ => True) (fun r v' => r.2 = true ∧ ∃ bytes', Represents b v' r.1 (editing files name bytes') ∧
        content.length ≤ bytes'.length ∧ bytes'.take content.length = content)
      (saveLoop b fuel sender content rounds s offset) v := by
  have max : editorMaxBytes = 65536 := rfl
  induction rounds generalizing s v file bytes offset with
  | zero => omega
  | succ rounds ih =>
    rw [saveLoop]
    split
    · rename_i inside
      obtain ⟨n, count⟩ : ∃ n, n = min (content.length - offset) 512 := ⟨_, rfl⟩
      obtain ⟨data, chunk⟩ : ∃ data, data = (content.drop offset).take n := ⟨_, rfl⟩
      have start : (UInt32.ofNat offset).toNat = offset := UInt32.toNat_ofNat_of_lt' (by change _ < 2 ^ 32; omega)
      have want : (UInt32.ofNat n).toNat = n := UInt32.toNat_ofNat_of_lt' (by change _ < 2 ^ 32; omega)
      have length : data.length = n := by
        rw [chunk, List.length_take, List.length_drop]
        omega
      have takes : payload (UInt32.ofNat offset).toNat (UInt32.ofNat n).toNat (blit s.clientBuf 0 data) = data := by
        rw [payload, start, want, Nat.min_eq_left (by omega), ← length, slice_blit_same]
      have some : UInt32.ofNat n ≠ 0 := word_ne_zero (by omega) (by omega)
      dsimp only
      rw [← count, ← chunk]
      refine .bind (does_fsWrite geo rep current _ _ (by omega) (by omega) (geo.hasRoom room (by omega)) takes ?_)
      intro s' v' slot file' rep' current' same _
      rw [start] at rep'
      have front : bytes.take offset ++ data = content.take (offset + n) := by rw [begins, chunk, ← List.take_add]
      have long : (bytes.take offset ++ data).length = offset + n := by
        rw [List.length_append, List.length_take, length]
        omega
      dsimp only
      rw [length, if_neg some, want]
      refine ih rep' current' (same ▸ room) ?_ ?_ (by omega) (by omega) (by omega)
      · rw [splice, List.take_left' long, front]
      · rw [splice, List.length_append, long]
        omega
    · rename_i ends
      have all : offset = content.length := by omega
      refine .ret ⟨rfl, bytes, rep, by omega, ?_⟩
      rw [← all, begins, all, List.take_length]

private theorem does_saveFile (fits : content.length ≤ editorMaxBytes) (enough : 129 ≤ rounds)
    (rep : Represents b v s (editing files name bytes)) (current : s.openFile = some file)
    (room : clustersNeeded b content.length ≤ budget b v file) :
    Does b .calm (fun _ => True) (fun r v' => r.2 = .saved ∧ Represents b v' r.1 (editing files name content))
      (saveFile b fuel rounds sender content s) v := by
  have max : editorMaxBytes = 65536 := rfl
  refine .bind (.mono (does_saveLoop geo fits rep current room rfl (Nat.zero_le _) (Nat.zero_le _) (.inl rfl) (by omega)) ?_)
  rintro ⟨s', done⟩ v' ⟨rfl, bytes', rep', long, begins⟩
  have size : (UInt32.ofNat content.length).toNat = content.length := UInt32.toNat_ofNat_of_lt' (by change _ < 2 ^ 32; omega)
  have answer : (editing files name bytes').answer true s'.clientBuf (.truncate (UInt32.ofNat content.length)) =
      { store := editing files name content, w0 := 1, w1 := 0, page := s'.clientBuf } := by
    simp only [Store.answer, opened_editing, size, if_neg (Nat.not_lt.mpr long), begins, editing_update]
  refine .bind (does_fsCall (a := (editing files name bytes').answer true s'.clientBuf (.truncate (UInt32.ofNat content.length)))
    (R := fun _ _ => True) (does_serveAll_one (.mono (does_truncate geo rep' sender 0 _ 0 true) fun _ _ agrees => ⟨agrees, trivial⟩)) ?_)
  rw [answer]
  intro s'' v'' rep'' _ _ slot
  exact .ret ⟨rfl, rep''⟩

omit geo in
theorem Represents.length_lt (rep : Represents b v s store) (found : store.files name = some bytes) :
    bytes.length < 2 ^ 32 := by
  rw [rep.holds] at found
  obtain ⟨slot, _, same⟩ := Option.map_eq_some_iff.mp found
  rw [← same, length_content]
  exact Vol.size_lt v slot

omit geo in
theorem Vol.HasRoomFor.roomy (rep : Represents b v s store) {w1 w2 w3 create : UInt32}
    (room : v.HasRoomFor b (fileName w1 w2 w3) n) (absent : store.files (fileName w1 w2 w3) = none) :
    hasRoom b v s.openFile (.openName w1 w2 w3 create) = true := by
  rw [rep.holds] at absent
  have missing : ((files b v (rootOf b v)).find? fun slot => v.name slot = fileName w1 w2 w3) = none := Option.map_eq_none_iff.mp absent
  rw [Vol.HasRoomFor, missing] at room
  change ((freeSlot b v (rootOf b v)).isSome || (v.firstFree b).isSome) = true
  cases free : (freeSlot b v (rootOf b v)).isSome with
  | true => rfl
  | false =>
    rw [Bool.false_or, ← Vol.free_pos]
    simp only [free, Bool.false_eq_true, if_false] at room
    omega

private theorem does_openForWrite (rep : Represents b v s store) (enough : b.maxCluster ≤ fuel)
    (live : Live (Libpcern.fatPackName name)) (room : v.HasRoomFor b (Libpcern.fatPackName name) n) :
    Does b .calm (fun _ => True) (fun r v' => ∃ bytes file, r.2.opened = some (UInt32.ofNat bytes.length) ∧
        bytes = (store.files (Libpcern.fatPackName name)).getD [] ∧
        Represents b v' r.1 (editing store.files (Libpcern.fatPackName name) bytes) ∧ r.1.openFile = some file ∧
        clustersNeeded b n ≤ budget b v' file)
      (fsCall b fuel sender s s.clientBuf (openRequest name true)) v := by
  obtain ⟨w1, w2, w3, words, packed⟩ := openRequest_words name true
  rw [words]
  rw [← packed] at live room ⊢
  refine does_fsCall (a := store.answer (hasRoom b v s.openFile (.openName w1 w2 w3 1)) s.clientBuf (.openName w1 w2 w3 1))
    (R := fun s' v' => ∀ file, s'.openFile = some file → clustersNeeded b n ≤ budget b v' file)
    (.and (does_open geo rep enough sender 0 w1 w2 w3 1 fun _ => live) (does_open_budget geo rep enough sender 0 w1 w2 w3 1 room)) ?_
  intro s' v' rep' _ holds slot
  have opens : ∀ {store' : Store}, Represents b v' s' store' → store'.current = some (fileName w1 w2 w3) → ∃ file, s'.openFile = some file := by
    intro store' rep' current
    rcases current_cases rep'.current with ⟨_, none⟩ | ⟨slot, _, file, _⟩
    · cases current.symm.trans none
    · exact ⟨_, file⟩
  cases found : store.files (fileName w1 w2 w3) with
  | some bytes =>
    simp only [Store.answer, found] at rep' ⊢
    obtain ⟨file, current⟩ := opens rep' rfl
    have same : editing store.files (fileName w1 w2 w3) bytes = { store with current := some (fileName w1 w2 w3) } := by
      rw [editing, ← found, Function.update_eq_self]
    exact ⟨bytes, file, rfl, rfl, same ▸ rep', current, holds file current⟩
  | none =>
    have created : (1 : UInt32) ≠ 0 ∧ hasRoom b v s.openFile (.openName w1 w2 w3 1) = true := ⟨by decide, room.roomy rep found⟩
    simp only [Store.answer, found, if_pos created] at rep' ⊢
    obtain ⟨file, current⟩ := opens rep' rfl
    exact ⟨[], file, rfl, rfl, rep', current, holds file current⟩

private theorem does_loadFile (rep : Represents b v s store) (enough : b.maxCluster ≤ fuel)
    (live : Live (Libpcern.fatPackName name)) (long : 129 ≤ rounds)
    (room : v.HasRoomFor b (Libpcern.fatPackName name) n) {ed : Editor} :
    Does b .calm (fun _ => True) (fun r v' => ∃ ed bytes file,
        bytes = (store.files (Libpcern.fatPackName name)).getD [] ∧ r.2 = some (ed, decide (editorMaxBytes < bytes.length)) ∧
        ed.content = bytes.take editorMaxBytes ∧
        Represents b v' r.1 (editing store.files (Libpcern.fatPackName name) bytes) ∧ r.1.openFile = some file ∧
        clustersNeeded b n ≤ budget b v' file)
      (loadFile b fuel rounds sender name s ed) v := by
  have max : editorMaxBytes = 65536 := rfl
  refine .bind (.mono (does_openForWrite geo rep enough live room) ?_)
  rintro ⟨s', reply⟩ v' ⟨bytes, file, replied, old, rep', current, holds⟩
  have held : (editing store.files (Libpcern.fatPackName name) bytes).files (Libpcern.fatPackName name) = some bytes :=
    Function.update_self ..
  have small : bytes.length < 2 ^ 32 := rep'.length_lt held
  dsimp only at replied rep' current ⊢
  rw [replied]
  dsimp only
  rw [UInt32.toNat_ofNat_of_lt' small]
  refine .bind (.mono (does_loadLoop geo small rep' (by simp) (Nat.zero_le _) (.inl rfl) (by omega)) ?_)
  rintro ⟨s'', ed', truncated⟩ v'' ⟨rfl, rep'', same, loaded, cut⟩
  dsimp only at rep'' same loaded cut
  rw [cut]
  exact .ret ⟨ed', bytes, file, old, rfl, loaded, rep'', same.trans current, holds⟩

end Calls

/-! ## Saving and loading -/

/-- A file is edited and saved with these contents, and loaded again into some editor. -/
def saveAndReload (b : Bpb) (fuel rounds : Nat) (sender : UInt32) (name content : List UInt8) (s : Server) (ed ed' : Editor) :
    Io (Option (SaveResult × Server × Option (Editor × Bool))) := do
  let (s, first) ← loadFile b fuel rounds sender name s ed
  match first with
  | none => pure none
  | some _ =>
    let (s, result) ← saveFile b fuel rounds sender content s
    let (s, again) ← loadFile b fuel rounds sender name s ed'
    pure (some (result, s, again))

section Reload
variable {b : Bpb} {v : Vol} {fuel rounds : Nat} {sender : UInt32} {s : Server} {store : Store} {name content : List UInt8} {ed ed' : Editor}

theorem Represents.hasRoomFor (geo : Geometry b) (rep : Represents b v s store) (found : store.files name = some content) :
    v.HasRoomFor b name 0 := by
  have sectors := geo.sectors
  rw [rep.holds] at found
  obtain ⟨slot, here, _⟩ := Option.map_eq_some_iff.mp found
  rw [Vol.HasRoomFor, here]
  dsimp only
  rw [clustersNeeded, Nat.div_eq_of_lt (by omega)]
  exact Nat.zero_le _

private theorem does_saveAndReload (geo : Geometry b) (enough : b.maxCluster ≤ fuel) (long : 129 ≤ rounds) (rep : Represents b v s store)
    (live : Live (Libpcern.fatPackName name)) (fits : content.length ≤ editorMaxBytes)
    (room : v.HasRoomFor b (Libpcern.fatPackName name) content.length) :
    Does b .calm (fun _ => True) (fun r v' => ∃ s' ed'', r = some (.saved, s', some (ed'', false)) ∧ ed''.content = content ∧
        Represents b v' s' (editing store.files (Libpcern.fatPackName name) content))
      (saveAndReload b fuel rounds sender name content s ed ed') v := by
  refine .bind (.mono (does_loadFile geo rep enough live long room) ?_)
  rintro ⟨s₁, first⟩ v₁ ⟨ed₁, bytes, file, _, loaded, _, rep₁, current, holds⟩
  dsimp only at loaded rep₁ current ⊢
  rw [loaded]
  refine .bind (.mono (does_saveFile geo fits long rep₁ current holds) ?_)
  rintro ⟨s₂, result⟩ v₂ ⟨rfl, rep₂⟩
  dsimp only at rep₂ ⊢
  have held : (editing store.files (Libpcern.fatPackName name) content).files (Libpcern.fatPackName name) = some content :=
    Function.update_self ..
  refine .bind (.mono (does_loadFile geo rep₂ enough live long (rep₂.hasRoomFor geo held)) ?_)
  rintro ⟨s₃, again⟩ v₃ ⟨ed₃, bytes', _, old, loaded', same, rep₃, _, _⟩
  rw [held, Option.getD_some] at old
  subst old
  rw [List.take_of_length_le fits] at same
  rw [decide_eq_false (Nat.not_lt.mpr fits)] at loaded'
  dsimp only at loaded' rep₃ ⊢
  rw [loaded']
  refine .ret ⟨s₃, ed₃, rfl, same, ?_⟩
  have files : editing (editing store.files (Libpcern.fatPackName name) bytes').files (Libpcern.fatPackName name) bytes' =
      editing store.files (Libpcern.fatPackName name) bytes' := by
    simp [editing]
  exact files ▸ rep₃

end Reload

/-- Saving succeeds if there are clusters enough, and what is loaded then is what was saved; the other files are as they
    were. -/
theorem saved_is_loaded {b : Bpb} {d : Disk} {fuel rounds : Nat} {sender : UInt32} {s : Server} {store : Store} {name content : List UInt8}
    {ed ed' : Editor} (geo : Geometry b) (enough : b.maxCluster ≤ fuel) (long : 129 ≤ rounds) (rep : Represents b (vol b d) s store)
    (live : Live (Libpcern.fatPackName name)) (fits : content.length ≤ editorMaxBytes)
    (room : (vol b d).HasRoomFor b (Libpcern.fatPackName name) content.length) :
    ∃ s' ed'', ((saveAndReload b fuel rounds sender name content s ed ed').run allWell d).result =
        some (some (.saved, s', some (ed'', false))) ∧ ed''.content = content ∧
      Represents b (vol b ((saveAndReload b fuel rounds sender name content s ed ed').run allWell d).disk) s'
        { files := Function.update store.files (Libpcern.fatPackName name) (some content),
          current := some (Libpcern.fatPackName name) } := by
  have does : Does b .calm _ _ (saveAndReload b fuel rounds sender name content s ed ed') (vol b d) :=
    does_saveAndReload geo enough long rep live fits room
  obtain ⟨_, result, s', ed'', rfl, same, rep'⟩ := does.result id (.inl rfl)
  exact ⟨s', ed'', result, same, rep'⟩

def blankEditor : Editor := Editor.new fun _ => 0

theorem smallDisk_saves : ∃ s' ed'', ((saveAndReload smallBpb 7 129 5 [0x61] [1, 2, 3] smallServer blankEditor blankEditor).run
        allWell smallDisk).result = some (some (.saved, s', some (ed'', false))) ∧ ed''.content = [1, 2, 3] ∧
      Represents smallBpb (vol smallBpb ((saveAndReload smallBpb 7 129 5 [0x61] [1, 2, 3] smallServer blankEditor blankEditor).run
          allWell smallDisk).disk) s'
        { files := Function.update smallStore.files (Libpcern.fatPackName [0x61]) (some [1, 2, 3]),
          current := some (Libpcern.fatPackName [0x61]) } := by
  refine saved_is_loaded smallBpb_geometry (Nat.le_refl 7) (Nat.le_refl 129)
    ⟨smallDisk_valid, rfl, .opened (by decide +kernel), rfl, by decide⟩ ⟨0x41, by decide, by decide, by decide⟩ (by decide) ?_
  have found : ((files smallBpb (vol smallBpb smallDisk) (rootOf smallBpb (vol smallBpb smallDisk))).find? fun slot =>
      (vol smallBpb smallDisk).name slot = Libpcern.fatPackName [0x61]) = some ⟨2, 0, 0⟩ := by decide +kernel
  rw [Vol.HasRoomFor, found]
  decide +kernel

end Pcern.Fat32

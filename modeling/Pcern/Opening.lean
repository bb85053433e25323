import Pcern.Walks
import Pcern.Store

/-!
Opening files by name. What a search of the root directory finds is the first live entry with the name, and a file that is
created is found afterwards, but for two things: names that begin like a deleted entry or like the end of the directory
can be created and not be found, and a directory is opened like a file.
-/
namespace Pcern.Fat32

open Bytes Blocks Chains

/-- What `find_in_root` returns when nothing fails. -/
def lookup (b : Bpb) (fuel : Nat) (d : Disk) (name : List UInt8) : Option (Option OpenFile) :=
  ((findInRoot b fuel name).run allWell d).result

/-! ## Creating files -/

/-- The same is found under a name on two disks. -/
def Unmoved (b : Bpb) (fuel : Nat) (d d' : Disk) (name : List UInt8) : Prop :=
  ∃ found, lookup b fuel d name = some found ∧ lookup b fuel d' name = some found

/-- The file that `open_or_create` returns is found under its name, and the other names are left alone; if it returns none,
    all names are. -/
def CreatesFindable (b : Bpb) (fuel : Nat) (d : Disk) (name : List UInt8) : Prop :=
  let out := (openOrCreate b fuel name true).run allWell d
  match out.result with
  | some (some file) =>
    lookup b fuel out.disk name = some (some file) ∧ ∀ other, other.length = 11 → other ≠ name → Unmoved b fuel d out.disk other
  | some none => ∀ other, other.length = 11 → Unmoved b fuel d out.disk other
  | none => False

section Dead
variable {β : Type} {b : Bpb} {d : Disk} {decides : Nat → Sector → Nat → Option β} {name : List UInt8}

private theorem ensures_decided (fuel c : Nat) :
    Ensures ⟨False, True, fun _ => False⟩ (fun _ _ _ _ => True) (fun r _ => ∀ x, r = .decided x → ∃ sector b off, decides sector b off = some x)
      (walkRoot b decides fuel c) d := by
  induction fuel generalizing c with
  | zero => trivial
  | succ fuel ih =>
    refine ensures_walkRoot (fun x found => ?_) (fun _ c' _ => ih c') (fun _ _ => by rintro _ ⟨⟩) False.elim
    rintro y ⟨⟩
    obtain ⟨slot, _, decided⟩ := List.exists_of_findSome?_eq_some found
    exact ⟨_, _, _, decided⟩

private theorem live_of_sought {sector off : Nat} {e : Sector} {file : OpenFile} (sought : entrySought name sector e off = some (some file)) :
    Live name := by
  unfold entrySought at sought
  split at sought
  · cases sought
  · rename_i present
    split at sought
    · cases sought
    · rename_i kept
      split at sought
      · cases sought
      · split at sought
        · rename_i named
          exact ⟨e off, by rw [← named]; simp [slice], present, kept⟩
        · cases sought

private theorem lookup_not_live (dead : ¬Live name) (fuel : Nat) (file : OpenFile) : lookup b fuel d name ≠ some (some file) := by
  intro found
  have never : Ensures ⟨False, True, fun _ => False⟩ (fun _ _ _ _ => True) (fun r _ => r = none) (findInRoot b fuel name) d := by
    refine ensures_bind.mpr ((ensures_decided fuel b.rootCluster).mono ?_ fun _ _ _ _ may => may)
    intro r d' decided
    cases r with
    | unread => rfl
    | ended last => rfl
    | decided x =>
      obtain ⟨sector, entry, off, sought⟩ := decided x rfl
      cases x with
      | none => rfl
      | some file => exact absurd (live_of_sought sought) dead
  cases (never.run (.inl rfl)).2 _ found

end Dead

section Create
variable {b : Bpb} {d : Disk} {fuel : Nat} {name : List UInt8} (geo : Geometry b) (enough : b.maxCluster ≤ fuel)
include geo enough

private theorem lookup_eq (valid : Valid b (vol b d)) (name : List UInt8) :
    lookup b fuel d name = some (byName b (vol b d) (opened b (vol b d)) name) := by
  have wf : WellFormed b (vol b d) (rootOf b (vol b d)) (clustersOf b (vol b d)) := valid
  have does : Does b .calm (fun _ => True) (fun r _ => r = byName b (vol b d) (opened b (vol b d)) name)
      (findInRoot b fuel name) (vol b d) :=
    does_findInRoot geo wf.rootChain wf.has_root (Nat.le_trans wf.length_root enough) rfl False.elim
  obtain ⟨r, result, rfl⟩ := does.result id (.inl rfl)
  exact result

private theorem does_openOrCreate_found {v : Vol} (valid : Valid b v) (fits : name.length = 11) (proper : Live name ∨ ¬v.Roomy b) :
    Does b .calm (fun _ => True) (fun r v' => Valid b v' ∧ byName b v' (opened b v') =
        r.elim (byName b v (opened b v)) fun file => Function.update (byName b v (opened b v)) name (some file))
      (openOrCreate b fuel name true) v := by
  refine does_openOrCreate_new geo valid enough ?_ (fun _ _ => ⟨valid, rfl⟩) ?_
  · rintro slot member rfl
    have found : byName b v (opened b v) (v.name slot) = some (opened b v slot) := valid.byName_iff.mpr ⟨slot, member, rfl, rfl⟩
    refine ⟨valid, ?_⟩
    rw [Option.elim_some, ← found, Function.update_eq_self]
  · intro absent _ roomy v' root chain x ready
    have live := proper.resolve_right (not_not.mpr roomy)
    have missing : stored b v' name = none := by rw [ready.holds, absent]
    obtain ⟨created, listed⟩ := ready.wf.create ready.free fits live (stored_eq_none missing ready.wf)
    refine ⟨created.valid, ?_⟩
    have entry : opened b (v'.newEntry x name) x = { startCluster := 0, size := 0, dirent := x.loc b } := by
      rw [opened, Vol.newEntry_start fits, Vol.newEntry_size fits]
    have before : byName b v' (opened b v') = byName b v (opened b v) := by
      refine byName_congr valid ready.wf ready.listed fun y member => ⟨(ready.same y member).name, ?_⟩
      rw [opened, (ready.same y member).start, (ready.same y member).size, opened]
    rw [Option.elim_some, ← before, ← entry]
    refine byName_replaced ready.wf created listed (fun y member other => ⟨(Vol.newEntry_other fits other).name, ?_⟩)
      (Vol.newEntry_name fits) fun member => absurd member (freeSlot_not_file ready.free)
    rw [opened, (Vol.newEntry_other fits other).start, (Vol.newEntry_other fits other).size, opened]

end Create

/-- On a well-formed volume a created file is found under its name, and nothing else changes, just for the names that can be
    the name of a file, or if there is no room to create one. -/
theorem created_found_iff {b : Bpb} {d : Disk} {fuel : Nat} {name : List UInt8} (geo : Geometry b) (valid : Valid b (vol b d))
    (enough : b.maxCluster ≤ fuel) (fits : name.length = 11) :
    CreatesFindable b fuel d name ↔ Live name ∨ ¬(vol b d).Roomy b := by
  constructor
  · intro findable
    by_contra improper
    obtain ⟨dead, roomy⟩ := not_or.mp improper
    have opens : Does b .calm (fun _ => True) (fun r _ => r ≠ none) (openOrCreate b fuel name true) (vol b d) :=
      does_openOrCreate_new geo valid enough (fun _ _ _ => nofun) (fun _ refused => absurd ⟨rfl, not_not.mp roomy⟩ refused)
        fun _ _ _ _ _ _ _ _ => nofun
    have ends := (opens d rfl).run (.inl rfl)
    unfold CreatesFindable at findable
    dsimp only at findable
    split at findable
    · exact lookup_not_live dead fuel _ findable.1
    · rename_i result
      exact ends.2 none result rfl
    · exact findable
  · intro proper
    have ends := (does_openOrCreate_found geo enough valid fits proper d rfl).run (.inl rfl)
    unfold CreatesFindable
    dsimp only
    split
    · rename_i file result
      obtain ⟨valid', holds⟩ := ends.2 _ result
      rw [Option.elim_some] at holds
      refine ⟨?_, fun other _ different => ⟨_, lookup_eq geo enough valid other, ?_⟩⟩
      · rw [lookup_eq geo enough valid', holds, Function.update_self]
      · rw [lookup_eq geo enough valid', holds, Function.update_of_ne different]
    · rename_i result
      obtain ⟨valid', holds⟩ := ends.2 _ result
      intro other _
      refine ⟨_, lookup_eq geo enough valid other, ?_⟩
      rw [lookup_eq geo enough valid', holds, Option.elim_none]
    · rename_i result
      exact ends.1 result

theorem smallDisk_creates : CreatesFindable smallBpb 7 smallDisk (0x43 :: List.replicate 10 0x20) :=
  (created_found_iff smallBpb_geometry smallDisk_valid (Nat.le_refl 7) rfl).mpr (.inl ⟨0x43, rfl, by decide, by decide⟩)

/-- A name that begins with 0xE5 is created, and not found. -/
theorem deleted_name_not_found : ¬CreatesFindable smallBpb 7 smallDisk deletedName := by
  intro findable
  have result : ((openOrCreate smallBpb 7 deletedName true).run allWell smallDisk).result =
      some (some { startCluster := 0, size := 0, dirent := { sector := 3, offset := 64 } }) := by decide +kernel
  unfold CreatesFindable at findable
  dsimp only at findable
  rw [result] at findable
  exact lookup_not_live (by rintro ⟨first, begins, _, other⟩; cases begins; exact other rfl) 7 _ findable.1

/-! ## Opening regular files -/

/-- Where the server finds a slot. -/
def Slot.place (b : Bpb) (slot : Slot) : DirLoc :=
  { sector := add32 (clusterToSector b slot.cluster) slot.sector, offset := slot.offset }

/-- The entries of a directory whose chain is `root`, up to the end marker. -/
def entriesOn (b : Bpb) (d : Disk) (root : List Nat) : List DirLoc :=
  ((slots b root).map (Slot.place b)).takeWhile fun loc => d loc.sector loc.offset ≠ 0x00

def openedOn (d : Disk) (loc : DirLoc) : OpenFile := openedAt loc.sector (d loc.sector) loc.offset

/-- A live entry that is neither a long name nor a volume label. -/
def Listed (d : Disk) (loc : DirLoc) : Prop :=
  (d loc.sector loc.offset ≠ 0x00 ∧ d loc.sector loc.offset ≠ 0xE5) ∧
    d loc.sector (loc.offset + 11) ≠ 0x0F ∧ d loc.sector (loc.offset + 11) &&& 0x08 = 0

def NoDirectory (d : Disk) (loc : DirLoc) : Prop := d loc.sector (loc.offset + 11) &&& 0x10 = 0

def nameOn (d : Disk) (loc : DirLoc) : List UInt8 := slice (d loc.sector) loc.offset 11

/-- The entry has a name, whatever the case of its letters. -/
def Named (d : Disk) (name : List UInt8) (loc : DirLoc) : Prop :=
  (nameOn d loc).map toAsciiUppercase = Libpcern.fatPackName name

instance (d : Disk) (loc : DirLoc) : Decidable (Listed d loc) := inferInstanceAs (Decidable (_ ∧ _))
instance (d : Disk) (loc : DirLoc) : Decidable (NoDirectory d loc) := inferInstanceAs (Decidable (_ = _))
instance (d : Disk) (name : List UInt8) (loc : DirLoc) : Decidable (Named d name loc) := inferInstanceAs (Decidable (_ = _))

def regularFile (b : Bpb) (d : Disk) (root : List Nat) (name : List UInt8) : Option OpenFile :=
  ((entriesOn b d root).find? fun loc => Listed d loc ∧ NoDirectory d loc ∧ Named d name loc).map (openedOn d)

/-- The request that `fs_open` makes for a name, in two messages. -/
def openRequest (name : List UInt8) (create : Bool) : Request :=
  let packed := Libpcern.fatPackName name
  let byte i := packed.getD i 0
  .openName (fromLe32 (byte 0) (byte 1) (byte 2) (byte 3)) (fromLe32 (byte 4) (byte 5) (byte 6) (byte 7))
    (fromLe32 (byte 8) (byte 9) (byte 10) 0) (if create then 1 else 0)

def Reply.opened (r : Reply) : Option UInt32 := if r.w0 = 1 then some r.w1 else none

private theorem range_map_getD {bytes : List UInt8} {n : Nat} (length : bytes.length = n) :
    ((List.range n).map fun i => bytes.getD i 0) = bytes := by
  apply List.ext_getElem
  · simp [length]
  · intro i _ there
    simp [there]

theorem openRequest_words (name : List UInt8) (create : Bool) : ∃ w1 w2 w3,
    openRequest name create = .openName w1 w2 w3 (if create then 1 else 0) ∧ fileName w1 w2 w3 = Libpcern.fatPackName name := by
  refine ⟨_, _, _, rfl, ?_⟩
  rw [fileName, le32_fromLe32, le32_fromLe32, le32_fromLe32]
  exact range_map_getD (Libpcern.length_fatPackName name)

section Regular
variable {b : Bpb} {d : Disk} {root : List Nat} {fuel : Nat} {name : List UInt8}

private theorem ensures_chain {β : Type} (decides : Nat → Sector → Nat → Option β) {c : Nat} (chain : ChainFrom (linkOn b d) c root)
    (enough : root.length ≤ fuel) :
    Ensures .calm (fun _ _ _ _ => True)
      (fun r _ => ((slots b root).findSome? (verdictOn b d decides)).elim (∃ last, r = .ended last) fun x => r = .decided x)
      (walkRoot b decides fuel c) d := by
  induction chain generalizing fuel with
  | @last c ends =>
    obtain ⟨fuel, rfl⟩ : ∃ n, fuel = n + 1 := Nat.exists_eq_add_of_le' enough
    rw [slots, List.flatMap_singleton]
    refine ensures_walkRoot (fun x found => ?_) (fun _ c' goes => ?_) (fun nothing _ => ?_) False.elim
    · rw [found]
      rfl
    · cases ends.symm.trans goes
    · rw [nothing]
      exact ⟨c, rfl⟩
  | @link c c' root goes rest ih =>
    obtain ⟨fuel, rfl⟩ := Nat.exists_eq_add_of_le' (Nat.le_trans (Nat.le_add_left 1 _) enough)
    rw [slots, List.flatMap_cons, List.findSome?_append, ← slots]
    refine ensures_walkRoot (fun x found => ?_) (fun nothing c'' next => ?_) (fun _ stops => ?_) False.elim
    · rw [found]
      rfl
    · cases goes.symm.trans next
      rw [nothing, Option.none_or]
      exact ih (by simpa using enough)
    · cases goes.symm.trans (stops.resolve_right id)

private theorem kindAt_file {loc : DirLoc} : kindAt (d loc.sector) loc.offset = .file ↔ Listed d loc := by
  unfold kindAt Listed skipped
  split
  · simp [*]
  · split
    · simp [*]
    · split
      · rename_i hidden
        simp only [Bool.or_eq_true, beq_iff_eq, bne_iff_ne] at hidden
        simp only [reduceCtorEq, false_iff]
        rintro ⟨_, long, label⟩
        exact hidden.elim long fun other => other label
      · rename_i present kept shown
        simp only [Bool.or_eq_true, beq_iff_eq, bne_iff_ne, not_or, not_not] at shown
        exact iff_of_true rfl ⟨⟨present, kept⟩, shown⟩

private theorem kindAt_marker {loc : DirLoc} : kindAt (d loc.sector) loc.offset = .marker ↔ d loc.sector loc.offset = 0x00 := by
  unfold kindAt
  split_ifs with zero gone hid <;> simp [zero]

private theorem lookup_on (chain : ChainFrom (linkOn b d) b.rootCluster root) (enough : root.length ≤ fuel) :
    lookup b fuel d name =
      some (((entriesOn b d root).find? fun loc => Listed d loc ∧ nameOn d loc = name).map (openedOn d)) := by
  have sought := findSome_sought ((slots b root).map (Slot.place b)) (·.sector) (fun loc => d loc.sector) (·.offset) name
  simp only [kindAt_file, ne_eq, kindAt_marker, List.find?_filter, decide_eq_true_eq] at sought
  rw [List.findSome?_map] at sought
  have found : ((slots b root).findSome? (verdictOn b d (entrySought name))).join =
      ((entriesOn b d root).find? fun loc => Listed d loc ∧ nameOn d loc = name).map (openedOn d) := sought
  have finds : Ensures .calm (fun _ _ _ _ => True)
      (fun r _ => r = ((entriesOn b d root).find? fun loc => Listed d loc ∧ nameOn d loc = name).map (openedOn d))
      (findInRoot b fuel name) d := by
    refine ensures_bind.mpr ((ensures_chain (entrySought name) chain enough).mono ?_ fun _ _ _ _ may => may)
    intro r d' walked
    rw [← found]
    cases verdict : (slots b root).findSome? (verdictOn b d (entrySought name)) with
    | some x =>
      rw [verdict] at walked
      cases walked
      rfl
    | none =>
      rw [verdict] at walked
      obtain ⟨last, rfl⟩ := walked
      rfl
  obtain ⟨r, result, rfl⟩ := finds.result id (.inl rfl)
  exact result

private theorem run_openName {s : Server} {t : Turn} (connected : s.clientReply ≠ 0) (asks : t.request = openRequest name false)
    {found : Option OpenFile} (finds : lookup b fuel d (Libpcern.fatPackName name) = some found) :
    ∃ s' reply, ((t.serve b fuel s).run allWell d).result = some (s', [reply]) ∧ s'.openFile = found ∧
      reply.opened = found.map fun file => UInt32.ofNat file.size := by
  obtain ⟨w1, w2, w3, words, packed⟩ := openRequest_words name false
  have opens : ((openOrCreate b fuel (fileName w1 w2 w3) false).run allWell d).result = some found := by
    rw [packed, openOrCreate, (run_allWell_bind finds).1]
    cases found <;> rfl
  obtain ⟨named, handled⟩ : ∃ s₁ : Server, s₁ = { s with clientBuf := t.page, pendingNameLo := le32 w1 ++ le32 w2 } := ⟨_, rfl⟩
  obtain ⟨reply, answers⟩ : ∃ reply : Reply, reply =
    { slot := s.clientReply, w0 := if found.isSome then 1 else 0, w1 := UInt32.ofNat (found.elim 0 OpenFile.size) } := ⟨_, rfl⟩
  have second : ((handle b fuel named ⟨t.sender, Libpcern.fsOpOpenName2, w3, 0, t.transferredSlot⟩ none).run allWell d).result =
      some ({ named with openFile := found }, [reply]) := by
    subst handled answers
    rw [handle_openName2 _ _ _ _ (by exact connected)]
    refine Eq.trans (run_allWell_bind opens).1 ?_
    cases found <;> rfl
  refine ⟨{ named with openFile := found }, reply, ?_, rfl, ?_⟩
  · unfold Turn.serve Turn.messages
    rw [asks, words]
    dsimp only
    rw [serveAll, handle_openName1, ← handled]
    have rest : ((serveAll b fuel named [⟨t.sender, Libpcern.fsOpOpenName2, w3, 0, t.transferredSlot⟩]).run allWell d).result =
        some ({ named with openFile := found }, [reply]) := (run_allWell_bind second).1
    exact (run_allWell_bind rest).1
  · subst answers
    cases found <;> rfl

end Regular

/-- `fs_open` opens the first regular file with the name, if there is one. -/
def OpensRegular (b : Bpb) (fuel : Nat) (d : Disk) (root : List Nat) (s : Server) (t : Turn) (name : List UInt8) : Prop :=
  ∃ s' reply, ((t.serve b fuel s).run allWell d).result = some (s', [reply]) ∧ s'.openFile = regularFile b d root name ∧
    reply.opened = (regularFile b d root name).map fun file => UInt32.ofNat file.size

/-- It does so just when the first entry that has the name up to case, and is no directory or has it in upper case, is both
    no directory and has it in upper case. -/
theorem opens_regular_iff {b : Bpb} {d : Disk} {root : List Nat} {fuel : Nat} {s : Server} {t : Turn} {name : List UInt8}
    (chain : ChainFrom (linkOn b d) b.rootCluster root) (enough : root.length ≤ fuel) (connected : s.clientReply ≠ 0)
    (asks : t.request = openRequest name false) :
    OpensRegular b fuel d root s t name ↔ ∀ loc, ((entriesOn b d root).find? fun loc => Listed d loc ∧ Named d name loc ∧
        (NoDirectory d loc ∨ nameOn d loc = Libpcern.fatPackName name)) = some loc →
      NoDirectory d loc ∧ nameOn d loc = Libpcern.fatPackName name := by
  obtain ⟨s', reply, result, opens, replies⟩ := run_openName connected asks (lookup_on chain enough)
  have upper : ∀ loc, nameOn d loc = Libpcern.fatPackName name → Named d name loc := fun loc same => by
    rw [Named, same, Libpcern.upper_fatPackName]
  have apart : Function.Injective (openedOn d) := fun loc loc' same => congrArg OpenFile.dirent same
  have searches : OpensRegular b fuel d root s t name ↔
      ((entriesOn b d root).find? fun loc => Listed d loc ∧ nameOn d loc = Libpcern.fatPackName name) =
        (entriesOn b d root).find? fun loc => Listed d loc ∧ NoDirectory d loc ∧ Named d name loc := by
    constructor
    · rintro ⟨s'', reply', result', opens', _⟩
      cases result.symm.trans result'
      exact Option.map_injective apart (opens.symm.trans opens')
    · intro same
      rw [same] at opens replies
      exact ⟨s', reply, result, opens, replies⟩
  rw [searches, Keyed.find_eq_find_iff]
  have either : (fun loc => decide (Listed d loc ∧ nameOn d loc = Libpcern.fatPackName name) ||
      decide (Listed d loc ∧ NoDirectory d loc ∧ Named d name loc)) = fun loc => decide (Listed d loc ∧ Named d name loc ∧
        (NoDirectory d loc ∨ nameOn d loc = Libpcern.fatPackName name)) := by
    funext loc
    rw [← Bool.decide_or, decide_eq_decide]
    have := upper loc
    tauto
  rw [either]
  refine forall_congr' fun loc => imp_congr_right fun first => ?_
  have listed := List.find?_some first
  simp only [decide_eq_true_eq] at listed ⊢
  tauto

/-- A root directory with one entry, that of a directory. -/
def directoryDisk : Disk := fun a =>
  if a = 3 then blit (fun _ => 0) 0 (0x53 :: 0x55 :: 0x42 :: List.replicate 8 0x20 ++ 0x10 :: List.replicate 14 0 ++ [5, 0, 0, 0, 0, 0])
  else smallDisk a

def openTurn (name : List UInt8) : Turn :=
  { sender := 5, transferredSlot := 0, page := fun _ => 0, request := openRequest name false }

theorem file_opened : OpensRegular smallBpb 1 smallDisk [2] smallServer (openTurn [0x61]) [0x61] :=
  (opens_regular_iff (.last (by decide +kernel)) (Nat.le_refl 1) (by decide) rfl).mpr (by decide +kernel)

/-- It is opened as the file `sub`. -/
theorem directory_opened : ¬OpensRegular smallBpb 1 directoryDisk [2] smallServer (openTurn [0x73, 0x75, 0x62]) [0x73, 0x75, 0x62] := by
  have nothing : regularFile smallBpb directoryDisk [2] [0x73, 0x75, 0x62] = none := by decide +kernel
  have opens : (((openTurn [0x73, 0x75, 0x62]).serve smallBpb 1 smallServer).run allWell directoryDisk).result.map (·.2) =
      some [{ slot := 7, w0 := 1, w1 := 0 }] := by decide +kernel
  rintro ⟨s', reply, result, _, replies⟩
  rw [result] at opens
  rw [nothing] at replies
  cases opens
  cases replies

end Pcern.Fat32

import Pcern.Opening
import Mathlib.Data.List.Find

/-!
The root directory grows by one cluster when it has no free slot. The new cluster is linked to the directory before it
is cleared, so that a request that is cut short in between leaves a directory that goes on with whatever the cluster
held: the entries before the first end marker in it are found as if they were files.
-/
namespace Pcern.Fat32

open Bytes Blocks Chains

/-- What `find_in_root` says of a name: the first cluster and the size of the file. -/
def found (b : Bpb) (fuel : Nat) (d : Disk) (name : List UInt8) : Option (Option (Nat × Nat)) :=
  (lookup b fuel d name).map (Option.map fun file => (file.startCluster, file.size))

/-- The names that are found on `d'` are those of `d`, or these and the name of an empty file. -/
def ShowsOldOrNew (b : Bpb) (fuel : Nat) (d : Disk) (name : List UInt8) (d' : Disk) : Prop :=
  found b fuel d' = found b fuel d ∨ found b fuel d' = Function.update (found b fuel d) name (some (some (0, 0)))

/-- A request to create a file may stop after any of its writes, and any one of them may fail. -/
def CreatesSafely (b : Bpb) (fuel : Nat) (d : Disk) (name : List UInt8) : Prop :=
  ∀ n, ShowsOldOrNew b fuel d name (written d (((openOrCreate b fuel name true).run allWell d).writes.take n)) ∧
    ShowsOldOrNew b fuel d name ((openOrCreate b fuel name true).lose n d)

def shownIn (b : Bpb) (v : Vol) (root : List Nat) (name : List UInt8) : Option (Nat × Nat) :=
  ((files b v root).find? fun slot => v.name slot = name).map fun slot => (v.start slot, v.size slot)

/-- What is left in a cluster shows no file that the directory does not have, but for an empty one of this name. -/
def Harmless (b : Bpb) (v : Vol) (name : List UInt8) (f : Nat) : Prop :=
  ∀ other, shownIn b v (rootOf b v) other = none →
    shownIn b v [f] other = none ∨ other = name ∧ shownIn b v [f] other = some (0, 0)

/-! ## What a directory shows -/

section Shown
variable {b : Bpb} {v v' : Vol} {root : List Nat} {name : List UInt8} {d : Disk} {fuel : Nat}

private theorem found_eq (geo : Geometry b) (enough : b.maxCluster ≤ fuel) (chained : ChainFrom (vol b d).link b.rootCluster root)
    (has : ∀ c ∈ root, b.Has c) : found b fuel d = fun name => some (shownIn b (vol b d) root name) := by
  funext name
  have short := Nat.le_trans (length_le chained.nodup has) enough
  have does : Does b .calm (fun _ => True)
      (fun r _ => r = ((files b (vol b d) root).find? fun slot => (vol b d).name slot = name).map (opened b (vol b d)))
      (findInRoot b fuel name) (vol b d) := does_findInRoot geo chained has short rfl False.elim
  obtain ⟨r, result, rfl⟩ := does.result id (.inl rfl)
  rw [found, lookup, result, Option.map_some, Option.map_map, shownIn]
  rfl

private theorem shownIn_congr (same : ∀ slot ∈ slots b root, Vol.SameEntry v v' slot) : shownIn b v' root = shownIn b v root := by
  funext name
  have listed : files b v' root = files b v root := files_congr fun slot member => (same slot member).kind
  have named : ((files b v root).find? fun slot => v'.name slot = name) = (files b v root).find? fun slot => v.name slot = name :=
    List.find?_congr fun slot member => by rw [(same slot (files_subset member)).name]
  rw [shownIn, listed, named, shownIn]
  refine Option.map_congr fun slot here => ?_
  have member := files_subset (List.mem_of_find?_eq_some here)
  rw [(same slot member).start, (same slot member).size]

private theorem shownIn_append (noMarker : ∀ slot ∈ slots b root, v.kind slot ≠ .marker) (f : Nat) (name : List UInt8) :
    shownIn b v (root ++ [f]) name = (shownIn b v root name).or (shownIn b v [f] name) := by
  have open' : ∀ slot ∈ slots b root, decide (v.kind slot ≠ .marker) = true := fun slot member => decide_eq_true (noMarker slot member)
  have whole : seen b v root = slots b root := List.takeWhile_eq_self_iff.mpr open'
  have both : seen b v (root ++ [f]) = seen b v root ++ seen b v [f] := by
    rw [whole, seen, slots, List.flatMap_append]
    exact List.takeWhile_append_of_pos open'
  rw [shownIn, files, both, List.filter_append, List.find?_append]
  cases here : ((seen b v root).filter fun slot => v.kind slot = .file).find? fun slot => v.name slot = name with
  | some slot => simp [shownIn, files, here]
  | none => simp [shownIn, files, here]

private theorem or_harmless {old more : List UInt8 → Option (Nat × Nat)} (absent : old name = none)
    (harmless : ∀ other, old other = none → more other = none ∨ other = name ∧ more other = some (0, 0)) :
    (fun other => (old other).or (more other)) = old ∨
      (fun other => (old other).or (more other)) = Function.update old name (some (0, 0)) := by
  have others : ∀ other, other ≠ name → (old other).or (more other) = old other := by
    intro other different
    cases here : old other with
    | some value => rfl
    | none => exact (harmless other here).resolve_right fun same => different same.1
  rcases harmless name absent with none | ⟨_, empty⟩
  · left
    funext other
    by_cases same : other = name
    · rw [same, absent, none]
      rfl
    · exact others other same
  · right
    funext other
    by_cases same : other = name
    · rw [same, absent, empty, Function.update_self]
      rfl
    · rw [Function.update_of_ne same]
      exact others other same

end Shown

/-! ## A failed write ends the request -/

section Aborts
variable (b : Bpb)

private theorem reads_readFatEntry (c : Nat) : ReadsOnly (readFatEntry b c) := by
  intro block
  cases block <;> trivial

private theorem reads_nextCluster (c : Nat) : ReadsOnly (nextCluster b c) := by
  refine (reads_readFatEntry b c).bind fun entry => ?_
  cases entry with
  | none => trivial
  | some raw =>
    dsimp only
    split <;> trivial

private theorem reads_scanSectors {β : Type} (decides : Nat → Sector → Nat → Option β) (base count s : Nat) :
    ReadsOnly (scanSectors decides base count s) := by
  induction count generalizing s with
  | zero => trivial
  | succ count ih =>
    refine ReadsOnly.bind (p := readSector (add32 base s)) (fun _ => trivial) fun block => ?_
    cases block with
    | none => trivial
    | some sector =>
      dsimp only
      split
      · trivial
      · exact ih (s + 1)

private theorem reads_walkRoot {β : Type} (decides : Nat → Sector → Nat → Option β) (fuel c : Nat) :
    ReadsOnly (walkRoot b decides fuel c) := by
  induction fuel generalizing c with
  | zero => trivial
  | succ fuel ih =>
    refine (reads_scanSectors decides _ _ 0).bind fun scanned => ?_
    rcases scanned with _ | _ | v
    · trivial
    · refine (reads_nextCluster b c).bind fun next => ?_
      cases next with
      | none => trivial
      | some c' => exact ih c'
    · trivial

private theorem reads_findInRoot (fuel : Nat) (name : List UInt8) : ReadsOnly (findInRoot b fuel name) := by
  refine (reads_walkRoot b _ fuel _).bind fun walked => ?_
  cases walked <;> trivial

private theorem aborts_writeFatCopy (base c value : Nat) : AbortsWith false (writeFatCopy base c value) := by
  intro block
  cases block with
  | none => trivial
  | some sector => exact ⟨rfl, trivial⟩

private theorem aborts_writeFatEntry (c value : Nat) : AbortsWith false (writeFatEntry b c value) := by
  refine (aborts_writeFatCopy _ c value).bind rfl fun done => ?_
  cases done with
  | false => trivial
  | true => exact aborts_writeFatCopy _ c value

private theorem aborts_allocFrom (count c : Nat) : AbortsWith none (allocFrom b count c) := by
  induction count generalizing c with
  | zero => trivial
  | succ count ih =>
    refine (reads_readFatEntry b c).bind_aborts fun entry => ?_
    rcases entry with _ | _ | n
    · trivial
    · refine (aborts_writeFatEntry b c eocMin).bind rfl fun done => ?_
      cases done <;> trivial
    · exact ih (c + 1)

private theorem aborts_zeroFill (base count s : Nat) : AbortsWith false (zeroFill base count s) := by
  induction count generalizing s with
  | zero => trivial
  | succ count ih => exact ⟨rfl, ih (s + 1)⟩

private theorem aborts_growRoot (c : Nat) : AbortsWith none (growRoot b c) := by
  refine (aborts_allocFrom b _ 2).bind rfl fun new => ?_
  cases new with
  | none => trivial
  | some f =>
    refine (aborts_writeFatEntry b c f).bind rfl fun linked => ?_
    cases linked with
    | false => trivial
    | true =>
      refine (aborts_zeroFill _ _ 0).bind rfl fun cleared => ?_
      cases cleared <;> trivial

private theorem aborts_newFile (loc : DirLoc) (name : List UInt8) : AbortsWith none (newFile loc name) := by
  have entry : AbortsWith false (writeNewDirent loc name) := by
    intro block
    cases block with
    | none => trivial
    | some sector => exact ⟨rfl, trivial⟩
  refine entry.bind rfl fun done => ?_
  cases done <;> trivial

private theorem aborts_openOrCreate (fuel : Nat) (name : List UInt8) (create : Bool) : AbortsWith none (openOrCreate b fuel name create) := by
  refine (reads_findInRoot b fuel name).bind_aborts fun found => ?_
  cases found with
  | some file => trivial
  | none =>
    cases create with
    | false => trivial
    | true =>
      have slot : AbortsWith none (findFreeRootSlot b fuel) := by
        refine (reads_walkRoot b slotSought fuel _).bind_aborts fun walked => ?_
        cases walked with
        | decided loc => trivial
        | unread => trivial
        | ended c => exact aborts_growRoot b c
      refine slot.bind rfl fun loc => ?_
      cases loc with
      | none => trivial
      | some loc => exact aborts_newFile loc name

end Aborts

/-! ## The volumes on the way -/

/-- A volume whose root directory shows the names of `v`, or these and the name of an empty file. -/
def Shows (b : Bpb) (v : Vol) (name : List UInt8) (v' : Vol) : Prop :=
  ∃ root, ChainFrom v'.link b.rootCluster root ∧ (∀ c ∈ root, b.Has c) ∧
    (shownIn b v' root = shownIn b v (rootOf b v) ∨
      shownIn b v' root = Function.update (shownIn b v (rootOf b v)) name (some (0, 0)))

section Growing
variable {b : Bpb} {v : Vol} {name : List UInt8} {fuel : Nat} (geo : Geometry b)

/-- The root directory with the cluster `f` behind its last one. -/
structure Linked (b : Bpb) (v : Vol) (f : Nat) (v' : Vol) : Prop where
  chained : ChainFrom v'.link b.rootCluster (rootOf b v ++ [f])
  has : ∀ c ∈ rootOf b v ++ [f], b.Has c
  same : ∀ slot ∈ slots b (rootOf b v), Vol.SameEntry v v' slot

include geo in
theorem Shows.oldOrNew {d d' : Disk} (valid : Valid b (vol b d)) (enough : b.maxCluster ≤ fuel) (shows : Shows b (vol b d) name (vol b d')) :
    ShowsOldOrNew b fuel d name d' := by
  obtain ⟨root, chained, has, names⟩ := shows
  have wf : WellFormed b (vol b d) (rootOf b (vol b d)) (clustersOf b (vol b d)) := valid
  unfold ShowsOldOrNew
  rw [found_eq geo enough chained has, found_eq geo enough wf.rootChain wf.has_root]
  refine names.imp (fun same => by rw [same]) fun new => ?_
  rw [new]
  funext other
  by_cases here : other = name
  · rw [here, Function.update_self, Function.update_self]
  · rw [Function.update_of_ne here, Function.update_of_ne here]

section Full
variable (full : freeSlot b v (rootOf b v) = none)
include full

private theorem no_marker : ∀ slot ∈ slots b (rootOf b v), v.kind slot ≠ .marker := by
  intro slot member marker
  have occupied := List.find?_eq_none.mp full slot member
  simp [marker] at occupied

theorem Linked.shownIn_eq {f : Nat} {v' : Vol} (linked : Linked b v f v') :
    shownIn b v' (rootOf b v ++ [f]) = fun other => (shownIn b v (rootOf b v) other).or (shownIn b v' [f] other) := by
  funext other
  rw [shownIn_append, shownIn_congr linked.same]
  intro slot member
  rw [(linked.same slot member).kind]
  exact no_marker full slot member

theorem Linked.shows {f : Nat} {v' : Vol} (linked : Linked b v f v') (absent : shownIn b v (rootOf b v) name = none)
    (harmless : ∀ other, shownIn b v (rootOf b v) other = none →
      shownIn b v' [f] other = none ∨ other = name ∧ shownIn b v' [f] other = some (0, 0)) : Shows b v name v' := by
  refine ⟨_, linked.chained, linked.has, ?_⟩
  rw [linked.shownIn_eq full]
  exact or_harmless absent harmless

end Full

theorem Linked.of_link {front : List Nat} {z f : Nat} {v' : Vol} (numbers : b.maxCluster < 0x0FFFFFF8) (valid : Valid b v)
    (last : rootOf b v = front ++ [z]) (hasF : b.Has f) (free : v.fat f = 0)
    (fat : v'.fat = ((v.setFat f eocMin).setFat z f).fat) (away : ∀ c, c ≠ f → v'.data c = v.data c) : Linked b v f v' := by
  have wf : WellFormed b v (rootOf b v) (clustersOf b v) := valid
  obtain ⟨marked, spare⟩ := wf.mark hasF free
  have inRoot : z ∈ rootOf b v := by simp [last]
  obtain ⟨linked, ends, others, _⟩ := spare.follows numbers (.inl inRoot) fat
  refine ⟨?_, ?_, ?_⟩
  · have chained := marked.rootChain
    rw [last] at chained ⊢
    exact chained.extend (fun x _ other => (others x other).2) linked ends
  · intro c member
    rcases List.mem_append.mp member with old | new
    · exact wf.has_root c old
    · rw [List.mem_singleton.mp new]
      exact hasF
  · intro slot member i _
    rw [away]
    intro same
    exact spare.unused (.inl (same ▸ (mem_slots.mp member).1))

private theorem shownIn_marker (sectors : 0 < b.sectorsPerCluster) {f : Nat} (marker : v.kind ⟨f, 0, 0⟩ = .marker) (other : List UInt8) :
    shownIn b v [f] other = none := by
  obtain ⟨rest, slotsOf⟩ := clusterSlots_eq_cons sectors f
  have nothing : files b v [f] = [] := by simp [files, seen, slots, slotsOf, marker]
  rw [shownIn, nothing]
  rfl

private theorem shownIn_newEntry (fits : name.length = 11) {f : Nat} (other : List UInt8) :
    shownIn b ((v.clear f b.sectorsPerCluster).newEntry ⟨f, 0, 0⟩ name) [f] other = none ∨
      other = name ∧ shownIn b ((v.clear f b.sectorsPerCluster).newEntry ⟨f, 0, 0⟩ name) [f] other = some (0, 0) := by
  rw [shownIn]
  cases found : (files b ((v.clear f b.sectorsPerCluster).newEntry ⟨f, 0, 0⟩ name) [f]).find?
      fun slot => ((v.clear f b.sectorsPerCluster).newEntry ⟨f, 0, 0⟩ name).name slot = other with
  | none => exact .inl rfl
  | some slot =>
    have member := List.mem_of_find?_eq_some found
    have named : ((v.clear f b.sectorsPerCluster).newEntry ⟨f, 0, 0⟩ name).name slot = other := by simpa using List.find?_some found
    have place := mem_slots.mp (files_subset member)
    have first : slot = ⟨f, 0, 0⟩ := by
      by_contra different
      have cleared := Vol.clear_zeroed (v := v) (List.mem_singleton.mp place.1) place.2.1
      have marker := Vol.zeroed_marker ((Vol.newEntry_other fits different).zeroed.mpr cleared)
      cases marker.symm.trans (files_kind member)
    subst first
    rw [Vol.newEntry_name fits] at named
    refine .inr ⟨named.symm, ?_⟩
    rw [Option.map_some, Vol.newEntry_start fits, Vol.newEntry_size fits]

private theorem does_openOrCreate_shows (geo : Geometry b) (valid : Valid b v) (full : freeSlot b v (rootOf b v) = none)
    (enough : b.maxCluster ≤ fuel) (fits : name.length = 11)
    (safe : shownIn b v (rootOf b v) name = none → ∀ f, v.firstFree b = some f → Harmless b v name f) :
    Does b .calm (Shows b v name) (fun _ _ => True) (openOrCreate b fuel name true) v := by
  have wf : WellFormed b v (rootOf b v) (clustersOf b v) := valid
  have short := Nat.le_trans wf.length_root enough
  refine .bind (does_findInRoot geo wf.rootChain wf.has_root short ?_ False.elim)
  cases here : (files b v (rootOf b v)).find? fun slot => v.name slot = name with
  | some slot => exact .ret trivial
  | none =>
    have absent : shownIn b v (rootOf b v) name = none := by rw [shownIn, here]; rfl
    refine does_createFile geo wf.rootChain wf.has_root short ⟨fun x free => ?_, fun front z back split nothing ends f free => ?_⟩
      (fun _ _ => ⟨trivial, False.elim⟩) (fun _ _ _ _ _ _ => ⟨fun _ => trivial, fun _ _ => ⟨trivial, False.elim⟩⟩) False.elim
    · rw [full] at free
      cases free
    · obtain rfl := ends.resolve_right id
      obtain ⟨hasF, freeF⟩ := Vol.firstFree_spec free
      have linked : ∀ {v'}, v'.fat = ((v.setFat f eocMin).setFat z f).fat → (∀ c, c ≠ f → v'.data c = v.data c) → Linked b v f v' :=
        Linked.of_link geo.numbers valid split hasF freeF
      refine ⟨?_, fun n small => ?_, ?_⟩
      · obtain ⟨marked, _⟩ := wf.mark hasF freeF
        exact ⟨rootOf b v, marked.rootChain, wf.has_root, .inl rfl⟩
      · have behind : Linked b v f (((v.setFat f eocMin).setFat z f).clear f n) := linked rfl fun c other => Vol.clear_other n other
        refine behind.shows full absent fun other none => ?_
        rcases Nat.eq_zero_or_pos n with rfl | some
        · rw [Vol.clear_zero]
          exact safe absent f free other none
        · exact .inl (shownIn_marker geo.sectors (Vol.zeroed_marker (Vol.clear_zeroed rfl some)) other)
      · have behind : Linked b v f ((((v.setFat f eocMin).setFat z f).clear f b.sectorsPerCluster).newEntry ⟨f, 0, 0⟩ name) :=
          linked rfl fun c other => (Vol.newEntry_data other).trans (Vol.clear_other _ other)
        exact behind.shows full absent fun other _ => shownIn_newEntry fits other

private theorem passes_linked (geo : Geometry b) {d : Disk} (valid : Valid b (vol b d)) (full : freeSlot b (vol b d) (rootOf b (vol b d)) = none)
    (enough : b.maxCluster ≤ fuel) (absent : shownIn b (vol b d) (rootOf b (vol b d)) name = none) {f : Nat}
    (free : (vol b d).firstFree b = some f) :
    ∃ d' z front, rootOf b (vol b d) = front ++ [z] ∧ Passes (openOrCreate b fuel name true) d d' ∧
      vol b d' = ((vol b d).setFat f eocMin).setFat z f := by
  have wf : WellFormed b (vol b d) (rootOf b (vol b d)) (clustersOf b (vol b d)) := valid
  have short := Nat.le_trans wf.length_root enough
  have missing : ((files b (vol b d) (rootOf b (vol b d))).find? fun slot => (vol b d).name slot = name) = none :=
    Option.map_eq_none_iff.mp absent
  obtain ⟨hasF, freeF⟩ := Vol.firstFree_spec free
  have small : f < 2 ^ 28 := by
    have := hasF.2
    have := geo.numbers
    omega
  -- each part of the request leaves the view that the next one starts from
  have finds : Does b .calm (fun _ => True) (fun r v' => r = none ∧ v' = vol b d) (findInRoot b fuel name) (vol b d) := by
    refine does_findInRoot geo wf.rootChain wf.has_root short ?_ False.elim
    rw [missing]
    exact ⟨rfl, rfl⟩
  obtain ⟨_, foundNone, rfl, view⟩ := finds.result id (.inl rfl)
  have walks : Does b .calm (fun _ => True)
      (fun r v' => (∃ z, (rootOf b (vol b d)).getLast? = some z ∧ r = .ended z) ∧ v' = vol b d)
      (walkRoot b slotSought fuel b.rootCluster) (vol b d) := by
    refine does_walkRoot geo wf.rootChain wf.has_root short ?_ (fun _ z last => ⟨⟨z, last, rfl⟩, rfl⟩) False.elim False.elim
    intro loc decided
    rw [findSome_slotSought, full] at decided
    cases decided
  obtain ⟨_, ended, ⟨z, last, rfl⟩, view'⟩ := (walks _ view).result id (.inl rfl)
  have hasZ := wf.has_root z (List.mem_of_getLast? last)
  have allocates : Does b .calm (fun _ => True) (fun r v' => r = some f ∧ v' = (vol b d).setFat f eocMin)
      (allocCluster b) (vol b d) := by
    refine does_allocCluster geo (fun none => ?_) (fun f' free' => ?_) False.elim
    · rw [free] at none
      cases none
    · obtain rfl := Option.some.inj (free.symm.trans free')
      exact ⟨trivial, ⟨rfl, rfl⟩, False.elim⟩
  obtain ⟨_, allocated, rfl, marked⟩ := (allocates _ view').result id (.inl rfl)
  have links : Does b .calm (fun _ => True) (fun _ v' => v' = ((vol b d).setFat f eocMin).setFat z f)
      (writeFatEntry b z f) ((vol b d).setFat f eocMin) :=
    does_writeFatEntry geo hasZ.2 small trivial rfl False.elim
  obtain ⟨_, _, linked⟩ := (links _ marked).result id (.inl rfl)
  obtain ⟨front, split⟩ := List.getLast?_eq_some_iff.mp last
  refine ⟨_, z, front, split, ?_, linked⟩
  refine .bind_right foundNone (.bind_left (.bind_right ended (.bind_right allocated (.bind_left ?_))))
  exact passes_end _ _

theorem CreatesSafely.harmless (geo : Geometry b) {d : Disk} (valid : Valid b (vol b d))
    (full : freeSlot b (vol b d) (rootOf b (vol b d)) = none) (enough : b.maxCluster ≤ fuel)
    (absent : shownIn b (vol b d) (rootOf b (vol b d)) name = none) (safely : CreatesSafely b fuel d name) {f : Nat}
    (free : (vol b d).firstFree b = some f) : Harmless b (vol b d) name f := by
  have wf : WellFormed b (vol b d) (rootOf b (vol b d)) (clustersOf b (vol b d)) := valid
  obtain ⟨d', z, front, split, ⟨n, rfl⟩, view⟩ := passes_linked geo valid full enough absent free
  obtain ⟨hasF, freeF⟩ := Vol.firstFree_spec free
  have linked : Linked b (vol b d) f (((vol b d).setFat f eocMin).setFat z f) :=
    .of_link geo.numbers valid split hasF freeF rfl fun _ _ => rfl
  have stale : shownIn b (((vol b d).setFat f eocMin).setFat z f) [f] = shownIn b (vol b d) [f] :=
    shownIn_congr fun _ _ _ _ => rfl
  have now := found_eq geo enough (d := written d _) (view ▸ linked.chained) linked.has
  rw [view, linked.shownIn_eq full, stale] at now
  have old := found_eq geo enough wf.rootChain wf.has_root
  intro other none
  have shown : found b fuel (written d (((openOrCreate b fuel name true).run allWell d).writes.take n)) other =
      some (shownIn b (vol b d) [f] other) := by
    rw [now]
    simp only [none, Option.none_or]
  rcases (safely n).1 with same | new
  · rw [same, old] at shown
    simp only [none, Option.some.injEq] at shown
    exact .inl shown.symm
  · rw [new, old] at shown
    by_cases here : other = name
    · rw [here, Function.update_self, Option.some.injEq] at shown
      exact .inr ⟨here, here ▸ shown.symm⟩
    · rw [Function.update_of_ne here] at shown
      simp only [none, Option.some.injEq] at shown
      exact .inl shown.symm

end Growing

/-- In a directory without a free slot a file is created safely exactly if the name is there already, or no cluster is
    free, or what is left in the first free one is harmless. -/
theorem creates_safely_iff {b : Bpb} {d : Disk} {fuel : Nat} {name : List UInt8} (geo : Geometry b) (valid : Valid b (vol b d))
    (full : freeSlot b (vol b d) (rootOf b (vol b d)) = none) (enough : b.maxCluster ≤ fuel) (fits : name.length = 11) :
    CreatesSafely b fuel d name ↔ shownIn b (vol b d) (rootOf b (vol b d)) name ≠ none ∨
      ∀ f, (vol b d).firstFree b = some f → Harmless b (vol b d) name f := by
  have wf : WellFormed b (vol b d) (rootOf b (vol b d)) (clustersOf b (vol b d)) := valid
  constructor
  · intro safely
    by_cases absent : shownIn b (vol b d) (rootOf b (vol b d)) name = none
    · exact .inr fun f free => safely.harmless geo valid full enough absent free
    · exact .inl absent
  · intro condition n
    have does := does_openOrCreate_shows geo valid full enough fits fun absent => condition.resolve_left fun present => present absent
    have start : Shows b (vol b d) name (vol b d) := ⟨_, wf.rootChain, wf.has_root, .inl rfl⟩
    have shows := (does.cut start n).oldOrNew geo valid enough
    refine ⟨shows, ?_⟩
    rw [(aborts_openOrCreate b fuel name true).lose_eq]
    exact shows

/-- Sixteen empty files fill the root directory of the small volume, and `left` is in every other cluster. -/
def fullDisk (left : Sector) : Disk := fun a =>
  if a = 1 ∨ a = 2 then blit (fun _ => 0) 8 [0xF8, 0xFF, 0xFF, 0x0F]
  else if a = 3 then blit (fun _ => 0) 0 ((List.range 16).flatMap fun i => smallEntry (UInt8.ofNat (0x41 + i)) 0 0)
  else left

theorem fullDisk_clear_creates : CreatesSafely smallBpb 7 (fullDisk fun _ => 0) (0x5A :: List.replicate 10 0x20) := by
  refine (creates_safely_iff smallBpb_geometry (by decide +kernel) (by decide +kernel) (Nat.le_refl 7) rfl).mpr (.inr fun f free other _ => ?_)
  obtain rfl : 3 = f := Option.some.inj (free.symm.trans (by decide +kernel)).symm
  exact .inl (shownIn_marker (by decide) (by decide +kernel) other)

/-- A deleted file whose entry is left in the first free cluster comes back. -/
theorem fullDisk_stale_shows :
    ¬CreatesSafely smallBpb 7 (fullDisk (blit (fun _ => 0) 0 (smallEntry 0x58 5 5))) (0x5A :: List.replicate 10 0x20) := by
  intro safely
  have harmless := safely.harmless smallBpb_geometry (by decide +kernel) (by decide +kernel) (Nat.le_refl 7) (by decide +kernel)
    (f := 3) (by decide +kernel) (0x58 :: List.replicate 10 0x20) (by decide +kernel)
  revert harmless
  decide +kernel

end Pcern.Fat32

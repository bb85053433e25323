import Pcern.WellFormed

/-!
What is in a file. The bytes of a file lie in the clusters of its chain; `Torn` is the relation between a volume and the
volumes that a write or a truncation of one file passes through, and the lemmas follow the writes in their order.
-/
namespace Pcern.Fat32

open Bytes Blocks Chains

/-- The byte at offset `o` of a file with these clusters. -/
def byteAt (b : Bpb) (v : Vol) (chain : List Nat) (o : Nat) : UInt8 :=
  v.data (chain.getD (o / (b.sectorsPerCluster * 512)) 0) (o % (b.sectorsPerCluster * 512) / 512)
    (o % (b.sectorsPerCluster * 512) % 512)

section Bytes
variable {b : Bpb} {v v' : Vol} {chain : List Nat} {o : Nat}

theorem sector_lt (sectors : 0 < b.sectorsPerCluster) (o : Nat) : o % (b.sectorsPerCluster * 512) / 512 < b.sectorsPerCluster := by
  have := Nat.mod_lt o (show 0 < b.sectorsPerCluster * 512 by omega)
  omega

theorem index_lt (inside : o < chain.length * (b.sectorsPerCluster * 512)) :
    o / (b.sectorsPerCluster * 512) < chain.length :=
  Nat.div_lt_of_lt_mul (by rwa [Nat.mul_comm])

theorem byteAt_congr (same : ∀ c ∈ chain, v'.data c = v.data c) (inside : o < chain.length * (b.sectorsPerCluster * 512)) :
    byteAt b v' chain o = byteAt b v chain o := by
  rw [byteAt, same _ (Keyed.getD_mem (index_lt inside) 0), byteAt]

private theorem byteAt_append (more : List Nat) (inside : o < chain.length * (b.sectorsPerCluster * 512)) :
    byteAt b v (chain ++ more) o = byteAt b v chain o := by
  rw [byteAt, List.getD_append _ _ _ _ (index_lt inside), byteAt]

/-- A write to one sector of a chain changes the bytes that are written, and no other. -/
theorem byteAt_written (sectors : 0 < b.sectorsPerCluster) (nodup : chain.Nodup) {offset c : Nat} {bytes : List UInt8}
    (here : chain[offset / (b.sectorsPerCluster * 512)]? = some c)
    (fits : offset % (b.sectorsPerCluster * 512) % 512 + bytes.length ≤ 512)
    (inside : o < chain.length * (b.sectorsPerCluster * 512)) :
    byteAt b (v.setData c (offset % (b.sectorsPerCluster * 512) / 512)
      (blit (v.data c (offset % (b.sectorsPerCluster * 512) / 512)) (offset % (b.sectorsPerCluster * 512) % 512) bytes)) chain o =
      blit (byteAt b v chain) offset bytes o := by
  have place : chain[o / (b.sectorsPerCluster * 512)]? = some (chain.getD (o / (b.sectorsPerCluster * 512)) 0) := by
    rw [List.getD_eq_getElem?_getD, List.getElem?_eq_getElem (index_lt inside)]
    rfl
  have last := sector_lt sectors offset
  have room : offset % (b.sectorsPerCluster * 512) / 512 * 512 + 512 ≤ b.sectorsPerCluster * 512 := by omega
  rw [byteAt, Vol.setData_data]
  unfold blit copyFrom
  rw [byteAt]
  obtain ⟨cs, bytesOf⟩ : ∃ cs, b.sectorsPerCluster * 512 = cs := ⟨_, rfl⟩
  rw [bytesOf] at here fits place room ⊢
  have whole := Nat.div_add_mod offset cs
  have whole' := Nat.div_add_mod o cs
  by_cases cluster : o / cs = offset / cs
  · rw [cluster] at whole' place ⊢
    rw [place] at here
    have equal := Option.some.inj here
    by_cases sector : o % cs / 512 = offset % cs / 512
    · -- the byte's place among those written is the same in the sector and in the file
      rw [if_pos ⟨equal, sector⟩, sector, equal]
      refine if_congr (by omega) ?_ rfl
      congr 1
      omega
    · rw [if_neg fun same => sector same.2, if_neg (by omega)]
  · have different : chain.getD (o / cs) 0 ≠ c := fun equal =>
      cluster ((List.getElem?_inj (List.getElem?_eq_some_iff.mp place).1 nodup).mp (place.trans (by rw [equal, here])))
    have outside : ¬(offset ≤ o ∧ o < offset + bytes.length) := by
      rintro ⟨low, high⟩
      refine cluster (Nat.div_eq_of_lt_le ?_ ?_)
      · rw [Nat.mul_comm]
        omega
      · rw [Nat.succ_mul, Nat.mul_comm]
        omega
    rw [if_neg fun same => different same.1, if_neg outside]

end Bytes

def splice {α : Type} (xs : List α) (offset : Nat) (ys : List α) : List α := xs.take offset ++ ys ++ xs.drop (offset + ys.length)

theorem slice_blit_splice (m : Memory) {offset size : Nat} (data : List UInt8) (inside : offset ≤ size) :
    slice (blit m offset data) 0 (max size (offset + data.length)) = splice (slice m 0 size) offset data := by
  have front : slice (blit m offset data) 0 (offset + data.length) = slice m 0 offset ++ data := by
    simpa using slice_blit_append m 0 offset data
  rw [splice, slice_take m 0 inside]
  by_cases short : offset + data.length ≤ size
  · obtain ⟨rest, rfl⟩ := Nat.exists_eq_add_of_le short
    rw [Nat.max_eq_left short, slice_append, front, slice_drop m 0 short, Nat.add_sub_cancel_left,
      slice_blit_other m (by omega), Nat.zero_add]
  · rw [Nat.max_eq_right (by omega), front, List.drop_eq_nil_of_le (by rw [length_slice]; omega), List.append_nil]

def content (b : Bpb) (v : Vol) (slot : Slot) : List UInt8 := slice (byteAt b v (clustersOf b v slot)) 0 (v.size slot)

@[simp] theorem length_content (b : Bpb) (v : Vol) (slot : Slot) : (content b v slot).length = v.size slot := length_slice _ _ _

/-! ## An entry with another start and size -/

def Vol.setEntry (v : Vol) (slot : Slot) (start size : Nat) : Vol :=
  v.setData slot.cluster slot.sector (updatedDirent (v.data slot.cluster slot.sector) slot.offset start size)

section SetEntry
variable {v : Vol} {slot : Slot} {start size : Nat}

theorem Vol.setEntry_entry : (v.setEntry slot start size).data slot.cluster slot.sector =
    updatedDirent (v.data slot.cluster slot.sector) slot.offset start size := by
  rw [Vol.setEntry, Vol.setData_data, if_pos ⟨rfl, rfl⟩]

theorem Vol.setEntry_other {x : Slot} (other : x ≠ slot) : Vol.SameEntry v (v.setEntry slot start size) x :=
  Vol.sameEntry_setData other fun _ apart => updatedDirent_other (by omega)

theorem Vol.setEntry_data {c : Nat} (other : c ≠ slot.cluster) : (v.setEntry slot start size).data c = v.data c := by
  funext s
  rw [Vol.setEntry, Vol.setData_data, if_neg fun same => other same.1]

theorem Vol.setEntry_kind : (v.setEntry slot start size).kind slot = v.kind slot := by
  rw [Vol.kind, Vol.setEntry_entry, kindAt, updatedDirent_other (by omega), updatedDirent_other (by omega), Vol.kind, kindAt]

theorem Vol.setEntry_name : (v.setEntry slot start size).name slot = v.name slot := by
  rw [Vol.name, Vol.setEntry_entry]
  exact slice_congr fun i inside => updatedDirent_other (by omega)

theorem Vol.setEntry_regular : (v.setEntry slot start size).regular slot ↔ v.regular slot := by
  rw [Vol.regular, Vol.setEntry_entry, updatedDirent_other (by omega), Vol.regular]

theorem Vol.setEntry_start (small : start < 2 ^ 32) : (v.setEntry slot start size).start slot = start := by
  rw [Vol.start, Vol.setEntry_entry, startAt_updatedDirent small]

theorem Vol.setEntry_size (small : size < 2 ^ 32) : (v.setEntry slot start size).size slot = size := by
  rw [Vol.size, Vol.setEntry_entry, sizeAt_updatedDirent small]

end SetEntry

/-! ## Volumes on the way of a write -/

/-- The clusters that are taken and that nothing refers to. -/
def Lost (b : Bpb) (v : Vol) (root : List Nat) (chain : Slot → List Nat) (c : Nat) : Prop :=
  b.Has c ∧ v.fat c ≠ 0 ∧ ¬Used b v root chain c

/-- `v'` is `v`, with the same directory, but for the file in `slot`, which has these bytes up to this size: the other
    files are as they were, no link is gone, and at most one more cluster is lost. -/
structure Torn (b : Bpb) (v : Vol) (root : List Nat) (chain : Slot → List Nat) (slot : Slot) (size : Nat) (bytes : Memory)
    (v' : Vol) (chain' : Slot → List Nat) : Prop where
  wf : WellFormed b v' root chain'
  listed : files b v' root = files b v root
  names : ∀ x ∈ files b v root, v'.name x = v.name x
  others : ∀ x ∈ files b v root, x ≠ slot → v'.size x = v.size x ∧ chain' x = chain x ∧ ∀ c ∈ chain x, v'.data c = v.data c
  sized : v'.size slot = size
  holds : ∀ o < size, byteAt b v' (chain' slot) o = bytes o
  links : ∀ c x, v.link c = some x → v'.link c = some x
  lost : ∃ f, ∀ c, Lost b v' root chain' c → c = f ∨ Lost b v root chain c

/-- Clusters that the file in `slot` may have: sound ones that are not in use otherwise. -/
def Owns (b : Bpb) (v : Vol) (root : List Nat) (chain : Slot → List Nat) (slot : Slot) (v' : Vol) (own : List Nat) : Prop :=
  ∀ c ∈ own, v'.Sound b c ∧ c ∉ root ∧ ∀ x ∈ files b v root, x ≠ slot → c ∉ chain x

theorem Vol.link_free {v : Vol} {f : Nat} (free : v.fat f = 0) : v.link f = none := by
  simp [Vol.link, free]

section Torn
variable {b : Bpb} {v v' : Vol} {root : List Nat} {chain chain' : Slot → List Nat} {slot : Slot} {size : Nat} {bytes : Memory}

theorem WellFormed.torn (wf : WellFormed b v root chain) : Torn b v root chain slot (v.size slot) (byteAt b v (chain slot)) v chain :=
  { wf := wf, listed := rfl, names := fun _ _ => rfl, others := fun _ _ _ => ⟨rfl, rfl, fun _ _ => rfl⟩, sized := rfl,
    holds := fun _ _ => rfl, links := fun _ _ linked => linked, lost := ⟨0, fun _ => .inr⟩ }

theorem WellFormed.torn_mark (wf : WellFormed b v root chain) (slot : Slot) {f : Nat} (has : b.Has f) (free : v.fat f = 0) :
    Torn b v root chain slot (v.size slot) (byteAt b v (chain slot)) (v.setFat f eocMin) chain := by
  refine { wf := (wf.mark has free).1, listed := rfl, names := fun _ _ => rfl, others := fun _ _ _ => ⟨rfl, rfl, fun _ _ => rfl⟩,
           sized := rfl, holds := fun _ _ => rfl, links := fun c x linked => ?_, lost := ⟨f, fun c lost => ?_⟩ }
  · rw [Vol.setFat_link_other, linked]
    rintro rfl
    rw [Vol.link_free free] at linked
    cases linked
  · by_cases same : c = f
    · exact .inl same
    · refine .inr ⟨lost.1, ?_, lost.2.2⟩
      rw [← v.setFat_fat f eocMin c |>.trans (if_neg same)]
      exact lost.2.1

theorem WellFormed.torn_grow (wf : WellFormed b v root chain) (numbers : b.maxCluster < 0x0FFFFFF8) (member : slot ∈ files b v root)
    {z f : Nat} (last : (chain slot).getLast? = some z) (has : b.Has f) (free : v.fat f = 0) :
    Torn b v root chain slot (v.size slot) (byteAt b v (chain slot)) ((v.setFat f eocMin).setFat z f)
      (Function.update chain slot (chain slot ++ [f])) := by
  obtain ⟨front, split⟩ := List.getLast?_eq_some_iff.mp last
  have marked := wf.mark has free
  have grown := marked.1.extend numbers member split marked.2
  have ends : v.link z = none := by
    rcases wf.fileChain slot member with ⟨_, empty⟩ | chained
    · simp [empty] at split
    · rw [chained.next_eq (i := front.length) (by simp [split])]
      simp [split]
  refine { wf := grown, listed := rfl, names := fun _ _ => rfl, others := fun x _ other => ⟨rfl, ?_, fun _ _ => rfl⟩,
           sized := rfl, holds := fun o inside => ?_, links := fun c x linked => ?_, lost := ⟨f, fun c lost => .inr ?_⟩ }
  · exact Function.update_of_ne other _ _
  · rw [Function.update_self]
    exact byteAt_append [f] (Nat.lt_of_lt_of_le inside (wf.room slot member))
  · rw [Vol.setFat_link_other, Vol.setFat_link_other, linked]
    · rintro rfl
      rw [Vol.link_free free] at linked
      cases linked
    · rintro rfl
      rw [ends] at linked
      cases linked
  · obtain ⟨inRange, taken, unused⟩ := lost
    have keeps : Used b v root chain c → Used b ((v.setFat f eocMin).setFat z f) root (Function.update chain slot (chain slot ++ [f])) c := by
      rintro (rooted | ⟨x, listed, within⟩)
      · exact .inl rooted
      · refine .inr ⟨x, listed, ?_⟩
        by_cases here : x = slot
        · subst here
          rw [Function.update_self]
          exact List.mem_append_left _ within
        · rwa [Function.update_of_ne here]
    have notNew : c ≠ f := by
      rintro rfl
      exact unused (.inr ⟨slot, member, by simp⟩)
    have notLast : c ≠ z := by
      rintro rfl
      exact unused (keeps (.inr ⟨slot, member, by simp [split]⟩))
    rw [Vol.setFat_fat, if_neg notLast, Vol.setFat_fat, if_neg notNew] at taken
    exact ⟨inRange, taken, fun used => unused (keeps used)⟩

variable (torn : Torn b v root chain slot size bytes v' chain')
include torn

/-- A sector written within the file, or to a cluster it does not show yet. -/
theorem Torn.data (sectors : 0 < b.sectorsPerCluster)
    (member : slot ∈ files b v root) {c offset : Nat} {data : List UInt8} (outside : c ∉ root)
    (apart : ∀ x ∈ files b v root, x ≠ slot → c ∉ chain x)
    (own : size = 0 ∨ (chain' slot)[offset / (b.sectorsPerCluster * 512)]? = some c)
    (fits : offset % (b.sectorsPerCluster * 512) % 512 + data.length ≤ 512) :
    Torn b v root chain slot size (blit bytes offset data)
      (v'.setData c (offset % (b.sectorsPerCluster * 512) / 512)
        (blit (v'.data c (offset % (b.sectorsPerCluster * 512) / 512)) (offset % (b.sectorsPerCluster * 512) % 512) data)) chain' := by
  have entry : ∀ x ∈ slots b root, ∀ sector, Vol.SameEntry v' (v'.setData c (offset % (b.sectorsPerCluster * 512) / 512) sector) x := by
    intro x within sector
    refine Vol.sameEntry_setData_other sector ?_
    rintro rfl
    exact outside (mem_slots.mp within).1
  have there : slot ∈ files b v' root := torn.listed ▸ member
  have listed : ∀ sector, files b (v'.setData c (offset % (b.sectorsPerCluster * 512) / 512) sector) root = files b v root :=
    fun sector => (files_congr fun x within => (entry x within sector).kind).trans torn.listed
  refine { wf := torn.wf.setData outside _ _, listed := listed _, names := fun x within => ?_, others := fun x within other => ?_,
           sized := ?_, holds := fun o inside => ?_, links := torn.links, lost := ?_ }
  · rw [(entry x (files_subset within) _).name]
    exact torn.names x within
  · obtain ⟨size, clusters, same⟩ := torn.others x within other
    refine ⟨(entry x (files_subset within) _).size.trans size, clusters, fun c' belongs => ?_⟩
    rw [← same c' belongs]
    funext s
    rw [Vol.setData_data, if_neg]
    rintro ⟨rfl, _⟩
    exact apart x within other belongs
  · rw [(entry slot (files_subset member) _).size]
    exact torn.sized
  · have room := torn.wf.room slot there
    rw [torn.sized] at room
    rw [byteAt_written sectors (torn.wf.nodup there) (own.resolve_left (by omega)) fits (by omega)]
    unfold blit copyFrom
    rw [torn.holds o inside]
  · obtain ⟨f, lost⟩ := torn.lost
    refine ⟨f, fun c' gone => lost c' ⟨gone.1, gone.2.1, fun used => gone.2.2 ?_⟩⟩
    unfold Used
    rw [listed, ← torn.listed]
    exact used

theorem Torn.owns (member : slot ∈ files b v root) :
    Owns b v root chain slot v' (chain' slot) := by
  have there : slot ∈ files b v' root := torn.listed ▸ member
  intro c within
  refine ⟨torn.wf.sound c (.inr ⟨slot, there, within⟩), torn.wf.rootApart slot there c within, fun x listed other belongs => ?_⟩
  rw [← (torn.others x listed other).2.1] at belongs
  exact other (torn.wf.apart x (torn.listed ▸ listed) slot there c belongs within)

/-- The directory entry written: the file has its new clusters and its new size. -/
theorem Torn.entry (member : slot ∈ files b v root)
    {start size' : Nat} {own : List Nat} {bytes' : Memory} (small : start < 2 ^ 32) (small' : size' < 2 ^ 32)
    (chained : start = 0 ∧ own = [] ∨ ChainFrom v'.link start own) (room : size' ≤ own.length * (b.sectorsPerCluster * 512))
    (owns : Owns b v root chain slot v' own) (more : chain' slot ⊆ own) (holds : ∀ o < size', byteAt b v' own o = bytes' o) :
    Torn b v root chain slot size' bytes' (v'.setEntry slot start size') (Function.update chain' slot own) := by
  have there : slot ∈ files b v' root := torn.listed ▸ member
  have reachable : Reachable b v' root slot := (mem_files.mp there).2
  have file : (v'.setEntry slot start size').kind slot = .file := Vol.setEntry_kind.trans (files_kind there)
  have kinds : ∀ x ∈ slots b root, (v'.setEntry slot start size').kind x = v'.kind x := by
    intro x _
    by_cases here : x = slot
    · rw [here, Vol.setEntry_kind]
    · exact (Vol.setEntry_other here).kind
  have listed : files b (v'.setEntry slot start size') root = files b v root := (files_congr kinds).trans torn.listed
  have wf : WellFormed b (v'.setEntry slot start size') root (Function.update chain' slot own) := by
    have fat : (v'.setEntry slot start size').fat = v'.fat := rfl
    refine torn.wf.replace reachable (fun c _ => congrFun fat c) (fun x _ other => Vol.setEntry_other other) file ?_ ?_ ?_ ?_ ?_
    · exact Vol.setEntry_regular.mpr (torn.wf.regular slot there)
    · intro x within other equal
      rw [Vol.setEntry_name] at equal
      exact other (torn.wf.names x within slot there equal)
    · rw [Vol.setEntry_start small]
      exact chained
    · rw [Vol.setEntry_size small']
      exact room
    · intro c within
      obtain ⟨sound, outside, free⟩ := owns c within
      refine ⟨⟨sound.has, sound.taken, sound.ended⟩, outside, fun x listed' other => ?_⟩
      rw [torn.listed] at listed'
      rw [(torn.others x listed' other).2.1]
      exact free x listed' other
  have away : ∀ c, c ∉ root → (v'.setEntry slot start size').data c = v'.data c := by
    intro c outside
    refine Vol.setEntry_data ?_
    rintro rfl
    exact outside (mem_slots.mp (files_subset member)).1
  refine { wf := wf, listed := listed, names := fun x within => ?_, others := fun x within other => ?_,
           sized := Vol.setEntry_size small', holds := fun o inside => ?_, links := torn.links, lost := ?_ }
  · rw [← torn.names x within]
    by_cases here : x = slot
    · rw [here, Vol.setEntry_name]
    · exact (Vol.setEntry_other here).name
  · obtain ⟨size, clusters, same⟩ := torn.others x within other
    refine ⟨(Vol.setEntry_other other).size.trans size, ?_, fun c belongs => ?_⟩
    · rw [Function.update_of_ne other, clusters]
    · rw [away c, same c belongs]
      rw [← clusters] at belongs
      exact torn.wf.rootApart x (torn.listed ▸ within) c belongs
  · rw [Function.update_self, byteAt_congr (fun c within => away c (owns c within).2.1) (by omega), holds o inside]
  · obtain ⟨f, lost⟩ := torn.lost
    refine ⟨f, fun c gone => lost c ⟨gone.1, gone.2.1, fun used => gone.2.2 ?_⟩⟩
    rcases used with rooted | ⟨x, within, belongs⟩
    · exact .inl rooted
    · refine .inr ⟨x, by rwa [listed, ← torn.listed], ?_⟩
      by_cases here : x = slot
      · subst here
        rw [Function.update_self]
        exact more belongs
      · rwa [Function.update_of_ne here]

/-- The other files read as before. -/
theorem Torn.content_other (wf : WellFormed b v root chain) {x : Slot}
    (member : x ∈ files b v root) (other : x ≠ slot) : content b v' x = content b v x := by
  obtain ⟨size, clusters, same⟩ := torn.others x member other
  rw [content, content, size, wf.clustersOf_eq member, torn.wf.clustersOf_eq (torn.listed ▸ member), clusters]
  refine slice_congr fun i inside => byteAt_congr same ?_
  have := wf.room x member
  omega

/-- The file written to reads as the bytes it has got so far. -/
theorem Torn.content_own (member : slot ∈ files b v root) :
    content b v' slot = slice bytes 0 size := by
  rw [content, torn.sized, torn.wf.clustersOf_eq (torn.listed ▸ member)]
  exact slice_congr fun i inside => torn.holds (0 + i) (by omega)

end Torn

/-! ## The files by their names -/

/-- What is known of a file, for the file with this name. -/
def byName {β : Type} (b : Bpb) (v : Vol) (shows : Slot → β) (name : List UInt8) : Option β :=
  ((files b v (rootOf b v)).find? fun slot => v.name slot = name).map shows

def stored (b : Bpb) (v : Vol) (name : List UInt8) : Option (List UInt8) :=
  ((files b v (rootOf b v)).find? fun slot => v.name slot = name).map (content b v)

section ByName
variable {β : Type} {b : Bpb} {v v' : Vol} {root root' : List Nat} {chain chain' : Slot → List Nat} {slot : Slot} {name : List UInt8}
  {shows shows' : Slot → β} {value : β}

/-- No two files have one name. -/
theorem WellFormed.find_name (wf : WellFormed b v root chain) (member : slot ∈ files b v root) :
    ((files b v root).find? fun x => v.name x = v.name slot) = some slot := by
  cases found : (files b v root).find? fun x => v.name x = v.name slot with
  | none => simpa using List.find?_eq_none.mp found slot member
  | some x =>
    have same : v.name x = v.name slot := by simpa using List.find?_some found
    rw [wf.names x (List.mem_of_find?_eq_some found) slot member same]

theorem WellFormed.byName_iff (wf : WellFormed b v root chain) :
    byName b v shows name = some value ↔ ∃ slot ∈ files b v root, v.name slot = name ∧ shows slot = value := by
  rw [byName, wf.rootOf_eq, Option.map_eq_some_iff]
  constructor
  · rintro ⟨x, found, same⟩
    exact ⟨x, List.mem_of_find?_eq_some found, by simpa using List.find?_some found, same⟩
  · rintro ⟨x, member, rfl, same⟩
    exact ⟨x, wf.find_name member, same⟩

theorem byName_replaced (wf : WellFormed b v root chain) (wf' : WellFormed b v' root' chain')
    (listed : ∀ x, x ∈ files b v' root' ↔ x = slot ∨ x ∈ files b v root)
    (others : ∀ x ∈ files b v root, x ≠ slot → v'.name x = v.name x ∧ shows' x = shows x)
    (named : v'.name slot = name) (old : slot ∈ files b v root → v.name slot = name) :
    byName b v' shows' = Function.update (byName b v shows) name (some (shows' slot)) := by
  funext n
  by_cases here : n = name
  · rw [here, Function.update_self, wf'.byName_iff]
    exact ⟨slot, (listed slot).mpr (.inl rfl), named, rfl⟩
  · rw [Function.update_of_ne here]
    refine Option.ext fun found => ?_
    rw [wf'.byName_iff, wf.byName_iff]
    constructor
    · rintro ⟨x, member, rfl, same⟩
      have other : x ≠ slot := fun equal => here (by rw [equal, named])
      have member := ((listed x).mp member).resolve_left other
      obtain ⟨sameName, sameValue⟩ := others x member other
      exact ⟨x, member, sameName.symm, sameValue ▸ same⟩
    · rintro ⟨x, member, rfl, same⟩
      have other : x ≠ slot := fun equal => here (by rw [equal]; exact old (equal ▸ member))
      obtain ⟨sameName, sameValue⟩ := others x member other
      exact ⟨x, (listed x).mpr (.inr member), sameName, sameValue.trans same⟩

theorem byName_congr (wf : WellFormed b v root chain) (wf' : WellFormed b v' root' chain') (listed : files b v' root' = files b v root)
    (same : ∀ x ∈ files b v root, v'.name x = v.name x ∧ shows' x = shows x) : byName b v' shows' = byName b v shows := by
  funext name
  refine Option.ext fun value => ?_
  rw [wf'.byName_iff, wf.byName_iff, listed]
  refine exists_congr fun x => and_congr_right fun member => ?_
  rw [(same x member).1, (same x member).2]

end ByName

section Stored
variable {b : Bpb} {v v' : Vol} {root : List Nat} {chain chain' : Slot → List Nat} {slot : Slot}

theorem WellFormed.stored_name (wf : WellFormed b v root chain) (member : slot ∈ files b v root) :
    stored b v (v.name slot) = some (content b v slot) :=
  wf.byName_iff.mpr ⟨slot, member, rfl, rfl⟩

/-- By name, only the file written to is another. -/
theorem Torn.stored {size : Nat} {memory : Memory} (torn : Torn b v root chain slot size memory v' chain') (wf : WellFormed b v root chain)
    (member : slot ∈ files b v root) :
    stored b v' = Function.update (stored b v) (v.name slot) (some (slice memory 0 size)) := by
  rw [← torn.content_own member]
  refine byName_replaced wf torn.wf (fun x => ?_) (fun x within other => ⟨torn.names x within, torn.content_other wf within other⟩)
    (torn.names slot member) fun _ => rfl
  rw [torn.listed]
  exact ⟨.inr, fun either => either.elim (fun same => same ▸ member) id⟩

end Stored

end Pcern.Fat32

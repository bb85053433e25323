import Pcern.Writing

/-!
Crashes. A call of `write_file` or `truncate_file` makes up to six writes, and their order makes it safe to stop after
any of them.
-/
namespace Pcern.Fat32

open Bytes Blocks Chains

inductive Call where
  | write (offset len : Nat) (client : Memory)
  | truncate (size : Nat)

def Call.io (b : Bpb) (file : OpenFile) : Call → Io (Nat × OpenFile)
  | .write offset len client => writeFile b file offset len client
  | .truncate size => truncateFile file size

/-- What may be in the file when a call is cut short: the old bytes, or all of the new ones at the old or the new size. -/
def Call.outcomes (old : List UInt8) : Call → List (List UInt8)
  | .write offset len client =>
    let data := payload offset len client
    [old, (splice old offset data).take old.length, (splice old offset data).take (max old.length ((offset + data.length) % 2 ^ 32))]
  | .truncate size => [old, old.take size]

/-- `v'` is as sound as `v`, and differs from it in one file, which has one of these contents, and in one lost cluster. -/
structure Consistent (b : Bpb) (v : Vol) (slot : Slot) (outcomes : List (List UInt8)) (v' : Vol) : Prop where
  valid : Valid b v'
  listed : files b v' (rootOf b v') = files b v (rootOf b v)
  names : ∀ x ∈ files b v (rootOf b v), v'.name x = v.name x
  others : ∀ x ∈ files b v (rootOf b v), x ≠ slot → content b v' x = content b v x
  own : content b v' slot ∈ outcomes
  lost : ∃ f, ∀ c, Lost b v' (rootOf b v') (clustersOf b v') c → c = f ∨ Lost b v (rootOf b v) (clustersOf b v) c

section Crash
variable {b : Bpb} {v v' : Vol} {slot : Slot}

theorem Torn.consistent {size : Nat} {bytes : Memory} {chain' : Slot → List Nat} (valid : Valid b v)
    (member : slot ∈ files b v (rootOf b v)) (torn : Torn b v (rootOf b v) (clustersOf b v) slot size bytes v' chain')
    {outcomes : List (List UInt8)} (own : slice bytes 0 size ∈ outcomes) : Consistent b v slot outcomes v' := by
  have same := torn.wf.rootOf_eq
  refine { valid := torn.wf.valid, listed := by rw [same, torn.listed], names := torn.names,
           others := fun x => torn.content_other valid, own := torn.content_own member ▸ own, lost := ?_ }
  obtain ⟨f, lost⟩ := torn.lost
  refine ⟨f, fun c gone => lost c ⟨gone.1, gone.2.1, fun used => gone.2.2 (torn.wf.used_iff.mpr used)⟩⟩

theorem TruncateLeaves.consistent (valid : Valid b v) (member : slot ∈ files b v (rootOf b v)) {k : Nat} (le : k ≤ v.size slot)
    (leaves : TruncateLeaves b v (rootOf b v) (clustersOf b v) slot k v') :
    Consistent b v slot ((Call.truncate k).outcomes (content b v slot)) v' := by
  obtain ⟨chain', size, torn, stage⟩ := leaves
  refine torn.consistent valid member ?_
  rcases stage with rfl | rfl
  · exact List.mem_cons_self
  · refine List.mem_cons_of_mem _ (List.mem_singleton.mpr ?_)
    rw [content, slice_take _ _ le]

theorem WriteLeaves.consistent (valid : Valid b v) (member : slot ∈ files b v (rootOf b v)) {offset len : Nat} {client : Memory}
    (before : offset ≤ v.size slot)
    (leaves : WriteLeaves b v (rootOf b v) (clustersOf b v) slot offset (payload offset len client) v') :
    Consistent b v slot ((Call.write offset len client).outcomes (content b v slot)) v' := by
  obtain ⟨chain', size, bytes, torn, stage⟩ := leaves
  refine torn.consistent valid member ?_
  have spliced := slice_blit_splice (byteAt b v (clustersOf b v slot)) (payload offset len client) before
  have wrapped := Nat.mod_le (offset + (payload offset len client).length) (2 ^ 32)
  simp only [Call.outcomes, List.mem_cons, List.not_mem_nil, or_false, length_content]
  rcases stage with ⟨rfl, rfl | rfl⟩ | ⟨rfl, rfl⟩
  · exact .inl rfl
  · refine .inr (.inl ?_)
    rw [content, ← spliced, slice_take _ _ (Nat.le_max_left _ _)]
  · refine .inr (.inr ?_)
    rw [content, ← spliced, slice_take _ _ (by omega)]

/-- A write that walks along links of its file while a cluster is free: where the read of a link fails, the server takes
    the file to end there and continues it in the free cluster. -/
def Call.Walks (b : Bpb) (v : Vol) (slot : Slot) : Call → Prop
  | .write offset _ _ =>
    offset ≤ v.size slot ∧ v.firstFree b ≠ none ∧ 1 < (clustersOf b v slot).length ∧ offset / (b.sectorsPerCluster * 512) ≠ 0
  | .truncate _ => False

private theorem does_call {m : Mode} (geo : Geometry b) (valid : Valid b v) (member : slot ∈ files b v (rootOf b v)) (call : Call)
    (stays : m.fails → ¬call.Walks b v slot) :
    Consistent b v slot (call.outcomes (content b v slot)) v ∧
      Does b m (Consistent b v slot (call.outcomes (content b v slot))) (fun _ => Consistent b v slot (call.outcomes (content b v slot)))
        (call.io b (opened b v slot)) v := by
  have unchanged : Consistent b v slot (call.outcomes (content b v slot)) v := by
    refine Torn.consistent valid member (WellFormed.torn valid) ?_
    cases call <;> exact List.mem_cons_self
  refine ⟨unchanged, ?_⟩
  cases call with
  | write offset len client =>
    by_cases gap : v.size slot < offset
    · have refused : writeFile b (opened b v slot) offset len client = pure (0, opened b v slot) := if_pos gap
      rw [Call.io, refused]
      exact .ret unchanged
    · have before : offset ≤ v.size slot := Nat.le_of_not_lt gap
      have safe : m.fails → v.size slot < offset ∨ v.firstFree b = none ∨ (clustersOf b v slot).length ≤ 1 ∨
          offset / (b.sectorsPerCluster * 512) = 0 := by
        intro fails
        by_contra walks
        simp only [not_or, not_lt, not_le] at walks
        exact stays fails walks
      refine (does_writeFile geo valid member offset len client safe).imp (fun v' leaves => leaves.consistent valid member before) ?_
      rintro r v' (⟨_, _, rfl⟩ | ⟨_, _, chain', torn⟩ | ⟨_, leaves⟩)
      · exact unchanged
      · exact WriteLeaves.consistent valid member before ⟨chain', _, _, torn, .inr ⟨rfl, rfl⟩⟩
      · exact leaves.consistent valid member before
  | truncate size =>
    by_cases longer : v.size slot < size
    · have refused : truncateFile (opened b v slot) size = pure (0, opened b v slot) := if_pos longer
      rw [Call.io, refused]
      exact .ret unchanged
    · have le : size ≤ v.size slot := Nat.le_of_not_lt longer
      refine (does_truncateFile geo valid member size).imp (fun v' leaves => leaves.consistent valid member le) ?_
      rintro r v' (⟨_, _, rfl⟩ | ⟨_, _, chain', torn⟩ | ⟨_, leaves⟩)
      · exact unchanged
      · exact TruncateLeaves.consistent valid member le ⟨chain', _, torn, .inr rfl⟩
      · exact leaves.consistent valid member le

/-- A call that is cut short after any number of its writes leaves a sound volume: the other files are as they were, the
    file has all of its new bytes or none, at the old or the new size, and one cluster may be lost. -/
theorem write_survives_crash (geo : Geometry b) {d : Disk} (valid : Valid b (vol b d))
    (member : slot ∈ files b (vol b d) (rootOf b (vol b d))) (call : Call) (k : Nat) :
    Consistent b (vol b d) slot (call.outcomes (content b (vol b d) slot))
      (vol b (written d (((call.io b (opened b (vol b d) slot)).run allWell d).writes.take k))) := by
  obtain ⟨start, does⟩ := does_call (m := .calm) geo valid member call False.elim
  exact does.cut start k

/-- The write of the second cluster of the file in two clusters, cut short after the data. -/
theorem smallDisk_survives :
    Consistent smallBpb (vol smallBpb smallDisk) ⟨2, 0, 0⟩
      ((Call.write 520 100 fun _ => 1).outcomes (content smallBpb (vol smallBpb smallDisk) ⟨2, 0, 0⟩))
      (vol smallBpb (written smallDisk ((((Call.write 520 100 fun _ => 1).io smallBpb
        (opened smallBpb (vol smallBpb smallDisk) ⟨2, 0, 0⟩)).run allWell smallDisk).writes.take 1))) :=
  write_survives_crash smallBpb_geometry smallDisk_valid (by decide +kernel) (.write 520 100 fun _ => 1) 1

/-! ## Failing sectors -/

/-- The call ends although accesses fail, and leaves what a call that is cut short may leave. -/
def Call.Survives (b : Bpb) (d : Disk) (slot : Slot) (fails : Nat → Bool) (call : Call) : Prop :=
  ∃ r, ((call.io b (opened b (vol b d) slot)).run fails d).result = some r ∧
    Consistent b (vol b d) slot (call.outcomes (content b (vol b d) slot))
      (vol b ((call.io b (opened b (vol b d) slot)).run fails d).disk)

/-- The read ends although accesses fail, changes nothing, and yields the bytes that it is to yield, or none. -/
def ReadSurvives (b : Bpb) (d : Disk) (slot : Slot) (fails : Nat → Bool) (offset len : Nat) (client : Memory) : Prop :=
  ∃ n, ((readFile b (opened b (vol b d) slot) offset len client).run fails d).result =
      some (n, blit client 0 (((content b (vol b d) slot).drop offset).take n)) ∧
    (n = 0 ∨ n = min (min len (512 - offset % 512)) ((content b (vol b d) slot).length - offset)) ∧
    vol b ((readFile b (opened b (vol b d) slot) offset len client).run fails d).disk = vol b d

/-- A call that does not walk survives whatever accesses fail. -/
theorem call_survives_failures (geo : Geometry b) {d : Disk} (valid : Valid b (vol b d))
    (member : slot ∈ files b (vol b d) (rootOf b (vol b d))) (call : Call) (stays : ¬call.Walks b (vol b d) slot)
    (fails : Nat → Bool) : call.Survives b d slot fails := by
  obtain ⟨_, does⟩ := does_call (m := .faulty) geo valid member call fun _ => stays
  exact does.result id (Mode.faulty_allows _ fails d)

/-- A write into the first cluster of the file in two clusters, with the write of the data refused. -/
theorem smallDisk_survives_failure : (Call.write 10 100 fun _ => 1).Survives smallBpb smallDisk ⟨2, 0, 0⟩ (· == 1) :=
  call_survives_failures smallBpb_geometry smallDisk_valid (by decide +kernel) (.write 10 100 fun _ => 1)
    (fun walks => walks.2.2.2 (by decide)) (· == 1)

/-- Every read survives whatever accesses fail. -/
theorem read_survives_failures (geo : Geometry b) {d : Disk} (valid : Valid b (vol b d))
    (member : slot ∈ files b (vol b d) (rootOf b (vol b d))) (offset len : Nat) (client : Memory) (fails : Nat → Bool) :
    ReadSurvives b d slot fails offset len client := by
  have does : Does b .faulty (fun _ => True) _ (readFile b (opened b (vol b d) slot) offset len client) (vol b d) :=
    does_readFile geo valid member rfl
  obtain ⟨r, result, same, full | ⟨_, nothing⟩⟩ := does.result id (Mode.faulty_allows _ fails d)
  · refine ⟨_, ?_, .inr rfl, same⟩
    rw [result, full, length_content]
    by_cases before : offset ≤ (vol b d).size slot
    · rw [content, slice_drop _ _ before, slice_take _ _ (Nat.min_le_right _ _), Nat.zero_add]
    · have none : (vol b d).size slot - offset = 0 := by omega
      rw [none, Nat.min_zero, List.take_zero]
      rfl
  · refine ⟨0, ?_, .inl rfl, same⟩
    rw [result, nothing, List.take_zero, blit_nil]

/-- A read of the file in two clusters that fails at the link between them. -/
theorem smallDisk_reads_nothing : ReadSurvives smallBpb smallDisk ⟨2, 0, 0⟩ (· == 0) 520 100 fun _ => 1 :=
  read_survives_failures smallBpb_geometry smallDisk_valid (by decide +kernel) 520 100 (fun _ => 1) (· == 0)

end Crash

end Pcern.Fat32

import Pcern.Loading
import Pcern.Spans

/-!
What a program finds when it starts. `Loads` lists the ways a program is loaded,
with the place of each of its bytes; `Sees` is the address space, the capability
table and the ports that the new task is to have.

The loader puts the code from 4 MiB upwards and the stack below 8 MiB, without a
look at the length of the code: the two are apart exactly if there are at most
1020 pages of code.
-/
namespace Pcern
open Bytes Capabilities Pcern.Frame Loader Loops PageTables Paging Spans

/-- A program to be loaded: where each of its bytes is in physical memory, the range that this byte has to come from, and
    the ports the task is to have. -/
structure Source where
  len : Nat
  byte : Nat → Nat
  range : Nat → Span
  ports : List UInt16

def Source.ofModule (m : Multiboot.Module) (ports : List UInt16) : Source :=
  { len := m.stop - m.start, byte := fun j => m.start + j, range := fun _ => ⟨m.start, m.stop - m.start⟩, ports }

/-- One page of each grant. -/
def Source.ofGrants (grants : List Span) (len : Nat) : Source :=
  { len, byte := fun j => (grants.getD (j / 4096) ⟨0, 0⟩).start + j % 4096,
    range := fun j => grants.getD (j / 4096) ⟨0, 0⟩, ports := [] }

/-- A slot of a task names a live grant for a range of memory. -/
def HoldsGrant (k : Kernel) (id : Nat) (slot : UInt32) (grant : Span) : Prop :=
  ∃ node writable badge, Holds k id slot node ∧
    resolve k.caps node = some (.memoryGrant grant.start grant.size writable, badge)

/-- The actions that load a program: a call of the boot, and the two system calls. -/
inductive Loads (p : Platform) (k : Kernel) : Action → Source → Prop where
  | boot {index : Nat} {ports : List UInt16} {m : Multiboot.Module} (early : k.sched.current = none)
      (found : Multiboot.module k.mm.mem k.cr3 p.info index = .ok (some m)) (has : p.HasModule m) :
      Loads p k (.boot (.spawn index ports)) (.ofModule m ports)
  | createTask {regs : SavedRegs} {m : Multiboot.Module} (may : enabled k (.syscall regs) = true)
      (number : regs.eax = Syscall.sysCreateTask)
      (found : Multiboot.module k.mm.mem k.cr3 p.info regs.ebx.toNat = .ok (some m)) (has : p.HasModule m) :
      Loads p k (.event (.syscall regs)) (.ofModule m [])
  | memory {regs : SavedRegs} {self : Nat} {grants : List Span} (may : enabled k (.syscall regs) = true)
      (current : k.sched.current = some self) (number : regs.eax = Syscall.sysSpawnFromMemory)
      (held : List.Forall₂ (HoldsGrant k self) ([regs.ebx, regs.ecx, regs.edx, regs.esi].takeWhile (· ≠ 0)) grants)
      (named : grants ≠ []) (nonempty : regs.edi ≠ 0) (fits : regs.edi.toNat ≤ grants.length * 4096) :
      Loads p k (.event (.syscall regs)) (.ofGrants grants regs.edi.toNat)

def Action.perform (k : Kernel) : Action → Except Stop Kernel
  | .boot c => (c.run k).map Prod.snd
  | .event e => step k e

def userByte (m : Memory) (dir va : Nat) : Option UInt8 :=
  (translate m dir va).bind fun t => if t.user then some (m t.phys) else none

def stackBase (i : Nat) : Nat := userStackTop - (i + 1) * 4096

/-- The address space of a program: its code, zeroes up to the end of the last page of it, four pages of stack apart
    from these, and nothing else, in particular no frame of its source. -/
structure SeesCode (before after : Memory) (dir : Nat) (source : Source) : Prop where
  code : ∀ j < source.len, userByte after dir (userCodeBase + j) = some (before (source.byte j))
  padding : ∀ j, source.len ≤ j → j < codePages source.len * 4096 → userByte after dir (userCodeBase + j) = some 0
  stack : ∀ i < userStackPages, ∃ s, translate after dir (stackBase i) = some s ∧ s.user = true ∧ s.writable = true ∧
    ∀ j < codePages source.len * 4096, (userCodeBase + j) / 4096 ≠ stackBase i / 4096 ∧
      ∀ c, translate after dir (userCodeBase + j) = some c → c.phys / 4096 ≠ s.phys / 4096
  only : ∀ va < 2 ^ 32, ∀ t, translate after dir va = some t → t.user = true →
    (∃ j < codePages source.len * 4096, va = userCodeBase + j) ∨ ∃ i < userStackPages, va / 4096 = stackBase i / 4096
  apart : ∀ va < 2 ^ 32, ∀ t, translate after dir va = some t → t.user = true →
    ∀ j < source.len, t.phys / 4096 ≠ source.byte j / 4096
  inside : ∀ j < source.len, (source.range j).Covers (source.byte j)

structure Sees (k k' : Kernel) (source : Source) (t : Task) : Prop where
  memory : SeesCode k.mm.mem k'.mm.mem t.pageDirPhys source
  table : ∀ slot node, CSpace.get t.cspace slot = some node → slot = 1 ∧
    ∃ endpoint, k.loader.nameserviceEndpoint = some endpoint ∧ resolve k'.caps node = some (.endpoint endpoint, 0)
  ports : t.allowedPorts = source.ports

/-- The action gives a new task, and the task sees its program. -/
def LoadsProgram (k : Kernel) (a : Action) (source : Source) : Prop :=
  ∃ k' t, a.perform k = .ok k' ∧ k'.sched.lookup k.nextId = some t ∧ Sees k k' source t

/-! ## An address space under construction -/

/-- The pages given to a directory so far: `space` maps a page to its frame, which was free at the start. -/
structure Placed (start mid : Mm) (dirs : Set Nat) (dir : Nat) (space : Nat → Option Nat) : Prop where
  evolves : Evolves start mid dirs dirs
  bytes : ∀ a, Detached start dirs (a / 4096) → mid.mem a = start.mem a
  words : ∀ v < 786432, pageWord mid.mem dir v = (space v).elim 0 fun f => entry (f * 4096) true true
  opens : ∀ i < 768, present (word mid.mem dir i) = true →
    user (word mid.mem dir i) = true ∧ writable (word mid.mem dir i) = true
  fresh : ∀ v f, space v = some f → f ∈ freeFrames start.frames ∧ Detached mid dirs f
  once : ∀ v v' f, space v = some f → space v' = some f → v = v'

section Building
variable {start mid mm : Mm} {dirs : Set Nat} {dir : Nat} {space : Nat → Option Nat}

section
variable (placed : Placed start mid dirs dir space)
include placed

theorem Placed.translate_some (member : dir ∈ dirs) {va : Nat} (low : va < kernelVma) {f : Nat}
    (here : space (va / 4096) = some f) :
    translate mid.mem dir va = some { phys := f * 4096 + va % 4096, user := true, writable := true } := by
  simp only [kernelVma] at low
  have word' := placed.words (va / 4096) (by omega)
  have aligned : f * 4096 % 4096 = 0 := Nat.mul_mod_left f 4096
  rw [here, Option.elim_some, pageWord, leaf, show va / 4096 / 1024 = va / 0x400000 by omega] at word'
  have table : present (word mid.mem dir (va / 0x400000)) = true := by
    by_contra absent
    rw [if_neg absent] at word'
    have shown := present_entry aligned true true
    rw [← word'] at shown
    cases shown
  rw [if_pos table] at word'
  have plain := placed.evolves.layout.spaces.small dir member _ (by omega) table
  obtain ⟨isUser, isWritable⟩ := placed.opens _ (by omega) table
  simp only [PageTables.translate, table, plain, word', isUser, isWritable, present_entry aligned, user_entry aligned,
    writable_entry aligned, address_entry aligned, Bool.not_true, Bool.false_eq_true, if_false, Bool.and_true]

theorem Placed.translate_none (member : dir ∈ dirs) {va : Nat} (low : va < kernelVma)
    (absent : space (va / 4096) = none) : translate mid.mem dir va = none := by
  simp only [kernelVma] at low
  have word' := placed.words (va / 4096) (by omega)
  rw [absent, Option.elim_none, pageWord, show va / 4096 / 1024 = va / 0x400000 by omega] at word'
  cases walked : translate mid.mem dir va with
  | none => rfl
  | some t =>
    have here := (placed.evolves.layout.spaces.translate_eq_some member (by omega) walked).1
    rw [word'] at here
    cases here

private theorem userPage_places (member : dir ∈ dirs) {v : Nat} (low : v < 786432) :
    Yields (userPage mid dir (v * 4096)) (fun r => ∃ f, r.1 = f * 4096 ∧
      Placed start r.2 dirs dir (Function.update space v (some f)) ∧ DataFrame r.2 dirs (f * 4096) ∧
      f ∈ freeFrames start.frames ∧ ∀ a, Detached mid dirs (a / 4096) → r.2.mem a = mid.mem a) fun _ => True := by
  have layout := placed.evolves.layout
  have private' : v * 4096 < kernelVma := by simp only [kernelVma]; omega
  have region : v * 4096 / 0x400000 = v / 1024 := by omega
  unfold userPage
  cases alloc : allocFrame mid.frames with
  | none => trivial
  | some handed =>
    obtain ⟨phys, frames⟩ := handed
    obtain ⟨f, rfl, free, _⟩ := allocFrame_eq_some alloc
    obtain ⟨taken, data⟩ := alloc_evolves layout alloc
    dsimp only
    cases mapped : mapPage { mid with frames } dir (v * 4096) (f * 4096) true true with
    | error reason => trivial
    | ok mm =>
    have maps := mapPage_evolves taken.layout member private' data mapped
    have avoids := (Avoids.alloc alloc).trans (mapPage_avoids taken.layout member private' mapped)
    obtain ⟨e, words, how, _⟩ := mapPage_entry taken.layout member private' mapped
    rw [region] at words how
    have data' := maps.grows.data _ data
    have aside : Detached mm dirs f := by simpa using data'.detached
    have older : f ∈ freeFrames start.frames := placed.evolves.grows.free f free
    refine ⟨f, rfl, ⟨(placed.evolves.trans taken).trans maps, ?_, ?_, ?_, ?_, ?_⟩, data', older, avoids.bytes⟩
    · intro a before
      rw [avoids.bytes a (placed.evolves.stays _ before), placed.bytes a before]
    · intro v' low'
      rw [mapPage_pageWord taken.layout member private' data mapped low', Nat.mul_div_cancel _ (by decide)]
      by_cases same : v' = v
      · rw [if_pos same, same, Function.update_self]
        rfl
      · rw [if_neg same, Function.update_of_ne same]
        exact placed.words v' low'
    · intro i less here
      rw [words dir member i (by omega)] at here ⊢
      by_cases same : dir = dir ∧ i = v / 1024
      · rw [if_pos same]
        rcases how with ⟨present', _, _, _, isUser, wide⟩ | ⟨_, pt, _, rfl, onFrame⟩
        · exact ⟨isUser rfl, wide (placed.opens _ (by omega) present').2⟩
        · exact ⟨user_entry onFrame true true, writable_entry onFrame true true⟩
      · rw [if_neg same] at here ⊢
        exact placed.opens i less here
    · intro v' f' here
      by_cases same : v' = v
      · rw [same, Function.update_self, Option.some.injEq] at here
        exact here ▸ ⟨older, aside⟩
      · rw [Function.update_of_ne same] at here
        exact ⟨(placed.fresh v' f' here).1, avoids.stays f' (placed.fresh v' f' here).2⟩
    · -- the frames placed before are not free any more
      have distinct : ∀ v', space v' ≠ some f := fun v' here => (placed.fresh v' f here).2.1 free
      intro v1 v2 f' here1 here2
      by_cases same1 : v1 = v
      · by_cases same2 : v2 = v
        · rw [same1, same2]
        · rw [same1, Function.update_self, Option.some.injEq] at here1
          rw [Function.update_of_ne same2, ← here1] at here2
          exact absurd here2 (distinct v2)
      · rw [Function.update_of_ne same1] at here1
        by_cases same2 : v2 = v
        · rw [same2, Function.update_self, Option.some.injEq] at here2
          rw [← here2] at here1
          exact absurd here1 (distinct v1)
        · rw [Function.update_of_ne same2] at here2
          exact placed.once v1 v2 f' here1 here2

theorem Placed.write (member : dir ∈ dirs) {f : Nat}
    (data : DataFrame mid dirs (f * 4096)) (free : f ∈ freeFrames start.frames) {mem : Memory}
    (same : ∀ a, a < f * 4096 ∨ f * 4096 + 4096 ≤ a → mem a = mid.mem a) :
    Placed start { mid with mem } dirs dir space := by
  have layout := placed.evolves.layout
  have writes := writeData_evolves layout data same
  have leaves := (layout.writeData data same).2.2
  refine ⟨placed.evolves.trans writes, fun a before => ?_, fun v low => ?_, fun i less => ?_, ?_, placed.once⟩
  · rw [← placed.bytes a before]
    refine same a ?_
    by_contra inside
    exact before.1 (by rwa [show a / 4096 = f by omega])
  · rw [← placed.words v low]
    exact leaves dir member _ (by omega) _ (by omega)
  · show present (word mem dir i) = true → user (word mem dir i) = true ∧ writable (word mem dir i) = true
    rw [layout.writeData_word data same member (by omega)]
    exact placed.opens i less
  · exact fun v f' here => ⟨(placed.fresh v f' here).1, writes.stays f' (placed.fresh v f' here).2⟩

end

private theorem fillPage_bytes (layout : Layout mm dirs) (window : Windowed mm) {cr3 len i phys : Nat} {pagePhys : Nat → Nat} {mm' : Mm}
    (shares : cr3 ∈ dirs ∨ cr3 = mm.image.bootDir)
    (inside : ∀ j < 4096, i * 4096 + j < len → (pagePhys i + j) / 4096 < mm.frames.frameCount)
    (filled : fillPage mm cr3 len pagePhys i phys = .ok mm') {j : Nat} (less : j < 4096) :
    mm'.mem (phys + j) = if i * 4096 + j < len then mm.mem (pagePhys i + j) else 0 := by
  have copied : ∀ copyLen mem, min (len - i * 4096) 4096 = copyLen → copyPage mm cr3 (pagePhys i) phys copyLen = .ok mem →
      ∀ j < copyLen, mem (phys + j) = mm.mem (pagePhys i + j) := by
    intro copyLen mem isLen ran j less
    dsimp only [copyPage] at ran
    split at ran
    · cases ran
      rw [copyFrom_apply_inside _ _ (by omega) (by omega), Nat.add_sub_cancel_left, Nat.add_assoc,
        window.load layout shares (inside j (by omega) (by omega))]
      rfl
    · cases ran
  dsimp only [fillPage] at filled
  obtain ⟨copyLen, isLen⟩ : ∃ n, min (len - i * 4096) 4096 = n := ⟨_, rfl⟩
  rw [isLen] at filled
  have written : ∃ mem : Memory, (∀ j < copyLen, mem (phys + j) = mm.mem (pagePhys i + j)) ∧
      mm'.mem = if copyLen < 4096 then fill mem (phys + copyLen) (4096 - copyLen) 0 else mem := by
    split at filled
    · obtain ⟨mem, ran, filled⟩ := bind_eq_ok.mp filled
      cases filled
      exact ⟨mem, copied copyLen mem isLen ran, rfl⟩
    · cases filled
      exact ⟨mm.mem, fun j less => absurd less (by omega), rfl⟩
  obtain ⟨mem, bytes, isMem⟩ := written
  rw [isMem]
  by_cases code : j < copyLen
  · rw [if_pos (show i * 4096 + j < len by omega), ← bytes j code]
    split
    · rw [fill_apply_other _ _ (by omega)]
    · rfl
  · rw [if_neg (show ¬i * 4096 + j < len by omega), if_pos (show copyLen < 4096 by omega),
      fill_apply_inside _ _ (by omega) (by omega)]

/-- Byte `j` of the code region, for a program whose page `i` is at `pagePhys i`. -/
def programByte (m : Memory) (len : Nat) (pagePhys : Nat → Nat) (j : Nat) : UInt8 :=
  if j < len then m (pagePhys (j / 4096) + j % 4096) else 0

/-- The first `n` pages of code are there with their bytes, among the pages placed so far. -/
structure Filled (start mid : Mm) (dirs : Set Nat) (dir len : Nat) (pagePhys : Nat → Nat) (n : Nat) (pages : Set Nat) : Prop where
  spaced : ∃ space, Placed start mid dirs dir space ∧ (∀ v, space v ≠ none ↔ v ∈ pages) ∧
    ∀ i < n, ∀ f, space (1024 + i) = some f → ∀ j < 4096,
      mid.mem (f * 4096 + j) = programByte start.mem len pagePhys (i * 4096 + j)

section Passes
variable {len n : Nat} {pagePhys : Nat → Nat} {pages : Set Nat}

private theorem mem_update_iff {space : Nat → Option Nat} (isPages : ∀ v, space v ≠ none ↔ v ∈ pages) (v f v' : Nat) :
    Function.update space v (some f) v' ≠ none ↔ v' ∈ insert v pages := by
  by_cases same : v' = v
  · simp [same]
  · rw [Function.update_of_ne same, isPages]
    simp [same]

private theorem codePage_fills (filled : Filled start mid dirs dir len pagePhys n pages) (member : dir ∈ dirs) (low : 1024 + n < 786432)
    (window : Windowed start) (layout : Layout start dirs) {cr3 : Nat} (shares : cr3 ∈ dirs ∨ cr3 = start.image.bootDir)
    (inside : ∀ j < len, (pagePhys (j / 4096) + j % 4096) / 4096 < start.frames.frameCount ∧
      Detached start dirs ((pagePhys (j / 4096) + j % 4096) / 4096)) :
    Yields (codePage cr3 dir len pagePhys n mid)
      (fun mm => Filled start mm dirs dir len pagePhys (n + 1) (insert (1024 + n) pages)) fun _ => True := by
  obtain ⟨space, placed, isPages, content⟩ := filled.spaced
  rw [codePage, show userCodeBase + n * 4096 = (1024 + n) * 4096 by simp only [userCodeBase]; omega]
  refine (userPage_places placed member low).bind fun r places => ?_
  obtain ⟨phys, mm⟩ := r
  obtain ⟨f, rfl, placed', data, free, bytes⟩ := places
  have pageOf : ∀ j < 4096, (n * 4096 + j) / 4096 = n ∧ (n * 4096 + j) % 4096 = j := by omega
  dsimp only at placed' data bytes ⊢
  cases fills : fillPage mm cr3 len pagePhys n (f * 4096) with
  | error reason => trivial
  | ok mm' =>
  have evolves := placed'.evolves
  have written := @fillPage_bytes mm dirs evolves.layout (window.grow layout evolves.layout evolves.grows) cr3 len n (f * 4096) pagePhys mm'
    (by rwa [evolves.grows.image]) (fun j less code => by
      have here := (inside _ code).1
      rw [(pageOf j less).1, (pageOf j less).2] at here
      rwa [evolves.grows.count]) fills
  obtain ⟨isMm, outside⟩ := fillPage_eq_ok fills
  have placed'' := placed'.write member data free outside
  rw [← isMm] at placed''
  refine ⟨_, placed'', mem_update_iff isPages (1024 + n) f, fun i less f' here j inPage => ?_⟩
  by_cases last : i = n
  · subst last
    rw [Function.update_self, Option.some.injEq] at here
    subst here
    rw [written inPage, programByte, (pageOf j inPage).1, (pageOf j inPage).2]
    split
    · rename_i code
      have aside := (inside _ code).2
      rw [(pageOf j inPage).1, (pageOf j inPage).2] at aside
      exact placed'.bytes _ aside
    · rfl
  · have other : 1024 + i ≠ 1024 + n := by omega
    rw [Function.update_of_ne other] at here
    -- the frame was placed before and is another one
    have aside := (placed.fresh _ f' here).2
    have frame : (f' * 4096 + j) / 4096 = f' := by omega
    have apart : f' ≠ f := fun same => other (placed'.once _ _ f' (by rw [Function.update_of_ne other, here])
      (by rw [Function.update_self, same]))
    rw [outside _ (by omega), bytes _ (by rwa [frame])]
    exact content i (by omega) f' here j inPage

private theorem stackPage_fills (filled : Filled start mid dirs dir len pagePhys n pages) (member : dir ∈ dirs) {i : Nat} (less : i < 4)
    (above : 1024 + n ≤ 2047 - i) :
    Yields (stackPage dir i mid) (fun mm => Filled start mm dirs dir len pagePhys n (insert (2047 - i) pages)) fun _ => True := by
  obtain ⟨space, placed, isPages, content⟩ := filled.spaced
  rw [stackPage, show userStackTop - (i + 1) * 4096 = (2047 - i) * 4096 by simp only [userStackTop]; omega]
  refine (userPage_places placed member (by omega)).bind fun r places => ?_
  obtain ⟨f, _, placed', _, _, bytes⟩ := places
  refine ⟨_, placed', mem_update_iff isPages (2047 - i) f, fun i less f' here j inPage => ?_⟩
  rw [Function.update_of_ne (by omega)] at here
  have aside := (placed.fresh _ f' here).2
  rw [bytes _ (by rwa [show (f' * 4096 + j) / 4096 = f' by omega])]
  exact content i less f' here j inPage

/-- The pages of a program with `n` pages of code once `i` pages of its stack are there. -/
def pagesOf (n i : Nat) : Set Nat := {v | 1024 ≤ v ∧ v < 1024 + n ∨ 2048 - i ≤ v ∧ v < 2048}

private theorem buildPages_fills (layout : Layout start dirs) (window : Windowed start) (member : dir ∈ dirs)
    (blank : ∀ i < 768, word start.mem dir i = 0) {cr3 : Nat} (shares : cr3 ∈ dirs ∨ cr3 = start.image.bootDir)
    (inside : ∀ j < len, (pagePhys (j / 4096) + j % 4096) / 4096 < start.frames.frameCount ∧
      Detached start dirs ((pagePhys (j / 4096) + j % 4096) / 4096)) (short : codePages len ≤ 1020) :
    Yields (buildPages cr3 dir len pagePhys start)
      (Filled start · dirs dir len pagePhys (codePages len) (pagesOf (codePages len) userStackPages)) fun _ => True := by
  have unplaced : Filled start start dirs dir len pagePhys 0 (pagesOf 0 0) := by
    refine ⟨fun _ => none, ⟨.refl layout, fun _ _ => rfl, fun v low => ?_, fun i less here => ?_, ?_, ?_⟩, fun v => ?_, ?_⟩
    · rw [pageWord, leaf, blank _ (by omega)]
      rfl
    · rw [blank i less] at here
      cases here
    · exact fun _ _ none => by cases none
    · exact fun _ _ _ none => by cases none
    · simp only [ne_eq, not_true_eq_false, pagesOf, Set.mem_ofPred_eq, false_iff]
      omega
    · exact fun i none => absurd none (Nat.not_lt_zero i)
  refine Yields.bind (forRange_yields (fun n mid => Filled start mid dirs dir len pagePhys n (pagesOf n 0)) unplaced ?_) fun mid code => ?_
  · rintro i (less : i < codePages len) mid filled
    rw [show pagesOf (i + 1) 0 = insert (1024 + i) (pagesOf i 0) by
      ext v
      simp only [pagesOf, Set.mem_ofPred_eq, Set.mem_insert_iff]
      omega]
    exact codePage_fills filled member (by omega) window layout shares inside
  · refine forRange_yields (fun i mid => Filled start mid dirs dir len pagePhys (codePages len) (pagesOf (codePages len) i)) code ?_
    rintro i (less : i < 4) mid filled
    rw [show pagesOf (codePages len) (i + 1) = insert (2047 - i) (pagesOf (codePages len) i) by
      ext v
      simp only [pagesOf, Set.mem_ofPred_eq, Set.mem_insert_iff]
      omega]
    exact stackPage_fills filled member less (by omega)

theorem Filled.sees {source : Source} {before : Memory}
    (filled : Filled start mm dirs dir source.len pagePhys (codePages source.len) (pagesOf (codePages source.len) userStackPages))
    (member : dir ∈ dirs) (short : codePages source.len ≤ 1020)
    (located : ∀ j < source.len, pagePhys (j / 4096) + j % 4096 = source.byte j)
    (asides : ∀ j < source.len, Detached start dirs (source.byte j / 4096))
    (kept : ∀ j < source.len, start.mem (source.byte j) = before (source.byte j))
    (covered : ∀ j < source.len, (source.range j).Covers (source.byte j)) : SeesCode before mm.mem dir source := by
  obtain ⟨space, placed, isPages, content⟩ := filled.spaced
  have there : ∀ v ∈ pagesOf (codePages source.len) userStackPages, ∃ f, space v = some f := fun v within =>
    Option.ne_none_iff_exists'.mp ((isPages v).mpr within)
  have whole : source.len ≤ codePages source.len * 4096 := by unfold codePages; omega
  have code : ∀ j < codePages source.len * 4096, ∃ f, space (1024 + j / 4096) = some f ∧
      translate mm.mem dir (userCodeBase + j) = some { phys := f * 4096 + j % 4096, user := true, writable := true } ∧
      mm.mem (f * 4096 + j % 4096) = programByte start.mem source.len pagePhys j := by
    intro j less
    obtain ⟨f, here⟩ := there (1024 + j / 4096) (.inl (by omega))
    have page : (userCodeBase + j) / 4096 = 1024 + j / 4096 := by simp only [userCodeBase]; omega
    have low : userCodeBase + j < kernelVma := by simp only [userCodeBase, kernelVma]; omega
    have walked := placed.translate_some member low (by rw [page, here])
    have filledHere := content (j / 4096) (by omega) f here (j % 4096) (by omega)
    rw [show (userCodeBase + j) % 4096 = j % 4096 by simp only [userCodeBase]; omega] at walked
    rw [show j / 4096 * 4096 + j % 4096 = j by omega] at filledHere
    exact ⟨f, here, walked, filledHere⟩
  have reached : ∀ va < 2 ^ 32, ∀ t, translate mm.mem dir va = some t → t.user = true →
      ∃ f, space (va / 4096) = some f ∧ t.phys / 4096 = f := by
    intro va inside t walked user'
    have low := (placed.evolves.layout.reaches member inside walked user').1
    cases here : space (va / 4096) with
    | none => cases walked.symm.trans (placed.translate_none member low here)
    | some f =>
      cases walked.symm.trans (placed.translate_some member low here)
      exact ⟨f, rfl, by dsimp only; omega⟩
  refine ⟨fun j less => ?_, fun j past less => ?_, fun i less => ?_, fun va inside t walked user' => ?_,
    fun va inside t walked user' j less => ?_, covered⟩
  · obtain ⟨f, _, walked, byte⟩ := code j (by omega)
    rw [programByte, if_pos less, located j less, kept j less] at byte
    rw [userByte, walked, Option.bind_some, if_pos rfl, byte]
  · obtain ⟨f, _, walked, byte⟩ := code j less
    rw [programByte, if_neg (by omega)] at byte
    rw [userByte, walked, Option.bind_some, if_pos rfl, byte]
  · have page : stackBase i / 4096 = 2047 - i := by
      simp only [userStackPages] at less
      simp only [stackBase, userStackTop]
      omega
    simp only [userStackPages] at less
    obtain ⟨g, here⟩ := there (2047 - i) (.inr (by simp only [userStackPages]; omega))
    have low : stackBase i < kernelVma := by simp only [stackBase, userStackTop, kernelVma]; omega
    have walked := placed.translate_some member low (by rw [page, here])
    refine ⟨_, walked, rfl, rfl, fun j below => ?_⟩
    obtain ⟨f, there', walked', _⟩ := code j below
    refine ⟨by rw [page]; simp only [userCodeBase]; omega, fun c found => ?_⟩
    cases walked'.symm.trans found
    intro same
    dsimp only at same
    have frames : f = g := by omega
    have pages := placed.once _ _ f there' (frames ▸ here)
    omega
  · obtain ⟨f, here, _⟩ := reached va inside t walked user'
    have within := (isPages _).mp (Option.ne_none_iff_exists'.mpr ⟨f, here⟩)
    rcases within with isCode | isStack
    · exact .inl ⟨va - userCodeBase, by simp only [userCodeBase]; omega, by simp only [userCodeBase]; omega⟩
    · simp only [userStackPages] at isStack ⊢
      exact .inr ⟨2047 - va / 4096, by omega, by simp only [stackBase, userStackTop]; omega⟩
  · obtain ⟨f, here, frame⟩ := reached va inside t walked user'
    rw [frame]
    intro same
    exact (asides j less).1 (same ▸ (placed.fresh _ f here).1)

end Passes

end Building

/-! ## The new task -/

section Spawning
variable {p : Platform} {k : Kernel} {dirs : Set Nat}

variable {dir len self : Nat} {k' : Kernel} {source : Source} {t task : Task} {grants : List Span}

theorem Loader.Endowed.table (endowed : Endowed k k' t) {slot : UInt32} {node : Nat}
    (named : CSpace.get t.cspace slot = some node) : slot = 1 ∧
      ∃ endpoint, k.loader.nameserviceEndpoint = some endpoint ∧ resolve k'.caps node = some (.endpoint endpoint, 0) := by
  cases endowed with
  | bare _ slots _ =>
    rw [slots, CSpace.get] at named
    cases at' : slot.toNat with
    | zero => simp [at'] at named
    | succ n => simp [at'] at named
  | @nameservice endpoint known slots caps =>
    rw [slots, CSpace.get] at named
    cases at' : slot.toNat with
    | zero => simp [at'] at named
    | succ n =>
      cases n with
      | zero =>
        simp only [at', Nat.zero_add, List.getElem?_cons_succ, List.getElem?_cons_zero, Option.join_some,
          Option.some.injEq] at named
        refine ⟨UInt32.toNat_inj.mp at', endpoint, known, ?_⟩
        rw [← named, caps, resolve, List.getElem?_concat_length]
        rfl
      | succ n => simp [at'] at named

private theorem spawnWithCodePages_sees (laid : Laid p k dirs) (booked : k.Booked) (shares : k.cr3 ∈ dirs ∨ k.cr3 = k.mm.image.bootDir)
    (source : Source) (pagePhys : Nat → Nat) (located : ∀ j < source.len, pagePhys (j / 4096) + j % 4096 = source.byte j)
    (inside : ∀ j < source.len, source.byte j / 4096 < k.mm.frames.frameCount ∧ Detached k.mm dirs (source.byte j / 4096))
    (covered : ∀ j < source.len, (source.range j).Covers (source.byte j)) (short : codePages source.len ≤ 1020)
    (room : k.mm.image.stackFits k.nextId = true) (enough : framesNeeded source.len ≤ freeCount k.mm.frames) :
    ∃ k' t, spawnWithCodePages k source.len pagePhys source.ports = .ok (some k.nextId, k') ∧
      k'.sched.lookup k.nextId = some t ∧ Sees k k' source t := by
  have reads : ∀ mm dirs', dirs ⊆ dirs' → Layout mm dirs' → Grows k.mm mm dirs dirs' → ∀ i, Readable mm.mem k.cr3 source.len pagePhys i := by
    intro mm dirs' more layout' grows i
    refine readable_of_window layout' (laid.window.grow laid.layout layout' grows) ?_ fun j less code => ?_
    · rw [grows.image]
      exact shares.imp_left fun member => more member
    · have here := (inside _ code).1
      rwa [← located _ code, show (i * 4096 + j) / 4096 = i by omega, show (i * 4096 + j) % 4096 = j by omega, ← grows.count] at here
  have readable := reads k.mm dirs subset_rfl laid.layout (.refl k.mm dirs)
  have outcome := spawnWithCodePages_yields laid booked.fresh (fun dir mid mm made builds i => by
    have grows := (newDirectory_evolves laid.layout made).trans builds.evolves
    exact iff_of_true (reads mm _ (Set.subset_insert dir dirs) grows.layout grows.grows i) (readable i)) source.ports
  cases ran : spawnWithCodePages k source.len pagePhys source.ports with
  | error reason =>
    rcases (outcome.of_error ran).why with isOut | ⟨_, full⟩ | ⟨i, _, unreadable⟩
    · have needed := framesNeeded_eq source.len
      exact absurd ((outcome.of_error ran).frames.mp isOut) (not_endsAtTable (by omega) (by omega))
    · rw [room] at full
      cases full
    · exact absurd (readable i) unreadable
  | ok out =>
    obtain ⟨spawned, k'⟩ := out
    obtain rfl : spawned = some k.nextId := (outcome.of_ok ran).enough enough
    obtain ⟨dir, mid, made, ⟨_, _, none, _⟩ | ⟨built, _, t, admitted, own, _, given, endowed⟩⟩ := spawnWithCodePages_eq_ok booked.fresh ran
    · cases none
    have fresh := newDirectory_evolves laid.layout made
    have avoids := newDirectory_avoids laid.layout made
    have reading : k.cr3 ∈ insert dir dirs ∨ k.cr3 = mid.image.bootDir := by
      rw [fresh.grows.image]
      exact shares.imp_left (Set.mem_insert_of_mem dir)
    have within : ∀ j < source.len, (pagePhys (j / 4096) + j % 4096) / 4096 < mid.frames.frameCount ∧
        Detached mid (insert dir dirs) ((pagePhys (j / 4096) + j % 4096) / 4096) := by
      intro j less
      rw [located j less, fresh.grows.count]
      exact ⟨(inside j less).1, avoids.stays _ (inside j less).2⟩
    have filled := (buildPages_fills fresh.layout (laid.window.grow laid.layout fresh.layout fresh.grows)
      (Set.mem_insert dir dirs) (fun i low => newDirectory_empty laid.layout made low) reading within short).of_ok built
    refine ⟨k', t, rfl, ?_, ?_, fun slot node named => endowed.table named, given⟩
    · rw [admitted.sched, Scheduler.lookup_spawn, booked.fresh, admitted.id, if_pos rfl, Option.none_or]
    · rw [own]
      exact filled.sees (Set.mem_insert dir dirs) short located (fun j less => avoids.stays _ (inside j less).2)
        (fun j less => avoids.bytes _ (inside j less).2) covered

/-! ## The ways to load a program -/

private theorem spawnFromModule_sees (laid : Laid p k dirs) (booked : k.Booked) (shares : k.cr3 ∈ dirs ∨ k.cr3 = k.mm.image.bootDir)
    (ports : List UInt16) {index : Nat} {m : Multiboot.Module}
    (found : Multiboot.module k.mm.mem k.cr3 p.info index = .ok (some m)) (has : p.HasModule m) (short : codePages (m.stop - m.start) ≤ 1020)
    (room : k.mm.image.stackFits k.nextId = true) (enough : framesNeeded (m.stop - m.start) ≤ freeCount k.mm.frames) :
    ∃ k' t, spawnFromModule k index ports = .ok (some k.nextId, k') ∧ k'.sched.lookup k.nextId = some t ∧
      Sees k k' (.ofModule m ports) t := by
  have ordered : m.start ≤ m.stop := by
    obtain ⟨_, _, _, _, ordered, _⟩ := has
    exact ordered
  have inside : ∀ j < m.stop - m.start, (m.start + j) / 4096 < k.mm.frames.frameCount ∧ Detached k.mm dirs ((m.start + j) / 4096) :=
    fun j less => laid.modules m has (m.start + j) (by omega) (by omega)
  have bounded := laid.layout.bounded
  -- the addresses of a module do not wrap, and neither does its length
  have located : ∀ j < m.stop - m.start, (m.start + j / 4096 * 4096) % 2 ^ 32 + j % 4096 = m.start + j := by
    intro j less
    have := (inside j less).1
    omega
  have length : (m.stop + 2 ^ 32 - m.start) % 2 ^ 32 = m.stop - m.start := by
    rcases Nat.eq_or_lt_of_le ordered with same | less
    · omega
    · have := (inside (m.stop - m.start - 1) (by omega)).1
      omega
  have covered : ∀ j < m.stop - m.start, (⟨m.start, m.stop - m.start⟩ : Span).Covers (m.start + j) := fun j less =>
    ⟨Nat.le_add_right _ _, Nat.add_lt_add_left less _⟩
  obtain ⟨k', t, ran, rest⟩ := spawnWithCodePages_sees laid booked shares (.ofModule m ports)
    (fun i => (m.start + i * 4096) % 2 ^ 32) located inside covered short room enough
  refine ⟨k', t, ?_, rest⟩
  unfold spawnFromModule
  rw [laid.info]
  refine bind_eq_ok.mpr ⟨some m, found, ?_⟩
  dsimp only
  rw [length]
  exact ran

theorem Laid.inside (laid : Laid p k dirs) {a : Nat} (data : DataFrame k.mm dirs a) : a / 4096 < k.mm.frames.frameCount := by
  rcases data.owned with video | out
  · rw [video]
    exact laid.video
  · exact (laid.layout.handed _ out).2

/-- A grant has a whole page at least. -/
theorem Laid.page (laid : Laid p k dirs) {node base size : Nat} {w : Bool} {badge : UInt32}
    (live : resolve k.caps node = some (.memoryGrant base size w, badge)) : 4096 ≤ size ∧ DataFrame k.mm dirs base := by
  obtain ⟨entry, found, _, kind, _⟩ := resolve_eq_some_iff.mp live
  obtain ⟨whole, data⟩ := laid.grants node entry found _ _ _ kind
  have first := data 0 (Nat.lt_of_lt_of_le (by decide) whole)
  rw [Nat.zero_mul, Nat.add_zero] at first
  exact ⟨whole, first⟩

private theorem spawnFromMemory_sees (laid : Laid p k dirs) (booked : k.Booked) (shares : k.cr3 ∈ dirs ∨ k.cr3 = k.mm.image.bootDir)
    (granted : ∀ g ∈ grants, ∃ node w badge,
      resolve k.caps node = some (.memoryGrant g.start g.size w, badge)) (named : grants ≠ []) (nonempty : len ≠ 0)
    (fits : len ≤ grants.length * 4096) (short : codePages len ≤ 1020) (room : k.mm.image.stackFits k.nextId = true)
    (enough : framesNeeded len ≤ freeCount k.mm.frames) :
    ∃ k' t, Loader.spawnFromMemory k (grants.map Span.start) len = .ok (some k.nextId, k') ∧ k'.sched.lookup k.nextId = some t ∧
      Sees k k' (.ofGrants grants len) t := by
  have page : ∀ j < len, ∃ g, grants[j / 4096]? = some g ∧ 4096 ≤ g.size ∧ DataFrame k.mm dirs g.start := by
    intro j less
    obtain ⟨g, here⟩ : ∃ g, grants[j / 4096]? = some g := ⟨_, List.getElem?_eq_getElem (by omega)⟩
    obtain ⟨node, w, badge, live⟩ := granted g (List.mem_of_getElem? here)
    exact ⟨g, here, laid.page live⟩
  have located : ∀ j < len, (grants.map Span.start).getD (j / 4096) 0 + j % 4096 = (grants.getD (j / 4096) ⟨0, 0⟩).start + j % 4096 := by
    intro j less
    obtain ⟨g, here, _⟩ := page j less
    rw [List.getD_eq_getElem?_getD, List.getElem?_map, List.getD_eq_getElem?_getD, here]
    rfl
  have inside : ∀ j < len, ((grants.getD (j / 4096) ⟨0, 0⟩).start + j % 4096) / 4096 < k.mm.frames.frameCount ∧
      Detached k.mm dirs (((grants.getD (j / 4096) ⟨0, 0⟩).start + j % 4096) / 4096) := by
    intro j less
    obtain ⟨g, here, _, data⟩ := page j less
    have aligned := data.aligned
    rw [List.getD_eq_getElem?_getD, here, Option.getD_some, show (g.start + j % 4096) / 4096 = g.start / 4096 by omega]
    exact ⟨laid.inside data, data.detached⟩
  have covered : ∀ j < len, (grants.getD (j / 4096) ⟨0, 0⟩).Covers ((grants.getD (j / 4096) ⟨0, 0⟩).start + j % 4096) := by
    intro j less
    obtain ⟨g, here, whole, _⟩ := page j less
    rw [List.getD_eq_getElem?_getD, here, Option.getD_some]
    exact ⟨Nat.le_add_right _ _, by omega⟩
  obtain ⟨k', t, ran, rest⟩ := spawnWithCodePages_sees laid booked shares (.ofGrants grants len)
    (fun i => (grants.map Span.start).getD i 0) located inside covered short room enough
  refine ⟨k', t, ?_, rest⟩
  unfold Loader.spawnFromMemory
  rw [if_neg]
  · exact ran
  · simp only [Bool.or_eq_true, List.isEmpty_iff, List.map_eq_nil_iff, beq_iff_eq, decide_eq_true_eq, List.length_map]
    rintro ((none | zero) | more)
    · exact named none
    · exact nonempty zero
    · omega

/-! ## Calls -/

theorem cr3_arrive (current : k.sched.current = some self) (found : k.sched.lookup self = some task)
    (regs : SavedRegs) : (arrive k self regs).cr3 = k.cr3 := by
  rw [Kernel.cr3, Kernel.cr3, current_arrive, current, Option.bind_some, Option.bind_some, lookup_arrive, found]
  rfl

theorem held_of_mem {slots : List UInt32} (held : List.Forall₂ (HoldsGrant k self) slots grants)
    {g : Span} (member : g ∈ grants) : ∃ slot, HoldsGrant k self slot g := by
  induction held with
  | nil => cases member
  | cons first _ ih =>
    rcases List.mem_cons.mp member with rfl | later
    · exact ⟨_, first⟩
    · exact ih later

theorem resolveGrants_held (current : k.sched.current = some self)
    (found : k.sched.lookup self = some task) (regs : SavedRegs) {slots : List UInt32}
    (held : List.Forall₂ (HoldsGrant k self) (slots.takeWhile (· ≠ 0)) grants) :
    Syscall.resolveGrants (arrive k self regs) slots = .ok (some (grants.map Span.start)) := by
  induction slots generalizing grants with
  | nil =>
    cases held
    rfl
  | cons slot rest ih =>
    unfold Syscall.resolveGrants
    by_cases zero : slot = 0
    · rw [if_pos zero]
      simp only [List.takeWhile_cons, zero, ne_eq, not_true_eq_false, decide_false, Bool.false_eq_true, if_false] at held
      cases held
      rfl
    · rw [if_neg zero]
      simp only [List.takeWhile_cons, ne_eq, zero, not_false_eq_true, decide_true, if_true] at held
      cases held with
      | @cons _ grant _ more first later =>
        obtain ⟨node, w, badge, ⟨task', found', named⟩, live⟩ := first
        cases found.symm.trans found'
        refine bind_eq_ok.mpr ⟨_, resolveCurrentCap_arrive_eq current found slot, ?_⟩
        rw [named, Option.bind_some, live]
        exact bind_eq_ok.mpr ⟨_, ih later, rfl⟩

theorem Sees.answered (sees : Sees k k' source t)
    (found : k'.sched.lookup k.nextId = some t) (other : k.nextId ≠ self) (value : UInt32) :
    (Syscall.setEax k' self value).sched.lookup k.nextId = some t ∧ Sees k (Syscall.setEax k' self value) source t := by
  have kept := k'.sched.lookup_writeRegs self (Ipc.setEax value) k.nextId
  rw [if_neg other] at kept
  exact ⟨kept.trans found, sees.memory, sees.table, sees.ports⟩

/-- The calls that take frames, as they are dispatched. -/
theorem step_takesFrames (current : k.sched.current = some self) (regs : SavedRegs) :
    (regs.eax = Syscall.sysMemAlloc → step k (.syscall regs) = Syscall.memAlloc (arrive k self regs) self regs) ∧
      (regs.eax = Syscall.sysMapMemory → step k (.syscall regs) = Syscall.sysMap (arrive k self regs) self regs) ∧
      (regs.eax = Syscall.sysCreateTask → step k (.syscall regs) = Syscall.createTask (arrive k self regs) self regs) ∧
      (regs.eax = Syscall.sysSpawnFromMemory → step k (.syscall regs) = Syscall.spawnFromMemory (arrive k self regs) self regs) := by
  refine ⟨?_, ?_, ?_, ?_⟩ <;> intro number <;> show Syscall.dispatch k regs = _ <;> rw [Syscall.dispatch, current] <;>
    dsimp only <;> repeat rw [if_neg (by rw [number]; decide)]
  all_goals
    rw [if_pos number]
    rfl

/-- The state in which a system call is served, for the purposes of the loader. -/
structure Arrived (p : Platform) (k : Kernel) (dirs : Set Nat) (caller : Nat) (regs : SavedRegs) : Prop where
  current : k.sched.current = some caller
  found : ∃ task, k.sched.lookup caller = some task
  laid : Laid p (arrive k caller regs) dirs
  booked : (arrive k caller regs).Booked
  shares : (arrive k caller regs).cr3 ∈ dirs ∨ (arrive k caller regs).cr3 = k.mm.image.bootDir
  cr3 : (arrive k caller regs).cr3 = k.cr3
  other : k.nextId ≠ caller

theorem Laid.arrived (laid : Laid p k dirs) (booked : k.Booked) {regs : SavedRegs} (may : enabled k (.syscall regs) = true) :
    ∃ self, Arrived p k dirs self regs := by
  obtain ⟨self, task, current, found, cr3, member⟩ := laid.runner may
  have same := cr3_arrive current found regs
  refine ⟨self, current, ⟨task, found⟩, laid.still rfl (sameTasks_arrive k self regs) laid.grants rfl, ?_, ?_, same, ?_⟩
  · exact booked.quiet (.writeRegs k.sched self fun _ => regs) (sameTasks_arrive k self regs) rfl rfl
  · exact .inl (same.symm ▸ cr3 ▸ member)
  · intro equal
    rw [← equal, booked.fresh] at found
    cases found

private theorem loads_program {h : List Record} {a : Action} (wiring : Wiring p h k) (loads : Loads p k a source)
    (short : codePages source.len ≤ 1020) (room : k.mm.image.stackFits k.nextId = true)
    (enough : framesNeeded source.len ≤ freeCount k.mm.frames) : LoadsProgram k a source := by
  obtain ⟨dirs, laid⟩ := wiring.laid
  have booked := wiring.booked
  cases loads with
  | @boot index ports m early found has =>
    have shares : k.cr3 = k.mm.image.bootDir := by rw [Kernel.cr3, early, Option.bind_none]
    obtain ⟨k', t, ran, new, sees⟩ := spawnFromModule_sees laid booked (.inr shares) ports found has short room enough
    refine ⟨k', t, ?_, new, sees⟩
    simp only [Action.perform, BootCall.run, ran, bind, Except.bind]
    rfl
  | @createTask regs m may number found has =>
    obtain ⟨self, arrived⟩ := laid.arrived booked may
    rw [← arrived.cr3] at found
    obtain ⟨k', t, ran, new, sees⟩ := spawnFromModule_sees arrived.laid arrived.booked arrived.shares []
      found has short room enough
    obtain ⟨new', sees'⟩ := sees.answered new arrived.other (UInt32.ofNat k.nextId)
    refine ⟨_, t, ?_, new', ⟨sees'.memory, sees'.table, sees'.ports⟩⟩
    exact ((step_takesFrames arrived.current regs).2.2.1 number).trans (bind_eq_ok.mpr ⟨_, ran, rfl⟩)
  | @memory regs self grants may current number held named nonempty fits =>
    obtain ⟨self', arrived⟩ := laid.arrived booked may
    cases current.symm.trans arrived.current
    obtain ⟨task, found⟩ := arrived.found
    have granted : ∀ g ∈ grants, ∃ node w badge,
        resolve (arrive k self regs).caps node = some (.memoryGrant g.start g.size w, badge) := by
      intro g member
      obtain ⟨slot, node, w, badge, _, live⟩ := held_of_mem held member
      exact ⟨node, w, badge, live⟩
    obtain ⟨k', t, ran, new, sees⟩ := spawnFromMemory_sees arrived.laid arrived.booked arrived.shares granted named
      (fun zero => nonempty (UInt32.toNat_inj.mp zero)) fits short room enough
    obtain ⟨new', sees'⟩ := sees.answered new arrived.other (UInt32.ofNat k.nextId)
    refine ⟨_, t, ?_, new', ⟨sees'.memory, sees'.table, sees'.ports⟩⟩
    refine ((step_takesFrames arrived.current regs).2.2.2 number).trans ?_
    exact bind_eq_ok.mpr ⟨_, resolveGrants_held current found regs held, bind_eq_ok.mpr ⟨_, ran, rfl⟩⟩

theorem SeesCode.short {before after : Memory} (sees : SeesCode before after dir source) :
    codePages source.len ≤ 1020 := by
  by_contra long
  obtain ⟨_, _, _, _, apart⟩ := sees.stack 3 (by decide)
  exact (apart (1020 * 4096) (by omega)).1 rfl

end Spawning

/-- With frames enough and room for its kernel stack, a program of a module or of grants is loaded and sees what it is to
    see exactly if its code leaves room for the stack below 8 MiB. -/
theorem program_seen_iff {p : Platform} {h : List Record} {k : Kernel} {a : Action} {source : Source} (wiring : Wiring p h k)
    (loads : Loads p k a source) (enough : framesNeeded source.len ≤ freeCount k.mm.frames)
    (room : k.mm.image.stackFits k.nextId = true) : LoadsProgram k a source ↔ codePages source.len ≤ 1020 := by
  constructor
  · rintro ⟨k', t, ran, new, sees⟩
    exact sees.memory.short
  · exact fun short => loads_program wiring loads short room enough

/-! ## Two machines with one module -/

def moduleWords (memUpper start stop : Nat) : List (Nat × Nat) :=
  [(0xA000, 9), (0xA008, memUpper), (0xA014, 1), (0xA018, 0xA100), (0xA100, start), (0xA104, stop)]

private theorem moduleWords_blank (memUpper start stop : Nat) {a : Nat} (low : 0x100000 ≤ a) :
    (moduleWords memUpper start stop).foldl (fun m w => write32 m w.1 w.2) (fun _ => 0) a = 0 := by
  simp only [moduleWords, List.foldl]
  iterate 6 rw [write32_apply_other _ _ _ (by omega)]

/-- The module lies at `start`, in memory that ends `memUpper` KiB above the first megabyte. -/
def moduleMachine (memUpper start stop : Nat) : Platform where
  image := smallImage
  mem := (moduleWords memUpper start stop).foldl (fun m w => write32 m w.1 w.2) fun _ => 0
  info := 0xA000
  nic := none
  blank := fun _ low _ => moduleWords_blank memUpper start stop low
  addressable := by decide

/-- The machine finds the module, and `count` frames from `first` on are free and not those of the module. -/
def finds (p : Platform) (m : Multiboot.Module) (first count : Nat) : Bool :=
  match p.probed with
  | .ok mm =>
    (match Multiboot.moduleCount mm.mem mm.image.bootDir p.info, Multiboot.module mm.mem mm.image.bootDir p.info 0 with
      | .ok 1, .ok (some found) => found == m
      | _, _ => false) &&
    decide (m.start < m.stop ∧ m.stop ≤ mm.frames.frameCount * 4096 ∧ first + count ≤ m.start / 4096) &&
    (List.range' first count).all fun g => !mm.frames.isUsed g
  | _ => false

private theorem freeCount_ge {bm : Bitmap} {first count : Nat} (free : ∀ g ∈ List.range' first count, g ∈ freeFrames bm) :
    count ≤ freeCount bm := by
  have sub := (List.nodup_range' 1 : (List.range' first count).Nodup).subperm free
  have le := sub.length_le
  rwa [List.length_range'] at le

private theorem finds_loads {p : Platform} {m : Multiboot.Module} {first count : Nat} (found : finds p m first count = true) :
    ∃ k, Wiring p [] k ∧ Loads p k (.boot (.spawn 0 [])) (.ofModule m []) ∧ count ≤ freeCount k.mm.frames ∧
      k.mm.image = p.image ∧ k.nextId = 1 := by
  unfold finds at found
  cases probed : p.probed with
  | error reason =>
    rw [probed] at found
    cases found
  | ok mm =>
    rw [probed] at found
    simp only [Bool.and_eq_true, decide_eq_true_eq, List.all_eq_true] at found
    obtain ⟨⟨table, ordered, inMemory, below⟩, free⟩ := found
    split at table
    · rename_i this counted listed
      rw [beq_iff_eq.mp table] at listed
      have has : p.HasModule m := ⟨mm, 0, probed, listed, Nat.le_of_lt ordered, inMemory⟩
      have up := bringUp_one probed counted listed
      obtain ⟨mm', _, probed', _, _, bare, _⟩ := bringUp_bare up
      cases probed.symm.trans probed'
      refine ⟨_, .bringUp up, .boot rfl listed has, ?_, bare.image, rfl⟩
      refine @freeCount_ge _ first _ fun g member => mem_freeFrames.mpr ?_
      have unused := free g member
      rw [List.mem_range'_1] at member
      have inside : g < mm.frames.frameCount := by omega
      have outside : ¬(m.start / 4096 ≤ g ∧ g < (m.stop + 4095) / 4096) := by omega
      refine ⟨inside, ?_⟩
      show (reserveRange mm.frames m.start m.stop).isUsed g = false
      rw [reserveRange_isUsed inside, decide_eq_false outside, Bool.false_or]
      exact (Bool.not_eq_true' _).mp unused
    · cases table

/-- A module of one page is loaded. -/
theorem small_program_seen : ∃ k, Wiring (moduleMachine 512 0x110000 0x110010) [] k ∧
    Loads (moduleMachine 512 0x110000 0x110010) k (.boot (.spawn 0 [])) (.ofModule ⟨0x110000, 0x110010⟩ []) ∧
    framesNeeded 16 ≤ freeCount k.mm.frames ∧ k.mm.image.stackFits k.nextId = true ∧
    LoadsProgram k (.boot (.spawn 0 [])) (.ofModule ⟨0x110000, 0x110010⟩ []) := by
  have found : finds (moduleMachine 512 0x110000 0x110010) ⟨0x110000, 0x110010⟩ 259 7 = true := by decide +kernel
  obtain ⟨k, wiring, loads, free, image, next⟩ := finds_loads found
  have enough : framesNeeded 16 ≤ freeCount k.mm.frames := Nat.le_trans (by decide) free
  have room : k.mm.image.stackFits k.nextId = true := by rw [image, next]; decide
  exact ⟨k, wiring, loads, enough, room, (program_seen_iff wiring loads enough room).mpr (by decide)⟩

/-- The last page of a module of 1021 pages is where the stack's lowest page is, and the program does not see it. -/
theorem large_program_overlaps : ∃ k, Wiring (moduleMachine 9216 0x600000 0x9FD000) [] k ∧
    Loads (moduleMachine 9216 0x600000 0x9FD000) k (.boot (.spawn 0 [])) (.ofModule ⟨0x600000, 0x9FD000⟩ []) ∧
    framesNeeded 0x3FD000 ≤ freeCount k.mm.frames ∧ k.mm.image.stackFits k.nextId = true ∧
    ¬LoadsProgram k (.boot (.spawn 0 [])) (.ofModule ⟨0x600000, 0x9FD000⟩ []) := by
  have found : finds (moduleMachine 9216 0x600000 0x9FD000) ⟨0x600000, 0x9FD000⟩ 300 1027 = true := by decide +kernel
  obtain ⟨k, wiring, loads, free, image, next⟩ := finds_loads found
  refine ⟨k, wiring, loads, Nat.le_trans (by decide) free, by rw [image, next]; decide, ?_⟩
  rintro ⟨k', t, ran, new, sees⟩
  exact absurd sees.memory.short (by decide)

end Pcern

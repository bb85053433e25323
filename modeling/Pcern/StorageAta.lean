import Mathlib.Logic.Function.Basic
import Pcern.Bytes
import Pcern.Libpcern
import Pcern.Loops

/-!
The ATA driver: `ata.rs` against a drive, and the requests of `main.rs`.

The drive is a register file, a sector buffer and a medium. What it reports to
a poll of its status port is not determined: a run is given the list of status
bytes of the polls to come, and a driver that polls once more than the list
allows has not returned (`StillPolling`). Every call that returns does so after
finitely many polls.
-/
namespace Pcern.StorageAta

open Bytes Loops

/-! ## The drive -/

abbrev portData : UInt16 := 0x1F0
abbrev portError : UInt16 := 0x1F1
abbrev portSectorCount : UInt16 := 0x1F2
abbrev portLbaLow : UInt16 := 0x1F3
abbrev portLbaMid : UInt16 := 0x1F4
abbrev portLbaHigh : UInt16 := 0x1F5
abbrev portDriveHead : UInt16 := 0x1F6
abbrev portStatus : UInt16 := 0x1F7
abbrev portCommand : UInt16 := 0x1F7

abbrev cmdReadSectors : UInt8 := 0x20
abbrev cmdWriteSectors : UInt8 := 0x30

abbrev statusErr : UInt8 := 0x01
abbrev statusDrq : UInt8 := 0x08
abbrev statusDf : UInt8 := 0x20
abbrev statusBsy : UInt8 := 0x80

abbrev sectorSize : Nat := 512

inductive Phase where
  | idle
  | reading
  | writing (address : Nat)
  deriving DecidableEq, Repr

/-- The drive. `position` counts the words of `buffer` that have passed the data port. -/
structure Drive where
  error : UInt8
  sectorCount : UInt8
  lbaLow : UInt8
  lbaMid : UInt8
  lbaHigh : UInt8
  driveHead : UInt8
  phase : Phase
  buffer : Memory
  position : Nat
  medium : Nat → Memory

namespace Drive

/-- The sector that the drive-head and the three LBA registers address. -/
def address (d : Drive) : Nat :=
  2 ^ 24 * (d.driveHead.toNat % 16) + 2 ^ 16 * d.lbaHigh.toNat + 2 ^ 8 * d.lbaMid.toNat + d.lbaLow.toNat

/-- A command is for this drive if the drive-head register selects the master and LBA mode. -/
def command (d : Drive) (cmd : UInt8) : Drive :=
  if d.driveHead &&& 0x50 ≠ 0x40 then d
  else if cmd = cmdReadSectors then { d with phase := .reading, buffer := d.medium d.address, position := 0 }
  else if cmd = cmdWriteSectors then { d with phase := .writing d.address, position := 0 }
  else d

def outb (d : Drive) (port : UInt16) (value : UInt8) : Drive :=
  if port = portSectorCount then { d with sectorCount := value }
  else if port = portLbaLow then { d with lbaLow := value }
  else if port = portLbaMid then { d with lbaMid := value }
  else if port = portLbaHigh then { d with lbaHigh := value }
  else if port = portDriveHead then { d with driveHead := value }
  else if port = portCommand then d.command value
  else d

def inw (d : Drive) : UInt16 × Drive :=
  match d.phase with
  | .reading => (UInt16.ofNat (read16 d.buffer (2 * d.position)), { d with position := d.position + 1 })
  | _ => (0xFFFF, d)

/-- A word for the data port. The last word of a sector stores the sector. -/
def outw (d : Drive) (word : UInt16) : Drive :=
  match d.phase with
  | .writing address =>
    let d := { d with buffer := write16 d.buffer (2 * d.position) word.toNat, position := d.position + 1 }
    if 2 * d.position = sectorSize then { d with phase := .idle, medium := Function.update d.medium address d.buffer }
    else d
  | _ => d

end Drive

/-- The drive and what it will report to the polls to come. -/
structure Machine where
  drive : Drive
  statuses : List UInt8

inductive StillPolling where
  | more
  deriving DecidableEq, Repr

/-! ## The driver -/

abbrev PortIo := StateT Machine (Except StillPolling)

def outb (port : UInt16) (value : UInt8) : PortIo Unit := fun m => .ok ((), { m with drive := m.drive.outb port value })

def inw : PortIo UInt16 := fun m => .ok (m.drive.inw.1, { m with drive := m.drive.inw.2 })

def outw (word : UInt16) : PortIo Unit := fun m => .ok ((), { m with drive := m.drive.outw word })

/-- The error register, which the driver reads and ignores. -/
def readError : PortIo UInt8 := fun m => .ok (m.drive.error, m)

/-- The first status that ends a polling loop, and the polls behind it. -/
def firstReady (ready : UInt8 → Bool) : List UInt8 → Option (UInt8 × List UInt8)
  | [] => none
  | status :: later => if ready status then some (status, later) else firstReady ready later

/-- A loop around `inb(PORT_STATUS)`. -/
def poll (ready : UInt8 → Bool) : PortIo UInt8 := fun m =>
  match firstReady ready m.statuses with
  | some (status, later) => .ok (status, { m with statuses := later })
  | none => .error .more

def notBusy (status : UInt8) : Bool := status &&& statusBsy == 0

def wantsData (status : UInt8) : Bool := status &&& statusBsy == 0 && status &&& statusDrq != 0

def waitNotBusy : PortIo UInt8 := poll notBusy

def times {β : Type} (count : Nat) (body : Nat → β → PortIo β) (start : β) : PortIo β := fun m =>
  forRange (fun i s => body i s.1 s.2) count (start, m)

/-- The upper four of the 28 address bits go with the drive number. -/
def issueCommand (lba : UInt32) (cmd : UInt8) : PortIo Unit := do
  let _ ← waitNotBusy
  outb portDriveHead ((0xE0 : UInt8) ||| ((lba >>> 24) &&& 0x0F).toUInt8)
  outb portSectorCount 1
  outb portLbaLow (lba &&& 0xFF).toUInt8
  outb portLbaMid ((lba >>> 8) &&& 0xFF).toUInt8
  outb portLbaHigh ((lba >>> 16) &&& 0xFF).toUInt8
  outb portCommand cmd

def readWord (i : Nat) (buf : Memory) : PortIo Memory := do
  let word ← inw
  return write8 (write8 buf (i * 2) (word &&& 0xFF).toUInt8) (i * 2 + 1) (word >>> 8).toUInt8

/-- The outcome of a read and the caller's buffer after it. -/
def readSector (lba : UInt32) (buf : Memory) : PortIo (Bool × Memory) := do
  issueCommand lba cmdReadSectors
  let status ← waitNotBusy
  if status &&& statusErr ≠ 0 ∨ status &&& statusDrq = 0 then
    let _ ← readError
    return (false, buf)
  let buf ← times (sectorSize / 2) readWord buf
  return (true, buf)

def writeWord (buf : Memory) (i : Nat) (_ : Unit) : PortIo Unit := do
  let _ ← poll wantsData
  outw ((buf (i * 2)).toUInt16 ||| ((buf (i * 2 + 1)).toUInt16 <<< 8))

def writeSector (lba : UInt32) (buf : Memory) : PortIo Bool := do
  issueCommand lba cmdWriteSectors
  let status ← waitNotBusy
  if status &&& statusErr ≠ 0 ∨ status &&& statusDf ≠ 0 then
    let _ ← readError
    return false
  times (sectorSize / 2) (writeWord buf) ()
  let status ← waitNotBusy
  if status &&& statusErr ≠ 0 ∨ status &&& statusDf ≠ 0 then
    let _ ← readError
    return false
  return true

/-! ## The requests -/

structure Server where
  bufMapped : Bool
  replySlot : UInt32
  deriving DecidableEq, Repr

/-- A message to the client: the slot it goes to and its first word. -/
structure Reply where
  slot : UInt32
  w0 : UInt32
  deriving DecidableEq, Repr

/-- One pass of the loop. `maps` is what `map_memory` makes of the transferred grant and `page` the content of the shared
    page, which a read changes. -/
def Server.handle (s : Server) (r : RecvResult) (maps : Bool) (page : Memory) :
    PortIo (Server × Memory × List Reply) :=
  if r.w0 = Libpcern.storageOpSetBuffer then
    return (if r.transferredSlot ≠ 0 ∧ maps then { s with bufMapped := true } else s, page, [])
  else if r.w0 = Libpcern.storageOpSetReply then
    return (if r.transferredSlot ≠ 0 then { s with replySlot := r.transferredSlot } else s, page, [])
  else if r.w0 = Libpcern.storageOpReadBlock then do
    if s.replySlot = 0 then return (s, page, [])
    if !s.bufMapped then return (s, page, [⟨s.replySlot, 0⟩])
    let (ok, page) ← readSector r.w1 page
    return (s, page, [⟨s.replySlot, if ok then 1 else 0⟩])
  else if r.w0 = Libpcern.storageOpWriteBlock then do
    if s.replySlot = 0 then return (s, page, [])
    if !s.bufMapped then return (s, page, [⟨s.replySlot, 0⟩])
    let ok ← writeSector r.w1 page
    return (s, page, [⟨s.replySlot, if ok then 1 else 0⟩])
  else return (s, page, [])

/-! ## What a command does -/

/-- The drive with the registers of a command. -/
def Drive.programmed (d : Drive) (lba : UInt32) : Drive :=
  { d with
    driveHead := (0xE0 : UInt8) ||| ((lba >>> 24) &&& 0x0F).toUInt8
    sectorCount := 1
    lbaLow := (lba &&& 0xFF).toUInt8
    lbaMid := ((lba >>> 8) &&& 0xFF).toUInt8
    lbaHigh := ((lba >>> 16) &&& 0xFF).toUInt8 }

theorem Drive.address_programmed (d : Drive) (lba : UInt32) : (d.programmed lba).address = lba.toNat % 2 ^ 28 := by
  have small := lba.toNat_lt
  have mask (k n : Nat) : n &&& (2 ^ k - 1) = n % 2 ^ k := Nat.and_two_pow_sub_one_eq_mod n k
  have byte (n : Nat) : n &&& 255 = n % 256 := mask 8 n
  have nibble (n : Nat) : n &&& 15 = n % 16 := mask 4 n
  have head (n : Nat) : (224 ||| n) % 16 = n % 16 := by
    have parts := Nat.or_mod_two_pow (a := 224) (b := n) (n := 4)
    simpa using parts
  simp only [programmed, address, UInt8.toNat_or, UInt32.toNat_toUInt8, UInt32.toNat_and, UInt32.toNat_shiftRight]
  simp [Nat.shiftRight_eq_div_pow, byte, nibble, head]
  omega

theorem Drive.selected_programmed (d : Drive) (lba : UInt32) : (d.programmed lba).driveHead &&& 0x50 = 0x40 := by
  have small : ((lba >>> 24) &&& 0x0F).toUInt8.toNat < 16 := by
    have nibble (n : Nat) : n &&& 15 = n % 16 := Nat.and_two_pow_sub_one_eq_mod n 4
    simp [nibble]
    omega
  simp only [programmed]
  obtain ⟨x, isX⟩ : ∃ x, ((lba >>> 24) &&& 0x0F).toUInt8 = x := ⟨_, rfl⟩
  rw [isX] at small ⊢
  have cases : ∀ n : Fin 16, ((0xE0 : UInt8) ||| UInt8.ofNat n) &&& 0x50 = 0x40 := by decide
  simpa using cases ⟨x.toNat, small⟩

variable {a b lba : UInt32} {m m' : Machine} {data : Memory}

private theorem poll_eq_ok {ready : UInt8 → Bool} {status : UInt8} (polled : poll ready m = .ok (status, m')) :
    firstReady ready m.statuses = some (status, m'.statuses) ∧ m'.drive = m.drive := by
  unfold poll at polled
  split at polled
  · rename_i found
    cases polled
    exact ⟨found, rfl⟩
  · cases polled

private theorem issueCommand_eq (lba : UInt32) (cmd : UInt8) (m : Machine) :
    issueCommand lba cmd m = (waitNotBusy m).map fun r => ((), ⟨(m.drive.programmed lba).command cmd, r.2.statuses⟩) := by
  unfold issueCommand
  cases waiting : waitNotBusy m with
  | error e =>
    show (waitNotBusy m >>= _) = _
    rw [waiting]
    rfl
  | ok r =>
    obtain ⟨status, m'⟩ := r
    have same : m'.drive = m.drive := (poll_eq_ok waiting).2
    show (waitNotBusy m >>= _) = _
    rw [waiting]
    cases m'
    cases same
    rfl

/-! ## The data port -/

private theorem low_byte (b : Memory) (a : Nat) : (UInt16.ofNat (read16 b a) &&& 0xFF).toUInt8 = b a := by
  have low := (b a).toNat_lt
  have high := (b (a + 1)).toNat_lt
  have byte (n : Nat) : n &&& 255 = n % 256 := Nat.and_two_pow_sub_one_eq_mod n 8
  apply UInt8.toNat_inj.mp
  simp [read16, byte]

private theorem high_byte (b : Memory) (a : Nat) : (UInt16.ofNat (read16 b a) >>> 8).toUInt8 = b (a + 1) := by
  have low := (b a).toNat_lt
  have high := (b (a + 1)).toNat_lt
  apply UInt8.toNat_inj.mp
  simp [read16, Nat.shiftRight_eq_div_pow]
  omega

private theorem word_of_bytes (low high : UInt8) :
    (low.toUInt16 ||| (high.toUInt16 <<< 8)).toNat = low.toNat + 2 ^ 8 * high.toNat := by
  have small := low.toNat_lt
  have small' := high.toNat_lt
  have shifted : (high.toUInt16 <<< 8).toNat = high.toNat <<< 8 := by
    simp [Nat.shiftLeft_eq]
    omega
  have apart := Nat.shiftLeft_add_eq_or_of_lt small high.toNat
  rw [UInt16.toNat_or, shifted, UInt8.toNat_toUInt16, Nat.or_comm, ← apart, Nat.shiftLeft_eq]
  omega

private theorem readWord_eq (i : Nat) (buf : Memory) (reading : m.drive.phase = .reading) :
    readWord i buf m =
      .ok (write8 (write8 buf (i * 2) (m.drive.buffer (2 * m.drive.position))) (i * 2 + 1)
          (m.drive.buffer (2 * m.drive.position + 1)),
        { m with drive := { m.drive with position := m.drive.position + 1 } }) := by
  rw [← low_byte m.drive.buffer (2 * m.drive.position), ← high_byte m.drive.buffer (2 * m.drive.position)]
  cases m with
  | mk drive statuses =>
    cases drive
    cases reading
    rfl

private theorem readWords_eq (buf : Memory) (reading : m.drive.phase = .reading) (fresh : m.drive.position = 0)
    (count : Nat) :
    times count readWord buf m =
      .ok (fun k => if k < 2 * count then m.drive.buffer k else buf k,
        { m with drive := { m.drive with position := count } }) := by
  induction count with
  | zero =>
    cases m with
    | mk drive statuses =>
      cases drive
      cases fresh
      rfl
  | succ n ih =>
    unfold times at ih ⊢
    rw [forRange, ih]
    refine (readWord_eq n _ (m := { m with drive := { m.drive with position := n } }) reading).trans ?_
    dsimp only
    congr 2
    funext k
    simp only [write8, Nat.mul_comm n 2]
    by_cases odd : k = 2 * n + 1
    · subst odd
      simp [show 2 * n + 1 < 2 * (n + 1) by omega]
    · by_cases even : k = 2 * n
      · subst even
        simp [show 2 * n < 2 * (n + 1) by omega]
      · have same : k < 2 * (n + 1) ↔ k < 2 * n := by omega
        simp [odd, even, same]

/-! ## Whole reads and writes -/

theorem Drive.command_read (d : Drive) (lba : UInt32) :
    (d.programmed lba).command cmdReadSectors =
      { d.programmed lba with phase := .reading, buffer := d.medium (lba.toNat % 2 ^ 28), position := 0 } := by
  rw [command, if_neg (by simpa using d.selected_programmed lba), if_pos rfl, address_programmed]
  rfl

theorem Drive.command_write (d : Drive) (lba : UInt32) :
    (d.programmed lba).command cmdWriteSectors =
      { d.programmed lba with phase := .writing (lba.toNat % 2 ^ 28), position := 0 } := by
  rw [command, if_neg (by simpa using d.selected_programmed lba), if_neg (by decide), if_pos rfl, address_programmed]

/-- What a read makes of the reported status bytes. -/
def readVerdict (statuses : List UInt8) : Option Bool :=
  (firstReady notBusy statuses).bind fun first =>
    (firstReady notBusy first.2).map fun second =>
      !decide (second.1 &&& statusErr ≠ 0 ∨ second.1 &&& statusDrq = 0)

private theorem waitNotBusy_eq (m : Machine) :
    waitNotBusy m = match firstReady notBusy m.statuses with
      | some (status, later) => .ok (status, { m with statuses := later })
      | none => .error .more := rfl

private theorem bind_apply {α β : Type} (x : PortIo α) (f : α → PortIo β) (m : Machine) :
    (x >>= f) m = x m >>= fun r => f r.1 r.2 := rfl

private theorem readSector_eq (lba : UInt32) (buf : Memory) (m : Machine) :
    (readSector lba buf m).map Prod.fst = match readVerdict m.statuses with
      | none => .error .more
      | some false => .ok (false, buf)
      | some true => .ok (true, fun k => if k < sectorSize then m.drive.medium (lba.toNat % 2 ^ 28) k else buf k) := by
  simp only [readSector, bind_apply, issueCommand_eq, waitNotBusy_eq m, readVerdict]
  cases firstReady notBusy m.statuses with
  | none => rfl
  | some first =>
    simp only [Except.map, Option.bind_some, waitNotBusy_eq]
    show Except.map Prod.fst (waitNotBusy ⟨_, first.2⟩ >>= _) = _
    rw [waitNotBusy_eq]
    dsimp only
    cases firstReady notBusy first.2 with
    | none => rfl
    | some second =>
      show Except.map Prod.fst ((if _ then _ else _ : PortIo _) _) = _
      by_cases refused : second.1 &&& statusErr ≠ 0 ∨ second.1 &&& statusDrq = 0
      · simp only [if_pos refused, Option.map_some, decide_eq_true refused]
        rfl
      · simp only [if_neg refused, Option.map_some, decide_eq_false refused]
        rw [Drive.command_read]
        rw [bind_apply, readWords_eq buf rfl rfl]
        rfl

/-- Where a write stands when the drive has taken some words of the data: the last one stores the sector. -/
structure Taken (before : Drive) (address : Nat) (data : Memory) (count : Nat) (d : Drive) : Prop where
  position : d.position = count
  buffer : ∀ k < 2 * count, d.buffer k = data k
  stillOpen : 2 * count < sectorSize → d.phase = .writing address ∧ d.medium = before.medium
  stored : 2 * count = sectorSize → d.medium = Function.update before.medium address d.buffer

theorem Taken.outw {before d : Drive} {address n : Nat} (taken : Taken before address data n d)
    (more : 2 * n < sectorSize) :
    Taken before address data (n + 1)
      (d.outw ((data (n * 2)).toUInt16 ||| ((data (n * 2 + 1)).toUInt16 <<< 8))) := by
  obtain ⟨phase, medium⟩ := taken.stillOpen more
  have bytes : ∀ k < 2 * (n + 1),
      write16 d.buffer (2 * d.position) ((data (n * 2)).toUInt16 ||| ((data (n * 2 + 1)).toUInt16 <<< 8)).toNat k = data k := by
    intro k inside
    rw [word_of_bytes, taken.position, Nat.mul_comm n 2]
    have low := (data (2 * n)).toNat_lt
    have high := (data (2 * n + 1)).toNat_lt
    rcases Nat.lt_or_ge k (2 * n) with below | above
    · rw [write16_apply_other _ _ _ (.inl below)]
      exact taken.buffer k below
    · have last : k = 2 * n ∨ k = 2 * n + 1 := by omega
      apply UInt8.toNat_inj.mp
      rcases last with rfl | rfl
      · simp [write16]
      · simp [write16]
        omega
  simp only [Drive.outw, phase]
  split
  · rename_i full
    exact ⟨by simp [taken.position], bytes, fun short => by simp [taken.position] at full; omega, fun _ => by rw [medium]⟩
  · rename_i short
    refine ⟨by simp [taken.position], bytes, fun _ => ⟨rfl, medium⟩, fun full => ?_⟩
    simp only [taken.position] at short
    exact absurd full short

private theorem writeWord_eq_ok {i : Nat} {r : Unit × Machine}
    (wrote : writeWord data i () m = .ok r) :
    r.2.drive = m.drive.outw ((data (i * 2)).toUInt16 ||| ((data (i * 2 + 1)).toUInt16 <<< 8)) := by
  obtain ⟨polled, ready, sent⟩ := bind_eq_ok.mp ((bind_apply _ _ m).symm.trans wrote)
  cases sent
  rw [← (poll_eq_ok ready).2]

private theorem writeWords_stored {address : Nat} {r : Unit × Machine}
    (writing : m.drive.phase = .writing address) (fresh : m.drive.position = 0)
    (ran : times (sectorSize / 2) (writeWord data) () m = .ok r) :
    Taken m.drive address data (sectorSize / 2) r.2.drive := by
  refine forRange_invariant (fun n s => Taken m.drive address data n s.2.drive) ran ?_ ?_
  · exact ⟨fresh, by simp, fun _ => ⟨writing, rfl⟩, by simp⟩
  · intro i less t t' taken wrote
    rw [writeWord_eq_ok wrote]
    exact taken.outw (by simp only [sectorSize] at less ⊢; omega)

private theorem bind_ok {α β : Type} {x : PortIo α} {f : α → PortIo β} {r : β × Machine} :
    (x >>= f) m = .ok r ↔ ∃ s, x m = .ok s ∧ f s.1 s.2 = .ok r := by
  rw [bind_apply, bind_eq_ok]

private theorem writeSector_true (ran : writeSector lba data m = .ok (true, m')) :
    ∃ sector, (∀ k < sectorSize, sector k = data k) ∧
      m'.drive.medium = Function.update m.drive.medium (lba.toNat % 2 ^ 28) sector := by
  unfold writeSector at ran
  -- With the count in sight the unifier would run the loop.
  generalize isCount : sectorSize / 2 = count at ran
  obtain ⟨issued, isIssued, ran⟩ := bind_ok.mp ran
  obtain ⟨first, isFirst, ran⟩ := bind_ok.mp ran
  by_cases refused : first.1 &&& statusErr ≠ 0 ∨ first.1 &&& statusDf ≠ 0
  · rw [if_pos refused] at ran
    cases ran
  rw [if_neg refused] at ran
  obtain ⟨looped, isLooped, ran⟩ := bind_ok.mp ran
  obtain ⟨last, isLast, ran⟩ := bind_ok.mp ran
  by_cases failed : last.1 &&& statusErr ≠ 0 ∨ last.1 &&& statusDf ≠ 0
  · rw [if_pos failed] at ran
    cases ran
  rw [if_neg failed] at ran
  cases ran
  have isDrive : first.2.drive = (m.drive.programmed lba).command cmdWriteSectors := by
    rw [issueCommand_eq] at isIssued
    rw [(poll_eq_ok isFirst).2]
    cases waited : waitNotBusy m with
    | error e =>
      rw [waited] at isIssued
      cases isIssued
    | ok r =>
      rw [waited] at isIssued
      cases isIssued
      rfl
  rw [Drive.command_write] at isDrive
  subst isCount
  have taken := writeWords_stored (by rw [isDrive]) (by rw [isDrive]) isLooped
  refine ⟨looped.2.drive.buffer, fun k inside => taken.buffer k inside, ?_⟩
  rw [(poll_eq_ok isLast).2, taken.stored rfl, isDrive]
  rfl

/-! ## A drive that is always ready -/

/-- The status of a drive that waits for data or has some. -/
abbrev statusReady : UInt8 := statusDrq

private theorem firstReady_replicate {ready : UInt8 → Bool} (accepts : ready statusReady = true) (n : Nat) :
    firstReady ready (List.replicate (n + 1) statusReady) = some (statusReady, List.replicate n statusReady) := by
  simp [List.replicate_succ, firstReady, accepts]

private theorem writeWords_ready (data : Memory) (d : Drive) (count spare : Nat) :
    ∃ d', times count (writeWord data) () ⟨d, List.replicate (count + spare) statusReady⟩ =
      .ok ((), ⟨d', List.replicate spare statusReady⟩) := by
  induction count generalizing spare with
  | zero => exact ⟨d, by simp [times]⟩
  | succ n ih =>
    obtain ⟨d', ran⟩ := ih (spare + 1)
    refine ⟨d'.outw ((data (n * 2)).toUInt16 ||| ((data (n * 2 + 1)).toUInt16 <<< 8)), ?_⟩
    unfold times at ran ⊢
    rw [forRange, show n + 1 + spare = n + (spare + 1) by omega, ran]
    show writeWord data n () ⟨d', List.replicate (spare + 1) statusReady⟩ = _
    rw [writeWord, bind_apply, poll]
    dsimp only
    rw [firstReady_replicate (by decide)]
    rfl

private theorem waitNotBusy_ready (d : Drive) (n : Nat) :
    waitNotBusy ⟨d, List.replicate (n + 1) statusReady⟩ = .ok (statusReady, ⟨d, List.replicate n statusReady⟩) := by
  rw [waitNotBusy_eq]
  dsimp only
  rw [firstReady_replicate (by decide)]

/-- The statuses of a drive that is ready at every poll of one transfer. -/
def readyStatuses : List UInt8 := List.replicate (sectorSize / 2 + 3) statusReady

private theorem writeSector_ready (lba : UInt32) (data : Memory) (d : Drive) :
    ∃ m, writeSector lba data ⟨d, readyStatuses⟩ = .ok (true, m) := by
  unfold writeSector readyStatuses
  generalize sectorSize / 2 = count
  have fine : ¬(statusReady &&& statusErr ≠ 0 ∨ statusReady &&& statusDf ≠ 0) := by decide
  obtain ⟨d', looped⟩ := writeWords_ready data ((d.programmed lba).command cmdWriteSectors) count 1
  refine ⟨⟨d', []⟩, bind_ok.mpr ⟨((), ⟨(d.programmed lba).command cmdWriteSectors, _⟩), ?_, bind_ok.mpr
    ⟨(statusReady, ⟨_, _⟩), waitNotBusy_ready _ (count + 1), ?_⟩⟩⟩
  · rw [issueCommand_eq, waitNotBusy_ready]
    rfl
  · rw [if_neg fine]
    refine bind_ok.mpr ⟨_, looped, bind_ok.mpr ⟨_, waitNotBusy_ready d' 0, ?_⟩⟩
    rw [if_neg fine]
    rfl

private theorem readVerdict_ready : readVerdict readyStatuses = some true := by
  rw [readVerdict, readyStatuses, firstReady_replicate (by decide), Option.bind_some, firstReady_replicate (by decide)]
  rfl

/-! ## Addresses -/

def Expressible (lba : UInt32) : Prop := lba.toNat < 2 ^ 28

/-- Reads of sector `a` return what a successful write of it stored, and reads of `b` do not notice the write. -/
def Separate (a b : UInt32) : Prop :=
  ∀ (d : Drive) (statuses : List UInt8) (data : Memory) (m : Machine),
    writeSector a data ⟨d, statuses⟩ = .ok (true, m) →
      (∀ statuses' buf buf' m', readSector a buf ⟨m.drive, statuses'⟩ = .ok ((true, buf'), m') →
        ∀ k < sectorSize, buf' k = data k) ∧
      (b ≠ a → ∀ statuses' buf, (readSector b buf ⟨m.drive, statuses'⟩).map Prod.fst =
        (readSector b buf ⟨d, statuses'⟩).map Prod.fst)

/-- No request for this block address is answered with success. -/
def Refused (lba : UInt32) : Prop :=
  ∀ (s : Server) (r : RecvResult) (maps : Bool) (page : Memory) (m m' : Machine) (s' : Server) (page' : Memory)
    (replies : List Reply),
    r.w0 = Libpcern.storageOpReadBlock ∨ r.w0 = Libpcern.storageOpWriteBlock → r.w1 = lba →
      s.handle r maps page m = .ok ((s', page', replies), m') → ∀ reply ∈ replies, reply.w0 = 0

private theorem separate_of_distinct (apart : b ≠ a → b.toNat % 2 ^ 28 ≠ a.toNat % 2 ^ 28) : Separate a b := by
  intro d statuses data m wrote
  obtain ⟨sector, isData, medium⟩ := writeSector_true wrote
  dsimp only at medium
  constructor
  · intro statuses' buf buf' m' ran k inside
    have read := readSector_eq a buf ⟨m.drive, statuses'⟩
    rw [ran] at read
    dsimp only [Except.map] at read
    split at read
    · cases read
    · cases read
    · cases read
      rw [medium, Function.update_self]
      exact (if_pos inside).trans (isData k inside)
  · intro other statuses' buf
    rw [readSector_eq, readSector_eq]
    dsimp only
    rw [medium, Function.update_of_ne (apart other)]

def blankDrive : Drive where
  error := 0
  sectorCount := 0
  lbaLow := 0
  lbaMid := 0
  lbaHigh := 0
  driveHead := 0
  phase := .idle
  buffer := fun _ => 0
  position := 0
  medium := fun _ _ => 0

/-- Addresses that agree in their low 28 bits name one sector: a write through one shows through the other. -/
theorem write_shows (same : b.toNat % 2 ^ 28 = a.toNat % 2 ^ 28) (data buf : Memory) (d : Drive) :
    ∃ m buf', writeSector a data ⟨d, readyStatuses⟩ = .ok (true, m) ∧
      (readSector b buf ⟨m.drive, readyStatuses⟩).map Prod.fst = .ok (true, buf') ∧ ∀ k < sectorSize, buf' k = data k := by
  obtain ⟨m, wrote⟩ := writeSector_ready a data d
  obtain ⟨sector, isData, medium⟩ := writeSector_true wrote
  refine ⟨m, fun k => if k < sectorSize then m.drive.medium (b.toNat % 2 ^ 28) k else buf k, wrote, ?_, ?_⟩
  · rw [readSector_eq]
    dsimp only
    rw [readVerdict_ready]
  · intro k inside
    dsimp only at medium ⊢
    rw [if_pos inside, medium, same, Function.update_self, isData k inside]

theorem Server.handle_write {s : Server} (connected : s.bufMapped = true ∧ s.replySlot ≠ 0) {r : RecvResult}
    (writes : r.w0 = Libpcern.storageOpWriteBlock) (maps : Bool) (page : Memory) (m : Machine) :
    s.handle r maps page m =
      (writeSector r.w1 page m).map fun t => ((s, page, [⟨s.replySlot, if t.1 then 1 else 0⟩]), t.2) := by
  unfold handle
  rw [writes, if_neg (by decide), if_neg (by decide), if_neg (by decide), if_pos rfl, if_neg connected.2, connected.1]
  show (writeSector r.w1 page >>= _) m = _
  rw [bind_apply]
  cases writeSector r.w1 page m <;> rfl

private theorem not_refused (lba : UInt32) : ¬ Refused lba := by
  intro refused
  obtain ⟨m, wrote⟩ := writeSector_ready lba (fun _ => 0) blankDrive
  have answered := Server.handle_write (s := ⟨true, 1⟩) (r := ⟨0, Libpcern.storageOpWriteBlock, lba, 0, 0⟩) ⟨rfl, by decide⟩ rfl
    false (fun _ => 0) ⟨blankDrive, readyStatuses⟩
  rw [wrote] at answered
  have zero := refused _ _ _ _ _ _ _ _ _ (.inr rfl) rfl answered ⟨1, 1⟩ (by simp)
  exact absurd zero (by decide)

private theorem low28_eq_of_expressible (fits : Expressible lba) : lba.toNat % 2 ^ 28 = lba.toNat :=
  Nat.mod_eq_of_lt fits

/-- Sectors are kept apart, and addresses without a register encoding refused, for addresses of at most 28 bits and no
    others: the driver drops the upper four bits and serves the sector that the rest names. -/
theorem sectors_kept_apart_iff (a b : UInt32) :
    (Separate a b ∧ (¬ Expressible a → Refused a) ∧ (¬ Expressible b → Refused b)) ↔ Expressible a ∧ Expressible b := by
  constructor
  · rintro ⟨_, refusedA, refusedB⟩
    exact ⟨by_contra fun large => not_refused a (refusedA large), by_contra fun large => not_refused b (refusedB large)⟩
  · rintro ⟨fitsA, fitsB⟩
    refine ⟨separate_of_distinct fun other same => ?_, fun large => absurd fitsA large, fun large => absurd fitsB large⟩
    rw [low28_eq_of_expressible fitsA, low28_eq_of_expressible fitsB] at same
    exact other (UInt32.toNat_inj.mp same)

/-- A write to block `2 ^ 28` is taken and overwrites block 0. -/
theorem write_beyond_overwrites_first :
    ∃ m before after, writeSector 0x10000000 (fun _ => 0xFF) ⟨blankDrive, readyStatuses⟩ = .ok (true, m) ∧
      (readSector 0 (fun _ => 0) ⟨blankDrive, readyStatuses⟩).map Prod.fst = .ok (true, before) ∧ before 0 = 0 ∧
      (readSector 0 (fun _ => 0) ⟨m.drive, readyStatuses⟩).map Prod.fst = .ok (true, after) ∧ after 0 = 0xFF := by
  obtain ⟨m, after, wrote, read, isData⟩ :=
    write_shows (a := 0x10000000) (b := 0) (by decide) (fun _ => 0xFF) (fun _ => 0) blankDrive
  refine ⟨m, fun _ => 0, after, wrote, ?_, rfl, read, isData 0 (by decide)⟩
  rw [readSector_eq]
  dsimp only
  rw [readVerdict_ready]
  simp [blankDrive]

end Pcern.StorageAta

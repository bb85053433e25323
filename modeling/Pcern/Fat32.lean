import Pcern.Blocks
import Pcern.Bytes
import Pcern.Libpcern

/-!
The file system server, after `fs_fat32/src/main.rs`. Sector numbers, cluster numbers and sizes are 32-bit numbers,
kept below `2 ^ 32` by the operations that can wrap. `storage_buf` is always filled by a read before it is used, so a
sector travels as the result of its read; each write is labelled with what it is for.
-/
namespace Pcern.Fat32

open Bytes Blocks

abbrev sectorSize : Nat := 512
abbrev direntSize : Nat := 32
abbrev eocMin : Nat := 0x0FFFFFF8

def add32 (a b : Nat) : Nat := (a + b) % 2 ^ 32
def sub32 (a b : Nat) : Nat := (a + (2 ^ 32 - b)) % 2 ^ 32
def mul32 (a b : Nat) : Nat := a * b % 2 ^ 32

abbrev Sector := Memory
abbrev Disk := Nat → Sector

/-- What a sector is written for. -/
inductive Purpose where
  | fat
  | data
  | dirent
  | zero
  deriving DecidableEq, Repr

abbrev Io := Prog Purpose Nat Sector

/-- `Bpb`: where the volume has its tables and its clusters. -/
structure Bpb where
  sectorsPerCluster : Nat
  firstDataSector : Nat
  fatBeginSector : Nat
  fatSz32 : Nat
  rootCluster : Nat
  maxCluster : Nat
  deriving DecidableEq, Repr

def clusterToSector (bpb : Bpb) (cluster : Nat) : Nat :=
  add32 bpb.firstDataSector (mul32 (sub32 cluster 2) bpb.sectorsPerCluster)

def clusterSizeBytes (bpb : Bpb) : Nat := mul32 bpb.sectorsPerCluster sectorSize

/-- The place of a directory entry on the disk. -/
structure DirLoc where
  sector : Nat
  offset : Nat
  deriving DecidableEq, Repr

structure OpenFile where
  startCluster : Nat
  size : Nat
  dirent : DirLoc
  deriving DecidableEq, Repr

def readSector (lba : Nat) : Io (Option Sector) := .read lba .ret

def writeSector (purpose : Purpose) (lba : Nat) (b : Sector) : Io Bool := .write purpose lba b .ret

/-! ## Finding the volume -/

def signed (b : Sector) : Bool := b 510 == 0x55 && b 511 == 0xAA

def fat32FieldsValid (b : Sector) : Bool := read16 b 11 == sectorSize && signed b && read32 b 36 != 0

/-- The base and the sector found there. -/
def findFat32Base : Io (Option (Nat × Sector)) := do
  match ← readSector 0 with
  | none => pure none
  | some b =>
    if fat32FieldsValid b then pure (some (0, b))
    else if !signed b then pure none
    else if b 450 ≠ 0x0B ∧ b 450 ≠ 0x0C then pure none
    else
      match ← readSector (read32 b 454) with
      | none => pure none
      | some b' => if fat32FieldsValid b' then pure (some (read32 b 454, b')) else pure none

/-- The fields of a boot sector that `parse_bpb` reads. -/
structure BootSector where
  bytesPerSector : Nat
  sectorsPerCluster : Nat
  reservedSectorCount : Nat
  numFats : Nat
  totalSectors32 : Nat
  fatSz32 : Nat
  rootCluster : Nat
  signature : Bool

def bootSector (b : Sector) : BootSector :=
  { bytesPerSector := read16 b 11, sectorsPerCluster := (b 13).toNat, reservedSectorCount := read16 b 14,
    numFats := (b 16).toNat, totalSectors32 := read32 b 32, fatSz32 := read32 b 36, rootCluster := read32 b 44,
    signature := signed b }

def BootSector.bpb (s : BootSector) (base : Nat) : Option Bpb :=
  if s.bytesPerSector ≠ sectorSize ∨ s.signature = false then none
  else
    let firstDataSector := add32 s.reservedSectorCount (mul32 s.numFats s.fatSz32)
    if s.sectorsPerCluster = 0 ∨ s.totalSectors32 < firstDataSector then none
    else some
      { sectorsPerCluster := s.sectorsPerCluster, firstDataSector := add32 base firstDataSector,
        fatBeginSector := add32 base s.reservedSectorCount, fatSz32 := s.fatSz32, rootCluster := s.rootCluster,
        maxCluster := add32 ((s.totalSectors32 - firstDataSector) / s.sectorsPerCluster) 1 }

def parseBpb : Io (Option Bpb) := do
  match ← findFat32Base with
  | none => pure none
  | some (base, b) => pure ((bootSector b).bpb base)

/-! ## The file allocation table -/

/-- The upper four bits of an entry are reserved. -/
def readFatEntry (bpb : Bpb) (cluster : Nat) : Io (Option Nat) := do
  let fatOffset := mul32 cluster 4
  match ← readSector (add32 bpb.fatBeginSector (fatOffset / sectorSize)) with
  | none => pure none
  | some b => pure (some (read32 b (fatOffset % sectorSize) &&& 0x0FFFFFFF))

/-- `None` at the end of the chain, and after a failed read. -/
def nextCluster (bpb : Bpb) (cluster : Nat) : Io (Option Nat) := do
  match ← readFatEntry bpb cluster with
  | none => pure none
  | some raw => if raw ≥ eocMin ∨ raw < 2 then pure none else pure (some raw)

/-- One copy of the table: the top four bits of the entry stay. -/
def writeFatCopy (fatBase cluster value : Nat) : Io Bool := do
  let fatOffset := mul32 cluster 4
  let sector := add32 fatBase (fatOffset / sectorSize)
  match ← readSector sector with
  | none => pure false
  | some b =>
    let old := read32 b (fatOffset % sectorSize)
    let new := (old &&& 0xF0000000) ||| (value &&& 0x0FFFFFFF)
    writeSector .fat sector (write32 b (fatOffset % sectorSize) new)

def writeFatEntry (bpb : Bpb) (cluster value : Nat) : Io Bool := do
  match ← writeFatCopy bpb.fatBeginSector cluster value with
  | false => pure false
  | true => writeFatCopy (add32 bpb.fatBeginSector bpb.fatSz32) cluster value

/-- The scan of `alloc_cluster`, with `count` clusters from `cluster` on still to go. -/
def allocFrom (bpb : Bpb) : Nat → Nat → Io (Option Nat)
  | 0, _ => pure none
  | count + 1, cluster => do
    match ← readFatEntry bpb cluster with
    | none => pure none
    | some 0 =>
      match ← writeFatEntry bpb cluster eocMin with
      | true => pure (some cluster)
      | false => pure none
    | some _ => allocFrom bpb count (cluster + 1)

def allocCluster (bpb : Bpb) : Io (Option Nat) := allocFrom bpb (bpb.maxCluster - 1) 2

/-! ## The root directory -/

/-- The entries of the sectors of a cluster, in order, until one decides; `none` after a failed read. -/
def scanSectors {β : Type} (decides : Nat → Sector → Nat → Option β) (base : Nat) : Nat → Nat → Io (Option (Option β))
  | 0, _ => pure (some none)
  | count + 1, s => do
    match ← readSector (add32 base s) with
    | none => pure none
    | some b =>
      match (List.range (sectorSize / direntSize)).findSome? fun e => decides (add32 base s) b (e * direntSize) with
      | some v => pure (some (some v))
      | none => scanSectors decides base count (s + 1)

/-- How a walk over the root directory ended: an entry decided, a sector could not be read, or the chain ended, as far
    as `next_cluster` could tell. -/
inductive Walked (β : Type) where
  | decided (v : β)
  | unread
  | ended (last : Nat)
  deriving Repr

/-- The walk that `find_in_root` and `find_free_root_slot` make. -/
def walkRoot {β : Type} (bpb : Bpb) (decides : Nat → Sector → Nat → Option β) : Nat → Nat → Io (Walked β)
  | 0, _ => .spin
  | fuel + 1, cluster => do
    match ← scanSectors decides (clusterToSector bpb cluster) bpb.sectorsPerCluster 0 with
    | none => pure .unread
    | some (some v) => pure (.decided v)
    | some none =>
      match ← nextCluster bpb cluster with
      | some c => walkRoot bpb decides fuel c
      | none => pure (.ended cluster)

/-- Long names and volume labels. -/
def skipped (attr : UInt8) : Bool := attr == 0x0F || attr &&& 0x08 != 0

def startAt (b : Sector) (off : Nat) : Nat := (read16 b (off + 20) <<< 16) ||| read16 b (off + 26)

def sizeAt (b : Sector) (off : Nat) : Nat := read32 b (off + 28)

/-- `none` to go on, `some none` at the end of the directory, `some (some _)` at the entry sought. -/
def entrySought (name : List UInt8) (sector : Nat) (b : Sector) (off : Nat) : Option (Option OpenFile) :=
  if b off = 0x00 then some none
  else if b off = 0xE5 then none
  else if skipped (b (off + 11)) then none
  else if slice b off 11 = name then
    some (some { startCluster := startAt b off, size := sizeAt b off, dirent := { sector, offset := off } })
  else none

/-- A directory that cannot be read through is one without the file. -/
def findInRoot (bpb : Bpb) (fuel : Nat) (name : List UInt8) : Io (Option OpenFile) := do
  match ← walkRoot bpb (entrySought name) fuel bpb.rootCluster with
  | .decided found => pure found
  | .unread => pure none
  | .ended _ => pure none

def slotSought (sector : Nat) (b : Sector) (off : Nat) : Option DirLoc :=
  if b off = 0x00 ∨ b off = 0xE5 then some { sector, offset := off } else none

def zeroFill (base : Nat) : Nat → Nat → Io Bool
  | 0, _ => pure true
  | count + 1, s => do
    match ← writeSector .zero (add32 base s) (fun _ => 0) with
    | false => pure false
    | true => zeroFill base count (s + 1)

/-- The end of `find_free_root_slot`, when no entry of the chain that ends with `cluster` is free. -/
def growRoot (bpb : Bpb) (cluster : Nat) : Io (Option DirLoc) := do
  match ← allocCluster bpb with
  | none => pure none
  | some newCluster =>
    match ← writeFatEntry bpb cluster newCluster with
    | false => pure none
    | true =>
      match ← zeroFill (clusterToSector bpb newCluster) bpb.sectorsPerCluster 0 with
      | false => pure none
      | true => pure (some { sector := clusterToSector bpb newCluster, offset := 0 })

/-- A full directory is extended by a cluster. -/
def findFreeRootSlot (bpb : Bpb) (fuel : Nat) : Io (Option DirLoc) := do
  match ← walkRoot bpb slotSought fuel bpb.rootCluster with
  | .decided loc => pure (some loc)
  | .unread => pure none
  | .ended cluster => growRoot bpb cluster

/-- A directory entry with other fields for its first cluster and its size. -/
def updatedDirent (b : Sector) (off startCluster size : Nat) : Sector :=
  write32 (write16 (write16 b (off + 20) (startCluster >>> 16)) (off + 26) (startCluster &&& 0xFFFF)) (off + 28) size

def writeDirentUpdate (loc : DirLoc) (startCluster size : Nat) : Io Bool := do
  match ← readSector loc.sector with
  | none => pure false
  | some b => writeSector .dirent loc.sector (updatedDirent b loc.offset startCluster size)

def newDirent (b : Sector) (off : Nat) (name : List UInt8) : Sector :=
  write8 (blit (fill b off direntSize 0) off name) (off + 11) 0x20

def writeNewDirent (loc : DirLoc) (name : List UInt8) : Io Bool := do
  match ← readSector loc.sector with
  | none => pure false
  | some b => writeSector .dirent loc.sector (newDirent b loc.offset name)

def newFile (loc : DirLoc) (name : List UInt8) : Io (Option OpenFile) := do
  match ← writeNewDirent loc name with
  | false => pure none
  | true => pure (some { startCluster := 0, size := 0, dirent := loc })

/-- The end of `open_or_create`, when no file has the name. -/
def createFile (bpb : Bpb) (fuel : Nat) (name : List UInt8) : Io (Option OpenFile) := do
  match ← findFreeRootSlot bpb fuel with
  | none => pure none
  | some loc => newFile loc name

def openOrCreate (bpb : Bpb) (fuel : Nat) (name : List UInt8) (create : Bool) : Io (Option OpenFile) := do
  match ← findInRoot bpb fuel name with
  | some found => pure (some found)
  | none => if !create then pure none else createFile bpb fuel name

/-! ## Files -/

/-- The cluster that many links behind a cluster. -/
def follow (bpb : Bpb) : Nat → Nat → Io (Option Nat)
  | 0, cluster => pure (some cluster)
  | count + 1, cluster => do
    match ← nextCluster bpb cluster with
    | some c => follow bpb count c
    | none => pure none

/-- The number of bytes read, and the client's buffer. -/
def readFile (bpb : Bpb) (file : OpenFile) (offset len : Nat) (client : Memory) : Io (Nat × Memory) :=
  if offset ≥ file.size then pure (0, client)
  else do
    let remainingInFile := file.size - offset
    let clusterSize := clusterSizeBytes bpb
    let offsetInCluster := offset % clusterSize
    let offsetInSector := offsetInCluster % sectorSize
    match ← follow bpb (offset / clusterSize) file.startCluster with
    | none => pure (0, client)
    | some cluster =>
      match ← readSector (add32 (clusterToSector bpb cluster) (offsetInCluster / sectorSize)) with
      | none => pure (0, client)
      | some src =>
        let n := min (min len (sectorSize - offsetInSector)) remainingInFile
        pure (n, blit client 0 (slice src offsetInSector n))

/-- The cluster `count` links further on, with new clusters where the chain ends, as far as `next_cluster` can
    tell. -/
def followOrExtend (bpb : Bpb) : Nat → Nat → Io (Option Nat)
  | 0, cluster => pure (some cluster)
  | count + 1, cluster => do
    match ← nextCluster bpb cluster with
    | some c => followOrExtend bpb count c
    | none =>
      match ← allocCluster bpb with
      | none => pure none
      | some newCluster =>
        match ← writeFatEntry bpb cluster newCluster with
        | false => pure none
        | true => followOrExtend bpb count newCluster

/-- The end of `write_file`, once the cluster with the offset is known. -/
def writeInto (bpb : Bpb) (file : OpenFile) (offset len : Nat) (client : Memory) (cluster : Nat) : Io (Nat × OpenFile) := do
  let offsetInCluster := offset % clusterSizeBytes bpb
  let offsetInSector := offsetInCluster % sectorSize
  let sector := add32 (clusterToSector bpb cluster) (offsetInCluster / sectorSize)
  match ← readSector sector with
  | none => pure (0, file)
  | some b =>
    let n := min len (sectorSize - offsetInSector)
    match ← writeSector .data sector (blit b offsetInSector (slice client 0 n)) with
    | false => pure (0, file)
    | true =>
      let newEnd := add32 offset n
      let file := if newEnd > file.size then { file with size := newEnd } else file
      match ← writeDirentUpdate file.dirent file.startCluster file.size with
      | false => pure (0, file)
      | true => pure (n, file)

/-- The rest of `write_file` once the first cluster is known. -/
def writeFrom (bpb : Bpb) (file : OpenFile) (offset len : Nat) (client : Memory) : Io (Nat × OpenFile) := do
  match ← followOrExtend bpb (offset / clusterSizeBytes bpb) file.startCluster with
  | none => pure (0, file)
  | some cluster => writeInto bpb file offset len client cluster

/-- The number of bytes written, and the open file. -/
def writeFile (bpb : Bpb) (file : OpenFile) (offset len : Nat) (client : Memory) : Io (Nat × OpenFile) :=
  if offset > file.size then pure (0, file)
  else if file.startCluster = 0 then do
    match ← allocCluster bpb with
    | none => pure (0, file)
    | some c => writeFrom bpb { file with startCluster := c } offset len client
  else writeFrom bpb file offset len client

/-- A file only ever gets shorter here; its clusters stay with it. -/
def truncateFile (file : OpenFile) (newSize : Nat) : Io (Nat × OpenFile) :=
  if newSize > file.size then pure (0, file)
  else do
    let file := { file with size := newSize }
    match ← writeDirentUpdate file.dirent file.startCluster file.size with
    | false => pure (0, file)
    | true => pure (1, file)

/-! ## The request loop -/

/-- A reply to the client: its slot and the first two words, the third being 0. -/
structure Reply where
  slot : UInt32
  w0 : UInt32
  w1 : UInt32
  deriving DecidableEq, Repr

/-- The variables of the loop, and the page that the client shares. -/
structure Server where
  clientBuf : Memory
  clientBufMapped : Bool
  clientReply : UInt32
  pendingNameLo : List UInt8
  openFile : Option OpenFile

def Server.init : Server :=
  { clientBuf := fun _ => 0, clientBufMapped := false, clientReply := 0, pendingNameLo := List.replicate 8 0, openFile := none }

/-- One message. `mapped` is the page that `map_memory` maps for a transferred grant, if it can. -/
def handle (bpb : Bpb) (fuel : Nat) (s : Server) (r : RecvResult) (mapped : Option Memory) : Io (Server × List Reply) :=
  if r.w0 = Libpcern.fsOpSetBuffer then
    match mapped with
    | some page =>
      if r.transferredSlot ≠ 0 then pure ({ s with clientBuf := page, clientBufMapped := true }, []) else pure (s, [])
    | none => pure (s, [])
  else if r.w0 = Libpcern.fsOpSetReply then
    if r.transferredSlot ≠ 0 then pure ({ s with clientReply := r.transferredSlot }, []) else pure (s, [])
  else if r.w0 = Libpcern.fsOpOpenName1 then pure ({ s with pendingNameLo := le32 r.w1 ++ le32 r.w2 }, [])
  else if r.w0 = Libpcern.fsOpOpenName2 then
    if s.clientReply = 0 then pure (s, [])
    else do
      match ← openOrCreate bpb fuel (s.pendingNameLo ++ (le32 r.w1).take 3) (r.w2 ≠ 0) with
      | some file =>
        pure ({ s with openFile := some file }, [{ slot := s.clientReply, w0 := 1, w1 := UInt32.ofNat file.size }])
      | none => pure ({ s with openFile := none }, [{ slot := s.clientReply, w0 := 0, w1 := 0 }])
  else if r.w0 = Libpcern.fsOpRead then
    if s.clientReply = 0 then pure (s, [])
    else if !s.clientBufMapped then pure (s, [{ slot := s.clientReply, w0 := 0, w1 := 0 }])
    else
      match s.openFile with
      | none => pure (s, [{ slot := s.clientReply, w0 := 0, w1 := 0 }])
      | some file => do
        let (n, client) ← readFile bpb file r.w1.toNat r.w2.toNat s.clientBuf
        pure ({ s with clientBuf := client }, [{ slot := s.clientReply, w0 := UInt32.ofNat n, w1 := 0 }])
  else if r.w0 = Libpcern.fsOpWrite then
    if s.clientReply = 0 then pure (s, [])
    else if !s.clientBufMapped then pure (s, [{ slot := s.clientReply, w0 := 0, w1 := 0 }])
    else
      match s.openFile with
      | none => pure (s, [{ slot := s.clientReply, w0 := 0, w1 := 0 }])
      | some file => do
        let (n, file) ← writeFile bpb file r.w1.toNat r.w2.toNat s.clientBuf
        pure ({ s with openFile := some file }, [{ slot := s.clientReply, w0 := UInt32.ofNat n, w1 := 0 }])
  else if r.w0 = Libpcern.fsOpTruncate then
    if s.clientReply = 0 then pure (s, [])
    else
      match s.openFile with
      | none => pure (s, [{ slot := s.clientReply, w0 := 0, w1 := 0 }])
      | some file => do
        let (ok, file) ← truncateFile file r.w1.toNat
        pure ({ s with openFile := some file }, [{ slot := s.clientReply, w0 := UInt32.ofNat ok, w1 := 0 }])
  else pure (s, [])

end Pcern.Fat32

import Pcern.Libpcern
import Pcern.Screen

/-!
The console server: the decoder of scancodes (`keyboard.rs`) and the main loop (`main.rs`). The loop prints the bytes it is sent
and hands what is typed to one reader, as lines or as single keys.
-/
namespace Pcern.Console

open Libpcern

/-! ## Scancodes -/

abbrev leftShift : UInt8 := 0x2A
abbrev rightShift : UInt8 := 0x36
abbrev leftCtrl : UInt8 := 0x1D
abbrev extendedPrefix : UInt8 := 0xE0

/-- The characters of the make codes of set 1, zero where a key has none. -/
def scancodeAscii : List UInt8 :=
  [0, 27, 0x31, 0x32, 0x33, 0x34, 0x35, 0x36, 0x37, 0x38, 0x39, 0x30, 0x2D, 0x3D, 8, 0x09, 0x71,
    0x77, 0x65, 0x72, 0x74, 0x79, 0x75, 0x69, 0x6F, 0x70, 0x5B, 0x5D, 0x0A, 0, 0x61, 0x73, 0x64,
    0x66, 0x67, 0x68, 0x6A, 0x6B, 0x6C, 0x3B, 0x27, 0x60, 0, 0x5C, 0x7A, 0x78, 0x63, 0x76, 0x62,
    0x6E, 0x6D, 0x2C, 0x2E, 0x2F, 0, 0x2A, 0, 0x20]

def scancodeAsciiShifted : List UInt8 :=
  [0, 27, 0x21, 0x40, 0x23, 0x24, 0x25, 0x5E, 0x26, 0x2A, 0x28, 0x29, 0x5F, 0x2B, 8, 0x09, 0x51,
    0x57, 0x45, 0x52, 0x54, 0x59, 0x55, 0x49, 0x4F, 0x50, 0x7B, 0x7D, 0x0A, 0, 0x41, 0x53, 0x44,
    0x46, 0x47, 0x48, 0x4A, 0x4B, 0x4C, 0x3A, 0x22, 0x7E, 0, 0x7C, 0x5A, 0x58, 0x43, 0x56, 0x42,
    0x4E, 0x4D, 0x3C, 0x3E, 0x3F, 0, 0x2A, 0, 0x20]

abbrev keyUp : UInt32 := 256
abbrev keyDown : UInt32 := 257
abbrev keyLeft : UInt32 := 258
abbrev keyRight : UInt32 := 259
abbrev keyHome : UInt32 := 260
abbrev keyEnd : UInt32 := 261
abbrev keyDelete : UInt32 := 262
abbrev keyPageUp : UInt32 := 263
abbrev keyPageDown : UInt32 := 264

def extendedKey (code : UInt8) : Option UInt32 :=
  match code.toNat with
  | 0x48 => some keyUp
  | 0x50 => some keyDown
  | 0x4B => some keyLeft
  | 0x4D => some keyRight
  | 0x47 => some keyHome
  | 0x4F => some keyEnd
  | 0x53 => some keyDelete
  | 0x49 => some keyPageUp
  | 0x51 => some keyPageDown
  | _ => none

structure Decoder where
  shift : Bool
  ctrl : Bool
  pendingExtended : Bool
  deriving DecidableEq, Repr

namespace Decoder

def new : Decoder := { shift := false, ctrl := false, pendingExtended := false }

/-- `u8::is_ascii_alphabetic`. -/
def isAsciiAlphabetic (b : UInt8) : Bool := (0x41 ≤ b && b ≤ 0x5A) || (0x61 ≤ b && b ≤ 0x7A)

def key (d : Decoder) (code : UInt8) : Option UInt32 :=
  let ascii := if d.shift then scancodeAsciiShifted.getD code.toNat 0 else scancodeAscii.getD code.toNat 0
  if ascii = 0 then none
  else if d.ctrl && isAsciiAlphabetic ascii then some (toAsciiUppercase ascii - 0x41 + 1).toUInt32
  else some ascii.toUInt32

def feed (d : Decoder) (scancode : UInt8) : Decoder × Option UInt32 :=
  if scancode = extendedPrefix then ({ d with pendingExtended := true }, none)
  else
    let released := scancode &&& 0x80 ≠ 0
    let code := scancode &&& 0x7F
    if d.pendingExtended then ({ d with pendingExtended := false }, if released then none else extendedKey code)
    else if code = leftShift ∨ code = rightShift then ({ d with shift := !released }, none)
    else if code = leftCtrl then ({ d with ctrl := !released }, none)
    else if released ∨ code.toNat ≥ scancodeAscii.length then (d, none)
    else (d, d.key code)

end Decoder

/-! ## The main loop -/

abbrev keyQueueCap : Nat := 32

/-- What has been typed and not yet been handed over, and what the reader has asked for. -/
structure Typing where
  rawMode : Bool
  armed : Bool
  lineReady : Bool
  lineLen : Nat
  keyArmed : Bool
  keyQueue : Nat → UInt32
  keyQueueHead : Nat
  keyQueueLen : Nat

structure Server where
  writer : Writer
  ansi : AnsiState
  decoder : Decoder
  inputBufMapped : Bool
  readerSlot : UInt32
  readerOwner : UInt32
  typing : Typing

/-- What the loop does to the world: it maps a grant as the input buffer, stores a byte in that buffer, sends a message. -/
inductive Act where
  | map (slot : UInt32)
  | store (offset : Nat) (byte : UInt8)
  | send (slot w0 : UInt32)
  deriving DecidableEq, Repr

namespace Typing

def start : Typing where
  rawMode := false
  armed := false
  lineReady := false
  lineLen := 0
  keyArmed := false
  keyQueue := fun _ => 0
  keyQueueHead := 0
  keyQueueLen := 0

/-- A key goes to the reader that waits for one, or into the queue; a full queue drops it. -/
def rawKey (t : Typing) (reader key : UInt32) : Typing × List Act :=
  if t.keyArmed ∧ reader ≠ 0 then ({ t with keyArmed := false }, [.send reader key])
  else if t.keyQueueLen < keyQueueCap then
    ({ t with
        keyQueue := Function.update t.keyQueue ((t.keyQueueHead + t.keyQueueLen) % keyQueueCap) key
        keyQueueLen := t.keyQueueLen + 1 }, [])
  else (t, [])

/-- A character in line mode, with a buffer that holds no finished line. -/
def lineKey (t : Typing) (reader : UInt32) (ascii : UInt8) : Typing × List Act :=
  if ascii = 8 then ({ t with lineLen := t.lineLen - 1 }, [])
  else if ascii = 0x0A then
    if t.armed ∧ reader ≠ 0 then ({ t with armed := false, lineLen := 0 }, [.send reader (UInt32.ofNat t.lineLen)])
    else ({ t with lineReady := true }, [])
  else if t.lineLen < consoleLineMax then ({ t with lineLen := t.lineLen + 1 }, [.store t.lineLen ascii])
  else (t, [])

/-- A line that is ready, or else the next one. -/
def readLine (t : Typing) (inputBufMapped : Bool) (reader : UInt32) : Typing × List Act :=
  if !inputBufMapped then (t, [.send reader 0])
  else if t.lineReady then ({ t with lineReady := false, lineLen := 0 }, [.send reader (UInt32.ofNat t.lineLen)])
  else ({ t with armed := true }, [])

/-- Every change of the mode drops what is pending. -/
def setMode (t : Typing) (raw : Bool) : Typing :=
  { t with
    rawMode := raw
    keyQueueHead := 0
    keyQueueLen := 0
    keyArmed := false
    lineLen := 0
    lineReady := false
    armed := false }

/-- The oldest key in the queue, or else the next one. -/
def readKey (t : Typing) (reader : UInt32) : Typing × List Act :=
  if t.keyQueueLen > 0 then
    ({ t with keyQueueHead := (t.keyQueueHead + 1) % keyQueueCap, keyQueueLen := t.keyQueueLen - 1 },
      [.send reader (t.keyQueue t.keyQueueHead)])
  else ({ t with keyArmed := true }, [])

end Typing

namespace Server

def start (buffer : Nat → UInt16) : Server where
  writer := (Writer.new buffer).clearScreen
  ansi := .init
  decoder := .new
  inputBufMapped := false
  readerSlot := 0
  readerOwner := 0
  typing := .start

def print (s : Server) (byte : UInt8) : Server :=
  { s with ansi := (s.ansi.feed byte s.writer).1, writer := (s.ansi.feed byte s.writer).2 }

/-- The server with what became of its pending input. -/
def typed (s : Server) (outcome : Typing × List Act) : Server × List Act := ({ s with typing := outcome.1 }, outcome.2)

def key (s : Server) (key : UInt32) : Server × List Act :=
  if s.typing.rawMode then s.typed (s.typing.rawKey s.readerSlot key)
  else if key ≥ 256 then (s, [])
  else if s.inputBufMapped ∧ s.typing.lineReady = false then
    (s.print key.toUInt8).typed (s.typing.lineKey s.readerSlot key.toUInt8)
  else (s.print key.toUInt8, [])

def keyboard (s : Server) (scancode : UInt8) : Server × List Act :=
  match s.decoder.feed scancode with
  | (decoder, some k) => { s with decoder }.key k
  | (decoder, none) => ({ s with decoder }, [])

/-- A message to the reader's part of the protocol; `mapped` is whether a call to map the transferred grant succeeds. -/
def request (s : Server) (mapped : Bool) (r : RecvResult) : Server × List Act :=
  if r.w0 = consoleOpSetBuffer then
    if (s.readerOwner = 0 ∨ s.readerOwner = r.sender) ∧ r.transferredSlot ≠ 0 ∧ mapped then
      ({ s with readerOwner := r.sender, inputBufMapped := true }, [.map r.transferredSlot])
    else (s, [])
  else if r.w0 = consoleOpSetReader then
    if s.readerOwner = r.sender ∧ r.transferredSlot ≠ 0 then ({ s with readerSlot := r.transferredSlot }, []) else (s, [])
  else if r.w0 = consoleOpReadLine then
    if s.readerOwner = r.sender ∧ s.readerSlot ≠ 0 then s.typed (s.typing.readLine s.inputBufMapped s.readerSlot) else (s, [])
  else if r.w0 = consoleOpSetMode then
    if s.readerOwner = r.sender then ({ s with typing := s.typing.setMode (r.w1 ≠ 0) }, []) else (s, [])
  else if r.w0 = consoleOpReadKey then
    if s.readerOwner = r.sender ∧ s.readerSlot ≠ 0 then s.typed (s.typing.readKey s.readerSlot) else (s, [])
  else (s, [])

def handle (s : Server) (mapped : Bool) (r : RecvResult) : Server × List Act :=
  if r.sender = Libpcern.kernelTaskId then s.keyboard r.w1.toUInt8
  else if r.w0 = opPutchar then (s.print r.w1.toUInt8, [])
  else s.request mapped r

end Server

end Pcern.Console

import Pcern.Console

/-!
Shift and Ctrl. A keyboard of scancode set 1 is a sequence of presses and releases; which keys are held is read off from it.
The decoder of `keyboard.rs` keeps one bit for both Shift keys, which is the last thing one of them did.
-/
namespace Pcern.Console

/-- A key: one code, or a code behind the prefix. The release of a key with the code `0x60` would be the prefix itself. -/
structure Key where
  extended : Bool
  code : UInt8
  small : code < 0x80
  noPrefix : code ≠ 0x60
  deriving DecidableEq, Repr

inductive KeyEvent where
  | press (k : Key)
  | release (k : Key)
  deriving DecidableEq, Repr

def shiftLeftKey : Key := { extended := false, code := leftShift, small := by decide, noPrefix := by decide }
def shiftRightKey : Key := { extended := false, code := rightShift, small := by decide, noPrefix := by decide }
def ctrlLeftKey : Key := { extended := false, code := leftCtrl, small := by decide, noPrefix := by decide }

namespace KeyEvent

def key : KeyEvent → Key
  | press k => k
  | release k => k

def isPress : KeyEvent → Bool
  | press _ => true
  | release _ => false

/-- The byte of the key itself, which has its high bit set on a release. -/
def scancode : KeyEvent → UInt8
  | press k => k.code
  | release k => k.code ||| 0x80

def bytes (e : KeyEvent) : List UInt8 := if e.key.extended then [extendedPrefix, e.scancode] else [e.scancode]

end KeyEvent

def isHeld (k : Key) (events : List KeyEvent) : Bool :=
  events.foldl (fun down e => if e.key = k then e.isPress else down) false

def Key.isShift (k : Key) : Bool := k = shiftLeftKey || k = shiftRightKey

def KeyEvent.isShift (e : KeyEvent) : Bool := e.key.isShift

def shiftHeld (events : List KeyEvent) : Bool := isHeld shiftLeftKey events || isHeld shiftRightKey events

def lastShift (events : List KeyEvent) : Option KeyEvent := (events.filter KeyEvent.isShift).getLast?

/-- One Shift key was let go while the other is held, and neither was pressed since. -/
def OneLetGo (events : List KeyEvent) : Prop := (∃ k, lastShift events = some (.release k)) ∧ shiftHeld events = true

namespace Decoder

def plainForm (code : UInt8) : UInt8 := scancodeAscii.getD code.toNat 0

def shiftedForm (code : UInt8) : UInt8 := scancodeAsciiShifted.getD code.toNat 0

/-- What a key stands for with and without Shift and Ctrl. -/
def meaning (shift ctrl : Bool) (code : UInt8) : UInt32 :=
  let ascii := if shift then shiftedForm code else plainForm code
  if ctrl && isAsciiAlphabetic ascii then (toAsciiUppercase ascii - 0x41 + 1).toUInt32 else ascii.toUInt32

def feedAll (d : Decoder) (bytes : List UInt8) : Decoder := bytes.foldl (fun d b => (d.feed b).1) d

def after (events : List KeyEvent) : Decoder := new.feedAll (events.flatMap KeyEvent.bytes)

end Decoder
open Decoder

/-- Every press of a key with a character means what the keys that are held then make of it, and the bytes of an extended key
change neither Shift nor Ctrl. -/
structure Tracked (events : List KeyEvent) : Prop where
  presses : ∀ before k rest, events = before ++ .press k :: rest → k.extended = false → plainForm k.code ≠ 0 →
    ((after before).feed k.code).2 = some (meaning (shiftHeld before) (isHeld ctrlLeftKey before) k.code)
  extended : ∀ before e rest, events = before ++ e :: rest → e.key.extended = true → ∀ bytes, bytes <+: e.bytes →
    ((after before).feedAll bytes).shift = (after before).shift ∧ ((after before).feedAll bytes).ctrl = (after before).ctrl

/-! ## What the decoder keeps -/

private theorem isHeld_snoc (k : Key) (events : List KeyEvent) (e : KeyEvent) :
    isHeld k (events ++ [e]) = if e.key = k then e.isPress else isHeld k events := by
  rw [isHeld, List.foldl_append]
  rfl

private theorem lastShift_snoc (events : List KeyEvent) (e : KeyEvent) :
    lastShift (events ++ [e]) = if e.isShift then some e else lastShift events := by
  rw [lastShift, List.filter_append]
  by_cases shift : e.isShift = true
  · rw [List.filter_cons_of_pos shift, if_pos shift]
    exact List.getLast?_concat
  · rw [List.filter_cons_of_neg shift, if_neg shift, List.filter_nil, List.append_nil, lastShift]

theorem Key.isShift_iff {k : Key} : k.isShift = true ↔ k = shiftLeftKey ∨ k = shiftRightKey := by
  simp [isShift]

private theorem shiftHeld_snoc_other {e : KeyEvent} (other : ¬e.isShift = true) (events : List KeyEvent) :
    shiftHeld (events ++ [e]) = shiftHeld events := by
  rw [KeyEvent.isShift, Key.isShift_iff, not_or] at other
  rw [shiftHeld, isHeld_snoc, isHeld_snoc, if_neg other.1, if_neg other.2, shiftHeld]

private theorem shiftHeld_snoc_press {k : Key} (shift : k.isShift = true) (events : List KeyEvent) :
    shiftHeld (events ++ [.press k]) = true := by
  rw [shiftHeld, isHeld_snoc, isHeld_snoc]
  rcases Key.isShift_iff.mp shift with rfl | rfl
  · rw [if_pos (show KeyEvent.key (.press shiftLeftKey) = shiftLeftKey from rfl)]
    rfl
  · rw [if_pos (show KeyEvent.key (.press shiftRightKey) = shiftRightKey from rfl)]
    exact Bool.or_true _

private theorem shiftHeld_of_lastShift (events : List KeyEvent) :
    (∀ k, lastShift events = some (.press k) → shiftHeld events = true) ∧ (lastShift events = none → shiftHeld events = false) := by
  induction events using List.reverseRecOn with
  | nil => exact ⟨fun k none => (by cases none), fun _ => rfl⟩
  | append_singleton events e before =>
    rw [lastShift_snoc]
    by_cases shift : e.isShift = true
    · rw [if_pos shift]
      refine ⟨fun k last => ?_, fun none => by cases none⟩
      cases last
      exact shiftHeld_snoc_press shift events
    · rw [if_neg shift, shiftHeld_snoc_other shift]
      exact before

private theorem lastShift_isPress_iff (events : List KeyEvent) :
    (lastShift events).any KeyEvent.isPress = shiftHeld events ↔ ¬OneLetGo events := by
  obtain ⟨pressed, untouched⟩ := shiftHeld_of_lastShift events
  rw [OneLetGo, not_and]
  cases last : lastShift events with
  | none =>
    rw [untouched last]
    exact iff_of_true rfl fun released => by cases released.choose_spec
  | some e =>
    cases e with
    | press k =>
      rw [pressed k last]
      exact iff_of_true rfl fun released => by cases released.choose_spec
    | release k =>
      refine ⟨fun same _ => ?_, fun free => ?_⟩
      · rw [← same]
        exact Bool.false_ne_true
      · exact (Bool.eq_false_iff.mpr (free ⟨k, rfl⟩)).symm

/-! ## The decoder along the events -/

private theorem code_bits (n : Fin 128) :
    UInt8.ofNat n &&& 0x7F = UInt8.ofNat n ∧ UInt8.ofNat n &&& 0x80 = 0 ∧ UInt8.ofNat n ≠ 0xE0 ∧
      (UInt8.ofNat n ||| 0x80) &&& 0x7F = UInt8.ofNat n ∧ (UInt8.ofNat n ||| 0x80) &&& 0x80 ≠ 0 ∧
      (UInt8.ofNat n ||| 0x80 = 0xE0 → UInt8.ofNat n = 0x60) := by
  revert n
  decide

namespace KeyEvent

private theorem scancode_bits (e : KeyEvent) :
    e.scancode ≠ extendedPrefix ∧ e.scancode &&& 0x7F = e.key.code ∧ (e.scancode &&& 0x80 ≠ 0 ↔ e.isPress = false) := by
  have small := UInt8.lt_iff_toNat_lt.mp e.key.small
  obtain ⟨code, high, noPrefix, code', high', sixty⟩ := code_bits ⟨e.key.code.toNat, small⟩
  rw [UInt8.ofNat_toNat] at *
  cases e with
  | press k => exact ⟨noPrefix, code, iff_of_false (not_not.mpr high) (by simp [KeyEvent.isPress])⟩
  | release k => exact ⟨fun same => k.noPrefix (sixty same), code', iff_of_true high' rfl⟩

end KeyEvent

theorem Key.eq_iff_code {k k' : Key} (plain : k.extended = false) (plain' : k'.extended = false) : k = k' ↔ k.code = k'.code := by
  cases k
  cases k'
  simp_all

theorem KeyEvent.isShift_iff_code {e : KeyEvent} (plain : e.key.extended = false) :
    e.isShift = true ↔ e.key.code = leftShift ∨ e.key.code = rightShift := by
  rw [isShift, Key.isShift_iff, Key.eq_iff_code plain rfl, Key.eq_iff_code plain rfl]
  rfl

namespace Decoder
variable {d : Decoder} {e : KeyEvent}

private theorem feedAll_extended (extended : e.key.extended = true) : d.feedAll e.bytes = { d with pendingExtended := false } := by
  obtain ⟨noPrefix, -, -⟩ := e.scancode_bits
  rw [KeyEvent.bytes, if_pos extended]
  simp [feedAll, feed, noPrefix]

private theorem feed_plain (idle : d.pendingExtended = false) (plain : e.key.extended = false) :
    d.feed e.scancode =
      if e.isShift then ({ d with shift := e.isPress }, none)
      else if e.key = ctrlLeftKey then ({ d with ctrl := e.isPress }, none)
      else if e.isPress = false ∨ e.key.code.toNat ≥ scancodeAscii.length then (d, none)
      else (d, d.key e.key.code) := by
  obtain ⟨noPrefix, code, released⟩ := e.scancode_bits
  have isCtrl : e.key = ctrlLeftKey ↔ e.key.code = leftCtrl := Key.eq_iff_code plain rfl
  have down : (!decide (e.isPress = false)) = e.isPress := by cases e.isPress <;> rfl
  unfold feed
  rw [if_neg noPrefix]
  simp only [code, idle, KeyEvent.isShift_iff_code plain, isCtrl, released, Bool.false_eq_true, if_false, down]

theorem feedAll_append (d : Decoder) (bytes more : List UInt8) : d.feedAll (bytes ++ more) = (d.feedAll bytes).feedAll more :=
  List.foldl_append

private theorem after_snoc (events : List KeyEvent) (e : KeyEvent) : after (events ++ [e]) = (after events).feedAll e.bytes := by
  rw [after, List.flatMap_append, feedAll_append, List.flatMap_singleton, after]

/-- What the decoder knows of the events: the last of a Shift key, and whether Ctrl is held. -/
structure Knows (d : Decoder) (events : List KeyEvent) : Prop where
  idle : d.pendingExtended = false
  shift : d.shift = (lastShift events).any KeyEvent.isPress
  ctrl : d.ctrl = isHeld ctrlLeftKey events

variable {events : List KeyEvent} {code : UInt8}

theorem Knows.other (knows : Knows d events) (noShift : ¬e.isShift = true) (noCtrl : e.key ≠ ctrlLeftKey) :
    Knows d (events ++ [e]) where
  idle := knows.idle
  shift := by rw [lastShift_snoc, if_neg noShift, knows.shift]
  ctrl := by rw [isHeld_snoc, if_neg noCtrl, knows.ctrl]

theorem Knows.snoc (knows : Knows d events) (e : KeyEvent) : Knows (d.feedAll e.bytes) (events ++ [e]) := by
  by_cases extended : e.key.extended = true
  · have noCtrl : e.key ≠ ctrlLeftKey := by
      intro same
      rw [same] at extended
      cases extended
    have noShift : ¬e.isShift = true := by
      rw [KeyEvent.isShift, Key.isShift_iff]
      rintro (same | same) <;> rw [same] at extended <;> cases extended
    rw [feedAll_extended extended, ← knows.idle]
    exact knows.other noShift noCtrl
  · have plain : e.key.extended = false := Bool.eq_false_iff.mpr extended
    have fed : d.feedAll e.bytes = (d.feed e.scancode).1 := by
      rw [KeyEvent.bytes, if_neg extended]
      rfl
    rw [fed, feed_plain knows.idle plain]
    by_cases shift : e.isShift = true
    · have noCtrl : e.key ≠ ctrlLeftKey := by
        intro same
        rw [KeyEvent.isShift, same] at shift
        revert shift
        decide
      rw [if_pos shift]
      exact ⟨knows.idle, by rw [lastShift_snoc, if_pos shift]; rfl, by rw [isHeld_snoc, if_neg noCtrl, knows.ctrl]⟩
    · rw [if_neg shift]
      by_cases ctrl : e.key = ctrlLeftKey
      · rw [if_pos ctrl]
        exact ⟨knows.idle, by rw [lastShift_snoc, if_neg shift, knows.shift], by rw [isHeld_snoc, if_pos ctrl]⟩
      · rw [if_neg ctrl]
        split <;> exact knows.other shift ctrl

private theorem after_knows (events : List KeyEvent) : Knows (after events) events := by
  induction events using List.reverseRecOn with
  | nil => exact ⟨rfl, rfl, rfl⟩
  | append_singleton events e before =>
    rw [after_snoc]
    exact before.snoc e

/-! ## Presses -/

private theorem forms (n : Fin 58) :
    (scancodeAscii.getD n 0 = 0 ↔ scancodeAsciiShifted.getD n 0 = 0) ∧
      (scancodeAscii.getD n 0 ≠ 0 → n.val ≠ 0x2A ∧ n.val ≠ 0x36 ∧ n.val ≠ 0x1D) ∧
      (isAsciiAlphabetic (scancodeAscii.getD n 0) = isAsciiAlphabetic (scancodeAsciiShifted.getD n 0)) ∧
      (isAsciiAlphabetic (scancodeAscii.getD n 0) = true →
        toAsciiUppercase (scancodeAscii.getD n 0) = toAsciiUppercase (scancodeAsciiShifted.getD n 0)) := by
  revert n
  decide

private theorem code_lt (mapped : plainForm code ≠ 0) : code.toNat < 58 := by
  by_contra beyond
  exact mapped (by rw [plainForm, List.getD_eq_getElem?_getD, List.getElem?_eq_none (Nat.not_lt.mp beyond), Option.getD_none])

private theorem shiftedForm_eq_zero_iff : shiftedForm code = 0 ↔ plainForm code = 0 := by
  by_cases within : code.toNat < 58
  · exact (forms ⟨code.toNat, within⟩).1.symm
  · have none : scancodeAsciiShifted[code.toNat]? = none := List.getElem?_eq_none (Nat.not_lt.mp within)
    refine iff_of_true (by rw [shiftedForm, List.getD_eq_getElem?_getD, none, Option.getD_none]) ?_
    by_contra mapped
    exact within (code_lt mapped)

private theorem no_modifier {k : Key} (plain : k.extended = false) (mapped : plainForm k.code ≠ 0) :
    ¬(KeyEvent.press k).isShift = true ∧ (KeyEvent.press k).key ≠ ctrlLeftKey := by
  obtain ⟨left, right, ctrl⟩ := (forms ⟨k.code.toNat, code_lt mapped⟩).2.1 mapped
  refine ⟨fun shift => ?_, fun same => ?_⟩
  · rcases (KeyEvent.isShift_iff_code (e := .press k) plain).mp shift with same | same
    · exact left (congrArg UInt8.toNat same)
    · exact right (congrArg UInt8.toNat same)
  · exact ctrl (congrArg (fun k => UInt8.toNat k.code) same)

private theorem key_eq (mapped : plainForm code ≠ 0) (d : Decoder) : d.key code = some (meaning d.shift d.ctrl code) := by
  have some : (if d.shift then shiftedForm code else plainForm code) ≠ 0 := by
    split
    · exact fun none => mapped (shiftedForm_eq_zero_iff.mp none)
    · exact mapped
  have unfolded : d.key code = if (if d.shift then shiftedForm code else plainForm code) = 0 then none else
      if d.ctrl && isAsciiAlphabetic (if d.shift then shiftedForm code else plainForm code) then
        Option.some (toAsciiUppercase (if d.shift then shiftedForm code else plainForm code) - 0x41 + 1).toUInt32
      else Option.some (if d.shift then shiftedForm code else plainForm code).toUInt32 := rfl
  rw [unfolded, if_neg some, ← apply_ite Option.some]
  rfl

theorem Knows.feed_press (knows : Knows d events) {k : Key} (plain : k.extended = false)
    (mapped : plainForm k.code ≠ 0) : (d.feed k.code).2 = some (meaning d.shift d.ctrl k.code) := by
  obtain ⟨noShift, noCtrl⟩ := no_modifier plain mapped
  have within : ¬((KeyEvent.press k).isPress = false ∨ (KeyEvent.press k).key.code.toNat ≥ scancodeAscii.length) := by
    rintro (up | beyond)
    · cases up
    · exact Nat.not_le_of_lt (code_lt mapped) beyond
  have fed := feed_plain (e := .press k) knows.idle plain
  rw [if_neg noShift, if_neg noCtrl, if_neg within] at fed
  rw [show d.feed k.code = _ from fed]
  exact key_eq mapped d

private theorem meaning_eq_iff (ctrl : Bool) (mapped : plainForm code ≠ 0) :
    meaning true ctrl code = meaning false ctrl code ↔
      plainForm code = shiftedForm code ∨ ctrl = true ∧ isAsciiAlphabetic (plainForm code) = true := by
  obtain ⟨-, -, letter, upper⟩ := forms ⟨code.toNat, code_lt mapped⟩
  have letter : isAsciiAlphabetic (shiftedForm code) = isAsciiAlphabetic (plainForm code) := letter.symm
  simp only [meaning, if_true, if_false, Bool.false_eq_true, letter]
  by_cases control : (ctrl && isAsciiAlphabetic (plainForm code)) = true
  · rw [if_pos control, if_pos control]
    rw [Bool.and_eq_true] at control
    have same : toAsciiUppercase (plainForm code) = toAsciiUppercase (shiftedForm code) := upper control.2
    rw [same]
    exact iff_of_true rfl (.inr control)
  · rw [if_neg control, if_neg control, ← Bool.and_eq_true, or_iff_left control, eq_comm]
    exact UInt8.toUInt32_inj

end Decoder

/-- A key whose meaning tells whether Shift is taken to be held. -/
def Telling (before : List KeyEvent) (k : Key) : Prop :=
  k.extended = false ∧ plainForm k.code ≠ shiftedForm k.code ∧
    ¬(isHeld ctrlLeftKey before = true ∧ isAsciiAlphabetic (plainForm k.code) = true)

/-- A press is decoded by what Shift keys did last, which differs from what is held only if one was let go. -/
theorem press_tracked_iff {before : List KeyEvent} {k : Key} (plain : k.extended = false) (mapped : plainForm k.code ≠ 0) :
    ((after before).feed k.code).2 = some (meaning (shiftHeld before) (isHeld ctrlLeftKey before) k.code) ↔
      (Telling before k → ¬OneLetGo before) := by
  have knows := after_knows before
  have same := meaning_eq_iff (isHeld ctrlLeftKey before) mapped
  rw [knows.feed_press plain mapped, knows.ctrl, knows.shift, Option.some.injEq, ← lastShift_isPress_iff, Telling]
  by_cases telling : plainForm k.code = shiftedForm k.code ∨ isHeld ctrlLeftKey before = true ∧ isAsciiAlphabetic (plainForm k.code) = true
  · have either (shift : Bool) : meaning shift (isHeld ctrlLeftKey before) k.code = meaning false (isHeld ctrlLeftKey before) k.code := by
      cases shift
      · rfl
      · exact same.mpr telling
    refine iff_of_true ((either _).trans (either _).symm) fun tells => ?_
    exact absurd telling (not_or.mpr tells.2)
  · rw [imp_iff_right ⟨plain, not_or.mp telling⟩]
    have tells (shift shift' : Bool) (meant : meaning shift (isHeld ctrlLeftKey before) k.code =
        meaning shift' (isHeld ctrlLeftKey before) k.code) : shift = shift' := by
      cases shift <;> cases shift'
      · rfl
      · exact absurd (same.mp meant.symm) telling
      · exact absurd (same.mp meant) telling
      · rfl
    exact ⟨tells _ _, fun known => by rw [known]⟩

/-- Shift and Ctrl are tracked along a sequence of events exactly if no key that could tell is pressed while one Shift key is
held after the other was let go. -/
theorem modifiers_tracked_iff (events : List KeyEvent) :
    Tracked events ↔ ∀ before k rest, events = before ++ .press k :: rest → Telling before k → ¬OneLetGo before := by
  constructor
  · intro tracked before k rest split telling
    have mapped : plainForm k.code ≠ 0 := fun none => telling.2.1 (none.trans (shiftedForm_eq_zero_iff.mpr none).symm)
    exact (press_tracked_iff telling.1 mapped).mp (tracked.presses before k rest split telling.1 mapped) telling
  · intro free
    refine ⟨fun before k rest split plain mapped => ?_, fun before e rest split extended bytes part => ?_⟩
    · exact (press_tracked_iff plain mapped).mpr (free before k rest split)
    · rw [KeyEvent.bytes, if_pos extended, List.prefix_cons_iff] at part
      rcases part with rfl | ⟨behind, rfl, part⟩
      · exact ⟨rfl, rfl⟩
      · rw [List.prefix_cons_iff] at part
        rcases part with rfl | ⟨behind, rfl, part⟩
        · exact ⟨rfl, rfl⟩
        · rw [List.prefix_nil.mp part]
          have whole := feedAll_extended (d := after before) extended
          rw [KeyEvent.bytes, if_pos extended] at whole
          rw [whole]
          exact ⟨rfl, rfl⟩

/-- The left Shift is held, the right one is pressed and let go, and the key `A` comes out as a small letter. -/
theorem one_shift_let_go :
    (((after [.press shiftLeftKey, .press shiftRightKey, .release shiftRightKey]).feed 0x1E).2 = some 0x61) ∧
      shiftHeld [.press shiftLeftKey, .press shiftRightKey, .release shiftRightKey] = true ∧
      meaning true false 0x1E = 0x41 ∧
      ¬Tracked [.press shiftLeftKey, .press shiftRightKey, .release shiftRightKey,
        .press { extended := false, code := 0x1E, small := by decide, noPrefix := by decide }] := by
  refine ⟨by decide, by decide, by decide, fun tracked => ?_⟩
  have small := tracked.presses [.press shiftLeftKey, .press shiftRightKey, .release shiftRightKey] _ [] rfl rfl (by decide)
  revert small
  decide

end Pcern.Console

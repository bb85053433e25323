import Pcern.Libpcern

/-!
The main loop of `net_rtl8139`: what it does with an interrupt and with each request of its client. The card is outside; what it
reports comes as an argument.
-/
namespace Pcern.NetRtl8139

open Libpcern

/-- The state of the loop; `lastRx` are the bytes of the last frame that nobody has taken. -/
structure Driver where
  clientBufMapped : Bool
  clientReply : UInt32
  recvArmed : Bool
  lastRx : List UInt8

/-- A message to the client, and the frame that was put into the client's buffer for it. -/
structure Answer where
  w0 : UInt32
  w1 : UInt32
  frame : List UInt8
  deriving DecidableEq, Repr

namespace Driver

def start : Driver := { clientBufMapped := false, clientReply := 0, recvArmed := false, lastRx := [] }

def answerWith (w0 : UInt32) : Answer := { w0, w1 := 0, frame := [] }

def handOver (frame : List UInt8) : Answer := { w0 := UInt32.ofNat frame.length, w1 := 0, frame }

/-- An interrupt. `rok` is the bit of the status register, `received` the last frame that was drained from the ring. -/
def interrupt (d : Driver) (rok : Bool) (received : Option (List UInt8)) : Driver × Option Answer :=
  match received with
  | none => (d, none)
  | some frame =>
    if !rok then (d, none)
    else if d.recvArmed ∧ d.clientReply ≠ 0 ∧ d.clientBufMapped then ({ d with recvArmed := false, lastRx := [] }, some (handOver frame))
    else ({ d with lastRx := frame }, none)

/-- A request. `mapped` is whether a transferred grant could be mapped, `ok` whether the card took a frame. -/
def request (d : Driver) (mac : List UInt8) (mapped ok : Bool) (r : RecvResult) : Driver × Option Answer :=
  if r.w0 = nicOpSetBuffer then
    if r.transferredSlot ≠ 0 ∧ mapped then ({ d with clientBufMapped := true }, none) else (d, none)
  else if r.w0 = nicOpSetReply then
    if r.transferredSlot ≠ 0 then ({ d with clientReply := r.transferredSlot }, none) else (d, none)
  else if r.w0 = nicOpGetMac then
    if d.clientReply = 0 then (d, none)
    else (d, some { w0 := (packName mac).1, w1 := (packName mac).2, frame := [] })
  else if r.w0 = nicOpSend then
    if d.clientReply = 0 then (d, none)
    else if !d.clientBufMapped then (d, some (answerWith 0))
    else (d, some (answerWith (if ok then 1 else 0)))
  else if r.w0 = nicOpRecv then
    if d.clientReply = 0 then (d, none)
    else if !d.clientBufMapped then (d, some (answerWith 0))
    else if d.lastRx.length > 0 then ({ d with lastRx := [] }, some (handOver d.lastRx))
    else ({ d with recvArmed := true }, none)
  else if r.w0 = nicOpTryRecv then
    if d.clientReply = 0 then (d, none)
    else if !d.clientBufMapped ∨ d.lastRx.length = 0 then (d, some (answerWith 0))
    else ({ d with lastRx := [] }, some (handOver d.lastRx))
  else (d, none)

variable {d d' : Driver} {answer : Option Answer}

/-- Unless a receive is armed, an interrupt is not answered. -/
theorem interrupt_unarmed (unarmed : d.recvArmed = false) {rok : Bool} {received : Option (List UInt8)}
    (handled : d.interrupt rok received = (d', answer)) :
    answer = none ∧ d'.recvArmed = false ∧ d'.clientReply = d.clientReply := by
  unfold interrupt at handled
  split at handled
  · cases handled
    exact ⟨rfl, unarmed, rfl⟩
  · rw [if_neg (by simp [unarmed] : ¬ (d.recvArmed = true ∧ d.clientReply ≠ 0 ∧ d.clientBufMapped = true))] at handled
    split at handled <;> cases handled <;> exact ⟨rfl, unarmed, rfl⟩

variable {mapped ok : Bool} {r : RecvResult} {mac : List UInt8}

theorem request_unarmed (unarmed : d.recvArmed = false)
    (op : r.w0 ≠ nicOpRecv) (handled : d.request mac mapped ok r = (d', answer)) : d'.recvArmed = false := by
  have kept : (d.request mac mapped ok r).1.recvArmed = false := by
    unfold request
    rw [if_neg op]
    repeat' refine iteInduction (motive := fun out : Driver × Option Answer => out.1.recvArmed = false) (fun _ => ?_) fun _ => ?_
    all_goals exact unarmed
  rwa [handled] at kept

theorem request_clientReply (known : d.clientReply ≠ 0)
    (handled : d.request mac mapped ok r = (d', answer)) : d'.clientReply ≠ 0 := by
  have kept : (d.request mac mapped ok r).1.clientReply ≠ 0 := by
    unfold request
    repeat' refine iteInduction (motive := fun out : Driver × Option Answer => out.1.clientReply ≠ 0) (fun _ => ?_) fun _ => ?_
    all_goals first | exact known | assumption
  rwa [handled] at kept

/-- A request of a known client for an address, for a send or for a poll is answered at once. -/
theorem request_answered (known : d.clientReply ≠ 0)
    (op : r.w0 = nicOpGetMac ∨ r.w0 = nicOpSend ∨ r.w0 = nicOpTryRecv)
    (handled : d.request mac mapped ok r = (d', answer)) : ∃ a, answer = some a := by
  unfold request at handled
  rcases op with op | op | op <;> rw [op] at handled
  · rw [if_neg (by decide), if_neg (by decide), if_pos rfl, if_neg known] at handled
    cases handled
    exact ⟨_, rfl⟩
  · rw [if_neg (by decide), if_neg (by decide), if_neg (by decide), if_pos rfl, if_neg known] at handled
    split at handled <;> cases handled <;> exact ⟨_, rfl⟩
  · rw [if_neg (by decide), if_neg (by decide), if_neg (by decide), if_neg (by decide), if_neg (by decide), if_pos rfl,
      if_neg known] at handled
    split at handled <;> cases handled <;> exact ⟨_, rfl⟩

theorem request_setReply (op : r.w0 = nicOpSetReply)
    (some : r.transferredSlot ≠ 0) (handled : d.request mac mapped ok r = (d', answer)) :
    answer = none ∧ d'.clientReply ≠ 0 := by
  unfold request at handled
  rw [op, if_neg (by decide), if_pos rfl, if_pos some] at handled
  cases handled
  exact ⟨rfl, some⟩

theorem request_setBuffer (op : r.w0 = nicOpSetBuffer)
    (handled : d.request mac mapped ok r = (d', answer)) : answer = none := by
  unfold request at handled
  rw [op, if_pos rfl] at handled
  split at handled <;> cases handled <;> rfl

end Driver

end Pcern.NetRtl8139

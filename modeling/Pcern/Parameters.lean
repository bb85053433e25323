import Pcern.Keyed
import Pcern.Screen
import Mathlib.Data.List.Induction

/-!
The parameters of an escape sequence `ESC [ P F`. `P` is a list of decimal numbers between semicolons, and the final
byte `F` is executed with that list. What the parser of `ansi.rs` keeps instead is described by the pieces it has heard: it
drops an empty first piece, and it reads everything from the eighth piece on as one number.
-/
namespace Pcern.Console

/-- A byte between `ESC [` and the final byte. -/
inductive ParamByte where
  | digit (d : Fin 10)
  | semicolon
  | question
  deriving DecidableEq, Repr

namespace ParamByte

def byte : ParamByte → UInt8
  | digit d => 0x30 + UInt8.ofNat d
  | semicolon => 0x3B
  | question => 0x3F

def value : ParamByte → Nat
  | digit d => d
  | _ => 0

end ParamByte

open ParamByte

/-- The number a run of digits stands for, no larger than a parameter can be. -/
def saturated (piece : List ParamByte) : Nat := min (piece.foldl (fun n c => n * 10 + c.value) 0) 65535

def pieces (bytes : List ParamByte) : List (List ParamByte) := (bytes.filter (· ≠ .question)).splitOn .semicolon

def parameters (bytes : List ParamByte) : List Nat := ((pieces bytes).take maxParams).map saturated

/-- A parameter that is left out, or is zero, is one. -/
def given (ps : List Nat) (idx : Nat) : Nat := if ps.getD idx 0 = 0 then 1 else ps.getD idx 0

/-- The final byte with a list of parameters. -/
def executeWith (ps : List Nat) (byte : UInt8) (w : Writer) : Writer :=
  if byte = 0x41 then w.moveCursor (-(given ps 0)) 0
  else if byte = 0x42 then w.moveCursor (given ps 0) 0
  else if byte = 0x43 then w.moveCursor 0 (given ps 0)
  else if byte = 0x44 then w.moveCursor 0 (-(given ps 0))
  else if byte = 0x48 ∨ byte = 0x66 then w.setCursorPos (given ps 0 - 1) (given ps 1 - 1)
  else if byte = 0x4A then w.eraseInDisplay (ps.getD 0 0)
  else if byte = 0x4B then w.eraseInLine (ps.getD 0 0)
  else if byte = 0x6D then ps.foldl AnsiState.sgr w
  else w

/-- A sequence is executed with its parameters, whatever the final byte is and whatever is on the screen. -/
def ReadAsList (bytes : List ParamByte) : Prop :=
  ∀ (a : AnsiState) (w : Writer) (final : UInt8), a.state = .ground → 0x40 ≤ final → final ≤ 0x7E →
    let opened := a.feedAll w (0x1B :: 0x5B :: bytes.map byte)
    opened.2 = w ∧ (∀ idx, opened.1.rawParam idx = (parameters bytes).getD idx 0) ∧
      opened.1.feed final opened.2 = ({ opened.1 with state := .ground }, executeWith (parameters bytes) final w)

/-! ## Numbers -/

private theorem saturated_nil : saturated [] = 0 := rfl

private theorem saturated_snoc (piece : List ParamByte) (c : ParamByte) :
    saturated (piece ++ [c]) = min (min (saturated piece * 10) 65535 + c.value) 65535 := by
  simp only [saturated, List.foldl_append, List.foldl_cons, List.foldl_nil]
  omega

variable {heard rest : List (List ParamByte)} {ps : List Nat} {bytes piece : List ParamByte} {a : AnsiState}

private theorem saturated_eq_zero : saturated piece = 0 ↔ ∀ c ∈ piece, c.value = 0 := by
  induction piece using List.reverseRecOn with
  | nil => simp [saturated_nil]
  | append_singleton piece c before =>
    rw [saturated_snoc, List.forall_mem_append, List.forall_mem_singleton, ← before]
    omega

/-! ## Pieces -/

private theorem pieces_nil : pieces [] = [[]] := by
  simp [pieces, List.splitOn]

private theorem pieces_question (bytes : List ParamByte) : pieces (question :: bytes) = pieces bytes := by
  simp [pieces]

private theorem pieces_semicolon (bytes : List ParamByte) : pieces (semicolon :: bytes) = [] :: pieces bytes := by
  simp [pieces, List.splitOn, List.splitOnP_cons_eq_if_modifyHead]

private theorem pieces_digit (d : Fin 10) (bytes : List ParamByte) :
    pieces (digit d :: bytes) = (pieces bytes).modifyHead (digit d :: ·) := by
  simp [pieces, List.splitOn, List.splitOnP_cons_eq_if_modifyHead]

private theorem pieces_ne_nil (bytes : List ParamByte) : pieces bytes ≠ [] := by
  induction bytes with
  | nil => simp [pieces_nil]
  | cons c bytes more =>
    cases c with
    | digit d =>
      obtain ⟨first, rest, split⟩ := List.exists_cons_of_ne_nil more
      simp [pieces_digit, split]
    | semicolon => simp [pieces_semicolon]
    | question => rwa [pieces_question]

private theorem forall_zero_iff (bytes : List ParamByte) :
    (∀ c ∈ bytes, c.value = 0) ↔ ∀ piece ∈ pieces bytes, ∀ c ∈ piece, c.value = 0 := by
  induction bytes with
  | nil => simp [pieces_nil]
  | cons c bytes more =>
    rw [List.forall_mem_cons, more]
    cases c with
    | digit d =>
      obtain ⟨first, rest, split⟩ := List.exists_cons_of_ne_nil (pieces_ne_nil bytes)
      rw [pieces_digit, split, List.modifyHead_cons, List.forall_mem_cons, List.forall_mem_cons, List.forall_mem_cons, and_assoc]
    | semicolon => simp [pieces_semicolon, value]
    | question => simp [pieces_question, value]

private theorem getD_parameters (bytes : List ParamByte) (idx : Nat) :
    (parameters bytes).getD idx 0 = if idx < maxParams then saturated ((pieces bytes).getD idx []) else 0 := by
  rw [parameters, List.getD_eq_getElem?_getD, List.getElem?_map, List.getElem?_take, List.getD_eq_getElem?_getD]
  split
  · cases (pieces bytes)[idx]? <;> rfl
  · rfl

/-! ## What the parser has heard -/

/-- The digits that went into a parameter: the last one takes those of all further pieces. -/
def slot (heard : List (List ParamByte)) (idx : Nat) : List ParamByte :=
  if idx < maxParams - 1 then heard.getD idx [] else if idx = maxParams - 1 then (heard.drop (maxParams - 1)).flatten else []

private theorem slot_beyond {idx : Nat} (beyond : min maxParams heard.length ≤ idx) :
    slot heard idx = [] := by
  simp only [slot, maxParams, Nat.reduceSub] at beyond ⊢
  split
  · have short : heard.length ≤ idx := by omega
    rw [List.getD_eq_getElem?_getD, List.getElem?_eq_none short, Option.getD_none]
  · split
    · have short : heard.length ≤ 7 := by omega
      rw [List.drop_eq_nil_of_le short, List.flatten_nil]
    · rfl

private theorem slot_snoc_nil (heard : List (List ParamByte)) (idx : Nat) : slot (heard ++ [[]]) idx = slot heard idx := by
  unfold slot
  split
  · grind
  · split
    · rw [List.drop_append, List.flatten_append]
      cases maxParams - 1 - heard.length <;> simp
    · rfl

private theorem slot_snoc (heard : List (List ParamByte)) (piece : List ParamByte) (c : ParamByte) (idx : Nat) :
    slot (heard ++ [piece ++ [c]]) idx =
      if idx = min (maxParams - 1) heard.length then slot (heard ++ [piece]) idx ++ [c] else slot (heard ++ [piece]) idx := by
  unfold slot
  by_cases early : idx < maxParams - 1
  · simp only [if_pos early]
    grind
  · simp only [if_neg early]
    by_cases last : idx = maxParams - 1
    · simp only [if_pos last]
      by_cases full : maxParams - 1 ≤ heard.length
      · rw [if_pos (by omega), List.drop_append_of_le_length full, List.drop_append_of_le_length full]
        simp
      · have short (last : List ParamByte) : (heard ++ [last]).length ≤ maxParams - 1 := by
          rw [List.length_append, List.length_singleton]
          omega
        rw [if_neg (by omega), List.drop_eq_nil_of_le (short _), List.drop_eq_nil_of_le (short _)]
    · rw [if_neg last, if_neg last, if_neg (by omega)]

theorem AnsiState.param_one (a : AnsiState) (idx : Nat) : a.param idx 1 = if a.rawParam idx = 0 then 1 else a.rawParam idx := by
  unfold AnsiState.param AnsiState.rawParam
  by_cases within : idx < a.nparams
  · by_cases zero : a.params idx = 0 <;> simp [within, zero]
  · simp [within]

/-- The parser is within a sequence and has heard some pieces of it. -/
structure Heard (a : AnsiState) (heard : List (List ParamByte)) : Prop where
  state : a.state = .csi
  nparams : a.nparams = min maxParams heard.length
  params : ∀ idx, a.params idx = saturated (slot heard idx)

namespace Heard
variable {a : AnsiState} {heard : List (List ParamByte)} (hears : Heard a heard)
include hears

theorem rawParam (idx : Nat) : a.rawParam idx = saturated (slot heard idx) := by
  unfold AnsiState.rawParam
  split
  · exact hears.params idx
  next beyond => rw [slot_beyond (by rw [← hears.nparams]; omega), saturated_nil]

private theorem question (w : Writer) : a.feed question.byte w = (a, w) := by
  rw [AnsiState.feed, hears.state]
  rfl

private theorem semicolon (w : Writer) : ∃ a', a.feed semicolon.byte w = (a', w) ∧ Heard a' (heard ++ [[]]) := by
  refine ⟨if a.nparams < maxParams then { a with nparams := a.nparams + 1 } else a, ?_, ?_, ?_, fun idx => ?_⟩
  · rw [AnsiState.feed, hears.state]
    rfl
  · split <;> exact hears.state
  · have count := hears.nparams
    rw [List.length_append, List.length_singleton]
    split
    · dsimp only
      omega
    · omega
  · rw [slot_snoc_nil, ← hears.params]
    split <;> rfl

end Heard

theorem Heard.digit (heard : List (List ParamByte)) (piece : List ParamByte) (a : AnsiState) (d : Fin 10) (w : Writer)
    (state : a.state = .csi) (count : max 1 a.nparams = min maxParams (heard.length + 1))
    (params : ∀ idx, a.params idx = saturated (slot (heard ++ [piece]) idx)) :
    ∃ a', a.feed (ParamByte.digit d).byte w = (a', w) ∧ Heard a' (heard ++ [piece ++ [ParamByte.digit d]]) := by
  have isDigit : 0x30 ≤ (ParamByte.digit d).byte ∧ (ParamByte.digit d).byte ≤ 0x39 := by
    simp only [UInt8.le_iff_toNat_le]
    revert d
    decide
  have value : ((ParamByte.digit d).byte - 0x30).toNat = d := by
    revert d
    decide
  have at_least : (if a.nparams = 0 then 1 else a.nparams) = min maxParams (heard.length + 1) := by
    rw [← count]
    split <;> omega
  have position : min maxParams (heard.length + 1) - 1 = min (maxParams - 1) heard.length := by
    simp only [maxParams]
    omega
  have written : a.digit d = { a with
      nparams := min maxParams (heard.length + 1)
      params := Function.update a.params (min (maxParams - 1) heard.length)
        (min (min (a.params (min (maxParams - 1) heard.length) * 10) 65535 + d) 65535) } := by
    simp only [AnsiState.digit, at_least, position]
    rw [if_pos (Nat.lt_of_le_of_lt (Nat.min_le_left _ _) (by decide))]
  refine ⟨a.digit d, ?_, ?_, ?_, fun idx => ?_⟩
  · rw [AnsiState.feed, state]
    dsimp only
    rw [if_pos isDigit, value]
  · rw [written]
    exact state
  · rw [written, List.length_append, List.length_singleton]
  · rw [written, slot_snoc]
    by_cases here : idx = min (maxParams - 1) heard.length
    · rw [here, if_pos rfl, saturated_snoc, ← params]
      exact Function.update_self ..
    · rw [if_neg here, ← params]
      exact Function.update_of_ne here ..

theorem Heard.begin_digit (hears : Heard a []) (d : Fin 10) (w : Writer) :
    ∃ a', a.feed (ParamByte.digit d).byte w = (a', w) ∧ Heard a' [[ParamByte.digit d]] := by
  refine Heard.digit [] [] a d w hears.state ?_ fun idx => ?_
  · rw [hears.nparams]
    rfl
  · rw [hears.params, slot_snoc_nil]

theorem Heard.next_digit
    (hears : Heard a (heard ++ [piece])) (d : Fin 10) (w : Writer) :
    ∃ a', a.feed (ParamByte.digit d).byte w = (a', w) ∧ Heard a' (heard ++ [piece ++ [ParamByte.digit d]]) := by
  refine Heard.digit _ _ a d w hears.state ?_ hears.params
  have count := hears.nparams
  rw [List.length_append, List.length_singleton] at count
  simp only [maxParams] at count ⊢
  omega

theorem Heard.run (heard : List (List ParamByte)) {piece first : List ParamByte}
    (hears : Heard a (heard ++ [piece]))
    (split : pieces bytes = first :: rest) (w : Writer) :
    ∃ a', a.feedAll w (bytes.map byte) = (a', w) ∧ Heard a' (heard ++ (piece ++ first) :: rest) := by
  induction bytes generalizing a heard piece first rest with
  | nil =>
    rw [pieces_nil] at split
    cases split
    exact ⟨a, rfl, by rwa [List.append_nil]⟩
  | cons c bytes more =>
    rw [List.map_cons, AnsiState.feedAll]
    cases c with
    | digit d =>
      obtain ⟨a', fed, hears'⟩ := hears.next_digit d w
      obtain ⟨first', rest', split'⟩ := List.exists_cons_of_ne_nil (pieces_ne_nil bytes)
      rw [pieces_digit, split'] at split
      cases split
      rw [fed]
      simpa using more _ hears' split'
    | semicolon =>
      obtain ⟨a', fed, hears'⟩ := hears.semicolon w
      obtain ⟨first', rest', split'⟩ := List.exists_cons_of_ne_nil (pieces_ne_nil bytes)
      rw [pieces_semicolon, split'] at split
      cases split
      rw [fed]
      simpa using more _ hears' split'
    | question =>
      rw [pieces_question] at split
      rw [hears.question]
      exact more _ hears split

/-- What the parser makes of the pieces: an empty first one is not counted. -/
def overheard (bytes : List ParamByte) : List (List ParamByte) :=
  if (pieces bytes).head? = some [] then (pieces bytes).tail else pieces bytes

theorem Heard.begin_run (hears : Heard a []) (bytes : List ParamByte) (w : Writer) :
    ∃ a', a.feedAll w (bytes.map byte) = (a', w) ∧ Heard a' (overheard bytes) := by
  induction bytes with
  | nil => exact ⟨a, rfl, by simpa [overheard, pieces_nil] using hears⟩
  | cons c bytes more =>
    obtain ⟨first, rest, split⟩ := List.exists_cons_of_ne_nil (pieces_ne_nil bytes)
    rw [List.map_cons, AnsiState.feedAll]
    cases c with
    | digit d =>
      obtain ⟨a', fed, hears'⟩ := hears.begin_digit d w
      rw [fed]
      simpa [overheard, pieces_digit, split] using Heard.run [] hears' split w
    | semicolon =>
      obtain ⟨a', fed, hears'⟩ := hears.semicolon w
      rw [fed]
      simpa [overheard, pieces_semicolon, split] using Heard.run [] hears' split w
    | question =>
      rw [hears.question, overheard, pieces_question]
      exact more

theorem Heard.opened (a : AnsiState) (ground : a.state = .ground) (bytes : List ParamByte) (w : Writer) :
    ∃ a', a.feedAll w (0x1B :: 0x5B :: bytes.map byte) = (a', w) ∧ Heard a' (overheard bytes) := by
  have escape (w : Writer) : a.feed 0x1B w = ({ a with state := .escape }, w) := by
    rw [AnsiState.feed, ground]
    rfl
  have bracket (a : AnsiState) (escaped : a.state = .escape) :
      a.feed 0x5B w = ({ state := .csi, params := fun _ => 0, nparams := 0 }, w) := by
    rw [AnsiState.feed, escaped]
    rfl
  have fresh : Heard { state := .csi, params := fun _ => 0, nparams := 0 } [] := by
    refine ⟨rfl, rfl, fun idx => ?_⟩
    rw [slot_beyond (Nat.zero_le idx), saturated_nil]
  rw [AnsiState.feedAll, escape, AnsiState.feedAll, bracket _ rfl]
  exact fresh.begin_run bytes w

/-! ## Execution -/

private theorem sgr_zero (w : Writer) : AnsiState.sgr w 0 = w.resetAttributes := rfl

private theorem resetAttributes_twice (w : Writer) : w.resetAttributes.resetAttributes = w.resetAttributes := rfl

private theorem foldl_sgr_zero (zero : ∀ p ∈ ps, p = 0) (some : ps ≠ []) (w : Writer) :
    ps.foldl AnsiState.sgr w = w.resetAttributes := by
  induction ps generalizing w with
  | nil => contradiction
  | cons p ps more =>
    rw [List.forall_mem_cons] at zero
    rw [List.foldl_cons, zero.1, sgr_zero]
    by_cases last : ps = []
    · rw [last, List.foldl_nil]
    · rw [more zero.2 last, resetAttributes_twice]

private theorem parameters_ne_nil (bytes : List ParamByte) : parameters bytes ≠ [] := by
  simp [parameters, pieces_ne_nil]

theorem execute_eq {w : Writer} (agree : ∀ idx, a.rawParam idx = ps.getD idx 0)
    (attributes : a.applySgr w = ps.foldl AnsiState.sgr w) (byte : UInt8) : a.execute byte w = executeWith ps byte w := by
  have first (idx : Nat) : a.param idx 1 = given ps idx := by rw [a.param_one, agree, given]
  simp only [AnsiState.execute, executeWith, first, agree, attributes]

/-- Parameters as they are written: all of them zero, or a first piece that is there and an eighth piece that the further
ones do not change. -/
def Plain (bytes : List ParamByte) : Prop :=
  (∀ c ∈ bytes, c.value = 0) ∨
    (pieces bytes).head? ≠ some [] ∧
      saturated ((pieces bytes).drop (maxParams - 1)).flatten = saturated ((pieces bytes).getD (maxParams - 1) [])

private theorem saturated_pieces_zero (zero : ∀ c ∈ bytes, c.value = 0) :
    ∀ piece ∈ pieces bytes, saturated piece = 0 := by
  rw [forall_zero_iff] at zero
  exact fun piece there => saturated_eq_zero.mpr (zero piece there)

private theorem parameters_zero (zero : ∀ c ∈ bytes, c.value = 0) : ∀ p ∈ parameters bytes, p = 0 := by
  intro p there
  obtain ⟨piece, taken, rfl⟩ := List.mem_map.mp there
  exact saturated_pieces_zero zero piece (List.mem_of_mem_take taken)

private theorem mem_of_mem_slot {idx : Nat} {c : ParamByte} (there : c ∈ slot heard idx) :
    ∃ piece ∈ heard, c ∈ piece := by
  unfold slot at there
  split at there
  · grind
  · split at there
    · obtain ⟨piece, dropped, within⟩ := List.mem_flatten.mp there
      exact ⟨piece, List.mem_of_mem_drop dropped, within⟩
    · contradiction

private theorem saturated_slot_zero (zero : ∀ c ∈ bytes, c.value = 0) (idx : Nat) :
    saturated (slot (overheard bytes) idx) = 0 := by
  rw [forall_zero_iff] at zero
  refine saturated_eq_zero.mpr fun c there => ?_
  obtain ⟨piece, heard, within⟩ := mem_of_mem_slot there
  refine zero piece ?_ c within
  unfold overheard at heard
  split at heard
  · exact List.mem_of_mem_tail heard
  · exact heard

private theorem zero_of_shift
    (shift : ∀ idx < maxParams, saturated (slot rest idx) = saturated (([] :: rest).getD idx [])) :
    ∀ piece ∈ rest, ∀ c ∈ piece, c.value = 0 := by
  have early (idx : Nat) (small : idx < maxParams - 1) : saturated (rest.getD idx []) = 0 := by
    induction idx with
    | zero => simpa [slot, saturated_nil] using shift 0 (by decide)
    | succ idx before =>
      have same := shift (idx + 1) (by omega)
      rw [slot, if_pos small, List.getD_cons_succ, before (by omega)] at same
      exact same
  have late : saturated (rest.drop (maxParams - 1)).flatten = 0 := by
    have same := shift (maxParams - 1) (by decide)
    rw [slot, if_neg (Nat.lt_irrefl _), if_pos rfl] at same
    exact same.trans (early (maxParams - 2) (by decide))
  intro piece there c within
  rw [← List.take_append_drop (maxParams - 1) rest, List.mem_append] at there
  rcases there with taken | dropped
  · obtain ⟨idx, small, isPiece⟩ := List.mem_take_iff_getElem.mp taken
    have zero := early idx (by omega)
    rw [List.getD_eq_getElem?_getD, List.getElem?_eq_getElem (by omega), isPiece] at zero
    exact saturated_eq_zero.mp zero c within
  · exact saturated_eq_zero.mp late c (List.mem_flatten.mpr ⟨piece, dropped, within⟩)

private theorem agree_iff (bytes : List ParamByte) :
    (∀ idx, saturated (slot (overheard bytes) idx) = (parameters bytes).getD idx 0) ↔ Plain bytes := by
  constructor
  · intro agree
    by_cases empty : (pieces bytes).head? = some []
    · left
      obtain ⟨rest, split⟩ : ∃ rest, pieces bytes = [] :: rest := List.head?_eq_some_iff.mp empty
      have shift (idx : Nat) (small : idx < maxParams) :
          saturated (slot rest idx) = saturated (([] :: rest).getD idx []) := by
        have same := agree idx
        rwa [overheard, if_pos empty, getD_parameters, if_pos small, split, List.tail_cons] at same
      rw [forall_zero_iff, split, List.forall_mem_cons]
      exact ⟨by simp, zero_of_shift shift⟩
    · right
      have eighth := agree (maxParams - 1)
      rw [overheard, if_neg empty, slot, if_neg (Nat.lt_irrefl _), if_pos rfl, getD_parameters, if_pos (by decide)] at eighth
      exact ⟨empty, eighth⟩
  · rintro (zero | ⟨nonempty, eighth⟩) idx
    · rw [saturated_slot_zero zero, Keyed.getD_eq_default (parameters_zero zero)]
    · rw [overheard, if_neg nonempty, getD_parameters, slot]
      by_cases early : idx < maxParams - 1
      · rw [if_pos early, if_pos (by omega)]
      · by_cases last : idx = maxParams - 1
        · rw [if_neg early, if_pos last, last, if_pos (by decide), eighth]
        · rw [if_neg early, if_neg last, if_neg (by omega), saturated_nil]

theorem Heard.applySgr (hears : Heard a (overheard bytes)) (plain : Plain bytes)
    (w : Writer) : a.applySgr w = (parameters bytes).foldl AnsiState.sgr w := by
  have kept (idx : Nat) : a.params idx = (parameters bytes).getD idx 0 := by
    rw [hears.params, (agree_iff bytes).mpr plain]
  rw [AnsiState.applySgr, ← List.foldl_map]
  rcases plain with zero | ⟨nonempty, eighth⟩
  · have none_set : ∀ p ∈ (List.range a.nparams).map a.params, p = 0 := by
      simp only [List.mem_map, kept, Keyed.getD_eq_default (parameters_zero zero)]
      rintro p ⟨_, _, rfl⟩
      rfl
    rw [foldl_sgr_zero (parameters_zero zero) (parameters_ne_nil bytes)]
    split
    · rfl
    next counted => exact foldl_sgr_zero none_set (by simpa using counted) w
  · have count : a.nparams = (parameters bytes).length := by
      rw [hears.nparams, overheard, if_neg nonempty, parameters, List.length_map, List.length_take]
    have same : (List.range a.nparams).map a.params = parameters bytes := by
      refine List.ext_getElem (by simp [count]) fun idx small there => ?_
      rw [List.getElem_map, List.getElem_range, kept, List.getD_eq_getElem?_getD, List.getElem?_eq_getElem there, Option.getD_some]
    rw [if_neg, same]
    rw [count, List.length_eq_zero_iff]
    exact parameters_ne_nil bytes

/-- A sequence is executed with the parameters it is written with exactly when they are plain. -/
theorem read_as_list_iff (bytes : List ParamByte) : ReadAsList bytes ↔ Plain bytes := by
  constructor
  · intro reads
    obtain ⟨a, opened, hears⟩ := Heard.opened .init rfl bytes (.new fun _ => 0)
    have agree := (reads .init (.new fun _ => 0) 0x6D rfl (by simp) (by simp)).2.1
    rw [opened] at agree
    exact (agree_iff bytes).mp fun idx => (hears.rawParam idx).symm.trans (agree idx)
  · intro plain a w final ground lower upper
    obtain ⟨a', opened, hears⟩ := Heard.opened a ground bytes w
    have agree (idx : Nat) : a'.rawParam idx = (parameters bytes).getD idx 0 := by
      rw [hears.rawParam, (agree_iff bytes).mpr plain]
    dsimp only
    rw [opened]
    refine ⟨rfl, agree, ?_⟩
    have noParam : ¬(0x30 ≤ final ∧ final ≤ 0x39) ∧ final ≠ 0x3B ∧ final ≠ 0x3F := by
      simp only [UInt8.le_iff_toNat_le, ← UInt8.toNat_inj, UInt8.reduceToNat, ne_eq] at lower ⊢
      omega
    rw [AnsiState.feed, hears.state]
    dsimp only
    rw [if_neg noParam.1, if_neg noParam.2.1, if_neg noParam.2.2, if_pos ⟨lower, upper⟩,
      execute_eq agree (hears.applySgr plain w)]

/-- `ESC [ ; 5 H` asks for the first row and the fifth column, and goes to the fifth row and the first column. Of nine
parameters the last one is read as more digits of the eighth. -/
theorem empty_first_parameter_lost :
    parameters [semicolon, digit 5] = [0, 5] ∧
      ((executeWith (parameters [semicolon, digit 5]) 0x48 (Writer.new fun _ => 0)).row,
        (executeWith (parameters [semicolon, digit 5]) 0x48 (Writer.new fun _ => 0)).col) = (0, 4) ∧
      ((AnsiState.init.feedAll (Writer.new fun _ => 0) [0x1B, 0x5B, 0x3B, 0x35, 0x48]).2.row,
        (AnsiState.init.feedAll (Writer.new fun _ => 0) [0x1B, 0x5B, 0x3B, 0x35, 0x48]).2.col) = (4, 0) ∧
      ¬ReadAsList [semicolon, digit 5] ∧
      ¬ReadAsList ((List.replicate 8 [digit 1, semicolon]).flatten ++ [digit 2]) := by
  refine ⟨by decide, by decide, by decide, fun reads => ?_, fun reads => ?_⟩
  · have agree := (reads .init (.new fun _ => 0) 0x48 rfl (by simp) (by simp)).2.1 0
    revert agree
    decide
  · have agree := (reads .init (.new fun _ => 0) 0x48 rfl (by simp) (by simp)).2.1 7
    revert agree
    decide

end Pcern.Console

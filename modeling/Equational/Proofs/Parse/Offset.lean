import Equational.Proofs.Run.Sound
import Equational.Proofs.Parse.Splitting

/-!
# Offsets of tokens

Spans are recorded in 32 bits, so they do not tell how far into a long text a cursor has come.  The
weight of the tokens that were passed does: it grows with every token, and splitting one does not
change it.  A placement gives the offset behind each weight.
-/

namespace Equational

open Cursor

/-! ## Tokens -/

/-- The token begins behind so much weight and ends in front of the next one.  An operator has room
for its value, byte by byte. -/
structure Token.StandsAt (place : Nat → Nat) (weight : Nat) (token : Token) : Prop where
  start : token.span.start = recorded (place weight)
  stop : token.kind ≠ .endOfInput → ∃ stop, token.span.stop = recorded stop ∧
    place weight < stop ∧ stop ≤ place (weight + tokenWeight token) ∧
    (token.kind = .operatorSymbol → place weight + token.value.utf8ByteSize ≤ stop)
  within : token.kind = .operatorSymbol → ∀ bytes < token.value.utf8ByteSize,
    place (weight + bytes) = place weight + bytes

inductive Stand (place : Nat → Nat) : Nat → List Token → Prop where
  | nil (weight : Nat) : Stand place weight []
  | cons {weight : Nat} {token : Token} {rest : List Token} (h : token.StandsAt place weight)
    (hrest : Stand place (weight + tokenWeight token) rest) : Stand place weight (token :: rest)

section Shift

variable {place later : Nat → Nat} {distance weight : Nat}
  (h : ∀ weight, later (weight + distance) = place weight)

include h

theorem Token.StandsAt.shift {token : Token} (htoken : token.StandsAt place weight) :
    token.StandsAt later (weight + distance) where
  start := (h weight).symm ▸ htoken.start
  stop hkind := by
    rw [Nat.add_right_comm, h, h]
    exact htoken.stop hkind
  within hkind bytes hbytes := by
    rw [Nat.add_right_comm, h, h]
    exact htoken.within hkind bytes hbytes

theorem Stand.shift {tokens : List Token} (htokens : Stand place weight tokens) :
    Stand later (weight + distance) tokens := by
  induction htokens with
  | nil => exact .nil _
  | cons htoken _ ih =>
    refine .cons (htoken.shift h) ?_
    rwa [Nat.add_right_comm]

end Shift

section Parts

variable {place : Nat → Nat} {weight bytes : Nat} {token : Token} {head tail : List Char}
  (h : token.StandsAt place weight) (hkind : token.kind = .operatorSymbol)
  (hcut : cutText? bytes token.value.toList = some (head, tail))

include h hkind hcut

theorem Token.StandsAt.offset_of_cut : place (weight + bytes) = place weight + bytes := by
  refine h.within hkind bytes ?_
  have htail := byteLength_pos (byteLength_of_cutText hcut).2.2
  rw [utf8ByteSize_of_cut hcut]
  omega

theorem Token.StandsAt.frontToken : (frontToken token bytes head).StandsAt place weight := by
  obtain ⟨hbytes, hhead, -⟩ := byteLength_of_cutText hcut
  have hoffset := h.offset_of_cut hkind hcut
  have hpos := byteLength_pos hhead
  have hweight : tokenWeight (Cursor.frontToken token bytes head) = bytes :=
    (tokenWeight_operatorPart hhead _).trans hbytes
  have hvalue : (Cursor.frontToken token bytes head).value.utf8ByteSize = bytes :=
    (utf8ByteSize_ofList head).trans hbytes
  refine ⟨h.start, fun _ => ⟨place weight + bytes, ?_, by omega, ?_, fun _ => ?_⟩, fun _ n hn => ?_⟩
  · change recorded (token.span.start + bytes) = _
    rw [h.start, recorded_recorded_add]
  · exact Nat.le_of_eq (by rw [hweight, hoffset])
  · exact Nat.le_of_eq (by rw [hvalue])
  · rw [hvalue] at hn
    refine h.within hkind n ?_
    rw [utf8ByteSize_of_cut hcut]
    omega

theorem Token.StandsAt.backToken :
    (backToken token bytes tail).StandsAt place (weight + bytes) := by
  obtain ⟨hbytes, hhead, htail⟩ := byteLength_of_cutText hcut
  have hoffset := h.offset_of_cut hkind hcut
  have hwhole := utf8ByteSize_of_cut hcut
  have hpos := byteLength_pos htail
  have hweight : tokenWeight (Cursor.backToken token bytes tail) = byteLength tail :=
    tokenWeight_operatorPart htail _
  have hvalue : (Cursor.backToken token bytes tail).value.utf8ByteSize = byteLength tail :=
    utf8ByteSize_ofList tail
  have htoken : tokenWeight token = bytes + byteLength tail := by
    rw [tokenWeight, hwhole]
    omega
  obtain ⟨stop, hstop, -, hnext, hroom⟩ := h.stop (by simp [hkind])
  have hroom := hroom hkind
  rw [hwhole] at hroom
  rw [htoken, ← Nat.add_assoc] at hnext
  refine ⟨?_, fun _ => ⟨stop, hstop, ?_, ?_, fun _ => ?_⟩, fun _ n hn => ?_⟩
  · change recorded (token.span.start + bytes) = _
    rw [h.start, recorded_recorded_add, hoffset]
  · omega
  · rwa [hweight]
  · rw [hvalue]
    omega
  · rw [hvalue] at hn
    rw [hoffset, Nat.add_assoc, Nat.add_assoc]
    exact h.within hkind (bytes + n) (by omega)

end Parts

/-! ## Cursors -/

namespace Cursor

variable {place : Nat → Nat} {cursor after : Cursor} {token : Token}

def offset (place : Nat → Nat) (cursor : Cursor) : Nat := place (totalWeight cursor.passed)

/-- The tokens ahead stand where the placement says. -/
def Stands (place : Nat → Nat) (cursor : Cursor) : Prop :=
  Stand place (totalWeight cursor.passed) cursor.ahead

def EndsBehind (place : Nat → Nat) (start : Nat) (cursor : Cursor) : Prop :=
  ∃ stop, cursor.previousEnd = recorded stop ∧ start < stop ∧ stop ≤ cursor.offset place

theorem Takes.stands (h : cursor.Takes token after) (hstands : cursor.Stands place) :
    after.Stands place ∧ after.EndsBehind place (cursor.offset place) := by
  cases h with
  | @intro passed _ rest errors hkind =>
    obtain _ | ⟨htoken, hrest⟩ := hstands
    obtain ⟨stop, hstop, hlt, hle, -⟩ := htoken.stop hkind
    rw [Nat.add_comm] at hle hrest
    exact ⟨hrest, stop, hstop, hlt, hle⟩

theorem Stands.split (h : cursor.Stands place) (hkind : cursor.current.kind = .operatorSymbol)
    (bytes : Nat) : (cursor.split bytes).Stands place := by
  rcases cursor.split_cases bytes with
    hsplit | ⟨passed, token, rest, errors, head, tail, rfl, hcut, hsplit⟩ <;> rw [hsplit]
  · exact h
  · obtain _ | ⟨htoken, hrest⟩ := h
    have hfront := tokenWeight_parts hcut
    have hhead : tokenWeight (frontToken token bytes head) = bytes := by
      obtain ⟨hbytes, hne, -⟩ := byteLength_of_cutText hcut
      exact (tokenWeight_operatorPart hne _).trans hbytes
    rw [hhead] at hfront
    refine .cons (htoken.frontToken hkind hcut) ?_
    rw [hhead]
    refine .cons (htoken.backToken hkind hcut) ?_
    rwa [Nat.add_assoc, hfront]

theorem offset_split (place : Nat → Nat) (cursor : Cursor) (bytes : Nat) :
    (cursor.split bytes).offset place = cursor.offset place := by
  rcases cursor.split_cases bytes with hsplit | ⟨_, _, _, _, _, _, rfl, -, hsplit⟩ <;> rw [hsplit]
  rfl

theorem previousEnd_split (cursor : Cursor) (bytes : Nat) :
    (cursor.split bytes).previousEnd = cursor.previousEnd := by
  rcases cursor.split_cases bytes with hsplit | ⟨_, _, _, _, _, _, rfl, -, hsplit⟩ <;> rw [hsplit]
  rfl

theorem Stands.start_eq (h : cursor.Stands place) (hended : cursor.IsEnded) :
    cursor.current.span.start = recorded (cursor.offset place) := by
  obtain ⟨passed, token, rest, errors, rfl⟩ := hended.exists_cons
  obtain _ | ⟨htoken, -⟩ := h
  exact htoken.start

end Cursor

/-! ## States -/

/-- The tokens ahead stand behind an offset; whether one was passed since is told too. -/
structure ParseState.Stands (place : Nat → Nat) (start : Nat) (moved : Bool) (state : ParseState) :
    Prop where
  sound : state.cursor.IsSound state.limit
  stands : state.cursor.Stands place
  start_le : start ≤ state.cursor.offset place
  passed : moved → state.cursor.EndsBehind place start

namespace ParseState.Stands

variable {place : Nat → Nat} {start : Nat} {moved : Bool} {noise : Noise} {state next : ParseState}

theorem takes {after : Cursor} {token : Token} (h : state.Stands place start moved)
    (htakes : state.cursor.Takes token after) :
    { state with cursor := after }.Stands place start true := by
  obtain ⟨hafter, stop, hstop, hlt, hle⟩ := htakes.stands h.stands
  have hstart := Nat.lt_of_le_of_lt h.start_le hlt
  exact ⟨h.sound.takes htakes, hafter, Nat.le_trans (Nat.le_of_lt hstart) hle,
    fun _ => ⟨stop, hstop, hstart, hle⟩⟩

theorem weaken (h : state.Stands place start true) : state.Stands place start moved :=
  ⟨h.sound, h.stands, h.start_le, fun _ => h.passed rfl⟩

theorem advance (h : state.Stands place start moved)
    (hkind : state.cursor.current.kind ≠ .endOfInput) :
    { state with cursor := state.cursor.advance }.Stands place start true :=
  h.takes (h.sound.isEnded.takes hkind)

theorem begins (h : state.Stands place start moved) :
    state.Stands place (state.cursor.offset place) false :=
  ⟨h.sound, h.stands, Nat.le_refl _, nofun⟩

theorem move (h : state.Stands place start moved) (hmove : Move noise state next) :
    next.Stands place start moved := by
  cases hmove with
  | advance =>
    rcases h.sound.advance_cases with hstay | htakes
    · rwa [hstay]
    · exact (h.takes htakes).weaken
  | split hdot =>
    have hkind := (kind_of_beginsWithDot hdot).1
    refine ⟨h.sound.split hdot, h.stands.split hkind 1, ?_, fun hmoved => ?_⟩
    · exact (offset_split place _ 1).symm ▸ h.start_le
    · obtain ⟨stop, hstop, hlt, hle⟩ := h.passed hmoved
      exact ⟨stop, (previousEnd_split _ 1).trans hstop, hlt, (offset_split place _ 1).symm ▸ hle⟩
  | unexpected _ expected =>
    have hsound := h.sound.unexpected expected
    obtain ⟨errors, hresult⟩ := state.cursor.exists_errors_of_unexpected expected
    rw [hresult] at hsound ⊢
    exact ⟨hsound, h.stands, h.start_le, h.passed⟩
  | exhaust | report => exact ⟨h.sound, h.stands, h.start_le, h.passed⟩

theorem moves (h : state.Stands place start moved) (hmoves : Moves noise state next) :
    next.Stands place start moved := by
  induction hmoves with
  | refl => exact h
  | tail _ hmove ih => exact ih.move hmove

theorem offset_le (h : state.Stands place start moved) (hmoves : Moves noise state next) :
    state.cursor.offset place ≤ next.cursor.offset place :=
  (h.begins.moves hmoves).start_le

theorem lt_offset (h : state.Stands place start true) : start < state.cursor.offset place := by
  obtain ⟨stop, -, hlt, hle⟩ := h.passed rfl
  exact Nat.lt_of_lt_of_le hlt hle

theorem skipStatement (h : state.Stands place start moved) :
    { state with cursor := state.cursor.skipStatement }.Stands place start moved :=
  skipStatement_induction (motive := fun cursor => { state with cursor }.Stands place start moved)
    (fun htakes hstands => (hstands.takes htakes).weaken) h

end ParseState.Stands

end Equational

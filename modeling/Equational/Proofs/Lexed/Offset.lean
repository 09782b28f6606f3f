import Equational.Proofs.Lexed.Token
import Equational.Proofs.Parse.Offset

/-!
# Offsets in a text

Where the tokens of a text begin, by the weight of those in front of them.
-/

namespace Equational

open Cursor

/-- The offset behind so much weight.  Where only a part of a token has been passed, it is as many
bytes behind the start of that token, if the token is not shorter. -/
def offsetBehind (size : Nat) : List Piece → Nat → Nat
  | [], _ => size
  | piece :: rest, weight =>
    match piece.slot? with
    | none => offsetBehind size rest weight
    | some slot =>
      if weight < tokenWeight slot.toToken then min (piece.span.start + weight) piece.span.stop
      else offsetBehind size rest (weight - tokenWeight slot.toToken)

variable {size weight : Nat} {piece : Piece} {pieces rest : List Piece} {slot : Slot}

theorem offsetBehind_of_trivia (h : piece.slot? = none) :
    offsetBehind size (piece :: rest) = offsetBehind size rest := by
  funext weight
  rw [offsetBehind, h]

theorem offsetBehind_add (h : piece.slot? = some slot) :
    offsetBehind size (piece :: rest) (weight + tokenWeight slot.toToken) =
      offsetBehind size rest weight := by
  rw [offsetBehind, h]
  exact (if_neg (Nat.not_lt.mpr (Nat.le_add_left _ _))).trans (by rw [Nat.add_sub_cancel])

theorem offsetBehind_of_lt (h : piece.slot? = some slot)
    (hweight : weight < tokenWeight slot.toToken) :
    offsetBehind size (piece :: rest) weight = min (piece.span.start + weight) piece.span.stop := by
  rw [offsetBehind, h]
  exact if_pos hweight

theorem offsetBehind_le (h : ∀ piece ∈ pieces, piece.span.stop ≤ size) (weight : Nat) :
    offsetBehind size pieces weight ≤ size := by
  induction pieces generalizing weight with
  | nil => exact Nat.le_refl _
  | cons piece rest ih =>
    obtain ⟨hfirst, hrest⟩ := List.forall_mem_cons.mp h
    rw [offsetBehind]
    split
    · exact ih hrest weight
    · split
      · exact Nat.le_trans (Nat.min_le_right _ _) hfirst
      · exact ih hrest _

private theorem le_offsetBehind {low : Nat} (h : ∀ piece ∈ pieces, low ≤ piece.span.start)
    (hsize : low ≤ size) (weight : Nat) : low ≤ offsetBehind size pieces weight := by
  induction pieces generalizing weight with
  | nil => exact hsize
  | cons piece rest ih =>
    obtain ⟨hfirst, hrest⟩ := List.forall_mem_cons.mp h
    have hlength : piece.span.start ≤ piece.span.stop := Nat.le_add_right _ _
    rw [offsetBehind]
    split
    · exact ih hrest weight
    · split
      · exact Nat.le_min.mpr ⟨by omega, by omega⟩
      · exact ih hrest _

private theorem Piece.standsAt (h : piece.IsSound) (hslot : piece.slot? = some slot)
    (hbehind : ∀ weight, piece.span.stop ≤ offsetBehind size rest weight) :
    slot.toToken.StandsAt (offsetBehind size (piece :: rest)) 0 := by
  obtain ⟨hnonempty, hspan, hroom⟩ := fills_of_slot h hslot
  have hpos : 0 < tokenWeight slot.toToken := Nat.le_max_left 1 _
  have hstart : offsetBehind size (piece :: rest) 0 = piece.span.start :=
    (offsetBehind_of_lt hslot hpos).trans (Nat.min_eq_left (Nat.le_of_lt hnonempty))
  refine ⟨by rw [hstart, hspan]; rfl, fun _ => ⟨piece.span.stop, by rw [hspan]; rfl, ?_, ?_, ?_⟩,
    fun hkind bytes hbytes => ?_⟩
  · rwa [hstart]
  · rw [offsetBehind_add hslot]
    exact hbehind 0
  · rwa [hstart]
  · have hweight : bytes < tokenWeight slot.toToken :=
      Nat.lt_of_lt_of_le hbytes (Nat.le_max_right 1 _)
    have hroom := hroom hkind
    rw [Nat.zero_add, hstart, offsetBehind_of_lt hslot hweight]
    omega

namespace Lexed.CutInto

variable {source : List Char}

private theorem stand_slotsOf (hordered : pieces.Pairwise fun first second =>
      first.span.stop ≤ second.span.start)
    (hsound : ∀ piece ∈ pieces, piece.IsSound) (hsize : ∀ piece ∈ pieces, piece.span.stop ≤ size) :
    Stand (offsetBehind size pieces) 0 (tokensOf (slotsOf pieces ++ [.endOfInput size])) := by
  induction pieces with
  | nil => exact .cons ⟨rfl, fun hkind => absurd rfl hkind, nofun⟩ (.nil _)
  | cons piece rest ih =>
    obtain ⟨hbehind, hrest⟩ := List.pairwise_cons.mp hordered
    obtain ⟨hfirst, hothers⟩ := List.forall_mem_cons.mp hsound
    obtain ⟨hstop, hstops⟩ := List.forall_mem_cons.mp hsize
    have htokens := ih hrest hothers hstops
    rw [slotsOf_cons]
    cases hslot : piece.slot? with
    | none => exact (offsetBehind_of_trivia hslot).symm ▸ htokens
    | some slot =>
      exact .cons (Piece.standsAt hfirst hslot (le_offsetBehind hbehind hstop))
        (htokens.shift fun _ => offsetBehind_add hslot)

theorem stands (h : CutInto source pieces) :
    Stand (offsetBehind (byteLength source) pieces) 0
      (ofPieces pieces (byteLength source)).tokens :=
  stand_slotsOf h.ordered (fun _ hmem => h.isSound hmem) fun _ hmem => span_stop_le_of_piece h hmem

end Lexed.CutInto

end Equational

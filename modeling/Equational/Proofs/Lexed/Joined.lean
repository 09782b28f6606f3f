import Equational.Proofs.Lexed.Token

/-!
# Joined texts

Where two texts are joined by the end of a line, the tokens of the first are followed by those that
the second has as a later text.  Where it stands only moves its tokens.
-/

namespace Equational

open Equational.Token

/-! ## Moved texts -/

def Relocation.shift (distance : Nat) : Relocation :=
  let move (offset : Nat) : Nat := recorded (offset + distance)
  ⟨move, move⟩

theorem relocate_shift_between (start stop distance : Nat) :
    relocate (Relocation.shift distance) (Span.between start stop) =
      .between (start + distance) (stop + distance) :=
  congr (congrArg Span.mk (recorded_recorded_add _ _)) (recorded_recorded_add _ _)

namespace Piece

variable (piece : Piece) (distance : Nat)

theorem recordedSpan_moved : (piece.moved distance).recordedSpan =
    relocate (Relocation.shift distance) piece.recordedSpan := by
  have hstop : (piece.moved distance).span.stop = piece.span.stop + distance :=
    Nat.add_right_comm _ _ _
  rw [recordedSpan, hstop]
  exact (relocate_shift_between _ _ distance).symm

private theorem slot_moved : (piece.moved distance).slot? =
    piece.slot?.map (relocate (Relocation.shift distance)) := by
  have hspan := recordedSpan_moved piece distance
  obtain ⟨offset, text, meaning⟩ := piece
  cases meaning <;> simp only [slot?, hspan] <;> rfl

end Piece

theorem slotsOf_moved (pieces : List Piece) (distance : Nat) :
    slotsOf (pieces.map (Piece.moved distance)) =
      relocate (Relocation.shift distance) (slotsOf pieces) := by
  rw [slotsOf, List.filterMap_map, relocate_list, slotsOf, List.map_filterMap]
  exact congrArg (List.filterMap · pieces) (funext fun piece => piece.slot_moved distance)

theorem Reads.slotsOf_shift {offset distance : Nat} {text : List Char} {pieces moved : List Piece}
    (h : Reads offset text pieces) (hmoved : Reads (offset + distance) text moved) :
    slotsOf moved = relocate (Relocation.shift distance) (slotsOf pieces) := by
  obtain rfl := hmoved.unique (h.shift distance)
  exact slotsOf_moved pieces distance

/-! ## Joined texts -/

namespace Lexed

/-- The slots of a text that stands behind another one, from an offset on. -/
def LaterSlots (offset : Nat) (text : List Char) (slots : List Slot) : Prop :=
  ∃ pieces, Reads offset text pieces ∧ slotsOf pieces = slots

theorem laterSlots_of_ofLaterText {text : String} {lexed : Lexed}
    (h : ofLaterText text = .ok lexed) :
    ∃ slots, lexed.IsOf (slots ++ [.endOfInput (byteLength text.toList)]) ∧
      LaterSlots 0 text.toList slots := by
  obtain ⟨pieces, hreads⟩ := exists_reads h
  have hread := (readFrom_of_reads hreads [] []).symm.trans h
  rw [List.nil_append, List.nil_append, finish_ofSlots, Nat.zero_add] at hread
  obtain rfl := Except.ok.inj hread
  exact ⟨slotsOf pieces, isOf_ofPieces pieces _, pieces, hreads, rfl⟩

namespace LaterSlots

variable {offset distance : Nat} {text : List Char} {slots moved : List Slot}

theorem shift (h : LaterSlots offset text slots)
    (hmoved : LaterSlots (offset + distance) text moved) :
    moved = relocate (Relocation.shift distance) slots := by
  obtain ⟨pieces, hreads, rfl⟩ := h
  obtain ⟨others, hothers, rfl⟩ := hmoved
  exact hreads.slotsOf_shift hothers

theorem liesIn (h : LaterSlots offset text slots) :
    ∀ slot ∈ slots, slot.LiesIn offset (offset + byteLength text) := by
  obtain ⟨pieces, hreads, rfl⟩ := h
  exact hreads.liesIn

theorem exists_of_joined {more : List Char} {all : List Slot} (h : LaterSlots offset text slots)
    (hall : LaterSlots offset (text ++ '\n' :: more) all) :
    ∃ later, all = slots ++ later ∧ LaterSlots (offset + byteLength text + 1) more later := by
  obtain ⟨pieces, hreads, rfl⟩ := h
  obtain ⟨others, hothers, rfl⟩ := hall
  obtain ⟨later, rfl, hlater⟩ := hreads.exists_later hothers
  exact ⟨slotsOf later, List.filterMap_append, later, hlater, rfl⟩

end LaterSlots

theorem exists_slots_of_joined {source more : String} {lexed joined : Lexed}
    (h : ofSource source = .ok lexed) (hjoined : ofSource (source ++ "\n" ++ more) = .ok joined) :
    ∃ slots later, lexed.IsOf (slots ++ [.endOfInput (byteLength source.toList)]) ∧
      joined.IsOf (slots ++ (later ++
        [.endOfInput (byteLength source.toList + 1 + byteLength more.toList)])) ∧
      (∀ slot ∈ slots, slot.LiesIn 0 (byteLength source.toList)) ∧
      LaterSlots (byteLength source.toList + 1) more.toList later := by
  obtain ⟨pieces, hcut, rfl⟩ := exists_pieces h
  have htext : (source ++ "\n" ++ more).toList = source.toList ++ '\n' :: more.toList := by simp
  rw [ofSource, htext] at hjoined
  obtain ⟨all, hall⟩ := exists_cutInto hjoined
  obtain rfl := Except.ok.inj ((ofChars_of_cutInto hall).symm.trans hjoined)
  obtain ⟨later, rfl, hlater⟩ := hcut.exists_later hall
  refine ⟨slotsOf pieces, slotsOf later, isOf_ofPieces pieces _, ?_, hcut.liesIn, later, hlater,
    rfl⟩
  have hsize : byteLength (source.toList ++ '\n' :: more.toList) =
      byteLength source.toList + 1 + byteLength more.toList := by
    rw [byteLength_append, byteLength_cons, ← Nat.add_assoc]
    rfl
  have hslots : slotsOf (pieces ++ later) = slotsOf pieces ++ slotsOf later :=
    List.filterMap_append
  rw [hsize, ← List.append_assoc, ← hslots]
  exact isOf_ofPieces (pieces ++ later) _

end Lexed

end Equational

import Equational.Proofs.Lexed.Tiling
import Equational.Proofs.Parse.Splitting

/-!
# The tokens of a text

Among the tokens of a text the malformed ones owe a lexical diagnostic, at their own span, and no
others owe any.  An operator is made of operator characters and has room for its value in its span,
so that the place of a token carries over to the parts into which it may be split.
-/

namespace Equational

open Equational.Token

/-! ## Single tokens -/

/-- What holds of a slot for what has been read from a text. -/
structure Slot.IsLexed (slot : Slot) : Prop where
  owed : slot.owed = none ∧ slot.kind ≠ .malformed ∨
    slot.kind = .malformed ∧
      ∃ cause, slot.owed = some ⟨cause, slot.span⟩ ∧ cause.phase = .lexical
  symbol : slot.kind = .operatorSymbol → ∀ c ∈ slot.value.toList, isOperatorChar c

structure Slot.Fills (slot : Slot) (start stop : Nat) : Prop where
  nonempty : start < stop
  span : slot.span = .between start stop
  room : slot.kind = .operatorSymbol → start + slot.value.utf8ByteSize ≤ stop

/-- A slot for what has been read from a text between two offsets. -/
structure Slot.LiesIn (slot : Slot) (low high : Nat) : Prop extends slot.IsLexed where
  inside : slot.kind ≠ .endOfInput
  fills : ∃ start stop, low ≤ start ∧ stop ≤ high ∧ slot.Fills start stop

namespace Slot.IsLexed

variable {slot : Slot}

theorem isOwing (h : slot.IsLexed) : slot.IsOwing := by
  rcases h.owed with ⟨howed, hformed⟩ | ⟨hmalformed, cause, howed, hphase⟩
  · exact ⟨fun hkind => absurd hkind hformed, fun _ => howed⟩
  · exact ⟨fun _ => ⟨_, howed, hphase⟩, fun hformed => absurd hmalformed hformed⟩

theorem exists_owed_iff (h : slot.IsLexed) :
    (∃ diagnostic, slot.owed = some diagnostic) ↔ slot.kind = .malformed := by
  rcases h.owed with ⟨howed, hformed⟩ | ⟨hkind, cause, howed, -⟩
  · simp [howed, hformed]
  · simp [howed, hkind]

theorem span_of_owed (h : slot.IsLexed) {diagnostic : Diagnostic}
    (howed : slot.owed = some diagnostic) :
    diagnostic.span = slot.span ∧ diagnostic.cause.phase = .lexical := by
  rcases h.owed with ⟨hnone, -⟩ | ⟨-, cause, hsome, hphase⟩
  · cases hnone.symm.trans howed
  · obtain rfl := Option.some.inj (hsome.symm.trans howed)
    exact ⟨rfl, hphase⟩

theorem endOfInput (size : Nat) : (Slot.endOfInput size).IsLexed :=
  ⟨.inl ⟨rfl, nofun⟩, nofun⟩

end Slot.IsLexed

namespace Piece

variable {piece : Piece} {slot : Slot}

theorem isLexed_of_slot (h : piece.IsSound) (hslot : piece.slot? = some slot) : slot.IsLexed := by
  have hspells := h.spells
  rcases slot_cases hslot with ⟨kind, value, home, hmeaning, rfl⟩ | ⟨cause, hmeaning, rfl⟩
  · rw [hmeaning] at hspells
    by_cases hkind : kind = .string
    · subst hkind
      exact ⟨.inl ⟨rfl, by simp⟩, nofun⟩
    · have hother : kind ≠ .malformed ∧
          (kind = .operatorSymbol → ∀ c ∈ value, isOperatorChar c) := by
        cases kind <;>
          first | exact ⟨hspells.2.1, hspells.2.2.2⟩ | exact absurd rfl hkind
      exact ⟨.inl ⟨rfl, hother.1⟩, by simpa using hother.2⟩
  · rcases hmeaning with hmeaning | ⟨width, hmeaning⟩
    · rw [hmeaning] at hspells
      exact ⟨.inr ⟨rfl, cause, rfl, hspells⟩, nofun⟩
    · exact absurd (by simp [Lexeme.isOpen, hmeaning]) h.isClosed

private theorem room_of_slot (h : piece.IsSound) (hslot : piece.slot? = some slot)
    (hkind : slot.kind = .operatorSymbol) :
    slot.value.utf8ByteSize ≤ byteLength piece.lexeme.text := by
  have hspells := (spells_of_slot h hslot).2.2
  rw [Token.Spells, if_neg (by simp [hkind])] at hspells
  rw [← hspells, utf8ByteSize_eq]
  cases hhome : slot.moduleName with
  | none => simp [qualifiedValue, qualify, hhome]
  | some home =>
    simp only [qualifiedValue, qualify, hhome, String.toList_append, byteLength_append]
    omega

theorem fills_of_slot (h : piece.IsSound) (hslot : piece.slot? = some slot) :
    slot.Fills piece.span.start piece.span.stop where
  nonempty := Nat.lt_add_of_pos_right (byteLength_pos h.nonempty)
  span := (spells_of_slot h hslot).1
  room hkind := Nat.add_le_add_left (room_of_slot h hslot hkind) _

theorem liesIn_of_slot (h : piece.IsSound) (hslot : piece.slot? = some slot) {low high : Nat}
    (hlow : low ≤ piece.span.start) (hhigh : piece.span.stop ≤ high) : slot.LiesIn low high :=
  ⟨isLexed_of_slot h hslot, (spells_of_slot h hslot).2.1,
    _, _, hlow, hhigh, fills_of_slot h hslot⟩

end Piece

/-! ## Texts -/

theorem Reads.liesIn {offset : Nat} {text : List Char} {pieces : List Piece}
    (h : Reads offset text pieces) :
    ∀ slot ∈ slotsOf pieces, slot.LiesIn offset (offset + byteLength text) := by
  intro slot hmem
  obtain ⟨piece, hpiece, hslot⟩ := List.mem_filterMap.mp hmem
  obtain ⟨before, after, rfl, hoffset⟩ := h.covers hpiece
  refine Piece.liesIn_of_slot (h.isSound hpiece) hslot ?_ ?_
  · simp only [Piece.span, hoffset]
    exact Nat.le_add_right _ _
  · simp only [Piece.span, hoffset, byteLength_append]
    omega

namespace Lexed

theorem CutInto.liesIn {source : List Char} {pieces : List Piece} (h : CutInto source pieces) :
    ∀ slot ∈ slotsOf pieces, slot.LiesIn 0 (byteLength source) := by
  intro slot hmem
  obtain ⟨piece, hpiece, hslot⟩ := List.mem_filterMap.mp hmem
  exact Piece.liesIn_of_slot (h.isSound hpiece) hslot (Nat.zero_le _)
    (span_stop_le_of_piece h hpiece)

structure IsOf (lexed : Lexed) (slots : List Slot) : Prop where
  tokens : lexed.tokens = tokensOf slots
  errors : lexed.errors = .ofSlots slots

theorem IsOf.values {lexed : Lexed} {slots : List Slot} (h : lexed.IsOf slots) :
    lexed.errors.values = owedBy slots := by
  rw [h.errors, DiagnosticMap.values_ofSlots]

theorem IsOf.mem_entries_iff {lexed : Lexed} {slots : List Slot} (h : lexed.IsOf slots)
    {index : Nat} {diagnostic : Diagnostic} :
    (index, diagnostic) ∈ lexed.errors.entries ↔
      ∃ slot, slots[index]? = some slot ∧ slot.owed = some diagnostic := by
  rw [h.errors]
  exact DiagnosticMap.mem_entriesFrom.trans (by simp)

theorem IsOf.getElem_tokens_iff {lexed : Lexed} {slots : List Slot} (h : lexed.IsOf slots)
    {index : Nat} {token : Token} :
    lexed.tokens[index]? = some token ↔
      ∃ slot, slots[index]? = some slot ∧ slot.toToken = token := by
  rw [h.tokens, tokensOf, List.getElem?_map, Option.map_eq_some_iff]

theorem IsOf.unique {lexed : Lexed} {slots others : List Slot} (h : lexed.IsOf slots)
    (h' : lexed.IsOf others) : slots = others := by
  refine List.ext_getElem? fun index => Option.ext fun slot => ?_
  have hsame {slots others : List Slot} (h : lexed.IsOf slots) (h' : lexed.IsOf others)
      (hslot : slots[index]? = some slot) : others[index]? = some slot := by
    have htoken := h.getElem_tokens_iff.mpr ⟨slot, hslot, rfl⟩
    obtain ⟨other, hother, htokens⟩ := h'.getElem_tokens_iff.mp htoken
    have howed := DiagnosticMap.find_of_getElem hslot
    have howed' := DiagnosticMap.find_of_getElem hother
    rw [← h.errors, h'.errors, howed'] at howed
    rw [hother]
    obtain ⟨token, owed⟩ := slot
    obtain ⟨token', owed'⟩ := other
    cases htokens
    cases howed
    rfl
  exact ⟨hsame h h', hsame h' h⟩

theorem isOf_ofPieces (pieces : List Piece) (size : Nat) :
    (ofPieces pieces size).IsOf (slotsOf pieces ++ [.endOfInput size]) := ⟨rfl, rfl⟩

/-- The slots of a text, behind which comes the end of the input. -/
structure HasSlots (lexed : Lexed) (source : String) (slots : List Slot) : Prop extends
    lexed.IsOf (slots ++ [.endOfInput (byteLength source.toList)]) where
  lies : ∀ slot ∈ slots, slot.LiesIn 0 (byteLength source.toList)

theorem exists_slots {source : String} {lexed : Lexed} (h : ofSource source = .ok lexed) :
    ∃ slots, lexed.HasSlots source slots := by
  obtain ⟨pieces, hcut, rfl⟩ := exists_pieces h
  exact ⟨slotsOf pieces, isOf_ofPieces pieces _, hcut.liesIn⟩

theorem HasSlots.isLexed {source : String} {lexed : Lexed} {slots : List Slot}
    (h : lexed.HasSlots source slots) :
    ∀ slot ∈ slots ++ [.endOfInput (byteLength source.toList)], slot.IsLexed :=
  List.forall_mem_append.mpr ⟨fun slot hmem => (h.lies slot hmem).toIsLexed,
    List.forall_mem_singleton.mpr (.endOfInput _)⟩

end Lexed

end Equational

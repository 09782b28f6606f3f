import Equational.Proofs.Lexed.Pieces
import Mathlib.Data.List.Pairwise

/-!
# Tokens and trivia tile their source

The tokens of a text and its trivia cover disjoint pieces of it, in order, and leave nothing out but
blanks.  Each of them is spelled by the piece it covers.
-/

namespace Equational

open Equational.Token Equational.Unicode

/-! ## Pieces of a source -/

/-- The span covers just this text: it begins and ends between characters. -/
def Span.Covers (span : Span) (source text : List Char) : Prop :=
  ∃ before after, source = before ++ text ++ after ∧ span.start = byteLength before ∧
    span.stop = byteLength (before ++ text)

theorem front_or_rest {front rest before after : List Char} {c : Char}
    (h : front ++ rest = before ++ c :: after) :
    byteLength (before ++ [c]) ≤ byteLength front ∨
      ∃ inner, before = front ++ inner ∧ rest = inner ++ c :: after := by
  rcases List.append_eq_append_iff.mp h with ⟨inner, hbefore, hrest⟩ | ⟨inner, hfront, hc⟩
  · exact .inr ⟨inner, hbefore, hrest⟩
  · cases inner with
    | nil => exact .inr ⟨[], by simpa using hfront.symm, by simpa using hc.symm⟩
    | cons d inner =>
      obtain ⟨rfl, -⟩ := List.cons.inj hc
      refine .inl ?_
      rw [hfront]
      simp only [byteLength_append, byteLength_cons, byteLength_nil]
      omega

namespace Piece

def Apart (first second : Piece) : Prop :=
  first.span.stop ≤ second.span.start ∨ second.span.stop ≤ first.span.start

instance : Std.Symm Apart := ⟨fun _ _ => Or.symm⟩

/-- A piece is no blank and not left open, and its meaning fits its text. -/
structure IsSound (piece : Piece) : Prop where
  nonempty : piece.lexeme.text ≠ []
  spells : piece.lexeme.meaning.Spells piece.lexeme.text
  isMeant : piece.lexeme.meaning ≠ .blank
  isClosed : ¬piece.lexeme.isOpen

end Piece

namespace Reads

variable {offset : Nat} {text : List Char} {pieces : List Piece}

theorem isSound (h : Reads offset text pieces) {piece : Piece} (hmem : piece ∈ pieces) :
    piece.IsSound := by
  induction h with
  | nil => cases hmem
  | blank _ _ ih => exact ih hmem
  | @lexeme offset c behind rest lexeme pieces hblank hfirst hclosed htext _ ih =>
    rcases List.mem_cons.mp hmem with rfl | hmem
    · obtain rfl := hfirst
      have hfronts := Lexeme.first_fronts (List.cons_ne_nil c behind)
      refine ⟨hfronts.nonempty, hfronts.spells, ?_, hclosed⟩
      intro hmeaning
      have hspells := hfronts.spells
      rw [hmeaning] at hspells
      -- The first character of the text is also the first one of the lexeme.
      have hhead : c ∈ (Lexeme.first (c :: behind)).text := by
        cases hlexeme : (Lexeme.first (c :: behind)).text with
        | nil => exact absurd hlexeme hfronts.nonempty
        | cons d inner =>
          rw [hlexeme] at htext
          obtain ⟨rfl, -⟩ := List.cons.inj htext
          exact List.mem_cons_self
      exact absurd (hspells c hhead) (by simp [hblank])
    · exact ih hmem

theorem covers (h : Reads offset text pieces) {piece : Piece} (hmem : piece ∈ pieces) :
    ∃ before after, text = before ++ piece.lexeme.text ++ after ∧
      piece.offset = offset + byteLength before := by
  induction h with
  | nil => cases hmem
  | @blank offset c rest pieces _ _ ih =>
    obtain ⟨before, after, rfl, hoffset⟩ := ih hmem
    exact ⟨c :: before, after, rfl, by rw [hoffset, byteLength_cons, Nat.add_assoc]⟩
  | @lexeme offset c behind rest lexeme pieces _ _ _ htext _ ih =>
    rcases List.mem_cons.mp hmem with rfl | hmem
    · exact ⟨[], rest, by simpa using htext, rfl⟩
    · obtain ⟨before, after, rfl, hoffset⟩ := ih hmem
      refine ⟨lexeme.text ++ before, after, by simpa using htext, ?_⟩
      rw [hoffset, byteLength_append, Nat.add_assoc]

theorem ordered (h : Reads offset text pieces) :
    pieces.Pairwise fun first second => first.span.stop ≤ second.span.start := by
  induction h with
  | nil => exact .nil
  | blank _ _ ih => exact ih
  | lexeme _ _ _ _ hrest ih =>
    refine List.pairwise_cons.mpr ⟨fun later hlater => ?_, ih⟩
    obtain ⟨before, -, -, hoffset⟩ := hrest.covers hlater
    simp only [Piece.span, hoffset]
    omega

theorem exists_piece (h : Reads offset text pieces) {before after : List Char} {c : Char}
    (htext : text = before ++ c :: after) (hblank : ¬isWhiteSpace c) :
    ∃ piece ∈ pieces, piece.span.start ≤ offset + byteLength before ∧
      offset + byteLength (before ++ [c]) ≤ piece.span.stop := by
  induction h generalizing before with
  | nil => simp at htext
  | @blank offset d rest pieces hd _ ih =>
    cases before with
    | nil =>
      obtain ⟨rfl, -⟩ := List.cons.inj htext
      exact absurd hd hblank
    | cons d inner =>
      obtain ⟨rfl, hrest⟩ := List.cons.inj htext
      obtain ⟨piece, hmem, hstart, hstop⟩ := ih hrest
      refine ⟨piece, hmem, ?_, ?_⟩ <;> simp only [byteLength_cons, byteLength_append,
        List.cons_append, byteLength_nil] at * <;> omega
  | @lexeme offset d behind rest lexeme pieces _ _ _ hsplit _ ih =>
    rcases front_or_rest (hsplit.symm.trans htext) with hfront | ⟨inner, rfl, hrest⟩
    · refine ⟨⟨offset, lexeme⟩, List.mem_cons_self, Nat.le_add_right _ _, ?_⟩
      simp only [Piece.span]
      omega
    · obtain ⟨piece, hmem, hstart, hstop⟩ := ih hrest
      refine ⟨piece, List.mem_cons_of_mem _ hmem, ?_, ?_⟩ <;>
        simp only [byteLength_append] at * <;> omega

end Reads

namespace Lexed.CutInto

variable {source : List Char} {pieces : List Piece}

theorem isSound (h : CutInto source pieces) {piece : Piece} (hmem : piece ∈ pieces) :
    piece.IsSound := by
  cases h with
  | interpreted hline hrest =>
    rcases List.mem_cons.mp hmem with rfl | hmem
    · obtain ⟨-, -, hne, hmeaning⟩ := interpreterLine_eq_some hline
      exact ⟨hne, by simp [hmeaning, Meaning.Spells], by simp [hmeaning],
        by simp [Lexeme.isOpen, hmeaning]⟩
    · exact hrest.isSound hmem
  | plain _ hall => exact hall.isSound hmem

theorem covers (h : CutInto source pieces) {piece : Piece} (hmem : piece ∈ pieces) :
    piece.span.Covers source piece.lexeme.text := by
  cases h with
  | @interpreted line rest pieces _ hrest =>
    rcases List.mem_cons.mp hmem with rfl | hmem
    · exact ⟨[], rest, rfl, rfl, by simp [Piece.span]⟩
    · obtain ⟨before, after, rfl, hoffset⟩ := hrest.covers hmem
      exact ⟨line.text ++ before, after, by simp, by simp [Piece.span, hoffset],
        by simp [Piece.span, hoffset, Nat.add_assoc]⟩
  | plain _ hall =>
    obtain ⟨before, after, hsource, hoffset⟩ := hall.covers hmem
    rw [Nat.zero_add] at hoffset
    exact ⟨before, after, hsource, hoffset, by simp [Piece.span, hoffset]⟩

theorem ordered (h : CutInto source pieces) :
    pieces.Pairwise fun first second => first.span.stop ≤ second.span.start := by
  cases h with
  | @interpreted line rest pieces _ hrest =>
    refine List.pairwise_cons.mpr ⟨fun later hlater => ?_, hrest.ordered⟩
    obtain ⟨before, -, -, hoffset⟩ := hrest.covers hlater
    simp [Piece.span, hoffset]
  | plain _ hall => exact hall.ordered

theorem exists_piece (h : CutInto source pieces) {before after : List Char} {c : Char}
    (hsource : source = before ++ c :: after) (hblank : ¬isWhiteSpace c) :
    ∃ piece ∈ pieces, piece.span.start ≤ byteLength before ∧
      byteLength (before ++ [c]) ≤ piece.span.stop := by
  cases h with
  | @interpreted line rest pieces _ hrest =>
    rcases front_or_rest hsource with hfront | ⟨inner, rfl, hinner⟩
    · exact ⟨⟨0, line⟩, List.mem_cons_self, Nat.zero_le _, by simpa [Piece.span] using hfront⟩
    · obtain ⟨piece, hmem, hstart, hstop⟩ := hrest.exists_piece hinner hblank
      refine ⟨piece, List.mem_cons_of_mem _ hmem, ?_, ?_⟩ <;>
        simp only [byteLength_append] at * <;> omega
  | plain _ hall => simpa using hall.exists_piece hsource hblank

end Lexed.CutInto

/-! ## Tokens and trivia of a piece -/

/-- A string stands between quotes; any other token is spelled by its value and its module part. -/
def Token.Spells (token : Token) (text : List Char) : Prop :=
  if token.kind = .string then ∃ body, text = '"' :: body ++ ['"']
  else token.qualifiedValue.toList = text

namespace Piece

theorem spells_of_slot {piece : Piece} (h : piece.IsSound) {slot : Slot}
    (hslot : piece.slot? = some slot) :
    slot.span = piece.recordedSpan ∧ slot.kind ≠ .endOfInput ∧ slot.Spells piece.lexeme.text := by
  have hspells := h.spells
  rcases slot_cases hslot with ⟨kind, value, home, hmeaning, rfl⟩ | ⟨cause, -, rfl⟩
  · rw [hmeaning] at hspells
    by_cases hkind : kind = .string
    · subst hkind
      exact ⟨rfl, by simp, by simpa [Token.Spells] using hspells.2⟩
    · have hother : kind ≠ .endOfInput ∧ kind ≠ .malformed ∧
          piece.lexeme.text = spelling home value := by
        cases kind <;>
          first | exact ⟨hspells.1, hspells.2.1, hspells.2.2.1⟩ | exact absurd rfl hkind
      refine ⟨rfl, hother.1, ?_⟩
      rw [Token.Spells, if_neg hkind, hother.2.2]
      cases home <;> simp [Token.qualifiedValue, qualify, spelling]
  · exact ⟨rfl, by simp, by simp [Token.Spells, Token.qualifiedValue, qualify]⟩

theorem text_of_trivia {piece : Piece} {trivia : Trivia} (h : piece.trivia? = some trivia) :
    trivia.span = piece.recordedSpan ∧ trivia.text.toList = piece.lexeme.text ∧
      piece.slot? = none := by
  unfold trivia? at h
  split at h
  · rename_i kind hmeaning
    cases h
    simp [slot?, hmeaning]
  · cases h

theorem exists_of_isSound {piece : Piece} (h : piece.IsSound) :
    (∃ slot, piece.slot? = some slot) ∨ ∃ trivia, piece.trivia? = some trivia := by
  have hmeant := h.isMeant
  unfold slot? trivia?
  cases hmeaning : piece.lexeme.meaning with
  | blank => exact absurd hmeaning hmeant
  | trivia kind => exact .inr ⟨_, rfl⟩
  | token kind value home => exact .inl ⟨_, rfl⟩
  | malformed cause => exact .inl ⟨_, rfl⟩
  | unclosed cause width => exact .inl ⟨_, rfl⟩

theorem recordedSpan_eq {piece : Piece} (h : piece.span.stop < positionCount) :
    piece.recordedSpan = piece.span := by
  have hle : piece.span.start ≤ piece.span.stop := Nat.le_add_right _ _
  rw [recordedSpan, Span.between, recorded_of_lt h, recorded_of_lt (Nat.lt_of_le_of_lt hle h)]

end Piece

/-! ## Tiles -/

namespace Lexed

def spans (lexed : Lexed) : List Span :=
  lexed.tokens.map Token.span ++ lexed.trivia.map Trivia.span

structure Tiles (lexed : Lexed) (source : List Char) : Prop where
  /-- The end of the input is the last token, and there is only one such token. -/
  ends : ∃ tokens, lexed.tokens = tokens ++ [Token.endOfInput (byteLength source)] ∧
    ∀ token ∈ tokens, token.kind ≠ .endOfInput
  tokens : ∀ token ∈ lexed.tokens, token.kind ≠ .endOfInput →
    ∃ text, text ≠ [] ∧ token.span.Covers source text ∧ token.Spells text
  trivia : ∀ trivia ∈ lexed.trivia,
    trivia.text.toList ≠ [] ∧ trivia.span.Covers source trivia.text.toList
  tokens_ordered : lexed.tokens.Pairwise fun first second => first.span.stop ≤ second.span.start
  trivia_ordered : lexed.trivia.Pairwise fun first second => first.span.stop ≤ second.span.start
  disjoint : ∀ token ∈ lexed.tokens, ∀ trivia ∈ lexed.trivia,
    token.span.stop ≤ trivia.span.start ∨ trivia.span.stop ≤ token.span.start
  /-- A byte that is not covered belongs to a blank. -/
  blanks : ∀ before c after, source = before ++ c :: after →
    ∀ byte, byteLength before ≤ byte → byte < byteLength (before ++ [c]) →
      (∃ span ∈ lexed.spans, span.start ≤ byte ∧ byte < span.stop) ∨ isWhiteSpace c

section Pieces

variable {source : List Char} {pieces : List Piece} (h : CutInto source pieces)

include h

theorem exists_piece_of_token {token : Token} (hmem : token ∈ tokensOf (slotsOf pieces)) :
    ∃ piece ∈ pieces, (∃ slot, piece.slot? = some slot) ∧ token.span = piece.recordedSpan ∧
      token.kind ≠ .endOfInput ∧ token.Spells piece.lexeme.text := by
  obtain ⟨slot, hslots, rfl⟩ := List.mem_map.mp hmem
  obtain ⟨piece, hpiece, hslot⟩ := List.mem_filterMap.mp hslots
  exact ⟨piece, hpiece, ⟨slot, hslot⟩, Piece.spells_of_slot (h.isSound hpiece) hslot⟩

theorem span_stop_le_of_piece {piece : Piece} (hmem : piece ∈ pieces) :
    piece.span.stop ≤ byteLength source := by
  obtain ⟨before, after, rfl, -, hstop⟩ := h.covers hmem
  simp only [hstop, byteLength_append]
  omega

theorem tokens_ofPieces (size : Nat) :
    ∃ tokens, (ofPieces pieces size).tokens = tokens ++ [Token.endOfInput (recorded size)] ∧
      ∀ token ∈ tokens, token.kind ≠ .endOfInput := by
  refine ⟨tokensOf (slotsOf pieces), List.map_append, fun token hmem => ?_⟩
  obtain ⟨-, -, -, -, hkind, -⟩ := exists_piece_of_token h hmem
  exact hkind

variable (hsize : byteLength source < positionCount)

include hsize

theorem recordedSpan_of_piece {piece : Piece} (hmem : piece ∈ pieces) :
    piece.recordedSpan = piece.span :=
  Piece.recordedSpan_eq (Nat.lt_of_le_of_lt (span_stop_le_of_piece h hmem) hsize)

theorem pairwise_filterMap {α : Type} {part? : Piece → Option α} {spanOf : α → Span}
    (hpart : ∀ piece ∈ pieces, ∀ part, part? piece = some part →
      spanOf part = piece.recordedSpan) :
    (pieces.filterMap part?).Pairwise fun first second =>
      (spanOf first).stop ≤ (spanOf second).start := by
  rw [List.pairwise_filterMap]
  refine h.ordered.imp_of_mem ?_
  intro first second hfirst hsecond hbefore part hpart₁ other hpart₂
  rw [hpart first hfirst part hpart₁, hpart second hsecond other hpart₂,
    recordedSpan_of_piece h hsize hfirst, recordedSpan_of_piece h hsize hsecond]
  exact hbefore

theorem span_mem_spans {piece : Piece} (hmem : piece ∈ pieces) (size : Nat) :
    piece.span ∈ (ofPieces pieces size).spans := by
  have hsound := h.isSound hmem
  have hspan := recordedSpan_of_piece h hsize hmem
  rcases Piece.exists_of_isSound hsound with ⟨slot, hslot⟩ | ⟨trivia, htrivia⟩
  · have hslots : slot ∈ slotsOf pieces := List.mem_filterMap.mpr ⟨piece, hmem, hslot⟩
    refine List.mem_append_left _ (List.mem_map.mpr ⟨slot.toToken, ?_, ?_⟩)
    · exact List.mem_map_of_mem (List.mem_append_left _ hslots)
    · exact (Piece.spells_of_slot hsound hslot).1.trans hspan
  · refine List.mem_append_right _ (List.mem_map.mpr ⟨trivia, ?_, ?_⟩)
    · exact List.mem_filterMap.mpr ⟨piece, hmem, htrivia⟩
    · exact (Piece.text_of_trivia htrivia).1.trans hspan

private theorem tiles_ofPieces : (ofPieces pieces (byteLength source)).Tiles source where
  ends := by
    have hends := tokens_ofPieces h (byteLength source)
    rwa [recorded_of_lt hsize] at hends
  tokens := by
    intro token hmem hkind
    rw [ofPieces, tokensOf, List.map_append] at hmem
    rcases List.mem_append.mp hmem with hmem | hmem
    · obtain ⟨piece, hpiece, -, hspan, -, hspells⟩ := exists_piece_of_token h hmem
      rw [recordedSpan_of_piece h hsize hpiece] at hspan
      exact ⟨_, (h.isSound hpiece).nonempty, hspan ▸ h.covers hpiece, hspells⟩
    · obtain rfl := List.mem_singleton.mp hmem
      exact absurd rfl hkind
  trivia := by
    intro trivia hmem
    obtain ⟨piece, hpiece, htrivia⟩ := List.mem_filterMap.mp hmem
    obtain ⟨hspan, htext, -⟩ := Piece.text_of_trivia htrivia
    rw [hspan, htext, recordedSpan_of_piece h hsize hpiece]
    exact ⟨(h.isSound hpiece).nonempty, h.covers hpiece⟩
  tokens_ordered := by
    rw [ofPieces, tokensOf, List.map_append]
    refine List.pairwise_append.mpr ⟨?_, List.pairwise_singleton _ _, ?_⟩
    · refine List.pairwise_map.mpr (pairwise_filterMap h hsize fun piece hpiece slot hslot => ?_)
      exact (Piece.spells_of_slot (h.isSound hpiece) hslot).1
    · intro token hmem last hlast
      obtain ⟨piece, hpiece, -, hspan, -⟩ := exists_piece_of_token h hmem
      obtain rfl := List.mem_singleton.mp hlast
      rw [hspan, recordedSpan_of_piece h hsize hpiece]
      exact Nat.le_trans (span_stop_le_of_piece h hpiece) (Nat.le_of_eq (recorded_of_lt hsize).symm)
  trivia_ordered :=
    pairwise_filterMap h hsize fun piece _ trivia htrivia => (Piece.text_of_trivia htrivia).1
  disjoint := by
    intro token htoken trivia htrivia
    obtain ⟨second, hsecond, htrivia⟩ := List.mem_filterMap.mp htrivia
    obtain ⟨hspan', -, hnone⟩ := Piece.text_of_trivia htrivia
    rw [hspan', recordedSpan_of_piece h hsize hsecond]
    rw [ofPieces, tokensOf, List.map_append] at htoken
    rcases List.mem_append.mp htoken with htoken | htoken
    · obtain ⟨first, hfirst, ⟨slot, hslot⟩, hspan, -⟩ := exists_piece_of_token h htoken
      rw [hspan, recordedSpan_of_piece h hsize hfirst]
      -- No piece is both, so one of them stands in front of the other.
      have hne : first ≠ second := by
        rintro rfl
        cases hslot.symm.trans hnone
      have hapart : pieces.Pairwise Piece.Apart := h.ordered.imp fun hbefore => .inl hbefore
      exact hapart.forall hfirst hsecond hne
    · obtain rfl := List.mem_singleton.mp htoken
      have hstop := span_stop_le_of_piece h hsecond
      exact .inr (Nat.le_trans hstop (Nat.le_of_eq (recorded_of_lt hsize).symm))
  blanks := by
    intro before c after hsource byte hlow hhigh
    by_cases hblank : isWhiteSpace c
    · exact .inr hblank
    · obtain ⟨piece, hpiece, hstart, hstop⟩ := h.exists_piece hsource hblank
      exact .inl ⟨piece.span, span_mem_spans h hsize hpiece _, by omega, by omega⟩

end Pieces

theorem ofSource_tiles {source : String} {lexed : Lexed} (h : ofSource source = .ok lexed)
    (hsize : byteLength source.toList < positionCount) : lexed.Tiles source.toList := by
  obtain ⟨pieces, hcut, rfl⟩ := exists_pieces h
  exact tiles_ofPieces hcut hsize

def mixedSource : String := "#!q\nA::x +*/*c*/ 0x1 \"é\\n\"; 08"

theorem mixedSource_tiles :
    ∃ lexed, ofSource mixedSource = .ok lexed ∧ lexed.tokens.length = 7 ∧
      lexed.trivia.length = 2 ∧ byteLength mixedSource.toList < positionCount ∧
      lexed.Tiles mixedSource.toList :=
  ⟨_, rfl, rfl, rfl, by decide, ofSource_tiles rfl (by decide)⟩

end Lexed

end Equational

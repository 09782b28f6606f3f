import Equational.Proofs.Lexed.Tiling
import Equational.Proofs.Token.Longest

/-!
# Tokens are as long as they can be

No word is followed by a character that continues it, no capitalised name by the rest of a qualified
one, and no operator by another operator character, unless it is an at sign or a comment begins
there.
-/

namespace Equational

open Equational.Token Equational.Unicode

/-! ## The text behind a piece -/

theorem Reads.exists_behind {offset : Nat} {text : List Char} {pieces : List Piece}
    (h : Reads offset text pieces) {piece : Piece} (hmem : piece ∈ pieces) :
    ∃ before rest later, text = before ++ piece.lexeme.text ++ rest ∧
      piece.offset = offset + byteLength before ∧
      Lexeme.first (piece.lexeme.text ++ rest) = piece.lexeme ∧
      Reads piece.span.stop rest later ∧ later ⊆ pieces := by
  induction h with
  | nil => cases hmem
  | @blank offset c rest pieces _ _ ih =>
    obtain ⟨before, behind, later, rfl, hoffset, hfirst, hreads, hsubset⟩ := ih hmem
    refine ⟨c :: before, behind, later, rfl, ?_, hfirst, hreads, hsubset⟩
    rw [hoffset, byteLength_cons, Nat.add_assoc]
  | @lexeme offset c behind rest lexeme pieces _ hfirst _ htext hrest ih =>
    rcases List.mem_cons.mp hmem with rfl | hmem
    · refine ⟨[], rest, pieces, by simpa using htext, rfl, ?_, hrest, List.subset_cons_self _ _⟩
      rw [← htext, hfirst]
    · obtain ⟨before, behind', later, rfl, hoffset, hagain, hreads, hsubset⟩ := ih hmem
      refine ⟨lexeme.text ++ before, behind', later, by simpa using htext, ?_, hagain, hreads,
        List.subset_cons_of_subset _ hsubset⟩
      rw [hoffset, byteLength_append, Nat.add_assoc]

theorem Lexed.CutInto.exists_behind {source : List Char} {pieces : List Piece}
    (h : CutInto source pieces) {piece : Piece} (hmem : piece ∈ pieces) {slot : Slot}
    (hslot : piece.slot? = some slot) :
    ∃ before rest later, source = before ++ piece.lexeme.text ++ rest ∧
      piece.offset = byteLength before ∧
      Lexeme.first (piece.lexeme.text ++ rest) = piece.lexeme ∧
      Reads piece.span.stop rest later ∧ later ⊆ pieces := by
  cases h with
  | @interpreted line rest pieces hline hrest =>
    rcases List.mem_cons.mp hmem with rfl | hmem
    · obtain ⟨-, -, -, hmeaning⟩ := interpreterLine_eq_some hline
      simp [Piece.slot?, hmeaning] at hslot
    · obtain ⟨before, behind, later, rfl, hoffset, hfirst, hreads, hsubset⟩ :=
        hrest.exists_behind hmem
      refine ⟨line.text ++ before, behind, later, by simp, ?_, hfirst, hreads,
        List.subset_cons_of_subset _ hsubset⟩
      rw [hoffset, byteLength_append]
  | plain _ hall =>
    obtain ⟨before, behind, later, hsource, hoffset, hfirst⟩ := hall.exists_behind hmem
    exact ⟨before, behind, later, hsource, by simpa using hoffset, hfirst⟩

/-! ## Comments behind a piece -/

private theorem Token.opensComment_first {text : List Char} (h : OpensComment text) :
    OpensComment (Lexeme.first text).text := by
  rcases h with ⟨rest, rfl⟩ | ⟨rest, rfl⟩
  · refine .inl ?_
    simp [Lexeme.first, patterns, blank_of_not_isWhiteSpace not_isWhiteSpace_slash, lineComment?]
  · refine .inr ?_
    cases hbody : throughClosing? rest <;>
      simp [Lexeme.first, patterns, blank_of_not_isWhiteSpace not_isWhiteSpace_slash, lineComment?,
        blockComment?, hbody]

theorem Reads.exists_comment {offset : Nat} {text : List Char} {pieces : List Piece}
    (h : Reads offset text pieces) (hopens : OpensComment text) :
    ∃ piece ∈ pieces, ∃ trivia, piece.trivia? = some trivia ∧ trivia.span.start = recorded offset ∧
      trivia.text.toList <+: text ∧ OpensComment trivia.text.toList := by
  obtain ⟨after, hslash⟩ := hopens.exists_cons
  cases h with
  | nil => cases hslash
  | blank hblank _ =>
    obtain ⟨rfl, -⟩ := List.cons.inj hslash
    exact absurd hblank (by decide)
  | @lexeme _ c behind rest lexeme pieces _ hfirst hclosed htext _ =>
    obtain rfl := hfirst
    rcases first_of_opensComment hopens with ⟨kind, hkind⟩ | hopen
    · refine ⟨_, List.mem_cons_self, _, by simp only [Piece.trivia?, hkind]; rfl, rfl, ?_, ?_⟩
      · rw [String.toList_ofList]
        exact ⟨rest, htext.symm⟩
      · simpa using opensComment_first hopens
    · exact absurd hopen hclosed

/-! ## Tokens -/

namespace Lexed

/-- A rest of the source that stands behind a token does not continue it. -/
structure IsLongest (lexed : Lexed) (token : Token) (rest : List Char) : Prop where
  word : token.kind.isWord = true →
    ∀ c ∈ rest.head?, isLetter c = false ∧ isNumber c = false ∧ c ≠ '_'
  moduleName : token.kind.isIdentifier = true → token.moduleName = none →
    (∃ c ∈ token.value.toList.head?, isUppercaseLetter c = true) →
      ∀ c behind, rest = ':' :: ':' :: c :: behind → isLetter c = false ∧ c ≠ '_'
  operator : IsOperatorText token.kind token.value.toList →
    (∃ c ∈ rest.head?, isOperatorChar c = true) →
      token.kind = .mark .atSign ∧ token.value = "@" ∧ token.moduleName = none ∨
        ∃ trivia ∈ lexed.trivia, trivia.span.start = token.span.stop ∧
          trivia.text.toList <+: rest ∧ OpensComment trivia.text.toList

private theorem isLongest_of_malformed {lexed : Lexed} {token : Token} (h : token.kind = .malformed)
    (rest : List Char) : lexed.IsLongest token rest := by
  constructor
  · intro hword
    rw [h] at hword
    cases hword
  · intro hidentifier
    rw [h] at hidentifier
    cases hidentifier
  · rintro ⟨hsymbol | ⟨mark, hmark⟩, -⟩
    · simp [hsymbol] at h
    · simp [hmark] at h

private theorem isLongest_of_endsBefore {lexed : Lexed} {rest : List Char} {piece : Piece}
    {slot : Slot} (hslot : piece.slot? = some slot) (hends : piece.lexeme.meaning.EndsBefore rest)
    (hcomment : OpensComment rest → ∃ trivia ∈ lexed.trivia,
      trivia.span.start = recorded piece.span.stop ∧ trivia.text.toList <+: rest ∧
        OpensComment trivia.text.toList) :
    lexed.IsLongest slot.toToken rest := by
  rcases Piece.slot_cases hslot with ⟨kind, value, home, hmeaning, rfl⟩ | ⟨cause, -, rfl⟩
  · rw [hmeaning] at hends
    obtain ⟨hword, hmodule, hoperator⟩ : EndsBefore kind value home rest := hends
    constructor
    · intro hkind c hc
      simpa [continuesWord, and_assoc] using hword hkind c hc
    · intro hkind hhome hcapital c behind hrest
      have hstarts := hmodule hkind (by simpa using hhome) (by simpa using hcapital) c behind hrest
      simpa [startsWord] using hstarts
    · intro htext hnext
      rcases hoperator (by simpa using htext) hnext with ⟨rfl, rfl, rfl⟩ | hopens
      · exact .inl ⟨rfl, rfl, rfl⟩
      · exact .inr (hcomment hopens)
  · exact isLongest_of_malformed rfl rest

/-- Behind every token stands a rest of the source that does not continue it. -/
theorem tokens_are_longest {source : String} {lexed : Lexed} (h : ofSource source = .ok lexed) :
    ∃ pieces, CutInto source.toList pieces ∧ lexed = ofPieces pieces (byteLength source.toList) ∧
      ∀ piece ∈ pieces, ∀ slot, piece.slot? = some slot →
        ∃ before rest, source.toList = before ++ piece.lexeme.text ++ rest ∧
          piece.offset = byteLength before ∧ lexed.IsLongest slot.toToken rest := by
  obtain ⟨pieces, hcut, rfl⟩ := exists_pieces h
  refine ⟨pieces, hcut, rfl, fun piece hpiece slot hslot => ?_⟩
  obtain ⟨before, rest, later, hsource, hoffset, hfirst, hreads, hsubset⟩ :=
    hcut.exists_behind hpiece hslot
  refine ⟨before, rest, hsource, hoffset, ?_⟩
  have hends : piece.lexeme.meaning.EndsBefore rest := by
    rw [← hfirst]
    apply Lexeme.first_endsBefore
    rw [hfirst]
  refine isLongest_of_endsBefore hslot hends fun hopens => ?_
  obtain ⟨comment, hcomment, trivia, htrivia, hstart, htext⟩ := hreads.exists_comment hopens
  exact ⟨trivia, List.mem_filterMap.mpr ⟨comment, hsubset hcomment, htrivia⟩, hstart, htext⟩

/-- A qualified operator that a comment cuts, at signs side by side, and a capitalised name whose
double colon is followed by a digit. -/
def crowdedSource : String := "Ä::é::+/*c*/ @@x if1 M::<>//\nN::1"

theorem crowdedSource_longest :
    ∃ lexed, ofSource crowdedSource = .ok lexed ∧
      lexed.tokens.map Token.value =
        ["é", "::+", "@", "@", "x", "if1", "<>", "N", "::", "1", "EOF"] ∧
      ∃ pieces, CutInto crowdedSource.toList pieces ∧
        lexed = ofPieces pieces (byteLength crowdedSource.toList) ∧
        ∀ piece ∈ pieces, ∀ slot, piece.slot? = some slot →
          ∃ before rest, crowdedSource.toList = before ++ piece.lexeme.text ++ rest ∧
            piece.offset = byteLength before ∧ lexed.IsLongest slot.toToken rest :=
  ⟨_, rfl, rfl, tokens_are_longest rfl⟩

end Lexed

end Equational

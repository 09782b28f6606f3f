import Equational.Proofs.Lexed.Tiling
import Equational.Proofs.Number.Literal
import Equational.Proofs.Result

/-!
# Numbers of a text

A number token is a number that has a value unless it is too large.  Where no token and no trivia
lies across a place, the longest number that stands there is read; it becomes a number token unless
it is faulty.
-/

namespace Equational

open Equational.Token Equational.Unicode

namespace Token

/-! ## Lexemes -/

def Meaning.IsSoundNumber : Meaning → Prop
  | .token .number value _ => IsNumeral value ∧ ¬NumberLiteral.IsFaulty value
  | _ => True

private theorem isSoundNumber_of_identifierKind (name value : List Char)
    (home : Option (List Char)) :
    (Meaning.token (identifierKind name) value home).IsSoundNumber := by
  rcases identifierKind_cases name with hkind | hkind <;> rw [hkind] <;> trivial

private theorem Lexeme.FoundIn.isSoundNumber {text : List Char} {lexeme : Lexeme}
    (h : lexeme.FoundIn text) : lexeme.meaning.IsSoundNumber := by
  cases h with
  | number hne hsound =>
    have hnumeral := isNumeral_numeralText hne
    refine ⟨hnumeral, fun hfaulty => ?_⟩
    cases hsound.symm.trans ((NumberLiteral.isMalformedNumeral_iff hnumeral).mpr hfaulty)
  | qualifiedName | identifier => exact isSoundNumber_of_identifierKind _ _ _
  | @operator run =>
    rcases ofOperatorText_cases (String.ofList run) with ⟨mark, hkind⟩ | hkind <;>
      rw [hkind] <;> trivial
  | _ => trivial

theorem isSoundNumber_first (text : List Char) : (Lexeme.first text).meaning.IsSoundNumber :=
  (Lexeme.first_foundIn text).isSoundNumber

theorem not_isWhiteSpace_of_digit {c : Char} (h : c.isDigit) : isWhiteSpace c = false := by
  obtain ⟨digit, hlt, rfl⟩ := exists_digitChar h
  have hdigits : ∀ digit : Fin 10, isWhiteSpace digit.val.digitChar = false := by decide
  exact hdigits ⟨digit, hlt⟩

theorem first_of_digit {c : Char} (h : c.isDigit) {rest : List Char} {lexeme : Lexeme}
    (hnumber : number? (c :: rest) = some lexeme) : Lexeme.first (c :: rest) = lexeme := by
  have hblank := not_isWhiteSpace_of_digit h
  obtain ⟨hword, hmodule, hslash⟩ : startsWord c = false ∧ isUppercaseLetter c = false ∧
      c ≠ '/' := by
    obtain ⟨digit, hlt, rfl⟩ := exists_digitChar h
    have hdigits : ∀ digit : Fin 10, startsWord digit.val.digitChar = false ∧
        isUppercaseLetter digit.val.digitChar = false ∧ digit.val.digitChar ≠ '/' := by
      decide
    exact hdigits ⟨digit, hlt⟩
  simp [Lexeme.first, patterns, blank?, hblank, lineComment?, blockComment?, hslash,
    qualifiedName?, qualifiedOperator?, modulePart?, hmodule, plainWord?, word?, hword, hnumber]

def numberLexeme (numeral : List Char) : Lexeme :=
  if isMalformedNumeral numeral then
    ⟨numeral, .malformed (.invalidNumber (String.ofList numeral))⟩
  else ⟨numeral, .token .number numeral none⟩

theorem exists_digit {numeral : List Char} (h : IsNumeral numeral) :
    ∃ c rest, numeral = c :: rest ∧ c.isDigit := by
  cases h with
  | hexadecimal => exact ⟨_, _, rfl, rfl⟩
  | decimal hwhole =>
    obtain ⟨c, others, rfl⟩ := List.exists_cons_of_ne_nil hwhole.nonempty
    exact ⟨c, _, rfl, hwhole.isDigit c List.mem_cons_self⟩

theorem first_of_longestNumeral {numeral rest : List Char} (h : IsLongestNumeral numeral rest) :
    Lexeme.first (numeral ++ rest) = numberLexeme numeral := by
  have htext := numeralText_eq h
  obtain ⟨c, others, rfl, hdigit⟩ := exists_digit h.isNumeral
  rw [List.cons_append] at htext ⊢
  refine first_of_digit hdigit ?_
  unfold number? numberLexeme
  simp only [htext]
  split <;> rfl

end Token

/-! ## Free places -/

theorem Reads.first_mem {offset : Nat} {text : List Char} {pieces : List Piece}
    (h : Reads offset text pieces) {before after : List Char} {c : Char}
    (htext : text = before ++ c :: after) (hblank : isWhiteSpace c = false)
    (hfree : ∀ piece ∈ pieces, ¬(piece.span.start < offset + byteLength before ∧
      offset + byteLength before < piece.span.stop)) :
    ⟨offset + byteLength before, Lexeme.first (c :: after)⟩ ∈ pieces := by
  induction h generalizing before with
  | nil => simp at htext
  | @blank offset d rest pieces hd _ ih =>
    cases before with
    | nil =>
      obtain ⟨rfl, -⟩ := List.cons.inj htext
      rw [hd] at hblank
      cases hblank
    | cons d inner =>
      obtain ⟨rfl, hrest⟩ := List.cons.inj htext
      rw [byteLength_cons, ← Nat.add_assoc] at hfree ⊢
      exact ih hrest hfree
  | @lexeme offset d behind rest lexeme pieces _ hfirst _ hsplit _ ih =>
    obtain ⟨hhead, hrests⟩ := List.forall_mem_cons.mp hfree
    rcases front_or_rest (hsplit.symm.trans htext) with hfront | ⟨inner, rfl, hrest⟩
    · cases before with
      | nil =>
        obtain ⟨rfl, rfl⟩ := List.cons.inj htext
        rw [hfirst]
        exact List.mem_cons_self
      | cons d inner =>
        have hpositive := d.utf8Size_pos
        have hlast := c.utf8Size_pos
        simp only [List.cons_append, byteLength_cons, byteLength_append, byteLength_nil] at hfront
        refine absurd ⟨?_, ?_⟩ hhead <;> simp only [Piece.span, byteLength_cons] <;> omega
    · rw [byteLength_append, ← Nat.add_assoc] at hrests ⊢
      exact List.mem_cons_of_mem _ (ih hrest hrests)

/-- No token and no trivia lies across the place. -/
def IsFreeAt (pieces : List Piece) (place : Nat) : Prop :=
  ∀ piece ∈ pieces, ¬(piece.span.start < place ∧ place < piece.span.stop)

namespace Lexed

theorem CutInto.first_mem {source : List Char} {pieces : List Piece} (h : CutInto source pieces)
    {before after : List Char} {c : Char} (hsource : source = before ++ c :: after)
    (hblank : isWhiteSpace c = false) (hplain : c ≠ '#')
    (hfree : IsFreeAt pieces (byteLength before)) :
    ⟨byteLength before, Lexeme.first (c :: after)⟩ ∈ pieces := by
  cases h with
  | @interpreted line rest pieces hline hrest =>
    obtain ⟨hhead, hrests⟩ := List.forall_mem_cons.mp hfree
    rcases front_or_rest hsource with hfront | ⟨inner, rfl, hinner⟩
    · cases before with
      | nil =>
        rw [hsource, List.nil_append] at hline
        have hother : ¬['#', '!'] <+: c :: after := by simp [hplain.symm]
        cases (interpreterLine_eq_none_iff.mpr hother).symm.trans hline
      | cons d inner =>
        have hpositive := d.utf8Size_pos
        have hlast := c.utf8Size_pos
        simp only [List.cons_append, byteLength_cons, byteLength_append, byteLength_nil] at hfront
        refine absurd ⟨?_, ?_⟩ hhead <;> simp only [Piece.span, byteLength_cons] <;> omega
    · rw [byteLength_append] at hrests ⊢
      exact List.mem_cons_of_mem _ (hrest.first_mem hinner hblank hrests)
  | plain _ hall =>
    simpa using hall.first_mem hsource hblank (by simpa [IsFreeAt] using hfree)

theorem CutInto.numberLexeme_mem {source : List Char} {pieces : List Piece}
    (h : CutInto source pieces) {before numeral after : List Char}
    (hsource : source = before ++ numeral ++ after)
    (hlongest : IsLongestNumeral numeral after) (hfree : IsFreeAt pieces (byteLength before)) :
    ⟨byteLength before, numberLexeme numeral⟩ ∈ pieces := by
  have hfirst := first_of_longestNumeral hlongest
  obtain ⟨c, others, rfl, hdigit⟩ := exists_digit hlongest.isNumeral
  rw [List.append_assoc, List.cons_append] at hsource
  rw [List.cons_append] at hfirst
  rw [← hfirst]
  refine h.first_mem hsource (not_isWhiteSpace_of_digit hdigit) ?_ hfree
  rintro rfl
  cases hdigit

/-! ## Number tokens -/

def numberSlot (place : Nat) (numeral : List Char) : Slot :=
  let span := Span.between place (place + byteLength numeral)
  if isMalformedNumeral numeral then
    ⟨⟨.malformed, String.ofList numeral, none, span⟩,
      some ⟨.invalidNumber (String.ofList numeral), span⟩⟩
  else ⟨⟨.number, String.ofList numeral, none, span⟩, none⟩

theorem slot_of_numberLexeme (place : Nat) (numeral : List Char) :
    Piece.slot? ⟨place, numberLexeme numeral⟩ = some (numberSlot place numeral) := by
  unfold numberLexeme numberSlot
  split <;> rfl

private theorem decodes_of_piece {piece : Piece} (h : piece.lexeme.meaning.IsSoundNumber)
    {slot : Slot}
    (hslot : piece.slot? = some slot) (hkind : slot.kind = .number) : slot.Decodes := by
  rcases Piece.slot_cases hslot with ⟨kind, value, home, hmeaning, rfl⟩ | ⟨cause, -, rfl⟩
  · obtain rfl := hkind
    rw [hmeaning] at h
    have hvalue : (String.ofList value).toList = value := String.toList_ofList
    refine NumberLiteral.decodes_of_isNumeral ?_ ?_ <;> simp only [hvalue]
    · exact h.1
    · exact h.2
  · cases hkind

/-- What is read where a number stands: a number token, or a malformed one, whose diagnostic is kept
under its index, if the number is faulty. -/
structure ReadsNumber (lexed : Lexed) (before numeral : List Char) (index : Nat) (token : Token) :
    Prop where
  stands : lexed.tokens[index]? = some token
  span : token.span = .between (byteLength before) (byteLength (before ++ numeral))
  value : token.value = String.ofList numeral
  moduleName : token.moduleName = none
  faulty : NumberLiteral.IsFaulty numeral → token.kind = .malformed ∧
    lexed.errors.find? index = some ⟨.invalidNumber token.value, token.span⟩
  sound : ¬NumberLiteral.IsFaulty numeral →
    token.kind = .number ∧ lexed.errors.find? index = none

/-- A number token is read as what it says, and the longest number at a free place becomes a number
token, or a malformed one if it is faulty. -/
theorem numbers_decode {source : String} {lexed : Lexed} (h : ofSource source = .ok lexed) :
    (∀ token ∈ lexed.tokens, token.kind = .number → token.Decodes) ∧
      ∃ pieces, CutInto source.toList pieces ∧
        lexed = ofPieces pieces (byteLength source.toList) ∧
        ∀ before numeral after, source.toList = before ++ numeral ++ after →
          IsLongestNumeral numeral after → IsFreeAt pieces (byteLength before) →
            ∃ index token, lexed.ReadsNumber before numeral index token := by
  obtain ⟨pieces, hcut, rfl⟩ := exists_pieces h
  refine ⟨?_, pieces, hcut, rfl, ?_⟩
  · intro token hmem hkind
    obtain ⟨slot, hslot, rfl⟩ := List.mem_map.mp hmem
    rcases List.mem_append.mp hslot with hslot | hend
    · obtain ⟨piece, hpiece, hslot⟩ := List.mem_filterMap.mp hslot
      have hsound := hcut.forall_meaning isSoundNumber_first trivial piece hpiece
      exact decodes_of_piece hsound hslot hkind
    · obtain rfl := List.mem_singleton.mp hend
      cases hkind
  · intro before numeral after hsource hlongest hfree
    have hpiece := hcut.numberLexeme_mem hsource hlongest hfree
    have hfaulty := NumberLiteral.isMalformedNumeral_iff hlongest.isNumeral
    have hmem : numberSlot (byteLength before) numeral ∈
        slotsOf pieces ++ [.endOfInput (byteLength source.toList)] :=
      List.mem_append_left _
        (List.mem_filterMap.mpr ⟨_, hpiece, slot_of_numberLexeme _ numeral⟩)
    obtain ⟨index, hindex⟩ := List.mem_iff_getElem?.mp hmem
    have hstands : (ofPieces pieces (byteLength source.toList)).tokens[index]? =
        some (numberSlot (byteLength before) numeral).toToken :=
      List.getElem?_map.trans (congrArg (Option.map Slot.toToken) hindex)
    have hfind := DiagnosticMap.find_of_getElem hindex
    have hspan : Span.between (byteLength before) (byteLength before + byteLength numeral) =
        .between (byteLength before) (byteLength (before ++ numeral)) := by
      rw [byteLength_append]
    unfold numberSlot at hstands hfind
    split at hstands
    · rename_i hmalformed
      rw [if_pos hmalformed] at hfind
      exact ⟨index, _, hstands, hspan, rfl, rfl, fun _ => ⟨rfl, hfind⟩,
        fun hnot => absurd (hfaulty.mp hmalformed) hnot⟩
    · rename_i hsound
      rw [if_neg hsound] at hfind
      exact ⟨index, _, hstands, hspan, rfl, rfl, fun hnot => absurd (hfaulty.mpr hnot) hsound,
        fun _ => ⟨rfl, hfind⟩⟩

/-- A hexadecimal number with an `e` among its digits, an octal one, a zero in front of a fraction,
the least number that is too large, and two faulty numbers. -/
def numbersSource : String := "0x1Fe 017 00.5 340282366920938463463374607431768211456 08 0X"

theorem numbersSource_decodes :
    ∃ lexed, ofSource numbersSource = .ok lexed ∧ lexed.tokens.length = 7 ∧
      (∀ token ∈ lexed.tokens, token.kind = .number → token.Decodes) ∧
      ∃ index, ∃ token, lexed.tokens[index]? = some token ∧ token.span = ⟨55, 57⟩ ∧
        token.kind = .malformed ∧
        lexed.errors.find? index = some ⟨.invalidNumber "08", ⟨55, 57⟩⟩ := by
  obtain ⟨lexed, hlexed, houtcome⟩ := exists_of_map_eq_ok
    (f := fun lexed : Lexed => (lexed.tokens.length,
      lexed.spans.all fun span => !(span.start < 55 && 55 < span.stop)))
    (by decide +kernel : (ofSource numbersSource).map _ = .ok (7, true))
  obtain ⟨hlength, hspans⟩ := Prod.mk.inj houtcome
  obtain ⟨hdecodes, pieces, hcut, rfl, hlongest⟩ := numbers_decode hlexed
  have hfree : IsFreeAt pieces 55 := by
    intro piece hmem
    have hspan := List.all_eq_true.mp hspans _ (span_mem_spans hcut (by decide) hmem _)
    simp only [Bool.not_eq_true', Bool.and_eq_false_iff, decide_eq_false_iff_not] at hspan
    omega
  have hnumeral : IsLongestNumeral ['0', '8'] [' ', '0', 'X'] :=
    isLongestNumeral_of_numeralText nofun rfl
  have hfaulty : NumberLiteral.IsFaulty ['0', '8'] :=
    .octal ⟨nofun, List.forall_mem_singleton.mpr rfl⟩ ⟨'8', by simp, .inl rfl⟩
  obtain ⟨index, token, hread⟩ :=
    hlongest (numbersSource.toList.take 55) _ _ rfl hnumeral hfree
  obtain ⟨hkind, hfind⟩ := hread.faulty hfaulty
  rw [hread.span, hread.value] at hfind
  exact ⟨_, hlexed, hlength, hdecodes, index, token, hread.stands, hread.span, hkind, hfind⟩

end Lexed

end Equational

import Equational.Proofs.Token.Literal
import Equational.Token.Lexeme

/-!
# What a lexeme takes from the text

The lexeme at the front of a text has one of a few forms, by the pattern that has found it.  It is a
nonempty piece of the text, and its meaning spells that piece.
-/

namespace Equational.Token

open Equational.Unicode

/-! ## Blanks and comments -/

theorem restOfLine_isPrefix (text : List Char) : restOfLine text <+: text :=
  List.takeWhile_prefix _

theorem throughClosing_isPrefix {text body : List Char} (h : throughClosing? text = some body) :
    body <+: text := by
  induction text generalizing body with
  | nil => cases h
  | cons c rest ih =>
    unfold throughClosing? at h
    split at h
    · cases ‹_›
    · cases h
      rename_i hcons
      cases hcons
      simp
    · rename_i hcons
      cases hcons
      obtain ⟨inner, hinner, rfl⟩ := Option.map_eq_some_iff.mp h
      simpa using ih hinner

/-! ## Words and names -/

theorem modulePart_eq_some {text home after : List Char}
    (h : modulePart? text = some (home, after)) :
    home ≠ [] ∧ text = home ++ [':', ':'] ++ after := by
  unfold modulePart? at h
  split at h
  · rename_i first rest
    split at h
    · dsimp only at h
      split at h
      · rename_i found hfound
        cases h
        refine ⟨by simp, ?_⟩
        have hprefix : first :: rest.takeWhile continuesWord <+: first :: rest := by
          simpa using List.takeWhile_prefix _
        have hsplit := List.prefix_iff_eq_append.mp hprefix
        rw [hfound] at hsplit
        simpa using hsplit.symm
      · cases h
    · cases h
  · cases h

theorem eq_append_of_modulePart {text home after name rest : List Char}
    (hmodule : modulePart? text = some (home, after))
    (htext : text = home ++ [':', ':'] ++ name ++ rest) : after = name ++ rest := by
  have hsplit := (modulePart_eq_some hmodule).2.symm.trans htext
  rw [List.append_assoc _ name] at hsplit
  exact List.append_cancel_left hsplit

theorem word_isPrefix {text word : List Char} (h : word? text = some word) :
    word ≠ [] ∧ word <+: text := by
  unfold word? at h
  split at h
  · split at h
    · cases h
      exact ⟨by simp, by simpa using List.takeWhile_prefix _⟩
    · cases h
  · cases h

theorem identifierKind_cases (name : List Char) :
    identifierKind name = .variableName ∨ identifierKind name = .functionName := by
  unfold identifierKind
  split
  · exact .inl rfl
  · split
    · exact .inl rfl
    · exact .inr rfl
  · exact .inr rfl

/-! ## Operators -/

theorem cutBeforeComment_isPrefix (text : List Char) : cutBeforeComment text <+: text := by
  fun_induction cutBeforeComment text <;> simp_all

theorem cut_isPrefix (text : List Char) :
    cutBeforeComment (text.takeWhile isOperatorChar) <+: text :=
  (cutBeforeComment_isPrefix _).trans (List.takeWhile_prefix _)

theorem isOperatorChar_of_cut {text : List Char} {c : Char}
    (h : c ∈ cutBeforeComment (text.takeWhile isOperatorChar)) : isOperatorChar c :=
  List.all_eq_true.mp List.all_takeWhile c ((cutBeforeComment_isPrefix _).subset h)

theorem ofOperatorText_cases (text : String) :
    (∃ mark, TokenKind.ofOperatorText text = .mark mark) ∨
      TokenKind.ofOperatorText text = .operatorSymbol := by
  unfold TokenKind.ofOperatorText
  cases Punctuation.ofSpelling? text with
  | some mark => exact .inl ⟨mark, rfl⟩
  | none => exact .inr rfl

/-! ## Numbers -/

theorem append_isPrefix {front next text : List Char} (h : front <+: text)
    (hnext : next <+: text.drop front.length) : front ++ next <+: text := by
  obtain ⟨rest, rfl⟩ := h
  rw [List.drop_left] at hnext
  exact (List.prefix_append_right_inj front).mpr hnext

theorem fractionText_isPrefix (text : List Char) : fractionText text <+: text := by
  unfold fractionText
  split
  · rename_i rest
    split
    · exact List.nil_prefix
    · rename_i digits hdigits
      simpa using List.takeWhile_prefix _
  · exact List.nil_prefix

private theorem exponentText_isPrefix (text : List Char) : exponentText text <+: text := by
  unfold exponentText
  split
  · rename_i mark rest
    split
    · extract_lets sign
      have hsign : sign <+: rest := by
        unfold sign
        split <;> simp
      split
      · exact List.nil_prefix
      · simpa using append_isPrefix hsign (List.takeWhile_prefix _)
    · exact List.nil_prefix
  · exact List.nil_prefix

theorem decimalText_isPrefix (text : List Char) : decimalText text <+: text := by
  unfold decimalText
  split
  · exact List.nil_prefix
  · extract_lets fraction
    have hwhole : text.takeWhile Char.isDigit <+: text := List.takeWhile_prefix _
    have hfraction := append_isPrefix hwhole (fractionText_isPrefix _)
    refine append_isPrefix hfraction ?_
    rw [List.length_append]
    exact exponentText_isPrefix _

theorem numeralText_isPrefix (text : List Char) : numeralText text <+: text := by
  unfold numeralText
  split
  · split
    · simpa using List.takeWhile_prefix _
    · exact decimalText_isPrefix _
  · exact decimalText_isPrefix _

/-! ## The front of a text -/

/-- What the patterns find at the front of a text: each rule is a form of a lexeme. -/
inductive Lexeme.FoundIn (text : List Char) : Lexeme → Prop
  | blank (hrun : text.takeWhile isWhiteSpace ≠ []) :
      FoundIn text ⟨text.takeWhile isWhiteSpace, .blank⟩
  | lineComment {rest : List Char} (htext : text = '/' :: '/' :: rest) :
      FoundIn text ⟨'/' :: '/' :: restOfLine rest, .trivia .lineComment⟩
  | blockComment {rest body : List Char} (htext : text = '/' :: '*' :: rest)
      (hbody : throughClosing? rest = some body) :
      FoundIn text ⟨'/' :: '*' :: body, .trivia .blockComment⟩
  | openComment {rest : List Char} (htext : text = '/' :: '*' :: rest)
      (hbody : throughClosing? rest = none) :
      FoundIn text ⟨['/', '*'], .unclosed .unterminatedComment 2⟩
  | qualifiedName {home after name : List Char} (hmodule : modulePart? text = some (home, after))
      (hname : word? after = some name) :
      FoundIn text ⟨home ++ [':', ':'] ++ name, .token (identifierKind name) name (some home)⟩
  | qualifiedOperator {home after symbol : List Char}
      (hmodule : modulePart? text = some (home, after))
      (hrun : after.takeWhile isOperatorChar ≠ [])
      (hcut : cutBeforeComment (after.takeWhile isOperatorChar) = symbol) :
      FoundIn text ⟨home ++ [':', ':'] ++ symbol, .token .operatorSymbol symbol (some home)⟩
  | keyword {word : List Char} {keyword : Keyword} (hqualified : qualifiedName? text = none)
      (hword : word? text = some word)
      (hkeyword : Keyword.ofSpelling? (String.ofList word) = some keyword) :
      FoundIn text ⟨word, .token (.word keyword) word none⟩
  | identifier {word : List Char} (hqualified : qualifiedName? text = none)
      (hword : word? text = some word)
      (hkeyword : Keyword.ofSpelling? (String.ofList word) = none) :
      FoundIn text ⟨word, .token (identifierKind word) word none⟩
  | malformedNumber (hnumeral : numeralText text ≠ [])
      (hmalformed : isMalformedNumeral (numeralText text) = true) :
      FoundIn text
        ⟨numeralText text, .malformed (.invalidNumber (String.ofList (numeralText text)))⟩
  | number (hnumeral : numeralText text ≠ [])
      (hsound : isMalformedNumeral (numeralText text) = false) :
      FoundIn text ⟨numeralText text, .token .number (numeralText text) none⟩
  | string {body : List Char} (htext : text = '"' :: body)
      (hending : (Literal.ofBody body).ending = .closed)
      (hescape : (Literal.ofBody body).badEscape = none) :
      FoundIn text ⟨'"' :: body.take (Literal.ofBody body).size,
        .token .string (Literal.ofBody body).decoded none⟩
  | malformedString {body : List Char} {cause : Cause} (htext : text = '"' :: body)
      (hending : (Literal.ofBody body).ending ≠ .atTextEnd)
      (hcause : cause = .newlineInString ∨ ∃ escape, cause = .invalidEscape escape) :
      FoundIn text ⟨'"' :: body.take (Literal.ofBody body).size, .malformed cause⟩
  | openString {body : List Char} (htext : text = '"' :: body)
      (hending : (Literal.ofBody body).ending = .atTextEnd) :
      FoundIn text
        ⟨'"' :: body.take (Literal.ofBody body).size, .unclosed .unterminatedString 1⟩
  | singleMark {c : Char} {rest : List Char} {mark : Punctuation} (htext : text = c :: rest)
      (hspelling : mark.spelling = String.ofList [c]) (halone : isOperatorChar c = false) :
      FoundIn text ⟨[c], .token (.mark mark) [c] none⟩
  | atSign {behind : List Char}
      (hcut : cutBeforeComment (text.takeWhile isOperatorChar) = '@' :: behind) :
      FoundIn text ⟨['@'], .token (.mark .atSign) ['@'] none⟩
  | operator {run : List Char} (hcut : cutBeforeComment (text.takeWhile isOperatorChar) = run)
      (hne : run ≠ []) :
      FoundIn text ⟨run, .token (.ofOperatorText (String.ofList run)) run none⟩
  | unrecognised : FoundIn text (unrecognised text)

section Patterns

variable {text : List Char} {lexeme : Lexeme}

theorem foundIn_of_blank (h : blank? text = some lexeme) : lexeme.FoundIn text := by
  unfold blank? at h
  split at h
  · cases h
  · rename_i hrun
    cases h
    exact .blank hrun

theorem foundIn_of_lineComment (h : lineComment? text = some lexeme) : lexeme.FoundIn text := by
  unfold lineComment? at h
  split at h
  · cases h
    exact .lineComment rfl
  · cases h

theorem foundIn_of_blockComment (h : blockComment? text = some lexeme) : lexeme.FoundIn text := by
  unfold blockComment? at h
  split at h
  · split at h <;> rename_i hbody <;> cases h
    · exact .blockComment rfl hbody
    · exact .openComment rfl hbody
  · cases h

theorem foundIn_of_qualifiedName (h : qualifiedName? text = some lexeme) : lexeme.FoundIn text := by
  simp only [qualifiedName?, Option.bind_eq_bind, Option.bind_eq_some_iff] at h
  obtain ⟨⟨home, after⟩, hmodule, name, hname, hlexeme⟩ := h
  cases hlexeme
  exact .qualifiedName hmodule hname

theorem foundIn_of_qualifiedOperator (h : qualifiedOperator? text = some lexeme) :
    lexeme.FoundIn text := by
  simp only [qualifiedOperator?, Option.bind_eq_bind, Option.bind_eq_some_iff] at h
  obtain ⟨⟨home, after⟩, hmodule, h⟩ := h
  dsimp only at h
  split at h
  · cases h
  · rename_i hrun
    cases h
    exact .qualifiedOperator hmodule hrun rfl

theorem foundIn_of_plainWord (hqualified : qualifiedName? text = none)
    (h : plainWord? text = some lexeme) : lexeme.FoundIn text := by
  simp only [plainWord?, Option.bind_eq_bind, Option.bind_eq_some_iff] at h
  obtain ⟨word, hword, hlexeme⟩ := h
  cases hlexeme
  unfold TokenKind.ofKeyword?
  cases hkeyword : Keyword.ofSpelling? (String.ofList word) with
  | some keyword => exact .keyword hqualified hword hkeyword
  | none => exact .identifier hqualified hword hkeyword

theorem foundIn_of_number (h : number? text = some lexeme) : lexeme.FoundIn text := by
  unfold number? at h
  split at h
  · cases h
  · rename_i hnumeral
    split at h <;> rename_i hmalformed <;> cases h
    · exact .malformedNumber hnumeral hmalformed
    · exact .number hnumeral (Bool.eq_false_iff.mpr hmalformed)

theorem foundIn_of_string (h : string? text = some lexeme) : lexeme.FoundIn text := by
  unfold string? at h
  split at h
  · dsimp only at h
    split at h <;> cases h
    · rename_i hending hescape
      exact .string rfl hending hescape
    · rename_i escape hending hescape
      exact .malformedString rfl (by simp [hending]) (.inr ⟨escape, rfl⟩)
    · rename_i hending
      exact .malformedString rfl (by simp [hending]) (.inl rfl)
    · rename_i hending
      exact .openString rfl hending
  · cases h

private theorem foundIn_of_singleMark (h : singleMark? text = some lexeme) :
    lexeme.FoundIn text := by
  unfold singleMark? at h
  split at h
  · dsimp only at h
    split at h <;> cases h <;> exact .singleMark rfl rfl (by decide)
  · cases h

private theorem foundIn_of_operatorRun (h : operatorRun? text = some lexeme) :
    lexeme.FoundIn text := by
  unfold operatorRun? at h
  split at h
  · cases h
  · rename_i hcut
    cases h
    exact .atSign hcut
  · rename_i hne _
    cases h
    exact .operator rfl hne

end Patterns

theorem Lexeme.first_foundIn (text : List Char) : (Lexeme.first text).FoundIn text := by
  unfold Lexeme.first patterns
  simp only [List.findSome?_cons, List.findSome?_nil]
  split
  · exact foundIn_of_blank ‹_›
  split
  · exact foundIn_of_lineComment ‹_›
  split
  · exact foundIn_of_blockComment ‹_›
  split
  · exact foundIn_of_qualifiedName ‹_›
  rename_i hqualified
  split
  · exact foundIn_of_qualifiedOperator ‹_›
  split
  · exact foundIn_of_plainWord hqualified ‹_›
  split
  · exact foundIn_of_number ‹_›
  split
  · exact foundIn_of_string ‹_›
  split
  · exact foundIn_of_singleMark ‹_›
  split
  · exact foundIn_of_operatorRun ‹_›
  · exact .unrecognised

/-! ## Spelling -/

def spelling (home : Option (List Char)) (name : List Char) : List Char :=
  match home with
  | some home => home ++ [':', ':'] ++ name
  | none => name

/-- Blanks are blank, a string stands between quotes, and any other token is spelled as it is
written; operators are made of operator characters. -/
def Meaning.Spells (text : List Char) : Meaning → Prop
  | .blank => ∀ c ∈ text, isWhiteSpace c
  | .trivia _ => True
  | .token .string _ home => home = none ∧ ∃ body, text = '"' :: body ++ ['"']
  | .token kind value home =>
    kind ≠ .endOfInput ∧ kind ≠ .malformed ∧ text = spelling home value ∧
      (kind = .operatorSymbol → ∀ c ∈ value, isOperatorChar c)
  | .malformed cause => cause.phase = .lexical
  | .unclosed _ _ => True

/-- A piece of the front of a text, with a meaning that fits. -/
structure Lexeme.Fronts (lexeme : Lexeme) (text : List Char) : Prop where
  nonempty : lexeme.text ≠ []
  isPrefix : lexeme.text <+: text
  spells : lexeme.meaning.Spells lexeme.text

theorem fronts_of_modulePart {text home after name : List Char} {kind : TokenKind}
    (hmodule : modulePart? text = some (home, after)) (hname : name <+: after)
    (hkind : kind ≠ .endOfInput ∧ kind ≠ .malformed ∧ kind ≠ .string)
    (hsymbol : kind = .operatorSymbol → ∀ c ∈ name, isOperatorChar c) :
    Lexeme.Fronts ⟨home ++ [':', ':'] ++ name, .token kind name (some home)⟩ text := by
  obtain ⟨-, rfl⟩ := modulePart_eq_some hmodule
  refine ⟨by simp, by simpa using hname, ?_⟩
  obtain ⟨hend, hmalformed, hstring⟩ := hkind
  cases kind <;> simp_all [Meaning.Spells, spelling]

private theorem Lexeme.FoundIn.fronts {text : List Char} {lexeme : Lexeme} (h : lexeme.FoundIn text)
    (hne : text ≠ []) : lexeme.Fronts text := by
  cases h with
  | blank hrun => exact ⟨hrun, List.takeWhile_prefix _, List.all_eq_true.mp List.all_takeWhile⟩
  | @lineComment rest htext =>
    exact ⟨by simp, by simpa [htext] using restOfLine_isPrefix rest, trivial⟩
  | blockComment htext hbody =>
    exact ⟨by simp, by simpa [htext] using throughClosing_isPrefix hbody, trivial⟩
  | openComment htext => exact ⟨by simp, by simp [htext], trivial⟩
  | @qualifiedName _ _ name hmodule hname =>
    refine fronts_of_modulePart hmodule (word_isPrefix hname).2 ?_ ?_ <;>
      rcases identifierKind_cases name with hkind | hkind <;> simp [hkind]
  | qualifiedOperator hmodule _ hcut =>
    subst hcut
    exact fronts_of_modulePart hmodule (cut_isPrefix _) (by simp) fun _ c => isOperatorChar_of_cut
  | keyword _ hword =>
    obtain ⟨hword, hprefix⟩ := word_isPrefix hword
    exact ⟨hword, hprefix, by simp [Meaning.Spells, spelling]⟩
  | @identifier word _ hword =>
    obtain ⟨hword, hprefix⟩ := word_isPrefix hword
    refine ⟨hword, hprefix, ?_⟩
    rcases identifierKind_cases word with hkind | hkind <;> simp [hkind, Meaning.Spells, spelling]
  | malformedNumber hnumeral => exact ⟨hnumeral, numeralText_isPrefix text, rfl⟩
  | number hnumeral =>
    exact ⟨hnumeral, numeralText_isPrefix text, by simp [Meaning.Spells, spelling]⟩
  | @string body htext hending =>
    refine ⟨by simp, by simpa [htext] using List.take_prefix _ body, rfl, ?_⟩
    obtain ⟨front, rest, htakes⟩ := exists_takes
      (show (Literal.ofBody body).ending ≠ .atTextEnd by simp [hending])
    obtain ⟨inner, rfl⟩ := htakes.closed hending
    exact ⟨inner, congrArg ('"' :: ·) (htakes.take_eq rfl)⟩
  | @malformedString body _ htext _ hcause =>
    refine ⟨by simp, by simpa [htext] using List.take_prefix _ body, ?_⟩
    rcases hcause with rfl | ⟨escape, rfl⟩ <;> rfl
  | @openString body htext =>
    exact ⟨by simp, by simpa [htext] using List.take_prefix _ body, trivial⟩
  | singleMark htext => exact ⟨by simp, by simp [htext], by simp [Meaning.Spells, spelling]⟩
  | atSign hcut =>
    have hprefix := cut_isPrefix text
    rw [hcut] at hprefix
    exact ⟨by simp, .trans (by simp) hprefix, by simp [Meaning.Spells, spelling]⟩
  | @operator run hcut hne =>
    refine ⟨hne, hcut ▸ cut_isPrefix text, ?_⟩
    rcases ofOperatorText_cases (String.ofList run) with ⟨mark, hkind⟩ | hkind
    · simp [hkind, Meaning.Spells, spelling]
    · rw [hkind]
      exact ⟨nofun, nofun, rfl, fun _ c hmem => isOperatorChar_of_cut (hcut ▸ hmem)⟩
  | unrecognised =>
    refine ⟨?_, List.take_prefix 1 text, rfl⟩
    cases text with
    | nil => exact absurd rfl hne
    | cons c rest => simp [Token.unrecognised]

theorem Lexeme.first_fronts {text : List Char} (h : text ≠ []) :
    (Lexeme.first text).Fronts text :=
  (Lexeme.first_foundIn text).fronts h

end Equational.Token

import Equational.Proofs.Token.Comment

/-!
# What stands behind a token

A word takes all characters that continue it, and a module part takes the name or the operator that
follows its double colon.  An operator takes all operator characters up to a comment, but an at sign
stands by itself.
-/

namespace Equational

def TokenKind.isWord : TokenKind → Bool
  | .variableName | .functionName | .word _ => true
  | _ => false

theorem TokenKind.isWord_of_isIdentifier {kind : TokenKind} (h : kind.isIdentifier = true) :
    kind.isWord = true := by
  cases kind <;> first | rfl | cases h

namespace Token

open Equational.Unicode TokenKind

/-! ## Tokens and what is behind them -/

/-- An operator symbol, or punctuation that is an operator run. -/
structure IsOperatorText (kind : TokenKind) (value : List Char) : Prop where
  kind : kind = .operatorSymbol ∨ ∃ mark, kind = .mark mark
  chars : ∀ c ∈ value, isOperatorChar c = true

/-- A rest of the text that does not continue the token in front of it. -/
structure EndsBefore (kind : TokenKind) (value : List Char) (home : Option (List Char))
    (rest : List Char) : Prop where
  word : kind.isWord = true → ∀ c ∈ rest.head?, continuesWord c = false
  moduleName : kind.isIdentifier = true → home = none →
    (∃ c ∈ value.head?, isUppercaseLetter c = true) →
      ∀ c behind, rest = ':' :: ':' :: c :: behind → startsWord c = false
  operator : IsOperatorText kind value → (∃ c ∈ rest.head?, isOperatorChar c = true) →
    kind = .mark .atSign ∧ value = ['@'] ∧ home = none ∨ OpensComment rest

def Meaning.EndsBefore (rest : List Char) : Meaning → Prop
  | .token kind value home => Token.EndsBefore kind value home rest
  | _ => True

theorem identifierKind_isIdentifier (name : List Char) :
    (identifierKind name).isIdentifier = true := by
  rcases identifierKind_cases name with hkind | hkind <;> rw [hkind] <;> rfl

theorem IsOperatorText.not_isWord {kind : TokenKind} {value : List Char}
    (h : IsOperatorText kind value) : kind.isWord = false := by
  obtain ⟨rfl | ⟨mark, rfl⟩, -⟩ := h <;> rfl

theorem EndsBefore.of_not_isWord {kind : TokenKind} {value rest : List Char}
    {home : Option (List Char)} (hword : kind.isWord = false)
    (hoperator : IsOperatorText kind value → (∃ c ∈ rest.head?, isOperatorChar c = true) →
      kind = .mark .atSign ∧ value = ['@'] ∧ home = none ∨ OpensComment rest) :
    EndsBefore kind value home rest where
  word h := absurd h (by simp [hword])
  moduleName h := absurd (isWord_of_isIdentifier h) (by simp [hword])
  operator := hoperator

theorem EndsBefore.of_identifier {kind : TokenKind} {value rest : List Char}
    {home : Option (List Char)} (hkind : kind.isIdentifier = true)
    (hword : ∀ c ∈ rest.head?, continuesWord c = false)
    (hmodule : home = none → (∃ c ∈ value.head?, isUppercaseLetter c = true) →
      ∀ c behind, rest = ':' :: ':' :: c :: behind → startsWord c = false) :
    EndsBefore kind value home rest where
  word _ := hword
  moduleName _ := hmodule
  operator h := absurd (isWord_of_isIdentifier hkind) (by simp [h.not_isWord])

theorem EndsBefore.of_literal {kind : TokenKind} (h : kind = .number ∨ kind = .string)
    (value rest : List Char) (home : Option (List Char)) : EndsBefore kind value home rest := by
  apply EndsBefore.of_not_isWord
  · rcases h with rfl | rfl <;> rfl
  · rintro ⟨rfl | ⟨mark, rfl⟩, -⟩ <;> simp at h

/-! ## Words -/

private theorem head_of_takeWhile {p : Char → Bool} {text rest : List Char}
    (h : text = text.takeWhile p ++ rest) : ∀ c ∈ rest.head?, p c = false := by
  have hrest : rest = text.dropWhile p := by
    have hwhole : text.takeWhile p ++ text.dropWhile p = text := List.takeWhile_append_dropWhile
    exact List.append_cancel_left (h.symm.trans hwhole.symm)
  intro c hc
  have hnot := List.head?_dropWhile_not p text
  rw [← hrest, Option.mem_def.mp hc] at hnot
  exact hnot

theorem word_endsBefore {text word rest : List Char} (h : word? text = some word)
    (htext : text = word ++ rest) : ∀ c ∈ rest.head?, continuesWord c = false := by
  unfold word? at h
  split at h
  · rename_i first behind
    split at h
    · cases h
      exact head_of_takeWhile (List.cons.inj htext).2
    · cases h
  · cases h

private theorem modulePart_of_word {text word after : List Char} (h : word? text = some word)
    (hcapital : ∃ c ∈ word.head?, isUppercaseLetter c = true)
    (htext : text = word ++ ':' :: ':' :: after) : modulePart? text = some (word, after) := by
  unfold word? at h
  split at h
  · rename_i first behind
    split at h
    · cases h
      obtain ⟨c, hc, hcapital⟩ := hcapital
      obtain rfl : first = c := by simpa using hc
      have hdrop {run : List Char} (hrun : behind = run ++ ':' :: ':' :: after) :
          behind.drop run.length = ':' :: ':' :: after := by
        rw [hrun, List.drop_left]
      simp [modulePart?, hcapital, hdrop (List.cons.inj htext).2]
    · cases h
  · cases h

private theorem moduleName_endsBefore {text word rest : List Char}
    (hqualified : qualifiedName? text = none)
    (hword : word? text = some word) (htext : text = word ++ rest)
    (hcapital : ∃ c ∈ word.head?, isUppercaseLetter c = true) {c : Char} {behind : List Char}
    (hrest : rest = ':' :: ':' :: c :: behind) : startsWord c = false := by
  subst hrest
  have hmodule := modulePart_of_word hword hcapital htext
  cases hstarts : startsWord c with
  | false => rfl
  | true => simp [qualifiedName?, hmodule, word?, hstarts] at hqualified

/-! ## Operators -/

theorem opensComment_of_cut {text symbol rest : List Char} (htext : text = symbol ++ rest)
    (hcut : cutBeforeComment (text.takeWhile isOperatorChar) = symbol)
    (hrest : ∃ c ∈ rest.head?, isOperatorChar c = true) : OpensComment rest := by
  have hsymbol : ∀ c ∈ symbol, isOperatorChar c = true := fun c hc =>
    isOperatorChar_of_cut (hcut ▸ hc)
  rw [htext, List.takeWhile_append_of_pos hsymbol] at hcut
  obtain ⟨c, hc, hoperator⟩ := hrest
  obtain ⟨behind, rfl⟩ := List.head?_eq_some_iff.mp hc
  have hprefix : (c :: behind).takeWhile isOperatorChar <+: c :: behind := List.takeWhile_prefix _
  rcases (cutBeforeComment_append hcut).2 with hnil | hopens
  · rw [List.takeWhile_cons_of_pos hoperator] at hnil
    cases hnil
  · obtain ⟨after, hafter⟩ := hprefix
    exact hafter ▸ hopens.append after

/-! ## The front of a text -/

private theorem Lexeme.FoundIn.endsBefore {text rest : List Char} {lexeme : Lexeme}
    (h : lexeme.FoundIn text) (htext : text = lexeme.text ++ rest) :
    lexeme.meaning.EndsBefore rest := by
  cases h with
  | @qualifiedName home after name hmodule hname =>
    exact .of_identifier (identifierKind_isIdentifier name)
      (word_endsBefore hname (eq_append_of_modulePart hmodule htext)) nofun
  | @identifier word hqualified hword =>
    exact .of_identifier (identifierKind_isIdentifier word) (word_endsBefore hword htext)
      fun _ hcapital _ _ => moduleName_endsBefore hqualified hword htext hcapital
  | keyword _ hword =>
    exact ⟨fun _ => word_endsBefore hword htext, nofun, fun h => nomatch h.not_isWord⟩
  | qualifiedOperator hmodule _ hcut =>
    have hafter := eq_append_of_modulePart hmodule htext
    exact .of_not_isWord rfl fun _ hnext => .inr (opensComment_of_cut hafter hcut hnext)
  | @operator run hcut =>
    have hword : (TokenKind.ofOperatorText (String.ofList run)).isWord = false := by
      rcases ofOperatorText_cases (String.ofList run) with ⟨mark, hkind⟩ | hkind <;>
        rw [hkind] <;> rfl
    exact .of_not_isWord hword fun _ hnext => .inr (opensComment_of_cut htext hcut hnext)
  | atSign => exact .of_not_isWord rfl fun _ _ => .inl ⟨rfl, rfl, rfl⟩
  | @singleMark c _ _ _ _ halone =>
    -- Brackets, separators and the backslash are no operator characters.
    refine .of_not_isWord rfl fun hoperator _ => absurd halone ?_
    simp [hoperator.chars c List.mem_cons_self]
  | number => exact .of_literal (.inl rfl) _ _ _
  | string => exact .of_literal (.inr rfl) _ _ _
  | _ => trivial

theorem Lexeme.first_endsBefore {text rest : List Char}
    (h : text = (Lexeme.first text).text ++ rest) :
    (Lexeme.first text).meaning.EndsBefore rest :=
  (Lexeme.first_foundIn text).endsBefore h

end Token

end Equational

import Equational.Proofs.Token.Parting

/-!
# The end of a line

Whether more lines follow a text makes no difference to the lexeme at its front, unless that lexeme
is made of blanks or is left open by the text.
-/

namespace Equational.Token

open Equational.Unicode

variable (more : List Char)

/-! ## Words, numbers and operators -/

theorem parting_append_lineEnd (text : List Char) :
    Parting [] ['\n'] text (text ++ '\n' :: more) := by
  induction text with
  | nil => exact .here (by simp) (by simp)
  | cons c rest ih => exact ih.next c

theorem lineEnd_subset_wordBreaks : [] ++ ['\n'] ⊆ wordBreaks := by decide

theorem takeWhile_append_lineEnd {p : Char → Bool} (h : p '\n' = false) (text : List Char) :
    (text ++ '\n' :: more).takeWhile p = text.takeWhile p :=
  ((parting_append_lineEnd more text).takeWhile_eq (by simpa using h)).symm

theorem not_isOperatorChar_lineEnd : isOperatorChar '\n' = false := by decide

theorem qualifiedOperator_append_lineEnd (text : List Char) :
    qualifiedOperator? (text ++ '\n' :: more) = qualifiedOperator? text := by
  have hparts := modulePart_parting (parting_append_lineEnd more text) lineEnd_subset_wordBreaks
  unfold qualifiedOperator?
  generalize modulePart? text = part at hparts
  generalize modulePart? (text ++ '\n' :: more) = part' at hparts
  cases hparts with
  | none => rfl
  | @some part part' hpart =>
    obtain ⟨home, after⟩ := part
    obtain ⟨home', after'⟩ := part'
    obtain ⟨rfl, hafter⟩ := hpart
    have hrun := hafter.takeWhile_eq (by simpa using not_isOperatorChar_lineEnd)
    simp only [Option.bind_eq_bind, Option.bind_some, hrun]

theorem operatorRun_append_lineEnd (text : List Char) :
    operatorRun? (text ++ '\n' :: more) = operatorRun? text := by
  unfold operatorRun?
  rw [takeWhile_append_lineEnd more not_isOperatorChar_lineEnd]

/-! ## Comments and string literals

A comment or a literal that the text leaves open would go on behind the end of the line. -/

def Lexeme.isOpen (lexeme : Lexeme) : Bool :=
  match lexeme.meaning with
  | .unclosed _ _ => true
  | _ => false

/-- The same lexeme, unless it was left open. -/
def SameUnlessOpen (first second : Option Lexeme) : Prop :=
  (∃ lexeme, first = some lexeme ∧ lexeme.isOpen) ∨ second = first

theorem restOfLine_append_lineEnd (text : List Char) :
    restOfLine (text ++ '\n' :: more) = restOfLine text :=
  takeWhile_append_lineEnd more rfl text

theorem lineComment_append_lineEnd {text : List Char} (h : text ≠ []) :
    lineComment? (text ++ '\n' :: more) = lineComment? text := by
  rcases text with _ | ⟨a, _ | ⟨b, rest⟩⟩
  · exact absurd rfl h
  · by_cases ha : a = '/' <;> simp [lineComment?, ha]
  · by_cases ha : a = '/' <;> by_cases hb : b = '/' <;>
      simp [lineComment?, ha, hb, restOfLine_append_lineEnd]

private theorem throughClosing_append {text body : List Char} (h : throughClosing? text = some body)
    (after : List Char) : throughClosing? (text ++ after) = some body := by
  fun_induction throughClosing? text generalizing body
  case case1 => cases h
  case case2 rest => exact h
  case case3 c rest hclosing ih =>
    obtain ⟨inner, hinner, rfl⟩ := Option.map_eq_some_iff.mp h
    rw [List.cons_append, throughClosing?, ih hinner]
    · rfl
    · intro tail hstar hslash
      cases rest with
      | nil => cases hinner
      | cons d behind =>
        obtain ⟨rfl, -⟩ := List.cons.inj hslash
        exact hclosing behind hstar rfl

theorem blockComment_append_lineEnd {text : List Char} (h : text ≠ []) :
    SameUnlessOpen (blockComment? text) (blockComment? (text ++ '\n' :: more)) := by
  rcases text with _ | ⟨a, _ | ⟨b, rest⟩⟩
  · exact absurd rfl h
  · by_cases ha : a = '/' <;> simp [blockComment?, SameUnlessOpen, ha]
  · by_cases hopening : a = '/' ∧ b = '*'
    · obtain ⟨rfl, rfl⟩ := hopening
      cases hbody : throughClosing? rest with
      | none =>
        exact .inl ⟨⟨['/', '*'], .unclosed .unterminatedComment 2⟩,
          by simp [blockComment?, hbody], rfl⟩
      | some body => exact .inr (by simp [blockComment?, hbody, throughClosing_append hbody])
    · refine .inr ?_
      by_cases ha : a = '/' <;> by_cases hb : b = '*' <;> simp_all [blockComment?]

def literalLexeme (text : List Char) (literal : Literal) : Lexeme :=
  match literal.ending, literal.badEscape with
  | .closed, none => ⟨text, .token .string literal.decoded none⟩
  | .closed, some escape => ⟨text, .malformed (.invalidEscape escape)⟩
  | .atLineEnd, _ => ⟨text, .malformed .newlineInString⟩
  | .atTextEnd, _ => ⟨text, .unclosed .unterminatedString 1⟩

theorem text_literalLexeme (text : List Char) (literal : Literal) :
    (literalLexeme text literal).text = text := by
  unfold literalLexeme
  split <;> rfl

private theorem isOpen_literalLexeme (text : List Char) (literal : Literal) :
    (literalLexeme text literal).isOpen ↔ literal.ending = .atTextEnd := by
  unfold literalLexeme
  split <;> simp [Lexeme.isOpen, *]

theorem string_of_quote (body : List Char) :
    string? ('"' :: body) =
      some (literalLexeme ('"' :: body.take (Literal.ofBody body).size) (Literal.ofBody body)) := by
  cases hending : (Literal.ofBody body).ending <;>
    cases hescape : (Literal.ofBody body).badEscape <;>
    simp [string?, literalLexeme, hending, hescape]

theorem exists_string_behind {text : List Char} {lexeme : Lexeme} (h : string? text = some lexeme)
    (hclosed : ¬lexeme.isOpen) :
    ∃ rest, text = lexeme.text ++ rest ∧
      ∀ other, (rest.head? = some '\n' → other.head? = some '\n') →
        string? (lexeme.text ++ other) = some lexeme := by
  rcases text with _ | ⟨c, body⟩
  · cases h
  · have hquote : c = '"' := Decidable.byContradiction fun hne => by simp [string?, hne] at h
    subst hquote
    rw [string_of_quote] at h
    obtain rfl := Option.some.inj h
    rw [isOpen_literalLexeme] at hclosed
    obtain ⟨taken, rest, htakes⟩ := exists_takes hclosed
    have htake : body.take (Literal.ofBody body).size = taken := htakes.take_eq rfl
    rw [htake, text_literalLexeme]
    refine ⟨rest, congrArg ('"' :: ·) htakes.body, fun other hother => ?_⟩
    have hagain : Literal.ofBody (taken ++ other) = Literal.ofBody body := by
      refine htakes.again other fun hending => ?_
      obtain ⟨tail, rfl⟩ := htakes.atLineEnd hending
      obtain ⟨tail', hhead⟩ := List.head?_eq_some_iff.mp (hother rfl)
      exact ⟨tail', hhead⟩
    have hsize : (taken ++ other).take (Literal.ofBody body).size = taken :=
      htakes.take_append rfl other
    rw [List.cons_append, string_of_quote, hagain, hsize]

private theorem string_append_lineEnd (text : List Char) :
    SameUnlessOpen (string? text) (string? (text ++ '\n' :: more)) := by
  cases h : string? text with
  | none =>
    refine .inr ?_
    rcases text with _ | ⟨c, body⟩
    · rfl
    · have hquote : c ≠ '"' := by
        rintro rfl
        rw [string_of_quote] at h
        cases h
      simp [string?, hquote]
  | some lexeme =>
    by_cases hopen : lexeme.isOpen
    · exact .inl ⟨lexeme, rfl, hopen⟩
    · obtain ⟨rest, htext, hagain⟩ := exists_string_behind h hopen
      refine .inr ?_
      have hlonger := hagain (rest ++ '\n' :: more) fun hhead => by
        rw [List.head?_append, hhead]
        rfl
      rwa [← List.append_assoc, ← htext] at hlonger

private theorem singleMark_append_lineEnd {text : List Char} (h : text ≠ []) :
    singleMark? (text ++ '\n' :: more) = singleMark? text := by
  cases text with
  | nil => exact absurd rfl h
  | cons c rest => rfl

/-! ## The front of a text -/

theorem patterns_append_lineEnd {pattern : List Char → Option Lexeme}
    (hmem : pattern ∈ patterns.tail)
    {text : List Char} (h : text ≠ []) :
    SameUnlessOpen (pattern text) (pattern (text ++ '\n' :: more)) := by
  have hparting := parting_append_lineEnd more text
  simp only [patterns, List.tail_cons, List.mem_cons, List.not_mem_nil, or_false] at hmem
  rcases hmem with rfl | rfl | rfl | rfl | rfl | rfl | rfl | rfl | rfl
  · exact .inr (lineComment_append_lineEnd more h)
  · exact blockComment_append_lineEnd more h
  · exact .inr (qualifiedName_parting hparting lineEnd_subset_wordBreaks).symm
  · exact .inr (qualifiedOperator_append_lineEnd more text)
  · exact .inr (plainWord_parting hparting lineEnd_subset_wordBreaks).symm
  · exact .inr (number_parting hparting lineEnd_subset_wordBreaks).symm
  · exact string_append_lineEnd more text
  · exact .inr (singleMark_append_lineEnd more h)
  · exact .inr (operatorRun_append_lineEnd more text)

private theorem findSome_append_lineEnd {found : List (List Char → Option Lexeme)}
    {text longer : List Char}
    (h : ∀ pattern ∈ found, SameUnlessOpen (pattern text) (pattern longer)) :
    SameUnlessOpen (found.findSome? fun pattern => pattern text)
      (found.findSome? fun pattern => pattern longer) := by
  induction found with
  | nil => exact .inr rfl
  | cons pattern rest ih =>
    have hrest := ih fun other hother => h other (List.mem_cons_of_mem pattern hother)
    rcases h pattern List.mem_cons_self with ⟨lexeme, hlexeme, hopen⟩ | hsame
    · exact .inl ⟨lexeme, by simp [hlexeme], hopen⟩
    · cases hlexeme : pattern text with
      | some lexeme => exact .inr (by simp [hsame, hlexeme])
      | none => simpa [hsame, hlexeme] using hrest

theorem blank_of_not_isWhiteSpace {c : Char} (h : isWhiteSpace c = false) (rest : List Char) :
    blank? (c :: rest) = none := by
  simp [blank?, h]

/-- A lexeme that is neither blank nor left open is not affected by further lines. -/
theorem Lexeme.first_append_lineEnd {c : Char} {rest : List Char} (hblank : isWhiteSpace c = false)
    (hclosed : ¬(Lexeme.first (c :: rest)).isOpen) :
    Lexeme.first (c :: rest ++ '\n' :: more) = Lexeme.first (c :: rest) := by
  have hne : c :: rest ≠ [] := by simp
  have hsame := findSome_append_lineEnd fun _ hmem => patterns_append_lineEnd more hmem hne
  have hpatterns (text : List Char) (hnone : blank? text = none) :
      (patterns.findSome? fun pattern => pattern text) =
        patterns.tail.findSome? fun pattern => pattern text := by
    simp [patterns, hnone]
  unfold Lexeme.first at hclosed ⊢
  rw [hpatterns _ (blank_of_not_isWhiteSpace hblank rest)] at hclosed ⊢
  rw [hpatterns (c :: rest ++ '\n' :: more) (blank_of_not_isWhiteSpace hblank _)]
  rcases hsame with ⟨lexeme, hlexeme, hopen⟩ | hsame
  · rw [hlexeme] at hclosed
    exact absurd hopen hclosed
  · rw [hsame]
    rfl

end Equational.Token

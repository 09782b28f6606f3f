import Equational.Proofs.Token.LineEnd

/-!
# Comments behind a lexeme

A comment that begins behind a lexeme may be replaced by a space.  Comments begin with operator
characters, so that this has to be seen for operator runs; a run that ends in front of a comment is
the run that stands there without the comment.
-/

namespace Equational.Token

open Equational.Unicode

/-! ## The start of a comment -/

def OpensComment (text : List Char) : Prop := ['/', '/'] <+: text ∨ ['/', '*'] <+: text

theorem OpensComment.append {text : List Char} (h : OpensComment text) (after : List Char) :
    OpensComment (text ++ after) :=
  h.imp (fun hline => hline.trans (List.prefix_append _ _))
    fun hblock => hblock.trans (List.prefix_append _ _)

theorem OpensComment.exists_cons {text : List Char} (h : OpensComment text) :
    ∃ rest, text = '/' :: rest := by
  rcases h with ⟨rest, rfl⟩ | ⟨rest, rfl⟩ <;> exact ⟨_, rfl⟩

theorem cutBeforeComment_of_opens {text : List Char} (h : OpensComment text) :
    cutBeforeComment text = [] := by
  rcases h with ⟨rest, rfl⟩ | ⟨rest, rfl⟩ <;> rfl

theorem cutBeforeComment_cons {c : Char} {rest : List Char} (h : ¬OpensComment (c :: rest)) :
    cutBeforeComment (c :: rest) = c :: cutBeforeComment rest := by
  rw [cutBeforeComment]
  · rintro after rfl rfl
    exact h (.inl ⟨after, rfl⟩)
  · rintro after rfl rfl
    exact h (.inr ⟨after, rfl⟩)

theorem opensComment_of_cut_eq_nil {text : List Char} (h : cutBeforeComment text = []) :
    text = [] ∨ OpensComment text := by
  cases text with
  | nil => exact .inl rfl
  | cons c rest =>
    by_cases hopens : OpensComment (c :: rest)
    · exact .inr hopens
    · rw [cutBeforeComment_cons hopens] at h
      cases h

/-- Where a run is cut, it ends or a comment begins; what is left is not cut again. -/
theorem cutBeforeComment_append {symbol behind : List Char}
    (h : cutBeforeComment (symbol ++ behind) = symbol) :
    cutBeforeComment symbol = symbol ∧ (behind = [] ∨ OpensComment behind) := by
  induction symbol with
  | nil => exact ⟨rfl, opensComment_of_cut_eq_nil h⟩
  | cons c symbol ih =>
    rw [List.cons_append] at h
    by_cases hopens : OpensComment (c :: (symbol ++ behind))
    · rw [cutBeforeComment_of_opens hopens] at h
      cases h
    · rw [cutBeforeComment_cons hopens] at h
      obtain ⟨hsymbol, hbehind⟩ := ih (List.cons.inj h).2
      refine ⟨?_, hbehind⟩
      rw [cutBeforeComment_cons fun hopens' => hopens (hopens'.append behind), hsymbol]

theorem lineComment_eq_none {text : List Char} (h : ¬OpensComment text) :
    lineComment? text = none := by
  unfold lineComment?
  split
  · rename_i rest
    exact absurd (.inl ⟨rest, rfl⟩) h
  · rfl

theorem blockComment_eq_none {text : List Char} (h : ¬OpensComment text) :
    blockComment? text = none := by
  unfold blockComment?
  split
  · rename_i rest
    exact absurd (.inr ⟨rest, rfl⟩) h
  · rfl

theorem not_isWhiteSpace_slash : isWhiteSpace '/' = false := by decide

theorem first_of_opensComment {text : List Char} (h : OpensComment text) :
    (∃ kind, (Lexeme.first text).meaning = .trivia kind) ∨ (Lexeme.first text).isOpen := by
  rcases h with ⟨rest, rfl⟩ | ⟨rest, rfl⟩
  · refine .inl ⟨.lineComment, ?_⟩
    simp [Lexeme.first, patterns, blank_of_not_isWhiteSpace not_isWhiteSpace_slash, lineComment?]
  · cases hbody : throughClosing? rest with
    | some body =>
      refine .inl ⟨.blockComment, ?_⟩
      simp [Lexeme.first, patterns, blank_of_not_isWhiteSpace not_isWhiteSpace_slash, lineComment?,
        blockComment?, hbody]
    | none =>
      refine .inr ?_
      simp [Lexeme.first, patterns, blank_of_not_isWhiteSpace not_isWhiteSpace_slash, lineComment?,
        blockComment?, hbody, Lexeme.isOpen]

/-! ## Operators

The definitions of the patterns, by what they do with an operator run that has been cut. -/

def qualifiedSymbol (home symbol : List Char) : Lexeme :=
  ⟨home ++ [':', ':'] ++ symbol, .token .operatorSymbol symbol (some home)⟩

theorem qualifiedOperator_of_modulePart {text home after : List Char}
    (h : modulePart? text = some (home, after)) :
    qualifiedOperator? text =
      if after.takeWhile isOperatorChar = [] then none
      else some (qualifiedSymbol home (cutBeforeComment (after.takeWhile isOperatorChar))) := by
  simp only [qualifiedOperator?, h, Option.bind_eq_bind, Option.bind_some]
  split
  · rename_i hrun
    rw [if_pos hrun]
  · rename_i hrun
    rw [if_neg hrun]
    rfl

def operatorLexeme? : List Char → Option Lexeme
  | [] => none
  | '@' :: _ => some ⟨['@'], .token (.mark .atSign) ['@'] none⟩
  | run => some ⟨run, .token (.ofOperatorText (String.ofList run)) run none⟩

theorem operatorRun_eq (text : List Char) :
    operatorRun? text = operatorLexeme? (cutBeforeComment (text.takeWhile isOperatorChar)) := rfl

theorem operatorLexeme_eq_none {run : List Char} (h : operatorLexeme? run = none) : run = [] := by
  unfold operatorLexeme? at h
  split at h
  · rfl
  · cases h
  · cases h

theorem operatorLexeme_eq_some {run : List Char} {lexeme : Lexeme}
    (h : operatorLexeme? run = some lexeme) :
    lexeme.text = run ∨
      lexeme.text = ['@'] ∧ ∀ behind, operatorLexeme? ('@' :: behind) = some lexeme := by
  unfold operatorLexeme? at h
  split at h
  · cases h
  · obtain rfl := Option.some.inj h
    exact .inr ⟨rfl, fun _ => rfl⟩
  · obtain rfl := Option.some.inj h
    exact .inl rfl

theorem opensComment_of_trivia {text : List Char} {lexeme : Lexeme} (h : lexeme.FoundIn text)
    {kind : TriviaKind} (htrivia : lexeme.meaning = .trivia kind) : OpensComment text := by
  cases h with
  | @lineComment rest htext => exact .inl ⟨rest, htext.symm⟩
  | @blockComment rest _ htext => exact .inr ⟨rest, htext.symm⟩
  | _ => cases htrivia

private theorem identifierKind_ne_operatorSymbol (name : List Char) :
    identifierKind name ≠ .operatorSymbol := by
  rcases identifierKind_cases name with hkind | hkind <;> simp [hkind]

/-- Only behind a module part, in front of a comment, is a symbol empty. -/
theorem opensComment_of_emptySymbol {text rest : List Char} {lexeme : Lexeme}
    (h : lexeme.FoundIn text) (htext : text = lexeme.text ++ rest) {home : Option (List Char)}
    (hmeaning : lexeme.meaning = .token .operatorSymbol [] home) : OpensComment rest := by
  cases h with
  | @qualifiedOperator module after symbol hmodule hrun hcut =>
    obtain rfl : symbol = [] := (Meaning.token.inj hmeaning).2.1
    obtain rfl : after = rest := eq_append_of_modulePart hmodule htext
    obtain ⟨behind, hbehind⟩ := List.takeWhile_prefix isOperatorChar (l := after)
    exact hbehind ▸ ((opensComment_of_cut_eq_nil hcut).resolve_left hrun).append behind
  | @qualifiedName _ _ name | @identifier name =>
    exact absurd (Meaning.token.inj hmeaning).1 (identifierKind_ne_operatorSymbol name)
  | operator _ hne => exact absurd (Meaning.token.inj hmeaning).2.1 hne
  | _ => cases hmeaning

/-! ## A space in place of a comment -/

/-- Two texts agree up to where the first goes on with a slash and the second with a space; a
comment does not begin where they agree. -/
structure Blanks (text blanked : List Char) : Prop where
  parting : Parting ['/'] [' '] text blanked
  blank : OpensComment text → ∃ rest, blanked = ' ' :: rest

theorem comment_subset_wordBreaks : ['/'] ++ [' '] ⊆ wordBreaks := by decide

theorem not_isOperatorChar_space : ∀ c ∈ [' '], isOperatorChar c = false :=
  List.forall_mem_singleton.mpr (by decide)

namespace Blanks

variable {rest blanked : List Char}

theorem nil : Blanks [] [] := ⟨.here (by simp) (by simp), by simp [OpensComment]⟩

theorem comment {text : List Char} (h : OpensComment text) (blanked : List Char) :
    Blanks text (' ' :: blanked) := by
  obtain ⟨rest, rfl⟩ := h.exists_cons
  exact ⟨.here (by simp) (by simp), fun _ => ⟨blanked, rfl⟩⟩

theorem append (h : Blanks rest blanked) {text : List Char} (hno : ¬OpensComment (text ++ rest)) :
    Blanks (text ++ rest) (text ++ blanked) :=
  ⟨h.parting.append text, fun hopens => absurd hopens hno⟩

theorem takeWhile_of_cut (h : Blanks rest blanked) {symbol : List Char}
    (hsymbol : ∀ c ∈ symbol, isOperatorChar c)
    (hcut : cutBeforeComment ((symbol ++ rest).takeWhile isOperatorChar) = symbol) :
    (symbol ++ blanked).takeWhile isOperatorChar = symbol ∧ cutBeforeComment symbol = symbol := by
  rw [List.takeWhile_append_of_pos hsymbol] at hcut ⊢
  obtain ⟨hagain, hbehind⟩ := cutBeforeComment_append hcut
  refine ⟨?_, hagain⟩
  have hrun : blanked.takeWhile isOperatorChar = [] := by
    rcases hbehind with hnil | hopens
    · exact h.parting.takeWhile_eq_nil not_isOperatorChar_space hnil
    · have hprefix : rest.takeWhile isOperatorChar <+: rest := List.takeWhile_prefix _
      obtain ⟨after, hafter⟩ := hprefix
      obtain ⟨behind, rfl⟩ := h.blank (hafter ▸ hopens.append after)
      exact List.takeWhile_cons_of_neg (by decide)
  rw [hrun, List.append_nil]

end Blanks

/-- A pattern that finds nothing still finds nothing, and this lexeme is still found. -/
def Carries (lexeme : Lexeme) (first second : Option Lexeme) : Prop :=
  (first = none → second = none) ∧ (first = some lexeme → second = some lexeme)

theorem Carries.of_eq {lexeme : Lexeme} {first second : Option Lexeme} (h : first = second) :
    Carries lexeme first second := ⟨fun hnone => h ▸ hnone, fun hsome => h ▸ hsome⟩

theorem Carries.none (lexeme : Lexeme) : Carries lexeme none none := .of_eq rfl

theorem Carries.findSome {lexeme : Lexeme} {found : List (List Char → Option Lexeme)}
    {text other : List Char}
    (h : ∀ pattern ∈ found, Carries lexeme (pattern text) (pattern other)) :
    Carries lexeme (found.findSome? fun pattern => pattern text)
      (found.findSome? fun pattern => pattern other) := by
  induction found with
  | nil => exact .none lexeme
  | cons pattern found ih =>
    obtain ⟨hpattern, hrest⟩ := List.forall_mem_cons.mp h
    cases hfound : pattern text with
    | none => simpa [hfound, hpattern.1 hfound] using ih hrest
    | some first =>
      refine ⟨by simp [hfound], fun hsome => ?_⟩
      obtain rfl : first = lexeme := by simpa [hfound] using hsome
      simp [hpattern.2 hfound]

namespace Blanks

variable {lexeme : Lexeme} {rest blanked : List Char} (h : Blanks rest blanked)

include h

theorem not_opensComment {text : List Char} (hno : ¬OpensComment (text ++ rest)) :
    ¬OpensComment (text ++ blanked) := by
  intro hopens
  have hparting := h.parting.append text
  exact hno (hopens.imp (hparting.isPrefix (by simp)) (hparting.isPrefix (by simp)))

theorem carries_qualifiedOperator
    (hsymbol : ∀ home, lexeme.meaning ≠ .token .operatorSymbol [] home) :
    Carries lexeme (qualifiedOperator? (lexeme.text ++ rest))
      (qualifiedOperator? (lexeme.text ++ blanked)) := by
  have hparts := modulePart_parting (h.parting.append lexeme.text) comment_subset_wordBreaks
  generalize hpart : modulePart? (lexeme.text ++ rest) = part at hparts
  generalize hpart' : modulePart? (lexeme.text ++ blanked) = part' at hparts
  -- A module part stands in front of both texts or of neither.
  cases hparts with
  | none => simp [qualifiedOperator?, hpart, hpart', Carries]
  | @some part part' hagree =>
    obtain ⟨home, after⟩ := part
    obtain ⟨home', after'⟩ := part'
    obtain ⟨rfl, hafter⟩ : home = home' ∧ Parting ['/'] [' '] after after' := hagree
    rw [qualifiedOperator_of_modulePart hpart, qualifiedOperator_of_modulePart hpart']
    by_cases hrun : after.takeWhile isOperatorChar = []
    · rw [if_pos hrun, if_pos (hafter.takeWhile_eq_nil not_isOperatorChar_space hrun)]
      exact .none lexeme
    · rw [if_neg hrun]
      refine ⟨fun hnone => absurd hnone (Option.some_ne_none _), fun hsome => ?_⟩
      have hlexeme := Option.some.inj hsome
      generalize hcut : cutBeforeComment (after.takeWhile isOperatorChar) = symbol at hlexeme
      have hall : ∀ c ∈ symbol, isOperatorChar c := fun c hmem =>
        isOperatorChar_of_cut (hcut ▸ hmem)
      have hbehind {text part : List Char}
          (hpart : modulePart? (lexeme.text ++ text) = some (home, part)) :
          part = symbol ++ text :=
        eq_append_of_modulePart hpart (by rw [← hlexeme, qualifiedSymbol])
      rw [hbehind hpart] at hcut
      obtain ⟨hrun', hcut'⟩ := h.takeWhile_of_cut hall hcut
      have hne : symbol ≠ [] := by
        rintro rfl
        exact hsymbol (some home) (by rw [← hlexeme, qualifiedSymbol])
      rw [hbehind hpart', hrun', hcut', if_neg hne, hlexeme]

theorem carries_operatorRun (hno : ¬OpensComment (lexeme.text ++ rest)) :
    Carries lexeme (operatorRun? (lexeme.text ++ rest))
      (operatorRun? (lexeme.text ++ blanked)) := by
  have hall {text : List Char} : ∀ c ∈ cutBeforeComment (text.takeWhile isOperatorChar),
      isOperatorChar c := fun c => isOperatorChar_of_cut
  rw [operatorRun_eq, operatorRun_eq]
  constructor
  · intro hnone
    have hrun : (lexeme.text ++ rest).takeWhile isOperatorChar = [] := by
      rcases opensComment_of_cut_eq_nil (operatorLexeme_eq_none hnone) with hnil | hopens
      · exact hnil
      · obtain ⟨after, hafter⟩ := List.takeWhile_prefix isOperatorChar (l := lexeme.text ++ rest)
        exact absurd (hafter ▸ hopens.append after) hno
    rw [(h.parting.append lexeme.text).takeWhile_eq_nil not_isOperatorChar_space hrun]
    rfl
  · intro hsome
    rcases operatorLexeme_eq_some hsome with htext | ⟨htext, hagain⟩
    · obtain ⟨hrun, hcut⟩ := h.takeWhile_of_cut (htext ▸ hall) htext.symm
      rw [hrun, hcut, htext, hsome]
    · -- An at sign opens no comment.
      have hopens : ¬OpensComment ('@' :: blanked.takeWhile isOperatorChar) := by
        intro hopens
        obtain ⟨rest, hcons⟩ := hopens.exists_cons
        cases hcons
      rw [htext, List.cons_append, List.nil_append, List.takeWhile_cons_of_pos (by decide),
        cutBeforeComment_cons hopens]
      exact hagain _

theorem carries_string (hclosed : ¬lexeme.isOpen) (hne : lexeme.text ≠ []) :
    Carries lexeme (string? (lexeme.text ++ rest)) (string? (lexeme.text ++ blanked)) := by
  constructor
  · intro hnone
    cases htext : lexeme.text with
    | nil => exact absurd htext hne
    | cons c inner =>
      rw [htext] at hnone
      have hquote : c ≠ '"' := by
        rintro rfl
        rw [List.cons_append, string_of_quote] at hnone
        cases hnone
      simp [string?, hquote]
  · intro hsome
    obtain ⟨behind, htext, hagain⟩ := exists_string_behind hsome hclosed
    obtain rfl := List.append_cancel_left htext
    refine hagain blanked fun hhead => ?_
    obtain ⟨after, rfl⟩ := List.head?_eq_some_iff.mp hhead
    cases h.parting with
    | here hstop _ => exact absurd (hstop _ rfl) (by decide)
    | next _ _ => rfl

theorem carries_patterns {c : Char} {inner : List Char} (htext : lexeme.text = c :: inner)
    (hblank : isWhiteSpace c = false) (hclosed : ¬lexeme.isOpen)
    (hsymbol : ∀ home, lexeme.meaning ≠ .token .operatorSymbol [] home)
    (hno : ¬OpensComment (lexeme.text ++ rest)) {pattern : List Char → Option Lexeme}
    (hmem : pattern ∈ patterns) :
    Carries lexeme (pattern (lexeme.text ++ rest)) (pattern (lexeme.text ++ blanked)) := by
  have hparting := h.parting.append lexeme.text
  have hno' := h.not_opensComment hno
  simp only [patterns, List.mem_cons, List.not_mem_nil, or_false] at hmem
  rcases hmem with rfl | rfl | rfl | rfl | rfl | rfl | rfl | rfl | rfl | rfl
  · rw [htext, List.cons_append, List.cons_append, blank_of_not_isWhiteSpace hblank,
      blank_of_not_isWhiteSpace hblank]
    exact .none lexeme
  · rw [lineComment_eq_none hno, lineComment_eq_none hno']
    exact .none lexeme
  · rw [blockComment_eq_none hno, blockComment_eq_none hno']
    exact .none lexeme
  · exact .of_eq (qualifiedName_parting hparting comment_subset_wordBreaks)
  · exact h.carries_qualifiedOperator hsymbol
  · exact .of_eq (plainWord_parting hparting comment_subset_wordBreaks)
  · exact .of_eq (number_parting hparting comment_subset_wordBreaks)
  · exact h.carries_string hclosed (by simp [htext])
  · exact .of_eq (by rw [htext]; rfl)
  · exact h.carries_operatorRun hno

theorem first_eq {c : Char} {inner : List Char} (htext : lexeme.text = c :: inner)
    (hblank : isWhiteSpace c = false) (hclosed : ¬lexeme.isOpen)
    (hno : ¬OpensComment (lexeme.text ++ rest))
    (hsymbol : ∀ home, lexeme.meaning ≠ .token .operatorSymbol [] home)
    (hfirst : Lexeme.first (lexeme.text ++ rest) = lexeme) :
    Lexeme.first (lexeme.text ++ blanked) = lexeme := by
  have hcarries := Carries.findSome fun _ hmem =>
    h.carries_patterns htext hblank hclosed hsymbol hno hmem
  unfold Lexeme.first at hfirst ⊢
  cases hfound : patterns.findSome? fun pattern => pattern (lexeme.text ++ rest) with
  | none =>
    rw [hfound] at hfirst
    rw [hcarries.1 hfound]
    refine Eq.trans ?_ hfirst
    simp only [Option.getD_none, unrecognised, htext, List.cons_append, List.take_succ_cons,
      List.take_zero]
  | some found =>
    rw [hfound] at hfirst
    obtain rfl : found = lexeme := hfirst
    rw [hcarries.2 hfound]
    rfl

end Blanks

end Equational.Token

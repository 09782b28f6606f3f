import Equational.Proofs.Lexed.Face
import Equational.Proofs.Run.Grammar
import Mathlib.Data.List.Forall2

/-!
# Runs written back

A run tells the tokens it was collected from: names, literals and operators as they are spelled, and
the marks and words of the forms around them.  Only enumerations and comprehensions do not record
which separator stood between their parts.  By the grammar of runs, a run that is collected writes
just the tokens that the cursor passes.
-/

namespace Equational

open Equational.Token

/-! ## Glyphs -/

/-- What a run tells about a token. -/
inductive Glyph where
  | face (face : Face)
  /-- A comma or a semicolon. -/
  | separator
  deriving DecidableEq, Repr

namespace Glyph

def mark (mark : Punctuation) : Glyph := face (.mark mark)

def word (word : Keyword) : Glyph := face (.word word)

inductive Shows : Glyph → Token → Prop where
  | face (token : Token) : Shows (.face token.face) token
  | separator {token : Token} {separator : Separator}
    (h : Separator.ofKind? token.kind = some separator) : Shows .separator token

end Glyph

/-! ## Names and operators -/

def NameClass.kind : NameClass → TokenKind
  | variableName => .variableName
  | functionName => .functionName

def Name.face (name : Name) (home : Option String) : Face := ⟨name.nameClass.kind, name.text, home⟩

def Identifier.glyph (identifier : Identifier) : Glyph :=
  .face (identifier.name.face identifier.moduleName)

/-- What spells a keyword is one, and the rest is an operator run. -/
def plainOperatorKind (symbol : String) : TokenKind :=
  (TokenKind.ofKeyword? symbol).getD (.ofOperatorText symbol)

namespace OperatorName

def glyphs (name : OperatorName) : List Glyph :=
  match name.moduleName with
  | some home => [.face ⟨.operatorSymbol, name.symbol, some home⟩]
  | none =>
    if name.symbol = "and then" then [.word .andWord, .word .thenWord]
    else if name.symbol = "or else" then [.word .orWord, .word .elseWord]
    else [.face ⟨plainOperatorKind name.symbol, name.symbol, none⟩]

end OperatorName

/-! ## Runs -/

def Bracket.opening : Bracket → Punctuation
  | paren => .openParen
  | square => .openBracket
  | curly => .openCurly

def Separator.mark : Separator → Punctuation
  | comma => .comma
  | semicolon => .semicolon

def separatorWritten : Option Separator → List Glyph
  | none => []
  | some separator => [.mark separator.mark]

mutual

def Run.written : Run → List Glyph
  | ⟨items, _⟩ => itemsWritten items

def itemsWritten : List RunItem → List Glyph
  | [] => []
  | item :: rest => item.written ++ itemsWritten rest

def RunItem.written : RunItem → List Glyph
  | .atom a => a.written
  | .operator op => op.name.glyphs
  | .conditional condition thenBranch _ =>
    .word .ifWord :: condition.written ++ .word .thenWord :: branchWritten thenBranch

def branchWritten : Option Run → List Glyph
  | none => []
  | some run => run.written ++ [.word .elseWord]

def Atom.written : Atom → List Glyph
  | .identifier name _ => [name.glyph]
  | .declared name _ => [.word .varWord, name.glyph]
  | .typed name typeName _ => [.face (name.face none), .mark .colon, typeName.glyph]
  | .number literal _ => [.face ⟨.number, literal.text, none⟩]
  | .string value _ => [.face ⟨.string, value, none⟩]
  | .container bracket body _ =>
    .mark bracket.opening :: body.written ++ [.mark bracket.closing]
  | .operatorLiteral op _ => .mark .openParen :: op.name.glyphs ++ [.mark .closeParen]
  | .partialApply op operand .left _ =>
    .mark .openParen :: (op.name.glyphs ++ operand.written) ++ [.mark .closeParen]
  | .partialApply op operand .right _ =>
    .mark .openParen :: (operand.written ++ op.name.glyphs) ++ [.mark .closeParen]
  | .lambda parameters body _ =>
    .mark .backslash :: itemsWritten parameters ++ .mark .dot :: body.written

def ContainerBody.written : ContainerBody → List Glyph
  | .empty => []
  | .elements runs separator trailing tail =>
    separatedWritten (separatorWritten separator) runs ++
      (if trailing then separatorWritten separator else []) ++ optionWritten [.mark .pipe] tail
  | .enumeration runs bound =>
    separatedWritten [.separator] runs ++ .mark .dotDot :: optionWritten [] bound
  | .comprehension template generators =>
    template.written ++ .mark .colon :: separatedWritten [.separator] generators

def separatedWritten (separator : List Glyph) : List Run → List Glyph
  | [] => []
  | run :: rest => run.written ++ furtherWritten separator rest

def furtherWritten (separator : List Glyph) : List Run → List Glyph
  | [] => []
  | run :: rest => separator ++ run.written ++ furtherWritten separator rest

def optionWritten (introduction : List Glyph) : Option Run → List Glyph
  | none => []
  | some run => introduction ++ run.written

end

theorem Run.written_eq (run : Run) : run.written = itemsWritten run.items := by
  cases run
  rw [written, items]

theorem Run.written_ofItems (items : List RunItem) (fallback : Span) :
    (Run.ofItems items fallback).written = itemsWritten items := by
  rw [ofItems, written]

theorem itemsWritten_append (first second : List RunItem) :
    itemsWritten (first ++ second) = itemsWritten first ++ itemsWritten second := by
  induction first with
  | nil => simp [itemsWritten]
  | cons item rest ih => simp [itemsWritten, ih]

theorem itemsWritten_singleton (item : RunItem) : itemsWritten [item] = item.written := by
  simp [itemsWritten]

private theorem furtherWritten_append (separator : List Glyph) (first second : List Run) :
    furtherWritten separator (first ++ second) =
      furtherWritten separator first ++ furtherWritten separator second := by
  induction first with
  | nil => simp [furtherWritten]
  | cons run rest ih => simp [furtherWritten, ih]

theorem separatedWritten_append {first : List Run} (h : first ≠ []) (separator : List Glyph)
    (second : List Run) :
    separatedWritten separator (first ++ second) =
      separatedWritten separator first ++ furtherWritten separator second := by
  cases first with
  | nil => exact absurd rfl h
  | cons run rest => simp [separatedWritten, furtherWritten_append]

private theorem operatorForm_written {run : Run} {span : Span} {atom : Atom}
    (h : operatorForm? run span = some atom) :
    atom.written = .mark .openParen :: run.written ++ [.mark .closeParen] := by
  obtain ⟨items, runSpan⟩ := run
  simp only [operatorForm?, Run.items] at h
  split at h
  · cases h
    rw [Atom.written, Run.written, itemsWritten_singleton, RunItem.written]
  · cases h
    rw [Atom.written, Run.written, Run.written_ofItems, itemsWritten, RunItem.written]
  · split at h
    · rename_i op hlast
      cases h
      have hitems := List.dropLast_append_getLast? _ hlast
      rw [Atom.written, Run.written, Run.written_ofItems, ← RunItem.written,
        ← itemsWritten_singleton, ← itemsWritten_append, hitems]
    · cases h

theorem closedContainer_written (bracket : Bracket) (body : ContainerBody) (span : Span) :
    (closedContainer bracket body span).written =
      .mark bracket.opening :: body.written ++ [.mark bracket.closing] := by
  unfold closedContainer
  split
  · rename_i run
    cases hform : operatorForm? run span with
    | none => rfl
    | some atom =>
      rw [Option.getD_some, operatorForm_written hform]
      simp [ContainerBody.written, separatedWritten, furtherWritten, optionWritten, Bracket.opening,
        Bracket.closing]
  · rw [Atom.written]

/-! ## Passing what is written -/

namespace Cursor

def IsProper (cursor : Cursor) : Prop := ∀ token ∈ cursor.ahead, token.face.IsProper

theorem Takes.isProper {cursor after : Cursor} {token : Token} (h : cursor.Takes token after)
    (hproper : cursor.IsProper) : token.face.IsProper ∧ after.IsProper := by
  cases h
  exact List.forall_mem_cons.mp hproper

theorem Takes.kind_eq {cursor after : Cursor} {token : Token} {kind : TokenKind}
    (h : cursor.Takes token after) (hkind : cursor.current.kind = kind) : token.kind = kind :=
  h.current_eq ▸ hkind

theorem IsProper.split {cursor : Cursor} (h : cursor.IsProper)
    (hkind : cursor.current.kind = .operatorSymbol) (bytes : Nat) :
    (cursor.split bytes).IsProper := by
  rcases cursor.split_cases bytes with
    hsplit | ⟨passed, token, rest, errors, head, tail, rfl, hcut, hsplit⟩ <;> rw [hsplit]
  · exact h
  · obtain ⟨htoken, hrest⟩ := List.forall_mem_cons.mp h
    obtain ⟨hfront, hback⟩ := isProper_parts htoken hkind hcut
    exact List.forall_mem_cons.mpr ⟨hfront, List.forall_mem_cons.mpr ⟨hback, hrest⟩⟩

theorem Passage.isProper {cursor after : Cursor} {taken : List Token}
    (h : cursor.Passage taken after) (hproper : cursor.IsProper) : after.IsProper := by
  induction h with
  | refl => exact hproper
  | take htakes _ ih => exact ih (htakes.isProper hproper).2
  | split hdot _ ih => exact ih (hproper.split (kind_of_beginsWithDot hdot).1 1)

/-- The tokens that are passed are those that are written, if they are proper. -/
def Writes (cursor : Cursor) (glyphs : List Glyph) (after : Cursor) : Prop :=
  ∃ taken, cursor.Passage taken after ∧ (cursor.IsProper → List.Forall₂ Glyph.Shows glyphs taken)

namespace Writes

variable {cursor middle after : Cursor} {first second : List Glyph}

theorem nil (cursor : Cursor) : cursor.Writes [] cursor := ⟨[], .refl cursor, fun _ => .nil⟩

theorem append (h : cursor.Writes first middle) (h' : middle.Writes second after) :
    cursor.Writes (first ++ second) after := by
  obtain ⟨taken, hpassage, hshows⟩ := h
  obtain ⟨more, hmore, hrest⟩ := h'
  refine ⟨taken ++ more, hpassage.trans hmore, fun hproper => ?_⟩
  exact List.rel_append (hshows hproper) (hrest (hpassage.isProper hproper))

theorem split (hdot : beginsWithDot cursor.current) : cursor.Writes [] (cursor.split 1) :=
  ⟨[], .split hdot (.refl _), fun _ => .nil⟩

theorem isEnded (h : cursor.Writes first after) (hended : cursor.IsEnded) : after.IsEnded := by
  obtain ⟨taken, hpassage, -⟩ := h
  exact hpassage.isEnded hended

theorem weight_le (h : cursor.Writes first after) : after.weight ≤ cursor.weight := by
  obtain ⟨taken, hpassage, -⟩ := h
  exact Nat.le_trans (Nat.le_add_right _ _) hpassage.weight_le

end Writes

namespace Takes

variable {cursor after : Cursor} {token : Token} (htakes : cursor.Takes token after)

include htakes

theorem writes {glyph : Glyph} (h : token.face.IsProper → glyph.Shows token) :
    cursor.Writes [glyph] after :=
  ⟨[token], .single htakes, fun hproper => .cons (h (htakes.isProper hproper).1) .nil⟩

theorem writes_face {face : Face} (h : token.face.IsProper → face = token.face) :
    cursor.Writes [.face face] after := by
  refine htakes.writes fun hproper => ?_
  rw [h hproper]
  exact .face token

theorem writes_mark {mark : Punctuation} (h : token.kind = .mark mark) :
    cursor.Writes [.mark mark] after := by
  refine htakes.writes_face fun hproper => ?_
  simp only [Face.IsProper, Token.face, h] at hproper
  rw [Token.face, h, hproper]

theorem writes_word {word : Keyword} (h : token.kind = .word word) :
    cursor.Writes [.word word] after := by
  refine htakes.writes_face fun hproper => ?_
  simp only [Face.IsProper, Token.face, h] at hproper
  rw [Token.face, h, hproper]

theorem writes_identifier (h : token.kind.isIdentifier) :
    cursor.Writes [(Identifier.ofToken token).glyph] after := by
  refine htakes.writes_face fun _ => ?_
  cases hkind : token.kind <;> simp_all [TokenKind.isIdentifier]
  all_goals simp [Identifier.ofToken, Name.ofToken, Name.face, Token.face, NameClass.kind, hkind]

theorem writes_separator {separator : Separator}
    (h : Separator.ofKind? token.kind = some separator) {glyph : Glyph}
    (hglyph : glyph ∈ [.mark separator.mark, .separator]) : cursor.Writes [glyph] after := by
  rcases List.mem_pair.mp hglyph with rfl | rfl
  · refine htakes.writes_mark ?_
    unfold Separator.ofKind? at h
    split at h <;> cases h <;> assumption
  · exact htakes.writes fun _ => .separator h

end Takes

end Cursor

/-! ## Operators -/

theorem plainOperatorKind_mark (mark : Punctuation) :
    plainOperatorKind mark.spelling = .mark mark := by
  cases mark <;> decide

theorem plainOperatorKind_word (word : Keyword) : plainOperatorKind word.spelling = .word word := by
  cases word <;> decide

private theorem not_isOperatorChar_of_keyword (word : Keyword) :
    ∃ c ∈ word.spelling.toList, isOperatorChar c = false := by
  cases word <;> exact ⟨_, List.mem_cons_self, by decide⟩

private theorem plainOperatorKind_symbol {symbol : String}
    (h : ∀ c ∈ symbol.toList, isOperatorChar c)
    (hsymbol : TokenKind.ofOperatorText symbol = .operatorSymbol) :
    plainOperatorKind symbol = .operatorSymbol := by
  unfold plainOperatorKind TokenKind.ofKeyword?
  cases hword : Keyword.ofSpelling? symbol with
  | none => exact hsymbol
  | some word =>
    have hspelling := List.find?_some hword
    simp only [beq_iff_eq] at hspelling
    obtain ⟨c, hmem, hchar⟩ := not_isOperatorChar_of_keyword word
    rw [hspelling] at hmem
    exact absurd (h c hmem) (by simp [hchar])

theorem glyphs_of_plain {symbol : String} (h : symbol ≠ "and then" ∧ symbol ≠ "or else") :
    OperatorName.glyphs ⟨symbol, none⟩ = [.face ⟨plainOperatorKind symbol, symbol, none⟩] := by
  simp [OperatorName.glyphs, h]

private theorem glyphs_of_isProper {face : Face} (h : face.IsProper)
    (hkind : face.kind.isOperatorStart) :
    OperatorName.glyphs ⟨face.value, face.moduleName⟩ = [.face face] := by
  obtain ⟨kind, value, home⟩ := face
  cases kind with
  | operatorSymbol =>
    cases home with
    | some home => rfl
    | none =>
      obtain ⟨hchars : ∀ c ∈ value.toList, isOperatorChar c, hsymbol⟩ := h
      have hspace (hmem : ' ' ∈ value.toList) : False := absurd (hchars _ hmem) (by decide)
      have hjoined : value ≠ "and then" ∧ value ≠ "or else" := by
        constructor <;> rintro rfl <;> exact hspace (by decide)
      rw [glyphs_of_plain hjoined, plainOperatorKind_symbol hchars (hsymbol rfl)]
  | mark mark =>
    obtain ⟨-, rfl, rfl⟩ := Face.mk.inj h
    have hjoined : mark.spelling ≠ "and then" ∧ mark.spelling ≠ "or else" := by
      cases mark <;> decide
    rw [glyphs_of_plain hjoined, plainOperatorKind_mark]
  | word word =>
    obtain ⟨-, rfl, rfl⟩ := Face.mk.inj h
    have hjoined : word.spelling ≠ "and then" ∧ word.spelling ≠ "or else" := by
      cases word <;> decide
    rw [glyphs_of_plain hjoined, plainOperatorKind_word]
  | _ => cases hkind

/-! ## Parts of runs -/

namespace Grammar

theorem Operator.writes {cursor after : Cursor} {op : OperatorUse} (h : Operator cursor op after)
    (hkind : cursor.current.kind.isOperatorStart) : cursor.Writes op.name.glyphs after := by
  cases h with
  | @joined middle _ token second follower symbol htoken hjoined hsecond hfollower =>
    unfold joined? at hjoined
    split at hjoined <;> cases hjoined
    · exact (htoken.writes_word ‹_›).append (hsecond.writes_word hfollower)
    · exact (htoken.writes_word ‹_›).append (hsecond.writes_word hfollower)
  | @plain _ token htoken hplain =>
    rw [htoken.current_eq] at hkind
    refine ⟨[token], .single htoken, fun hproper => ?_⟩
    have hglyphs := glyphs_of_isProper (htoken.isProper hproper).1 hkind
    rw [show OperatorName.glyphs ⟨token.value, token.moduleName⟩ = _ from hglyphs]
    exact .cons (.face token) .nil

theorem Named.writes {context : RunContext} {cursor after : Cursor} {atom : Atom}
    (h : Named context cursor atom after) (hkind : cursor.current.kind.isIdentifier) :
    cursor.Writes atom.written after := by
  cases h with
  | @typed first second _ token colon typeToken htoken htypable hcolon hmark htype hidentifier =>
    have hname := htoken.writes_identifier (htoken.current_eq ▸ hkind)
    have hplain : token.moduleName = none := by
      simp only [typable, Token.isQualified, Bool.and_eq_true, Bool.not_eq_true',
        Option.isSome_eq_false_iff, Option.isNone_iff_eq_none] at htypable
      exact htypable.1.2
    rw [Atom.written]
    rw [Identifier.ofToken, hplain] at hname
    exact hname.append ((hcolon.writes_mark hmark).append (htype.writes_identifier hidentifier))
  | plain htoken =>
    rw [Atom.written]
    exact htoken.writes_identifier (htoken.current_eq ▸ hkind)

theorem kind_of_isOpening {kind : TokenKind} (h : isOpening kind) :
    kind = .mark (Bracket.ofOpening kind).opening := by
  unfold isOpening at h
  split at h
  · rfl
  · rfl
  · rfl
  · cases h

theorem text_of_ofToken {token : Token} {literal : NumberLiteral}
    (h : NumberLiteral.ofToken token = .ok literal) : literal.text = token.value := by
  unfold NumberLiteral.ofToken NumberLiteral.ofText? at h
  split at h
  · rename_i found hfound
    cases h
    obtain ⟨parts, -, rfl⟩ := Option.map_eq_some_iff.mp hfound
    rfl
  · cases h

theorem Stop.writes {context : RunContext} {started : Bool} {cursor after : Cursor}
    (h : Stop context started cursor after) : cursor.Writes [] after := by
  cases h with
  | glued hdot => exact .split hdot
  | _ => exact .nil cursor

section Parts

variable {Inner : RunContext → Cursor → Run → Cursor → Prop}
  (hinner : ∀ {context cursor run after}, Inner context cursor run after →
    cursor.Writes run.written after)

include hinner

variable {bracket : Bracket} {start cursor after : Cursor}

/-! ## Containers -/

theorem Enumeration.writes {runs : List Run} {body : ContainerBody}
    (hruns : start.Writes (separatedWritten [.separator] runs) cursor)
    (hkind : cursor.current.kind = .mark .dotDot)
    (h : Enumeration Inner bracket runs cursor body after) : start.Writes body.written after := by
  cases h with
  | unbounded hdots =>
    rw [ContainerBody.written, optionWritten]
    exact hruns.append (hdots.writes_mark (hdots.kind_eq hkind))
  | bounded hdots _ _ hbound =>
    rw [ContainerBody.written, optionWritten]
    refine hruns.append ((hdots.writes_mark (hdots.kind_eq hkind)).append ?_)
    exact hinner hbound

theorem Generators.writes {separator : Option Separator} {runs : List Run}
    (h : Generators Inner separator cursor runs after) :
    cursor.Writes (furtherWritten [.separator] runs) after := by
  induction h with
  | done => exact .nil _
  | more htoken hnext _ hrun _ ih =>
    rw [furtherWritten]
    exact ((htoken.writes_separator hnext (by simp)).append (hinner hrun)).append ih

theorem Elements.writes {separator : Separator} {found : List Run} {body : ContainerBody}
    (hfound : ∀ glyph ∈ [.mark separator.mark, .separator],
      start.Writes (separatedWritten [glyph] found) cursor) (hne : found ≠ [])
    (h : Elements Inner bracket separator found cursor body after) :
    start.Writes body.written after := by
  induction h with
  | @more found cursor first second after token run body htoken hnext hopen hrun hrest ih =>
    refine ih (fun glyph hglyph => ?_) (by simp)
    rw [separatedWritten_append hne]
    refine (hfound glyph hglyph).append ?_
    simpa [furtherWritten] using (htoken.writes_separator hnext hglyph).append (hinner hrun)
  | trailing htoken hnext =>
    have hseparator := htoken.writes_separator hnext List.mem_cons_self
    simpa [ContainerBody.written, optionWritten, separatorWritten] using
      (hfound _ List.mem_cons_self).append hseparator
  | enumeration hdots hbody =>
    exact hbody.writes hinner (hfound _ (List.mem_cons_of_mem _ List.mem_cons_self)) hdots
  | tail hbar hkind hlast =>
    have hrest := (hbar.writes_mark hkind).append (hinner hlast)
    simpa [ContainerBody.written, optionWritten, separatorWritten] using
      (hfound _ List.mem_cons_self).append hrest
  | done =>
    simpa [ContainerBody.written, optionWritten, separatorWritten] using
      hfound _ List.mem_cons_self

theorem Body.writes {first : Run} {body : ContainerBody}
    (hfirst : start.Writes first.written cursor)
    (h : Body Inner bracket first cursor body after) : start.Writes body.written after := by
  have hfound (glyphs : List Glyph) : start.Writes (separatedWritten glyphs [first]) cursor := by
    simpa [separatedWritten, furtherWritten] using hfirst
  unfold Body at h
  split at h
  · exact h.writes hinner (hfound _) ‹_›
  · obtain ⟨colon, middle, generator, last, generators, hcolon, hgenerator, hgenerators, rfl⟩ := h
    have hrest := (hcolon.writes_mark (hcolon.kind_eq ‹_›)).append
      ((hinner hgenerator).append (hgenerators.writes hinner))
    rw [ContainerBody.written, separatedWritten]
    exact hfirst.append hrest
  · exact h.writes hinner (fun _ _ => hfound _) (by simp)
  · exact h.writes hinner (fun _ _ => hfound _) (by simp)
  · obtain ⟨bar, middle, last, hbar, hlast, rfl⟩ := h
    have hrest := (hbar.writes_mark (hbar.kind_eq ‹_›)).append (hinner hlast)
    simpa [ContainerBody.written, optionWritten, separatorWritten] using (hfound _).append hrest
  · obtain ⟨-, rfl, rfl⟩ := h
    simpa [ContainerBody.written, optionWritten, separatorWritten] using hfound []

theorem Container.writes {atom : Atom} (hkind : isOpening cursor.current.kind)
    (h : Container Inner cursor atom after) : cursor.Writes atom.written after := by
  cases h with
  | empty hopening hclosing hmark =>
    have hbracket := hopening.writes_mark (hopening.kind_eq (kind_of_isOpening hkind))
    rw [hopening.current_eq] at hbracket
    rw [Atom.written, ContainerBody.written]
    exact hbracket.append (hclosing.writes_mark hmark)
  | filled hopening _ hfirst hbody hclosing hmark =>
    have hbracket := hopening.writes_mark (hopening.kind_eq (kind_of_isOpening hkind))
    rw [hopening.current_eq] at hbracket
    rw [closedContainer_written]
    have hinside := hbody.writes hinner (hinner hfirst)
    exact hbracket.append (hinside.append (hclosing.writes_mark hmark))

/-! ## Lambdas and conditionals -/

variable {context : RunContext}

theorem Lambda.writes {atom : Atom} (hkind : cursor.current.kind = .mark .backslash)
    (h : Lambda Inner context cursor atom after) : cursor.Writes atom.written after := by
  cases h with
  | intro hbackslash hparameters hdot hmark hbody =>
    rw [Atom.written, ← Run.written_eq]
    exact ((hbackslash.writes_mark (hbackslash.kind_eq hkind)).append (hinner hparameters)).append
      ((hdot.writes_mark hmark).append (hinner hbody))

theorem Conditional.writes {items : List RunItem} (hkind : cursor.current.kind = .word .ifWord)
    (h : Conditional Inner context cursor items after) :
    cursor.Writes (itemsWritten items) after := by
  cases h with
  | withElse hopening hcondition hjoining hthen hbranch hclosing helse =>
    rw [itemsWritten_singleton, RunItem.written, branchWritten]
    exact ((hopening.writes_word (hopening.kind_eq hkind)).append (hinner hcondition)).append
      ((hjoining.writes_word hthen).append ((hinner hbranch).append (hclosing.writes_word helse)))
  | withoutElse hopening hcondition hjoining hthen hbranch =>
    rw [itemsWritten, RunItem.written, branchWritten, ← Run.written_eq]
    exact (((hopening.writes_word (hopening.kind_eq hkind)).append (hinner hcondition)).append
      (hjoining.writes_word hthen)).append (hinner hbranch)

/-! ## Items -/

variable {started : Bool} {items : List RunItem}

theorem Next.writes (h : Next Inner context started cursor items after) :
    cursor.Writes (itemsWritten items) after := by
  cases h with
  | named hkind h =>
    rw [itemsWritten_singleton, RunItem.written]
    exact h.writes hkind
  | declared htoken hkind hname hidentifier =>
    rw [itemsWritten_singleton, RunItem.written, Atom.written]
    exact (htoken.writes_word hkind).append (hname.writes_identifier hidentifier)
  | number htoken hkind hliteral =>
    rw [itemsWritten_singleton, RunItem.written, Atom.written, text_of_ofToken hliteral]
    refine htoken.writes_face fun hproper => ?_
    simp_all [Face.IsProper, Token.face]
  | string htoken hkind =>
    rw [itemsWritten_singleton, RunItem.written, Atom.written]
    refine htoken.writes_face fun hproper => ?_
    simp_all [Face.IsProper, Token.face]
  | container hkind h =>
    rw [itemsWritten_singleton, RunItem.written]
    exact h.writes hinner hkind
  | lambda hkind h =>
    rw [itemsWritten_singleton, RunItem.written]
    exact h.writes hinner hkind
  | conditional hkind _ h => exact h.writes hinner hkind
  | operator hkind h =>
    rw [itemsWritten_singleton, RunItem.written]
    exact h.writes hkind

theorem Items.writes (h : Items Inner context started cursor items after) :
    cursor.Writes (itemsWritten items) after := by
  induction h with
  | stop h =>
    rw [itemsWritten]
    exact (stop_of_answer _ _ _ h).writes
  | next h _ ih =>
    rw [itemsWritten_append]
    exact ((next_of_answer _ _ _ h).writes hinner).append ih

end Parts

/-! ## Runs -/

theorem Collects.writes {depth : Nat} {context : RunContext} {cursor after : Cursor} {run : Run}
    (h : Collects depth context cursor run after) : cursor.Writes run.written after := by
  induction depth generalizing context cursor run after with
  | zero => exact h.elim
  | succ depth ih =>
    obtain ⟨items, hitems, rfl⟩ := h
    rw [Run.written_ofItems]
    exact hitems.writes ih

end Grammar

end Equational

import Equational.Proofs.Expr.Group
import Equational.Proofs.Run.Parenthesized

/-!
# Reading operands back

An expression is written so that its tokens are collected as a single operand, which is resolved as
an expression like it.  What ends the operand decides nothing, as long as it begins no item and
gives no type to what is in front of it.  Brackets take the pieces that they hold to the same.
-/

namespace Equational

open Cursor Grammar

/-! ## Places in front of faces -/

/-- These faces are ahead, and nothing there can nest deeper than this. -/
structure Cursor.Offers (cursor : Cursor) (depth : Nat) (faces : List Face)
    (behind : List Token) : Prop where
  isEnded : cursor.IsEnded
  weight_le : cursor.weight ≤ depth
  faces : cursor.Faces faces behind

namespace Cursor.Offers

variable {cursor after : Cursor} {depth : Nat} {face : Face} {faces faces' : List Face}
  {behind : List Token} {context : RunContext}

theorem kind_eq (h : cursor.Offers depth (face :: faces) behind) :
    cursor.current.kind = face.kind := congrArg Face.kind h.faces.current_eq

theorem succ (h : cursor.Offers depth faces behind) : cursor.Offers (depth + 1) faces behind :=
  ⟨h.isEnded, Nat.le_succ_of_le h.weight_le, h.faces⟩

theorem exists_succ (h : cursor.Offers depth faces behind) : ∃ less, depth = less + 1 :=
  Nat.exists_eq_add_one.mpr (Nat.lt_of_lt_of_le h.isEnded.weight_pos h.weight_le)

theorem takes (h : cursor.Offers (depth + 1) (face :: faces) behind)
    (hkind : face.kind ≠ .endOfInput) :
    ∃ token after, cursor.Takes token after ∧ token.face = face ∧
      after.Offers depth faces behind := by
  obtain ⟨token, after, htakes, hface, hafter⟩ := h.faces.takes hkind
  have hweight := h.weight_le
  have hlt := htakes.weight_lt
  exact ⟨token, after, htakes, hface, htakes.isEnded h.isEnded, by omega, hafter⟩

theorem of_collects {run : Run} (h : cursor.Offers depth faces behind)
    (hcollects : Collects depth context cursor run after) (hfaces : after.Faces faces' behind) :
    after.Offers depth faces' behind :=
  ⟨hcollects.writes.isEnded h.isEnded, Nat.le_trans hcollects.writes.weight_le h.weight_le, hfaces⟩

end Cursor.Offers

/-! ## Operands -/

structure Ends (stopAtColon : Bool) (kind : TokenKind) : Prop where
  begins : beginsItem kind = false
  colon : kind = .mark .colon → stopAtColon = true

variable {table : OperatorTable} {source : List Token}

def TakesOperand (table : OperatorTable) (depth : Nat) (context : RunContext) (started : Bool)
    (cursor : Cursor) (e : Expr) (faces : List Face) (behind : List Token) : Prop :=
  ∃ atom e' after, Next (Collects depth) context started cursor [.atom atom] after ∧
    (RunItem.atom atom).read table = .ok (.operand e') ∧ Alike e e' ∧
    after.Offers depth faces behind

/-- In front of what ends an operand, these faces are an operand like this expression. -/
structure ReadsBack (table : OperatorTable) (e : Expr) (faces : List Face) : Prop where
  operand : ∀ {stopAtColon started : Bool} {depth : Nat} {cursor : Cursor} {follow : Face}
    {more : List Face} {behind : List Token}, Ends stopAtColon follow.kind →
    cursor.Offers (depth + 1) (faces ++ follow :: more) behind →
    TakesOperand table depth { stopAtColon } started cursor e (follow :: more) behind

theorem ne_end_of_isIdentifier {token : Token} (hkind : token.kind.isIdentifier) :
    token.face.kind ≠ .endOfInput := by
  intro hend
  rw [show token.kind = .endOfInput from hend] at hkind
  cases hkind

private theorem read_identifier {identifier : Identifier} {span : Span}
    (h : wordOperator? table (.atom (.identifier identifier span)) = none) (span' : Span) :
    (RunItem.atom (.identifier identifier span')).read table =
      .ok (.operand (.identifier identifier span')) := by
  have hword : wordOperator? table (.atom (.identifier identifier span')) = none := by
    simp only [wordOperator?] at h ⊢
    split at h
    · cases h
    · rename_i hcondition
      exact if_neg hcondition
  rw [RunItem.read, hword]
  rfl

theorem readsBack_identifier {token : Token} {span : Span} (hkind : token.kind.isIdentifier)
    (hplain : wordOperator? table (.atom (.identifier (.ofToken token) span)) = none) :
    ReadsBack table (.identifier (.ofToken token) span) [token.face] := by
  constructor
  intro stopAtColon started depth cursor follow more behind hends hcursor
  obtain ⟨token', after, htakes, hface, hafter⟩ := hcursor.takes (ne_end_of_isIdentifier hkind)
  rw [← kind_of_face hface, ← htakes.current_eq] at hkind
  have hnamed : Named { stopAtColon } cursor (.identifier (.ofToken token') token'.span) after := by
    refine .plain htakes fun htyped => ?_
    have hcolon := hends.colon (hafter.kind_eq.symm.trans htyped.2.1)
    simp [typable, hcolon] at htyped
  rw [← identifier_of_face hface] at hplain ⊢
  exact ⟨_, _, after, .named hkind hnamed, read_identifier hplain token'.span, rfl, hafter⟩

theorem readsBack_declared {token : Token} {span : Span} (hkind : token.kind.isIdentifier) :
    ReadsBack table (.declared (.ofToken token) span) [.word .varWord, token.face] := by
  constructor
  intro stopAtColon started depth cursor follow more behind hends hcursor
  obtain ⟨word, middle, hword, hwordFace, hmiddle⟩ := hcursor.takes nofun
  obtain ⟨token', after, htakes, hface, hafter⟩ := hmiddle.succ.takes (ne_end_of_isIdentifier hkind)
  rw [← kind_of_face hface] at hkind
  rw [← identifier_of_face hface]
  exact ⟨_, _, after, .declared hword (congrArg Face.kind hwordFace) htakes hkind, rfl, rfl, hafter⟩

theorem readsBack_number {token : Token} {literal : NumberLiteral} {span : Span}
    (hkind : token.kind = .number) (hliteral : NumberLiteral.ofToken token = .ok literal) :
    ReadsBack table (.number literal span) [token.face] := by
  constructor
  intro stopAtColon started depth cursor follow more behind hends hcursor
  obtain ⟨token', after, htakes, hface, hafter⟩ := hcursor.takes (by simp [Token.face, hkind])
  rw [← kind_of_face hface] at hkind
  exact ⟨_, _, after, .number htakes hkind (literal_of_face hface hliteral), rfl, rfl, hafter⟩

theorem readsBack_string {token : Token} {span : Span} (hkind : token.kind = .string) :
    ReadsBack table (.string token.value span) [token.face] := by
  constructor
  intro stopAtColon started depth cursor follow more behind hends hcursor
  obtain ⟨token', after, htakes, hface, hafter⟩ := hcursor.takes (by simp [Token.face, hkind])
  rw [← kind_of_face hface] at hkind
  obtain ⟨-, hvalue, -⟩ := Face.mk.inj hface
  rw [← hvalue]
  exact ⟨_, _, after, .string htakes hkind, rfl, rfl, hafter⟩

/-! ## Runs that are operands -/

/-- The run is resolved as an expression like this one. -/
def Run.Means (table : OperatorTable) (run : Run) (e : Expr) : Prop :=
  run.items ≠ [] ∧ ∃ e', run.resolve table = .ok e' ∧ Alike e e'

section Means

variable {depth : Nat} {context : RunContext} {stopAtColon : Bool} {cursor after : Cursor}
  {run : Run} {runs : List Run} {e : Expr} {es : List Expr} {follow : Face}
  {faces more : List Face} {behind : List Token}

theorem ne_closing_of_begins {kind : TokenKind} (h : beginsItem kind = true) (bracket : Bracket) :
    kind ≠ .mark bracket.closing := by
  rintro rfl
  cases bracket <;> cases h

theorem collects_of_takesOperand
    (h : TakesOperand table depth context false cursor e (follow :: more) behind)
    (hhalts : halts context cursor.current = false) (hfollow : beginsItem follow.kind = false) :
    ∃ atom e' span after, Collects (depth + 1) context cursor ⟨[.atom atom], span⟩ after ∧
      (RunItem.atom atom).read table = .ok (.operand e') ∧ Alike e e' ∧
      after.Offers depth (follow :: more) behind := by
  obtain ⟨atom, e', after, hnext, hread, hlike, hafter⟩ := h
  have hstop : Stop context true after after := .other (hafter.kind_eq ▸ hfollow)
  have hitems : Items (Collects depth) context false cursor [.atom atom] after :=
    .next (answer_of_next _ _ _ hnext hhalts) (.stop (answer_of_stop _ _ _ hstop))
  exact ⟨atom, e', _, after, ⟨_, hitems, rfl⟩, hread, hlike, hafter⟩

theorem ReadsBack.collects (h : ReadsBack table e faces) (hends : Ends stopAtColon follow.kind)
    (hcursor : cursor.Offers depth (faces ++ follow :: more) behind) :
    ∃ atom e' span after, Collects depth { stopAtColon } cursor ⟨[.atom atom], span⟩ after ∧
      (RunItem.atom atom).read table = .ok (.operand e') ∧ Alike e e' ∧
      after.Offers depth (follow :: more) behind := by
  obtain ⟨depth, rfl⟩ := hcursor.exists_succ
  obtain ⟨atom, e', span, after, hcollects, hread, hlike, hafter⟩ :=
    collects_of_takesOperand (h.operand hends hcursor) rfl hends.begins
  exact ⟨atom, e', span, after, hcollects, hread, hlike, hafter.succ⟩

theorem ReadsBack.exists_run (h : ReadsBack table e faces) (hends : Ends stopAtColon follow.kind)
    (hcursor : cursor.Offers depth (faces ++ follow :: more) behind) :
    ∃ run after, Collects depth { stopAtColon } cursor run after ∧ run.Means table e ∧
      after.Offers depth (follow :: more) behind := by
  obtain ⟨atom, e', span, after, hcollects, hread, hlike, hafter⟩ := h.collects hends hcursor
  exact ⟨_, after, hcollects, ⟨List.cons_ne_nil _ _, e', resolve_operand hread span, hlike⟩, hafter⟩

structure ReadsAs (table : OperatorTable) (stopAtColon : Bool) (e : Expr) (faces : List Face) :
    Prop where
  exists_run : ∀ {depth : Nat} {cursor : Cursor} {mark : Punctuation} {more : List Face}
    {behind : List Token}, Ends stopAtColon (.mark mark) →
    cursor.Offers depth (faces ++ .mark mark :: more) behind →
    ∃ run after, Collects depth { stopAtColon } cursor run after ∧ run.Means table e ∧
      after.Offers depth (.mark mark :: more) behind

theorem ReadsBack.readsAs (h : ReadsBack table e faces) : ReadsAs table stopAtColon e faces :=
  ⟨fun hends hcursor => h.exists_run hends hcursor⟩

private theorem Run.Means.isEmpty_eq (h : run.Means table e) : run.isEmpty = false :=
  List.isEmpty_eq_false_iff.mpr h.1

theorem any_isEmpty_of_means (h : List.Forall₂ (Run.Means table) runs es) :
    runs.any Run.isEmpty = false := by
  induction h with
  | nil => rfl
  | cons hrun _ ih => rw [List.any_cons, hrun.isEmpty_eq, ih, Bool.or_self]

theorem resolveAll_of_means (h : List.Forall₂ (Run.Means table) runs es) :
    ∃ es', resolveAll table runs = .ok es' ∧ Alike es es' := by
  induction h with
  | nil => exact ⟨[], rfl, rfl⟩
  | cons hrun _ ih =>
    obtain ⟨-, e', he', hlike⟩ := hrun
    obtain ⟨es', hes', hlikes⟩ := ih
    refine ⟨e' :: es', ?_, hlike.cons hlikes⟩
    rw [resolveAll, he', hes']
    rfl

def MeansOption (table : OperatorTable) (run : Option Run) (e : Option Expr) : Prop :=
  ∃ e', resolveOption table run = .ok e' ∧ Alike e e'

theorem Run.Means.option (h : run.Means table e) : MeansOption table (some run) (some e) := by
  obtain ⟨-, e', he', hlike⟩ := h
  refine ⟨some e', ?_, hlike.some⟩
  rw [resolveOption, he']
  rfl

theorem meansOption_none : MeansOption table none none := ⟨none, rfl, rfl⟩

end Means

/-! ## What brackets hold -/

section Bodies

variable {bracket : Bracket} {span : Span}

theorem resolve_elements {runs : List Run} {es : List Expr} {separator : Option Separator}
    {trailing : Bool} {tail : Option Run} {tailExpr : Option Expr}
    (h : List.Forall₂ (Run.Means table) runs es) (htail : MeansOption table tail tailExpr)
    (hshape : separator.isSome ∨ tail.isSome ∨ bracket ≠ .paren) (span' : Span) :
    ∃ e', (closedContainer bracket (.elements runs separator trailing tail) span').resolve table =
      .ok e' ∧ Alike (.collection bracket es separator tailExpr span) e' := by
  obtain ⟨es', hes', hlikes⟩ := resolveAll_of_means h
  obtain ⟨tail', htail', hlike⟩ := htail
  have hgroup (run : Run) (hparen : bracket = .paren) :
      ContainerBody.elements runs separator trailing tail ≠ .elements [run] none false none := by
    rintro ⟨⟩
    exact hshape.elim nofun fun h => h.elim nofun fun h => h hparen
  refine ⟨.collection bracket es' separator tail' span', ?_, ?_⟩
  · rw [resolve_closedContainer hgroup, ContainerBody.resolve, hes', htail']
    rfl
  · rw [Alike, ← relocate_collection, ← relocate_collection, hlikes, hlike]
    rfl

theorem resolve_enumeration {runs : List Run} {es : List Expr} {bound : Option Run}
    {boundExpr : Option Expr} (h : List.Forall₂ (Run.Means table) runs es)
    (hbound : MeansOption table bound boundExpr) (span' : Span) :
    ∃ e', (closedContainer bracket (.enumeration runs bound) span').resolve table = .ok e' ∧
      Alike (.enumeration bracket es boundExpr span) e' := by
  obtain ⟨es', hes', hlikes⟩ := resolveAll_of_means h
  obtain ⟨bound', hbound', hlike⟩ := hbound
  refine ⟨.enumeration bracket es' bound' span', ?_, ?_⟩
  · rw [resolve_closedContainer (fun _ _ h => by cases h), ContainerBody.resolve, hes', hbound']
    rfl
  · rw [Alike, ← relocate_enumeration, ← relocate_enumeration, hlikes, hlike]
    rfl

theorem resolve_comprehension {template : Run} {generators : List Run} {templateExpr : Expr}
    {es : List Expr} (htemplate : template.Means table templateExpr)
    (h : List.Forall₂ (Run.Means table) generators es) (span' : Span) :
    ∃ e', (closedContainer bracket (.comprehension template generators) span').resolve table =
      .ok e' ∧ Alike (.comprehension bracket templateExpr es span) e' := by
  obtain ⟨-, template', htemplate', hlike⟩ := htemplate
  obtain ⟨es', hes', hlikes⟩ := resolveAll_of_means h
  refine ⟨.comprehension bracket template' es' span', ?_, ?_⟩
  · rw [resolve_closedContainer (fun _ _ h => by cases h), ContainerBody.resolve, htemplate']
    change (resolveAll table generators >>= _) = _
    rw [hes']
    rfl
  · rw [Alike, ← relocate_comprehension, ← relocate_comprehension, hlike, hlikes]
    rfl

end Bodies

/-! ## Brackets -/

/-- What stands in brackets is collected and resolved as this expression. -/
def Holds (table : OperatorTable) (bracket : Bracket) (e : Expr) (depth : Nat) (cursor : Cursor)
    (faces : List Face) (behind : List Token) : Prop :=
  ∃ first middle body after, Collects depth (.withColon {}) cursor first middle ∧
    first.items ≠ [] ∧ Body (Collects depth) bracket first middle body after ∧
    (∀ span, ∃ e', (closedContainer bracket body span).resolve table = .ok e' ∧ Alike e e') ∧
    after.Offers depth faces behind

section Brackets

variable {bracket : Bracket} {e : Expr} {depth : Nat} {context : RunContext} {started : Bool}
  {cursor after : Cursor} {faces more : List Face} {behind : List Token}

theorem isOpening_opening (bracket : Bracket) : isOpening (.mark bracket.opening) = true := by
  cases bracket <;> rfl

theorem ofOpening_opening (bracket : Bracket) :
    Bracket.ofOpening (.mark bracket.opening) = bracket := by
  cases bracket <;> rfl

theorem takesOperand_of_holds
    (hcursor : cursor.Offers (depth + 1) (bracket.enclosed faces ++ more) behind)
    (h : ∀ {second : Cursor}, second.Offers depth (faces ++ .mark bracket.closing :: more) behind →
      Holds table bracket e depth second (.mark bracket.closing :: more) behind) :
    TakesOperand table depth context started cursor e more behind := by
  simp only [Bracket.enclosed, List.cons_append, List.append_assoc, List.nil_append] at hcursor
  have hkind : isOpening cursor.current.kind := by
    rw [hcursor.kind_eq]
    exact isOpening_opening bracket
  obtain ⟨opening, second, hopening, hopeningFace, hsecond⟩ := hcursor.takes nofun
  obtain ⟨first, third, body, fourth, hfirst, hne, hbody, hresolve, hfourth⟩ := h hsecond
  obtain ⟨closing, after, hclosing, hclosingFace, hafter⟩ := hfourth.succ.takes nofun
  have hopen := ne_closing_of_begins (hfirst.begins hne) bracket
  have hbracket : Bracket.ofOpening opening.kind = bracket := by
    rw [show opening.kind = .mark bracket.opening from congrArg Face.kind hopeningFace]
    exact ofOpening_opening bracket
  have hclosingKind : closing.kind = .mark bracket.closing := congrArg Face.kind hclosingFace
  rw [← hbracket] at hopen hclosingKind hbody hresolve
  obtain ⟨e', he', hlike⟩ := hresolve (opening.span.through closing.span)
  exact ⟨_, e', after, .container hkind (.filled hopening hopen hfirst hbody hclosing hclosingKind),
    read_closedContainer he', hlike, hafter⟩

theorem readsBack_of_holds (h : ∀ {depth : Nat} {second : Cursor} {more : List Face}
      {behind : List Token},
      second.Offers depth (faces ++ .mark bracket.closing :: more) behind →
      Holds table bracket e depth second (.mark bracket.closing :: more) behind) :
    ReadsBack table e (bracket.enclosed faces) :=
  ⟨fun _ hcursor => takesOperand_of_holds hcursor h⟩

theorem readsBack_empty {span : Span} :
    ReadsBack table (.collection bracket [] none none span) (bracket.enclosed []) := by
  constructor
  intro stopAtColon started depth cursor follow more behind hends hcursor
  simp only [Bracket.enclosed, List.cons_append, List.nil_append] at hcursor
  have hkind : isOpening cursor.current.kind := by
    rw [hcursor.kind_eq]
    exact isOpening_opening bracket
  obtain ⟨opening, second, hopening, hopeningFace, hsecond⟩ := hcursor.takes nofun
  obtain ⟨closing, after, hclosing, hclosingFace, hafter⟩ := hsecond.succ.takes nofun
  have hbracket : Bracket.ofOpening opening.kind = bracket := by
    rw [show opening.kind = .mark bracket.opening from congrArg Face.kind hopeningFace]
    exact ofOpening_opening bracket
  have hclosingKind : closing.kind = .mark bracket.closing := congrArg Face.kind hclosingFace
  have hatom : Container (Collects depth) cursor
      (.container bracket .empty (opening.span.through closing.span)) after := by
    rw [← hbracket] at hclosingKind ⊢
    exact .empty hopening hclosing hclosingKind
  refine ⟨_, .collection bracket [] none none (opening.span.through closing.span), after,
    .container hkind hatom, ?_, rfl, hafter⟩
  cases bracket <;> rfl

/-- The tokens by themselves are a single operand, which is resolved as an expression like this one.
-/
def ReadsAlone (table : OperatorTable) (context : RunContext) (tokens : List Token) (e : Expr) :
    Prop :=
  ∀ errors, ∃ atom span final e',
    Parse.run context (.ofTokens tokens errors) = .ok ⟨[.atom atom], span⟩ final ∧
    final.hasTokens = false ∧ (Run.mk [.atom atom] span).resolve table = .ok e' ∧ Alike e e'

theorem exists_offers_enclosed {tokens : List Token}
    (htokens : tokens.map Token.face = bracket.enclosed faces) (errors : DiagnosticMap) :
    ∃ (last : Token) (depth : Nat), last.kind = .endOfInput ∧
      (ParseState.ofTokens tokens errors).cursor.weight = depth + 1 ∧
      (ParseState.ofTokens tokens errors).cursor.Offers (depth + 1)
        (bracket.enclosed faces ++ [last.face]) [] := by
  have hclosing : ∀ token ∈ tokens.getLast?, token.kind ≠ .endOfInput := by
    intro token htoken hend
    have hface : (tokens.map Token.face).getLast? = some (.mark bracket.closing) := by
      rw [htokens, Bracket.enclosed, ← List.cons_append, List.getLast?_concat]
    rw [List.getLast?_map, Option.mem_def.mp htoken] at hface
    cases hend.symm.trans (congrArg Face.kind (Option.some.inj hface))
  obtain ⟨last, hlast, hwith⟩ := exists_withEnd_eq hclosing
  have hstart : (ParseState.ofTokens tokens errors).cursor = ⟨[], tokens ++ [last], errors⟩ :=
    congrArg (Cursor.mk [] · errors) hwith
  have hended : Cursor.IsEnded ⟨[], tokens ++ [last], errors⟩ := ⟨tokens, last, rfl, hlast⟩
  obtain ⟨depth, hdepth⟩ := Nat.exists_eq_add_one.mpr hended.weight_pos
  rw [hstart]
  exact ⟨last, depth, hlast, hdepth, hended, Nat.le_of_eq hdepth, tokens ++ [last],
    (List.append_nil _).symm, by simp [htokens]⟩

theorem readsAlone_of_takesOperand
    (h : ∀ {depth : Nat} {cursor : Cursor} {more : List Face} {behind : List Token},
      cursor.Offers (depth + 1) (bracket.enclosed faces ++ more) behind →
      TakesOperand table depth context false cursor e more behind)
    {tokens : List Token} (htokens : tokens.map Token.face = bracket.enclosed faces) :
    ReadsAlone table context tokens e := by
  intro errors
  obtain ⟨last, depth, hlast, hdepth, hoffers⟩ := exists_offers_enclosed htokens errors
  have hhalts : halts context (ParseState.ofTokens tokens errors).cursor.current = false := by
    refine halts_of_not_operator context ?_
    rw [hoffers.kind_eq]
    cases bracket <;> rfl
  have hfollow : beginsItem last.face.kind = false := by
    rw [show last.face.kind = .endOfInput from hlast]
    rfl
  obtain ⟨atom, e', span, after, hcollects, hread, hlike, hafter⟩ :=
    collects_of_takesOperand (h hoffers) hhalts hfollow
  rw [← hdepth] at hcollects
  have hend : after.current.kind = .endOfInput := hafter.kind_eq.trans hlast
  refine ⟨atom, span, _, e', run_of_collects hoffers.isEnded (Nat.le_succ _) hcollects, ?_,
    resolve_operand hread span, hlike⟩
  simp [ParseState.hasTokens, hend]

end Brackets

/-! ## Pieces -/

section Pieces

variable {bracket : Bracket} {separator : Separator} {depth : Nat} {cursor after : Cursor}
  {pieces : List (Expr × List Face)} {mark : Punctuation} {more : List Face}
  {behind : List Token}

theorem ends_separator (separator : Separator) (stopAtColon : Bool) :
    Ends stopAtColon (.mark separator.mark) := by
  cases separator <;> exact ⟨rfl, nofun⟩

theorem ends_closing (bracket : Bracket) (stopAtColon : Bool) :
    Ends stopAtColon (.mark bracket.closing) := by
  cases bracket <;> exact ⟨rfl, nofun⟩

theorem ends_pipe (stopAtColon : Bool) : Ends stopAtColon (.mark .pipe) := ⟨rfl, nofun⟩

theorem ends_word (word : Keyword) (hbegins : beginsItem (.word word) = false)
    (stopAtColon : Bool) : Ends stopAtColon (Face.word word).kind := ⟨hbegins, nofun⟩

theorem ends_dots (stopAtColon : Bool) : Ends stopAtColon (.mark .dotDot) := ⟨rfl, nofun⟩

theorem ofKind_separator (separator : Separator) :
    Separator.ofKind? (.mark separator.mark) = some separator := by
  cases separator <;> rfl

theorem exists_follow {stopAtColon : Bool} (separator : Separator)
    (pieces : List (Expr × List Face)) (hends : Ends stopAtColon (.mark mark)) (more : List Face) :
    ∃ next rest, separated separator pieces ++ .mark mark :: more = .mark next :: rest ∧
      Ends stopAtColon (.mark next) := by
  cases pieces with
  | nil => exact ⟨mark, more, rfl, hends⟩
  | cons piece pieces => exact ⟨separator.mark, _, rfl, ends_separator separator stopAtColon⟩

theorem exists_piece {piece : Expr × List Face} (hpiece : ReadsAs table false piece.1 piece.2)
    (hends : Ends false (.mark mark))
    (hcursor : cursor.Offers depth (separated separator (piece :: pieces) ++ .mark mark :: more)
      behind) :
    ∃ token first run second, cursor.Takes token first ∧
      Separator.ofKind? token.kind = some separator ∧ Collects depth {} first run second ∧
      run.Means table piece.1 ∧
      second.Offers depth (separated separator pieces ++ .mark mark :: more) behind := by
  simp only [separated, List.flatMap_cons, List.cons_append, List.append_assoc] at hcursor
  obtain ⟨token, first, htoken, hface, hfirst⟩ := hcursor.succ.takes nofun
  obtain ⟨next, rest, hrest, hnext⟩ := exists_follow separator pieces hends more
  rw [separated] at hrest ⊢
  rw [hrest] at hfirst ⊢
  obtain ⟨run, second, hrun, hmeans, hsecond⟩ := hpiece.exists_run hnext hfirst
  have hkind : token.kind = .mark separator.mark := congrArg Face.kind hface
  exact ⟨token, first, run, second, htoken, hkind ▸ ofKind_separator separator, hrun, hmeans,
    hsecond⟩

variable (hpieces : ∀ piece ∈ pieces, ReadsAs table false piece.1 piece.2)
  (hends : Ends false (.mark mark))
  (hcursor : cursor.Offers depth (separated separator pieces ++ .mark mark :: more) behind)

include hpieces hends hcursor

theorem exists_elements : ∃ runs middle,
    List.Forall₂ (Run.Means table) runs (pieces.map Prod.fst) ∧
      middle.Offers depth (.mark mark :: more) behind ∧
      ∀ {bracket : Bracket} {found : List Run} {body : ContainerBody} {after : Cursor},
        Elements (Collects depth) bracket separator (found ++ runs) middle body after →
        Elements (Collects depth) bracket separator found cursor body after := by
  induction pieces generalizing cursor with
  | nil => exact ⟨[], cursor, .nil, hcursor, fun h => by rwa [List.append_nil] at h⟩
  | cons piece pieces ih =>
    obtain ⟨hpiece, hpieces⟩ := List.forall_mem_cons.mp hpieces
    obtain ⟨token, first, run, second, htoken, hkind, hrun, hmeans, hsecond⟩ :=
      exists_piece hpiece hends hcursor
    obtain ⟨runs, middle, hruns, hmiddle, hbuild⟩ := ih hpieces hsecond
    refine ⟨run :: runs, middle, .cons hmeans hruns, hmiddle, fun {bracket} _ _ _ hbody => ?_⟩
    have hopen := ne_closing_of_begins (hrun.begins hmeans.1) bracket
    refine .more htoken hkind hopen hrun (hbuild ?_)
    rwa [List.append_assoc]

theorem exists_generators {before : Option Separator}
    (hbefore : ∀ other ∈ before, other = separator)
    (hlast : Separator.ofKind? (.mark mark) = none) : ∃ runs after,
    Generators (Collects depth) before cursor runs after ∧
      List.Forall₂ (Run.Means table) runs (pieces.map Prod.fst) ∧
      after.Offers depth (.mark mark :: more) behind := by
  induction pieces generalizing cursor before with
  | nil =>
    have hkind : cursor.current.kind = .mark mark := hcursor.kind_eq
    exact ⟨[], cursor, .done (hkind ▸ hlast), .nil, hcursor⟩
  | cons piece pieces ih =>
    obtain ⟨hpiece, hpieces⟩ := List.forall_mem_cons.mp hpieces
    obtain ⟨token, first, run, second, htoken, hkind, hrun, hmeans, hsecond⟩ :=
      exists_piece hpiece hends hcursor
    have hsame : ∀ other ∈ some separator, other = separator := by simp
    obtain ⟨runs, after, hruns, hmeansAll, hafter⟩ := ih hpieces hsecond hsame
    have hgenerators := Generators.more htoken hkind hbefore hrun hruns
    exact ⟨run :: runs, after, hgenerators, .cons hmeans hmeansAll, hafter⟩

end Pieces

/-! ## Forms of brackets -/

section Forms

variable {bracket : Bracket} {separator : Separator} {span : Span} {depth : Nat} {cursor : Cursor}
  {first : Expr × List Face} {pieces : List (Expr × List Face)} {last : Option (Expr × List Face)}
  {faces : List Face} {behind : List Token}

private theorem body_of_elements {run : Run} {body : ContainerBody} {after : Cursor}
    (hkind : cursor.current.kind = .mark separator.mark)
    (h : Elements (Collects depth) bracket separator [run] cursor body after) :
    Body (Collects depth) bracket run cursor body after := by
  unfold Body
  rw [hkind]
  cases separator <;> exact h

variable (hfirst : ReadsAs table true first.1 first.2)
  (hpieces : ∀ piece ∈ pieces, ReadsAs table false piece.1 piece.2)
  (hlast : ∀ piece ∈ last, ReadsAs table false piece.1 piece.2)

include hfirst

include hlast in
theorem holds_single (hbracket : last = none → bracket ≠ .paren)
    (hcursor : cursor.Offers depth
      (first.2 ++ optional [.mark .pipe] last ++ .mark bracket.closing :: faces) behind) :
    Holds table bracket (.collection bracket [first.1] none (last.map Prod.fst) span) depth cursor
      (.mark bracket.closing :: faces) behind := by
  rw [List.append_assoc] at hcursor
  cases last with
  | none =>
    obtain ⟨run, middle, hrun, hmeans, hmiddle⟩ :=
      hfirst.exists_run (ends_closing bracket true) hcursor
    have hkind : middle.current.kind = .mark bracket.closing := hmiddle.kind_eq
    have hbody : Body (Collects depth) bracket run middle (.elements [run] none false none)
        middle := by
      unfold Body
      rw [hkind]
      cases bracket <;> exact ⟨rfl, rfl, rfl⟩
    refine ⟨run, middle, _, middle, hrun, hmeans.1, hbody, ?_, hmiddle⟩
    exact resolve_elements (.cons hmeans .nil) meansOption_none (.inr (.inr (hbracket rfl)))
  | some piece =>
    obtain ⟨run, middle, hrun, hmeans, hmiddle⟩ :=
      hfirst.exists_run (ends_pipe true) hcursor
    have hkind : middle.current.kind = .mark .pipe := hmiddle.kind_eq
    obtain ⟨bar, third, hbar, -, hthird⟩ := hmiddle.succ.takes nofun
    obtain ⟨tail, after, htail, htailMeans, hafter⟩ :=
      (hlast piece rfl).exists_run (ends_closing bracket false) hthird
    have hbody : Body (Collects depth) bracket run middle (.elements [run] none false (some tail))
        after := by
      unfold Body
      rw [hkind]
      exact ⟨bar, third, tail, hbar, htail, rfl⟩
    refine ⟨run, middle, _, after, hrun, hmeans.1, hbody, ?_, hafter⟩
    exact resolve_elements (.cons hmeans .nil) htailMeans.option (.inr (.inl rfl))

include hpieces in
theorem exists_list {mark : Punctuation} {more : List Face} (hends : Ends false (.mark mark))
    (hseparator : pieces ≠ [] ∨ mark = separator.mark)
    (hcursor : cursor.Offers depth (first.2 ++ (separated separator pieces ++ .mark mark :: more))
      behind) :
    ∃ run middle runs third, Collects depth (.withColon {}) cursor run middle ∧ run.items ≠ [] ∧
      List.Forall₂ (Run.Means table) (run :: runs) (first.1 :: pieces.map Prod.fst) ∧
      third.Offers depth (.mark mark :: more) behind ∧
      ∀ {bracket : Bracket} {body : ContainerBody} {after : Cursor},
        Elements (Collects depth) bracket separator (run :: runs) third body after →
        Body (Collects depth) bracket run middle body after := by
  obtain ⟨next, rest, hrest, hnext⟩ :=
    exists_follow separator pieces (⟨hends.begins, fun _ => rfl⟩ : Ends true (.mark mark)) more
  have hkind : Face.mark next = .mark separator.mark := by
    cases pieces with
    | nil =>
      rw [← hseparator.resolve_left fun h => h rfl]
      exact (List.cons.inj hrest).1.symm
    | cons piece pieces => exact (List.cons.inj hrest).1.symm
  rw [hrest] at hcursor
  obtain ⟨run, middle, hrun, hmeans, hmiddle⟩ := hfirst.exists_run hnext hcursor
  have hmiddleKind : middle.current.kind = .mark separator.mark :=
    hmiddle.kind_eq.trans (congrArg Face.kind hkind)
  rw [← hrest] at hmiddle
  obtain ⟨runs, third, hruns, hthird, hbuild⟩ := exists_elements hpieces hends hmiddle
  exact ⟨run, middle, runs, third, hrun, hmeans.1, .cons hmeans hruns, hthird,
    fun hbody => body_of_elements hmiddleKind (hbuild hbody)⟩

include hpieces hlast in
theorem holds_several (hne : pieces ≠ [])
    (hcursor : cursor.Offers depth
      (first.2 ++ (separated separator pieces ++ optional [.mark .pipe] last) ++
        .mark bracket.closing :: faces) behind) :
    Holds table bracket
      (.collection bracket (first.1 :: pieces.map Prod.fst) (some separator) (last.map Prod.fst)
        span) depth cursor (.mark bracket.closing :: faces) behind := by
  rw [List.append_assoc, List.append_assoc] at hcursor
  cases last with
  | none =>
    obtain ⟨run, middle, runs, third, hrun, hnonempty, hmeans, hthird, hbuild⟩ :=
      exists_list hfirst hpieces (ends_closing bracket false) (.inl hne) hcursor
    have hkind : third.current.kind = .mark bracket.closing := hthird.kind_eq
    have hbody : Body (Collects depth) bracket run middle
        (.elements (run :: runs) (some separator) false none) third := by
      refine hbuild (.done ?_ ?_ ?_) <;> rw [hkind] <;> cases bracket <;> first | rfl | nofun
    exact ⟨run, middle, _, third, hrun, hnonempty, hbody,
      resolve_elements hmeans meansOption_none (.inl rfl), hthird⟩
  | some piece =>
    obtain ⟨run, middle, runs, third, hrun, hnonempty, hmeans, hthird, hbuild⟩ :=
      exists_list hfirst hpieces (ends_pipe false) (.inl hne) hcursor
    obtain ⟨bar, fourth, hbar, hface, hfourth⟩ := hthird.succ.takes nofun
    obtain ⟨tail, after, htail, htailMeans, hafter⟩ :=
      (hlast piece rfl).exists_run (ends_closing bracket false) hfourth
    have hbody : Body (Collects depth) bracket run middle _ after :=
      hbuild (.tail hbar (congrArg Face.kind hface) htail)
    exact ⟨run, middle, _, after, hrun, hnonempty, hbody,
      resolve_elements hmeans htailMeans.option (.inl rfl), hafter⟩

include hpieces in
theorem holds_trailing
    (hcursor : cursor.Offers depth
      (first.2 ++ (separated separator pieces ++ [.mark separator.mark]) ++
        .mark bracket.closing :: faces) behind) :
    Holds table bracket
      (.collection bracket (first.1 :: pieces.map Prod.fst) (some separator) none span) depth
        cursor (.mark bracket.closing :: faces) behind := by
  rw [List.append_assoc, List.append_assoc] at hcursor
  obtain ⟨run, middle, runs, third, hrun, hnonempty, hmeans, hthird, hbuild⟩ :=
    exists_list hfirst hpieces (ends_separator separator false) (.inr rfl) hcursor
  obtain ⟨token, after, htoken, hface, hafter⟩ := hthird.succ.takes nofun
  have hnext : Separator.ofKind? token.kind = some separator := by
    rw [show token.kind = .mark separator.mark from congrArg Face.kind hface]
    exact ofKind_separator separator
  have hbody : Body (Collects depth) bracket run middle _ after :=
    hbuild (.trailing htoken hnext hafter.kind_eq)
  exact ⟨run, middle, _, after, hrun, hnonempty, hbody,
    resolve_elements hmeans meansOption_none (.inl rfl), hafter⟩

omit hfirst in
include hlast in
theorem exists_enumeration {runs : List Run} {es : List Expr}
    (hmeans : List.Forall₂ (Run.Means table) runs es)
    (hcursor : cursor.Offers depth
      (.mark .dotDot :: (optional [] last ++ .mark bracket.closing :: faces)) behind) :
    ∃ body after, Enumeration (Collects depth) bracket runs cursor body after ∧
      (∀ span', ∃ e', (closedContainer bracket body span').resolve table = .ok e' ∧
        Alike (.enumeration bracket es (last.map Prod.fst) span) e') ∧
      after.Offers depth (.mark bracket.closing :: faces) behind := by
  obtain ⟨dots, middle, hdots, -, hmiddle⟩ := hcursor.succ.takes nofun
  have hruns := any_isEmpty_of_means hmeans
  cases last with
  | none =>
    exact ⟨_, middle, .unbounded hdots hruns hmiddle.kind_eq,
      resolve_enumeration hmeans meansOption_none, hmiddle⟩
  | some piece =>
    obtain ⟨bound, after, hbound, hboundMeans, hafter⟩ :=
      (hlast piece rfl).exists_run (ends_closing bracket false) hmiddle
    have hopen := ne_closing_of_begins (hbound.begins hboundMeans.1) bracket
    exact ⟨_, after, .bounded hdots hruns hopen hbound,
      resolve_enumeration hmeans hboundMeans.option, hafter⟩

include hpieces hlast in
theorem holds_enumeration
    (hcursor : cursor.Offers depth
      (first.2 ++ (separated separator pieces ++ .mark .dotDot :: optional [] last) ++
        .mark bracket.closing :: faces) behind) :
    Holds table bracket
      (.enumeration bracket (first.1 :: pieces.map Prod.fst) (last.map Prod.fst) span) depth cursor
        (.mark bracket.closing :: faces) behind := by
  simp only [List.append_assoc, List.cons_append] at hcursor
  by_cases hne : pieces = []
  · subst hne
    obtain ⟨run, middle, hrun, hmeans, hmiddle⟩ := hfirst.exists_run (ends_dots true) hcursor
    have hkind : middle.current.kind = .mark .dotDot := hmiddle.kind_eq
    obtain ⟨body, after, henumeration, hresolve, hafter⟩ :=
      exists_enumeration hlast (.cons hmeans .nil) hmiddle
    have hbody : Body (Collects depth) bracket run middle body after := by
      unfold Body
      rw [hkind]
      exact henumeration
    exact ⟨run, middle, body, after, hrun, hmeans.1, hbody, hresolve, hafter⟩
  · obtain ⟨run, middle, runs, third, hrun, hnonempty, hmeans, hthird, hbuild⟩ :=
      exists_list hfirst hpieces (ends_dots false) (.inl hne) hcursor
    obtain ⟨body, after, henumeration, hresolve, hafter⟩ :=
      exists_enumeration hlast hmeans hthird
    exact ⟨run, middle, body, after, hrun, hnonempty,
      hbuild (.enumeration hthird.kind_eq henumeration), hresolve, hafter⟩

omit hfirst in
include hpieces in
theorem holds_comprehension {template : Expr × List Face}
    (htemplate : ReadsAs table true template.1 template.2)
    (hfirst : ReadsAs table false first.1 first.2)
    (hcursor : cursor.Offers depth
      (template.2 ++ .mark .colon :: (first.2 ++ separated separator pieces) ++
        .mark bracket.closing :: faces) behind) :
    Holds table bracket
      (.comprehension bracket template.1 (first.1 :: pieces.map Prod.fst) span) depth cursor
        (.mark bracket.closing :: faces) behind := by
  simp only [List.append_assoc, List.cons_append] at hcursor
  have hcolon : Ends true (.mark Punctuation.colon) := ⟨rfl, fun _ => rfl⟩
  obtain ⟨run, second, hrun, hmeans, hsecond⟩ := htemplate.exists_run hcolon hcursor
  have hkind : second.current.kind = .mark .colon := hsecond.kind_eq
  obtain ⟨colon, third, htakes, -, hthird⟩ := hsecond.succ.takes nofun
  obtain ⟨next, rest, hrest, hnext⟩ :=
    exists_follow separator pieces (ends_closing bracket false) faces
  rw [hrest] at hthird
  obtain ⟨generator, fourth, hgenerator, hfirstMeans, hfourth⟩ := hfirst.exists_run hnext hthird
  rw [← hrest] at hfourth
  have hbefore : ∀ other ∈ (none : Option Separator), other = separator := nofun
  have hlast : Separator.ofKind? (.mark bracket.closing) = none := by cases bracket <;> rfl
  obtain ⟨generators, after, hgenerators, hmore, hafter⟩ :=
    exists_generators hpieces (ends_closing bracket false) hfourth hbefore hlast
  have hbody : Body (Collects depth) bracket run second
      (.comprehension run (generator :: generators)) after := by
    unfold Body
    rw [hkind]
    exact ⟨colon, third, generator, fourth, generators, htakes, hgenerator, hgenerators, rfl⟩
  exact ⟨run, second, _, after, hrun, hmeans.1, hbody,
    resolve_comprehension hmeans (.cons hfirstMeans hmore), hafter⟩

end Forms

end Equational

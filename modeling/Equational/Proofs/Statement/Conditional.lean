import Equational.Proofs.Run.Chain
import Equational.Proofs.Statement.Moving

/-!
# Conditionals on the right of an equation

On the right side of an equation a conditional behind another one is a guard.  There a chain with
one branch is read as it is in parentheses.  A longer chain is cut in front of its second
conditional, so that the first one lacks its else branch and the word `then` of the second is not
expected.
-/

namespace Equational

open Cursor Parse Grammar

/-! ## States in front of tokens -/

/-- The tokens ahead have these faces, up to some of them, and there is room to read them all. -/
structure ParseState.InFrontOf (state : ParseState) (table : OperatorTable) (faces : List Face) :
    Prop where
  table_eq : state.table = table
  ended : state.cursor.IsEnded
  limit : state.cursor.weight ≤ state.limit
  faces : ∃ behind, state.cursor.Faces faces behind

theorem isEnded_ofTokens (tokens : List Token) (errors : DiagnosticMap) :
    (Cursor.ofTokens tokens errors).IsEnded := by
  unfold Cursor.ofTokens withEnd
  cases hlast : tokens.getLast? with
  | none => exact ⟨[], _, rfl, rfl⟩
  | some last =>
    dsimp only
    split
    · exact ⟨tokens.dropLast, last, (List.dropLast_append_getLast? last hlast).symm, ‹_›⟩
    · exact ⟨tokens, _, rfl, rfl⟩

private theorem prefix_withEnd (tokens : List Token) :
    tokens <+: withEnd tokens := by
  unfold withEnd
  cases hlast : tokens.getLast? with
  | none =>
    rw [List.getLast?_eq_none_iff.mp hlast]
    exact List.nil_prefix
  | some last =>
    dsimp only
    split
    · exact List.prefix_refl tokens
    · exact List.prefix_append tokens _

theorem ParseState.InFrontOf.ofTokens {tokens : List Token} {faces more : List Face}
    (h : tokens.map Token.face = faces ++ more) (errors : DiagnosticMap) :
    (ParseState.ofTokens tokens errors).InFrontOf .initial faces where
  table_eq := rfl
  ended := isEnded_ofTokens tokens errors
  limit := Nat.le_succ _
  faces := by
    obtain ⟨front, back, rfl, hfront, -⟩ := List.map_eq_append_iff.mp h
    obtain ⟨rest, hrest⟩ := prefix_withEnd (front ++ back)
    exact ⟨back ++ rest, front, by rw [← List.append_assoc, hrest]; rfl, hfront⟩

namespace Parse

variable {α β : Type} {state middle : ParseState} {table : OperatorTable}

/-- The step gives the value without reporting anything, and is in front of other tokens then. -/
def Reaches (step : Parse α) (value : α) (state : ParseState) (table : OperatorTable)
    (faces : List Face) : Prop :=
  ∃ final, step state = .ok value final ∧ final.InFrontOf table faces ∧
    final.reported = state.reported

section Steps

variable {face : Face} {first faces : List Face} (hstate : state.InFrontOf table first)

include hstate

theorem inFrontOf_of_writes {glyphs : List Glyph} {after : Cursor} {behind : List Token}
    (hwrites : state.cursor.Writes glyphs after) (hfaces : after.Faces faces behind) :
    ({ state with cursor := after } : ParseState).InFrontOf table faces where
  table_eq := hstate.table_eq
  ended := hwrites.isEnded hstate.ended
  limit := Nat.le_trans hwrites.weight_le hstate.limit
  faces := ⟨behind, hfaces⟩

theorem reaches_run {context : RunContext} {run : Run} {after : Cursor} {behind : List Token}
    (h : Collects state.cursor.weight context state.cursor run after)
    (hfaces : after.Faces faces behind) : Reaches (Parse.run context) run state table faces :=
  ⟨_, run_of_collects hstate.ended hstate.limit h, inFrontOf_of_writes hstate h.writes hfaces, rfl⟩

theorem reaches_expression {context : RunContext} {run : Run} {after : Cursor}
    {behind : List Token} (h : Collects state.cursor.weight context state.cursor run after)
    (hfaces : after.Faces faces behind) {e : Expr} (he : run.resolve table = .ok e) :
    Reaches (expression context) e state table faces := by
  obtain ⟨final, hrun, hfinal, hreported⟩ := reaches_run hstate h hfaces
  refine ⟨final, (bind_of_ok hrun).trans ?_, hfinal, hreported⟩
  rw [resolve_eq, hfinal.table_eq, he]

end Steps

section Tokens

variable {face : Face} {faces : List Face} (hstate : state.InFrontOf table (face :: faces))

include hstate

theorem face_of_inFrontOf : state.cursor.current.face = face := by
  obtain ⟨behind, hfaces⟩ := hstate.faces
  exact hfaces.current_eq

theorem kind_of_inFrontOf : state.cursor.current.kind = face.kind :=
  congrArg Face.kind (face_of_inFrontOf hstate)

theorem exists_reaches_advance (hend : face.kind ≠ .endOfInput) :
    ∃ token, token.face = face ∧ Reaches advance token state table faces := by
  obtain ⟨behind, hfaces⟩ := hstate.faces
  obtain ⟨token, after, htakes, hface, hafter⟩ := hfaces.takes hend
  have hadvance : advance state = .ok token { state with cursor := after } := by
    rw [← htakes.current_eq, ← htakes.advance_eq]
    rfl
  have hwrites : state.cursor.Writes [.face token.face] after := htakes.writes_face fun _ => rfl
  exact ⟨token, hface, _, hadvance, inFrontOf_of_writes hstate hwrites hafter, rfl⟩

theorem one_lt_limit (hend : face.kind ≠ .endOfInput) : 1 < state.limit := by
  obtain ⟨behind, hfaces⟩ := hstate.faces
  obtain ⟨token, after, htakes, -, -⟩ := hfaces.takes hend
  have hpos := (htakes.isEnded hstate.ended).weight_pos
  have hlt := htakes.weight_lt
  have hlimit := hstate.limit
  omega

theorem exists_reaches_expect {kind : TokenKind} (hkind : face.kind = kind)
    (hend : kind ≠ .endOfInput) : ∃ token, Reaches (expect kind) token state table faces := by
  subst hkind
  obtain ⟨token, -, final, hadvance, hfinal⟩ := exists_reaches_advance hstate hend
  have hexpect : expect face.kind state = advance state :=
    congrFun (if_pos (kind_of_inFrontOf hstate)) state
  exact ⟨token, final, hexpect.trans hadvance, hfinal⟩

end Tokens

theorem expectMark_of_word {word : Keyword} (h : state.cursor.current.kind = .word word)
    (mark : Punctuation) :
    expectMark mark state = .error ⟨.unexpectedToken state.cursor.current.qualifiedValue
      ("expected " ++ (TokenKind.mark mark).label), state.cursor.current.span⟩ state := by
  have hunexpected : state.cursor.unexpected (TokenKind.mark mark).label =
      (⟨.unexpectedToken state.cursor.current.qualifiedValue
        ("expected " ++ (TokenKind.mark mark).label), state.cursor.current.span⟩,
        state.cursor) := by
    unfold Cursor.unexpected
    simp only [h]
  have hfail : expectMark mark state = fail (TokenKind.mark mark).label state :=
    congrFun (if_neg (by rw [h]; nofun)) state
  rw [hfail]
  change EStateM.Result.error (state.cursor.unexpected _).1
    { state with cursor := (state.cursor.unexpected _).2 } = _
  rw [hunexpected]

/-! ## The left side -/

def rightSide (start : Nat) (lhs : Expr) : Parse Parsed := do
  let rhs ← expression .guarded
  let trailing ← qualifiers .guarded
  let _ ← expectMark .semicolon
  let first : Clause := ⟨[], rhs, trailing, ← spanFrom start⟩
  return .statement (.equation lhs [first] (← spanFrom start))

private theorem statement_eq_equation (h : state.cursor.current.kind.isIdentifier) :
    statement state = (equation >>= fun found => pure (.statement found)) state := by
  unfold statement
  rw [bind_of_ok (show currentKind state = .ok state.cursor.current.kind state from rfl)]
  generalize state.cursor.current.kind = kind at h
  cases kind <;> first | rfl | cases h

section Left

variable {name : Face} {faces : List Face}
  (hstate : state.InFrontOf table (name :: .mark .assignment :: faces))
  (hname : name.kind.isIdentifier)

include hstate hname

variable (hplain : table.isDeclared ⟨name.value, name.moduleName⟩ = false)

include hplain

/-- Up to the equality sign the statement is read as it would be with any right side. -/
theorem exists_statement_eq : ∃ start lhs middle, statement state = rightSide start lhs middle ∧
    middle.InFrontOf table faces ∧ middle.reported = state.reported := by
  obtain ⟨behind, hfaces⟩ := hstate.faces
  have hend : name.kind ≠ .endOfInput := by
    intro h
    rw [h] at hname
    cases hname
  obtain ⟨token, after, htakes, rfl, hafter⟩ := hfaces.takes hend
  have hafterKind : after.current.kind = .mark .assignment := congrArg Face.kind hafter.current_eq
  have hcollects : Collects _ .pattern _ _ after := collects_name hstate.ended htakes hname
    (by rw [hafterKind]; nofun) (.assignment hafterKind rfl)
  obtain ⟨first, hrun, hfirst, hreported⟩ := reaches_run hstate hcollects hafter
  have hresolve : resolve ⟨[.atom (.identifier (.ofToken token) token.span)], token.span⟩ first =
      .ok (.identifier (.ofToken token) token.span) first := by
    rw [resolve_eq, hfirst.table_eq, resolve_name hplain]
  have hleading : leadingQualifiers first = .ok [] first :=
    congrFun (if_neg (by rw [kind_of_inFrontOf hfirst]; nofun)) first
  obtain ⟨sign, hexpect⟩ : ∃ sign, Reaches (expectMark .assignment) sign first table faces :=
    exists_reaches_expect hfirst rfl nofun
  obtain ⟨second, hexpect, hsecond, hreported'⟩ := hexpect
  have hkind : state.cursor.current.kind.isIdentifier := by rwa [kind_of_inFrontOf hstate]
  have hposition : position state = .ok state.cursor.current.span.start state := rfl
  refine ⟨state.cursor.current.span.start, .identifier (.ofToken token) token.span, second, ?_,
    hsecond, hreported'.trans hreported⟩
  rw [statement_eq_equation hkind]
  simp only [equation, clause, bind_assoc]
  rw [bind_of_ok hposition, bind_of_ok hrun, if_neg nofun]
  simp only [bind_assoc, pure_bind]
  rw [bind_of_ok hresolve, bind_of_ok hleading, bind_of_ok hexpect]
  rfl

end Left

/-! ## Qualifiers -/

section Qualifiers

variable {context : RunContext}

theorem qualifier_eq_none (h : beginsQualifier state.cursor.current.kind = false) :
    qualifier? context state = .ok none state := by
  unfold qualifier?
  rw [bind_of_ok (show position state = .ok state.cursor.current.span.start state from rfl),
    bind_of_ok (show currentKind state = .ok state.cursor.current.kind state from rfl)]
  unfold beginsQualifier at h
  split at h
  · cases h
  · cases h
  · cases h
  · rfl

theorem many_of_none {item? : Parse (Option α)} (h : item? state = .ok none state) {rounds : Nat}
    (hrounds : 0 < rounds) (found : List α) :
    many item? rounds found state = .ok found.reverse state := by
  obtain ⟨rounds, rfl⟩ := Nat.exists_eq_add_one.mpr hrounds
  exact bind_of_ok h

private theorem qualifiers_eq_nil (hlimit : 0 < state.limit)
    (h : beginsQualifier state.cursor.current.kind = false) :
    qualifiers context state = .ok [] state :=
  many_of_none (qualifier_eq_none h) hlimit []

variable (htable : table.HasNoPostfix) (condition : Phrase table) {faces : List Face}
  (hstate : state.InFrontOf table (.word .ifWord :: (condition.faces ++ .word .thenWord :: faces)))

include htable hstate

private theorem exists_reaches_guard : ∃ guard, Reaches (qualifiers .guarded) [guard] state table
    (.word .thenWord :: faces) := by
  obtain ⟨token, -, first, hadvance, hfirst, hreported⟩ := exists_reaches_advance hstate nofun
  obtain ⟨behind, hfaces⟩ := hfirst.faces
  obtain ⟨run, after, hcollects, hlike, hafter⟩ := condition.collects htable .guarded hfaces
    ⟨rfl, by decide⟩ hfirst.ended (Nat.le_refl _)
  obtain ⟨e, he⟩ := condition.resolves
  obtain ⟨e', he', -⟩ := hlike.resolve he
  obtain ⟨second, hexpression, hsecond, hreported'⟩ :=
    reaches_expression hfirst hcollects hafter he'
  let guard : Qualifier :=
    .guard e' ⟨state.cursor.current.span.start, second.cursor.previousEnd⟩
  have hguard : qualifier? .guarded state = .ok (some guard) second := by
    unfold qualifier?
    rw [bind_of_ok (show position state = .ok state.cursor.current.span.start state from rfl),
      bind_of_ok (show currentKind state = .ok state.cursor.current.kind state from rfl),
      kind_of_inFrontOf hstate]
    exact (bind_of_ok hadvance).trans (bind_of_ok hexpression)
  have hlimit := one_lt_limit hstate nofun
  obtain ⟨rounds, hrounds⟩ := Nat.exists_eq_add_one.mpr (Nat.lt_of_succ_lt hlimit)
  have hbegins : beginsQualifier second.cursor.current.kind = false := by
    rw [kind_of_inFrontOf hsecond]
    rfl
  refine ⟨guard, second, ?_, hsecond, hreported'.trans hreported⟩
  change many (qualifier? .guarded) state.limit [] state = _
  rw [hrounds]
  exact (bind_of_ok hguard).trans (many_of_none (qualifier_eq_none hbegins) (by omega) _)

end Qualifiers

/-! ## The right side -/

section Right

variable {rhs : Expr} {faces : List Face} (start : Nat) (lhs : Expr)

theorem rightSide_of_semicolon
    (h : Reaches (expression .guarded) rhs state table (.mark .semicolon :: faces)) :
    ∃ clauseSpan span final, rightSide start lhs state =
        .ok (.statement (.equation lhs [⟨[], rhs, [], clauseSpan⟩] span)) final ∧
      final.reported = state.reported := by
  obtain ⟨middle, hexpression, hmiddle, hreported⟩ := h
  have hqualifiers : qualifiers .guarded middle = .ok [] middle :=
    qualifiers_eq_nil (Nat.lt_of_lt_of_le hmiddle.ended.weight_pos hmiddle.limit)
      (by rw [kind_of_inFrontOf hmiddle]; rfl)
  obtain ⟨token, hexpect⟩ : ∃ token, Reaches (expectMark .semicolon) token middle table faces :=
    exists_reaches_expect hmiddle rfl nofun
  obtain ⟨final, hexpect, -, hreported'⟩ := hexpect
  refine ⟨⟨start, final.cursor.previousEnd⟩, ⟨start, final.cursor.previousEnd⟩, final, ?_,
    hreported'.trans hreported⟩
  unfold rightSide
  rw [bind_of_ok hexpression, bind_of_ok hqualifiers, bind_of_ok hexpect]
  rfl

theorem rightSide_of_conditional (htable : table.HasNoPostfix) (condition : Phrase table)
    {middle : ParseState} (hexpression : expression .guarded state = .ok rhs middle)
    (hmiddle : middle.InFrontOf table
      (.word .ifWord :: (condition.faces ++ .word .thenWord :: faces))) :
    ∃ span final, rightSide start lhs state =
        .error ⟨.unexpectedToken "then" "expected Semicolon", span⟩ final ∧
      final.reported = middle.reported := by
  obtain ⟨guard, last, hqualifiers, hlast, hreported⟩ :=
    exists_reaches_guard htable condition hmiddle
  obtain ⟨hkind, hvalue, hmodule⟩ := Face.mk.inj (face_of_inFrontOf hlast)
  have hexpect := expectMark_of_word hkind .semicolon
  rw [Token.qualifiedValue, hvalue, hmodule] at hexpect
  refine ⟨last.cursor.current.span, last, ?_, hreported⟩
  unfold rightSide
  rw [bind_of_ok hexpression, bind_of_ok hqualifiers, bind_of_error hexpect]
  rfl

end Right

/-! ## Chains as values -/

private theorem exists_conditional_of_alike {condition : Run} {thenBranch : Option Run}
    {span : Span}
    {rest items : List RunItem} (h : Alike (.conditional condition thenBranch span :: rest) items) :
    ∃ condition' thenBranch' span' rest',
      items = .conditional condition' thenBranch' span' :: rest' := by
  obtain ⟨item, rest', rfl, hitem, -⟩ := Alike.exists_cons h
  cases item with
  | conditional condition' thenBranch' span' => exact ⟨_, _, _, _, rfl⟩
  | atom a => cases hitem
  | operator op => cases hitem

section Chains

variable (htable : table.HasNoPostfix) (first : Branch table) (more : List (Branch table))
  (last : Phrase table) {value : Expr}
  (hvalue : (Run.mk (chainItems (first :: more) last) default).resolve table = .ok value)

include htable hvalue

theorem exists_reaches_group (hstate : state.InFrontOf table (.mark .openParen ::
      (chainFaces (first :: more) last ++ [.mark .closeParen, .mark .semicolon]))) :
    ∃ rhs, Alike value rhs ∧ Reaches (expression .guarded) rhs state table [.mark .semicolon] := by
  obtain ⟨behind, hfaces⟩ := hstate.faces
  obtain ⟨depth, hdepth⟩ := Nat.exists_eq_add_one.mpr hstate.ended.weight_pos
  obtain ⟨run, span, groupSpan, after, hcollects, hlike, hafter⟩ :=
    collects_group htable .guarded first more last hstate.ended (Nat.le_of_eq hdepth) hfaces
      ⟨rfl, by decide⟩
  obtain ⟨items, runSpan⟩ := run
  have hwhole : Alike (Run.mk (chainItems (first :: more) last) default) ⟨items, runSpan⟩ :=
    .run hlike
  obtain ⟨rhs, hrhs, hlikeRhs⟩ := hwhole.resolve hvalue
  obtain ⟨-, hfinished⟩ := Run.finished_of_resolve htable hrhs
  obtain ⟨condition, thenBranch, itemSpan, rest, rfl⟩ := exists_conditional_of_alike hlike
  rw [← hdepth] at hcollects
  exact ⟨rhs, hlikeRhs, reaches_expression hstate hcollects hafter
    (resolve_operand (read_grouped hfinished hrhs) groupSpan)⟩

theorem exists_reaches_single (hmore : more = []) (hstate : state.InFrontOf table
      (chainFaces (first :: more) last ++ [.mark .semicolon])) :
    ∃ rhs, Alike value rhs ∧ Reaches (expression .guarded) rhs state table [.mark .semicolon] := by
  subst hmore
  obtain ⟨behind, hfaces⟩ := hstate.faces
  obtain ⟨depth, hdepth⟩ := Nat.exists_eq_add_one.mpr hstate.ended.weight_pos
  simp only [chainFaces, List.flatMap_cons, List.flatMap_nil, List.append_nil,
    List.append_assoc] at hfaces
  have hgathers : Gathers depth .guarded false state.cursor (chainItems [first] last)
      [.mark .semicolon] behind :=
    first.gathers htable .guarded hstate.ended (Nat.le_of_eq hdepth) hfaces rfl
      fun middle hended hweight hmiddle =>
        last.items htable .guarded hmiddle ⟨rfl, by decide⟩ true hended hweight
  obtain ⟨run, after, hcollects, hlike, hafter⟩ := hgathers.collects
  have hwhole : Alike (Run.mk (chainItems [first] last) default) run := .run hlike
  obtain ⟨rhs, hrhs, hlikeRhs⟩ := hwhole.resolve hvalue
  rw [← hdepth] at hcollects
  exact ⟨rhs, hlikeRhs, reaches_expression hstate hcollects hafter hrhs⟩

omit hvalue

/-- On its own a chain is cut in front of its second conditional. -/
theorem exists_expression_cut (second : Branch table) (others : List (Branch table))
    (hstate : state.InFrontOf table
      (chainFaces (first :: second :: others) last ++ [.mark .semicolon])) :
    ∃ rhs span middle faces, expression .guarded state = .ok rhs middle ∧
      middle.InFrontOf table
        (.word .ifWord :: (second.condition.faces ++ .word .thenWord :: faces)) ∧
      middle.reported = ⟨.missingOperand "if" .right, span⟩ :: state.reported := by
  obtain ⟨behind, hfaces⟩ := hstate.faces
  obtain ⟨depth, hdepth⟩ := Nat.exists_eq_add_one.mpr hstate.ended.weight_pos
  simp only [chainFaces, List.flatMap_cons, List.append_assoc] at hfaces
  have hgathers : Gathers depth .guarded false state.cursor [first.item] _ behind :=
    first.gathers htable .guarded hstate.ended (Nat.le_of_eq hdepth) hfaces rfl
      fun middle _ _ hmiddle => by
        have hkind : middle.current.kind = .word .ifWord := congrArg Face.kind hmiddle.current_eq
        exact ⟨[], middle, .stop (answer_of_stop _ _ _ (.guard hkind rfl)), .refl _, hmiddle⟩
  obtain ⟨run, after, hcollects, hlike, hafter⟩ := hgathers.collects
  rw [← hdepth] at hcollects
  obtain ⟨middle, hrun, hmiddle, hreported⟩ := reaches_run hstate hcollects hafter
  obtain ⟨span, hresolve⟩ := first.exists_resolve_lone hlike
  simp only [Branch.faces, List.cons_append, List.append_assoc] at hmiddle
  refine ⟨.error run.span, span, { middle with reported := _ :: middle.reported }, _, ?_,
    ⟨hmiddle.table_eq, hmiddle.ended, hmiddle.limit, hmiddle.faces⟩, congrArg _ hreported⟩
  refine (bind_of_ok hrun).trans ?_
  rw [resolve_eq, hmiddle.table_eq, hresolve]

end Chains

end Parse

/-! ## Conditionals on the right side -/

/-- An equation is read without diagnostics.  Its only clause has no qualifiers, and its right side
is the value up to spans. -/
def ParseState.GivesEquation (state : ParseState) (value : Expr) : Prop :=
  ∃ lhs rhs clauseSpan span final,
    Parse.statement state =
      .ok (.statement (.equation lhs [⟨[], rhs, [], clauseSpan⟩] span)) final ∧
    final.reported = state.reported ∧ Alike value rhs

/-- A conditional is reported that lacks a branch, and the statement ends at the word `then`. -/
def ParseState.GivesNoElse (state : ParseState) : Prop :=
  ∃ conditional word final,
    Parse.statement state = .error ⟨.unexpectedToken "then" "expected Semicolon", word⟩ final ∧
    final.reported = ⟨.missingOperand "if" .right, conditional⟩ :: state.reported

/-- In parentheses a chain of conditionals is always the right side of an equation.  Without them it
is the same if there is one conditional only, and otherwise no equation is read. -/
theorem equations_with_conditionals {headers : List Header} {table : OperatorTable}
    (htable : OperatorTable.initial.declareAll headers = .ok table) {name : Face}
    (hname : name.kind.isIdentifier)
    (hplain : table.isDeclared ⟨name.value, name.moduleName⟩ = false)
    (first : Branch table) (more : List (Branch table)) (last : Phrase table) :
    ∃ value,
      (∀ state : ParseState, state.InFrontOf table
          (name :: .mark .assignment :: .mark .openParen ::
            (chainFaces (first :: more) last ++ [.mark .closeParen, .mark .semicolon])) →
        state.GivesEquation value) ∧
      ∀ state : ParseState, state.InFrontOf table
          (name :: .mark .assignment :: (chainFaces (first :: more) last ++ [.mark .semicolon])) →
        if more.isEmpty then state.GivesEquation value else state.GivesNoElse := by
  have htable := OperatorTable.hasNoPostfix_initial.declareAll htable
  obtain ⟨value, hvalue⟩ := exists_resolve_chain (first :: more) last default
  have hequation {state middle : ParseState} {start : Nat} {lhs : Expr}
      (hstatement : Parse.statement state = rightSide start lhs middle)
      (hreported : middle.reported = state.reported)
      (hrhs : ∃ rhs, Alike value rhs ∧
        Reaches (expression .guarded) rhs middle table [.mark .semicolon]) :
      state.GivesEquation value := by
    obtain ⟨rhs, hlike, hrhs⟩ := hrhs
    obtain ⟨clauseSpan, span, final, hright, hreported'⟩ := rightSide_of_semicolon start lhs hrhs
    exact ⟨lhs, rhs, clauseSpan, span, final, hstatement.trans hright,
      hreported'.trans hreported, hlike⟩
  refine ⟨value, fun state hstate => ?_, fun state hstate => ?_⟩
  · obtain ⟨start, lhs, middle, hstatement, hmiddle, hreported⟩ :=
      exists_statement_eq hstate hname hplain
    exact hequation hstatement hreported
      (exists_reaches_group htable first more last hvalue hmiddle)
  · obtain ⟨start, lhs, middle, hstatement, hmiddle, hreported⟩ :=
      exists_statement_eq hstate hname hplain
    cases more with
    | nil =>
      exact hequation hstatement hreported
        (exists_reaches_single htable first [] last hvalue rfl hmiddle)
    | cons second others =>
      obtain ⟨rhs, conditional, behind, faces, hexpression, hbehind, hreported'⟩ :=
        exists_expression_cut htable first last second others hmiddle
      obtain ⟨word, final, hright, hfinal⟩ :=
        rightSide_of_conditional start lhs htable second.condition hexpression hbehind
      exact ⟨conditional, word, final, hstatement.trans hright,
        hfinal.trans (hreported'.trans (congrArg _ hreported))⟩

def elseIfText : String := "if a then b else if c then d else e"

theorem elseIfText_givesNoElse : ∃ plain grouped : Lexed,
    Lexed.ofSource ("x = " ++ elseIfText ++ ";") = .ok plain ∧
    Lexed.ofSource ("x = (" ++ elseIfText ++ ");") = .ok grouped ∧
    OperatorTable.initial.declareAll [] = .ok .initial ∧
    OperatorTable.initial.isDeclared ⟨"x", none⟩ = false ∧
    (∃ value, (ParseState.ofTokens grouped.tokens grouped.errors).GivesEquation value) ∧
    (ParseState.ofTokens plain.tokens plain.errors).GivesNoElse := by
  let name (value : String) : Face := ⟨.functionName, value, none⟩
  let chain : List Face := [.word .ifWord, name "a", .word .thenWord, name "b", .word .elseWord,
    .word .ifWord, name "c", .word .thenWord, name "d", .word .elseWord, name "e"]
  let stop : List Face := [⟨.endOfInput, "EOF", none⟩]
  obtain ⟨plain, hplain, hplainFaces⟩ := exists_of_map_eq_ok
    (f := fun lexed : Lexed => lexed.tokens.map Token.face)
    (by decide +kernel : (Lexed.ofSource ("x = " ++ elseIfText ++ ";")).map _ =
      .ok (name "x" :: .mark .assignment :: (chain ++ [.mark .semicolon]) ++ stop))
  obtain ⟨grouped, hgrouped, hgroupedFaces⟩ := exists_of_map_eq_ok
    (f := fun lexed : Lexed => lexed.tokens.map Token.face)
    (by decide +kernel : (Lexed.ofSource ("x = (" ++ elseIfText ++ ");")).map _ =
      .ok (name "x" :: .mark .assignment :: .mark .openParen ::
        (chain ++ [.mark .closeParen, .mark .semicolon]) ++ stop))
  let phrase (value : String) (h : OperatorTable.initial.isDeclared ⟨value, none⟩ = false) :
      Phrase .initial := .name value h
  let first : Branch .initial := ⟨phrase "a" (by decide), phrase "b" (by decide)⟩
  let second : Branch .initial := ⟨phrase "c" (by decide), phrase "d" (by decide)⟩
  have htable : OperatorTable.initial.declareAll [] = .ok .initial := rfl
  have hname : OperatorTable.initial.isDeclared ⟨"x", none⟩ = false := by decide
  obtain ⟨value, hinside, houtside⟩ := equations_with_conditionals htable
    (rfl : (name "x").kind.isIdentifier = true) hname first [second] (phrase "e" (by decide))
  refine ⟨plain, grouped, hplain, hgrouped, htable, hname, ⟨value, ?_⟩, ?_⟩
  · exact hinside _ (.ofTokens hgroupedFaces grouped.errors)
  · exact houtside _ (.ofTokens hplainFaces plain.errors)

end Equational

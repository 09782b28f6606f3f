import Equational.Proofs.Run.ReadBack

/-!
# Reading what is in parentheses back

Between parentheses everything is a single operand, so no precedence is looked at; only the forms of
parentheses with an operator in them have to be told apart.  So whatever writes an expression with
all its parentheses is collected and resolved as the expression again.
-/

namespace Equational

open Cursor Grammar

variable {table : OperatorTable} {source : List Token}

/-! ## Operators -/

section Operators

variable {name : OperatorName} {op op' : OperatorUse} {symbol : List Face} {follow : Face}
  {depth : Nat} {stopAtColon started : Bool} {cursor : Cursor} {more : List Face}
  {behind : List Token}

theorem alike_operator (h : op'.name = op.name) : Alike op op' := by
  obtain ⟨name, span⟩ := op
  obtain ⟨name', span'⟩ := op'
  obtain rfl : name' = name := h
  rfl

theorem Spells.takes (h : Spells table name symbol) (hfollow : ∃ mark, follow.kind = .mark mark)
    (hcursor : cursor.Offers (depth + 1) (symbol ++ follow :: more) behind) :
    ∃ item op after, Next (Collects depth) { stopAtColon } started cursor [item] after ∧
      item.Operates table op ∧ op.name = name ∧ after.Offers depth (follow :: more) behind := by
  cases h with
  | @symbol face hkind =>
    have hcurrent : cursor.current.kind.isOperatorStart := hcursor.kind_eq ▸ hkind
    have hnext : face.kind ≠ .endOfInput := fun hend => by rw [hend] at hkind; cases hkind
    obtain ⟨token, after, htakes, rfl, hafter⟩ := hcursor.takes hnext
    have hplain : ∀ follower symbol, joined? token.kind = some (follower, symbol) →
        after.current.kind ≠ .word follower := by
      intro follower _ _
      obtain ⟨mark, hmark⟩ := hfollow
      rw [hafter.kind_eq, hmark]
      nofun
    exact ⟨_, _, after, .operator hcurrent (.plain htakes hplain), .inl rfl, rfl, hafter⟩
  | @joined face follower symbol hjoined =>
    have hstart : face.kind.isOperatorStart ∧ face.kind ≠ .endOfInput := by
      unfold joined? at hjoined
      split at hjoined
      · rename_i hkind
        rw [hkind]
        exact ⟨rfl, nofun⟩
      · rename_i hkind
        rw [hkind]
        exact ⟨rfl, nofun⟩
      · cases hjoined
    have hcurrent : cursor.current.kind.isOperatorStart := hcursor.kind_eq ▸ hstart.1
    obtain ⟨token, middle, htakes, rfl, hmiddle⟩ := hcursor.takes hstart.2
    obtain ⟨second, after, hsecond, hface, hafter⟩ := hmiddle.succ.takes nofun
    have hjoin : Operator cursor ⟨⟨symbol, none⟩, token.span.through second.span⟩ after :=
      .joined htakes hjoined hsecond (congrArg Face.kind hface)
    exact ⟨_, _, after, .operator hcurrent hjoin, .inl rfl, rfl, hafter⟩
  | @word face hkind hdeclared =>
    have hcurrent : cursor.current.kind = .functionName := hcursor.kind_eq.trans hkind
    obtain ⟨token, after, htakes, rfl, hafter⟩ := hcursor.takes (by rw [hkind]; nofun)
    replace hkind : token.kind = .functionName := hkind
    have hnamed : Named { stopAtColon } cursor (.identifier (.ofToken token) token.span) after :=
      .plain htakes fun htyped => by simp [typable, hkind] at htyped
    have hword : wordOperator? table (.atom (.identifier (.ofToken token) token.span)) =
        some ⟨⟨token.value, token.moduleName⟩, token.span⟩ := by
      simp only [wordOperator?, Identifier.ofToken, Name.ofToken, hkind]
      exact if_pos hdeclared
    exact ⟨_, _, after, .named (by rw [hcurrent]; rfl) hnamed, .inr hword, rfl, hafter⟩

end Operators

/-! ## Inside of parentheses -/

/-- In front of a closing parenthesis these faces are items which, in parentheses, are resolved as
an expression like this one. -/
structure ReadsInside (table : OperatorTable) (e : Expr) (faces : List Face) : Prop where
  items : ∀ {depth : Nat} {cursor : Cursor} {more : List Face} {behind : List Token},
    cursor.Offers (depth + 1) (faces ++ .mark .closeParen :: more) behind →
    ∃ items after, Items (Collects depth) (.withColon {}) false cursor items after ∧ items ≠ [] ∧
      (∀ runSpan span, ∃ e', (Atom.parenthesized items runSpan span).resolve table = .ok e' ∧
        Alike e e') ∧ after.Offers depth (.mark .closeParen :: more) behind

section Inside

variable {e : Expr} {faces more : List Face} {behind : List Token} {depth : Nat}
  {cursor middle after : Cursor} {started : Bool}

theorem ReadsInside.operand {context : RunContext} (h : ReadsInside table e faces)
    (hcursor : cursor.Offers (depth + 1) (Bracket.paren.enclosed faces ++ more) behind) :
    TakesOperand table depth context started cursor e more behind := by
  refine takesOperand_of_holds hcursor fun hsecond => ?_
  obtain ⟨depth, rfl⟩ := hsecond.exists_succ
  obtain ⟨items, after, hitems, hne, hresolve, hafter⟩ := h.items hsecond
  have hkind : after.current.kind = .mark .closeParen := hafter.kind_eq
  have hbody (run : Run) :
      Body (Collects (depth + 1)) .paren run after (.elements [run] none false none) after := by
    unfold Body
    rw [hkind]
    exact ⟨rfl, rfl, rfl⟩
  exact ⟨_, after, _, after, ⟨items, hitems, rfl⟩, hne, hbody _, hresolve _, hafter.succ⟩

theorem ReadsInside.group (h : ReadsInside table e faces) :
    ReadsBack table e (Bracket.paren.enclosed faces) :=
  ⟨fun _ hcursor => h.operand hcursor⟩

theorem items_of_next {items others : List RunItem}
    (h : Next (Collects depth) (.withColon {}) started cursor items middle)
    (hrest : Items (Collects depth) (.withColon {}) true middle others after) :
    Items (Collects depth) (.withColon {}) started cursor (items ++ others) after :=
  .next (answer_of_next _ _ _ h rfl) hrest

theorem items_stop (hcursor : cursor.Offers depth (.mark .closeParen :: more) behind) :
    Items (Collects depth) (.withColon {}) started cursor [] cursor :=
  .stop (answer_of_stop _ _ _ (.other (by rw [hcursor.kind_eq]; rfl)))

theorem ReadsBack.alone (h : ReadsBack table e faces) : ReadsInside table e faces := by
  constructor
  intro depth cursor more behind hcursor
  obtain ⟨atom, e', after, hnext, hread, hlike, hafter⟩ :=
    h.operand (ends_closing .paren true) hcursor
  have hrests := RunItem.rests_of_operand hread
  refine ⟨_, after, items_of_next hnext (items_stop hafter), List.cons_ne_nil _ _, ?_, hafter⟩
  intro runSpan span
  refine ⟨e', ?_, hlike⟩
  rw [List.append_nil, resolve_parenthesized runSpan span]
  · rw [readItems, readItems, hread]
    rfl
  · rintro _ ⟨⟩
    exact hrests
  · rintro _ ⟨⟩
    exact hrests

theorem ReadsInside.literal {op : OperatorUse} {span : Span}
    (hspells : Spells table op.name faces) :
    ReadsInside table (.operatorLiteral op span) faces := by
  constructor
  intro depth cursor more behind hcursor
  obtain ⟨item, op', after, hnext, hop, hname, hafter⟩ := hspells.takes ⟨_, rfl⟩ hcursor
  refine ⟨_, after, items_of_next hnext (items_stop hafter), List.cons_ne_nil _ _, ?_, hafter⟩
  intro runSpan span'
  refine ⟨_, resolve_operator runSpan span' hop, ?_⟩
  exact congrArg (Expr.operatorLiteral · (relocate .nowhere span)) (alike_operator hname)

variable {op : OperatorUse} {span : Span} {operand : Expr} {symbol operandFaces : List Face}

theorem readItems_operand {item : RunItem} {e : Expr} (h : item.read table = .ok (.operand e)) :
    readItems table [item] = [.ok (.operand e)] := by
  rw [readItems, readItems, h]

theorem exists_leading (hspells : Spells table op.name symbol) (h : ReadsInside table operand faces)
    (hcursor : cursor.Offers (depth + 1)
      (symbol ++ Bracket.paren.enclosed faces ++ .mark .closeParen :: more) behind) :
    ∃ items op' operand' after, Items (Collects depth) (.withColon {}) false cursor items after ∧
      items ≠ [] ∧ op'.name = op.name ∧ Alike operand operand' ∧
      after.Offers depth (.mark .closeParen :: more) behind ∧
      ∀ runSpan span, ∃ operandSpan, (Atom.parenthesized items runSpan span).resolve table =
        assembleSection table op' .left [.ok (.operand operand')] operandSpan span := by
  rw [List.append_assoc] at hcursor
  obtain ⟨item, op', middle, hnext, hop, hname, hmiddle⟩ := hspells.takes ⟨_, rfl⟩ hcursor
  obtain ⟨atom, operand', after, hnext', hread, hlike, hafter⟩ := h.operand hmiddle.succ
  refine ⟨_, op', operand', after, items_of_next hnext (items_of_next hnext' (items_stop hafter)),
    List.cons_ne_nil _ _, hname, hlike, hafter,
    fun runSpan span => ⟨itemsSpan [.atom atom] span, ?_⟩⟩
  rw [List.append_nil, List.singleton_append,
    resolve_leading runSpan span hop (RunItem.rests_of_operand hread), readItems_operand hread]

theorem ReadsInside.prefixed (hprefixed : (table.lookupName op.name .prefixOp).isSome)
    (hspells : Spells table op.name symbol) (h : ReadsInside table operand faces) :
    ReadsInside table (prefixNode op operand) (symbol ++ Bracket.paren.enclosed faces) := by
  constructor
  intro depth cursor more behind hcursor
  obtain ⟨items, op', operand', after, hitems, hne, hname, hlike, hafter, hresolve⟩ :=
    exists_leading hspells h hcursor
  refine ⟨items, after, hitems, hne, fun runSpan span => ?_, hafter⟩
  obtain ⟨operandSpan, hresolve⟩ := hresolve runSpan span
  rw [← hname] at hprefixed
  refine ⟨prefixNode op' operand', hresolve.trans (section_prefixed operandSpan hprefixed), ?_⟩
  rw [Alike, relocate_prefixNode, relocate_prefixNode, alike_operator hname, hlike]

theorem ReadsInside.openLeft (hinfixed : (table.lookupName op.name .infixOp).isSome)
    (hprefixed : table.lookupName op.name .prefixOp = none) (hspells : Spells table op.name symbol)
    (h : ReadsInside table operand faces) :
    ReadsInside table (.partialApply op operand .left span)
      (symbol ++ Bracket.paren.enclosed faces) := by
  constructor
  intro depth cursor more behind hcursor
  obtain ⟨items, op', operand', after, hitems, hne, hname, hlike, hafter, hresolve⟩ :=
    exists_leading hspells h hcursor
  refine ⟨items, after, hitems, hne, fun runSpan span' => ?_, hafter⟩
  obtain ⟨operandSpan, hresolve⟩ := hresolve runSpan span'
  rw [← hname] at hinfixed hprefixed
  refine ⟨_, hresolve.trans (section_left operandSpan hinfixed hprefixed), ?_⟩
  change Expr.partialApply (relocate .nowhere op) (relocate .nowhere operand) _ _ =
    .partialApply (relocate .nowhere op') (relocate .nowhere operand') _ _
  rw [alike_operator hname, hlike]
  rfl

theorem ReadsInside.openRight (hinfixed : (table.lookupName op.name .infixOp).isSome)
    (hspells : Spells table op.name symbol) (h : ReadsInside table operand faces) :
    ReadsInside table (.partialApply op operand .right span)
      (Bracket.paren.enclosed faces ++ symbol) := by
  constructor
  intro depth cursor more behind hcursor
  rw [List.append_assoc] at hcursor
  obtain ⟨atom, operand', middle, hnext, hread, hlike, hmiddle⟩ := h.operand hcursor
  obtain ⟨item, op', after, hnext', hop, hname, hafter⟩ := hspells.takes ⟨_, rfl⟩ hmiddle.succ
  refine ⟨_, after, items_of_next hnext (items_of_next hnext' (items_stop hafter)),
    List.cons_ne_nil _ _, fun runSpan span' => ?_, hafter⟩
  rw [← hname] at hinfixed
  have hresolve := resolve_behind runSpan span' (RunItem.rests_of_operand hread) hop
  rw [readItems_operand hread] at hresolve
  refine ⟨_, hresolve.trans (section_right _ hinfixed), ?_⟩
  change Expr.partialApply (relocate .nowhere op) (relocate .nowhere operand) _ _ =
    .partialApply (relocate .nowhere op') (relocate .nowhere operand') _ _
  rw [alike_operator hname, hlike]
  rfl

theorem ReadsInside.binary (htable : table.HasNoPostfix) {left right : Expr}
    {leftFaces rightFaces : List Face} (hinfixed : (table.lookupName op.name .infixOp).isSome)
    (hspells : Spells table op.name symbol) (hleft : ReadsInside table left leftFaces)
    (hright : ReadsInside table right rightFaces) :
    ReadsInside table (binaryNode op left right)
      (Bracket.paren.enclosed leftFaces ++ (symbol ++ Bracket.paren.enclosed rightFaces)) := by
  constructor
  intro depth cursor more behind hcursor
  rw [List.append_assoc, List.append_assoc] at hcursor
  obtain ⟨first, left', second, hnext, hread, hlike, hsecond⟩ := hleft.operand hcursor
  obtain ⟨item, op', third, hnext', hop, hname, hthird⟩ := hspells.takes ⟨_, rfl⟩ hsecond.succ
  obtain ⟨last, right', after, hnext'', hread', hlike', hafter⟩ := hright.operand hthird.succ
  refine ⟨_, after, items_of_next hnext (items_of_next hnext'
    (items_of_next hnext'' (items_stop hafter))), List.cons_ne_nil _ _, fun runSpan span => ?_,
    hafter⟩
  rw [← hname] at hinfixed
  refine ⟨binaryNode op' left' right', ?_, ?_⟩
  · have hends : ∀ item ∈ [RunItem.atom first, .atom last], item.Rests table := by
      simp [RunItem.rests_of_operand hread, RunItem.rests_of_operand hread']
    simp only [List.append_nil, List.singleton_append]
    rw [resolve_parenthesized runSpan span]
    · rw [readItems, readItems, readItems, readItems, hread, hop.read, hread']
      exact assemble_binary hinfixed (htable.lookupName_eq_none _)
    · rintro _ ⟨⟩
      exact RunItem.rests_of_operand hread
    · rintro _ ⟨⟩
      exact RunItem.rests_of_operand hread'
  · rw [Alike, relocate_binaryNode, relocate_binaryNode, alike_operator hname, hlike, hlike']

theorem ReadsInside.apply {function argument : Expr} {functionFaces argumentFaces : List Face}
    (hfunction : ReadsInside table function functionFaces)
    (hargument : ReadsInside table argument argumentFaces) :
    ReadsInside table (.apply function argument span)
      (Bracket.paren.enclosed functionFaces ++ Bracket.paren.enclosed argumentFaces) := by
  constructor
  intro depth cursor more behind hcursor
  rw [List.append_assoc] at hcursor
  obtain ⟨first, function', middle, hnext, hread, hlike, hmiddle⟩ := hfunction.operand hcursor
  obtain ⟨last, argument', after, hnext', hread', hlike', hafter⟩ := hargument.operand hmiddle.succ
  refine ⟨_, after, items_of_next hnext (items_of_next hnext' (items_stop hafter)),
    List.cons_ne_nil _ _, fun runSpan span' => ?_, hafter⟩
  refine ⟨.apply function' argument' (function'.span.through argument'.span), ?_, ?_⟩
  · simp only [List.append_nil, List.singleton_append]
    rw [resolve_parenthesized runSpan span']
    · rw [readItems, readItems, readItems, hread, hread']
      exact assemble_application
    · rintro _ ⟨⟩
      exact RunItem.rests_of_operand hread
    · rintro _ ⟨⟩
      exact RunItem.rests_of_operand hread'
  · change Expr.apply (relocate .nowhere function) (relocate .nowhere argument) _ =
      .apply (relocate .nowhere function') (relocate .nowhere argument') _
    rw [hlike, hlike']
    rfl

/-! ## Conditionals -/

variable {condition thenBranch elseBranch : Expr}
  {conditionFaces thenFaces elseFaces : List Face}

theorem resolve_conditional {item last : RunItem} {condition last' : Expr}
    {thenBranch : Option Expr} {span : Span}
    (hread : item.read table = .ok (.conditional condition thenBranch span))
    (hlast : last.read table = .ok (.operand last')) (runSpan span' : Span) :
    (Atom.parenthesized [item, last] runSpan span').resolve table =
      .ok (conditionalNode condition thenBranch span last') := by
  rw [resolve_parenthesized runSpan span']
  · rw [readItems, readItems, readItems, hread, hlast]
    exact assemble_conditional thenBranch span
  · rintro _ ⟨⟩
    exact RunItem.rests_of_conditional hread
  · rintro _ ⟨⟩
    exact RunItem.rests_of_operand hlast

theorem alike_conditional {condition condition' last last' : Expr}
    {thenBranch thenBranch' : Option Expr} (h : Alike condition condition')
    (h' : Alike thenBranch thenBranch') (h'' : Alike last last') (span span' : Span) :
    Alike (conditionalNode condition thenBranch span last)
      (conditionalNode condition' thenBranch' span' last') := by
  rw [Alike, relocate_conditionalNode, relocate_conditionalNode, h, h', h'']
  rfl

theorem exists_condition {depth : Nat} {cursor : Cursor} {more : List Face} {behind : List Token}
    (hcondition : ReadsBack table condition conditionFaces)
    (hcursor : cursor.Offers (depth + 1) (.word .ifWord :: (conditionFaces ++
      .word .thenWord :: more)) behind) :
    ∃ opening first test second joining third, cursor.Takes opening first ∧
      Collects depth {} first test second ∧ test.Means table condition ∧
      second.Takes joining third ∧ joining.kind = .word .thenWord ∧
      third.Offers depth more behind := by
  obtain ⟨opening, first, hopening, -, hfirst⟩ := hcursor.takes nofun
  obtain ⟨test, second, htest, hmeans, hsecond⟩ :=
    hcondition.exists_run (ends_word .thenWord rfl false) hfirst
  obtain ⟨joining, third, hjoining, hface, hthird⟩ := hsecond.succ.takes nofun
  exact ⟨opening, first, test, second, joining, third, hopening, htest, hmeans, hjoining,
    congrArg Face.kind hface, hthird⟩

theorem read_conditional {test : Run} {branch : Option Run} {condition' : Expr}
    {thenBranch' : Option Expr} (hcondition : test.resolve table = .ok condition')
    (hthen : resolveOption table branch = .ok thenBranch') (span : Span) :
    (RunItem.conditional test branch span).read table =
      .ok (.conditional condition' thenBranch' span) := by
  rw [RunItem.read, hcondition, hthen]
  rfl

theorem ReadsInside.withElse (hcondition : ReadsBack table condition conditionFaces)
    (hthen : ReadsBack table thenBranch thenFaces)
    (helse : ReadsBack table elseBranch elseFaces) :
    ReadsInside table (.conditional condition thenBranch (some elseBranch) span)
      (.word .ifWord :: (conditionFaces ++
        .word .thenWord :: (thenFaces ++ .word .elseWord :: elseFaces))) := by
  constructor
  intro depth cursor more behind hcursor
  simp only [List.cons_append, List.append_assoc] at hcursor
  have hkind : cursor.current.kind = .word .ifWord := hcursor.kind_eq
  obtain ⟨opening, first, test, second, joining, third, hopening, htest,
    ⟨-, condition', hcondition', hlikeCondition⟩, hjoining, hjoiningKind, hthird⟩ :=
    exists_condition hcondition hcursor
  obtain ⟨branch, fourth, hbranch, hbranchMeans, hfourth⟩ :=
    hthen.exists_run (ends_word .elseWord rfl true) hthird
  obtain ⟨closing, fifth, hclosing, hclosingFace, hfifth⟩ := hfourth.succ.takes nofun
  have hnext : Next (Collects depth) (.withColon {}) false cursor
      [.conditional test (some branch) (opening.span.through closing.span)] fifth :=
    .conditional hkind nofun (.withElse hopening htest hjoining hjoiningKind
      hbranch hclosing (congrArg Face.kind hclosingFace))
  have hlast : TakesOperand table depth (.withColon {}) true fifth elseBranch _ behind :=
    helse.operand (ends_closing .paren true) hfifth.succ
  obtain ⟨last, else', after, hnext', hread', hlike', hafter⟩ := hlast
  obtain ⟨then', hthen', hlikeThen⟩ := hbranchMeans.option
  have hread := read_conditional hcondition' hthen' (opening.span.through closing.span)
  refine ⟨_, after, items_of_next hnext (items_of_next hnext' (items_stop hafter)),
    List.cons_ne_nil _ _, fun runSpan span' => ?_, hafter⟩
  refine ⟨_, resolve_conditional hread hread' runSpan span', ?_⟩
  exact alike_conditional hlikeCondition hlikeThen hlike' default _

theorem ReadsInside.withoutElse (hcondition : ReadsBack table condition conditionFaces)
    (hthen : ReadsBack table thenBranch thenFaces) :
    ReadsInside table (.conditional condition thenBranch none span)
      (.word .ifWord :: (conditionFaces ++ .word .thenWord :: thenFaces)) := by
  constructor
  intro depth cursor more behind hcursor
  simp only [List.cons_append, List.append_assoc] at hcursor
  have hkind : cursor.current.kind = .word .ifWord := hcursor.kind_eq
  obtain ⟨opening, first, test, second, joining, third, hopening, htest,
    ⟨-, condition', hcondition', hlikeCondition⟩, hjoining, hjoiningKind, hthird⟩ :=
    exists_condition hcondition hcursor
  obtain ⟨atom, then', branchSpan, after, hbranch, hread', hlike', hafter⟩ :=
    hthen.collects (ends_closing .paren true) hthird
  have helse : after.current.kind ≠ .word .elseWord := by
    rw [hafter.kind_eq]
    nofun
  have hnext : Next (Collects depth) (.withColon {}) false cursor
      [.conditional test none ⟨opening.span.start, branchSpan.start⟩, .atom atom] after :=
    .conditional hkind nofun
      (.withoutElse hopening htest hjoining hjoiningKind hbranch helse)
  obtain ⟨_, hnone, hlikeNone⟩ : MeansOption table none none := meansOption_none
  have hread := read_conditional hcondition' hnone ⟨opening.span.start, branchSpan.start⟩
  refine ⟨_, after, items_of_next hnext (items_stop hafter), List.cons_ne_nil _ _,
    fun runSpan span' => ?_, hafter⟩
  refine ⟨_, resolve_conditional hread hread' runSpan span', ?_⟩
  exact alike_conditional hlikeCondition hlikeNone hlike' default _

end Inside

/-! ## Lambdas -/

private theorem read_lambda {items : List RunItem} {body : Run} {span : Span}
    {parameters : List Expr} {bodyExpr : Expr} (hne : items ≠ [])
    (hparameters : resolveParameters table items = .ok parameters)
    (hbody : body.resolve table = .ok bodyExpr) :
    (RunItem.atom (.lambda items body span)).read table =
      .ok (.operand (.lambda parameters bodyExpr span)) := by
  cases items with
  | nil => exact absurd rfl hne
  | cons first rest =>
    have hatom : (Atom.lambda (first :: rest) body span).resolve table =
        .ok (.lambda parameters bodyExpr span) := by
      rw [Atom.resolve, hparameters]
      exact bind_eq_ok_iff.mpr ⟨parameters, rfl, bind_eq_ok_iff.mpr ⟨bodyExpr, hbody, rfl⟩⟩
    rw [RunItem.read, hatom]
    rfl

private theorem readsBack_lambda {front : List Token} {parameters : List Expr} {body : Expr}
    {faces : List Face} {span : Span}
    (hparameters : ParametersAt table source span.start front parameters)
    (hbody : ReadsBack table body faces) :
    ReadsBack table (.lambda parameters body span)
      (.mark .backslash :: (front.map Token.face ++ .mark .dot :: faces)) := by
  constructor
  intro stopAtColon started depth cursor follow more behind hends hcursor
  simp only [List.cons_append, List.append_assoc] at hcursor
  have hkind : cursor.current.kind = .mark .backslash := hcursor.kind_eq
  obtain ⟨backslash, first, hbackslash, -, hfirst⟩ := hcursor.takes nofun
  obtain ⟨run, parameters', second, hrun, hne, hresolve, hlike, hsecondFaces⟩ :=
    hparameters.collects hfirst.isEnded hfirst.weight_le hfirst.faces
  have hsecond := hfirst.of_collects hrun hsecondFaces
  obtain ⟨dot, third, hdot, hdotFace, hthird⟩ := hsecond.succ.takes nofun
  obtain ⟨inner, after, hinner, ⟨-, body', hbody', hlikeBody⟩, hafter⟩ :=
    hbody.exists_run hends hthird
  have hlambda : Lambda (Collects depth) { stopAtColon } cursor
      (.lambda run.items inner ⟨backslash.span.start, after.previousEnd⟩) after :=
    .intro hbackslash hrun hdot (congrArg Face.kind hdotFace) hinner
  refine ⟨_, _, after, .lambda hkind hlambda, read_lambda hne hresolve hbody', ?_, hafter⟩
  rw [Alike, ← relocate_lambda, ← relocate_lambda, hlike, hlikeBody]
  rfl

/-! ## Whole expressions -/

/-- What is collected where an expression is written. -/
def Site.Reads (table : OperatorTable) : Site → Expr → List Face → Prop
  | anywhere => ReadsBack table
  | inside => ReadsInside table

theorem Parenthesized.reads (htable : table.HasNoPostfix) {site : Site} {e : Expr}
    {faces : List Face} (h : Parenthesized table source site e faces) :
    site.Reads table e faces := by
  induction h with
  | identifier hkind hplain => exact readsBack_identifier hkind hplain
  | declared hkind => exact readsBack_declared hkind
  | number hkind hliteral => exact readsBack_number hkind hliteral
  | string hkind => exact readsBack_string hkind
  | group _ ih => exact ReadsInside.group ih
  | empty => exact readsBack_empty
  | single _ _ hbracket hfirst htail =>
    exact readsBack_of_holds fun hcursor =>
      holds_single hfirst.readsAs (fun _ h => (htail _ h).readsAs) hbracket hcursor
  | several _ _ _ hne hfirst hmore htail =>
    exact readsBack_of_holds fun hcursor => holds_several hfirst.readsAs
      (fun _ h => (hmore _ h).readsAs) (fun _ h => (htail _ h).readsAs) hne hcursor
  | trailing _ _ hfirst hmore =>
    exact readsBack_of_holds fun hcursor =>
      holds_trailing hfirst.readsAs (fun _ h => (hmore _ h).readsAs) hcursor
  | enumeration _ _ _ hfirst hmore hbound =>
    exact readsBack_of_holds fun hcursor => holds_enumeration hfirst.readsAs
      (fun _ h => (hmore _ h).readsAs) (fun _ h => (hbound _ h).readsAs) hcursor
  | comprehension _ _ _ htemplate hfirst hmore =>
    exact readsBack_of_holds fun hcursor => holds_comprehension (fun _ h => (hmore _ h).readsAs)
      htemplate.readsAs hfirst.readsAs hcursor
  | lambda hparameters _ hbody => exact readsBack_lambda hparameters hbody
  | alone _ ih => exact ReadsBack.alone ih
  | literal hspells => exact .literal hspells
  | prefixed hprefixed hspells _ ih => exact .prefixed hprefixed hspells ih
  | binary hinfixed hspells _ _ hleft hright => exact .binary htable hinfixed hspells hleft hright
  | apply _ _ hfunction hargument => exact .apply hfunction hargument
  | withElse _ _ _ hcondition hthen helse => exact .withElse hcondition hthen helse
  | withoutElse _ _ hcondition hthen => exact .withoutElse hcondition hthen
  | openLeft hinfixed hprefixed hspells _ ih => exact .openLeft hinfixed hprefixed hspells ih
  | openRight hinfixed hspells _ ih => exact .openRight hinfixed hspells ih

end Equational

import Equational.Proofs.Operator.Declare
import Equational.Proofs.Relocation.Values
import Mathlib.Data.List.Forall2

/-!
# Resolving relocated runs

A relocated run resolves to the relocated expression, or fails with the relocated diagnostic, under
the same table: which operators group with which does not depend on where they stand.  None of the
diagnostics is lexical.
-/

namespace Equational

/-! ## Results -/

section Results

variable {α β γ δ : Type} {place : Relocation}

/-- A value has another one as its image, and a diagnostic its relocation. -/
inductive Relocated (place : Relocation) (image : α → β) :
    Except Diagnostic α → Except Diagnostic β → Prop where
  | ok (value : α) : Relocated place image (.ok value) (.ok (image value))
  | error (diagnostic : Diagnostic) (h : diagnostic.cause.phase ≠ .lexical) :
    Relocated place image (.error diagnostic) (.error (relocate place diagnostic))

namespace Relocated

variable {image : α → β} {imageNext : γ → δ}

theorem of_eq {value : α} {other : β} (h : other = image value) :
    Relocated place image (.ok value) (.ok other) := by
  rw [h]
  exact .ok value

theorem eq_ok {value : α} {second : Except Diagnostic β}
    (h : Relocated place image (.ok value) second) : second = .ok (image value) := by
  cases h
  rfl

theorem exists_ok {first : Except Diagnostic α} {other : β}
    (h : Relocated place image first (.ok other)) :
    ∃ value, first = .ok value ∧ image value = other := by
  cases h with
  | ok value => exact ⟨value, rfl, rfl⟩

theorem bind {first : Except Diagnostic α} {second : Except Diagnostic β}
    {next : α → Except Diagnostic γ} {next' : β → Except Diagnostic δ}
    (h : Relocated place image first second)
    (hnext : ∀ value, Relocated place imageNext (next value) (next' (image value))) :
    Relocated place imageNext (first >>= next) (second >>= next') := by
  cases h with
  | ok value => exact hnext value
  | error diagnostic hphase => exact .error diagnostic hphase

theorem ite {condition condition' : Prop} [Decidable condition] [Decidable condition']
    {first second : Except Diagnostic α} {first' second' : Except Diagnostic β}
    (hcondition : condition ↔ condition') (h : Relocated place image first first')
    (h' : Relocated place image second second') :
    Relocated place image (if condition then first else second)
      (if condition' then first' else second') := by
  by_cases hc : condition
  · rw [if_pos hc, if_pos (hcondition.mp hc)]
    exact h
  · rw [if_neg hc, if_neg (mt hcondition.mpr hc)]
    exact h'

end Relocated

theorem relocated_mapM {readings others : List (Except Diagnostic α)} {image : α → α}
    (h : List.Forall₂ (Relocated place image) readings others) :
    Relocated place (List.map image) (readings.mapM id) (others.mapM id) := by
  induction h with
  | nil => exact .ok []
  | cons hhead _ ih =>
    rw [List.mapM_cons, List.mapM_cons]
    exact hhead.bind fun value => ih.bind fun values => .ok (value :: values)

theorem relocated_ofToken (place : Relocation) (token : Token) :
    Relocated place id (NumberLiteral.ofToken token)
      (NumberLiteral.ofToken (relocate place token)) := by
  unfold NumberLiteral.ofToken
  rw [value_relocate]
  cases NumberLiteral.ofText? token.value with
  | some literal => exact .ok literal
  | none => exact .error ⟨.unreadableNumber token.value, token.span⟩ nofun

end Results

/-! ## Stacks -/

instance : Relocatable Pending where
  relocate place pending :=
    match pending with
    | .binary op entry => .binary (relocate place op) entry
    | .prefixed op entry => .prefixed (relocate place op) entry
    | .application span => .application (relocate place span)
    | .conditional condition thenBranch span =>
      .conditional (relocate place condition) (relocate place thenBranch) (relocate place span)

instance : Relocatable Stacks where
  relocate place held := ⟨relocate place held.operands, relocate place held.pending⟩

instance : Relocatable Arrangement where
  relocate place arrangement := { arrangement with held := relocate place arrangement.held }

instance : Relocatable Arrival where
  relocate place arrival := { arrival with span := relocate place arrival.span }

instance : Relocatable Step where
  relocate place step :=
    match step with
    | .operand operand => .operand (relocate place operand)
    | .operator op => .operator (relocate place op)
    | .conditional condition thenBranch span =>
      .conditional (relocate place condition) (relocate place thenBranch) (relocate place span)

section Arranging

variable (place : Relocation)

theorem relocate_binaryNode (op : OperatorUse) (left right : Expr) :
    relocate place (binaryNode op left right) =
      binaryNode (relocate place op) (relocate place left) (relocate place right) := by
  obtain ⟨⟨symbol, moduleName⟩, span⟩ := op
  have hspan : relocate place (left.span.through right.span) =
      (relocate place left).span.through (relocate place right).span := by
    rw [relocate_through, span_relocate_expr, span_relocate_expr]
  have hname : (relocate place (⟨⟨symbol, moduleName⟩, span⟩ : OperatorUse)).name =
      ⟨symbol, moduleName⟩ := rfl
  unfold binaryNode
  rw [hname, ← hspan]
  dsimp only
  split <;> rfl

theorem relocate_prefixNode (op : OperatorUse) (operand : Expr) :
    relocate place (prefixNode op operand) =
      prefixNode (relocate place op) (relocate place operand) := by
  have hspan : relocate place (op.span.through operand.span) =
      (relocate place op).span.through (relocate place operand).span := by
    rw [relocate_through, span_relocate_expr]
    rfl
  have hmarker : isQuotationMarker (relocate place op) = isQuotationMarker op := rfl
  unfold prefixNode
  rw [hmarker, ← hspan]
  dsimp only
  split <;> rfl

theorem relocate_conditionalNode (condition : Expr) (thenBranch : Option Expr) (span : Span)
    (last : Expr) :
    relocate place (conditionalNode condition thenBranch span last) =
      conditionalNode (relocate place condition) (relocate place thenBranch)
        (relocate place span) (relocate place last) := by
  have hspan : relocate place (span.through last.span) =
      (relocate place span).through (relocate place last).span := by
    rw [relocate_through, span_relocate_expr]
  cases thenBranch <;> simp only [conditionalNode, relocate_option, Option.map_some,
    Option.map_none, ← hspan] <;> rfl

theorem arrival_relocate (pending : Pending) :
    (relocate place pending).arrival = relocate place pending.arrival := by
  cases pending <;> rfl

variable {place}

theorem relocated_apply (pending : Pending) (operands : List Expr) :
    Relocated place (relocate place) (pending.apply operands)
      ((relocate place pending).apply (relocate place operands)) := by
  match operands, pending with
  | [], pending =>
    have hsymbol : (relocate place pending).symbol = pending.symbol := by cases pending <;> rfl
    have hspan : (relocate place pending).span = relocate place pending.span := by
      cases pending <;> rfl
    have herror : (relocate place pending).apply [] =
        .error (relocate place ⟨.missingOperand pending.symbol .right, pending.span⟩) := by
      rw [Pending.apply, hsymbol, hspan]
      rfl
    rw [relocate_list, List.map_nil, herror]
    exact .error _ nofun
  | right :: left :: rest, .binary op entry =>
    exact .of_eq (congrArg (· :: _) (relocate_binaryNode place op left right).symm)
  | [right], .binary op entry => exact .error (missingOperand op .left) nofun
  | right :: rest, .prefixed op entry =>
    exact .of_eq (congrArg (· :: _) (relocate_prefixNode place op right).symm)
  | right :: function :: rest, .application span =>
    refine .of_eq (congrArg (· :: _) ?_)
    rw [span_relocate_expr, span_relocate_expr, ← relocate_through]
    rfl
  | [right], .application span => exact .error ⟨.emptyRun, span⟩ nofun
  | right :: rest, .conditional condition thenBranch span =>
    exact .of_eq (congrArg (· :: _)
      (relocate_conditionalNode place condition thenBranch span right).symm)

theorem relocated_applyFor (arrival : Arrival) (operands : List Expr) (pending : List Pending) :
    Relocated place (relocate place) (applyFor arrival operands pending)
      (applyFor (relocate place arrival) (relocate place operands) (relocate place pending)) := by
  induction pending generalizing operands with
  | nil => exact .ok (⟨operands, []⟩ : Stacks)
  | cons top rest ih =>
    have hprecedence : (relocate place top).precedence = top.precedence := by cases top <;> rfl
    have hfixity : (relocate place top).fixity = top.fixity := by cases top <;> rfl
    have hsymbol : (relocate place top).symbol = top.symbol := by cases top <;> rfl
    have harrivalPrecedence : (relocate place arrival).precedence = arrival.precedence := rfl
    have harrivalFixity : (relocate place arrival).fixity = arrival.fixity := rfl
    rw [relocate_list place (top :: rest), List.map_cons, applyFor, applyFor, hprecedence,
      hfixity, hsymbol, harrivalPrecedence, harrivalFixity]
    cases verdict top.precedence top.fixity arrival.precedence arrival.fixity with
    | keep => exact .ok (⟨operands, top :: rest⟩ : Stacks)
    | clash => exact .error ⟨.ambiguousChain top.symbol arrival.symbol, arrival.span⟩ nofun
    | apply => exact (relocated_apply top operands).bind ih

theorem relocated_applyAll (operands : List Expr) (pending : List Pending) :
    Relocated place (relocate place) (applyAll operands pending)
      (applyAll (relocate place operands) (relocate place pending)) := by
  induction pending generalizing operands with
  | nil => exact .ok operands
  | cons top rest ih => exact (relocated_apply top operands).bind ih

/-! ## Steps -/

theorem relocated_takeUp (held : Stacks) (pending : Pending) :
    Relocated place (relocate place) (held.takeUp pending)
      ((relocate place held).takeUp (relocate place pending)) := by
  unfold Stacks.takeUp
  rw [arrival_relocate]
  exact (relocated_applyFor pending.arrival held.operands held.pending).bind fun applied =>
    .ok (applied.pushPending pending)

theorem relocated_takePostfix (held : Stacks) (op : OperatorUse) (entry : OperatorEntry) :
    Relocated place (relocate place) (held.takePostfix op entry)
      ((relocate place held).takePostfix (relocate place op) entry) := by
  unfold Stacks.takePostfix
  let arrival : Arrival := ⟨entry.precedence, .postfixOp, op.text, op.span⟩
  refine (relocated_applyFor arrival held.operands held.pending).bind fun applied => ?_
  obtain ⟨operands, pending⟩ := applied
  cases operands with
  | nil => exact .error (missingOperand op .left) nofun
  | cons operand rest =>
    have hspan : relocate place (operand.span.through op.span) =
        (relocate place operand).span.through (relocate place op).span := by
      rw [relocate_through, span_relocate_expr]
      rfl
    exact .of_eq (congrArg (fun span => Stacks.mk (.unary _ .behind _ span :: _) _) hspan.symm)

theorem relocated_takeArgument (arrangement : Arrangement) (span : Span) :
    Relocated place (relocate place) (takeArgument arrangement span)
      (takeArgument (relocate place arrangement) (relocate place span)) :=
  .ite Iff.rfl (.ok arrangement.held) (relocated_takeUp arrangement.held (.application span))

theorem relocated_takeLeading (table : OperatorTable) (held : Stacks) (op : OperatorUse) :
    Relocated place (relocate place) (takeLeading table held op)
      (takeLeading table (relocate place held) (relocate place op)) := by
  unfold takeLeading
  have hname : (relocate place op).name = op.name := rfl
  rw [hname]
  cases table.lookupName op.name .prefixOp with
  | some entry => exact .ok (⟨held.pushPending (.prefixed op entry), true⟩ : Arrangement)
  | none =>
    exact .ite Iff.rfl (.error (missingOperand op .left) nofun) (.error (undeclared op) nofun)

theorem relocated_takeFollowing (table : OperatorTable) (held : Stacks) (isLast : Bool)
    (op : OperatorUse) :
    Relocated place (relocate place) (takeFollowing table held isLast op)
      (takeFollowing table (relocate place held) isLast (relocate place op)) := by
  have hbehind (entry : OperatorEntry) : Relocated place (relocate place)
      (do return Arrangement.mk (← held.takePostfix op entry) false)
      (do return ⟨← (relocate place held).takePostfix (relocate place op) entry, false⟩) :=
    (relocated_takePostfix held op entry).bind fun applied => .ok (Arrangement.mk applied false)
  have hbetween (entry : OperatorEntry) : Relocated place (relocate place)
      (do return Arrangement.mk (← held.takeUp (.binary op entry)) true)
      (do return ⟨← (relocate place held).takeUp (.binary (relocate place op) entry), true⟩) :=
    (relocated_takeUp held (.binary op entry)).bind fun applied =>
      .ok (Arrangement.mk applied true)
  unfold takeFollowing
  have hname : (relocate place op).name = op.name := rfl
  rw [hname]
  cases table.lookupName op.name .infixOp <;> cases table.lookupName op.name .postfixOp
  case none.none =>
    cases table.lookupName op.name .prefixOp with
    | none => exact .error (undeclared op) nofun
    | some entry =>
      exact (relocated_takeUp held (.application op.span)).bind fun applied =>
        .ok (Arrangement.mk (applied.pushPending (.prefixed op entry)) true)
  case none.some entry => exact hbehind entry
  case some.none entry => exact hbetween entry
  case some.some entry behind => exact .ite Iff.rfl (hbehind behind) (hbetween entry)

theorem relocated_takeStep (table : OperatorTable) (arrangement : Arrangement) (isLast : Bool)
    (step : Step) :
    Relocated place (relocate place) (takeStep table arrangement isLast step)
      (takeStep table (relocate place arrangement) isLast (relocate place step)) := by
  cases step with
  | operand operand =>
    have hargument : Relocated place (relocate place) (takeArgument arrangement operand.span)
        (takeArgument (relocate place arrangement) (relocate place operand.span)) :=
      relocated_takeArgument arrangement operand.span
    rw [← span_relocate_expr] at hargument
    exact hargument.bind fun held => .ok (Arrangement.mk (held.pushOperand operand) false)
  | conditional condition thenBranch span =>
    exact (relocated_takeArgument arrangement span).bind fun held =>
      .ok (Arrangement.mk (held.pushPending (.conditional condition thenBranch span)) true)
  | operator op =>
    exact .ite Iff.rfl (relocated_takeLeading table arrangement.held op)
      (relocated_takeFollowing table arrangement.held isLast op)

theorem relocated_takeSteps (table : OperatorTable) (arrangement : Arrangement)
    (steps : List Step) :
    Relocated place (relocate place) (takeSteps table arrangement steps)
      (takeSteps table (relocate place arrangement) (relocate place steps)) := by
  induction steps generalizing arrangement with
  | nil => exact .ok arrangement
  | cons step rest ih =>
    rw [relocate_list, List.map_cons, takeSteps, takeSteps, List.isEmpty_map]
    exact (relocated_takeStep table arrangement rest.isEmpty step).bind ih

theorem relocated_arrange (table : OperatorTable) (span : Span) (steps : List Step) :
    Relocated place (relocate place) (arrange table span steps)
      (arrange table (relocate place span) (relocate place steps)) := by
  unfold arrange
  refine (relocated_takeSteps table ⟨⟨[], []⟩, true⟩ steps).bind fun final => .ite Iff.rfl ?_ ?_
  · obtain ⟨⟨operands, pending⟩, expectsOperand⟩ := final
    cases pending with
    | nil => exact .error ⟨.missingOperand "" .right, span⟩ nofun
    | cons top rest =>
      cases top <;> exact .error ⟨.missingOperand _ .right, _⟩ nofun
  · refine (relocated_applyAll final.held.operands final.held.pending).bind fun operands => ?_
    match operands with
    | [expr] => exact .ok expr
    | [] => exact .error ⟨.emptyRun, span⟩ nofun
    | first :: second :: rest => exact .error ⟨.emptyRun, span⟩ nofun

end Arranging

/-! ## Sections and groups -/

section Sections

variable {place : Relocation} (table : OperatorTable)

def RelocatedReading (place : Relocation) : Reading → Reading → Prop :=
  List.Forall₂ (Relocated place (relocate place))

variable {readings others : Reading} (h : RelocatedReading place readings others)

include h

theorem relocated_assemble (span : Span) :
    Relocated place (relocate place) (assemble table span readings)
      (assemble table (relocate place span) others) := by
  refine .ite ?_ (.error ⟨.emptyRun, span⟩ nofun) ?_
  · rw [List.isEmpty_iff_length_eq_zero, List.isEmpty_iff_length_eq_zero, h.length_eq]
  · exact (relocated_mapM h).bind fun steps => relocated_arrange table span steps

theorem relocated_assembleOpen (op : OperatorUse) (hole : Hole) (operandSpan span : Span)
    (hasInfix : Bool) (side : OperandSide) :
    Relocated place (relocate place)
      (assembleSection.assembleOpen table op hole readings operandSpan span hasInfix side)
      (assembleSection.assembleOpen table (relocate place op) hole others
        (relocate place operandSpan) (relocate place span) hasInfix side) := by
  refine .ite Iff.rfl ?_ (.ite Iff.rfl ?_ ?_)
  · exact (relocated_assemble table h operandSpan).bind fun operand =>
      .ok (Expr.partialApply op operand hole span)
  · exact .error (missingOperand op side) nofun
  · exact .error (undeclared op) nofun

theorem relocated_assembleSection (op : OperatorUse) (hole : Hole) (operandSpan span : Span) :
    Relocated place (relocate place)
      (assembleSection table op hole readings operandSpan span)
      (assembleSection table (relocate place op) hole others (relocate place operandSpan)
        (relocate place span)) := by
  have hoperator : Relocated place (relocate place) (.ok (Step.operator op))
      (.ok (.operator (relocate place op))) := .ok (Step.operator op)
  cases hole with
  | left =>
    exact .ite Iff.rfl (relocated_assemble table (.cons hoperator h) span)
      (relocated_assembleOpen table h op .left operandSpan span _ .left)
  | right =>
    have hbehind := List.rel_append h (.cons hoperator .nil)
    exact .ite Iff.rfl (relocated_assemble table hbehind span)
      (relocated_assembleOpen table h op .right operandSpan span _ .right)

end Sections

section Groups

variable (place : Relocation) (table : OperatorTable)

theorem wordOperator_relocate (item : RunItem) :
    wordOperator? table (relocate place item) = relocate place (wordOperator? table item) := by
  cases item with
  | atom a =>
    cases a with
    | identifier name span =>
      change ite _ _ _ = Option.map _ (ite _ _ _)
      split <;> rfl
    | _ => rfl
  | operator op => rfl
  | conditional condition thenBranch span => rfl

theorem relocated_assembleGroup {readings others : Reading}
    (h : RelocatedReading place readings others) (items : List RunItem) (runSpan span : Span) :
    Relocated place (relocate place) (assembleGroup table items readings runSpan span)
      (assembleGroup table (relocate place items) others (relocate place runSpan)
        (relocate place span)) := by
  have hword (item? : Option RunItem) : (item?.map (relocate place)).bind (wordOperator? table) =
      (item?.bind (wordOperator? table)).map (relocate place) := by
    cases item? with
    | none => rfl
    | some item => exact wordOperator_relocate place table item
  unfold assembleGroup
  rw [relocate_list, List.head?_map, List.getLast?_map, hword, hword]
  cases items.head?.bind (wordOperator? table) with
  | some op =>
    refine .ite (by rw [List.length_map]) (.ok (Expr.operatorLiteral op span)) ?_
    have htail : RelocatedReading place readings.tail others.tail := by
      cases h with
      | nil => exact .nil
      | cons _ hrest => exact hrest
    have hspan := relocate_itemsSpan place items.tail span
    rw [relocate_list, List.map_tail] at hspan
    rw [← hspan]
    exact relocated_assembleSection table htail op .left _ span
  | none =>
    cases items.getLast?.bind (wordOperator? table) with
    | some op =>
      have hfront : RelocatedReading place readings.dropLast others.dropLast := by
        rw [List.dropLast_eq_take, List.dropLast_eq_take, h.length_eq]
        exact List.forall₂_take _ h
      have hspan := relocate_itemsSpan place items.dropLast span
      rw [relocate_list, List.map_dropLast] at hspan
      dsimp only [Option.map]
      rw [← hspan]
      exact relocated_assembleSection table hfront op .right _ span
    | none => exact relocated_assemble table h runSpan

end Groups

/-! ## Runs, at any depth -/

section Runs

variable (place : Relocation) (table : OperatorTable)

theorem relocated_container (bracket : Bracket) (body : ContainerBody) (span : Span)
    (hgroup : ∀ items runSpan, body = .elements [⟨items, runSpan⟩] none false none →
      Relocated place (relocate place)
        (assembleGroup table items (readItems table items) runSpan span)
        (assembleGroup table (relocate place items) (readItems table (relocate place items))
          (relocate place runSpan) (relocate place span)))
    (hbody : Relocated place (relocate place) (body.resolve table bracket span)
      ((relocate place body).resolve table bracket (relocate place span))) :
    Relocated place (relocate place) ((Atom.container bracket body span).resolve table)
      ((relocate place (Atom.container bracket body span)).resolve table) := by
  by_cases hsingle : ∃ items runSpan, bracket = .paren ∧
      body = .elements [⟨items, runSpan⟩] none false none
  · obtain ⟨items, runSpan, rfl, rfl⟩ := hsingle
    have h := hgroup items runSpan rfl
    rw [← relocatedItems_eq] at h
    exact h
  · have hplain : (Atom.container bracket body span).resolve table =
        body.resolve table bracket span := by
      rw [Atom.resolve]
      intro items runSpan hbracket hbody
      exact hsingle ⟨items, runSpan, hbracket, hbody⟩
    have hplain' : (relocate place (Atom.container bracket body span)).resolve table =
        (relocate place body).resolve table bracket (relocate place span) := by
      change (Atom.container bracket (body.relocated place) (relocate place span)).resolve table = _
      rw [Atom.resolve]
      · rfl
      · intro items runSpan hbracket hbody'
        -- Only a single run is relocated to a single run.
        match body with
        | .elements [⟨inner, innerSpan⟩] none false none =>
          exact hsingle ⟨inner, innerSpan, hbracket, rfl⟩
    rw [hplain, hplain']
    exact hbody

mutual

theorem Run.relocated_resolve : ∀ run : Run,
    Relocated place (relocate place) (run.resolve table) ((relocate place run).resolve table)
  | ⟨items, span⟩ => relocated_assemble table (relocated_readItems items) span

theorem relocated_readItems : ∀ items : List RunItem,
    RelocatedReading place (readItems table items) (readItems table (relocatedItems place items))
  | [] => .nil
  | item :: rest => .cons item.relocated_read (relocated_readItems rest)

theorem RunItem.relocated_read : ∀ item : RunItem,
    Relocated place (relocate place) (item.read table) ((relocate place item).read table)
  | .operator op => .ok (Step.operator op)
  | .atom a => by
    have hword := wordOperator_relocate place table (.atom a)
    change wordOperator? table (.atom (a.relocated place)) = _ at hword
    change Relocated place _ _ ((RunItem.atom (a.relocated place)).read table)
    rw [RunItem.read, RunItem.read, hword]
    cases wordOperator? table (.atom a) with
    | some op => exact .ok (Step.operator op)
    | none => exact a.relocated_resolve.bind fun operand => .ok (Step.operand operand)
  | .conditional condition thenBranch span =>
    condition.relocated_resolve.bind fun test =>
      (relocated_resolveOption thenBranch).bind fun branch =>
        .ok (Step.conditional test branch span)

theorem Atom.relocated_resolve : ∀ a : Atom,
    Relocated place (relocate place) (a.resolve table) ((relocate place a).resolve table)
  | .identifier name span => .ok (Expr.identifier name span)
  | .declared name span => .ok (Expr.declared name span)
  | .typed name typeName span => .ok (Expr.typed name typeName span)
  | .number literal span => .ok (Expr.number literal span)
  | .string value span => .ok (Expr.string value span)
  | .operatorLiteral op span => .ok (Expr.operatorLiteral op span)
  | .partialApply op ⟨items, operandSpan⟩ hole span =>
    relocated_assembleSection table (relocated_readItems items) op hole operandSpan span
  | .lambda [] _ span => .error ⟨.malformedLambda "no parameters before `.`", span⟩ nofun
  | .lambda (first :: rest) body span =>
    (relocated_resolveParameters (first :: rest)).bind fun parameters =>
      body.relocated_resolve.bind fun inner => .of_eq (relocate_lambda place parameters inner span)
  | .container bracket body span => by
    refine relocated_container place table bracket body span ?_
      (body.relocated_resolve bracket span)
    rintro items runSpan rfl
    have hitems := relocated_readItems items
    rw [relocatedItems_eq] at hitems
    exact relocated_assembleGroup place table hitems items runSpan span

theorem relocated_resolveParameters : ∀ items : List RunItem,
    Relocated place (relocate place) (resolveParameters table items)
      (resolveParameters table (relocatedItems place items))
  | [] => .ok []
  | .atom a :: rest =>
    a.relocated_resolve.bind fun first =>
      (relocated_resolveParameters rest).bind fun others => .ok (first :: others)
  | .operator op :: _ => .error ⟨.malformedLambda _, op.span⟩ nofun
  | .conditional _ _ span :: _ => .error ⟨.malformedLambda _, span⟩ nofun

theorem ContainerBody.relocated_resolve (bracket : Bracket) (span : Span) : ∀ body : ContainerBody,
    Relocated place (relocate place) (body.resolve table bracket span)
      ((relocate place body).resolve table bracket (relocate place span))
  | .empty => .ok (Expr.collection bracket [] none none span)
  | .elements runs separator _ tail =>
    (relocated_resolveAll runs).bind fun elements =>
      (relocated_resolveOption tail).bind fun last =>
        .of_eq (relocate_collection place bracket elements separator last span)
  | .enumeration runs bound =>
    (relocated_resolveAll runs).bind fun elements =>
      (relocated_resolveOption bound).bind fun last =>
        .of_eq (relocate_enumeration place bracket elements last span)
  | .comprehension template generators =>
    template.relocated_resolve.bind fun first =>
      (relocated_resolveAll generators).bind fun others =>
        .of_eq (relocate_comprehension place bracket first others span)

theorem relocated_resolveAll : ∀ runs : List Run,
    Relocated place (relocate place) (resolveAll table runs)
      (resolveAll table (relocatedRuns place runs))
  | [] => .ok []
  | run :: rest =>
    run.relocated_resolve.bind fun first =>
      (relocated_resolveAll rest).bind fun others => .ok (first :: others)

theorem relocated_resolveOption : ∀ run : Option Run,
    Relocated place (relocate place) (resolveOption table run)
      (resolveOption table (relocatedOption place run))
  | none => .ok none
  | some run => run.relocated_resolve.bind fun value => .ok (some value)

end

end Runs

/-! ## Declaring -/

theorem relocated_levelIn (place : Relocation) (table : OperatorTable) (span : Span)
    (spec : PrecedenceSpec) :
    Relocated place id (spec.levelIn table span) (spec.levelIn table (relocate place span)) := by
  have hchecked (n : Nat) : Relocated place id (PrecedenceSpec.levelIn.checked span n)
      (PrecedenceSpec.levelIn.checked (relocate place span) n) :=
    .ite Iff.rfl (.error ⟨.invalidPrecedence (toString n), span⟩ nofun) (.ok n)
  cases spec with
  | level n => exact hchecked n
  | sameAs name =>
    unfold PrecedenceSpec.levelIn
    dsimp only
    cases table.anyEntry name with
    | some entry => exact hchecked entry.precedence
    | none => exact .error ⟨.undeclaredOperator name.text, span⟩ nofun

theorem relocated_declared (place : Relocation) (table : OperatorTable) (header : Header) :
    Relocated place id (table.declared header) (table.declared (relocate place header)) := by
  match header with
  | .binding name value span => exact .ok (table, none)
  | .symbol (.identifier name) parameters precedence knownAs span => exact .ok (table, none)
  | .symbol (.operator name) parameters none knownAs span => exact .ok (table, none)
  | .symbol (.operator name) parameters (some precedence) knownAs span =>
    refine (relocated_levelIn place table span precedence).bind fun level => ?_
    cases knownAs <;> exact .ok _

end Equational

import Equational.Proofs.Expr.Group
import Equational.Proofs.Expr.Placement
import Equational.Proofs.Grouping.Uniqueness
import Equational.Proofs.Run.Parenthesized

/-!
# Legible expressions

An expression is legible if some tokens write it.  The nodes that operators make are legible if
their operands and the operators are, and so is what brackets are resolved to if the items in them
are.  A variable with a type has no place but among the parameters of a lambda, which are written as
they stand in a source.
-/

namespace Equational

/-! ## Runs without types -/

mutual

/-- No variable has a type, except for parameters of lambdas. -/
def Run.isUntyped : Run → Bool
  | ⟨items, _⟩ => itemsUntyped items

def itemsUntyped : List RunItem → Bool
  | [] => true
  | item :: rest => item.isUntyped && itemsUntyped rest

def RunItem.isUntyped : RunItem → Bool
  | .atom a => a.isUntyped
  | .operator _ => true
  | .conditional condition thenBranch _ => condition.isUntyped && optionUntyped thenBranch

def Atom.isUntyped : Atom → Bool
  | .typed _ _ _ => false
  | .container _ body _ => body.isUntyped
  | .partialApply _ operand _ _ => operand.isUntyped
  | .lambda _ body _ => body.isUntyped
  | .identifier _ _ | .declared _ _ | .number _ _ | .string _ _ | .operatorLiteral _ _ => true

def ContainerBody.isUntyped : ContainerBody → Bool
  | .empty => true
  | .elements runs _ _ tail => runsUntyped runs && optionUntyped tail
  | .enumeration runs bound => runsUntyped runs && optionUntyped bound
  | .comprehension template generators => template.isUntyped && runsUntyped generators

def runsUntyped : List Run → Bool
  | [] => true
  | run :: rest => run.isUntyped && runsUntyped rest

def optionUntyped : Option Run → Bool
  | none => true
  | some run => run.isUntyped

end

private theorem itemsUntyped_iff {items : List RunItem} :
    itemsUntyped items ↔ ∀ item ∈ items, item.isUntyped := by
  induction items with
  | nil => simp [itemsUntyped]
  | cons item rest ih => simp [itemsUntyped, ih]

theorem Run.isUntyped_iff {run : Run} : run.isUntyped ↔ ∀ item ∈ run.items, item.isUntyped := by
  obtain ⟨items, span⟩ := run
  rw [Run.isUntyped]
  exact itemsUntyped_iff

private theorem runsUntyped_iff {runs : List Run} :
    runsUntyped runs ↔ ∀ run ∈ runs, run.isUntyped := by
  induction runs with
  | nil => simp [runsUntyped]
  | cons run rest ih => simp [runsUntyped, ih]

private theorem optionUntyped_iff {run : Option Run} :
    optionUntyped run ↔ ∀ inner ∈ run.toList, inner.isUntyped := by
  cases run <;> simp [optionUntyped]

theorem ContainerBody.isUntyped_iff {body : ContainerBody} :
    body.isUntyped ↔ ∀ run ∈ body.runs, run.isUntyped := by
  cases body <;>
    simp only [ContainerBody.isUntyped, ContainerBody.runs, Bool.and_eq_true, runsUntyped_iff,
      optionUntyped_iff, List.forall_mem_append, List.forall_mem_cons, List.not_mem_nil,
      false_implies, implies_true]

private theorem isUntyped_operatorForm {run : Run} {span : Span} {a : Atom}
    (h : operatorForm? run span = some a) : a.isUntyped = run.isUntyped := by
  rw [Bool.eq_iff_iff, run.isUntyped_iff]
  unfold operatorForm? at h
  split at h
  · rename_i hitems
    cases h
    simp [hitems, Atom.isUntyped, RunItem.isUntyped]
  · rename_i op rest _ hitems
    cases h
    rw [hitems, List.forall_mem_cons, Atom.isUntyped, Run.isUntyped_iff]
    exact (and_iff_right rfl).symm
  · split at h
    · rename_i op hlast
      cases h
      obtain ⟨front, hitems⟩ := List.getLast?_eq_some_iff.mp hlast
      rw [hitems, List.dropLast_concat, List.forall_mem_append, List.forall_mem_singleton,
        Atom.isUntyped, Run.isUntyped_iff]
      exact (and_iff_left rfl).symm
    · cases h

theorem isUntyped_closedContainer (bracket : Bracket) (body : ContainerBody) (span : Span) :
    (closedContainer bracket body span).isUntyped = body.isUntyped := by
  unfold closedContainer
  split
  · rename_i run
    have hbody : (ContainerBody.elements [run] none false none).isUntyped = run.isUntyped := by
      simp [ContainerBody.isUntyped, runsUntyped, optionUntyped]
    rw [hbody]
    cases hform : operatorForm? run span with
    | none => exact hbody
    | some a => exact isUntyped_operatorForm hform
  · rfl

/-! ## Expressions and operators -/

variable (table : OperatorTable) (source : List Token)

def Expr.Legible (e : Expr) : Prop := ∃ faces, Parenthesized table source .inside e faces

def OperatorUse.Legible (op : OperatorUse) : Prop := ∃ faces, Spells table op.name faces

def Leading.Legible : Leading → Prop
  | prefixed op _ => op.Legible table
  | conditional condition thenBranch _ =>
    condition.Legible table source ∧ ∀ branch ∈ thenBranch, branch.Legible table source

def Part.Legible : Part → Prop
  | operand value => value.Legible table source
  | leading operator => operator.Legible table source
  | joining (.binary op _) => op.Legible table
  | joining (.application _) | trailing _ => True

def Step.Legible : Step → Prop
  | operand value => value.Legible table source
  | operator op => op.Legible table
  | conditional condition thenBranch span =>
    (Leading.conditional condition thenBranch span).Legible table source

def ReadingLegible (reading : Except Diagnostic Step) : Prop :=
  ∀ step, reading = .ok step → step.Legible table source

variable {table source}

theorem Expr.Legible.anywhere {e : Expr} (h : e.Legible table source) :
    ∃ faces, Parenthesized table source .anywhere e faces := by
  obtain ⟨faces, h⟩ := h
  exact ⟨_, .group h⟩

theorem Expr.legible_of_anywhere {e : Expr} {faces : List Face}
    (h : Parenthesized table source .anywhere e faces) : e.Legible table source := ⟨_, .alone h⟩

/-! ## Groupings -/

theorem legible_conditionalNode {condition last : Expr} {thenBranch : Option Expr} {span : Span}
    (hconditional : (Leading.conditional condition thenBranch span).Legible table source)
    (hlast : last.Legible table source) :
    (conditionalNode condition thenBranch span last).Legible table source := by
  obtain ⟨hcondition, hbranch⟩ := hconditional
  obtain ⟨_, hcondition⟩ := hcondition.anywhere
  obtain ⟨_, hlast⟩ := hlast.anywhere
  cases thenBranch with
  | none => exact ⟨_, .withoutElse hcondition hlast⟩
  | some branch =>
    obtain ⟨_, hbranch⟩ := (hbranch branch rfl).anywhere
    exact ⟨_, .withElse hcondition hbranch hlast⟩

theorem Grouping.legible_expr (htable : table.HasNoPostfix) {g : Grouping}
    (hlegible : ∀ part ∈ g.parts, part.Legible table source)
    (hdeclared : ∀ part ∈ g.parts, part.Declared table) : g.expr.Legible table source := by
  induction g with
  | leaf value => exact hlegible _ List.mem_cons_self
  | leading operator operand ih =>
    obtain ⟨hoperator, hlegible⟩ := List.forall_mem_cons.mp hlegible
    obtain ⟨hentry, hdeclared⟩ := List.forall_mem_cons.mp hdeclared
    have hoperand := ih hlegible hdeclared
    cases operator with
    | prefixed op entry =>
      obtain ⟨_, hspells⟩ := hoperator
      obtain ⟨_, hoperand⟩ := hoperand
      exact ⟨_, .prefixed (Option.isSome_of_eq_some hentry) hspells hoperand⟩
    | conditional condition thenBranch span => exact legible_conditionalNode hoperator hoperand
  | joining operator left right ihLeft ihRight =>
    obtain ⟨hlegible, hlegible'⟩ := List.forall_mem_append.mp hlegible
    obtain ⟨hdeclared, hdeclared'⟩ := List.forall_mem_append.mp hdeclared
    obtain ⟨hoperator, hlegible'⟩ := List.forall_mem_cons.mp hlegible'
    obtain ⟨hentry, hdeclared'⟩ := List.forall_mem_cons.mp hdeclared'
    obtain ⟨_, hleft⟩ := ihLeft hlegible hdeclared
    obtain ⟨_, hright⟩ := ihRight hlegible' hdeclared'
    cases operator with
    | binary op entry =>
      obtain ⟨_, hspells⟩ := hoperator
      exact ⟨_, .binary (Option.isSome_of_eq_some hentry) hspells hleft hright⟩
    | application span => exact ⟨_, .apply hleft hright⟩
  | trailing operator operand ih =>
    have hentry : table.lookupName operator.op.name .postfixOp = some operator.entry :=
      hdeclared (.trailing operator) (by simp [Grouping.parts])
    rw [htable.lookupName_eq_none] at hentry
    cases hentry

/-! ## Steps and readings -/

theorem legible_argumentParts (expectsOperand : Bool) (span : Span) {part : Part}
    (h : part.Legible table source) :
    ∀ other ∈ argumentParts expectsOperand span ++ [part], other.Legible table source := by
  cases expectsOperand with
  | true => exact List.forall_mem_singleton.mpr h
  | false => exact List.forall_mem_cons.mpr ⟨trivial, List.forall_mem_singleton.mpr h⟩

theorem Step.legible_parts {step : Step} {expectsOperand isLast next : Bool} {parts : List Part}
    (h : step.Legible table source)
    (hparts : step.parts? table expectsOperand isLast = some (parts, next)) :
    ∀ part ∈ parts, part.Legible table source := by
  cases step with
  | operand value =>
    cases hparts
    exact legible_argumentParts expectsOperand value.span h
  | conditional condition thenBranch span =>
    cases hparts
    exact legible_argumentParts expectsOperand span h
  | operator op =>
    cases expectsOperand with
    | true =>
      obtain ⟨entry, -, hleading⟩ := Option.map_eq_some_iff.mp hparts
      cases hleading
      exact List.forall_mem_singleton.mpr h
    | false =>
      rcases followingParts?_cases hparts with
        ⟨entry, -, rfl, -⟩ | ⟨entry, -, rfl, -⟩ | ⟨entry, -, rfl, -⟩
      · exact List.forall_mem_singleton.mpr trivial
      · exact List.forall_mem_singleton.mpr h
      · have hleading : (Part.leading (.prefixed op entry)).Legible table source := h
        exact legible_argumentParts false op.span hleading

theorem legible_of_assemble (htable : table.HasNoPostfix) {readings : Reading} {span : Span}
    {e : Expr} (h : ∀ reading ∈ readings, ReadingLegible table source reading)
    (hassemble : assemble table span readings = .ok e) : e.Legible table source := by
  obtain ⟨steps, g, hsteps, hparts, rfl⟩ := grouping_of_assemble hassemble
  have hlegible : ∀ step ∈ steps, step.Legible table source := by
    intro step hstep
    refine h (.ok step) ?_ step rfl
    rw [mapM_eq_ok hsteps]
    exact List.mem_map_of_mem hstep
  refine Grouping.legible_expr htable ?_ (declared_of_partsOf hparts)
  exact forall_mem_partsOf (fun step hstep => Step.legible_parts (hlegible step hstep)) hparts

/-! ## Sections and groups -/

private theorem Hole.forall_mem_readings {P : Except Diagnostic Step → Prop} {hole : Hole}
    {op : OperatorUse} {operand : Reading} (h : ∀ reading ∈ hole.readings op operand, P reading) :
    P (.ok (.operator op)) ∧ ∀ reading ∈ operand, P reading := by
  cases hole with
  | left => exact List.forall_mem_cons.mp h
  | right =>
    obtain ⟨hoperand, hop⟩ := List.forall_mem_append.mp h
    exact ⟨List.forall_mem_singleton.mp hop, hoperand⟩

theorem legible_of_assembleSection (htable : table.HasNoPostfix) {op : OperatorUse} {hole : Hole}
    {operand : Reading} {operandSpan span : Span} {e : Expr}
    (h : ∀ reading ∈ hole.readings op operand, ReadingLegible table source reading)
    (hsection : assembleSection table op hole operand operandSpan span = .ok e) :
    e.Legible table source := by
  rcases assembleSection_cases hsection with hall | ⟨inner, hinner, rfl, hinfixed, hprefixed⟩
  · exact legible_of_assemble htable h hall
  · obtain ⟨hop, hoperand⟩ := Hole.forall_mem_readings h
    obtain ⟨_, hspells⟩ : op.Legible table := hop _ rfl
    obtain ⟨_, hinner⟩ := legible_of_assemble htable hoperand hinner
    cases hole with
    | left => exact ⟨_, .openLeft hinfixed (hprefixed rfl) hspells hinner⟩
    | right => exact ⟨_, .openRight hinfixed hspells hinner⟩

theorem legible_operatorLiteral {op : OperatorUse} {span : Span} (h : op.Legible table) :
    (Expr.operatorLiteral op span).Legible table source := by
  obtain ⟨_, hspells⟩ := h
  exact ⟨_, .literal hspells⟩

theorem legible_of_assembleGroup (htable : table.HasNoPostfix) {items : List RunItem}
    {runSpan span : Span} {e : Expr}
    (h : ∀ reading ∈ readItems table items, ReadingLegible table source reading)
    (hgroup : assembleGroup table items (readItems table items) runSpan span = .ok e) :
    e.Legible table source := by
  rcases assembleGroup_cases hgroup with
    ⟨op, hreadings, rfl⟩ | ⟨op, hole, operand, operandSpan, hreadings, hsection⟩ | hall
  · rw [hreadings] at h
    exact legible_operatorLiteral (List.forall_mem_singleton.mp h _ rfl)
  · rw [hreadings] at h
    exact legible_of_assembleSection htable h hsection
  · exact legible_of_assemble htable h hall

/-! ## Runs and items -/

variable (table source) in
/-- Unless a variable in it has a type, the item is read as a legible step. -/
def RunItem.Legible (item : RunItem) : Prop :=
  item.isUntyped → ReadingLegible table source (item.read table)

variable (table source) in
def Run.Legible (run : Run) : Prop := ∀ item ∈ run.items, item.Legible table source

theorem legible_readItems {items : List RunItem} (h : ∀ item ∈ items, item.Legible table source)
    (huntyped : ∀ item ∈ items, item.isUntyped) :
    ∀ reading ∈ readItems table items, ReadingLegible table source reading := by
  rw [readItems_eq_map]
  exact List.forall_mem_map.mpr fun item hitem => h item hitem (huntyped item hitem)

theorem Run.legible_resolve (htable : table.HasNoPostfix) {run : Run} {e : Expr}
    (h : run.Legible table source) (huntyped : run.isUntyped)
    (hresolve : run.resolve table = .ok e) : e.Legible table source := by
  have hreadings := legible_readItems h (Run.isUntyped_iff.mp huntyped)
  obtain ⟨items, span⟩ := run
  exact legible_of_assemble htable hreadings hresolve

theorem RunItem.legible_of_resolve {a : Atom}
    (hword : ∀ op, wordOperator? table (.atom a) = some op → op.Legible table)
    (h : wordOperator? table (.atom a) = none → a.isUntyped →
      ∀ e, a.resolve table = .ok e → e.Legible table source) :
    (RunItem.atom a).Legible table source := by
  intro huntyped step hstep
  cases hop : wordOperator? table (.atom a) with
  | some op =>
    obtain rfl := Except.ok.inj ((read_of_wordOperator hop).symm.trans hstep)
    exact hword op hop
  | none =>
    simp only [RunItem.read, hop] at hstep
    obtain ⟨e, he, hoperand⟩ := bind_eq_ok_iff.mp hstep
    cases hoperand
    exact h hop huntyped e he

theorem RunItem.legible_conditional (htable : table.HasNoPostfix) {condition : Run}
    {thenBranch : Option Run} {span : Span} (hcondition : condition.Legible table source)
    (hbranch : ∀ branch ∈ thenBranch, branch.Legible table source) :
    (RunItem.conditional condition thenBranch span).Legible table source := by
  intro huntyped step hstep
  rw [RunItem.isUntyped, Bool.and_eq_true] at huntyped
  obtain ⟨test, htest, hrest⟩ := bind_eq_ok_iff.mp hstep
  obtain ⟨branch, hresolve, hconditional⟩ := bind_eq_ok_iff.mp hrest
  cases hconditional
  refine ⟨Run.legible_resolve htable hcondition huntyped.1 htest, fun e he => ?_⟩
  cases thenBranch with
  | none =>
    cases hresolve
    cases he
  | some run =>
    obtain ⟨inner, hinner, hvalue⟩ := bind_eq_ok_iff.mp hresolve
    cases hvalue
    cases he
    exact Run.legible_resolve htable (hbranch run rfl) huntyped.2 hinner

/-! ## Brackets -/

/-- The forms that a container has, as far as the numbers of its parts go. -/
inductive ContainerBody.IsFormed : ContainerBody → Prop where
  | empty : IsFormed .empty
  | single {run : Run} {tail : Option Run} : IsFormed (.elements [run] none false tail)
  | several {first second : Run} {more : List Run} {separator : Separator} {tail : Option Run} :
    IsFormed (.elements (first :: second :: more) (some separator) false tail)
  | trailing {first : Run} {more : List Run} {separator : Separator} :
    IsFormed (.elements (first :: more) (some separator) true none)
  | enumeration {first : Run} {more : List Run} {bound : Option Run} :
    IsFormed (.enumeration (first :: more) bound)
  | comprehension {template first : Run} {more : List Run} :
    IsFormed (.comprehension template (first :: more))

variable (table source) in
def Run.Reveals (run : Run) : Prop := ∀ e, run.resolve table = .ok e → e.Legible table source

theorem exists_pieces {runs : List Run} {es : List Expr}
    (h : ∀ run ∈ runs, run.Reveals table source) (hresolve : resolveAll table runs = .ok es) :
    ∃ pieces : List (Expr × List Face), es = pieces.map Prod.fst ∧
      (∀ piece ∈ pieces, Parenthesized table source .anywhere piece.1 piece.2) ∧
      pieces.length = runs.length := by
  induction runs generalizing es with
  | nil =>
    cases hresolve
    exact ⟨[], rfl, by simp, rfl⟩
  | cons run rest ih =>
    obtain ⟨hrun, hrest⟩ := List.forall_mem_cons.mp h
    obtain ⟨e, he, hvalues⟩ := bind_eq_ok_iff.mp hresolve
    obtain ⟨others, hothers, hvalues⟩ := bind_eq_ok_iff.mp hvalues
    cases hvalues
    obtain ⟨faces, hfaces⟩ := (hrun e he).anywhere
    obtain ⟨pieces, rfl, hpieces, hlength⟩ := ih hrest hothers
    exact ⟨(e, faces) :: pieces, rfl, List.forall_mem_cons.mpr ⟨hfaces, hpieces⟩,
      congrArg Nat.succ hlength⟩

theorem exists_first_piece {first : Run} {more : List Run} {es : List Expr}
    (h : ∀ run ∈ first :: more, run.Reveals table source)
    (hresolve : resolveAll table (first :: more) = .ok es) :
    ∃ (piece : Expr × List Face) (pieces : List (Expr × List Face)),
      es = piece.1 :: pieces.map Prod.fst ∧
      Parenthesized table source .anywhere piece.1 piece.2 ∧
      (∀ other ∈ pieces, Parenthesized table source .anywhere other.1 other.2) ∧
      pieces.length = more.length := by
  obtain ⟨pieces, rfl, hpieces, hlength⟩ := exists_pieces h hresolve
  cases pieces with
  | nil => cases hlength
  | cons piece pieces =>
    obtain ⟨hpiece, hpieces⟩ := List.forall_mem_cons.mp hpieces
    exact ⟨piece, pieces, rfl, hpiece, hpieces, Nat.succ.inj hlength⟩

theorem exists_optional_piece {run : Option Run} {e : Option Expr}
    (h : ∀ inner ∈ run.toList, inner.Reveals table source)
    (hresolve : resolveOption table run = .ok e) :
    ∃ piece : Option (Expr × List Face), e = piece.map Prod.fst ∧
      (∀ inner ∈ piece, Parenthesized table source .anywhere inner.1 inner.2) ∧
      (piece = none → run = none) := by
  cases run with
  | none =>
    cases hresolve
    exact ⟨none, rfl, by simp, fun _ => rfl⟩
  | some run =>
    obtain ⟨inner, hinner, hvalue⟩ := bind_eq_ok_iff.mp hresolve
    cases hvalue
    obtain ⟨faces, hfaces⟩ := (List.forall_mem_singleton.mp h inner hinner).anywhere
    refine ⟨some (inner, faces), rfl, ?_, by simp⟩
    rintro _ ⟨⟩
    exact hfaces

theorem ContainerBody.legible_resolve {body : ContainerBody} {bracket : Bracket} {span : Span}
    {e : Expr} (hformed : body.IsFormed) (h : ∀ run ∈ body.runs, run.Reveals table source)
    (hplain : ∀ run, bracket = .paren → body ≠ .elements [run] none false none)
    (hresolve : body.resolve table bracket span = .ok e) : e.Legible table source := by
  cases hformed with
  | empty =>
    cases hresolve
    exact Expr.legible_of_anywhere .empty
  | single =>
    obtain ⟨hruns, htail⟩ := List.forall_mem_append.mp h
    obtain ⟨es, hes, hrest⟩ := bind_eq_ok_iff.mp hresolve
    obtain ⟨last, hlast, hnode⟩ := bind_eq_ok_iff.mp hrest
    cases hnode
    obtain ⟨piece, pieces, rfl, hpiece, -, hlength⟩ := exists_first_piece hruns hes
    obtain ⟨tail, rfl, htail, hnone⟩ := exists_optional_piece htail hlast
    obtain rfl := List.length_eq_zero_iff.mp hlength
    refine Expr.legible_of_anywhere (.single hpiece htail fun htail hbracket => ?_)
    exact hplain _ hbracket (by rw [hnone htail])
  | several =>
    obtain ⟨hruns, htail⟩ := List.forall_mem_append.mp h
    obtain ⟨es, hes, hrest⟩ := bind_eq_ok_iff.mp hresolve
    obtain ⟨last, hlast, hnode⟩ := bind_eq_ok_iff.mp hrest
    cases hnode
    obtain ⟨piece, pieces, rfl, hpiece, hpieces, hlength⟩ := exists_first_piece hruns hes
    obtain ⟨tail, rfl, htail, -⟩ := exists_optional_piece htail hlast
    have hne := List.ne_nil_of_length_eq_add_one hlength
    exact Expr.legible_of_anywhere (.several hpiece hpieces htail hne)
  | trailing =>
    obtain ⟨hruns, -⟩ := List.forall_mem_append.mp h
    obtain ⟨es, hes, hrest⟩ := bind_eq_ok_iff.mp hresolve
    cases hrest
    obtain ⟨piece, pieces, rfl, hpiece, hpieces, -⟩ := exists_first_piece hruns hes
    exact Expr.legible_of_anywhere (.trailing hpiece hpieces)
  | enumeration =>
    obtain ⟨hruns, hbound⟩ := List.forall_mem_append.mp h
    obtain ⟨es, hes, hrest⟩ := bind_eq_ok_iff.mp hresolve
    obtain ⟨last, hlast, hnode⟩ := bind_eq_ok_iff.mp hrest
    cases hnode
    obtain ⟨piece, pieces, rfl, hpiece, hpieces, -⟩ := exists_first_piece hruns hes
    obtain ⟨bound, rfl, hbound, -⟩ := exists_optional_piece hbound hlast
    exact Expr.legible_of_anywhere
      (@Parenthesized.enumeration _ _ bracket .comma _ _ _ _ hpiece hpieces hbound)
  | comprehension =>
    obtain ⟨htemplate, hruns⟩ := List.forall_mem_cons.mp h
    obtain ⟨template, hvalue, hrest⟩ := bind_eq_ok_iff.mp hresolve
    obtain ⟨es, hes, hnode⟩ := bind_eq_ok_iff.mp hrest
    cases hnode
    obtain ⟨faces, hfaces⟩ := (htemplate template hvalue).anywhere
    obtain ⟨piece, pieces, rfl, hpiece, hpieces, -⟩ := exists_first_piece hruns hes
    exact Expr.legible_of_anywhere (@Parenthesized.comprehension _ _ bracket .comma
      (template, faces) _ _ _ hfaces hpiece hpieces)

theorem legible_parenthesized (htable : table.HasNoPostfix) {run : Run} {span : Span} {e : Expr}
    (h : run.Legible table source) (huntyped : run.isUntyped)
    (hresolve : (closedContainer .paren (.elements [run] none false none) span).resolve table =
      .ok e) : e.Legible table source := by
  have hreadings := legible_readItems h (Run.isUntyped_iff.mp huntyped)
  rw [closedContainer] at hresolve
  cases hform : operatorForm? run span with
  | none =>
    rw [hform] at hresolve
    obtain ⟨items, runSpan⟩ := run
    exact legible_of_assembleGroup htable hreadings hresolve
  | some a =>
    rw [hform] at hresolve
    rcases operatorForm?_cases table hform with
      ⟨op, hitems, rfl⟩ | ⟨op, hole, operand, operandSpan, hitems, rfl⟩
    · rw [hitems] at hreadings
      cases hresolve
      exact legible_operatorLiteral (List.forall_mem_singleton.mp hreadings _ rfl)
    · rw [hitems] at hreadings
      exact legible_of_assembleSection htable hreadings hresolve

theorem legible_closedContainer (htable : table.HasNoPostfix) {bracket : Bracket}
    {body : ContainerBody} {span : Span} (hformed : body.IsFormed)
    (h : ∀ run ∈ body.runs, run.Legible table source) :
    (RunItem.atom (closedContainer bracket body span)).Legible table source := by
  refine RunItem.legible_of_resolve (fun op hop => ?_) fun _ huntyped e hresolve => ?_
  · rw [wordOperator_closedContainer] at hop
    cases hop
  · rw [isUntyped_closedContainer, ContainerBody.isUntyped_iff] at huntyped
    by_cases hgroup : ∃ run, bracket = .paren ∧ body = .elements [run] none false none
    · obtain ⟨run, rfl, rfl⟩ := hgroup
      exact legible_parenthesized htable (h run List.mem_cons_self)
        (huntyped run List.mem_cons_self) hresolve
    · have hplain (run : Run) (hparen : bracket = .paren) :
          body ≠ .elements [run] none false none := fun hbody => hgroup ⟨run, hparen, hbody⟩
      rw [resolve_closedContainer hplain] at hresolve
      refine ContainerBody.legible_resolve hformed (fun run hrun _ => ?_) hplain hresolve
      exact Run.legible_resolve htable (h run hrun) (huntyped run hrun)

end Equational

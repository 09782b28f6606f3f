import Equational.Proofs.Expr.Reading
import Mathlib.Data.List.Forall2

/-!
# Yields

The yield of a run or of an expression is what stands in it from left to right, at any depth: its
leaves and the occurrences of its operators.  A function name that the table knows as an operator
counts as that operator.

Resolving a run keeps its yield.  Compositions, sequences and applications by the dollar operator
do not record where their operator is written; there the expression has the symbol alone.
-/

namespace Equational

/-! ## Occurrences -/

inductive Occurrence where
  | identifier (identifier : Identifier) (span : Span)
  | declared (identifier : Identifier) (span : Span)
  | typed (name : Name) (typeName : Identifier) (span : Span)
  | number (literal : NumberLiteral) (span : Span)
  | string (value : String) (span : Span)
  | operator (op : OperatorUse)
  /-- The operator of a node that does not record where it is written. -/
  | unplaced (symbol : String)

namespace Occurrence

def ofIdentifier (table : OperatorTable) (name : Identifier) (span : Span) : Occurrence :=
  match wordOperator? table (.atom (.identifier name span)) with
  | some op => operator op
  | none => identifier name span

/-- How an occurrence in a run may show in its expression. -/
inductive ShownAs : Occurrence → Occurrence → Prop where
  | same (occurrence : Occurrence) : ShownAs occurrence occurrence
  | unplaced (symbol : String) (span : Span) (h : symbol ∈ [".", "||", "$"]) :
    ShownAs (operator ⟨⟨symbol, none⟩, span⟩) (unplaced symbol)

def isPlaced : Occurrence → Bool
  | unplaced _ => false
  | _ => true

theorem ShownAs.eq_of_isPlaced {first second : Occurrence} (h : first.ShownAs second)
    (hplaced : second.isPlaced) : second = first := by
  cases h with
  | same => rfl
  | unplaced symbol span hmem => cases hplaced

theorem ShownAs.trans {first second third : Occurrence} (h : first.ShownAs second)
    (h' : second.ShownAs third) : first.ShownAs third := by
  cases h with
  | same => exact h'
  | unplaced symbol span hmem =>
    cases h'
    exact .unplaced symbol span hmem

end Occurrence

/-- The same occurrences in the same order, as far as an expression records them. -/
def Shown : List Occurrence → List Occurrence → Prop := List.Forall₂ Occurrence.ShownAs

namespace Shown

theorem refl (occurrences : List Occurrence) : Shown occurrences occurrences :=
  List.forall₂_same.mpr fun occurrence _ => .same occurrence

theorem append {first first' second second' : List Occurrence} (h : Shown first first')
    (h' : Shown second second') : Shown (first ++ second) (first' ++ second') :=
  List.rel_append h h'

theorem trans {first second third : List Occurrence} (h : Shown first second)
    (h' : Shown second third) : Shown first third := by
  induction h generalizing third with
  | nil => exact h'
  | cons hhead htail ih =>
    cases h' with
    | cons hhead' htail' => exact .cons (hhead.trans hhead') (ih htail')

theorem eq_of_isPlaced {first second : List Occurrence} (h : Shown first second)
    (hplaced : second.all Occurrence.isPlaced) : second = first := by
  induction h with
  | nil => rfl
  | cons hhead htail ih =>
    simp only [List.all_cons, Bool.and_eq_true] at hplaced
    rw [hhead.eq_of_isPlaced hplaced.1, ih hplaced.2]

end Shown

/-! ## Yields of runs -/

def Hole.yield (op : OperatorUse) (operand : List Occurrence) : Hole → List Occurrence
  | left => .operator op :: operand
  | right => operand ++ [.operator op]

mutual

def Run.yield (table : OperatorTable) : Run → List Occurrence
  | ⟨items, _⟩ => itemsYield table items

def itemsYield (table : OperatorTable) : List RunItem → List Occurrence
  | [] => []
  | item :: rest => item.yield table ++ itemsYield table rest

def RunItem.yield (table : OperatorTable) : RunItem → List Occurrence
  | .atom a => a.yield table
  | .operator op => [.operator op]
  | .conditional condition thenBranch _ =>
    condition.yield table ++ optionYield table thenBranch

def Atom.yield (table : OperatorTable) : Atom → List Occurrence
  | .identifier name span => [.ofIdentifier table name span]
  | .declared name span => [.declared name span]
  | .typed name typeName span => [.typed name typeName span]
  | .number literal span => [.number literal span]
  | .string value span => [.string value span]
  | .container _ body _ => body.yield table
  | .operatorLiteral op _ => [.operator op]
  | .partialApply op operand hole _ => hole.yield op (operand.yield table)
  | .lambda parameters body _ => itemsYield table parameters ++ body.yield table

def ContainerBody.yield (table : OperatorTable) : ContainerBody → List Occurrence
  | .empty => []
  | .elements runs _ _ tail => runsYield table runs ++ optionYield table tail
  | .enumeration runs bound => runsYield table runs ++ optionYield table bound
  | .comprehension template generators => template.yield table ++ runsYield table generators

def runsYield (table : OperatorTable) : List Run → List Occurrence
  | [] => []
  | run :: rest => run.yield table ++ runsYield table rest

def optionYield (table : OperatorTable) : Option Run → List Occurrence
  | none => []
  | some run => run.yield table

end

/-! ## Yields of expressions -/

namespace Expr

mutual

def yield (table : OperatorTable) : Expr → List Occurrence
  | identifier name span => [.ofIdentifier table name span]
  | declared name span => [.declared name span]
  | typed name typeName span => [.typed name typeName span]
  | number literal span => [.number literal span]
  | string value span => [.string value span]
  | apply function argument _ => function.yield table ++ argument.yield table
  | binary op left right _ => left.yield table ++ .operator op :: right.yield table
  | unary op .before operand _ => .operator op :: operand.yield table
  | unary op .behind operand _ => operand.yield table ++ [.operator op]
  | quotation marker operand _ => .operator marker :: operand.yield table
  | composition left right _ => left.yield table ++ .unplaced "." :: right.yield table
  | conditional condition thenBranch elseBranch _ =>
    condition.yield table ++ (thenBranch.yield table ++ optionYield table elseBranch)
  | sequence first second _ => first.yield table ++ .unplaced "||" :: second.yield table
  | lambda parameters body _ => listYield table parameters ++ body.yield table
  | infixApply function argument _ =>
    function.yield table ++ .unplaced "$" :: argument.yield table
  | collection _ elements _ tail _ => listYield table elements ++ optionYield table tail
  | enumeration _ elements bound _ => listYield table elements ++ optionYield table bound
  | comprehension _ template generators _ =>
    template.yield table ++ listYield table generators
  | operatorLiteral op _ => [.operator op]
  | partialApply op operand hole _ => hole.yield op (operand.yield table)
  | error _ => []

def listYield (table : OperatorTable) : List Expr → List Occurrence
  | [] => []
  | first :: rest => first.yield table ++ listYield table rest

def optionYield (table : OperatorTable) : Option Expr → List Occurrence
  | none => []
  | some e => e.yield table

end

end Expr

/-! ## Nodes -/

section Nodes

variable (table : OperatorTable)

theorem shown_binaryNode (op : OperatorUse) (left right : Expr) :
    Shown (left.yield table ++ .operator op :: right.yield table)
      ((binaryNode op left right).yield table) := by
  obtain ⟨⟨symbol, moduleName⟩, span⟩ := op
  have hnode (recorded : Occurrence) (h : (Occurrence.operator ⟨⟨symbol, moduleName⟩, span⟩).ShownAs
      recorded) : Shown (left.yield table ++ .operator ⟨⟨symbol, moduleName⟩, span⟩ ::
        right.yield table) (left.yield table ++ recorded :: right.yield table) :=
    (Shown.refl _).append (.cons h (Shown.refl _))
  unfold binaryNode
  dsimp only
  split
  · exact hnode _ (.unplaced "." span (by simp))
  · exact hnode _ (.unplaced "||" span (by simp))
  · exact hnode _ (.unplaced "$" span (by simp))
  · exact hnode _ (.same _)

theorem yield_prefixNode (op : OperatorUse) (operand : Expr) :
    (prefixNode op operand).yield table = .operator op :: operand.yield table := by
  unfold prefixNode
  dsimp only
  split <;> rfl

theorem yield_conditionalNode (condition : Expr) (thenBranch : Option Expr) (span : Span)
    (last : Expr) :
    (conditionalNode condition thenBranch span last).yield table =
      condition.yield table ++ (Expr.optionYield table thenBranch ++ last.yield table) := by
  cases thenBranch with
  | none => simp [conditionalNode, Expr.yield, Expr.optionYield]
  | some branch => simp [conditionalNode, Expr.yield, Expr.optionYield]

end Nodes

/-! ## Parts and groupings -/

def Step.yield (table : OperatorTable) : Step → List Occurrence
  | operand value => value.yield table
  | operator op => [.operator op]
  | conditional condition thenBranch _ =>
    condition.yield table ++ Expr.optionYield table thenBranch

def stepsYield (table : OperatorTable) (steps : List Step) : List Occurrence :=
  steps.flatMap (Step.yield table)

def Leading.yield (table : OperatorTable) : Leading → List Occurrence
  | prefixed op _ => [.operator op]
  | conditional condition thenBranch _ =>
    condition.yield table ++ Expr.optionYield table thenBranch

def Joining.yield : Joining → List Occurrence
  | binary op _ => [.operator op]
  | application _ => []

def Part.yield (table : OperatorTable) : Part → List Occurrence
  | operand value => value.yield table
  | leading operator => operator.yield table
  | joining operator => operator.yield
  | trailing operator => [.operator operator.op]

def partsYield (table : OperatorTable) (parts : List Part) : List Occurrence :=
  parts.flatMap (Part.yield table)

section Groupings

variable {table : OperatorTable}

private theorem partsYield_followingParts {isLast next : Bool} {op : OperatorUse}
    {parts : List Part} (h : followingParts? table isLast op = some (parts, next)) :
    partsYield table parts = [.operator op] := by
  rcases followingParts?_cases h with
    ⟨entry, -, rfl, -⟩ | ⟨entry, -, rfl, -⟩ | ⟨entry, -, rfl, -⟩
  · rfl
  · rfl
  · rfl

private theorem partsYield_stepParts {expectsOperand isLast next : Bool} {step : Step}
    {parts : List Part} (h : step.parts? table expectsOperand isLast = some (parts, next)) :
    partsYield table parts = step.yield table := by
  cases step with
  | operand value =>
    cases h
    cases expectsOperand <;>
      simp [partsYield, argumentParts, Part.yield, Joining.yield, Step.yield]
  | conditional condition thenBranch span =>
    cases h
    cases expectsOperand <;>
      simp [partsYield, argumentParts, Part.yield, Joining.yield, Leading.yield, Step.yield]
  | operator op =>
    cases expectsOperand with
    | true =>
      obtain ⟨entry, -, hparts⟩ := Option.map_eq_some_iff.mp h
      cases hparts
      rfl
    | false => exact partsYield_followingParts h

private theorem partsYield_partsOf {expectsOperand : Bool} {steps : List Step} {parts : List Part}
    (h : partsOf? table expectsOperand steps = some parts) :
    partsYield table parts = stepsYield table steps := by
  induction steps generalizing expectsOperand parts with
  | nil =>
    cases expectsOperand with
    | true => cases h
    | false =>
      cases h
      rfl
  | cons step rest ih =>
    obtain ⟨first, next, behind, hfirst, hbehind, rfl⟩ := partsOf?_cons_eq_some_iff.mp h
    have hyields := partsYield_stepParts hfirst
    have hrest := ih hbehind
    simp only [partsYield, stepsYield, List.flatMap_append, List.flatMap_cons] at hyields hrest ⊢
    rw [hyields, hrest]

theorem shown_grouping (g : Grouping) : Shown (partsYield table g.parts) (g.expr.yield table) := by
  induction g with
  | leaf value =>
    simp only [Grouping.parts, partsYield, List.flatMap_cons, List.flatMap_nil, List.append_nil]
    exact Shown.refl _
  | leading operator operand ih =>
    cases operator with
    | prefixed op entry =>
      simp only [Grouping.expr, Leading.node, yield_prefixNode]
      exact .cons (.same _) ih
    | conditional condition thenBranch span =>
      simp only [Grouping.expr, Leading.node, yield_conditionalNode, ← List.append_assoc]
      exact (Shown.refl _).append ih
  | joining operator left right ihLeft ihRight =>
    have hparts : partsYield table (Grouping.joining operator left right).parts =
        partsYield table left.parts ++ (operator.yield ++ partsYield table right.parts) := by
      simp [partsYield, Grouping.parts, Part.yield]
    rw [hparts]
    cases operator with
    | binary op entry =>
      have hnode := shown_binaryNode table op left.expr right.expr
      exact (ihLeft.append (.cons (.same _) ihRight)).trans hnode
    | application span => exact ihLeft.append ihRight
  | trailing operator operand ih =>
    have hparts : partsYield table (Grouping.trailing operator operand).parts =
        partsYield table operand.parts ++ [.operator operator.op] := by
      simp [partsYield, Grouping.parts, Part.yield]
    rw [hparts]
    exact ih.append (Shown.refl _)

theorem shown_of_assemble {span : Span} {readings : Reading} {e : Expr}
    (h : assemble table span readings = .ok e) :
    ∃ steps, readings.mapM id = .ok steps ∧ Shown (stepsYield table steps) (e.yield table) := by
  obtain ⟨steps, g, hread, hparts, rfl⟩ := grouping_of_assemble h
  refine ⟨steps, hread, ?_⟩
  rw [← partsYield_partsOf hparts]
  exact shown_grouping g

end Groupings

/-! ## Sections and groups -/

section Sections

variable {table : OperatorTable}

theorem shown_hole {first second : List Occurrence} (op : OperatorUse) (hole : Hole)
    (h : Shown first second) : Shown (hole.yield op first) (hole.yield op second) := by
  cases hole with
  | left => exact .cons (.same _) h
  | right => exact h.append (Shown.refl _)

theorem stepsYield_hole (op : OperatorUse) (operand : List Step) (hole : Hole) :
    stepsYield table (hole.steps op operand) = hole.yield op (stepsYield table operand) := by
  cases hole with
  | left => rfl
  | right => simp [Hole.steps, Hole.yield, stepsYield, Step.yield]

theorem shown_of_assembleSection {op : OperatorUse} {hole : Hole} {operand : Reading}
    {operandSpan span : Span} {e : Expr}
    (h : assembleSection table op hole operand operandSpan span = .ok e) :
    ∃ steps, operand.mapM id = .ok steps ∧
      Shown (hole.yield op (stepsYield table steps)) (e.yield table) := by
  rcases assembleSection_cases h with hall | ⟨inner, hinner, rfl, -⟩
  · obtain ⟨all, hread, hshown⟩ := shown_of_assemble hall
    obtain ⟨steps, hsteps, rfl⟩ := Hole.steps_of_readings hread
    rw [stepsYield_hole] at hshown
    exact ⟨steps, hsteps, hshown⟩
  · obtain ⟨steps, hread, hshown⟩ := shown_of_assemble hinner
    exact ⟨steps, hread, shown_hole op hole hshown⟩

theorem yield_of_wordOperator {item : RunItem} {op : OperatorUse}
    (h : wordOperator? table item = some op) : item.yield table = [.operator op] := by
  cases item with
  | atom a =>
    cases a with
    | identifier name span => simp [RunItem.yield, Atom.yield, Occurrence.ofIdentifier, h]
    | _ => cases h
  | operator other => cases h
  | conditional condition thenBranch span => cases h

theorem shown_of_assembleGroup {items : List RunItem} {runSpan span : Span} {e : Expr}
    (hitems : ∀ steps, (readItems table items).mapM id = .ok steps →
      Shown (itemsYield table items) (stepsYield table steps))
    (h : assembleGroup table items (readItems table items) runSpan span = .ok e) :
    Shown (itemsYield table items) (e.yield table) := by
  rcases assembleGroup_cases h with
    ⟨op, hreadings, rfl⟩ | ⟨op, hole, operand, operandSpan, hreadings, hsection⟩ | hall
  · exact hitems [.operator op] (by rw [hreadings]; rfl)
  · obtain ⟨steps, hsteps, hshown⟩ := shown_of_assembleSection hsection
    refine (hitems (hole.steps op steps) ?_).trans ?_
    · rw [hreadings]
      exact Hole.readings_eq_steps hsteps
    · rwa [stepsYield_hole]
  · obtain ⟨steps, hread, hshown⟩ := shown_of_assemble hall
    exact (hitems steps hread).trans hshown

end Sections

/-! ## Runs, at any depth -/

section Runs

variable (table : OperatorTable)

mutual

theorem Run.shown_resolve : ∀ (run : Run) (e : Expr), run.resolve table = .ok e →
    Shown (run.yield table) (e.yield table)
  | ⟨items, span⟩, e, h => by
    obtain ⟨steps, hread, hshown⟩ := shown_of_assemble h
    exact (shown_readItems items steps hread).trans hshown

theorem shown_readItems : ∀ (items : List RunItem) (steps : List Step),
    (readItems table items).mapM id = .ok steps →
      Shown (itemsYield table items) (stepsYield table steps)
  | [], steps, h => by
    cases h
    exact .nil
  | item :: rest, steps, h => by
    obtain ⟨step, others, hstep, hothers, rfl⟩ := mapM_cons_eq_ok_iff.mp h
    exact (item.shown_read step hstep).append (shown_readItems rest others hothers)

theorem RunItem.shown_read : ∀ (item : RunItem) (step : Step), item.read table = .ok step →
    Shown (item.yield table) (step.yield table)
  | .operator op, step, h => by
    cases h
    exact Shown.refl _
  | .atom a, step, h => by
    cases hword : wordOperator? table (.atom a) with
    | some op =>
      have hread := read_of_wordOperator hword
      obtain rfl := Except.ok.inj (hread.symm.trans h)
      rw [yield_of_wordOperator hword]
      exact Shown.refl _
    | none =>
      simp only [RunItem.read, hword] at h
      obtain ⟨value, hvalue, hstep⟩ := bind_eq_ok_iff.mp h
      cases hstep
      exact a.shown_resolve value hvalue
  | .conditional condition thenBranch span, step, h => by
    obtain ⟨test, htest, hrest⟩ := bind_eq_ok_iff.mp h
    obtain ⟨branch, hbranch, hstep⟩ := bind_eq_ok_iff.mp hrest
    cases hstep
    exact (condition.shown_resolve test htest).append
      (shown_resolveOption thenBranch branch hbranch)

theorem Atom.shown_resolve : ∀ (a : Atom) (e : Expr), a.resolve table = .ok e →
    Shown (a.yield table) (e.yield table)
  | .identifier name span, e, h => by
    cases h
    exact Shown.refl _
  | .declared name span, e, h => by
    cases h
    exact Shown.refl _
  | .typed name typeName span, e, h => by
    cases h
    exact Shown.refl _
  | .number literal span, e, h => by
    cases h
    exact Shown.refl _
  | .string value span, e, h => by
    cases h
    exact Shown.refl _
  | .operatorLiteral op span, e, h => by
    cases h
    exact Shown.refl _
  | .partialApply op ⟨items, operandSpan⟩ hole span, e, h => by
    obtain ⟨steps, hread, hshown⟩ := shown_of_assembleSection h
    exact (shown_hole op hole (shown_readItems items steps hread)).trans hshown
  | .lambda [] body span, e, h => by cases h
  | .lambda (first :: rest) body span, e, h => by
    obtain ⟨parameters, hparameters, hrest⟩ := bind_eq_ok_iff.mp h
    obtain ⟨inner, hinner, hnode⟩ := bind_eq_ok_iff.mp hrest
    cases hnode
    exact (shown_resolveParameters (first :: rest) parameters hparameters).append
      (body.shown_resolve inner hinner)
  | .container bracket body span, e, h => by
    rcases Atom.resolve_container bracket body span with ⟨items, runSpan, rfl, hgroup⟩ | hbody
    · rw [hgroup] at h
      have hshown := shown_of_assembleGroup (shown_readItems items) h
      simpa [Atom.yield, ContainerBody.yield, runsYield, optionYield, Run.yield] using hshown
    · rw [hbody] at h
      exact body.shown_resolve bracket span e h

theorem shown_resolveParameters : ∀ (items : List RunItem) (parameters : List Expr),
    resolveParameters table items = .ok parameters →
      Shown (itemsYield table items) (Expr.listYield table parameters)
  | [], parameters, h => by
    cases h
    exact .nil
  | .atom a :: rest, parameters, h => by
    obtain ⟨first, hfirst, hrest⟩ := bind_eq_ok_iff.mp h
    obtain ⟨others, hothers, hparameters⟩ := bind_eq_ok_iff.mp hrest
    cases hparameters
    exact (a.shown_resolve first hfirst).append (shown_resolveParameters rest others hothers)
  | .operator op :: rest, parameters, h => by cases h
  | .conditional condition thenBranch span :: rest, parameters, h => by cases h

theorem ContainerBody.shown_resolve (bracket : Bracket) (span : Span) :
    ∀ (body : ContainerBody) (e : Expr), body.resolve table bracket span = .ok e →
      Shown (body.yield table) (e.yield table)
  | .empty, e, h => by
    cases h
    exact .nil
  | .elements runs separator trailing tail, e, h => by
    obtain ⟨elements, helements, hrest⟩ := bind_eq_ok_iff.mp h
    obtain ⟨last, hlast, hnode⟩ := bind_eq_ok_iff.mp hrest
    cases hnode
    exact (shown_resolveAll runs elements helements).append (shown_resolveOption tail last hlast)
  | .enumeration runs bound, e, h => by
    obtain ⟨elements, helements, hrest⟩ := bind_eq_ok_iff.mp h
    obtain ⟨last, hlast, hnode⟩ := bind_eq_ok_iff.mp hrest
    cases hnode
    exact (shown_resolveAll runs elements helements).append (shown_resolveOption bound last hlast)
  | .comprehension template generators, e, h => by
    obtain ⟨first, hfirst, hrest⟩ := bind_eq_ok_iff.mp h
    obtain ⟨others, hothers, hnode⟩ := bind_eq_ok_iff.mp hrest
    cases hnode
    exact (template.shown_resolve first hfirst).append (shown_resolveAll generators others hothers)

theorem shown_resolveAll : ∀ (runs : List Run) (values : List Expr),
    resolveAll table runs = .ok values →
      Shown (runsYield table runs) (Expr.listYield table values)
  | [], values, h => by
    cases h
    exact .nil
  | run :: rest, values, h => by
    obtain ⟨first, hfirst, hrest⟩ := bind_eq_ok_iff.mp h
    obtain ⟨others, hothers, hvalues⟩ := bind_eq_ok_iff.mp hrest
    cases hvalues
    exact (run.shown_resolve first hfirst).append (shown_resolveAll rest others hothers)

theorem shown_resolveOption : ∀ (run : Option Run) (value : Option Expr),
    resolveOption table run = .ok value →
      Shown (optionYield table run) (Expr.optionYield table value)
  | none, value, h => by
    cases h
    exact .nil
  | some run, value, h => by
    obtain ⟨inner, hinner, hvalue⟩ := bind_eq_ok_iff.mp h
    cases hvalue
    exact run.shown_resolve inner hinner

end

end Runs

/-! ## Results -/

theorem Run.resolve_keeps_yield {table : OperatorTable} {run : Run} {e : Expr}
    (h : run.resolve table = .ok e) :
    Shown (run.yield table) (e.yield table) ∧
      ((e.yield table).all Occurrence.isPlaced → e.yield table = run.yield table) := by
  have hshown := run.shown_resolve table e h
  refine ⟨hshown, ?_⟩
  intro hplaced
  exact hshown.eq_of_isPlaced hplaced

theorem mixedRun_keeps_yield :
    ∃ e, mixedRun.resolve .initial = .ok e ∧ e.text = "(+ (pre - (^ x y)) (app f z))" ∧
      e.yield .initial = mixedRun.yield .initial :=
  ⟨_, rfl, rfl, (Run.resolve_keeps_yield rfl).2 rfl⟩

/-- The run `f . g`, with the dot at a place of its own. -/
def composedRun (dot : Nat) : Run :=
  .ofItems [wordItem "f" 0, symbolItem "." dot, wordItem "g" 5] (.point 0)

/-- Both places of the dot give the same expression, so nothing can be read off it that tells them
apart. -/
theorem composedRun_loses_span :
    ¬∃ full : OperatorTable → Expr → List Occurrence, ∀ table (run : Run) e,
      run.resolve table = .ok e → full table e = run.yield table := by
  intro ⟨full, hfull⟩
  have hnear := hfull .initial (composedRun 2) _ rfl
  have hfar := hfull .initial (composedRun 3) _ rfl
  have hsame : (composedRun 2).yield .initial = (composedRun 3).yield .initial :=
    hnear.symm.trans hfar
  simp [composedRun, symbolItem, Run.ofItems, Run.yield, itemsYield, RunItem.yield] at hsame

end Equational

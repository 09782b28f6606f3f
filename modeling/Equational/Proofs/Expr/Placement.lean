import Equational.Proofs.Expr.Reading
import Equational.Proofs.Node.Placement
import Equational.Run.Collect

/-!
# Placement of resolved runs

Where the items of a run stand one behind another, the expression that the run is resolved to is
in place, whatever the precedences make of it.  An item that is no operator holds what it is
resolved to within its own span, and nothing is asked of runs and items that cannot be resolved.
-/

namespace Equational

/-! ## Parts of a run -/

/-- The span of a conditional begins where it does and ends anywhere. -/
def Leading.Lies (low : Nat) (operator : Leading) (high : Nat) : Prop :=
  match operator with
  | .prefixed op _ => op.Lies low high
  | .conditional condition thenBranch span =>
    low ≤ span.start ∧ Row Expr.Lies span.start (condition :: thenBranch.toList) high

def Joining.Lies (low : Nat) (operator : Joining) (high : Nat) : Prop :=
  match operator with
  | .binary op _ => op.Lies low high
  | .application _ => low ≤ high

def Part.Lies (low : Nat) (part : Part) (high : Nat) : Prop :=
  match part with
  | .operand value => value.Lies low high
  | .leading operator => operator.Lies low high
  | .joining operator => operator.Lies low high
  | .trailing operator => operator.op.Lies low high

instance Leading.spreads : Spreads Leading.Lies where
  le {_ _ operator} h := by
    cases operator with
    | prefixed op entry => exact OperatorUse.spreads.le h
    | conditional condition thenBranch span => exact Nat.le_trans h.1 h.2.le
  widen {_ _ _ _ operator} h hlow hhigh := by
    cases operator with
    | prefixed op entry => exact OperatorUse.spreads.widen h hlow hhigh
    | conditional condition thenBranch span =>
      exact ⟨Nat.le_trans hlow h.1, h.2.widen (Nat.le_refl _) hhigh⟩

instance Joining.spreads : Spreads Joining.Lies where
  le {_ _ operator} h := by
    cases operator with
    | binary op entry => exact OperatorUse.spreads.le h
    | application span => exact h
  widen {_ _ _ _ operator} h hlow hhigh := by
    cases operator with
    | binary op entry => exact OperatorUse.spreads.widen h hlow hhigh
    | application span => exact Nat.le_trans hlow (Nat.le_trans h hhigh)

instance Part.spreads : Spreads Part.Lies where
  le {_ _ part} h := by
    cases part with
    | operand value => exact Expr.spreads.le h
    | leading operator => exact Leading.spreads.le h
    | joining operator => exact Joining.spreads.le h
    | trailing operator => exact OperatorUse.spreads.le h
  widen {_ _ _ _ part} h hlow hhigh := by
    cases part with
    | operand value => exact Expr.spreads.widen h hlow hhigh
    | leading operator => exact Leading.spreads.widen h hlow hhigh
    | joining operator => exact Joining.spreads.widen h hlow hhigh
    | trailing operator => exact OperatorUse.spreads.widen h hlow hhigh

theorem Row.expressions {low high : Nat} {values : List Expr} (h : Row Expr.Lies low values high) :
    Row Node.Lies low (values.map .expression) high := h.map id

section Groupings

variable {low middle next high : Nat} {left right operand : Expr}

theorem lies_of_two {e : Expr} {first last : Node} (hfirst : first.Lies low middle)
    (hlast : last.Lies middle high) (hspan : e.span = first.span.through last.span)
    (hchildren : e.children = [first, last]) : e.Lies low high := by
  have hrow : Row Node.Lies first.span.start e.children last.span.stop := by
    rw [hchildren]
    exact .cons hfirst.fromStart (.singleton hlast.toStop)
  have hmem : first ∈ e.children := hchildren ▸ List.mem_cons_self
  exact Expr.lies_of_row hspan hfirst.low_le hlast.le_high hmem hrow

theorem Leading.lies_node {operator : Leading} (h : operator.Lies low middle)
    (hoperand : operand.Lies middle high) : (operator.node operand).Lies low high := by
  cases operator with
  | prefixed op entry =>
    unfold node prefixNode
    dsimp only
    split
    · exact lies_of_two h hoperand rfl rfl
    · exact lies_of_two h hoperand rfl rfl
  | conditional condition thenBranch span =>
    obtain ⟨hlow, hinside⟩ := h
    have hrow := (hinside.concat hoperand.toStop).expressions
    cases thenBranch with
    | none => exact Expr.lies_of_row rfl hlow hoperand.le_high List.mem_cons_self hrow
    | some branch => exact Expr.lies_of_row rfl hlow hoperand.le_high List.mem_cons_self hrow

theorem lies_binaryNode {op : OperatorUse} (hleft : left.Lies low middle) (h : op.Lies middle next)
    (hright : right.Lies next high) : (binaryNode op left right).Lies low high := by
  have hafter : right.Lies middle high :=
    Spreads.widen hright (Spreads.le h) (Nat.le_refl high)
  unfold binaryNode
  dsimp only
  split
  · exact lies_of_two hleft hafter rfl rfl
  · exact lies_of_two hleft hafter rfl rfl
  · exact lies_of_two hleft hafter rfl rfl
  · have hrow : Row Node.Lies left.span.start
        [.expression left, .operator op, .expression right] right.span.stop :=
      .cons hleft.fromStart (.cons h (.singleton hright.toStop))
    exact Expr.lies_of_row rfl hleft.low_le hright.le_high List.mem_cons_self hrow

theorem Joining.lies_node {operator : Joining} (hleft : left.Lies low middle)
    (h : operator.Lies middle next) (hright : right.Lies next high) :
    (operator.node left right).Lies low high := by
  cases operator with
  | binary op entry => exact lies_binaryNode hleft h hright
  | application span =>
    have hafter : right.Lies middle high := Spreads.widen hright h (Nat.le_refl high)
    exact lies_of_two hleft hafter rfl rfl

theorem Grouping.lies_expr {g : Grouping} (h : Row Part.Lies low g.parts high) :
    g.expr.Lies low high := by
  induction g generalizing low high with
  | leaf value => exact h.of_singleton
  | leading operator operand ih =>
    obtain _ | ⟨hoperator, hoperand⟩ := h
    exact Leading.lies_node hoperator (ih hoperand)
  | joining operator left right ihLeft ihRight =>
    obtain ⟨middle, hleft, hrest⟩ := h.split
    obtain _ | ⟨hoperator, hright⟩ := hrest
    exact Joining.lies_node (ihLeft hleft) hoperator (ihRight hright)
  | trailing operator operand ih =>
    obtain ⟨middle, hoperand, hoperator⟩ := h.split
    exact lies_of_two (ih hoperand) hoperator.of_singleton rfl rfl

end Groupings

/-! ## Steps and readings -/

def Step.Lies (low : Nat) (step : Step) (high : Nat) : Prop :=
  match step with
  | .operand value => value.Lies low high
  | .operator op => op.Lies low high
  | .conditional condition thenBranch span =>
    (Leading.conditional condition thenBranch span).Lies low high

def ReadingLies (low : Nat) (reading : Except Diagnostic Step) (high : Nat) : Prop :=
  low ≤ high ∧ ∀ step, reading = .ok step → step.Lies low high

instance Step.spreads : Spreads Step.Lies where
  le {_ _ step} h := by
    cases step with
    | operand value => exact Expr.spreads.le h
    | operator op => exact OperatorUse.spreads.le h
    | conditional condition thenBranch span =>
      have h' : (Leading.conditional condition thenBranch span).Lies _ _ := h
      exact Leading.spreads.le h'
  widen {_ _ _ _ step} h hlow hhigh := by
    cases step with
    | operand value => exact Expr.spreads.widen h hlow hhigh
    | operator op => exact OperatorUse.spreads.widen h hlow hhigh
    | conditional condition thenBranch span =>
      have h' : (Leading.conditional condition thenBranch span).Lies _ _ := h
      exact Leading.spreads.widen h' hlow hhigh

instance ReadingLies.spreads : Spreads ReadingLies where
  le h := h.1
  widen h hlow hhigh :=
    ⟨Nat.le_trans hlow (Nat.le_trans h.1 hhigh), fun step hstep =>
      Step.spreads.widen (h.2 step hstep) hlow hhigh⟩

section Assembling

variable {table : OperatorTable} {low high : Nat}

/-- The parts of a step lie where the step lies, and an application takes no room. -/
structure Step.Places (ofStep : Nat → Step → Nat → Prop) (ofPart : Nat → Part → Nat → Prop) :
    Prop where
  application : ∀ span low, ofPart low (.joining (.application span)) low
  operand : ∀ {low high value}, ofStep low (.operand value) high →
    ofPart low (.operand value) high
  conditional : ∀ {low high condition thenBranch span},
    ofStep low (.conditional condition thenBranch span) high →
    ofPart low (.leading (.conditional condition thenBranch span)) high
  leading : ∀ {low high op entry}, ofStep low (.operator op) high →
    ofPart low (.leading (.prefixed op entry)) high
  joining : ∀ {low high op entry}, ofStep low (.operator op) high →
    ofPart low (.joining (.binary op entry)) high
  trailing : ∀ {low high op entry}, ofStep low (.operator op) high →
    ofPart low (.trailing ⟨op, entry⟩) high

namespace Step.Places

variable {ofStep : Nat → Step → Nat → Prop} {ofPart : Nat → Part → Nat → Prop}

theorem argumentParts (h : Places ofStep ofPart) (expectsOperand : Bool) (span : Span)
    {part : Part} (hpart : ofPart low part high) :
    Row ofPart low (argumentParts expectsOperand span ++ [part]) high := by
  cases expectsOperand with
  | true => exact .singleton hpart
  | false => exact .cons (h.application span low) (.singleton hpart)

theorem parts (h : Places ofStep ofPart) {step : Step} {expectsOperand isLast next : Bool}
    {parts : List Part} (hstep : ofStep low step high)
    (hparts : step.parts? table expectsOperand isLast = some (parts, next)) :
    Row ofPart low parts high := by
  cases step with
  | operand value =>
    cases hparts
    exact h.argumentParts expectsOperand value.span (h.operand hstep)
  | conditional condition thenBranch span =>
    cases hparts
    exact h.argumentParts expectsOperand span (h.conditional hstep)
  | operator op =>
    cases expectsOperand with
    | true =>
      obtain ⟨entry, -, hleading⟩ := Option.map_eq_some_iff.mp hparts
      cases hleading
      exact .singleton (h.leading hstep)
    | false =>
      rcases followingParts?_cases hparts with
        ⟨entry, -, rfl, -⟩ | ⟨entry, -, rfl, -⟩ | ⟨entry, -, rfl, -⟩
      · exact .singleton (h.trailing hstep)
      · exact .singleton (h.joining hstep)
      · exact h.argumentParts false op.span (h.leading hstep)

theorem partsOf [Spreads ofPart] (h : Places ofStep ofPart) {expectsOperand : Bool}
    {steps : List Step} {parts : List Part} (hsteps : Row ofStep low steps high)
    (hparts : partsOf? table expectsOperand steps = some parts) : Row ofPart low parts high := by
  induction hsteps generalizing expectsOperand parts with
  | nil hle =>
    cases expectsOperand with
    | true => cases hparts
    | false =>
      cases hparts
      exact .nil hle
  | cons hstep _ ih =>
    obtain ⟨first, next, behind, hfirst, hbehind, rfl⟩ := partsOf?_cons_eq_some_iff.mp hparts
    exact (h.parts hstep hfirst).append (ih hbehind)

end Step.Places

theorem Step.lies_places : Step.Places Step.Lies Part.Lies where
  application _ low := Nat.le_refl low
  operand h := h
  conditional h := h
  leading h := h
  joining h := h
  trailing h := h

theorem lies_steps {readings : Reading} {steps : List Step} (h : Row ReadingLies low readings high)
    (hsteps : readings.mapM id = .ok steps) : Row Step.Lies low steps high := by
  induction h generalizing steps with
  | nil h =>
    cases hsteps
    exact .nil h
  | cons hfirst _ ih =>
    obtain ⟨step, rest, hstep, hrest, rfl⟩ := mapM_cons_eq_ok_iff.mp hsteps
    exact .cons (hfirst.2 step hstep) (ih hrest)

theorem lies_of_assemble {readings : Reading} {span : Span} {e : Expr}
    (h : Row ReadingLies low readings high) (hassemble : assemble table span readings = .ok e) :
    e.Lies low high := by
  obtain ⟨steps, g, hsteps, hparts, rfl⟩ := grouping_of_assemble hassemble
  exact Grouping.lies_expr (Step.lies_places.partsOf (lies_steps h hsteps) hparts)

/-! ## Sections and groups -/

variable {span : Span} (hlow : span.start ≤ low) (hhigh : high ≤ span.stop)

include hlow hhigh

theorem lies_of_assembleSection {op : OperatorUse} {hole : Hole} {operand : Reading}
    {operandSpan : Span} {e : Expr} (h : Row ReadingLies low (hole.readings op operand) high)
    (hsection : assembleSection table op hole operand operandSpan span = .ok e) :
    e.Lies span.start span.stop := by
  rcases assembleSection_cases hsection with hall | ⟨inner, hinner, rfl, -⟩
  · exact Expr.spreads.widen (lies_of_assemble h hall) hlow hhigh
  · cases hole with
    | left =>
      obtain _ | ⟨hop, hoperand⟩ := h
      have hop' : op.Lies low _ := hop.2 _ rfl
      have hrow : Row Node.Lies low [.operator op, .expression inner] high :=
        .cons hop' (.singleton (lies_of_assemble hoperand hinner))
      exact Expr.lies_of_row rfl (Nat.le_refl _) (Nat.le_refl _) List.mem_cons_self
        (hrow.widen hlow hhigh)
    | right =>
      obtain ⟨middle, hoperand, hop⟩ := h.split
      have hop' : op.Lies middle high := hop.of_singleton.2 _ rfl
      have hrow : Row Node.Lies low [.expression inner, .operator op] high :=
        .cons (lies_of_assemble hoperand hinner) (.singleton hop')
      exact Expr.lies_of_row rfl (Nat.le_refl _) (Nat.le_refl _) List.mem_cons_self
        (hrow.widen hlow hhigh)

theorem lies_operatorLiteral {op : OperatorUse} (h : op.Lies low high) :
    (Expr.operatorLiteral op span).Lies span.start span.stop := by
  have hrow : Row Node.Lies low [.operator op] high := .singleton h
  exact Expr.lies_of_row rfl (Nat.le_refl _) (Nat.le_refl _) List.mem_cons_self
    (hrow.widen hlow hhigh)

theorem lies_of_assembleGroup {items : List RunItem} {runSpan : Span} {e : Expr}
    (h : Row ReadingLies low (readItems table items) high)
    (hgroup : assembleGroup table items (readItems table items) runSpan span = .ok e) :
    e.Lies span.start span.stop := by
  rcases assembleGroup_cases hgroup with
    ⟨op, hreadings, rfl⟩ | ⟨op, hole, operand, operandSpan, hreadings, hsection⟩ | hall
  · rw [hreadings] at h
    exact lies_operatorLiteral hlow hhigh (h.of_singleton.2 _ rfl)
  · rw [hreadings] at h
    exact lies_of_assembleSection hlow hhigh h hsection
  · exact Expr.spreads.widen (lies_of_assemble h hall) hlow hhigh

end Assembling

/-! ## Runs and items -/

section Runs

variable (table : OperatorTable)

/-- Whatever the atom is resolved to stands on its span. -/
structure Atom.Lies (low : Nat) (a : Atom) (high : Nat) : Prop where
  low_le : low ≤ a.span.start
  nonempty : a.span.start < a.span.stop
  le_high : a.span.stop ≤ high
  resolve : ∀ e, a.resolve table = .ok e → e.Lies a.span.start a.span.stop

def RunItem.Lies (low : Nat) (item : RunItem) (high : Nat) : Prop :=
  match item with
  | .atom a => a.Lies table low high
  | .operator op => op.Lies low high
  | .conditional condition thenBranch span => low ≤ high ∧
    ∀ test branch, condition.resolve table = .ok test →
      resolveOption table thenBranch = .ok branch →
      (Leading.conditional test branch span).Lies low high

def Run.Lies (low : Nat) (run : Run) (high : Nat) : Prop :=
  Row (RunItem.Lies table) low run.items high

instance RunItem.spreads : Spreads (RunItem.Lies table) where
  le {_ _ item} h := by
    cases item with
    | atom a =>
      have hlow := Atom.Lies.low_le h
      have hnonempty := Atom.Lies.nonempty h
      have hhigh := Atom.Lies.le_high h
      omega
    | operator op => exact OperatorUse.spreads.le h
    | conditional condition thenBranch span => exact h.1
  widen {_ _ _ _ item} h hlow hhigh := by
    cases item with
    | atom a =>
      obtain ⟨hstart, hnonempty, hstop, hresolve⟩ := h
      exact ⟨Nat.le_trans hlow hstart, hnonempty, Nat.le_trans hstop hhigh, hresolve⟩
    | operator op => exact OperatorUse.spreads.widen h hlow hhigh
    | conditional condition thenBranch span =>
      refine ⟨Nat.le_trans hlow (Nat.le_trans h.1 hhigh), fun test branch htest hbranch => ?_⟩
      exact Leading.spreads.widen (h.2 test branch htest hbranch) hlow hhigh

instance Run.spreads : Spreads (Run.Lies table) where
  le h := Row.le h
  widen h hlow hhigh := Row.widen h hlow hhigh

variable {table} {low high : Nat}

theorem span_of_wordOperator {a : Atom} {op : OperatorUse}
    (h : wordOperator? table (.atom a) = some op) : op.span = a.span := by
  cases a with
  | identifier name span =>
    simp only [wordOperator?] at h
    split at h <;> cases h
    rfl
  | _ => cases h

theorem RunItem.lies_read {item : RunItem} (h : item.Lies table low high) :
    ReadingLies low (item.read table) high := by
  refine ⟨(RunItem.spreads table).le h, fun step hstep => ?_⟩
  cases item with
  | operator op =>
    cases hstep
    exact h
  | atom a =>
    obtain ⟨hlow, hnonempty, hhigh, hresolve⟩ := h
    cases hword : wordOperator? table (.atom a) with
    | some op =>
      obtain rfl := Except.ok.inj ((read_of_wordOperator hword).symm.trans hstep)
      have hspan := span_of_wordOperator hword
      exact OperatorUse.lies (hspan ▸ hlow) (hspan ▸ hnonempty) (hspan ▸ hhigh)
    | none =>
      simp only [RunItem.read, hword] at hstep
      obtain ⟨value, hvalue, hoperand⟩ := bind_eq_ok_iff.mp hstep
      cases hoperand
      exact Expr.spreads.widen (hresolve value hvalue) hlow hhigh
  | conditional condition thenBranch span =>
    obtain ⟨test, htest, hrest⟩ := bind_eq_ok_iff.mp hstep
    obtain ⟨branch, hbranch, hconditional⟩ := bind_eq_ok_iff.mp hrest
    cases hconditional
    exact h.2 test branch htest hbranch

theorem lies_readItems {items : List RunItem} (h : Row (RunItem.Lies table) low items high) :
    Row ReadingLies low (readItems table items) high := by
  induction h with
  | nil h => exact .nil h
  | cons hfirst _ ih => exact .cons (RunItem.lies_read hfirst) ih

theorem Run.lies_resolve {run : Run} {e : Expr} (h : run.Lies table low high)
    (hresolve : run.resolve table = .ok e) : e.Lies low high := by
  obtain ⟨items, span⟩ := run
  exact lies_of_assemble (lies_readItems h) hresolve

theorem lies_resolveAll {runs : List Run} {values : List Expr}
    (h : Row (Run.Lies table) low runs high) (hresolve : resolveAll table runs = .ok values) :
    Row Expr.Lies low values high := by
  induction h generalizing values with
  | nil h =>
    cases hresolve
    exact .nil h
  | cons hfirst _ ih =>
    obtain ⟨first, hvalue, hrest⟩ := bind_eq_ok_iff.mp hresolve
    obtain ⟨others, hothers, hvalues⟩ := bind_eq_ok_iff.mp hrest
    cases hvalues
    exact .cons (Run.lies_resolve hfirst hvalue) (ih hothers)

theorem lies_resolveOption {run : Option Run} {value : Option Expr}
    (h : Row (Run.Lies table) low run.toList high)
    (hresolve : resolveOption table run = .ok value) :
    Row Expr.Lies low value.toList high := by
  cases run with
  | none =>
    cases hresolve
    exact .nil h.le
  | some run =>
    obtain ⟨inner, hinner, hvalue⟩ := bind_eq_ok_iff.mp hresolve
    cases hvalue
    exact .singleton (Run.lies_resolve h.of_singleton hinner)

theorem lies_conditional {condition : Run} {thenBranch : Option Run} {span : Span} {middle : Nat}
    (hlow : low ≤ span.start) (hcondition : condition.Lies table span.start middle)
    (hbranch : Row (Run.Lies table) middle thenBranch.toList high) :
    (RunItem.conditional condition thenBranch span).Lies table low high := by
  have hle := (Run.spreads table).le hcondition
  have hle' := hbranch.le
  refine ⟨by omega, fun test branch htest hresolve => ⟨hlow, ?_⟩⟩
  exact .cons (Run.lies_resolve hcondition htest) (lies_resolveOption hbranch hresolve)

theorem lies_resolveParameters {items : List RunItem} {parameters : List Expr}
    (h : Row (RunItem.Lies table) low items high)
    (hresolve : resolveParameters table items = .ok parameters) :
    Row Expr.Lies low parameters high := by
  induction h generalizing parameters with
  | nil h =>
    cases hresolve
    exact .nil h
  | @cons low middle high item rest hfirst _ ih =>
    cases item with
    | operator op => cases hresolve
    | conditional condition thenBranch span => cases hresolve
    | atom a =>
      obtain ⟨first, hvalue, hrest⟩ := bind_eq_ok_iff.mp hresolve
      obtain ⟨others, hothers, hparameters⟩ := bind_eq_ok_iff.mp hrest
      cases hparameters
      obtain ⟨hlow, -, hhigh, hatom⟩ := hfirst
      exact .cons (Expr.spreads.widen (hatom first hvalue) hlow hhigh) (ih hothers)

/-! ## Containers -/

def ContainerBody.runs : ContainerBody → List Run
  | .empty => []
  | .elements runs _ _ tail => runs ++ tail.toList
  | .enumeration runs bound => runs ++ bound.toList
  | .comprehension template generators => template :: generators

theorem lies_resolveWithLast {runs : List Run} {last : Option Run} {values : List Expr}
    {value : Option Expr} (h : Row (Run.Lies table) low (runs ++ last.toList) high)
    (hvalues : resolveAll table runs = .ok values) (hvalue : resolveOption table last = .ok value) :
    Row Expr.Lies low (values ++ value.toList) high := by
  obtain ⟨middle, hruns, hlast⟩ := h.split
  exact (lies_resolveAll hruns hvalues).append (lies_resolveOption hlast hvalue)

theorem ContainerBody.lies_resolve {body : ContainerBody} {bracket : Bracket} {span : Span}
    {e : Expr} (hnonempty : span.start < span.stop)
    (h : Row (Run.Lies table) span.start body.runs span.stop)
    (hresolve : body.resolve table bracket span = .ok e) : e.Lies span.start span.stop := by
  have hmade {e : Expr} (hspan : e.span = span)
      (hrow : Row Node.Lies span.start e.children span.stop) : e.Lies span.start span.stop := by
    subst hspan
    exact Expr.lies_of_children (Nat.le_refl _) hnonempty (Nat.le_refl _) hrow
  cases body with
  | empty =>
    cases hresolve
    exact hmade rfl (.nil (Nat.le_of_lt hnonempty))
  | elements runs separator trailing tail =>
    obtain ⟨elements, helements, hrest⟩ := bind_eq_ok_iff.mp hresolve
    obtain ⟨last, hlast, hnode⟩ := bind_eq_ok_iff.mp hrest
    cases hnode
    have hrow := (lies_resolveWithLast h helements hlast).expressions
    rw [List.map_append] at hrow
    exact hmade rfl hrow
  | enumeration runs bound =>
    obtain ⟨elements, helements, hrest⟩ := bind_eq_ok_iff.mp hresolve
    obtain ⟨last, hlast, hnode⟩ := bind_eq_ok_iff.mp hrest
    cases hnode
    have hrow := (lies_resolveWithLast h helements hlast).expressions
    rw [List.map_append] at hrow
    exact hmade rfl hrow
  | comprehension template generators =>
    obtain ⟨first, hfirst, hrest⟩ := bind_eq_ok_iff.mp hresolve
    obtain ⟨others, hothers, hnode⟩ := bind_eq_ok_iff.mp hrest
    cases hnode
    obtain _ | ⟨htemplate, hgenerators⟩ := h
    have hrow : Row Expr.Lies span.start (first :: others) span.stop :=
      .cons (Run.lies_resolve htemplate hfirst) (lies_resolveAll hgenerators hothers)
    exact hmade rfl hrow.expressions

theorem operatorForm?_cases (table : OperatorTable) {run : Run} {span : Span} {a : Atom}
    (h : operatorForm? run span = some a) :
    (∃ op, readItems table run.items = [.ok (.operator op)] ∧ a = .operatorLiteral op span) ∨
      ∃ (op : OperatorUse) (hole : Hole) (operand : List RunItem) (operandSpan : Span),
        readItems table run.items = hole.readings op (readItems table operand) ∧
        a = .partialApply op ⟨operand, operandSpan⟩ hole span := by
  unfold operatorForm? at h
  split at h
  · rename_i op hitems
    cases h
    rw [hitems]
    exact .inl ⟨op, rfl, rfl⟩
  · rename_i op rest _ hitems
    cases h
    rw [hitems]
    exact .inr ⟨op, .left, rest, _, rfl, rfl⟩
  · split at h
    · rename_i op hlast
      cases h
      obtain ⟨front, hitems⟩ := List.getLast?_eq_some_iff.mp hlast
      rw [hitems, List.dropLast_concat]
      exact .inr ⟨op, .right, front, _, readItems_append front [.operator op], rfl⟩
    · cases h

theorem closedContainer_empty (bracket : Bracket) (span : Span) :
    closedContainer bracket .empty span = .container bracket .empty span := by
  cases bracket <;> rfl

theorem lies_closedContainer {bracket : Bracket} {body : ContainerBody} {span : Span}
    (hnonempty : span.start < span.stop)
    (h : Row (Run.Lies table) span.start body.runs span.stop) :
    (closedContainer bracket body span).Lies table span.start span.stop := by
  have hcontainer : (Atom.container bracket body span).Lies table span.start span.stop := by
    refine ⟨Nat.le_refl _, hnonempty, Nat.le_refl _, fun e hresolve => ?_⟩
    rcases Atom.resolve_container bracket body span with ⟨items, runSpan, rfl, hgroup⟩ | hbody
    · rw [hgroup] at hresolve
      exact lies_of_assembleGroup (Nat.le_refl _) (Nat.le_refl _) (lies_readItems h.of_singleton)
        hresolve
    · rw [hbody] at hresolve
      exact ContainerBody.lies_resolve hnonempty h hresolve
  unfold closedContainer
  split
  · rename_i run
    have hrun : Row ReadingLies span.start (readItems table run.items) span.stop :=
      lies_readItems h.of_singleton
    cases hform : operatorForm? run span with
    | none => exact hcontainer
    | some a =>
      rw [Option.getD_some]
      rcases operatorForm?_cases table hform with
        ⟨op, hreadings, rfl⟩ | ⟨op, hole, operand, operandSpan, hreadings, rfl⟩
      · rw [hreadings] at hrun
        refine ⟨Nat.le_refl _, hnonempty, Nat.le_refl _, fun e hresolve => ?_⟩
        cases hresolve
        exact lies_operatorLiteral (Nat.le_refl _) (Nat.le_refl _) (hrun.of_singleton.2 _ rfl)
      · rw [hreadings] at hrun
        refine ⟨Nat.le_refl _, hnonempty, Nat.le_refl _, fun e hresolve => ?_⟩
        exact lies_of_assembleSection (Nat.le_refl _) (Nat.le_refl _) hrun hresolve
  · exact hcontainer

end Runs

end Equational

import Equational.Statement
import Mathlib.Logic.Relation

/-!
# Nodes

Statements, their clauses, qualifiers, headers and sections, their expressions and the operators in
them are the nodes of one tree.  Each has a span and, in source order, its children.

Expressions stand only at certain positions of a statement.  An error node can be found below a
statement just if one of the expressions at these positions contains it.
-/

namespace Equational

inductive Node where
  | statement (statement : Statement)
  | clause (clause : Clause)
  | qualifier (qualifier : Qualifier)
  | header (header : Header)
  | typeSection (section_ : TypeSection)
  | expression (e : Expr)
  | operator (op : OperatorUse)

/-! ## Children -/

namespace Expr

/-- Compositions, sequences and applications by the dollar operator do not record where their
operator is written. -/
def children : Expr → List Node
  | identifier _ _ | declared _ _ | typed _ _ _ | number _ _ | string _ _ | error _ => []
  | apply left right _ | composition left right _ | sequence left right _
  | infixApply left right _ => [.expression left, .expression right]
  | binary op left right _ => [.expression left, .operator op, .expression right]
  | unary op .before operand _ | quotation op operand _ | partialApply op operand .left _ =>
    [.operator op, .expression operand]
  | unary op .behind operand _ | partialApply op operand .right _ =>
    [.expression operand, .operator op]
  | conditional condition thenBranch elseBranch _ =>
    .expression condition :: .expression thenBranch :: elseBranch.toList.map .expression
  | lambda parameters body _ => parameters.map .expression ++ [.expression body]
  | collection _ elements _ last _ | enumeration _ elements last _ =>
    elements.map .expression ++ last.toList.map .expression
  | comprehension _ template generators _ =>
    .expression template :: generators.map .expression
  | operatorLiteral op _ => [.operator op]

end Expr

def Binding.children (binding : Binding) : List Node :=
  [.expression binding.pattern, .expression binding.value]

def Header.children : Header → List Node
  | binding _ value _ => [.expression value]
  | symbol _ _ _ _ _ => []

def Qualifier.children : Qualifier → List Node
  | guard condition _ => [.expression condition]
  | otherwise _ => []
  | bindings found _ => found.flatMap Binding.children

def Clause.children (clause : Clause) : List Node :=
  clause.leading.map .qualifier ++ .expression clause.rhs :: clause.trailing.map .qualifier

def Statement.children : Statement → List Node
  | headers _ _ found _ => found.map .header
  | typeDeclaration _ definition _ => definition.sections.map .typeSection
  | equation lhs clauses _ => .expression lhs :: clauses.map .clause
  | definitions pairs _ => pairs.flatMap Binding.children
  | imports _ _ _ | importsFrom _ _ _ _ | typeRename _ _ _ _ | typeSynonym _ _ _ _
  | pragma _ _ _ | undefine _ _ => []

namespace Node

def children : Node → List Node
  | statement s => s.children
  | clause c => c.children
  | qualifier q => q.children
  | header h => h.children
  | typeSection t => t.headers.map header
  | expression e => e.children
  | operator _ => []

def span : Node → Span
  | statement s => s.span
  | clause c => c.span
  | qualifier q => q.span
  | header h => h.span
  | typeSection t => t.span
  | expression e => e.span
  | operator op => op.span

/-- The second node is the first one or stands somewhere below it. -/
abbrev Reaches : Node → Node → Prop :=
  Relation.ReflTransGen fun parent child => child ∈ parent.children

end Node

/-! ## Positions of expressions -/

def Binding.positions (binding : Binding) : List Expr := [binding.pattern, binding.value]

def Header.positions : Header → List Expr
  | binding _ value _ => [value]
  | symbol _ _ _ _ _ => []

def TypeSection.positions (section_ : TypeSection) : List Expr :=
  section_.headers.flatMap Header.positions

def Qualifier.positions : Qualifier → List Expr
  | guard condition _ => [condition]
  | otherwise _ => []
  | bindings found _ => found.flatMap Binding.positions

def Clause.positions (clause : Clause) : List Expr :=
  clause.leading.flatMap Qualifier.positions ++
    clause.rhs :: clause.trailing.flatMap Qualifier.positions

/-- The expressions of a statement that stand in no other one. -/
def Statement.positions : Statement → List Expr
  | headers _ _ found _ => found.flatMap Header.positions
  | typeDeclaration _ definition _ => definition.sections.flatMap TypeSection.positions
  | equation lhs clauses _ => lhs :: clauses.flatMap Clause.positions
  | definitions pairs _ => pairs.flatMap Binding.positions
  | imports _ _ _ | importsFrom _ _ _ _ | typeRename _ _ _ _ | typeSynonym _ _ _ _
  | pragma _ _ _ | undefine _ _ => []

namespace Node

def positions : Node → List Expr
  | statement s => s.positions
  | clause c => c.positions
  | qualifier q => q.positions
  | header h => h.positions
  | typeSection t => t.positions
  | expression e => [e]
  | operator _ => []

theorem flatMap_bindings (bindings : List Binding) :
    (bindings.flatMap Binding.children).flatMap positions = bindings.flatMap Binding.positions := by
  rw [List.flatMap_assoc]
  rfl

theorem positions_eq {node : Node} (h : ∀ e, node ≠ expression e) :
    node.positions = node.children.flatMap positions := by
  cases node with
  | statement s =>
    cases s <;> simp [positions, children, Statement.positions, Statement.children,
      flatMap_bindings, List.flatMap_map]
  | clause c =>
    simp [positions, children, Clause.positions, Clause.children, List.flatMap_map]
  | qualifier q =>
    cases q <;>
      simp [positions, children, Qualifier.positions, Qualifier.children, flatMap_bindings]
  | header found => cases found <;> rfl
  | typeSection t => simp [positions, children, TypeSection.positions, List.flatMap_map]
  | expression e => exact absurd rfl (h e)
  | operator op => rfl

end Node

/-! ## Error nodes -/

theorem Node.eq_of_mem_positions {e inner : Expr} {child : Node} (hchild : child ∈ e.children)
    (h : inner ∈ child.positions) : child = .expression inner := by
  have hkind : (∃ e, child = .expression e) ∨ ∃ op, child = .operator op := by
    cases e with
    | unary op place operand span => cases place <;> simp [Expr.children] at hchild <;> grind
    | partialApply op operand hole span => cases hole <;> simp [Expr.children] at hchild <;> grind
    | _ => simp [Expr.children] at hchild <;> grind
  rcases hkind with ⟨e, rfl⟩ | ⟨op, rfl⟩
  · rw [List.mem_singleton.mp h]
  · cases h

namespace Expr

private theorem anyContainsError_eq (values : List Expr) :
    anyContainsError values = values.any containsError := by
  induction values with
  | nil => rw [anyContainsError, List.any_nil]
  | cons first rest ih => rw [anyContainsError, List.any_cons, ih]

private theorem optionContainsError_eq (value : Option Expr) :
    optionContainsError value = value.toList.any containsError := by
  cases value <;> simp [optionContainsError]

theorem containsError_eq (e : Expr) :
    e.containsError = (e.isError || (e.children.flatMap Node.positions).any containsError) := by
  cases e with
  | unary op place operand span =>
    cases place <;> simp [containsError, isError, children, Node.positions]
  | partialApply op operand hole span =>
    cases hole <;> simp [containsError, isError, children, Node.positions]
  | _ =>
    simp [containsError, isError, children, Node.positions, anyContainsError_eq,
      optionContainsError_eq, List.flatMap_map, Bool.or_assoc]

private theorem sizeOf_lt_of_mem_children {e inner : Expr} (h : .expression inner ∈ e.children) :
    sizeOf inner < sizeOf e := by
  have hlist (values : List Expr) (hmem : inner ∈ values) : sizeOf inner < sizeOf values :=
    List.sizeOf_lt_of_mem hmem
  have hoption (value : Option Expr) (hmem : value = some inner) : sizeOf inner < sizeOf value := by
    simp [hmem]
  cases e with
  | unary op place operand span => cases place <;> simp_all [children] <;> omega
  | partialApply op operand hole span => cases hole <;> simp_all [children] <;> omega
  | _ => simp [children] at h <;> grind

theorem reaches_error {e : Expr} (h : e.containsError) :
    ∃ span, Node.Reaches (.expression e) (.expression (.error span)) := by
  rw [containsError_eq, Bool.or_eq_true] at h
  rcases h with herror | hbelow
  · cases e with
    | error span => exact ⟨span, .refl⟩
    | _ => cases herror
  · obtain ⟨inner, hinner, hcontains⟩ := List.any_eq_true.mp hbelow
    obtain ⟨child, hchild, hposition⟩ := List.mem_flatMap.mp hinner
    obtain rfl := Node.eq_of_mem_positions hchild hposition
    have hsmaller := sizeOf_lt_of_mem_children hchild
    obtain ⟨span, hreaches⟩ := reaches_error hcontains
    exact ⟨span, .head hchild hreaches⟩
termination_by sizeOf e

end Expr

namespace Node

def rank : Node → Nat
  | statement _ => 3
  | clause _ | typeSection _ => 2
  | qualifier _ | header _ => 1
  | expression _ | operator _ => 0

private theorem rank_lt {parent child : Node} (h : ∀ e, parent ≠ expression e)
    (hchild : child ∈ parent.children) : child.rank < parent.rank := by
  cases parent with
  | statement s =>
    cases s <;> simp [children, Statement.children, Binding.children] at hchild <;> grind [rank]
  | clause c =>
    simp [children, Clause.children] at hchild
    grind [rank]
  | qualifier q =>
    cases q <;> simp [children, Qualifier.children, Binding.children] at hchild <;> grind [rank]
  | header found =>
    cases found <;> simp [children, Header.children] at hchild
    grind [rank]
  | typeSection t =>
    simp [children] at hchild
    grind [rank]
  | expression e => exact absurd rfl (h e)
  | operator op => cases hchild

theorem reaches_position {node : Node} {e : Expr} (h : e ∈ node.positions) :
    node.Reaches (.expression e) := by
  by_cases hexpression : ∃ outer, node = .expression outer
  · obtain ⟨outer, rfl⟩ := hexpression
    rw [List.mem_singleton.mp h]
  · have hnode := not_exists.mp hexpression
    rw [positions_eq hnode] at h
    obtain ⟨child, hchild, hposition⟩ := List.mem_flatMap.mp h
    have hrank := rank_lt hnode hchild
    exact .head hchild (reaches_position hposition)
termination_by node.rank

/-- Error nodes are found below the positions of expressions, and nowhere else. -/
theorem reaches_error_iff (node : Node) :
    (∃ span, node.Reaches (.expression (.error span))) ↔
      ∃ e ∈ node.positions, e.containsError := by
  constructor
  · rintro ⟨span, hreaches⟩
    induction hreaches using Relation.ReflTransGen.head_induction_on with
    | refl => exact ⟨.error span, List.mem_singleton_self _, rfl⟩
    | @head parent child hchild _ ih =>
      obtain ⟨e, he, hcontains⟩ := ih
      have hbelow : e ∈ parent.children.flatMap positions := List.mem_flatMap_of_mem hchild he
      by_cases hexpression : ∃ outer, parent = .expression outer
      · obtain ⟨outer, rfl⟩ := hexpression
        refine ⟨outer, List.mem_singleton_self _, ?_⟩
        rw [Expr.containsError_eq, Bool.or_eq_true]
        exact .inr (List.any_eq_true.mpr ⟨e, hbelow, hcontains⟩)
      · rw [← positions_eq (not_exists.mp hexpression)] at hbelow
        exact ⟨e, hbelow, hcontains⟩
  · rintro ⟨e, he, hcontains⟩
    obtain ⟨span, hreaches⟩ := Expr.reaches_error hcontains
    exact ⟨span, (reaches_position he).trans hreaches⟩

end Node

end Equational

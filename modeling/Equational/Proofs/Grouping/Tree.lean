import Equational.Expr.Resolve

/-!
# Groupings of a run

How operators and operands nest is a tree over the parts of a run, in which the atoms of the run are
leaves that are not looked into.  A grouping is admissible if every operator is on the right side of
its neighbours: what stands on the right spine of a left operand binds before the operator behind
it, and what stands on the left spine of a right operand belongs there.
-/

namespace Equational

/-! ## Ranks -/

structure Rank where
  precedence : Nat
  fixity : Fixity
  deriving DecidableEq, Repr

namespace Rank

/-- The left operator is complete before the right one takes its left operand. -/
def Pops (left right : Rank) : Prop :=
  right.precedence < left.precedence ∨
    left.precedence = right.precedence ∧
      (left.fixity = .prefixOp ∧ right.fixity ≠ .infixRight ∨
        left.fixity = .infixLeft ∧ (right.fixity = .infixLeft ∨ right.fixity = .postfixOp) ∨
        left.fixity = .infixRight ∧ right.fixity = .postfixOp)

/-- The right operator belongs to the right operand of the left one. -/
def Keeps (left right : Rank) : Prop :=
  left.precedence < right.precedence ∨
    left.precedence = right.precedence ∧
      (left.fixity = .prefixOp ∨ left.fixity = .infixRight) ∧ right.fixity = .infixRight

def against (left right : Rank) : Verdict :=
  verdict left.precedence left.fixity right.precedence right.fixity

theorem against_eq_apply_iff (left right : Rank) :
    left.against right = .apply ↔ left.Pops right := by
  obtain ⟨leftLevel, leftFixity⟩ := left
  obtain ⟨rightLevel, rightFixity⟩ := right
  simp only [against, verdict, Pops]
  by_cases hlevel : leftLevel = rightLevel
  · cases leftFixity <;> cases rightFixity <;> simp [hlevel]
  · have hother : rightLevel < leftLevel ∨ leftLevel < rightLevel := by omega
    rcases hother with h | h <;> simp [hlevel, h, Nat.not_lt_of_lt h]

theorem against_eq_keep_iff (left right : Rank) :
    left.against right = .keep ↔ left.Keeps right := by
  obtain ⟨leftLevel, leftFixity⟩ := left
  obtain ⟨rightLevel, rightFixity⟩ := right
  simp only [against, verdict, Keeps]
  by_cases hlevel : leftLevel = rightLevel
  · cases leftFixity <;> cases rightFixity <;> simp [hlevel]
  · have hother : rightLevel < leftLevel ∨ leftLevel < rightLevel := by omega
    rcases hother with h | h <;> simp [hlevel, h, Nat.not_lt_of_lt h]

end Rank

/-! ## Operators by the operands they take -/

inductive Leading where
  | prefixed (op : OperatorUse) (entry : OperatorEntry)
  | conditional (condition : Expr) (thenBranch : Option Expr) (span : Span)

inductive Joining where
  | binary (op : OperatorUse) (entry : OperatorEntry)
  | application (span : Span)

structure Trailing where
  op : OperatorUse
  entry : OperatorEntry

def OperatorEntry.rank (entry : OperatorEntry) : Rank := ⟨entry.precedence, entry.fixity⟩

def Pending.rank (pending : Pending) : Rank := ⟨pending.precedence, pending.fixity⟩

namespace Leading

def pending : Leading → Pending
  | prefixed op entry => .prefixed op entry
  | conditional condition thenBranch span => .conditional condition thenBranch span

def rank (operator : Leading) : Rank := operator.pending.rank

def node : Leading → Expr → Expr
  | prefixed op _, operand => prefixNode op operand
  | conditional condition thenBranch span, operand =>
    conditionalNode condition thenBranch span operand

@[simp] theorem apply_pending (operator : Leading) (operand : Expr) (rest : List Expr) :
    operator.pending.apply (operand :: rest) = .ok (operator.node operand :: rest) := by
  cases operator <;> rfl

end Leading

namespace Joining

def pending : Joining → Pending
  | binary op entry => .binary op entry
  | application span => .application span

def rank (operator : Joining) : Rank := operator.pending.rank

def node : Joining → Expr → Expr → Expr
  | binary op _, left, right => binaryNode op left right
  | application _, left, right => .apply left right (left.span.through right.span)

@[simp] theorem apply_pending (operator : Joining) (left right : Expr) (rest : List Expr) :
    operator.pending.apply (right :: left :: rest) = .ok (operator.node left right :: rest) := by
  cases operator <;> rfl

end Joining

namespace Trailing

def rank (operator : Trailing) : Rank := operator.entry.rank

def node (operator : Trailing) (operand : Expr) : Expr :=
  .unary operator.op .behind operand (operand.span.through operator.op.span)

end Trailing

/-! ## Parts of a run -/

/-- A step of a run in the role it plays there.  A juxtaposition is a part of its own. -/
inductive Part where
  | operand (value : Expr)
  | leading (operator : Leading)
  | joining (operator : Joining)
  | trailing (operator : Trailing)

/-- An operator behind an operand, and whether it needs another operand: the last step of a run is
a postfix operator if it can be, any other one an infix operator if it can be. -/
def followingParts? (table : OperatorTable) (isLast : Bool) (op : OperatorUse) :
    Option (List Part × Bool) :=
  match table.lookupName op.name .infixOp, table.lookupName op.name .postfixOp,
    table.lookupName op.name .prefixOp with
  | none, some entry, _ => some ([.trailing ⟨op, entry⟩], false)
  | some entry, none, _ => some ([.joining (.binary op entry)], true)
  | some entry, some behind, _ =>
    if isLast then some ([.trailing ⟨op, behind⟩], false)
    else some ([.joining (.binary op entry)], true)
  | none, none, some entry =>
    some ([.joining (.application op.span), .leading (.prefixed op entry)], true)
  | none, none, none => none

theorem followingParts?_cases {table : OperatorTable} {isLast next : Bool} {op : OperatorUse}
    {parts : List Part} (h : followingParts? table isLast op = some (parts, next)) :
    (∃ entry, table.lookupName op.name .postfixOp = some entry ∧
      parts = [.trailing ⟨op, entry⟩] ∧ next = false) ∨
    (∃ entry, table.lookupName op.name .infixOp = some entry ∧
      parts = [.joining (.binary op entry)] ∧ next = true) ∨
    ∃ entry, table.lookupName op.name .prefixOp = some entry ∧
      parts = [.joining (.application op.span), .leading (.prefixed op entry)] ∧ next = true := by
  unfold followingParts? at h
  split at h
  · rename_i entry _ hbehind
    cases h
    exact .inl ⟨entry, hbehind, rfl, rfl⟩
  · rename_i entry hjoin _
    cases h
    exact .inr (.inl ⟨entry, hjoin, rfl, rfl⟩)
  · rename_i entry behind hjoin hbehind
    cases isLast with
    | true =>
      cases h
      exact .inl ⟨behind, hbehind, rfl, rfl⟩
    | false =>
      cases h
      exact .inr (.inl ⟨entry, hjoin, rfl, rfl⟩)
  · rename_i entry _ _ hlead
    cases h
    exact .inr (.inr ⟨entry, hlead, rfl, rfl⟩)
  · cases h

def argumentParts (expectsOperand : Bool) (span : Span) : List Part :=
  if expectsOperand then [] else [.joining (.application span)]

/-- A step in its role, and whether an operand has to come next; nothing if the table has no entry
for the operator in the role that its place requires. -/
def Step.parts? (table : OperatorTable) (expectsOperand isLast : Bool) :
    Step → Option (List Part × Bool)
  | .operand value => some (argumentParts expectsOperand value.span ++ [.operand value], false)
  | .conditional condition thenBranch span =>
    some (argumentParts expectsOperand span ++
      [.leading (.conditional condition thenBranch span)], true)
  | .operator op =>
    if expectsOperand then
      (table.lookupName op.name .prefixOp).map fun entry => ([.leading (.prefixed op entry)], true)
    else followingParts? table isLast op

def partsOf? (table : OperatorTable) : Bool → List Step → Option (List Part)
  | expectsOperand, [] => if expectsOperand then none else some []
  | expectsOperand, step :: rest => do
    let (parts, next) ← step.parts? table expectsOperand rest.isEmpty
    return parts ++ (← partsOf? table next rest)

theorem partsOf?_cons_eq_some_iff {table : OperatorTable} {expectsOperand : Bool} {step : Step}
    {rest : List Step} {parts : List Part} :
    partsOf? table expectsOperand (step :: rest) = some parts ↔
      ∃ first next behind, step.parts? table expectsOperand rest.isEmpty = some (first, next) ∧
        partsOf? table next rest = some behind ∧ parts = first ++ behind := by
  simp only [partsOf?, Option.bind_eq_bind, Option.bind_eq_some_iff]
  constructor
  · rintro ⟨⟨first, next⟩, hfirst, behind, hbehind, hparts⟩
    cases hparts
    exact ⟨first, next, behind, hfirst, hbehind, rfl⟩
  · rintro ⟨first, next, behind, hfirst, hbehind, rfl⟩
    exact ⟨(first, next), hfirst, behind, hbehind, rfl⟩

def Run.read (table : OperatorTable) (run : Run) : Except Diagnostic (List Step) :=
  (readItems table run.items).mapM id

/-! ## Groupings -/

inductive Grouping where
  | leaf (value : Expr)
  | leading (operator : Leading) (operand : Grouping)
  | joining (operator : Joining) (left right : Grouping)
  | trailing (operator : Trailing) (operand : Grouping)

namespace Grouping

def parts : Grouping → List Part
  | leaf value => [.operand value]
  | leading operator operand => .leading operator :: operand.parts
  | joining operator left right => left.parts ++ .joining operator :: right.parts
  | trailing operator operand => operand.parts ++ [.trailing operator]

def expr : Grouping → Expr
  | leaf value => value
  | leading operator operand => operator.node operand.expr
  | joining operator left right => operator.node left.expr right.expr
  | trailing operator operand => operator.node operand.expr

def leftSpine : Grouping → List Rank
  | leaf _ | leading _ _ => []
  | joining operator left _ => operator.rank :: left.leftSpine
  | trailing operator operand => operator.rank :: operand.leftSpine

def rightSpine : Grouping → List Rank
  | leaf _ | trailing _ _ => []
  | leading operator operand => operator.rank :: operand.rightSpine
  | joining operator _ right => operator.rank :: right.rightSpine

/-- Whether every operator has the operands that its neighbours leave to it. -/
def Admissible : Grouping → Prop
  | leaf _ => True
  | leading operator operand =>
    operand.Admissible ∧ ∀ inner ∈ operand.leftSpine, operator.rank.Keeps inner
  | joining operator left right =>
    left.Admissible ∧ right.Admissible ∧
      (∀ inner ∈ left.rightSpine, inner.Pops operator.rank) ∧
      ∀ inner ∈ right.leftSpine, operator.rank.Keeps inner
  | trailing operator operand =>
    operand.Admissible ∧ ∀ inner ∈ operand.rightSpine, inner.Pops operator.rank

end Grouping

end Equational

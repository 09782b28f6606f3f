import Equational.Expr
import Equational.Operator.Table
import Equational.Run

/-!
# Resolving runs

A run becomes an expression under an operator table.  First each item is read as a step: an operand,
whose inner runs are resolved on the way, an operator or a conditional.  The steps are then arranged
from left to right with a stack of operands and a stack of pending operators; a pending operator is
applied as soon as an operator arrives that binds its right operand less tightly.

Writing a function in front of its argument counts as a left associative operator of the
application level, and a conditional as a prefix operator of the conditional level.
-/

namespace Equational

/-! ## Pending operators -/

inductive Pending where
  | binary (op : OperatorUse) (entry : OperatorEntry)
  | prefixed (op : OperatorUse) (entry : OperatorEntry)
  | application (span : Span)
  | conditional (condition : Expr) (thenBranch : Option Expr) (span : Span)

namespace Pending

def precedence : Pending → Nat
  | binary _ entry | prefixed _ entry => entry.precedence
  | application _ => Band.application.level
  | conditional _ _ _ => Band.conditional.level

def fixity : Pending → Fixity
  | binary _ entry | prefixed _ entry => entry.fixity
  | application _ => .infixLeft
  | conditional _ _ _ => .prefixOp

def symbol : Pending → String
  | binary op _ | prefixed op _ => op.text
  | application _ => "application"
  | conditional _ _ _ => "if"

def span : Pending → Span
  | binary op _ | prefixed op _ => op.span
  | application span | conditional _ _ span => span

end Pending

/-! ## Nodes -/

/-- Dot, double bar and dollar have nodes of their own, unless they are qualified. -/
def binaryNode (op : OperatorUse) (left right : Expr) : Expr :=
  let span := left.span.through right.span
  match op.name.moduleName, op.name.symbol with
  | none, "." => .composition left right span
  | none, "||" => .sequence left right span
  | none, "$" => .infixApply left right span
  | _, _ => .binary op left right span

def isQuotationMarker (op : OperatorUse) : Bool :=
  op.name.moduleName.isNone && ["`", "'", "~", "&"].contains op.name.symbol

def prefixNode (op : OperatorUse) (operand : Expr) : Expr :=
  let span := op.span.through operand.span
  if isQuotationMarker op then .quotation op operand span else .unary op .before operand span

def conditionalNode (condition : Expr) (thenBranch : Option Expr) (span : Span) (last : Expr) :
    Expr :=
  match thenBranch with
  | some branch => .conditional condition branch (some last) (span.through last.span)
  | none => .conditional condition last none (span.through last.span)

/-! ## Diagnostics -/

def undeclared (op : OperatorUse) : Diagnostic := ⟨.undeclaredOperator op.text, op.span⟩

def missingOperand (op : OperatorUse) (side : OperandSide) : Diagnostic :=
  ⟨.missingOperand op.text side, op.span⟩

/-! ## Applying pending operators -/

def Pending.apply (pending : Pending) : List Expr → Except Diagnostic (List Expr)
  | [] => .error ⟨.missingOperand pending.symbol .right, pending.span⟩
  | right :: operands =>
    match pending, operands with
    | .binary op _, left :: rest => .ok (binaryNode op left right :: rest)
    | .binary op _, [] => .error (missingOperand op .left)
    | .prefixed op _, rest => .ok (prefixNode op right :: rest)
    | .application _, function :: rest =>
      .ok (.apply function right (function.span.through right.span) :: rest)
    | .application span, [] => .error ⟨.emptyRun, span⟩
    | .conditional condition thenBranch span, rest =>
      .ok (conditionalNode condition thenBranch span right :: rest)

inductive Verdict where
  /-- It is applied before the other one is taken up. -/
  | apply
  /-- It waits, and the other one belongs to its right operand. -/
  | keep
  /-- Neither binds more tightly, and they do not associate. -/
  | clash
  deriving DecidableEq, Repr

/-- At different levels the higher one binds first; at the same level the fixities decide. -/
def verdict (precedence : Nat) (fixity : Fixity) (arrivingPrecedence : Nat)
    (arrivingFixity : Fixity) : Verdict :=
  if precedence ≠ arrivingPrecedence then
    if arrivingPrecedence < precedence then .apply else .keep
  else
    match fixity, arrivingFixity with
    | .prefixOp, .infixRight => .keep
    | .prefixOp, _ => .apply
    | .infixLeft, .infixLeft | .infixLeft, .postfixOp => .apply
    | .infixRight, .infixRight => .keep
    | .infixRight, .postfixOp => .apply
    | _, _ => .clash

structure Arrival where
  precedence : Nat
  fixity : Fixity
  symbol : String
  span : Span

def Pending.arrival (pending : Pending) : Arrival :=
  ⟨pending.precedence, pending.fixity, pending.symbol, pending.span⟩

/-- Operands and pending operators, the latest first. -/
structure Stacks where
  operands : List Expr
  pending : List Pending

/-- Applies every pending operator that an arriving one does not belong to. -/
def applyFor (arrival : Arrival) : List Expr → List Pending → Except Diagnostic Stacks
  | operands, [] => .ok ⟨operands, []⟩
  | operands, top :: rest =>
    match verdict top.precedence top.fixity arrival.precedence arrival.fixity with
    | .keep => .ok ⟨operands, top :: rest⟩
    | .clash => .error ⟨.ambiguousChain top.symbol arrival.symbol, arrival.span⟩
    | .apply => do
      let operands ← top.apply operands
      applyFor arrival operands rest

def applyAll : List Expr → List Pending → Except Diagnostic (List Expr)
  | operands, [] => .ok operands
  | operands, top :: rest => do
    let operands ← top.apply operands
    applyAll operands rest

namespace Stacks

def pushOperand (held : Stacks) (operand : Expr) : Stacks :=
  { held with operands := operand :: held.operands }

def pushPending (held : Stacks) (pending : Pending) : Stacks :=
  { held with pending := pending :: held.pending }

def takeUp (held : Stacks) (pending : Pending) : Except Diagnostic Stacks := do
  let applied ← applyFor pending.arrival held.operands held.pending
  return applied.pushPending pending

def takePostfix (held : Stacks) (op : OperatorUse) (entry : OperatorEntry) :
    Except Diagnostic Stacks := do
  let arrival : Arrival := ⟨entry.precedence, .postfixOp, op.text, op.span⟩
  let applied ← applyFor arrival held.operands held.pending
  match applied.operands with
  | operand :: rest =>
    let node := Expr.unary op .behind operand (operand.span.through op.span)
    return { applied with operands := node :: rest }
  | [] => throw (missingOperand op .left)

end Stacks

/-! ## Steps -/

inductive Step where
  | operand (operand : Expr)
  | operator (op : OperatorUse)
  | conditional (condition : Expr) (thenBranch : Option Expr) (span : Span)

structure Arrangement where
  held : Stacks
  expectsOperand : Bool

def takeArgument (arrangement : Arrangement) (span : Span) : Except Diagnostic Stacks :=
  if arrangement.expectsOperand then .ok arrangement.held
  else arrangement.held.takeUp (.application span)

def takeLeading (table : OperatorTable) (held : Stacks) (op : OperatorUse) :
    Except Diagnostic Arrangement :=
  match table.lookupName op.name .prefixOp with
  | some entry => .ok ⟨held.pushPending (.prefixed op entry), true⟩
  | none =>
    if table.isDeclared op.name then .error (missingOperand op .left)
    else .error (undeclared op)

/-- An operator behind an operand: the last step of a run prefers to be a postfix operator, any
other one an infix operator; a prefix operator begins an argument. -/
def takeFollowing (table : OperatorTable) (held : Stacks) (isLast : Bool) (op : OperatorUse) :
    Except Diagnostic Arrangement := do
  let infixEntry := table.lookupName op.name .infixOp
  let postfixEntry := table.lookupName op.name .postfixOp
  let prefixEntry := table.lookupName op.name .prefixOp
  match infixEntry, postfixEntry, prefixEntry with
  | none, some entry, _ => return ⟨← held.takePostfix op entry, false⟩
  | some entry, none, _ => return ⟨← held.takeUp (.binary op entry), true⟩
  | some entry, some behind, _ =>
    if isLast then return ⟨← held.takePostfix op behind, false⟩
    else return ⟨← held.takeUp (.binary op entry), true⟩
  | none, none, some entry =>
    let applied ← held.takeUp (.application op.span)
    return ⟨applied.pushPending (.prefixed op entry), true⟩
  | none, none, none => throw (undeclared op)

def takeStep (table : OperatorTable) (arrangement : Arrangement) (isLast : Bool) :
    Step → Except Diagnostic Arrangement
  | .operand operand => do
    let held ← takeArgument arrangement operand.span
    return ⟨held.pushOperand operand, false⟩
  | .conditional condition thenBranch span => do
    let held ← takeArgument arrangement span
    return ⟨held.pushPending (.conditional condition thenBranch span), true⟩
  | .operator op =>
    if arrangement.expectsOperand then takeLeading table arrangement.held op
    else takeFollowing table arrangement.held isLast op

def takeSteps (table : OperatorTable) : Arrangement → List Step → Except Diagnostic Arrangement
  | arrangement, [] => .ok arrangement
  | arrangement, step :: rest => do
    let next ← takeStep table arrangement rest.isEmpty step
    takeSteps table next rest

def arrange (table : OperatorTable) (span : Span) (steps : List Step) :
    Except Diagnostic Expr := do
  let final ← takeSteps table ⟨⟨[], []⟩, true⟩ steps
  if final.expectsOperand then
    match final.held.pending with
    | top :: _ => throw ⟨.missingOperand top.symbol .right, top.span⟩
    | [] => throw ⟨.missingOperand "" .right, span⟩
  else
    match ← applyAll final.held.operands final.held.pending with
    | [expr] => return expr
    | _ => throw ⟨.emptyRun, span⟩

/-! ## Groups and sections -/

def wordOperator? (table : OperatorTable) : RunItem → Option OperatorUse
  | .atom (.identifier name span) =>
    let operatorName : OperatorName := ⟨name.name.text, name.moduleName⟩
    if name.name.nameClass = .functionName && table.isDeclared operatorName then
      some ⟨operatorName, span⟩
    else none
  | _ => none

abbrev Reading := List (Except Diagnostic Step)

def assemble (table : OperatorTable) (span : Span) (readings : Reading) :
    Except Diagnostic Expr :=
  if readings.isEmpty then .error ⟨.emptyRun, span⟩
  else do arrange table span (← readings.mapM id)

/-- An operator with one operand in parentheses.  A prefix operator in front of its operand, and a
postfix operator behind it, are applied; anything else leaves the other operand open. -/
def assembleSection (table : OperatorTable) (op : OperatorUse) (hole : Hole) (operand : Reading)
    (operandSpan span : Span) : Except Diagnostic Expr :=
  let hasPrefix := (table.lookupName op.name .prefixOp).isSome
  let hasInfix := (table.lookupName op.name .infixOp).isSome
  let hasPostfix := (table.lookupName op.name .postfixOp).isSome
  match hole with
  | .left =>
    if hasPrefix then assemble table span (.ok (.operator op) :: operand)
    else assembleOpen hasInfix .left
  | .right =>
    if hasPostfix && !hasInfix then assemble table span (operand ++ [.ok (.operator op)])
    else assembleOpen hasInfix .right
where
  assembleOpen (hasInfix : Bool) (side : OperandSide) : Except Diagnostic Expr :=
    if hasInfix then do
      return .partialApply op (← assemble table operandSpan operand) hole span
    else if table.isDeclared op.name then .error (missingOperand op side)
    else .error (undeclared op)

/-- A single run in parentheses: operators that are words have the same forms there as symbols. -/
def assembleGroup (table : OperatorTable) (items : List RunItem) (readings : Reading)
    (runSpan span : Span) : Except Diagnostic Expr :=
  match items.head?.bind (wordOperator? table), items.getLast?.bind (wordOperator? table) with
  | some op, _ =>
    if items.length = 1 then .ok (.operatorLiteral op span)
    else assembleSection table op .left readings.tail (itemsSpan items.tail span) span
  | none, some op =>
    assembleSection table op .right readings.dropLast (itemsSpan items.dropLast span) span
  | none, none => assemble table runSpan readings

/-! ## Resolution -/

mutual

def Run.resolve (table : OperatorTable) : Run → Except Diagnostic Expr
  | ⟨items, span⟩ => assemble table span (readItems table items)

def readItems (table : OperatorTable) : List RunItem → Reading
  | [] => []
  | item :: rest => item.read table :: readItems table rest

def RunItem.read (table : OperatorTable) : RunItem → Except Diagnostic Step
  | .operator op => .ok (.operator op)
  | .atom a =>
    match wordOperator? table (.atom a) with
    | some op => .ok (.operator op)
    | none => do return .operand (← a.resolve table)
  | .conditional condition thenBranch span => do
    let condition ← condition.resolve table
    return .conditional condition (← resolveOption table thenBranch) span

def Atom.resolve (table : OperatorTable) : Atom → Except Diagnostic Expr
  | .identifier name span => .ok (.identifier name span)
  | .declared name span => .ok (.declared name span)
  | .typed name typeName span => .ok (.typed name typeName span)
  | .number literal span => .ok (.number literal span)
  | .string value span => .ok (.string value span)
  | .operatorLiteral op span => .ok (.operatorLiteral op span)
  | .partialApply op ⟨items, operandSpan⟩ hole span =>
    assembleSection table op hole (readItems table items) operandSpan span
  | .lambda [] _ span => .error ⟨.malformedLambda "no parameters before `.`", span⟩
  | .lambda (first :: rest) body span => do
    let parameters ← resolveParameters table (first :: rest)
    return .lambda parameters (← body.resolve table) span
  | .container .paren (.elements [⟨items, runSpan⟩] none false none) span =>
    assembleGroup table items (readItems table items) runSpan span
  | .container bracket body span => body.resolve table bracket span

/-- The parameters of a lambda are atoms, and words among them are no operators. -/
def resolveParameters (table : OperatorTable) : List RunItem → Except Diagnostic (List Expr)
  | [] => .ok []
  | .atom a :: rest => do
    let parameter ← a.resolve table
    return parameter :: (← resolveParameters table rest)
  | .operator op :: _ =>
    .error ⟨.malformedLambda ("operator `" ++ op.text ++ "` in parameter list"), op.span⟩
  | .conditional _ _ span :: _ =>
    .error ⟨.malformedLambda "conditional in parameter list", span⟩

def ContainerBody.resolve (table : OperatorTable) (bracket : Bracket) (span : Span) :
    ContainerBody → Except Diagnostic Expr
  | .empty => .ok (.collection bracket [] none none span)
  | .elements runs separator _ tail => do
    let elements ← resolveAll table runs
    return .collection bracket elements separator (← resolveOption table tail) span
  | .enumeration runs bound => do
    let elements ← resolveAll table runs
    return .enumeration bracket elements (← resolveOption table bound) span
  | .comprehension template generators => do
    let template ← template.resolve table
    return .comprehension bracket template (← resolveAll table generators) span

def resolveAll (table : OperatorTable) : List Run → Except Diagnostic (List Expr)
  | [] => .ok []
  | run :: rest => do
    let expr ← run.resolve table
    return expr :: (← resolveAll table rest)

def resolveOption (table : OperatorTable) : Option Run → Except Diagnostic (Option Expr)
  | none => .ok none
  | some run => do return some (← run.resolve table)

end

end Equational

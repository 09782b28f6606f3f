import Equational.Expr.Resolve
import Equational.Operator.Declare
import Equational.Run.Collect

/-!
# The grammar of statements

The first token of a statement decides its form; whatever begins no other form is an equation.
Expression positions are collected as runs and resolved at once, under the table as it stands.  A
run that cannot be resolved is reported and leaves an error node, and the statement goes on.
-/

namespace Equational

inductive Parsed where
  | statement (statement : Statement)
  | clause (clause : Clause)
  deriving Repr

namespace Parse

/-! ## Expressions -/

def resolve (collected : Run) : Parse Expr := do
  match collected.resolve (← get).table with
  | .ok expr => return expr
  | .error diagnostic =>
    report diagnostic
    return .error collected.span

def expression (context : RunContext) : Parse Expr := do
  resolve (← run context)

def binding (context : RunContext) : Parse Binding := do
  let pattern ← expression context.withAssignment
  let _ ← expectMark .assignment
  return ⟨pattern, ← expression context⟩

/-! ## Headers -/

def operatorName : Parse OperatorName := do
  let token ← current
  if token.kind = .functionName then
    let _ ← advance
    return ⟨token.value, token.moduleName⟩
  else if token.kind.isOperatorStart then return (← operator).name
  else fail "operator symbol"

def parenthesizedOperator : Parse OperatorName := do
  let name ← operatorName
  let _ ← expectMark .closeParen
  return name

def parameter? : Parse (Option Parameter) := do
  let special := (← currentKind) = .mark .tilde
  let token ← peek (if special then 1 else 0)
  if token.kind = .variableName && !token.isQualified then
    if special then
      let _ ← advance
    let _ ← advance
    return some ⟨.ofToken token, special⟩
  else return none

def parameters : Parse (List Parameter) := do
  many parameter? (← get).limit []

def precedence : Parse PrecedenceSpec := do
  if ← acceptMark .openParen then return .sameAs (← parenthesizedOperator)
  else
    let token ← expect .number
    let literal ← MonadExcept.ofExcept (NumberLiteral.ofToken token)
    match literal.value with
    | .integer level =>
      if level ≤ maximalLevel then return .level level
      else throw ⟨.invalidPrecedence token.value, token.span⟩
    | .float _ => throw ⟨.invalidPrecedence token.value, token.span⟩

def alias? : Parse (Option String) := do
  if ← accept (.word .asWord) then
    let token ← current
    if token.isPlainIdentifier then
      let _ ← advance
      return some token.value
    else if token.kind.isOperatorStart then return some (← operator).name.text
    else fail "alias"
  else return none

def operatorHeader (start : Nat) : Parse Header := do
  let name ← parenthesizedOperator
  let parameters ← parameters
  let precedence ← if ← acceptMark .atSign then some <$> precedence else pure none
  let knownAs ← alias?
  return .symbol (.operator name) parameters precedence knownAs (← spanFrom start)

def bindingHeader (start : Nat) (bound : Identifier) : Parse Header := do
  match bound.moduleName with
  | some _ =>
    throw ⟨.unexpectedToken bound.text "a qualified name cannot be bound", ← spanFrom start⟩
  | none =>
    let _ ← advance
    let value ← expression {}
    return .binding bound.name value (← spanFrom start)

def nameHeader (start : Nat) : Parse Header := do
  let name ← identifier "name in declaration"
  if (← currentKind) = .mark .assignment then bindingHeader start name
  else
    let parameters ← parameters
    let knownAs ← alias?
    return .symbol (.identifier name) parameters none knownAs (← spanFrom start)

def header : Parse Header := do
  let start ← position
  if ← acceptMark .openParen then operatorHeader start else nameHeader start

def declare (header : Header) : Parse Unit := fun state =>
  match OperatorTable.declare header state.table with
  | .ok _ table => .ok () { state with table }
  | .error diagnostic table => .error diagnostic { state with table }

/-- Each header takes effect before the next one is read. -/
def headers : Parse (List Header) :=
  separated .comma do
    let header ← header
    declare header
    return header

/-! ## Scopes and modifiers -/

def scope? : Parse (Option Scope) := do
  if ← accept (.word .privateWord) then return some .privateScope
  else if ← accept (.word .publicWord) then return some .publicScope
  else return none

def modifierOfKind? : TokenKind → Option Modifier
  | .word .constWord => some .const
  | .word .specialWord => some .special
  | .word .externWord => some .external
  | .word .varWord => some .var
  | .word .virtualWord => some .virtual
  | _ => none

def modifier? : Parse (Option Modifier) := do
  match modifierOfKind? (← currentKind) with
  | some modifier =>
    let _ ← advance
    return some modifier
  | none => return none

def attributes : Parse (Option Scope × List Modifier) := do
  let scope ← scope?
  let modifiers ← many modifier? (← get).limit []
  return (scope, Modifier.normalize modifiers)

/-! ## Types -/

def typeSection : Parse TypeSection := do
  let start ← position
  let (scope, modifiers) ← attributes
  let headers ← headers
  return ⟨scope, modifiers, headers, ← spanFrom start⟩

def typeRename (start : Nat) (scope : Option Scope) (name : Identifier) : Parse Statement := do
  let knownAs ← if ← accept (.word .asWord) then some <$> plainName "type alias" else pure none
  let _ ← expectMark .semicolon
  return .typeRename scope name knownAs (← spanFrom start)

def typeSynonym (start : Nat) (scope : Option Scope) (name : Name) : Parse Statement := do
  let target ← identifier "type name"
  let _ ← expectMark .semicolon
  return .typeSynonym scope name target (← spanFrom start)

def typeDefinition (start : Nat) (scope : Option Scope) (external : Bool) (name : Name) :
    Parse Statement := do
  let supertype ←
    if ← acceptMark .colon then some <$> identifier "supertype name" else pure none
  let sections ← if ← acceptMark .assignment then separated .pipe typeSection else pure []
  let _ ← expectMark .semicolon
  return .typeDeclaration external ⟨scope, name, supertype, sections⟩ (← spanFrom start)

/-- A qualified name is renamed; a plain one is defined, or made a synonym by a double equality
sign. -/
def typeStatement (start : Nat) (scope : Option Scope) (external : Bool) : Parse Statement := do
  let _ ← expect (.word .typeWord)
  let name ← identifier "type name"
  if name.moduleName.isSome then typeRename start scope name
  else if ← acceptMark .equals then typeSynonym start scope name.name
  else typeDefinition start scope external name.name

def attributedStatement : Parse Statement := do
  let start ← position
  let (scope, modifiers) ← attributes
  if (← currentKind) = .word .typeWord then
    if modifiers = [] then typeStatement start scope false
    else if modifiers = [.external] then typeStatement start scope true
    else
      throw ⟨.unexpectedToken "type" "only `extern` may precede a type declaration",
        (← current).span⟩
  else
    let headers ← headers
    let _ ← expectMark .semicolon
    return .headers scope modifiers headers (← spanFrom start)

/-! ## Imports -/

def moduleSpec : Parse ModuleSpec := do
  let start ← position
  let token ← current
  let name ←
    if token.kind = .string then pure (ModuleName.path token.value)
    else if token.isPlainIdentifier then pure (ModuleName.identifier token.value)
    else fail "module name"
  let _ ← advance
  let knownAs ← if ← accept (.word .asWord) then some <$> plainName "module alias" else pure none
  return ⟨name, knownAs, ← spanFrom start⟩

def importKind : Parse ImportKind := do
  if ← accept (.word .importWord) then return .importing
  else if ← accept (.word .includeWord) then return .including
  else fail "`import` or `include`"

def importStatement : Parse Statement := do
  let start ← position
  let kind ← importKind
  let specs ← separated .comma moduleSpec
  let _ ← expectMark .semicolon
  return .imports kind specs (← spanFrom start)

def symbolName : Parse SymbolName := do
  let token ← current
  if token.isPlainIdentifier then
    let _ ← advance
    return .identifier (.ofToken token)
  else if ← acceptMark .openParen then return .operator (← parenthesizedOperator).text
  else if token.kind.isOperatorStart then return .operator (← operator).name.text
  else fail "imported symbol"

def symbolSpec : Parse SymbolSpec := do
  let start ← position
  let symbol ← symbolName
  let knownAs ← if ← accept (.word .asWord) then some <$> symbolName else pure none
  return ⟨symbol, knownAs, ← spanFrom start⟩

def importFromStatement : Parse Statement := do
  let opening ← advance
  let spec ← moduleSpec
  let kind ← importKind
  let symbols ←
    if (← currentKind) = .mark .semicolon then pure [] else separated .comma symbolSpec
  let _ ← expectMark .semicolon
  return .importsFrom spec kind symbols (← spanFrom opening.span.start)

/-! ## Pragmas, definitions -/

def sign? : Parse (Option Sign) := do
  let token ← current
  if token.kind = .operatorSymbol && token.value == "+" then
    let _ ← advance
    return some .plus
  else if token.kind = .operatorSymbol && token.value == "-" then
    let _ ← advance
    return some .minus
  else return none

/-- The semicolon behind a pragma may be left out. -/
def pragmaStatement : Parse Statement := do
  let opening ← advance
  let sign ← sign?
  let value ← MonadExcept.ofExcept (NumberLiteral.ofToken (← expect .number))
  let _ ← acceptMark .semicolon
  return .pragma sign value (← spanFrom opening.span.start)

def defStatement : Parse Statement := do
  let opening ← advance
  let pairs ← separated .comma (binding {})
  let _ ← expectMark .semicolon
  return .definitions pairs (← spanFrom opening.span.start)

def undefStatement : Parse Statement := do
  let opening ← advance
  let names ← separated .comma (identifier "name to undefine")
  let _ ← expectMark .semicolon
  return .undefine names (← spanFrom opening.span.start)

/-! ## Equations -/

def qualifier? (context : RunContext) : Parse (Option Qualifier) := do
  let start ← position
  match ← currentKind with
  | .word .ifWord =>
    let _ ← advance
    let condition ← expression context
    return some (.guard condition (← spanFrom start))
  | .word .otherwiseWord =>
    let _ ← advance
    return some (.otherwise (← spanFrom start))
  | .word .whereWord =>
    let _ ← advance
    let bindings ← separated .comma (binding context)
    return some (.bindings bindings (← spanFrom start))
  | _ => return none

def qualifiers (context : RunContext) : Parse (List Qualifier) := do
  many (qualifier? context) (← get).limit []

def beginsQualifier : TokenKind → Bool
  | .word .ifWord | .word .otherwiseWord | .word .whereWord => true
  | _ => false

def leadingQualifiers : Parse (List Qualifier) := do
  if beginsQualifier (← currentKind) then
    let found ← qualifiers RunContext.guarded.withColon
    let _ ← expectMark .colon
    return found
  else return []

def clause (start : Nat) : Parse Clause := do
  let leading ← leadingQualifiers
  let _ ← expectMark .assignment
  let rhs ← expression .guarded
  let trailing ← qualifiers .guarded
  let _ ← expectMark .semicolon
  return ⟨leading, rhs, trailing, ← spanFrom start⟩

def equation : Parse Statement := do
  let start ← position
  let left ← run .pattern
  if left.isEmpty then fail "declaration or equation"
  else
    let lhs ← resolve left
    let first ← clause start
    return .equation lhs [first] (← spanFrom start)

/-- A clause without a left side belongs to the equation in front of it. -/
def continuation : Parse Clause := do
  if (← get).followsEquation then clause (← position)
  else throw ⟨.orphanContinuation, (← current).span⟩

/-! ## Statements -/

def statement : Parse Parsed := do
  match ← currentKind with
  | .word .privateWord | .word .publicWord | .word .constWord | .word .specialWord
  | .word .externWord | .word .varWord | .word .virtualWord =>
    return .statement (← attributedStatement)
  | .word .typeWord => return .statement (← typeStatement (← position) none false)
  | .word .importWord | .word .includeWord => return .statement (← importStatement)
  | .word .fromWord => return .statement (← importFromStatement)
  | .mark .atSign => return .statement (← pragmaStatement)
  | .word .defWord => return .statement (← defStatement)
  | .word .undefWord => return .statement (← undefStatement)
  | .mark .assignment | .word .ifWord | .word .otherwiseWord | .word .whereWord =>
    return .clause (← continuation)
  | _ => return .statement (← equation)

end Parse

end Equational

import Equational.Parse
import Equational.Run

/-!
# Collecting runs

The tokens of an expression position are gathered as a flat run, up to the first token that cannot
continue it.  The token behind the first element of a container decides what the container is: a
separator makes a list of elements, two dots an enumeration, a colon a comprehension, a bar a tail.
-/

namespace Equational

open Parse

/-- Which tokens end a run, beyond those that always do. -/
structure RunContext where
  /-- An equality sign ends the run instead of being an operator. -/
  stopAtAssignment : Bool := false
  /-- A colon behind a variable does not give it a type. -/
  stopAtColon : Bool := false
  /-- A conditional behind at least one item is a guard. -/
  stopAtGuard : Bool := false
  /-- A dot ends the run. -/
  stopAtDot : Bool := false
  deriving DecidableEq, Repr

namespace RunContext

def pattern : RunContext := { stopAtAssignment := true, stopAtGuard := true }

def guarded : RunContext := { stopAtGuard := true }

def withColon (context : RunContext) : RunContext := { context with stopAtColon := true }

def withAssignment (context : RunContext) : RunContext := { context with stopAtAssignment := true }

end RunContext

/-! ## Operators in brackets -/

/-- An operator alone in parentheses, or with one operand, is not an ordinary group. -/
def operatorForm? (run : Run) (span : Span) : Option Atom :=
  match run.items with
  | [.operator op] => some (.operatorLiteral op span)
  | .operator op :: rest => some (.partialApply op (.ofItems rest span) .left span)
  | items =>
    match items.getLast? with
    | some (.operator op) => some (.partialApply op (.ofItems items.dropLast span) .right span)
    | _ => none

def closedContainer (bracket : Bracket) (body : ContainerBody) (span : Span) : Atom :=
  match bracket, body with
  | .paren, .elements [run] none false none =>
    (operatorForm? run span).getD (.container bracket body span)
  | _, _ => .container bracket body span

/-! ## Parts of a run

Each of these takes the step that collects an inner run. -/

section Parts

variable (inner : RunContext → Parse Run)

def unclosed (bracket : Bracket) : Parse Diagnostic := do
  let token ← current
  match token.kind with
  | .endOfInput | .malformed => unexpected bracket.closing.spelling
  | _ => return ⟨.mismatchedDelimiter bracket.closing.spelling token.qualifiedValue, token.span⟩

def close (bracket : Bracket) : Parse Unit := do
  if ← acceptMark bracket.closing then return ()
  else throw (← unclosed bracket)

def collectEnumeration (bracket : Bracket) (runs : List Run) : Parse ContainerBody := do
  let dots ← advance
  if runs.any Run.isEmpty then throw ⟨.malformedEnumeration, dots.span⟩
  else if (← currentKind) = .mark bracket.closing then return .enumeration runs none
  else return .enumeration runs (some (← inner {}))

def generatorsRound (again : Option Separator → List Run → Parse (List Run))
    (separator : Option Separator) (found : List Run) : Parse (List Run) := do
  let token ← current
  match Separator.ofKind? token.kind with
  | none => return found.reverse
  | some next =>
    if separator.any (· != next) then throw ⟨.mixedSeparators, token.span⟩
    else
      let _ ← advance
      let run ← inner {}
      again (some next) (run :: found)

def collectGenerators : Nat → Option Separator → List Run → Parse (List Run)
  | 0, _, found => exhaust found.reverse
  | rounds + 1, separator, found =>
    generatorsRound inner (collectGenerators rounds) separator found

def elementsRound (bracket : Bracket) (separator : Separator)
    (again : List Run → Parse ContainerBody) (found : List Run) : Parse ContainerBody := do
  let token ← current
  match Separator.ofKind? token.kind with
  | some next =>
    if next ≠ separator then throw ⟨.mixedSeparators, token.span⟩
    else
      let _ ← advance
      if (← currentKind) = .mark bracket.closing then
        return .elements found.reverse (some separator) true none
      else
        let run ← inner {}
        again (run :: found)
  | none =>
    if token.kind = .mark .dotDot then collectEnumeration inner bracket found.reverse
    else if token.kind = .mark .pipe then
      let _ ← advance
      return .elements found.reverse (some separator) false (some (← inner {}))
    else return .elements found.reverse (some separator) false none

def collectElements (bracket : Bracket) (separator : Separator) :
    Nat → List Run → Parse ContainerBody
  | 0, found => exhaust (.elements found.reverse (some separator) false none)
  | rounds + 1, found =>
    elementsRound inner bracket separator (collectElements bracket separator rounds) found

def collectBody (bracket : Bracket) (first : Run) : Parse ContainerBody := do
  let rounds := (← get).limit
  let kind ← currentKind
  match kind with
  | .mark .dotDot => collectEnumeration inner bracket [first]
  | .mark .colon =>
    let _ ← advance
    let generator ← inner {}
    return .comprehension first (← collectGenerators inner rounds none [generator])
  | .mark .comma => collectElements inner bracket .comma rounds [first]
  | .mark .semicolon => collectElements inner bracket .semicolon rounds [first]
  | .mark .pipe =>
    let _ ← advance
    return .elements [first] none false (some (← inner {}))
  | _ =>
    if kind = .mark bracket.closing then return .elements [first] none false none
    else throw (← unclosed bracket)

def collectContainer : Parse Atom := do
  let opening ← advance
  let bracket := Bracket.ofOpening opening.kind
  if ← acceptMark bracket.closing then
    return .container bracket .empty (← spanFrom opening.span.start)
  else
    let first ← inner (RunContext.withColon {})
    let body ← collectBody inner bracket first
    close bracket
    return closedContainer bracket body (← spanFrom opening.span.start)

/-- Parameters up to a dot, then a body that reaches as far as the run around it may. -/
def collectLambda (context : RunContext) : Parse Atom := do
  let backslash ← advance
  let parameters ← inner { stopAtDot := true }
  let _ ← expectMark .dot
  let body ← inner { context with stopAtDot := false }
  return .lambda parameters.items body (← spanFrom backslash.span.start)

/-- With `else`, the rest of the run is the else branch; without it, the items of the then branch
follow in the same run. -/
def collectConditional (context : RunContext) : Parse (List RunItem) := do
  let opening ← advance
  let condition ← inner {}
  let _ ← expect (.word .thenWord)
  let thenBranch ← inner context
  if (← currentKind) = .word .elseWord then
    let closing ← advance
    return [.conditional condition (some thenBranch) (opening.span.through closing.span)]
  else
    return .conditional condition none ⟨opening.span.start, thenBranch.span.start⟩ ::
      thenBranch.items

end Parts

/-! ## Items -/

/-- An identifier; a plain variable takes a type behind a colon. -/
def collectIdentifier (context : RunContext) : Parse Atom := do
  let token ← advance
  let typable := token.kind = .variableName && !token.isQualified && !context.stopAtColon
  let colon := (← currentKind) = .mark .colon
  if typable && colon && (← peek 1).kind.isIdentifier then
    let _ ← advance
    let typeToken ← advance
    return .typed (.ofToken token) (.ofToken typeToken) (token.span.through typeToken.span)
  else
    return .identifier (.ofToken token) token.span

def beginsWithDot (token : Token) : Bool :=
  token.kind = .operatorSymbol && !token.isQualified && token.value.toList.head? = some '.'

def nextItems? (inner : RunContext → Parse Run) (context : RunContext) (started : Bool) :
    Parse (Option (List RunItem)) := do
  let token ← current
  match token.kind with
  | .variableName | .functionName => return some [.atom (← collectIdentifier context)]
  | .word .varWord =>
    let _ ← advance
    let name ← identifier "identifier after `var`"
    return some [.atom (.declared name (← spanFrom token.span.start))]
  | .number =>
    let _ ← advance
    return some [.atom (.number (← MonadExcept.ofExcept (NumberLiteral.ofToken token)) token.span)]
  | .string =>
    let _ ← advance
    return some [.atom (.string token.value token.span)]
  | .mark .openParen | .mark .openBracket | .mark .openCurly =>
    return some [.atom (← collectContainer inner)]
  | .mark .backslash => return some [.atom (← collectLambda inner context)]
  | .word .ifWord =>
    if context.stopAtGuard && started then return none
    else return some (← collectConditional inner context)
  | .malformed => fail "expression"
  | kind =>
    if context.stopAtAssignment && kind = .mark .assignment then return none
    else if context.stopAtDot && kind = .mark .dot then return none
    else if context.stopAtDot && beginsWithDot token then
      split 1
      return none
    else if kind.isOperatorStart then return some [.operator (← operator)]
    else return none

def itemsRound (inner : RunContext → Parse Run) (context : RunContext)
    (again : List RunItem → Parse (List RunItem)) (found : List RunItem) :
    Parse (List RunItem) := do
  match ← nextItems? inner context (!found.isEmpty) with
  | some items => again (items.reverse ++ found)
  | none => return found.reverse

def collectItems (inner : RunContext → Parse Run) (context : RunContext) :
    Nat → List RunItem → Parse (List RunItem)
  | 0, found => exhaust found.reverse
  | rounds + 1, found => itemsRound inner context (collectItems inner context rounds) found

/-! ## Runs -/

/-- Collects a run whose brackets, lambdas and conditionals nest at most so deep. -/
def collectRun : Nat → RunContext → Parse Run
  | 0, _ => do exhaust ⟨[], .point (← position)⟩
  | depth + 1, context => do
    let start ← position
    let rounds := (← get).limit
    return .ofItems (← collectItems (collectRun depth) context rounds []) (.point start)

namespace Parse

def run (context : RunContext) : Parse Run := do
  collectRun (← get).limit context

def container : Parse Atom := collectContainer run

end Parse

end Equational

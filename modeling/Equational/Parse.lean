import Equational.Cursor
import Equational.Operator.Table

/-!
# Parsing steps

A parsing step reads tokens at a cursor, may change the operator table and may report diagnostics
on the way.  It ends with a value or with the diagnostic that stopped it; in both cases whatever it
did to the state stays done.

Loops over the tokens are limited to as many rounds as there is weight in the tokens, and one more.
A loop that runs out of rounds leaves a mark in the state, which tells it from one that comes to its
end.
-/

namespace Equational

structure ParseState where
  cursor : Cursor
  table : OperatorTable
  /-- Diagnostics reported so far, the latest first. -/
  reported : List Diagnostic
  /-- Whether the statement before the current one was an equation. -/
  followsEquation : Bool
  /-- No loop over the tokens takes more rounds than this. -/
  limit : Nat
  /-- Whether a loop has run out of rounds. -/
  exhausted : Bool
  deriving DecidableEq, Repr

namespace ParseState

def ofTokens (tokens : List Token) (errors : DiagnosticMap) : ParseState :=
  let cursor := Cursor.ofTokens tokens errors
  ⟨cursor, .initial, [], false, cursor.weight + 1, false⟩

def hasTokens (state : ParseState) : Bool := state.cursor.current.kind != .endOfInput

def diagnostics (state : ParseState) : List Diagnostic := state.reported.reverse

end ParseState

abbrev Parse := EStateM Diagnostic ParseState

namespace Parse

/-! ## Looking -/

def current : Parse Token := return (← get).cursor.current

def currentKind : Parse TokenKind := return (← current).kind

def peek (distance : Nat) : Parse Token := return (← get).cursor.peek distance

def position : Parse Nat := return (← current).span.start

def spanFrom (start : Nat) : Parse Span := return ⟨start, (← get).cursor.previousEnd⟩

/-! ## Moving -/

def advance : Parse Token := do
  let token ← current
  modify fun state => { state with cursor := state.cursor.advance }
  return token

def accept (kind : TokenKind) : Parse Bool := do
  if (← currentKind) = kind then
    let _ ← advance
    return true
  else
    return false

def split (bytes : Nat) : Parse Unit :=
  modify fun state => { state with cursor := state.cursor.split bytes }

/-! ## Diagnostics -/

def report (diagnostic : Diagnostic) : Parse Unit :=
  modify fun state => { state with reported := diagnostic :: state.reported }

def unexpected (expected : String) : Parse Diagnostic :=
  modifyGet fun state =>
    let (diagnostic, cursor) := state.cursor.unexpected expected
    (diagnostic, { state with cursor })

def fail (expected : String) : Parse α := do
  throw (← unexpected expected)

/-- Passes a token of the given kind.  Anything else is a diagnostic: the one that a malformed token
owes, then the given one, then that the kind is missing. -/
def expectOr (kind : TokenKind) (otherwise? : Option Diagnostic) : Parse Token := do
  let found ← currentKind
  if found = kind then advance
  else
    match otherwise? with
    | some diagnostic => if found = .malformed then fail kind.label else throw diagnostic
    | none => fail kind.label

def expect (kind : TokenKind) : Parse Token := expectOr kind none

def expectMark (mark : Punctuation) : Parse Token := expect (.mark mark)

def acceptMark (mark : Punctuation) : Parse Bool := accept (.mark mark)

/-! ## Loops -/

/-- A loop that has no rounds left gives a value, and leaves a mark. -/
def exhaust (value : α) : Parse α := do
  modify fun state => { state with exhausted := true }
  return value

def manyRound (item? : Parse (Option α)) (again : List α → Parse (List α)) (found : List α) :
    Parse (List α) := do
  match ← item? with
  | some item => again (item :: found)
  | none => return found.reverse

/-- As many items as there are, in at most the given number of rounds. -/
def many (item? : Parse (Option α)) : Nat → List α → Parse (List α)
  | 0, found => exhaust found.reverse
  | rounds + 1, found => manyRound item? (many item? rounds) found

def another (separator : Punctuation) (item : Parse α) : Parse (Option α) := do
  if ← acceptMark separator then return some (← item) else return none

def separated (separator : Punctuation) (item : Parse α) : Parse (List α) := do
  let first ← item
  many (another separator item) (← get).limit [first]

/-! ## Names -/

def identifier (expected : String) : Parse Identifier := do
  if (← currentKind).isIdentifier then
    return Identifier.ofToken (← advance)
  else fail expected

def plainName (expected : String) : Parse Name := do
  if (← current).isPlainIdentifier then
    return Name.ofToken (← advance)
  else fail expected

/-! ## Operators -/

/-- Passes one operator; `and then` and `or else` are single operators. -/
def operator : Parse OperatorUse := do
  let token ← advance
  let joined : Option (Keyword × String) :=
    match token.kind with
    | .word .andWord => some (.thenWord, "and then")
    | .word .orWord => some (.elseWord, "or else")
    | _ => none
  let plain : OperatorUse := ⟨⟨token.value, token.moduleName⟩, token.span⟩
  match joined with
  | some (follower, symbol) =>
    if (← currentKind) = .word follower then
      let second ← advance
      return ⟨⟨symbol, none⟩, token.span.through second.span⟩
    else return plain
  | none => return plain

end Parse

end Equational

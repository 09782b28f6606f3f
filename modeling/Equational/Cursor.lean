import Equational.DiagnosticMap
import Equational.Token

/-!
# Cursors

A cursor is a place in a list of tokens: those in front of it, the nearest first, and those ahead.
It never moves past the end of the input.  Looking beyond the last token shows the last token again.

With the tokens come the diagnostics of those that are malformed, by their indices.  A diagnostic is
there until it is raised.
-/

namespace Equational

structure Cursor where
  passed : List Token
  ahead : List Token
  errors : DiagnosticMap
  deriving DecidableEq, Repr

namespace Cursor

def tokens (cursor : Cursor) : List Token := cursor.passed.reverse ++ cursor.ahead

def index (cursor : Cursor) : Nat := cursor.passed.length

/-- A list of tokens with an end of input, supplied where it is missing. -/
def withEnd (tokens : List Token) : List Token :=
  match tokens.getLast? with
  | none => [Token.endOfInput 0]
  | some last =>
    if last.kind = .endOfInput then tokens else tokens ++ [Token.endOfInput last.span.stop]

def ofTokens (tokens : List Token) (errors : DiagnosticMap) : Cursor :=
  ⟨[], withEnd tokens, errors⟩

/-! ## Looking -/

def last (cursor : Cursor) : Token :=
  match cursor.ahead.getLast?.or cursor.passed.head? with
  | some token => token
  | none => Token.endOfInput 0

def peek (cursor : Cursor) (distance : Nat) : Token :=
  match cursor.ahead[distance]? with
  | some token => token
  | none => cursor.last

def current (cursor : Cursor) : Token := cursor.peek 0

def previousEnd (cursor : Cursor) : Nat :=
  match cursor.passed with
  | token :: _ => token.span.stop
  | [] => 0

/-! ## Moving -/

def advance (cursor : Cursor) : Cursor :=
  match cursor.ahead with
  | token :: rest =>
    if token.kind = .endOfInput then cursor else ⟨token :: cursor.passed, rest, cursor.errors⟩
  | [] => cursor

def skipStatement (cursor : Cursor) : Cursor := go cursor.errors cursor.passed cursor.ahead
where
  go (errors : DiagnosticMap) (passed : List Token) : List Token → Cursor
    | [] => ⟨passed, [], errors⟩
    | token :: rest =>
      if token.kind = .endOfInput then ⟨passed, token :: rest, errors⟩
      else if token.kind = .mark .semicolon then ⟨token :: passed, rest, errors⟩
      else go errors (token :: passed) rest

/-! ## Splitting a token -/

/-- Cuts a text after so many bytes, if both parts are nonempty and no character is divided. -/
def cutText? : Nat → List Char → Option (List Char × List Char)
  | 0, _ => none
  | _ + 1, [] => none
  | bytes + 1, c :: rest =>
    if c.utf8Size = bytes + 1 then
      if rest.isEmpty then none else some ([c], rest)
    else if c.utf8Size < bytes + 1 then
      (cutText? (bytes + 1 - c.utf8Size) rest).map fun (head, tail) => (c :: head, tail)
    else none

def operatorPart (text : List Char) (span : Span) : Token :=
  let value := String.ofList text
  ⟨.ofOperatorText value, value, none, span⟩

def split (cursor : Cursor) (bytes : Nat) : Cursor :=
  match cursor.ahead with
  | token :: rest =>
    match cutText? bytes token.value.toList with
    | some (head, tail) =>
      let middle := recorded (token.span.start + bytes)
      let first := operatorPart head ⟨token.span.start, middle⟩
      let second := operatorPart tail ⟨middle, token.span.stop⟩
      ⟨cursor.passed, first :: second :: rest, cursor.errors.openGap cursor.index⟩
    | none => cursor
  | [] => cursor

/-! ## Diagnostics -/

/-- The diagnostic for the current token not being what is expected.  That of a malformed token is
taken from those that are kept. -/
def unexpected (cursor : Cursor) (expected : String) : Diagnostic × Cursor :=
  let token := cursor.current
  match token.kind with
  | .malformed =>
    match cursor.errors.find? cursor.index with
    | some diagnostic => (diagnostic, { cursor with errors := cursor.errors.erase cursor.index })
    | none => (⟨.unrecognisedToken token.value, token.span⟩, cursor)
  | .endOfInput => (⟨.unexpectedEnd expected, token.span⟩, cursor)
  | _ =>
    (⟨.unexpectedToken token.qualifiedValue ("expected " ++ expected), token.span⟩, cursor)

/-! ## Weight -/

def tokenWeight (token : Token) : Nat := max 1 token.value.utf8ByteSize

def totalWeight : List Token → Nat
  | [] => 0
  | token :: rest => tokenWeight token + totalWeight rest

/-- A bound on the number of tokens that can still be passed, however they are split. -/
def weight (cursor : Cursor) : Nat := totalWeight cursor.ahead

end Cursor

end Equational

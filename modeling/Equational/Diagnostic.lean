import Equational.Span
import Equational.Text.Quoted

/-!
# Diagnostics

A diagnostic is a cause with the span it is about.  Causes carry the texts that their wording
needs; the wording itself, the advice that goes with it and the phase a cause belongs to are
functions of the cause.
-/

namespace Equational

open Equational.Text

/-! ## Causes -/

inductive OperandSide where
  | left
  | right
  deriving DecidableEq, Repr

def OperandSide.word : OperandSide → String
  | .left => "left"
  | .right => "right"

inductive Cause where
  | unrecognisedToken (text : String)
  | unterminatedString
  | unterminatedComment
  | newlineInString
  | invalidEscape (escape : String)
  | invalidNumber (text : String)
  | unexpectedToken (token : String) (reason : String)
  | unexpectedEnd (expected : String)
  | mismatchedDelimiter (expected : String) (found : String)
  | mixedSeparators
  | malformedEnumeration
  | orphanContinuation
  | invalidPrecedence (value : String)
  | unreadableNumber (text : String)
  | undeclaredOperator (operator : String)
  | ambiguousChain (left : String) (right : String)
  | missingOperand (operator : String) (side : OperandSide)
  | emptyRun
  | malformedLambda (reason : String)
  | unknownModule (name : String)
  deriving DecidableEq, Repr

inductive Phase where
  | lexical
  | structural
  | resolution
  | modules
  deriving DecidableEq, Repr

namespace Cause

def phase : Cause → Phase
  | unrecognisedToken _ | unterminatedString | unterminatedComment | newlineInString
  | invalidEscape _ | invalidNumber _ => .lexical
  | unexpectedToken _ _ | unexpectedEnd _ | mismatchedDelimiter _ _ | mixedSeparators
  | malformedEnumeration | orphanContinuation | invalidPrecedence _ | unreadableNumber _ =>
    .structural
  | undeclaredOperator _ | ambiguousChain _ _ | missingOperand _ _ | emptyRun
  | malformedLambda _ => .resolution
  | unknownModule _ => .modules

/-- A fatal cause ends the reading of the whole unit. -/
def isFatal : Cause → Bool
  | unterminatedString | unterminatedComment => true
  | _ => false

def name : Cause → String
  | unrecognisedToken _ => "UnrecognisedToken"
  | unterminatedString => "UnterminatedString"
  | unterminatedComment => "UnterminatedComment"
  | newlineInString => "NewlineInString"
  | invalidEscape _ => "InvalidEscape"
  | invalidNumber _ => "InvalidNumber"
  | unexpectedToken _ _ => "UnexpectedTokenDetailed"
  | unexpectedEnd _ => "UnexpectedEof"
  | mismatchedDelimiter _ _ => "MismatchedDelimiter"
  | mixedSeparators => "MixedSeparators"
  | malformedEnumeration => "MalformedEnumeration"
  | orphanContinuation => "OrphanContinuation"
  | invalidPrecedence _ => "InvalidPrecedence"
  | unreadableNumber _ => "NumberParseError"
  | undeclaredOperator _ => "UndeclaredOperator"
  | ambiguousChain _ _ => "AmbiguousChain"
  | missingOperand _ _ => "MissingOperand"
  | emptyRun => "EmptyRun"
  | malformedLambda _ => "MalformedLambda"
  | unknownModule _ => "UnknownModule"

/-! ## Wording -/

def message : Cause → String
  | unrecognisedToken text => "unrecognised token: " ++ quote text
  | unterminatedString => "unterminated string literal"
  | unterminatedComment => "unterminated block comment"
  | newlineInString => "newline in string literal"
  | invalidEscape escape => "invalid escape sequence: \\" ++ escape
  | invalidNumber text => "invalid number literal: " ++ quote text
  | unexpectedToken token reason =>
    "unexpected token (" ++ quote reason ++ "): " ++ quote token
  | unexpectedEnd expected => "unexpected end of input, expected " ++ expected
  | mismatchedDelimiter expected found =>
    "mismatched delimiter: expected " ++ quote expected ++ ", found " ++ quote found
  | mixedSeparators => "mixed `,` and `;` separators in one container"
  | malformedEnumeration => "enumeration without a left operand"
  | orphanContinuation => "continuation clause without a preceding equation"
  | invalidPrecedence value => "invalid precedence: " ++ quote value
  | unreadableNumber text => "error parsing number: " ++ quote text
  | undeclaredOperator operator => "undeclared operator: " ++ quote operator
  | ambiguousChain left right =>
    "ambiguous chain of non-associative operators " ++ quote left ++ " and " ++ quote right
  | missingOperand operator side =>
    "operator " ++ quote operator ++ " is missing its " ++ side.word ++ " operand"
  | emptyRun => "empty expression"
  | malformedLambda reason => "malformed lambda parameter list: " ++ reason
  | unknownModule name => "unknown module " ++ quote name

def tip : Cause → Option String
  | unrecognisedToken _ => none
  | unterminatedString => some "String literals must be closed with `\"` on the same line"
  | unterminatedComment => some "Block comment is missing its closing `*/`"
  | newlineInString => some "Use `\\n` for a line break inside a string literal"
  | invalidEscape escape => some ("Unknown escape sequence `\\" ++ escape ++ "`")
  | invalidNumber text =>
    if text.endsWith "x" || text.endsWith "X" then
      some ("Invalid number: `" ++ text ++ "`, hex literals need at least one digit")
    else
      some ("Invalid number: `" ++ text ++ "`, octal literals may only use the digits 0-7")
  | unexpectedToken token reason => some ("Unexpected token: `" ++ token ++ "`, " ++ reason)
  | unexpectedEnd expected => some ("Input ended while expecting " ++ expected)
  | mismatchedDelimiter expected found =>
    some ("Expected `" ++ expected ++ "` to close the container, found `" ++ found ++ "`")
  | mixedSeparators => some "Use either `,` or `;` between the elements of one container"
  | malformedEnumeration => some "An enumeration needs at least one element before `..`"
  | orphanContinuation =>
    some "A clause starting with `=` or a qualifier must directly follow an equation"
  | invalidPrecedence value =>
    some ("Precedence `" ++ value ++ "` must be an integer between 0 and 13")
  | unreadableNumber text =>
    some ("Invalid number: `" ++ text ++ "`, is it above the integer limit?")
  | undeclaredOperator operator =>
    some ("Operator `" ++ operator ++
      "` has no fixity here, declare it with an `@` precedence clause first")
  | ambiguousChain left right =>
    some ("`" ++ left ++ "` and `" ++ right ++ "` cannot be chained without parentheses")
  | missingOperand operator side =>
    some ("Operator `" ++ operator ++ "` is missing its " ++ side.word ++ " operand")
  | emptyRun => some "Expected an expression"
  | malformedLambda reason => some ("Malformed lambda parameter list: " ++ reason)
  | unknownModule name => some ("Module `" ++ name ++ "` could not be found")

end Cause

/-! ## Located causes -/

structure Diagnostic where
  cause : Cause
  span : Span
  deriving DecidableEq, Repr

namespace Diagnostic

def describe (file : String) (diagnostic : Diagnostic) : String :=
  file ++ ":" ++ toString diagnostic.span.start ++ ": " ++ diagnostic.cause.message

/-- By start offset; diagnostics that start together keep their order. -/
def inSourceOrder (diagnostics : List Diagnostic) : List Diagnostic :=
  diagnostics.mergeSort fun first second => decide (first.span.start ≤ second.span.start)

end Diagnostic

end Equational

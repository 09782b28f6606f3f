import Equational.DiagnosticMap
import Equational.Token.Lexeme

/-!
# Lexed units

A whole text as tokens and trivia.  Reading goes through the text character by character and asks
for a new lexeme whenever the characters of the last one are used up.  Malformed text becomes a
token, under whose index its diagnostic is kept; only a string literal or a block comment that is
still open at the end of the text leaves nothing but a diagnostic.
-/

namespace Equational

open Equational.Token

structure Lexed where
  tokens : List Token
  trivia : List Trivia
  errors : DiagnosticMap
  deriving DecidableEq, Repr

namespace Lexed

/-! ## Adding lexemes -/

structure Reading where
  tokens : List Token := []
  trivia : List Trivia := []
  errors : DiagnosticMap := .empty

def Reading.push (reading : Reading) (token : Token) : Reading :=
  { reading with tokens := token :: reading.tokens }

/-- Malformed text, whose diagnostic is kept under the index of the token that is pushed. -/
def Reading.pushMalformed (reading : Reading) (cause : Cause) (text : List Char) (span : Span) :
    Reading :=
  { reading.push ⟨.malformed, String.ofList text, none, span⟩ with
    errors := reading.errors.insert reading.tokens.length ⟨cause, span⟩ }

def Reading.add (reading : Reading) (offset : Nat) (lexeme : Lexeme) : Reading :=
  let span := Span.between offset (offset + byteLength lexeme.text)
  match lexeme.meaning with
  | .blank => reading
  | .trivia kind =>
    { reading with trivia := ⟨kind, String.ofList lexeme.text, span⟩ :: reading.trivia }
  | .token kind value home =>
    reading.push ⟨kind, String.ofList value, home.map String.ofList, span⟩
  | .malformed cause | .unclosed cause _ => reading.pushMalformed cause lexeme.text span

def Reading.finish (reading : Reading) (offset : Nat) : Lexed :=
  ⟨(Token.endOfInput (recorded offset) :: reading.tokens).reverse, reading.trivia.reverse,
    reading.errors⟩

/-! ## Reading a text -/

/-- The first argument counts the characters that the last lexeme still covers. -/
def readFrom : Nat → Nat → Reading → List Char → Except Diagnostic Lexed
  | _, offset, reading, [] => .ok (reading.finish offset)
  | covered + 1, offset, reading, c :: rest =>
    readFrom covered (offset + c.utf8Size) reading rest
  | 0, offset, reading, c :: rest =>
    let lexeme := Lexeme.first (c :: rest)
    match lexeme.meaning with
    | .unclosed cause width => .error ⟨cause, .between offset (offset + width)⟩
    | _ =>
      readFrom (lexeme.text.length - 1) (offset + c.utf8Size) (reading.add offset lexeme) rest

/-- The line that names an interpreter, at the very start of a unit only. -/
def interpreterLine? : List Char → Option Lexeme
  | '#' :: '!' :: rest => some ⟨'#' :: '!' :: restOfLine rest, .trivia .interpreterLine⟩
  | _ => none

def ofChars (source : List Char) : Except Diagnostic Lexed :=
  match interpreterLine? source with
  | some line => readFrom line.text.length 0 (({} : Reading).add 0 line) source
  | none => readFrom 0 0 {} source

def ofSource (source : String) : Except Diagnostic Lexed := ofChars source.toList

/-! ## Lexical diagnostics -/

/-- Strict reading gives no tokens at all if any text is malformed. -/
def strictTokens (source : String) : Except Diagnostic (List Token) := do
  let lexed ← ofSource source
  match lexed.errors.values.head? with
  | some diagnostic => .error diagnostic
  | none => .ok lexed.tokens

end Lexed

end Equational

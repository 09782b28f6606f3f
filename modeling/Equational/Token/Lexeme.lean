import Equational.Token
import Equational.Token.Numeral
import Equational.Unicode.Letter
import Equational.Unicode.Number
import Equational.Unicode.Punctuation
import Equational.Unicode.Symbol
import Equational.Unicode.Uppercase
import Equational.Unicode.WhiteSpace

/-!
# Lexemes

What stands at the front of a text.  Each pattern recognises one sort of lexeme; the patterns are
tried in a fixed order and the first one that applies decides.  A lexeme keeps the characters it
takes from the text, which may be fewer than those the pattern looked at: an operator run ends
where a comment begins, and an at sign stands by itself.
-/

namespace Equational.Token

open Equational.Unicode

inductive Meaning where
  | blank
  | trivia (kind : TriviaKind)
  | token (kind : TokenKind) (value : List Char) (moduleName : Option (List Char))
  | malformed (cause : Cause)
  /-- The text ends inside the lexeme; the diagnostic covers the bytes that open it. -/
  | unclosed (cause : Cause) (width : Nat)
  deriving DecidableEq, Repr

structure Lexeme where
  text : List Char
  meaning : Meaning
  deriving DecidableEq, Repr

/-! ## Character classes -/

def startsWord (c : Char) : Bool := isLetter c || c == '_'

def continuesWord (c : Char) : Bool := isLetter c || isNumber c || c == '_'

def standsAlone (c : Char) : Bool :=
  ['(', ')', '[', ']', '\x7b', '\x7d', ',', ';', '"', '_', '\\'].contains c

def isOperatorChar (c : Char) : Bool := (isPunctuation c || isSymbol c) && !standsAlone c

/-! ## Blanks and comments -/

def blank? (text : List Char) : Option Lexeme :=
  match text.takeWhile isWhiteSpace with
  | [] => none
  | run => some ⟨run, .blank⟩

def restOfLine (text : List Char) : List Char := text.takeWhile (· != '\n')

def lineComment? : List Char → Option Lexeme
  | '/' :: '/' :: rest => some ⟨'/' :: '/' :: restOfLine rest, .trivia .lineComment⟩
  | _ => none

def throughClosing? : List Char → Option (List Char)
  | [] => none
  | '*' :: '/' :: _ => some ['*', '/']
  | c :: rest => (throughClosing? rest).map (c :: ·)

/-- Block comments do not nest. -/
def blockComment? : List Char → Option Lexeme
  | '/' :: '*' :: rest =>
    match throughClosing? rest with
    | some body => some ⟨'/' :: '*' :: body, .trivia .blockComment⟩
    | none => some ⟨['/', '*'], .unclosed .unterminatedComment 2⟩
  | _ => none

/-! ## Words and names -/

def identifierKind : List Char → TokenKind
  | ['_'] => .variableName
  | first :: _ => if isUppercase first then .variableName else .functionName
  | [] => .functionName

def modulePart? (text : List Char) : Option (List Char × List Char) :=
  match text with
  | first :: rest =>
    if isUppercaseLetter first then
      let name := first :: rest.takeWhile continuesWord
      match text.drop name.length with
      | ':' :: ':' :: after => some (name, after)
      | _ => none
    else none
  | [] => none

def word? : List Char → Option (List Char)
  | first :: rest => if startsWord first then some (first :: rest.takeWhile continuesWord) else none
  | [] => none

def qualifiedName? (text : List Char) : Option Lexeme := do
  let (home, after) ← modulePart? text
  let name ← word? after
  return ⟨home ++ [':', ':'] ++ name, .token (identifierKind name) name (some home)⟩

def plainWord? (text : List Char) : Option Lexeme := do
  let word ← word? text
  let kind := (TokenKind.ofKeyword? (String.ofList word)).getD (identifierKind word)
  return ⟨word, .token kind word none⟩

/-! ## Operators -/

/-- An operator run ends where a comment begins. -/
def cutBeforeComment : List Char → List Char
  | '/' :: '/' :: _ => []
  | '/' :: '*' :: _ => []
  | c :: rest => c :: cutBeforeComment rest
  | [] => []

/-- Behind a module name the symbol may turn out empty, when a comment begins at once. -/
def qualifiedOperator? (text : List Char) : Option Lexeme := do
  let (home, after) ← modulePart? text
  match after.takeWhile isOperatorChar with
  | [] => none
  | run =>
    let symbol := cutBeforeComment run
    return ⟨home ++ [':', ':'] ++ symbol, .token .operatorSymbol symbol (some home)⟩

/-- An at sign never joins what follows it. -/
def operatorRun? (text : List Char) : Option Lexeme :=
  match cutBeforeComment (text.takeWhile isOperatorChar) with
  | [] => none
  | '@' :: _ => some ⟨['@'], .token (.mark .atSign) ['@'] none⟩
  | run => some ⟨run, .token (.ofOperatorText (String.ofList run)) run none⟩

def singleMark? : List Char → Option Lexeme
  | c :: _ =>
    let mark? : Option Punctuation :=
      match c with
      | '(' => some .openParen
      | ')' => some .closeParen
      | '[' => some .openBracket
      | ']' => some .closeBracket
      | '\x7b' => some .openCurly
      | '\x7d' => some .closeCurly
      | ',' => some .comma
      | ';' => some .semicolon
      | '\\' => some .backslash
      | _ => none
    mark?.map fun mark => ⟨[c], .token (.mark mark) [c] none⟩
  | [] => none

/-! ## Numbers and string literals -/

def number? (text : List Char) : Option Lexeme :=
  match numeralText text with
  | [] => none
  | numeral =>
    if isMalformedNumeral numeral then
      some ⟨numeral, .malformed (.invalidNumber (String.ofList numeral))⟩
    else
      some ⟨numeral, .token .number numeral none⟩

/-- A line end inside the literal counts before an escape without a meaning. -/
def string? : List Char → Option Lexeme
  | '"' :: body =>
    let literal := Literal.ofBody body
    let text := '"' :: body.take literal.size
    match literal.ending, literal.badEscape with
    | .closed, none => some ⟨text, .token .string literal.decoded none⟩
    | .closed, some escape => some ⟨text, .malformed (.invalidEscape escape)⟩
    | .atLineEnd, _ => some ⟨text, .malformed .newlineInString⟩
    | .atTextEnd, _ => some ⟨text, .unclosed .unterminatedString 1⟩
  | _ => none

/-! ## The front of a text -/

/-- Earlier patterns are preferred. -/
def patterns : List (List Char → Option Lexeme) :=
  [blank?, lineComment?, blockComment?, qualifiedName?, qualifiedOperator?, plainWord?, number?,
    string?, singleMark?, operatorRun?]

def unrecognised (text : List Char) : Lexeme :=
  let first := text.take 1
  ⟨first, .malformed (.unrecognisedToken (String.ofList first))⟩

def Lexeme.first (text : List Char) : Lexeme :=
  (patterns.findSome? fun pattern => pattern text).getD (unrecognised text)

end Equational.Token

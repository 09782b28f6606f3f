import Equational.Span

/-!
# Tokens

The kinds of tokens, the spellings of keywords and punctuation, and tokens with their place in the
source.
-/

namespace Equational

/-! ## Keywords -/

inductive Keyword where
  | ifWord | thenWord | elseWord | whereWord | otherwiseWord
  | varWord | defWord | undefWord
  | importWord | includeWord | fromWord | asWord
  | typeWord | externWord | privateWord | publicWord | constWord | specialWord | virtualWord
  | divWord | modWord | notWord | andWord | orWord
  deriving DecidableEq, Repr

namespace Keyword

def words : Keyword → String × String
  | ifWord => ("if", "If")
  | thenWord => ("then", "Then")
  | elseWord => ("else", "Else")
  | whereWord => ("where", "Where")
  | otherwiseWord => ("otherwise", "Otherwise")
  | varWord => ("var", "Var")
  | defWord => ("def", "Def")
  | undefWord => ("undef", "Undef")
  | importWord => ("import", "Import")
  | includeWord => ("include", "Include")
  | fromWord => ("from", "From")
  | asWord => ("as", "As")
  | typeWord => ("type", "Type")
  | externWord => ("extern", "Extern")
  | privateWord => ("private", "Private")
  | publicWord => ("public", "Public")
  | constWord => ("const", "Const")
  | specialWord => ("special", "Special")
  | virtualWord => ("virtual", "Virtual")
  | divWord => ("div", "Div")
  | modWord => ("mod", "Mod")
  | notWord => ("not", "Not")
  | andWord => ("and", "And")
  | orWord => ("or", "Or")

def spelling (word : Keyword) : String := word.words.1

def label (word : Keyword) : String := word.words.2

def all : List Keyword :=
  [ifWord, thenWord, elseWord, whereWord, otherwiseWord, varWord, defWord, undefWord, importWord,
    includeWord, fromWord, asWord, typeWord, externWord, privateWord, publicWord, constWord,
    specialWord, virtualWord, divWord, modWord, notWord, andWord, orWord]

theorem mem_all (word : Keyword) : word ∈ all := by
  cases word <;> decide

def ofSpelling? (text : String) : Option Keyword := all.find? fun word => word.spelling == text

def isOperator : Keyword → Bool
  | divWord | modWord | notWord | andWord | orWord => true
  | _ => false

end Keyword

/-! ## Punctuation -/

inductive Punctuation where
  | openParen | closeParen | openBracket | closeBracket | openCurly | closeCurly
  | comma | semicolon | colon | doubleColon | dot | dotDot
  | assignment | equals | atSign | tilde | pipe | backquote | quote | ampersand | backslash
  | dollar
  deriving DecidableEq, Repr

namespace Punctuation

def words : Punctuation → String × String
  | openParen => ("(", "OpenParen")
  | closeParen => (")", "CloseParen")
  | openBracket => ("[", "OpenBracket")
  | closeBracket => ("]", "CloseBracket")
  | openCurly => ("\x7b", "OpenCurly")
  | closeCurly => ("\x7d", "CloseCurly")
  | comma => (",", "Comma")
  | semicolon => (";", "Semicolon")
  | colon => (":", "Colon")
  | doubleColon => ("::", "DoubleColon")
  | dot => (".", "Dot")
  | dotDot => ("..", "DotDot")
  | assignment => ("=", "Assignment")
  | equals => ("==", "Equals")
  | atSign => ("@", "At")
  | tilde => ("~", "Tilde")
  | pipe => ("|", "Pipe")
  | backquote => ("`", "Backquote")
  | quote => ("'", "Quote")
  | ampersand => ("&", "Ampersand")
  | backslash => ("\\", "Backslash")
  | dollar => ("$", "Dollar")

def spelling (mark : Punctuation) : String := mark.words.1

def label (mark : Punctuation) : String := mark.words.2

def all : List Punctuation :=
  [openParen, closeParen, openBracket, closeBracket, openCurly, closeCurly, comma, semicolon,
    colon, doubleColon, dot, dotDot, assignment, equals, atSign, tilde, pipe, backquote, quote,
    ampersand, backslash, dollar]

theorem mem_all (mark : Punctuation) : mark ∈ all := by
  cases mark <;> decide

def ofSpelling? (text : String) : Option Punctuation :=
  all.find? fun mark => mark.spelling == text

def isOperator : Punctuation → Bool
  | dot | assignment | equals | tilde | backquote | quote | ampersand | dollar => true
  | _ => false

end Punctuation

/-! ## Kinds -/

inductive TokenKind where
  /-- The end of the unit, always the last token. -/
  | endOfInput
  /-- Malformed text; its diagnostic is kept apart. -/
  | malformed
  /-- An identifier with a leading capital, or a lone underscore. -/
  | variableName
  | functionName
  | operatorSymbol
  | number
  | string
  | mark (mark : Punctuation)
  | word (word : Keyword)
  deriving DecidableEq, Repr

inductive TokenCategory where
  | variableName
  | functionName
  | operatorSymbol
  | number
  | string
  | keyword
  | punctuation
  | malformed
  | endOfInput
  deriving DecidableEq, Repr

namespace TokenKind

def label : TokenKind → String
  | endOfInput => "EOF"
  | malformed => "Error"
  | variableName => "VariableIdentifier"
  | functionName => "FunctionIdentifier"
  | operatorSymbol => "OperatorSymbol"
  | number => "Number"
  | string => "String"
  | mark m => m.label
  | word w => w.label

def category : TokenKind → TokenCategory
  | endOfInput => .endOfInput
  | malformed => .malformed
  | variableName => .variableName
  | functionName => .functionName
  | operatorSymbol => .operatorSymbol
  | number => .number
  | string => .string
  | mark _ => .punctuation
  | word _ => .keyword

def isIdentifier : TokenKind → Bool
  | variableName | functionName => true
  | _ => false

def isOperatorStart : TokenKind → Bool
  | operatorSymbol => true
  | mark m => m.isOperator
  | word w => w.isOperator
  | _ => false

/-- An operator run is punctuation if it spells some, and a user operator symbol otherwise. -/
def ofOperatorText (text : String) : TokenKind :=
  match Punctuation.ofSpelling? text with
  | some m => mark m
  | none => operatorSymbol

def ofKeyword? (text : String) : Option TokenKind := (Keyword.ofSpelling? text).map word

end TokenKind

/-! ## Tokens -/

structure Token where
  kind : TokenKind
  value : String
  /-- The module part of a qualified name. -/
  moduleName : Option String
  span : Span
  deriving DecidableEq, Repr

def qualify (moduleName : Option String) (name : String) : String :=
  match moduleName with
  | some home => home ++ "::" ++ name
  | none => name

namespace Token

def endOfInput (offset : Nat) : Token := ⟨.endOfInput, "EOF", none, .point offset⟩

def isQualified (token : Token) : Bool := token.moduleName.isSome

def isPlainIdentifier (token : Token) : Bool := token.kind.isIdentifier && !token.isQualified

def qualifiedValue (token : Token) : String := qualify token.moduleName token.value

def summary (token : Token) : String :=
  let shown :=
    match token.kind with
    | .endOfInput | .mark _ | .word _ => ""
    | _ => token.qualifiedValue
  token.kind.label ++ " (" ++ shown ++ ")"

def describe (token : Token) : String :=
  "Token \x7b\nkind: " ++ token.kind.label ++ ",\nvalue: " ++ token.qualifiedValue ++ "\x7d"

end Token

/-! ## Trivia -/

inductive TriviaKind where
  | lineComment
  | blockComment
  | interpreterLine
  deriving DecidableEq, Repr

/-- Source text that no token covers but that is worth keeping. -/
structure Trivia where
  kind : TriviaKind
  text : String
  span : Span
  deriving DecidableEq, Repr

end Equational

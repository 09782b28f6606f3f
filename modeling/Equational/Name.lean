import Equational.Token

/-!
# Names

Identifiers, operator names and occurrences of operators, with the small enumerations that the
skeleton of a run and the resolved expression share.
-/

namespace Equational

/-! ## Identifiers -/

inductive NameClass where
  | variableName
  | functionName
  deriving DecidableEq, Repr

structure Name where
  text : String
  nameClass : NameClass
  deriving DecidableEq, Repr

structure Identifier where
  moduleName : Option String
  name : Name
  deriving DecidableEq, Repr

namespace Name

def ofToken (token : Token) : Name :=
  ⟨token.value, if token.kind = .variableName then .variableName else .functionName⟩

end Name

namespace Identifier

def ofToken (token : Token) : Identifier := ⟨token.moduleName, Name.ofToken token⟩

def text (identifier : Identifier) : String := qualify identifier.moduleName identifier.name.text

end Identifier

/-! ## Operators -/

structure OperatorName where
  symbol : String
  moduleName : Option String
  deriving DecidableEq, Repr

def OperatorName.text (name : OperatorName) : String := qualify name.moduleName name.symbol

structure OperatorUse where
  name : OperatorName
  span : Span
  deriving DecidableEq, Repr

def OperatorUse.text (use : OperatorUse) : String := use.name.text

/-! ## Brackets, separators, fixed sides -/

inductive Bracket where
  | paren
  | square
  | curly
  deriving DecidableEq, Repr

namespace Bracket

def label : Bracket → String
  | paren => "tuple"
  | square => "list"
  | curly => "set"

def closing : Bracket → Punctuation
  | paren => .closeParen
  | square => .closeBracket
  | curly => .closeCurly

/-- The brackets that a token opens; whatever is no other opening counts as a curly one. -/
def ofOpening : TokenKind → Bracket
  | .mark .openParen => paren
  | .mark .openBracket => square
  | _ => curly

end Bracket

inductive Separator where
  | comma
  | semicolon
  deriving DecidableEq, Repr

def Separator.ofKind? : TokenKind → Option Separator
  | .mark .comma => some comma
  | .mark .semicolon => some semicolon
  | _ => none

/-- Which operand of an operator section is left open. -/
inductive Hole where
  | left
  | right
  deriving DecidableEq, Repr

inductive UnaryPlace where
  | before
  | behind
  deriving DecidableEq, Repr

end Equational

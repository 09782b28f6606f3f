import Equational.Name
import Equational.Number.Literal

/-!
# Expressions

The resolved form of an expression position.  Every node has the span of the source it comes from.
A position whose run could not be resolved is an `error` node; its diagnostic is kept elsewhere.
-/

namespace Equational

inductive Expr where
  | identifier (identifier : Identifier) (span : Span)
  /-- An identifier declared on the spot. -/
  | declared (identifier : Identifier) (span : Span)
  | typed (name : Name) (typeName : Identifier) (span : Span)
  | number (literal : NumberLiteral) (span : Span)
  | string (value : String) (span : Span)
  /-- A function written in front of its argument. -/
  | apply (function : Expr) (argument : Expr) (span : Span)
  | binary (op : OperatorUse) (left : Expr) (right : Expr) (span : Span)
  | unary (op : OperatorUse) (place : UnaryPlace) (operand : Expr) (span : Span)
  | quotation (marker : OperatorUse) (operand : Expr) (span : Span)
  | composition (left : Expr) (right : Expr) (span : Span)
  | conditional (condition : Expr) (thenBranch : Expr) (elseBranch : Option Expr) (span : Span)
  | sequence (first : Expr) (second : Expr) (span : Span)
  | lambda (parameters : List Expr) (body : Expr) (span : Span)
  /-- A function applied by the dollar operator. -/
  | infixApply (function : Expr) (argument : Expr) (span : Span)
  /-- A tuple, a list or a set, as the brackets say. -/
  | collection (bracket : Bracket) (elements : List Expr) (separator : Option Separator)
      (tail : Option Expr) (span : Span)
  | enumeration (bracket : Bracket) (elements : List Expr) (bound : Option Expr) (span : Span)
  | comprehension (bracket : Bracket) (template : Expr) (generators : List Expr) (span : Span)
  | operatorLiteral (op : OperatorUse) (span : Span)
  /-- An operator with one operand given and the other left open. -/
  | partialApply (op : OperatorUse) (operand : Expr) (hole : Hole) (span : Span)
  | error (span : Span)
  deriving Repr, Inhabited

namespace Expr

def span : Expr → Span
  | identifier _ span | declared _ span | typed _ _ span | number _ span | string _ span
  | apply _ _ span | binary _ _ _ span | unary _ _ _ span | quotation _ _ span
  | composition _ _ span | conditional _ _ _ span | sequence _ _ span | lambda _ _ span
  | infixApply _ _ span | collection _ _ _ _ span | enumeration _ _ _ span
  | comprehension _ _ _ span | operatorLiteral _ span | partialApply _ _ _ span
  | error span => span

def isError : Expr → Bool
  | error _ => true
  | _ => false

/-! ## Error nodes -/

mutual

def containsError : Expr → Bool
  | error _ => true
  | identifier _ _ | declared _ _ | typed _ _ _ | number _ _ | string _ _
  | operatorLiteral _ _ => false
  | apply function argument _ | infixApply function argument _ =>
    function.containsError || argument.containsError
  | binary _ left right _ | composition left right _ | sequence left right _ =>
    left.containsError || right.containsError
  | unary _ _ operand _ | quotation _ operand _ | partialApply _ operand _ _ =>
    operand.containsError
  | conditional condition thenBranch elseBranch _ =>
    condition.containsError || thenBranch.containsError || optionContainsError elseBranch
  | lambda parameters body _ => anyContainsError parameters || body.containsError
  | collection _ elements _ last _ | enumeration _ elements last _ =>
    anyContainsError elements || optionContainsError last
  | comprehension _ template generators _ =>
    template.containsError || anyContainsError generators

def anyContainsError : List Expr → Bool
  | [] => false
  | first :: rest => first.containsError || anyContainsError rest

def optionContainsError : Option Expr → Bool
  | none => false
  | some e => e.containsError

end

/-! ## Text -/

mutual

/-- The expression in prefix form, with every application and operator in parentheses. -/
def text : Expr → String
  | identifier name _ => name.text
  | declared name _ => "(var " ++ name.text ++ ")"
  | typed name typeName _ => name.text ++ ":" ++ typeName.text
  | number literal _ => literal.text
  | string value _ => Text.quote value
  | apply function argument _ => "(app " ++ function.text ++ " " ++ argument.text ++ ")"
  | binary op left right _ => "(" ++ op.text ++ " " ++ left.text ++ " " ++ right.text ++ ")"
  | unary op .before operand _ => "(pre " ++ op.text ++ " " ++ operand.text ++ ")"
  | unary op .behind operand _ => "(post " ++ op.text ++ " " ++ operand.text ++ ")"
  | quotation marker operand _ => "(" ++ marker.text ++ " " ++ operand.text ++ ")"
  | composition left right _ => "(. " ++ left.text ++ " " ++ right.text ++ ")"
  | conditional condition thenBranch elseBranch _ =>
    "(if " ++ condition.text ++ " " ++ thenBranch.text ++ optionText " " elseBranch ++ ")"
  | sequence first second _ => "(|| " ++ first.text ++ " " ++ second.text ++ ")"
  | lambda parameters body _ =>
    "(lambda [" ++ wordsText parameters ++ "] " ++ body.text ++ ")"
  | infixApply function argument _ => "($ " ++ function.text ++ " " ++ argument.text ++ ")"
  | collection bracket elements _ tail _ =>
    "(" ++ bracket.label ++ elementsText elements ++ optionText " | " tail ++ ")"
  | enumeration bracket elements bound _ =>
    "(" ++ bracket.label ++ elementsText elements ++ " .." ++ optionText " " bound ++ ")"
  | comprehension bracket template generators _ =>
    "(" ++ bracket.label ++ " " ++ template.text ++ " :" ++ elementsText generators ++ ")"
  | operatorLiteral op _ => "(op " ++ op.text ++ ")"
  | partialApply op operand .left _ => "(section _ " ++ op.text ++ " " ++ operand.text ++ ")"
  | partialApply op operand .right _ => "(section " ++ operand.text ++ " " ++ op.text ++ " _)"
  | error _ => "<error>"

def elementsText : List Expr → String
  | [] => ""
  | first :: rest => " " ++ first.text ++ elementsText rest

def wordsText : List Expr → String
  | [] => ""
  | first :: rest => first.text ++ elementsText rest

def optionText (lead : String) : Option Expr → String
  | none => ""
  | some e => lead ++ e.text

end

end Expr

end Equational

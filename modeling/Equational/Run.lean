import Equational.Name
import Equational.Number.Literal

/-!
# Runs

The skeleton of an expression position: a flat run of atoms and operators.  Brackets, lambdas and
conditionals nest further runs, but how operators group within a run is left open.
-/

namespace Equational

mutual

inductive Run where
  | mk (items : List RunItem) (span : Span)

inductive RunItem where
  | atom (atom : Atom)
  | operator (op : OperatorUse)
  /-- With a then branch the rest of the run is the else branch; without one, the rest of the run
  is the then branch and there is no else branch. -/
  | conditional (condition : Run) (thenBranch : Option Run) (span : Span)

inductive Atom where
  | identifier (identifier : Identifier) (span : Span)
  | declared (identifier : Identifier) (span : Span)
  | typed (name : Name) (typeName : Identifier) (span : Span)
  | number (literal : NumberLiteral) (span : Span)
  | string (value : String) (span : Span)
  | container (bracket : Bracket) (body : ContainerBody) (span : Span)
  | operatorLiteral (op : OperatorUse) (span : Span)
  | partialApply (op : OperatorUse) (operand : Run) (hole : Hole) (span : Span)
  | lambda (parameters : List RunItem) (body : Run) (span : Span)

inductive ContainerBody where
  | empty
  | elements (runs : List Run) (separator : Option Separator) (trailing : Bool)
      (tail : Option Run)
  | enumeration (runs : List Run) (bound : Option Run)
  | comprehension (template : Run) (generators : List Run)

end

/-! ## Parts and spans -/

namespace Run

def items : Run → List RunItem
  | mk items _ => items

def span : Run → Span
  | mk _ span => span

def isEmpty (run : Run) : Bool := run.items.isEmpty

end Run

def Atom.span : Atom → Span
  | identifier _ span | declared _ span | typed _ _ span | number _ span | string _ span
  | container _ _ span | operatorLiteral _ span | partialApply _ _ _ span | lambda _ _ span => span

def RunItem.span : RunItem → Span
  | atom a => a.span
  | operator op => op.span
  | conditional _ _ span => span

def itemsSpan (items : List RunItem) (fallback : Span) : Span :=
  match items.head?, items.getLast? with
  | some first, some last => first.span.through last.span
  | _, _ => fallback

/-- A run over the span of its items; an empty run takes the fallback. -/
def Run.ofItems (items : List RunItem) (fallback : Span) : Run := ⟨items, itemsSpan items fallback⟩

end Equational

import Equational.Operator.Table
import Equational.Statement

/-!
# Declaring operators

What a header does to an operator table.  Only operator headers with a precedence have an effect: a
single parameter makes a prefix operator, anything else takes the associativity of its level.  An
alias is declared in the same way, under its own spelling.
-/

namespace Equational

/-- The entry that an operator's precedence is copied from: infix first, then prefix, then
postfix. -/
def OperatorTable.anyEntry (table : OperatorTable) (name : OperatorName) :
    Option OperatorEntry :=
  [Role.infixOp, .prefixOp, .postfixOp].findSome? fun role => table.lookupName name role

namespace PrecedenceSpec

def levelIn (table : OperatorTable) (span : Span) : PrecedenceSpec → Except Diagnostic Nat
  | .level n => checked n
  | .sameAs name =>
    match table.anyEntry name with
    | some entry => checked entry.precedence
    | none => .error ⟨.undeclaredOperator name.text, span⟩
where
  checked (n : Nat) : Except Diagnostic Nat :=
    if maximalLevel < n then .error ⟨.invalidPrecedence (toString n), span⟩ else .ok n

end PrecedenceSpec

def headerFixity (parameters : List Parameter) (level : Nat) : Fixity :=
  if parameters.length = 1 then .prefixOp else levelFixity level

/-- Declares a header in a table, and gives the entry that the header's own name had before. -/
def OperatorTable.declare : Header → EStateM Diagnostic OperatorTable (Option OperatorEntry)
  | .symbol (.operator name) parameters (some precedence) knownAs span => do
    let level ← MonadExcept.ofExcept (precedence.levelIn (← get) span)
    let fixity := headerFixity parameters level
    let shadowed := (← get).lookup name.text fixity.role
    modify (·.insert ⟨name.text, level, fixity⟩)
    if let some other := knownAs then
      modify (·.insert ⟨other, level, fixity⟩)
    return shadowed
  | _ => return none

end Equational

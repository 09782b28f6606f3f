import Equational.Name

/-!
# Operator tables

A table holds the operators that are declared at a point of a unit, at most one entry for each
symbol in each role.  Declaring a symbol again in the same role replaces its entry; nothing is ever
removed.
-/

namespace Equational

/-! ## Fixity -/

inductive Fixity where
  | prefixOp
  | infixLeft
  | infixRight
  | infixNone
  | postfixOp
  deriving DecidableEq, Repr

inductive Role where
  | prefixOp
  | infixOp
  | postfixOp
  deriving DecidableEq, Repr

def Fixity.role : Fixity → Role
  | prefixOp => .prefixOp
  | infixLeft | infixRight | infixNone => .infixOp
  | postfixOp => .postfixOp

/-! ## Levels -/

inductive Band where
  | default
  | lambda
  | sequence
  | conditional
  | infixApplication
  | relational
  | additive
  | multiplicative
  | prefixOp
  | exponent
  | composition
  | application
  | quotation
  deriving DecidableEq, Repr

def Band.level : Band → Nat
  | default => 0
  | lambda => 1
  | sequence => 2
  | conditional => 3
  | infixApplication => 4
  | relational => 5
  | additive => 6
  | multiplicative => 7
  | prefixOp => 8
  | exponent => 9
  | composition => 10
  | application => 11
  | quotation => 13

def maximalLevel : Nat := Band.quotation.level

def levelFixity (level : Nat) : Fixity :=
  if level = 1 ∨ level = 3 ∨ level = 4 ∨ level = 9 then .infixRight
  else if level = 5 then .infixNone
  else .infixLeft

/-! ## Entries -/

structure OperatorEntry where
  symbol : String
  precedence : Nat
  fixity : Fixity
  deriving DecidableEq, Repr

namespace OperatorEntry

def role (entry : OperatorEntry) : Role := entry.fixity.role

def answers (entry : OperatorEntry) (symbol : String) (role : Role) : Bool :=
  entry.symbol == symbol && entry.role == role

end OperatorEntry

/-! ## Tables -/

structure OperatorTable where
  entries : List OperatorEntry
  deriving DecidableEq, Repr

/-- Puts an entry in the place of the one it shadows, or at the end. -/
def OperatorEntry.replaceIn (entry : OperatorEntry) : List OperatorEntry → List OperatorEntry
  | [] => [entry]
  | first :: rest =>
    if first.answers entry.symbol entry.role then entry :: rest
    else first :: entry.replaceIn rest

namespace OperatorTable

def size (table : OperatorTable) : Nat := table.entries.length

def lookup (table : OperatorTable) (symbol : String) (role : Role) : Option OperatorEntry :=
  table.entries.find? fun entry => entry.answers symbol role

/-- The qualified spelling comes first, then the bare symbol. -/
def lookupName (table : OperatorTable) (name : OperatorName) (role : Role) :
    Option OperatorEntry :=
  match name.moduleName with
  | some _ => (table.lookup name.text role).or (table.lookup name.symbol role)
  | none => table.lookup name.symbol role

def isDeclared (table : OperatorTable) (name : OperatorName) : Bool :=
  [Role.prefixOp, .infixOp, .postfixOp].any fun role => (table.lookupName name role).isSome

def insert (table : OperatorTable) (entry : OperatorEntry) : OperatorTable :=
  ⟨entry.replaceIn table.entries⟩

/-! ## Built-in operators -/

private def band (level : Band) (fixity : Fixity) (symbols : List String) : List OperatorEntry :=
  symbols.map fun symbol => ⟨symbol, level.level, fixity⟩

def builtins : List OperatorEntry :=
  band .quotation .prefixOp ["`", "'", "~", "&"] ++
  band .composition .infixLeft ["."] ++
  band .exponent .infixRight ["^", "!"] ++
  band .prefixOp .prefixOp ["-", "#", "not"] ++
  band .multiplicative .infixLeft ["*", "/", "div", "mod", "and", "and then"] ++
  band .additive .infixLeft ["++", "+", "-", "or", "or else"] ++
  band .relational .infixNone ["<", ">", "=", "<=", ">=", "<>", "=="] ++
  band .infixApplication .infixRight ["$"] ++
  band .sequence .infixLeft ["||"]

def initial : OperatorTable := builtins.foldl insert ⟨[]⟩

end OperatorTable

end Equational

import Equational.Expr

/-!
# Statements

Declarations and definitions, as they are read from a unit.  Headers declare operators and function
names; equations hold one or more clauses, each with the qualifiers around its right side.
-/

namespace Equational

/-! ## Scopes and modifiers -/

inductive Scope where
  | privateScope
  | publicScope
  deriving DecidableEq, Repr

inductive Modifier where
  | const
  | special
  | external
  | var
  | virtual
  deriving DecidableEq, Repr

namespace Modifier

def all : List Modifier := [const, special, external, var, virtual]

def normalize (modifiers : List Modifier) : List Modifier :=
  all.filter fun modifier => modifiers.contains modifier

end Modifier

/-! ## Imports -/

inductive ImportKind where
  /-- Names are visible with their module in front. -/
  | importing
  /-- Names are visible as they are, and passed on. -/
  | including
  deriving DecidableEq, Repr

inductive ModuleName where
  | identifier (name : String)
  | path (path : String)
  deriving DecidableEq, Repr

def ModuleName.text : ModuleName → String
  | identifier name => name
  | path p => p

structure ModuleSpec where
  moduleName : ModuleName
  knownAs : Option Name
  span : Span
  deriving DecidableEq, Repr

inductive SymbolName where
  | identifier (name : Name)
  | operator (symbol : String)
  deriving DecidableEq, Repr

structure SymbolSpec where
  symbol : SymbolName
  knownAs : Option SymbolName
  span : Span
  deriving DecidableEq, Repr

/-! ## Headers -/

structure Parameter where
  name : Name
  /-- Marked with a tilde. -/
  special : Bool
  deriving DecidableEq, Repr

inductive PrecedenceSpec where
  | level (level : Nat)
  /-- The precedence of an operator that is declared already. -/
  | sameAs (name : OperatorName)
  deriving DecidableEq, Repr

inductive HeaderName where
  | identifier (identifier : Identifier)
  | operator (name : OperatorName)
  deriving DecidableEq, Repr

def HeaderName.text : HeaderName → String
  | identifier i => i.text
  | operator name => name.text

inductive Header where
  | binding (name : Name) (value : Expr) (span : Span)
  | symbol (name : HeaderName) (parameters : List Parameter) (precedence : Option PrecedenceSpec)
      (knownAs : Option String) (span : Span)
  deriving Repr

def Header.span : Header → Span
  | binding _ _ span => span
  | symbol _ _ _ _ span => span

/-! ## Types -/

structure TypeSection where
  scope : Option Scope
  modifiers : List Modifier
  headers : List Header
  span : Span
  deriving Repr

structure TypeDefinition where
  scope : Option Scope
  name : Name
  supertype : Option Identifier
  sections : List TypeSection
  deriving Repr

/-! ## Equations -/

structure Binding where
  pattern : Expr
  value : Expr
  deriving Repr

inductive Qualifier where
  | guard (condition : Expr) (span : Span)
  | otherwise (span : Span)
  | bindings (bindings : List Binding) (span : Span)
  deriving Repr

def Qualifier.span : Qualifier → Span
  | guard _ span => span
  | otherwise span => span
  | bindings _ span => span

structure Clause where
  leading : List Qualifier
  rhs : Expr
  trailing : List Qualifier
  span : Span
  deriving Repr

/-! ## Statements -/

inductive Sign where
  | plus
  | minus
  deriving DecidableEq, Repr

inductive Statement where
  | imports (kind : ImportKind) (specs : List ModuleSpec) (span : Span)
  /-- Without symbols, every public symbol of the module. -/
  | importsFrom (spec : ModuleSpec) (kind : ImportKind) (symbols : List SymbolSpec) (span : Span)
  | headers (scope : Option Scope) (modifiers : List Modifier) (headers : List Header)
      (span : Span)
  | typeDeclaration (external : Bool) (definition : TypeDefinition) (span : Span)
  | typeRename (scope : Option Scope) (name : Identifier) (knownAs : Option Name) (span : Span)
  | typeSynonym (scope : Option Scope) (name : Name) (target : Identifier) (span : Span)
  | pragma (sign : Option Sign) (value : NumberLiteral) (span : Span)
  | equation (lhs : Expr) (clauses : List Clause) (span : Span)
  | definitions (pairs : List Binding) (span : Span)
  | undefine (names : List Identifier) (span : Span)
  deriving Repr

namespace Statement

def span : Statement → Span
  | imports _ _ span => span
  | importsFrom _ _ _ span => span
  | headers _ _ _ span => span
  | typeDeclaration _ _ span => span
  | typeRename _ _ _ span => span
  | typeSynonym _ _ _ span => span
  | pragma _ _ span => span
  | equation _ _ span => span
  | definitions _ span => span
  | undefine _ span => span

def isEquation : Statement → Bool
  | equation _ _ _ => true
  | _ => false

/-- An equation with one more clause, up to whose end it now reaches; any other statement stays as
it is. -/
def addClause (clause : Clause) : Statement → Statement
  | equation lhs clauses span =>
    equation lhs (clauses ++ [clause]) ⟨span.start, clause.span.stop⟩
  | other => other

end Statement

/-! ## Scripts -/

structure Script where
  body : List Statement
  span : Span
  deriving Repr

def Script.equations (script : Script) : List Statement := script.body.filter (·.isEquation)

end Equational

import Equational.Statement

/-!
# Statements as text

Every statement is one parenthesised form that begins with a word for its kind.
-/

namespace Equational

def spaced (words : List String) : String := String.join (words.map (" " ++ ·))

def listed : List String → String
  | [] => ""
  | first :: rest => " " ++ first ++ String.join (rest.map (", " ++ ·))

def aliasText : Option String → String
  | some name => " as " ++ name
  | none => ""

def Scope.label : Scope → String
  | .privateScope => "Private"
  | .publicScope => "Public"

def Modifier.label : Modifier → String
  | .const => "Const"
  | .special => "Special"
  | .external => "Extern"
  | .var => "Var"
  | .virtual => "Virtual"

def ImportKind.label : ImportKind → String
  | .importing => "Import"
  | .including => "Include"

def ModuleSpec.text (spec : ModuleSpec) : String :=
  spec.moduleName.text ++ aliasText (spec.knownAs.map Name.text)

def SymbolName.shown : SymbolName → String
  | .identifier name => name.text
  | .operator symbol => "(" ++ symbol ++ ")"

def SymbolSpec.shown (spec : SymbolSpec) : String :=
  spec.symbol.shown ++ aliasText (spec.knownAs.map SymbolName.shown)

/-! ## Headers -/

def Parameter.text (parameter : Parameter) : String :=
  if parameter.special then "~" ++ parameter.name.text else parameter.name.text

def HeaderName.shown : HeaderName → String
  | .identifier i => i.text
  | .operator name => "(" ++ name.text ++ ")"

def PrecedenceSpec.shown : PrecedenceSpec → String
  | .level n => " @ " ++ toString n
  | .sameAs name => " @ (" ++ name.text ++ ")"

def Header.text : Header → String
  | .binding name value _ => name.text ++ " = " ++ value.text
  | .symbol name parameters precedence knownAs _ =>
    name.shown ++ spaced (parameters.map Parameter.text) ++
      (precedence.map PrecedenceSpec.shown).getD "" ++ aliasText knownAs

def attributesText (scope : Option Scope) (modifiers : List Modifier) : String :=
  spaced (scope.toList.map Scope.label ++ modifiers.map Modifier.label)

def headersText (headers : List Header) : String := listed (headers.map Header.text)

/-! ## Types -/

def TypeSection.text (group : TypeSection) : String :=
  " |" ++ attributesText group.scope group.modifiers ++ headersText group.headers

def TypeDefinition.text (definition : TypeDefinition) : String :=
  let supertype := match definition.supertype with
    | some name => " : " ++ name.text
    | none => ""
  definition.name.text ++ supertype ++ String.join (definition.sections.map TypeSection.text)

/-! ## Equations -/

def Binding.text (binding : Binding) : String := binding.pattern.text ++ " = " ++ binding.value.text

def Qualifier.text : Qualifier → String
  | .guard condition _ => "if " ++ condition.text
  | .otherwise _ => "otherwise"
  | .bindings pairs _ => "where" ++ listed (pairs.map Binding.text)

def Clause.text (clause : Clause) : String :=
  " [" ++ String.join (clause.leading.map (·.text ++ " ")) ++ "= " ++ clause.rhs.text ++
    spaced (clause.trailing.map Qualifier.text) ++ "]"

/-! ## Statements -/

def Sign.text : Sign → String
  | .plus => "+"
  | .minus => "-"

def Statement.text : Statement → String
  | .imports kind specs _ => "(" ++ kind.label ++ spaced (specs.map ModuleSpec.text) ++ ")"
  | .importsFrom spec kind symbols _ =>
    "(from " ++ spec.moduleName.text ++ " " ++ kind.label ++
      spaced (symbols.map SymbolSpec.shown) ++ ")"
  | .headers scope modifiers declared _ =>
    "(declare" ++ attributesText scope modifiers ++ headersText declared ++ ")"
  | .typeDeclaration external definition _ =>
    (if external then "(extern type " else "(type ") ++ definition.text ++ ")"
  | .typeRename _ name knownAs _ =>
    "(type " ++ name.text ++ aliasText (knownAs.map Name.text) ++ ")"
  | .typeSynonym _ name target _ => "(type " ++ name.text ++ " == " ++ target.text ++ ")"
  | .pragma sign value _ => "(@ " ++ (sign.map Sign.text).getD "" ++ value.text ++ ")"
  | .equation lhs clauses _ =>
    "(equation " ++ lhs.text ++ String.join (clauses.map Clause.text) ++ ")"
  | .definitions pairs _ =>
    "(def" ++ String.join (pairs.map fun pair => " [" ++ pair.text ++ "]") ++ ")"
  | .undefine names _ => "(undef" ++ spaced (names.map Identifier.text) ++ ")"

end Equational

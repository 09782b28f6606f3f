import Equational.Proofs.Run.Parameters

/-!
# Expressions in parentheses

An expression is written with parentheses around every node that an operator makes and around every
operand of one, with the parameters of lambdas as they stand in a source.
-/

namespace Equational

open Grammar

/-! ## Writing -/

/-- The tokens of the parts of an operator name: its symbol, two words that make up an operator, or
a word that the table knows as one. -/
inductive Spells (table : OperatorTable) : OperatorName → List Face → Prop where
  | symbol {face : Face} (h : face.kind.isOperatorStart) :
    Spells table ⟨face.value, face.moduleName⟩ [face]
  | joined {face : Face} {follower : Keyword} {symbol : String}
    (h : joined? face.kind = some (follower, symbol)) :
    Spells table ⟨symbol, none⟩ [face, .word follower]
  | word {face : Face} (hkind : face.kind = .functionName)
    (h : table.isDeclared ⟨face.value, face.moduleName⟩) :
    Spells table ⟨face.value, face.moduleName⟩ [face]

def Bracket.enclosed (bracket : Bracket) (faces : List Face) : List Face :=
  .mark bracket.opening :: (faces ++ [.mark bracket.closing])

def separated (separator : Separator) (pieces : List (Expr × List Face)) : List Face :=
  pieces.flatMap fun piece => .mark separator.mark :: piece.2

def optional (lead : List Face) : Option (Expr × List Face) → List Face
  | none => []
  | some piece => lead ++ piece.2

/-- Where an expression is written: anywhere, or with a pair of parentheses around it. -/
inductive Site where
  | anywhere
  | inside

/-- The faces write the expression with every node and every operand in parentheses of its own.
Lambdas have the parameters that they have in the source. -/
inductive Parenthesized (table : OperatorTable) (source : List Token) :
    Site → Expr → List Face → Prop where
  | identifier {token : Token} {span : Span} (hkind : token.kind.isIdentifier)
    (hplain : wordOperator? table (.atom (.identifier (.ofToken token) span)) = none) :
    Parenthesized table source .anywhere (.identifier (.ofToken token) span) [token.face]
  | declared {token : Token} {span : Span} (hkind : token.kind.isIdentifier) :
    Parenthesized table source .anywhere (.declared (.ofToken token) span)
      [.word .varWord, token.face]
  | number {token : Token} {literal : NumberLiteral} {span : Span} (hkind : token.kind = .number)
    (hliteral : NumberLiteral.ofToken token = .ok literal) :
    Parenthesized table source .anywhere (.number literal span) [token.face]
  | string {token : Token} {span : Span} (hkind : token.kind = .string) :
    Parenthesized table source .anywhere (.string token.value span) [token.face]
  | group {e : Expr} {faces : List Face} (h : Parenthesized table source .inside e faces) :
    Parenthesized table source .anywhere e (Bracket.paren.enclosed faces)
  | empty {bracket : Bracket} {span : Span} :
    Parenthesized table source .anywhere (.collection bracket [] none none span)
      (bracket.enclosed [])
  | single {bracket : Bracket} {first : Expr × List Face} {tail : Option (Expr × List Face)}
    {span : Span} (hfirst : Parenthesized table source .anywhere first.1 first.2)
    (htail : ∀ piece ∈ tail, Parenthesized table source .anywhere piece.1 piece.2)
    (hbracket : tail = none → bracket ≠ .paren) :
    Parenthesized table source .anywhere
      (.collection bracket [first.1] none (tail.map Prod.fst) span)
      (bracket.enclosed (first.2 ++ optional [.mark .pipe] tail))
  | several {bracket : Bracket} {separator : Separator} {first : Expr × List Face}
    {more : List (Expr × List Face)} {tail : Option (Expr × List Face)} {span : Span}
    (hfirst : Parenthesized table source .anywhere first.1 first.2)
    (hmore : ∀ piece ∈ more, Parenthesized table source .anywhere piece.1 piece.2)
    (htail : ∀ piece ∈ tail, Parenthesized table source .anywhere piece.1 piece.2)
    (hne : more ≠ []) :
    Parenthesized table source .anywhere
      (.collection bracket (first.1 :: more.map Prod.fst) (some separator)
        (tail.map Prod.fst) span)
      (bracket.enclosed (first.2 ++ (separated separator more ++ optional [.mark .pipe] tail)))
  | trailing {bracket : Bracket} {separator : Separator} {first : Expr × List Face}
    {more : List (Expr × List Face)} {span : Span}
    (hfirst : Parenthesized table source .anywhere first.1 first.2)
    (hmore : ∀ piece ∈ more, Parenthesized table source .anywhere piece.1 piece.2) :
    Parenthesized table source .anywhere
      (.collection bracket (first.1 :: more.map Prod.fst) (some separator) none span)
      (bracket.enclosed (first.2 ++ (separated separator more ++ [.mark separator.mark])))
  | enumeration {bracket : Bracket} {separator : Separator} {first : Expr × List Face}
    {more : List (Expr × List Face)} {bound : Option (Expr × List Face)} {span : Span}
    (hfirst : Parenthesized table source .anywhere first.1 first.2)
    (hmore : ∀ piece ∈ more, Parenthesized table source .anywhere piece.1 piece.2)
    (hbound : ∀ piece ∈ bound, Parenthesized table source .anywhere piece.1 piece.2) :
    Parenthesized table source .anywhere
      (.enumeration bracket (first.1 :: more.map Prod.fst) (bound.map Prod.fst) span)
      (bracket.enclosed
        (first.2 ++ (separated separator more ++ .mark .dotDot :: optional [] bound)))
  | comprehension {bracket : Bracket} {separator : Separator} {template first : Expr × List Face}
    {more : List (Expr × List Face)} {span : Span}
    (htemplate : Parenthesized table source .anywhere template.1 template.2)
    (hfirst : Parenthesized table source .anywhere first.1 first.2)
    (hmore : ∀ piece ∈ more, Parenthesized table source .anywhere piece.1 piece.2) :
    Parenthesized table source .anywhere
      (.comprehension bracket template.1 (first.1 :: more.map Prod.fst) span)
      (bracket.enclosed
        (template.2 ++ .mark .colon :: (first.2 ++ separated separator more)))
  | lambda {front : List Token} {parameters : List Expr} {body : Expr} {faces : List Face}
    {span : Span} (hparameters : ParametersAt table source span.start front parameters)
    (hbody : Parenthesized table source .anywhere body faces) :
    Parenthesized table source .anywhere (.lambda parameters body span)
      (.mark .backslash :: (front.map Token.face ++ .mark .dot :: faces))
  | alone {e : Expr} {faces : List Face} (h : Parenthesized table source .anywhere e faces) :
    Parenthesized table source .inside e faces
  | literal {op : OperatorUse} {span : Span} {faces : List Face}
    (hspells : Spells table op.name faces) :
    Parenthesized table source .inside (.operatorLiteral op span) faces
  | prefixed {op : OperatorUse} {operand : Expr} {symbol faces : List Face}
    (hprefixed : (table.lookupName op.name .prefixOp).isSome)
    (hspells : Spells table op.name symbol)
    (h : Parenthesized table source .inside operand faces) :
    Parenthesized table source .inside (prefixNode op operand)
      (symbol ++ Bracket.paren.enclosed faces)
  | binary {op : OperatorUse} {left right : Expr} {symbol leftFaces rightFaces : List Face}
    (hinfixed : (table.lookupName op.name .infixOp).isSome) (hspells : Spells table op.name symbol)
    (hleft : Parenthesized table source .inside left leftFaces)
    (hright : Parenthesized table source .inside right rightFaces) :
    Parenthesized table source .inside (binaryNode op left right)
      (Bracket.paren.enclosed leftFaces ++ (symbol ++ Bracket.paren.enclosed rightFaces))
  | apply {function argument : Expr} {span : Span} {functionFaces argumentFaces : List Face}
    (hfunction : Parenthesized table source .inside function functionFaces)
    (hargument : Parenthesized table source .inside argument argumentFaces) :
    Parenthesized table source .inside (.apply function argument span)
      (Bracket.paren.enclosed functionFaces ++ Bracket.paren.enclosed argumentFaces)
  | withElse {condition thenBranch elseBranch : Expr} {span : Span}
    {conditionFaces thenFaces elseFaces : List Face}
    (hcondition : Parenthesized table source .anywhere condition conditionFaces)
    (hthen : Parenthesized table source .anywhere thenBranch thenFaces)
    (helse : Parenthesized table source .anywhere elseBranch elseFaces) :
    Parenthesized table source .inside (.conditional condition thenBranch (some elseBranch) span)
      (.word .ifWord :: (conditionFaces ++
        .word .thenWord :: (thenFaces ++ .word .elseWord :: elseFaces)))
  | withoutElse {condition thenBranch : Expr} {span : Span} {conditionFaces thenFaces : List Face}
    (hcondition : Parenthesized table source .anywhere condition conditionFaces)
    (hthen : Parenthesized table source .anywhere thenBranch thenFaces) :
    Parenthesized table source .inside (.conditional condition thenBranch none span)
      (.word .ifWord :: (conditionFaces ++ .word .thenWord :: thenFaces))
  | openLeft {op : OperatorUse} {operand : Expr} {span : Span} {symbol faces : List Face}
    (hinfixed : (table.lookupName op.name .infixOp).isSome)
    (hprefixed : table.lookupName op.name .prefixOp = none) (hspells : Spells table op.name symbol)
    (h : Parenthesized table source .inside operand faces) :
    Parenthesized table source .inside (.partialApply op operand .left span)
      (symbol ++ Bracket.paren.enclosed faces)
  | openRight {op : OperatorUse} {operand : Expr} {span : Span} {symbol faces : List Face}
    (hinfixed : (table.lookupName op.name .infixOp).isSome) (hspells : Spells table op.name symbol)
    (h : Parenthesized table source .inside operand faces) :
    Parenthesized table source .inside (.partialApply op operand .right span)
      (Bracket.paren.enclosed faces ++ symbol)

end Equational

import Equational.Proofs.Slot
import Equational.Run
import Equational.Statement.Grammar

/-!
# Relocated values

The same text at another place gives the same tokens, runs and statements with other positions.  A
relocation says where positions go; starts and stops of spans may go different ways.  Everything
that holds positions can be relocated, and what holds none stays as it is.
-/

namespace Equational

/-! ## Relocations -/

structure Relocation where
  start : Nat → Nat
  stop : Nat → Nat

/-- A position may begin a span as well as end one. -/
def Relocation.Aligns (place : Relocation) (offset : Nat) : Prop :=
  place.stop offset = place.start offset

/-- Values that hold positions. -/
class Relocatable (α : Type) where
  relocate : Relocation → α → α

export Relocatable (relocate)

/-- Values that hold no positions stay as they are. -/
class Placeless (α : Type) : Prop

instance {α : Type} [Placeless α] : Relocatable α where
  relocate _ value := value

@[simp] theorem relocate_placeless {α : Type} [Placeless α] (place : Relocation) :
    (relocate place : α → α) = id := rfl

instance : Placeless Unit := ⟨⟩
instance : Placeless Bool := ⟨⟩
instance : Placeless String := ⟨⟩
instance : Placeless TokenKind := ⟨⟩
instance : Placeless NumberLiteral := ⟨⟩
instance : Placeless Name := ⟨⟩
instance : Placeless Identifier := ⟨⟩
instance : Placeless OperatorName := ⟨⟩
instance : Placeless Parameter := ⟨⟩
instance : Placeless PrecedenceSpec := ⟨⟩
instance : Placeless Scope := ⟨⟩
instance : Placeless Modifier := ⟨⟩
instance : Placeless ModuleName := ⟨⟩
instance : Placeless ImportKind := ⟨⟩
instance : Placeless SymbolName := ⟨⟩
instance : Placeless Sign := ⟨⟩

/-! ## Several values -/

section Several

variable {α β : Type}

section Lists

variable [Relocatable α] [Relocatable β]

instance : Relocatable (List α) where
  relocate place := List.map (relocate place)

instance : Relocatable (Option α) where
  relocate place := Option.map (relocate place)

instance : Relocatable (α × β) where
  relocate place pair := (relocate place pair.1, relocate place pair.2)

@[simp] theorem relocate_list (place : Relocation) (values : List α) :
    relocate place values = values.map (relocate place) := rfl

theorem relocate_append (place : Relocation) (first second : List α) :
    relocate place (first ++ second) = relocate place first ++ relocate place second :=
  List.map_append

theorem relocate_reverse (place : Relocation) (values : List α) :
    relocate place values.reverse = (relocate place values).reverse := List.map_reverse

@[simp] theorem relocate_option (place : Relocation) (value : Option α) :
    relocate place value = value.map (relocate place) := rfl

@[simp] theorem relocate_pair (place : Relocation) (pair : α × β) :
    relocate place pair = (relocate place pair.1, relocate place pair.2) := rfl

end Lists

@[simp] theorem relocate_placelessList [Placeless α] (place : Relocation) (values : List α) :
    relocate place values = values := List.map_id values

@[simp] theorem relocate_placelessOption [Placeless α] (place : Relocation) (value : Option α) :
    relocate place value = value := Option.map_id_apply

end Several

/-! ## Tokens and diagnostics -/

instance : Relocatable Nat where
  relocate place offset := place.start offset

instance : Relocatable Span where
  relocate place span := ⟨place.start span.start, place.stop span.stop⟩

instance : Relocatable Diagnostic where
  relocate place diagnostic := { diagnostic with span := relocate place diagnostic.span }

instance : Relocatable Token where
  relocate place token := { token with span := relocate place token.span }

instance : Relocatable Slot where
  relocate place slot := ⟨relocate place slot.toToken, relocate place slot.owed⟩

instance : Relocatable OperatorUse where
  relocate place op := { op with span := relocate place op.span }

section Parts

variable (place : Relocation)

theorem relocate_through (first last : Span) :
    relocate place (first.through last) = (relocate place first).through (relocate place last) :=
  rfl

@[simp] theorem kind_relocate (token : Token) : (relocate place token).kind = token.kind := rfl

@[simp] theorem value_relocate (token : Token) : (relocate place token).value = token.value := rfl

@[simp] theorem isQualified_relocate (token : Token) :
    (relocate place token).isQualified = token.isQualified := rfl

@[simp] theorem toToken_relocate (slot : Slot) :
    (relocate place slot).toToken = relocate place slot.toToken := rfl

theorem tokensOf_relocate (slots : List Slot) :
    tokensOf (relocate place slots) = relocate place (tokensOf slots) := by
  simp [tokensOf]

end Parts

/-! ## Runs -/

mutual

def Run.relocated (place : Relocation) : Run → Run
  | ⟨items, span⟩ => ⟨relocatedItems place items, relocate place span⟩

def relocatedItems (place : Relocation) : List RunItem → List RunItem
  | [] => []
  | item :: rest => item.relocated place :: relocatedItems place rest

def RunItem.relocated (place : Relocation) : RunItem → RunItem
  | .atom a => .atom (a.relocated place)
  | .operator op => .operator (relocate place op)
  | .conditional condition thenBranch span =>
    .conditional (condition.relocated place) (relocatedOption place thenBranch)
      (relocate place span)

def Atom.relocated (place : Relocation) : Atom → Atom
  | .identifier name span => .identifier name (relocate place span)
  | .declared name span => .declared name (relocate place span)
  | .typed name typeName span => .typed name typeName (relocate place span)
  | .number literal span => .number literal (relocate place span)
  | .string value span => .string value (relocate place span)
  | .container bracket body span =>
    .container bracket (body.relocated place) (relocate place span)
  | .operatorLiteral op span => .operatorLiteral (relocate place op) (relocate place span)
  | .partialApply op operand hole span =>
    .partialApply (relocate place op) (operand.relocated place) hole (relocate place span)
  | .lambda parameters body span =>
    .lambda (relocatedItems place parameters) (body.relocated place) (relocate place span)

def ContainerBody.relocated (place : Relocation) : ContainerBody → ContainerBody
  | .empty => .empty
  | .elements runs separator trailing tail =>
    .elements (relocatedRuns place runs) separator trailing (relocatedOption place tail)
  | .enumeration runs bound =>
    .enumeration (relocatedRuns place runs) (relocatedOption place bound)
  | .comprehension template generators =>
    .comprehension (template.relocated place) (relocatedRuns place generators)

def relocatedRuns (place : Relocation) : List Run → List Run
  | [] => []
  | run :: rest => run.relocated place :: relocatedRuns place rest

def relocatedOption (place : Relocation) : Option Run → Option Run
  | none => none
  | some run => some (run.relocated place)

end

instance : Relocatable Run where
  relocate := Run.relocated

instance : Relocatable RunItem where
  relocate := RunItem.relocated

instance : Relocatable Atom where
  relocate := Atom.relocated

instance : Relocatable ContainerBody where
  relocate := ContainerBody.relocated

section Runs

variable (place : Relocation)

theorem relocatedItems_eq (items : List RunItem) :
    relocatedItems place items = relocate place items := by
  induction items with
  | nil => rfl
  | cons item rest ih => exact congrArg (item.relocated place :: ·) ih

theorem relocatedRuns_eq (runs : List Run) : relocatedRuns place runs = relocate place runs := by
  induction runs with
  | nil => rfl
  | cons run rest ih => exact congrArg (run.relocated place :: ·) ih

theorem relocatedOption_eq (run : Option Run) :
    relocatedOption place run = relocate place run := by
  cases run <;> rfl

theorem relocate_elementsBody (runs : List Run) (separator : Option Separator) (trailing : Bool)
    (tail : Option Run) :
    relocate place (ContainerBody.elements runs separator trailing tail) =
      .elements (relocate place runs) separator trailing (relocate place tail) := by
  rw [← relocatedRuns_eq, ← relocatedOption_eq]
  rfl

theorem relocate_enumerationBody (runs : List Run) (bound : Option Run) :
    relocate place (ContainerBody.enumeration runs bound) =
      .enumeration (relocate place runs) (relocate place bound) := by
  rw [← relocatedRuns_eq, ← relocatedOption_eq]
  rfl

theorem relocate_comprehensionBody (template : Run) (generators : List Run) :
    relocate place (ContainerBody.comprehension template generators) =
      .comprehension (relocate place template) (relocate place generators) := by
  rw [← relocatedRuns_eq]
  rfl

theorem relocate_lambdaAtom (parameters : List RunItem) (body : Run) (span : Span) :
    relocate place (Atom.lambda parameters body span) =
      .lambda (relocate place parameters) (relocate place body) (relocate place span) := by
  rw [← relocatedItems_eq]
  rfl

theorem span_relocate_run (run : Run) : (relocate place run).span = relocate place run.span := by
  cases run
  rfl

theorem items_relocate_run (run : Run) :
    (relocate place run).items = relocate place run.items := by
  cases run
  exact relocatedItems_eq place _

theorem isEmpty_relocate_run (run : Run) : (relocate place run).isEmpty = run.isEmpty := by
  rw [Run.isEmpty, items_relocate_run, relocate_list, List.isEmpty_map]
  rfl

theorem span_relocate_atom (a : Atom) : (relocate place a).span = relocate place a.span := by
  cases a <;> rfl

theorem span_relocate_item (item : RunItem) :
    (relocate place item).span = relocate place item.span := by
  cases item with
  | atom a => exact span_relocate_atom place a
  | operator op => rfl
  | conditional condition thenBranch span => rfl

theorem relocate_itemsSpan (items : List RunItem) (fallback : Span) :
    relocate place (itemsSpan items fallback) =
      itemsSpan (relocate place items) (relocate place fallback) := by
  simp only [itemsSpan, relocate_list, List.head?_map, List.getLast?_map]
  cases items.head? <;> cases items.getLast? <;>
    simp [relocate_through, span_relocate_item]

theorem relocate_ofItems (items : List RunItem) (fallback : Span) :
    relocate place (Run.ofItems items fallback) =
      Run.ofItems (relocate place items) (relocate place fallback) := by
  have hitems : relocate place (Run.ofItems items fallback) =
      ⟨relocatedItems place items, relocate place (itemsSpan items fallback)⟩ := rfl
  rw [hitems, relocate_itemsSpan, relocatedItems_eq]
  rfl

end Runs

/-! ## Containers -/

section Containers

variable (place : Relocation)

theorem relocate_partialApply (op : OperatorUse) (items : List RunItem) (hole : Hole)
    (span : Span) :
    relocate place (Atom.partialApply op (.ofItems items span) hole span) =
      .partialApply (relocate place op) (.ofItems (relocate place items) (relocate place span))
        hole (relocate place span) := by
  rw [← relocate_ofItems]
  rfl

theorem relocate_trailingOperator (items : List RunItem) (span : Span) :
    relocate place (match items.getLast? with
      | some (.operator op) =>
        some (Atom.partialApply op (.ofItems items.dropLast span) .right span)
      | _ => none) =
    match (relocate place items).getLast? with
    | some (.operator op) =>
      some (.partialApply op
        (.ofItems (relocate place items).dropLast (relocate place span)) .right
        (relocate place span))
    | _ => none := by
  simp only [relocate_list, List.getLast?_map, ← List.map_dropLast]
  cases items.getLast? with
  | none => rfl
  | some last =>
    cases last with
    | operator op => exact congrArg some (relocate_partialApply place op items.dropLast .right span)
    | _ => rfl

theorem relocate_operatorForm (run : Run) (span : Span) :
    relocate place (operatorForm? run span) =
      operatorForm? (relocate place run) (relocate place span) := by
  unfold operatorForm?
  rw [items_relocate_run]
  generalize run.items = items
  cases items with
  | nil => rfl
  | cons first rest =>
    cases first with
    | operator op =>
      cases rest with
      | nil => rfl
      | cons second rest =>
        exact congrArg some (relocate_partialApply place op (second :: rest) .left span)
    | atom a => exact relocate_trailingOperator place (.atom a :: rest) span
    | conditional condition thenBranch condSpan =>
      exact relocate_trailingOperator place
        (.conditional condition thenBranch condSpan :: rest) span

theorem relocate_closedContainer (bracket : Bracket) (body : ContainerBody) (span : Span) :
    relocate place (closedContainer bracket body span) =
      closedContainer bracket (relocate place body) (relocate place span) := by
  match bracket, body with
  | .paren, .elements [run] none false none =>
    have hform := relocate_operatorForm place run span
    change relocate place ((operatorForm? run span).getD _) =
      (operatorForm? (relocate place run) (relocate place span)).getD _
    rw [← hform]
    cases operatorForm? run span <;> rfl
  | .paren, .elements [] separator trailing tail => rfl
  | .paren, .elements (first :: second :: rest) separator trailing tail => rfl
  | .paren, .elements [run] (some separator) trailing tail => rfl
  | .paren, .elements [run] none true tail => rfl
  | .paren, .elements [run] none false (some tail) => rfl
  | .paren, .empty => rfl
  | .paren, .enumeration runs bound => rfl
  | .paren, .comprehension template generators => rfl
  | .square, body => rfl
  | .curly, body => rfl

end Containers

/-! ## Expressions -/

namespace Expr

mutual

def relocated (place : Relocation) : Expr → Expr
  | identifier name span => identifier name (relocate place span)
  | declared name span => declared name (relocate place span)
  | typed name typeName span => typed name typeName (relocate place span)
  | number literal span => number literal (relocate place span)
  | string value span => string value (relocate place span)
  | apply function argument span =>
    apply (function.relocated place) (argument.relocated place) (relocate place span)
  | binary op left right span =>
    binary (relocate place op) (left.relocated place) (right.relocated place) (relocate place span)
  | unary op side operand span =>
    unary (relocate place op) side (operand.relocated place) (relocate place span)
  | quotation marker operand span =>
    quotation (relocate place marker) (operand.relocated place) (relocate place span)
  | composition left right span =>
    composition (left.relocated place) (right.relocated place) (relocate place span)
  | conditional condition thenBranch elseBranch span =>
    conditional (condition.relocated place) (thenBranch.relocated place)
      (optionRelocated place elseBranch) (relocate place span)
  | sequence first second span =>
    sequence (first.relocated place) (second.relocated place) (relocate place span)
  | lambda parameters body span =>
    lambda (listRelocated place parameters) (body.relocated place) (relocate place span)
  | infixApply function argument span =>
    infixApply (function.relocated place) (argument.relocated place) (relocate place span)
  | collection bracket elements separator tail span =>
    collection bracket (listRelocated place elements) separator (optionRelocated place tail)
      (relocate place span)
  | enumeration bracket elements bound span =>
    enumeration bracket (listRelocated place elements) (optionRelocated place bound)
      (relocate place span)
  | comprehension bracket template generators span =>
    comprehension bracket (template.relocated place) (listRelocated place generators)
      (relocate place span)
  | operatorLiteral op span => operatorLiteral (relocate place op) (relocate place span)
  | partialApply op operand hole span =>
    partialApply (relocate place op) (operand.relocated place) hole (relocate place span)
  | error span => error (relocate place span)

def listRelocated (place : Relocation) : List Expr → List Expr
  | [] => []
  | first :: rest => first.relocated place :: listRelocated place rest

def optionRelocated (place : Relocation) : Option Expr → Option Expr
  | none => none
  | some e => some (e.relocated place)

end

end Expr

instance : Relocatable Expr where
  relocate := Expr.relocated

section Expressions

variable (place : Relocation)

theorem listRelocated_eq (values : List Expr) :
    Expr.listRelocated place values = relocate place values := by
  induction values with
  | nil => rfl
  | cons first rest ih => exact congrArg (first.relocated place :: ·) ih

theorem optionRelocated_eq (value : Option Expr) :
    Expr.optionRelocated place value = relocate place value := by
  cases value <;> rfl

theorem relocate_lambda (parameters : List Expr) (body : Expr) (span : Span) :
    Expr.lambda (relocate place parameters) (relocate place body) (relocate place span) =
      relocate place (Expr.lambda parameters body span) := by
  rw [← listRelocated_eq]
  rfl

theorem relocate_collection (bracket : Bracket) (elements : List Expr)
    (separator : Option Separator) (tail : Option Expr) (span : Span) :
    Expr.collection bracket (relocate place elements) separator (relocate place tail)
        (relocate place span) =
      relocate place (Expr.collection bracket elements separator tail span) := by
  rw [← listRelocated_eq, ← optionRelocated_eq]
  rfl

theorem relocate_enumeration (bracket : Bracket) (elements : List Expr) (bound : Option Expr)
    (span : Span) :
    Expr.enumeration bracket (relocate place elements) (relocate place bound)
        (relocate place span) =
      relocate place (Expr.enumeration bracket elements bound span) := by
  rw [← listRelocated_eq, ← optionRelocated_eq]
  rfl

theorem relocate_comprehension (bracket : Bracket) (template : Expr) (generators : List Expr)
    (span : Span) :
    Expr.comprehension bracket (relocate place template) (relocate place generators)
        (relocate place span) =
      relocate place (Expr.comprehension bracket template generators span) := by
  rw [← listRelocated_eq]
  rfl

theorem span_relocate_expr (e : Expr) : (relocate place e).span = relocate place e.span := by
  cases e <;> rfl

end Expressions

/-! ## Statements -/

instance : Relocatable Header where
  relocate place header :=
    match header with
    | .binding name value span => .binding name (relocate place value) (relocate place span)
    | .symbol name parameters precedence knownAs span =>
      .symbol name parameters precedence knownAs (relocate place span)

instance : Relocatable TypeSection where
  relocate place part :=
    { part with headers := relocate place part.headers, span := relocate place part.span }

instance : Relocatable TypeDefinition where
  relocate place definition := { definition with sections := relocate place definition.sections }

instance : Relocatable ModuleSpec where
  relocate place spec := { spec with span := relocate place spec.span }

instance : Relocatable SymbolSpec where
  relocate place spec := { spec with span := relocate place spec.span }

instance : Relocatable Binding where
  relocate place pair := ⟨relocate place pair.pattern, relocate place pair.value⟩

instance : Relocatable Qualifier where
  relocate place qualifier :=
    match qualifier with
    | .guard condition span => .guard (relocate place condition) (relocate place span)
    | .otherwise span => .otherwise (relocate place span)
    | .bindings bindings span => .bindings (relocate place bindings) (relocate place span)

instance : Relocatable Clause where
  relocate place clause :=
    ⟨relocate place clause.leading, relocate place clause.rhs, relocate place clause.trailing,
      relocate place clause.span⟩

instance : Relocatable Statement where
  relocate place statement :=
    match statement with
    | .imports kind specs span => .imports kind (relocate place specs) (relocate place span)
    | .importsFrom spec kind symbols span =>
      .importsFrom (relocate place spec) kind (relocate place symbols) (relocate place span)
    | .headers scope modifiers headers span =>
      .headers scope modifiers (relocate place headers) (relocate place span)
    | .typeDeclaration external definition span =>
      .typeDeclaration external (relocate place definition) (relocate place span)
    | .typeRename scope name knownAs span =>
      .typeRename scope name knownAs (relocate place span)
    | .typeSynonym scope name target span =>
      .typeSynonym scope name target (relocate place span)
    | .pragma sign value span => .pragma sign value (relocate place span)
    | .equation lhs clauses span =>
      .equation (relocate place lhs) (relocate place clauses) (relocate place span)
    | .definitions pairs span => .definitions (relocate place pairs) (relocate place span)
    | .undefine names span => .undefine names (relocate place span)

instance : Relocatable Parsed where
  relocate place parsed :=
    match parsed with
    | .statement statement => .statement (relocate place statement)
    | .clause clause => .clause (relocate place clause)

theorem isEquation_relocate (place : Relocation) (statement : Statement) :
    (relocate place statement).isEquation = statement.isEquation := by
  cases statement <;> rfl

theorem relocate_addClause (place : Relocation) (clause : Clause) (statement : Statement) :
    relocate place (statement.addClause clause) =
      (relocate place statement).addClause (relocate place clause) := by
  cases statement with
  | equation lhs clauses span =>
    have hclauses : relocate place (clauses ++ [clause]) =
        relocate place clauses ++ [relocate place clause] := by simp
    exact congrArg (Statement.equation _ · _) hclauses
  | _ => rfl

end Equational

import Equational.Proofs.Operator.Declare
import Equational.Proofs.Statement.Events

/-!
# Declared headers

The headers that a statement holds, in source order, are exactly those that took effect while it was
read: declaring them one after another, under the table from before the statement, gives the table
behind it.
-/

namespace Equational

/-! ## Declaring several headers -/

def OperatorTable.declareAll (table : OperatorTable) : List Header → Except Diagnostic OperatorTable
  | [] => .ok table
  | header :: rest =>
    match declare header table with
    | .ok _ declared => declared.declareAll rest
    | .error diagnostic _ => .error diagnostic

theorem OperatorTable.declareAll_append {table middle : OperatorTable} {earlier : List Header}
    (h : table.declareAll earlier = .ok middle) (later : List Header) :
    table.declareAll (earlier ++ later) = middle.declareAll later := by
  induction earlier generalizing table with
  | nil =>
    cases h
    rfl
  | cons header rest ih =>
    rw [List.cons_append, declareAll]
    rw [declareAll] at h
    split at h
    · exact ih h
    · cases h

private theorem PrecedenceSpec.le_of_levelIn {table : OperatorTable} {span : Span} {level : Nat}
    {precedence : PrecedenceSpec} (h : precedence.levelIn table span = .ok level) :
    level ≤ maximalLevel := by
  have hchecked {n : Nat} (h : levelIn.checked span n = .ok level) : level ≤ maximalLevel := by
    unfold levelIn.checked at h
    split at h
    · cases h
    · rename_i hle
      cases h
      exact Nat.le_of_not_lt hle
  cases precedence with
  | level n => exact hchecked h
  | sameAs name =>
    unfold levelIn at h
    dsimp only at h
    split at h
    · exact hchecked h
    · cases h

theorem OperatorTable.declare_induction {motive : OperatorTable → Prop}
    (hinsert : ∀ {table : OperatorTable} (symbol : String) (parameters : List Parameter)
      (level : Nat), level ≤ maximalLevel → motive table →
        motive (table.insert ⟨symbol, level, headerFixity parameters level⟩))
    {table declared : OperatorTable} {header : Header} {shadowed : Option OperatorEntry}
    (h : motive table) (hdeclare : declare header table = .ok shadowed declared) :
    motive declared := by
  rw [declare_eq_ok_iff] at hdeclare
  unfold OperatorTable.declared at hdeclare
  split at hdeclare
  · rename_i name parameters precedence knownAs span
    obtain ⟨level, hlevel, hinserted⟩ := bind_eq_ok_iff.mp hdeclare
    have hle := precedence.le_of_levelIn hlevel
    have hnamed := hinsert name.text parameters level hle h
    cases knownAs with
    | none =>
      cases hinserted
      exact hnamed
    | some other =>
      cases hinserted
      exact hinsert other parameters level hle hnamed
  · cases hdeclare
    exact h

theorem OperatorTable.declareAll_induction {motive : OperatorTable → Prop}
    (hdeclare : ∀ {table declared : OperatorTable} {header : Header}
      {shadowed : Option OperatorEntry}, motive table →
        declare header table = .ok shadowed declared → motive declared)
    {table declared : OperatorTable} {headers : List Header} (h : motive table)
    (hall : table.declareAll headers = .ok declared) : motive declared := by
  induction headers generalizing table with
  | nil =>
    cases hall
    exact h
  | cons header rest ih =>
    rw [declareAll] at hall
    split at hall
    · rename_i hheader
      exact ih (hdeclare h hheader) hall
    · cases hall

def TypeDefinition.declared (definition : TypeDefinition) : List Header :=
  definition.sections.flatMap TypeSection.headers

def Statement.declared : Statement → List Header
  | headers _ _ declared _ => declared
  | typeDeclaration _ definition _ => definition.declared
  | _ => []

theorem Statement.declared_addClause (clause : Clause) (statement : Statement) :
    (statement.addClause clause).declared = statement.declared := by
  cases statement <;> rfl

def Parsed.declared : Parsed → List Header
  | statement s => s.declared
  | clause _ => []

/-! ## Headers among the events -/

theorem filterMap_resolvedAll (positions : List Expr) :
    (resolvedAll positions).filterMap Event.header? = [] := by
  rw [resolvedAll, List.filterMap_map]
  exact List.filterMap_eq_nil_iff.mpr fun e _ => rfl

theorem filterMap_headers (found : List Header) :
    (found.flatMap Header.events).filterMap Event.header? = found := by
  induction found with
  | nil => rfl
  | cons header rest ih =>
    rw [List.flatMap_cons, List.filterMap_append, ih, Header.events, List.filterMap_append,
      filterMap_resolvedAll]
    rfl

theorem Parsed.headers_of_events (parsed : Parsed) :
    parsed.events.filterMap Event.header? = parsed.declared := by
  cases parsed with
  | clause c => exact filterMap_resolvedAll c.positions
  | statement s =>
    cases s with
    | headers scope modifiers found span => exact filterMap_headers found
    | typeDeclaration external definition span =>
      change (definition.sections.flatMap TypeSection.events).filterMap _ = definition.declared
      rw [List.filterMap_flatMap]
      exact congrArg (definition.sections.flatMap ·) (funext fun t => filterMap_headers t.headers)
    | _ => exact filterMap_resolvedAll _

/-! ## Statements -/

namespace Parse

/-- The current table is that of the headers declared so far. -/
def TableIs (base : OperatorTable) (events : List Event) (state : ParseState) : Prop :=
  base.declareAll (events.filterMap Event.header?) = .ok state.table

theorem TableIs.moves {noise : Noise} {base : OperatorTable} {events : List Event}
    {state next : ParseState} (h : TableIs base events state) (hmoves : Moves noise state next) :
    TableIs base events next := by
  unfold TableIs
  rw [hmoves.table_eq]
  exact h

theorem ensures_declare (base : OperatorTable) (events : List Event) (header : Header) :
    Ensures (TableIs base events) (declare header)
      (fun _ => TableIs base (events ++ [.declared header])) fun _ => True := by
  intro state hbase
  cases hstep : declare header state with
  | error diagnostic final => trivial
  | ok value final =>
    unfold declare at hstep
    cases hdeclared : OperatorTable.declare header state.table with
    | ok shadowed declared =>
      rw [hdeclared] at hstep
      cases hstep
      unfold TableIs
      rw [List.filterMap_append, OperatorTable.declareAll_append hbase]
      simp [OperatorTable.declareAll, Event.header?, hdeclared]
    | error diagnostic left =>
      rw [hdeclared] at hstep
      cases hstep

theorem records_table (base : OperatorTable) : Records (TableIs base) fun _ => True where
  silent events state next hmoves hstate := hstate.moves hmoves
  fails _ _ _ := trivial
  resolve events run := by
    have hmoving : Ensures (TableIs base events) (resolve run) (fun _ => TableIs base events)
        fun _ => True :=
      (moving_resolve run).ensures (fun _ _ hmoves hstate => hstate.moves hmoves) fun _ _ => trivial
    refine hmoving.imp (fun _ => id) fun e state hstate => ?_
    simpa [TableIs, List.filterMap_cons, Event.header?] using hstate
  declare := ensures_declare base

theorem declares_statement {state final : ParseState} {parsed : Parsed}
    (h : statement state = .ok parsed final) :
    state.table.declareAll parsed.declared = .ok final.table := by
  have hstart : TableIs state.table [] state := rfl
  have hfinal := (records_table state.table).statement.of_ok hstart h
  unfold TableIs at hfinal
  rwa [parsed.headers_of_events] at hfinal

end Parse

end Equational

import Equational.Proofs.Node
import Equational.Proofs.Parse.Ensures
import Equational.Proofs.Statement.Moving

/-!
# What reading a statement does

Reading a statement resolves runs and declares headers; everything else only moves the cursor.  A
statement that is read tells all of it, in the order in which it happened: the expressions at its
positions are those that were resolved, and its headers are those that were declared.

So what lasts while the cursor moves, and can be kept up at every expression and every declaration,
holds behind the statement of all that it tells.
-/

namespace Equational

/-! ## Events -/

inductive Event where
  | resolved (e : Expr)
  | declared (header : Header)

namespace Event

def expression? : Event → Option Expr
  | resolved e => some e
  | declared _ => none

def header? : Event → Option Header
  | resolved _ => none
  | declared header => some header

end Event

def resolvedAll (positions : List Expr) : List Event := positions.map .resolved

def Header.events (header : Header) : List Event :=
  resolvedAll header.positions ++ [.declared header]

def TypeSection.events (section_ : TypeSection) : List Event :=
  section_.headers.flatMap Header.events

def Statement.events : Statement → List Event
  | headers _ _ found _ => found.flatMap Header.events
  | typeDeclaration _ definition _ => definition.sections.flatMap TypeSection.events
  | other => resolvedAll other.positions

def Parsed.events : Parsed → List Event
  | statement s => s.events
  | clause c => resolvedAll c.positions

namespace Parse

variable {α β : Type}

/-! ## What can be kept up -/

/-- Something that holds of the state and of what has been done. -/
structure Records (holds : List Event → ParseState → Prop) (failed : ParseState → Prop) : Prop where
  silent : ∀ events state next, Moves .silent state next → holds events state → holds events next
  fails : ∀ events state, holds events state → failed state
  resolve : ∀ events run, Ensures (holds events) (resolve run)
    (fun e => holds (events ++ [.resolved e])) failed
  declare : ∀ events header, Ensures (holds events) (declare header)
    (fun _ => holds (events ++ [.declared header])) failed

namespace Records

variable {holds : List Event → ParseState → Prop} {failed : ParseState → Prop}
  (h : Records holds failed) {events : List Event}

include h

theorem moving {step : Parse α} (hmoving : Moving .silent step) (events : List Event) :
    Ensures (holds events) step (fun _ => holds events) failed :=
  hmoving.ensures (h.silent events) (h.fails events)

theorem andThen {step : Parse α} {next : α → Parse β} {last : β → ParseState → Prop}
    (hmoving : Moving .silent step)
    (hnext : ∀ value, Ensures (holds events) (next value) last failed) :
    Ensures (holds events) (step >>= next) last failed := (h.moving hmoving events).bind hnext

theorem orThen {condition : Prop} [Decidable condition] {first second : Parse α}
    {next : α → Parse β} {last : β → ParseState → Prop} (hfirst : Moving .silent first)
    (hsecond : Moving .silent second)
    (hnext : ∀ value, Ensures (holds events) (next value) last failed) :
    Ensures (holds events) (if condition then first >>= next else second >>= next) last failed :=
  .ite (fun _ => h.andThen hfirst hnext) fun _ => h.andThen hsecond hnext

theorem thrown (diagnostic : Diagnostic) {last : α → ParseState → Prop} :
    Ensures (holds events) (throw diagnostic) last failed := .throw diagnostic (h.fails events)

/-! ## Loops -/

theorem exhausted (events : List Event) {state : ParseState} (hstate : holds events state) :
    holds events { state with exhausted := true } :=
  h.silent events state _ (.single (.exhaust state)) hstate

theorem many {item? : Parse (Option α)} {eventsOf : α → List Event}
    (hitem : ∀ events, Ensures (holds events) item?
      (fun answer => holds (events ++ answer.toList.flatMap eventsOf)) failed)
    (rounds : Nat) :
    Ensures (holds events) (many item? rounds [])
      (fun values => holds (events ++ values.flatMap eventsOf)) failed := by
  have hrounds := Ensures.many (fun found => holds (events ++ found.flatMap eventsOf))
    (fun found _ => h.exhausted (events ++ found.flatMap eventsOf))
    (fun found => (hitem _).imp (fun _ => id) fun answer state hstate => by simpa using hstate)
    rounds []
  simpa using hrounds

theorem separated (separator : Punctuation) {item : Parse α} {eventsOf : α → List Event}
    (hitem : ∀ events, Ensures (holds events) item
      (fun value => holds (events ++ eventsOf value)) failed) :
    Ensures (holds events) (separated separator item)
      (fun values => holds (events ++ values.flatMap eventsOf)) failed := by
  have hadd (found : List α) : Ensures (holds (events ++ found.flatMap eventsOf)) item
      (fun value => holds (events ++ (found ++ [value]).flatMap eventsOf)) failed :=
    (hitem _).imp (fun _ => id) fun value state hstate => by simpa using hstate
  have hfirst := hadd []
  rw [List.flatMap_nil, List.append_nil] at hfirst
  exact .separated (fun found => holds (events ++ found.flatMap eventsOf))
    (fun found _ => h.exhausted (events ++ found.flatMap eventsOf)) separator hfirst hadd
    fun found => h.moving (moving_acceptMark separator) _

/-! ## Expressions and headers -/

theorem expression (context : RunContext) :
    Ensures (holds events) (expression context) (fun e => holds (events ++ resolvedAll [e]))
      failed :=
  h.andThen (moving_run context) fun collected => h.resolve events collected

theorem binding (context : RunContext) :
    Ensures (holds events) (binding context)
      (fun found => holds (events ++ resolvedAll found.positions)) failed := by
  refine (h.expression _).bind fun pattern => h.andThen (moving_expectMark .assignment) fun _ => ?_
  refine (h.expression context).bind fun value => .pure fun state hstate => ?_
  rwa [List.append_assoc] at hstate

theorem header : Ensures (holds events) header
    (fun found => holds (events ++ resolvedAll found.positions)) failed := by
  have hname (start : Nat) : Ensures (holds events) (nameHeader start)
      (fun found => holds (events ++ resolvedAll found.positions)) failed := by
    refine h.andThen (moving_identifier _) fun name => h.andThen moving_currentKind fun kind => ?_
    refine .ite (fun _ => ?_) fun _ => ?_
    · unfold bindingHeader
      cases name.moduleName with
      | some moduleName => exact h.andThen (moving_spanFrom start) fun span => h.thrown _
      | none =>
        refine h.andThen moving_advance fun _ => (h.expression {}).bind fun value => ?_
        exact h.andThen (moving_spanFrom start) fun span => .pure fun _ hstate => hstate
    · refine h.andThen moving_parameters fun parameters => h.andThen moving_alias fun knownAs => ?_
      refine h.andThen (moving_spanFrom start) fun span => .pure fun state hstate => ?_
      rwa [← List.append_nil events] at hstate
  have hoperator (start : Nat) : Ensures (holds events) (operatorHeader start)
      (fun found => holds (events ++ resolvedAll found.positions)) failed := by
    refine h.andThen moving_parenthesizedOperator fun name => ?_
    refine h.andThen moving_parameters fun parameters => ?_
    refine h.andThen (moving_acceptMark .atSign) fun given => ?_
    refine h.orThen (moving_precedence.map some) (.pure none) fun precedence => ?_
    refine h.andThen moving_alias fun knownAs => h.andThen (moving_spanFrom start) fun span => ?_
    refine .pure fun state hstate => ?_
    rwa [← List.append_nil events] at hstate
  refine h.andThen moving_position fun start => ?_
  refine h.andThen (moving_acceptMark .openParen) fun opened => ?_
  exact .ite (fun _ => hoperator start) fun _ => hname start

theorem headers : Ensures (holds events) headers
    (fun found => holds (events ++ found.flatMap Header.events)) failed := by
  refine h.separated .comma fun events => h.header.bind fun found => ?_
  refine (h.declare _ found).bind fun _ => .pure fun state hstate => ?_
  rwa [List.append_assoc] at hstate

/-! ## Types -/

theorem closing {start : Nat} {node : Span → Statement}
    (hnode : ∀ span, (node span).events = events) :
    Ensures (holds events) (do let _ ← expectMark .semicolon; return node (← spanFrom start))
      (fun found => holds found.events) failed := by
  refine h.andThen (moving_expectMark .semicolon) fun _ => ?_
  refine h.andThen (moving_spanFrom start) fun span => .pure fun state hstate => ?_
  rwa [hnode span]

theorem typeSection : Ensures (holds events) typeSection
    (fun found => holds (events ++ found.events)) failed := by
  refine h.andThen moving_position fun start => h.andThen moving_attributes fun attributes => ?_
  refine h.headers.bind fun found => ?_
  exact h.andThen (moving_spanFrom start) fun span => .pure fun _ hstate => hstate

theorem typeDefinition (start : Nat) (scope : Option Scope) (external : Bool) (name : Name) :
    Ensures (holds []) (typeDefinition start scope external name)
      (fun found => holds found.events) failed := by
  refine h.andThen (moving_acceptMark .colon) fun derived => ?_
  refine h.orThen ((moving_identifier _).map some) (.pure none) fun supertype => ?_
  refine h.andThen (moving_acceptMark .assignment) fun defined => ?_
  have hnone : Ensures (holds []) (pure [])
      (fun sections => holds ([] ++ sections.flatMap TypeSection.events)) failed :=
    .pure fun _ hstate => hstate
  refine .choice (h.separated .pipe fun events => h.typeSection) hnone fun sections => ?_
  exact h.closing fun span => rfl

theorem typeStatement (start : Nat) (scope : Option Scope) (external : Bool) :
    Ensures (holds []) (typeStatement start scope external) (fun found => holds found.events)
      failed := by
  refine h.andThen (moving_expect _) fun _ => h.andThen (moving_identifier _) fun name => ?_
  refine .ite (fun _ => ?_) fun _ => ?_
  · refine h.andThen (moving_accept _) fun renamed => ?_
    refine h.orThen ((moving_plainName _).map some) (.pure none) fun knownAs => ?_
    exact h.closing fun span => rfl
  · refine h.andThen (moving_acceptMark .equals) fun synonymous => .ite (fun _ => ?_) fun _ => ?_
    · exact h.andThen (moving_identifier _) fun target => h.closing fun span => rfl
    · exact h.typeDefinition start scope external name.name

theorem attributedStatement : Ensures (holds []) attributedStatement
    (fun found => holds found.events) failed := by
  refine h.andThen moving_position fun start => h.andThen moving_attributes fun attributes => ?_
  refine h.andThen moving_currentKind fun kind => ?_
  refine .ite (fun _ => .ite (fun _ => ?_) fun _ => .ite (fun _ => ?_) fun _ => ?_) fun _ => ?_
  · exact h.typeStatement start attributes.1 false
  · exact h.typeStatement start attributes.1 true
  · exact h.andThen moving_current fun token => h.thrown _
  · exact h.headers.bind fun found => h.closing fun span => rfl

/-! ## Statements without headers -/

theorem importStatement : Ensures (holds []) importStatement (fun found => holds found.events)
    failed := by
  refine h.andThen moving_position fun start => h.andThen moving_importKind fun kind => ?_
  refine h.andThen (moving_separated .comma moving_moduleSpec) fun specs => ?_
  exact h.closing fun span => rfl

theorem importFromStatement : Ensures (holds []) importFromStatement
    (fun found => holds found.events) failed := by
  refine h.andThen moving_advance fun opening => h.andThen moving_moduleSpec fun spec => ?_
  refine h.andThen moving_importKind fun kind => h.andThen moving_currentKind fun next => ?_
  refine h.orThen (.pure []) (moving_separated .comma moving_symbolSpec) fun symbols => ?_
  exact h.closing fun span => rfl

theorem pragmaStatement : Ensures (holds []) pragmaStatement (fun found => holds found.events)
    failed := by
  refine h.andThen moving_advance fun opening => h.andThen moving_sign fun sign => ?_
  refine h.andThen (moving_expect .number) fun token => ?_
  refine h.andThen (Moving.ofExcept _) fun value => ?_
  refine h.andThen (moving_acceptMark .semicolon) fun _ => ?_
  exact h.andThen (moving_spanFrom _) fun span => .pure fun _ hstate => hstate

theorem defStatement : Ensures (holds []) defStatement (fun found => holds found.events)
    failed := by
  refine h.andThen moving_advance fun opening => ?_
  refine (h.separated .comma fun events => h.binding {}).bind fun pairs => ?_
  refine h.closing fun span => ?_
  simp [Statement.events, Statement.positions, resolvedAll, List.map_flatMap]

theorem undefStatement : Ensures (holds []) undefStatement (fun found => holds found.events)
    failed := by
  refine h.andThen moving_advance fun opening => ?_
  refine h.andThen (moving_separated .comma (moving_identifier _)) fun names => ?_
  exact h.closing fun span => rfl

/-! ## Equations -/

theorem qualifier (context : RunContext) :
    Ensures (holds events) (qualifier? context)
      (fun answer => holds (events ++
        answer.toList.flatMap fun found => resolvedAll found.positions)) failed := by
  have hnone {state : ParseState} (hstate : holds events state) : holds (events ++ []) state := by
    rwa [List.append_nil]
  refine h.andThen moving_position fun start => h.andThen moving_currentKind fun kind => ?_
  split
  · refine h.andThen moving_advance fun _ => (h.expression context).bind fun condition => ?_
    exact h.andThen (moving_spanFrom start) fun span => .pure fun _ hstate => hstate
  · refine h.andThen moving_advance fun _ => ?_
    exact h.andThen (moving_spanFrom start) fun span => .pure fun _ => hnone
  · refine h.andThen moving_advance fun _ => ?_
    refine (h.separated .comma fun events => h.binding context).bind fun bindings => ?_
    refine h.andThen (moving_spanFrom start) fun span => .pure fun state hstate => ?_
    simpa [Qualifier.positions, resolvedAll, List.map_flatMap] using hstate
  · exact .pure fun _ => hnone

theorem qualifiers (context : RunContext) :
    Ensures (holds events) (qualifiers context)
      (fun found => holds (events ++ resolvedAll (found.flatMap Qualifier.positions))) failed := by
  refine h.andThen Moving.get fun state => ?_
  refine (h.many (fun events => h.qualifier context) _).imp (fun _ => id)
    fun found state hstate => ?_
  rwa [resolvedAll, List.map_flatMap]

theorem leadingQualifiers :
    Ensures (holds events) leadingQualifiers
      (fun found => holds (events ++ resolvedAll (found.flatMap Qualifier.positions))) failed := by
  refine h.andThen moving_currentKind fun kind => .ite (fun _ => ?_) fun _ => ?_
  · refine (h.qualifiers _).bind fun found => ?_
    exact h.andThen (moving_expectMark .colon) fun _ => .pure fun _ hstate => hstate
  · exact .pure fun state hstate => (List.append_nil events).symm ▸ hstate

theorem clause (start : Nat) :
    Ensures (holds events) (clause start)
      (fun found => holds (events ++ resolvedAll found.positions)) failed := by
  refine h.leadingQualifiers.bind fun leading => ?_
  refine h.andThen (moving_expectMark .assignment) fun _ => ?_
  refine (h.expression .guarded).bind fun rhs => (h.qualifiers .guarded).bind fun trailing => ?_
  refine h.andThen (moving_expectMark .semicolon) fun _ => ?_
  refine h.andThen (moving_spanFrom start) fun span => .pure fun state hstate => ?_
  simpa [Clause.positions, resolvedAll] using hstate

theorem equation : Ensures (holds []) equation (fun found => holds found.events) failed := by
  refine h.andThen moving_position fun start => h.andThen (moving_run .pattern) fun left => ?_
  refine .ite (fun _ => ?_) fun _ => ?_
  · exact h.andThen (moving_unexpected _) fun diagnostic => h.thrown diagnostic
  · refine (h.resolve [] left).bind fun lhs => (h.clause start).bind fun first => ?_
    refine h.andThen (moving_spanFrom start) fun span => .pure fun state hstate => ?_
    simpa [Statement.events, Statement.positions, resolvedAll] using hstate

theorem continuation : Ensures (holds []) continuation
    (fun found => holds (resolvedAll found.positions)) failed := by
  refine h.andThen Moving.get fun state => .ite (fun _ => ?_) fun _ => ?_
  · exact h.andThen moving_position fun start => h.clause start
  · exact h.andThen moving_current fun token => h.thrown _

/-! ## Statements -/

theorem statement : Ensures (holds []) statement (fun parsed => holds parsed.events) failed := by
  have hstatement {step : Parse Statement}
      (hstep : Ensures (holds []) step (fun found => holds found.events) failed) :
      Ensures (holds []) (do return Parsed.statement (← step)) (fun parsed => holds parsed.events)
        failed :=
    hstep.bind fun found => .pure fun _ hstate => hstate
  refine h.andThen moving_currentKind fun kind => ?_
  split
  case h_1 | h_2 | h_3 | h_4 | h_5 | h_6 | h_7 => exact hstatement h.attributedStatement
  case h_8 =>
    refine h.andThen moving_position fun start => ?_
    exact hstatement (h.typeStatement start none false)
  case h_9 | h_10 => exact hstatement h.importStatement
  case h_11 => exact hstatement h.importFromStatement
  case h_12 => exact hstatement h.pragmaStatement
  case h_13 => exact hstatement h.defStatement
  case h_14 => exact hstatement h.undefStatement
  case h_15 | h_16 | h_17 | h_18 =>
    exact h.continuation.bind fun found => .pure fun _ hstate => hstate
  case h_19 => exact hstatement h.equation

end Records

/-- What lasts while the cursor moves, whatever is declared and reported. -/
theorem Records.of_moves {holds : ParseState → Prop}
    (hmoves : ∀ state next, Moves .silent state next → holds state → holds next)
    (hother : ∀ (state : ParseState) (table : OperatorTable) (reported : List Diagnostic),
      holds state → holds { state with table, reported }) :
    Records (fun _ => holds) holds where
  silent _ := hmoves
  fails _ _ hstate := hstate
  resolve _ run := by
    intro state hstate
    rw [resolve_eq]
    cases run.resolve state.table with
    | ok e => exact hstate
    | error diagnostic => exact hother state state.table (diagnostic :: state.reported) hstate
  declare _ header := by
    intro state hstate
    obtain ⟨table, htable⟩ := exists_table_declare header state
    have hfinal := hother state table state.reported hstate
    change holds { state with table } at hfinal
    rw [← htable, finalState] at hfinal
    cases hstep : Parse.declare header state with
    | ok value final => rwa [hstep] at hfinal
    | error diagnostic final => rwa [hstep] at hfinal

end Parse

end Equational

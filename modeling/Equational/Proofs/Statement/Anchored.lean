import Equational.Proofs.Operator.Declare
import Equational.Proofs.Parse.Anchored
import Equational.Proofs.Statement.Placement

/-!
# Diagnostics of statements

Reading a statement settles.  Nearly everything that stops it is about a token.  A header is about
itself where it binds a name that cannot be bound, or asks for a level that there is not: it begins
at the token at which its reading began, and ends with the token that was passed last.
-/

namespace Equational

variable {anchors : Nat → Prop} {region : Span}

/-! ## Declarations -/

theorem PrecedenceSpec.span_of_levelIn {table : OperatorTable} {span : Span}
    {precedence : PrecedenceSpec} {diagnostic : Diagnostic}
    (h : precedence.levelIn table span = .error diagnostic) : diagnostic.span = span := by
  have hchecked {n : Nat} (hn : levelIn.checked span n = .error diagnostic) :
      diagnostic.span = span := by
    unfold levelIn.checked at hn
    split at hn <;> cases hn
    rfl
  unfold levelIn at h
  split at h
  · exact hchecked h
  · split at h
    · exact hchecked h
    · cases h
      rfl

theorem OperatorTable.span_of_declared {table : OperatorTable} {header : Header}
    {diagnostic : Diagnostic} (h : table.declared header = .error diagnostic) :
    diagnostic.span = header.span := by
  unfold OperatorTable.declared at h
  split at h
  · rename_i precedence knownAs span
    cases hlevel : precedence.levelIn table span with
    | error found =>
      rw [hlevel] at h
      cases h
      exact PrecedenceSpec.span_of_levelIn hlevel
    | ok level =>
      rw [hlevel] at h
      cases knownAs <;> cases h
  · cases h

namespace Parse

variable {α β : Type}

/-! ## Expressions -/

theorem settles_resolve {collected : Run} (h : ∀ table, collected.IsPointed anchors table) :
    Settles anchors region (resolve collected) fun _ => True := by
  intro state hstate
  have hpointed := h state.table
  unfold Run.IsPointed at hpointed
  rw [resolve_eq]
  cases hresult : collected.resolve state.table with
  | ok e => exact ⟨trivial, hstate⟩
  | error diagnostic =>
    rw [hresult] at hpointed
    obtain ⟨⟨hsound, hlaid⟩, hcursor, hreported⟩ := hstate
    exact ⟨trivial, ⟨hsound, hlaid⟩, hcursor, List.forall_mem_cons.mpr ⟨hpointed, hreported⟩⟩

theorem settles_expression (context : RunContext) :
    Settles anchors region (expression context) fun _ => True :=
  (settles_run context).bind fun _ hpointed => settles_resolve hpointed

theorem settles_binding (context : RunContext) :
    Settles anchors region (binding context) fun _ => True :=
  (settles_expression _).bind fun _ _ => (settles_expectMark _).bind fun _ _ =>
    (settles_expression context).wrap

/-! ## Parts of headers -/

theorem settles_operatorName : Settles anchors region operatorName fun _ => True := by
  refine settles_current.bind fun token _ => .ite settles_advance.wrap ?_
  exact .ite settles_operator.wrap (settles_fail _)

theorem settles_parenthesizedOperator :
    Settles anchors region parenthesizedOperator fun _ => True :=
  settles_operatorName.bind fun _ _ => (settles_expectMark .closeParen).wrap

theorem settles_parameter : Settles anchors region parameter? fun _ => True := by
  refine settles_currentKind.bind fun kind _ => (settles_peek _).bind fun token _ => ?_
  refine .ite (.ite ?_ settles_advance.wrap) (.pure trivial)
  exact settles_advance.bind fun _ _ => settles_advance.wrap

theorem settles_parameters : Settles anchors region parameters fun _ => True :=
  Settles.get.bind fun state _ => settles_many settles_parameter state.limit []

theorem settles_precedence : Settles anchors region precedence fun _ => True := by
  refine (settles_acceptMark .openParen).bind fun _ _ => ?_
  refine .ite settles_parenthesizedOperator.wrap ?_
  refine (settles_expect .number).bind fun token htoken => ?_
  refine (settles_numberLiteral htoken).bind fun literal _ => ?_
  split
  · exact .ite (.pure trivial) (.throw htoken.span)
  · exact .throw htoken.span

theorem settles_alias : Settles anchors region alias? fun _ => True := by
  refine (settles_accept _).bind fun _ _ => .ite ?_ (.pure trivial)
  refine settles_current.bind fun token _ => .ite settles_advance.wrap ?_
  exact .ite settles_operator.wrap (settles_fail _)

/-! ## Headers -/

section Headers

variable {start : Nat} {moved : Bool}

/-- A header that began at the position is being read. -/
structure Heads (anchors : Nat → Prop) (region : Span) (start : Nat) (moved : Bool)
    (state : ParseState) : Prop where
  settled : state.IsSettled anchors region
  placed : Placed ⟨start, region.stop⟩ moved [] state

/-- What only moves, or only resolves and moves, needs no more than that the state is settled. -/
theorem Settles.heads {step : Parse α} {fact : α → Prop} (h : Settles anchors region step fact) :
    Blames anchors (Heads anchors region start moved) step
      fun value state => fact value ∧ state.IsSettled anchors region :=
  Blames.imp h (fun _ hstate => hstate.settled) fun _ _ hends => hends

theorem heads_yields {step : Parse α} {moved' : Bool} {fact : α → Prop}
    (h : Settles anchors region step fact)
    (h' : Yields (Placed ⟨start, region.stop⟩ moved []) step
      fun _ => Placed ⟨start, region.stop⟩ moved' []) :
    Blames anchors (Heads anchors region start moved) step
      fun _ => Heads anchors region start moved' :=
  (h.heads.and_ensures h' fun _ hstate => hstate.placed).imp (fun _ hstate => hstate)
    fun _ _ hends => ⟨hends.1.2, hends.2⟩

theorem settles_operatorHeader :
    Settles anchors region (operatorHeader start) fun _ => True := by
  refine settles_parenthesizedOperator.bind fun name _ => ?_
  refine settles_parameters.bind fun parameters _ => (settles_acceptMark .atSign).bind fun _ _ => ?_
  refine .choice (settles_precedence.map some) (.pure trivial) fun precedence _ => ?_
  exact settles_alias.bind fun knownAs _ => (settles_spanFrom start).wrap

theorem blames_bindingHeader (hstart : anchors start) (bound : Identifier) :
    Blames anchors (Heads anchors region start true) (bindingHeader start bound)
      fun _ state => True ∧ state.IsSettled anchors region := by
  unfold bindingHeader
  cases bound.moduleName with
  | none =>
    refine Settles.heads (settles_advance.bind fun _ _ => ?_)
    exact (settles_expression {}).bind fun value _ => (settles_spanFrom start).wrap
  | some home =>
    rintro state ⟨hstate, hplaced⟩
    refine ⟨⟨hstart, hstate.cursor.previousEnd, ?_⟩, hstate.toIsAnchored⟩
    have hpassed := hplaced.passed rfl
    rw [← hplaced.previousEnd] at hpassed
    exact Nat.le_of_lt hpassed

theorem blames_nameHeader (hstart : anchors start) :
    Blames anchors (Heads anchors region start false) (nameHeader start)
      fun _ state => True ∧ state.IsSettled anchors region := by
  refine (heads_yields (settles_identifier _) (yields_identifier _)).bind fun name => ?_
  refine (heads_yields settles_currentKind moving_currentKind.yields).bind fun kind => ?_
  refine Blames.ite (fun _ => blames_bindingHeader hstart name) fun _ => Settles.heads ?_
  refine settles_parameters.bind fun parameters _ => settles_alias.bind fun knownAs _ => ?_
  exact (settles_spanFrom start).wrap

theorem settles_header : Settles anchors region header (·.span.IsAnchored anchors) := by
  intro state hstate
  let start := state.cursor.current.span.start
  have hstart : anchors start := hstate.settled.current.1.span.start
  have hplaced : Placed region false [] state :=
    ⟨hstate.toIsReady, .nil (Nat.le_max_left _ _), nofun⟩
  have hforms : Blames anchors (Heads anchors region start false)
      (do if ← acceptMark .openParen then operatorHeader start else nameHeader start)
      fun found state => (True ∧ state.IsSettled anchors region) ∧
        Ends region.stop start (.header found) state := by
    refine (heads_yields (settles_acceptMark _) (moving_acceptMark _).yields).bind fun opened => ?_
    refine .ite (fun _ => ?_) fun _ => ?_
    · exact settles_operatorHeader.heads.and_ensures yields_operatorHeader fun _ h => h.placed
    · exact (blames_nameHeader hstart).and_ensures yields_nameHeader fun _ h => h.placed
  refine Blames.imp hforms (fun _ h => h) (fun found final h => ?_) state ⟨hstate, hplaced.begins.2⟩
  obtain ⟨⟨-, hfinal⟩, -, hspan, hstands⟩ := h
  have hordered := Node.stands_spreads.le hstands
  have hfound : found.span.IsAnchored anchors := by
    rw [show found.span = ⟨start, final.cursor.previousEnd⟩ from hspan]
    exact ⟨hstart, hfinal.cursor.previousEnd, hordered⟩
  exact ⟨hfound, hfinal⟩

end Headers

theorem settles_declare {header : Header} (hspan : header.span.IsAnchored anchors) :
    Settles anchors region (declare header) fun _ => True := by
  intro state hstate
  rw [declare_eq]
  cases hdeclared : state.table.declared header with
  | ok declared =>
    obtain ⟨⟨hsound, hlaid⟩, hcursor, hreported⟩ := hstate
    exact ⟨trivial, ⟨hsound, hlaid⟩, hcursor, hreported⟩
  | error diagnostic =>
    have hheader : diagnostic.span = header.span := OperatorTable.span_of_declared hdeclared
    exact ⟨hheader ▸ hspan, hstate.toIsAnchored⟩

theorem settles_headers : Settles anchors region headers fun _ => True :=
  settles_separated .comma
    (settles_header.bind fun _ hspan => (settles_declare hspan).bind fun _ _ => .pure trivial)

/-! ## Scopes and modifiers -/

theorem settles_scope : Settles anchors region scope? fun _ => True := by
  refine (settles_accept _).bind fun _ _ => .ite (.pure trivial) ?_
  exact (settles_accept _).bind fun _ _ => .ite (.pure trivial) (.pure trivial)

theorem settles_modifier : Settles anchors region modifier? fun _ => True := by
  refine settles_currentKind.bind fun kind _ => ?_
  split
  · exact settles_advance.wrap
  · exact .pure trivial

theorem settles_attributes : Settles anchors region attributes fun _ => True := by
  refine settles_scope.bind fun scope _ => Settles.get.bind fun state _ => ?_
  exact (settles_many settles_modifier state.limit []).wrap

/-! ## Types -/

theorem settles_closing {start : Nat} {statement : Span → Statement} :
    Settles anchors region (do let _ ← expectMark .semicolon; return statement (← spanFrom start))
      fun _ => True :=
  (settles_expectMark _).bind fun _ _ => (settles_spanFrom start).wrap

theorem settles_typeSection : Settles anchors region typeSection fun _ => True :=
  settles_position.bind fun start _ => settles_attributes.bind fun _ _ =>
    settles_headers.bind fun _ _ => (settles_spanFrom start).wrap

theorem settles_typeDefinition (start : Nat) (scope : Option Scope) (external : Bool)
    (name : Name) :
    Settles anchors region (typeDefinition start scope external name) fun _ => True := by
  refine (settles_acceptMark .colon).bind fun _ _ => ?_
  refine .choice ((settles_identifier _).map some) (.pure trivial) fun supertype _ => ?_
  refine (settles_acceptMark .assignment).bind fun _ _ => ?_
  refine .choice (settles_separated .pipe settles_typeSection) (.pure trivial) fun sections _ => ?_
  exact settles_closing

theorem settles_typeStatement (start : Nat) (scope : Option Scope) (external : Bool) :
    Settles anchors region (typeStatement start scope external) fun _ => True := by
  refine (settles_expect _).bind fun _ _ => (settles_identifier _).bind fun name _ => ?_
  refine .ite ?_ ?_
  · refine (settles_accept _).bind fun _ _ => ?_
    refine .choice ((settles_plainName _).map some) (.pure trivial) fun knownAs _ => ?_
    exact settles_closing
  · refine (settles_acceptMark .equals).bind fun _ _ => .ite ?_ ?_
    · exact (settles_identifier _).bind fun target _ => settles_closing
    · exact settles_typeDefinition start scope external name.name

theorem settles_attributedStatement :
    Settles anchors region attributedStatement fun _ => True := by
  refine settles_position.bind fun start _ => settles_attributes.bind fun attributes _ => ?_
  refine settles_currentKind.bind fun kind _ => .ite (.ite ?_ (.ite ?_ ?_)) ?_
  · exact settles_typeStatement start attributes.1 false
  · exact settles_typeStatement start attributes.1 true
  · exact settles_current.bind fun token htoken => .throw htoken.span
  · exact settles_headers.bind fun _ _ => settles_closing

/-! ## Imports, pragmas -/

theorem settles_moduleSpec : Settles anchors region moduleSpec fun _ => True := by
  refine settles_position.bind fun start _ => settles_current.bind fun token _ => ?_
  extract_lets next
  have hnext (name : ModuleName) : Settles anchors region (next name) fun _ => True := by
    refine settles_advance.bind fun _ _ => (settles_accept _).bind fun _ _ => ?_
    refine .choice ((settles_plainName _).map some) (.pure trivial) fun knownAs _ => ?_
    exact (settles_spanFrom start).wrap
  have hidentifier : Settles anchors region (pure (ModuleName.identifier token.value))
      fun _ => True := .pure trivial
  exact .ite (hnext _) (.choice hidentifier (settles_fail _) fun name _ => hnext name)

theorem settles_importKind : Settles anchors region importKind fun _ => True := by
  refine (settles_accept _).bind fun _ _ => .ite (.pure trivial) ?_
  exact (settles_accept _).bind fun _ _ => .ite (.pure trivial) (settles_fail _)

theorem settles_importStatement : Settles anchors region importStatement fun _ => True := by
  refine settles_position.bind fun start _ => settles_importKind.bind fun kind _ => ?_
  exact (settles_separated .comma settles_moduleSpec).bind fun specs _ => settles_closing

theorem settles_symbolName : Settles anchors region symbolName fun _ => True := by
  refine settles_current.bind fun token _ => .ite settles_advance.wrap ?_
  refine (settles_acceptMark .openParen).bind fun _ _ => ?_
  exact .ite settles_parenthesizedOperator.wrap (.ite settles_operator.wrap (settles_fail _))

theorem settles_symbolSpec : Settles anchors region symbolSpec fun _ => True := by
  refine settles_position.bind fun start _ => settles_symbolName.bind fun symbol _ => ?_
  refine (settles_accept _).bind fun _ _ => ?_
  refine .choice (settles_symbolName.map some) (.pure trivial) fun knownAs _ => ?_
  exact (settles_spanFrom start).wrap

theorem settles_importFromStatement :
    Settles anchors region importFromStatement fun _ => True := by
  refine settles_advance.bind fun opening _ => settles_moduleSpec.bind fun spec _ => ?_
  refine settles_importKind.bind fun kind _ => settles_currentKind.bind fun next _ => ?_
  refine .choice (.pure trivial) (settles_separated .comma settles_symbolSpec) fun symbols _ => ?_
  exact settles_closing

theorem settles_sign : Settles anchors region sign? fun _ => True :=
  settles_current.bind fun _ _ => .ite settles_advance.wrap (.ite settles_advance.wrap
    (.pure trivial))

theorem settles_pragmaStatement : Settles anchors region pragmaStatement fun _ => True := by
  refine settles_advance.bind fun opening _ => settles_sign.bind fun sign _ => ?_
  refine (settles_expect .number).bind fun token htoken => ?_
  refine (settles_numberLiteral htoken).bind fun value _ => ?_
  exact (settles_acceptMark .semicolon).bind fun _ _ => (settles_spanFrom _).wrap

theorem settles_defStatement : Settles anchors region defStatement fun _ => True := by
  refine settles_advance.bind fun opening _ => ?_
  exact (settles_separated .comma (settles_binding {})).bind fun pairs _ => settles_closing

theorem settles_undefStatement : Settles anchors region undefStatement fun _ => True := by
  refine settles_advance.bind fun opening _ => ?_
  exact (settles_separated .comma (settles_identifier _)).bind fun names _ => settles_closing

/-! ## Equations -/

theorem settles_qualifier (context : RunContext) :
    Settles anchors region (qualifier? context) fun _ => True := by
  refine settles_position.bind fun start _ => settles_currentKind.bind fun kind _ => ?_
  split
  · refine settles_advance.bind fun _ _ => (settles_expression context).bind fun condition _ => ?_
    exact (settles_spanFrom start).wrap
  · exact settles_advance.bind fun _ _ => (settles_spanFrom start).wrap
  · refine settles_advance.bind fun _ _ => ?_
    refine (settles_separated .comma (settles_binding context)).bind fun bindings _ => ?_
    exact (settles_spanFrom start).wrap
  · exact .pure trivial

theorem settles_qualifiers (context : RunContext) :
    Settles anchors region (qualifiers context) fun _ => True :=
  Settles.get.bind fun state _ => settles_many (settles_qualifier context) state.limit []

theorem settles_leadingQualifiers :
    Settles anchors region leadingQualifiers fun _ => True := by
  refine settles_currentKind.bind fun kind _ => .ite ?_ (.pure trivial)
  exact (settles_qualifiers _).bind fun found _ => (settles_expectMark .colon).wrap

theorem settles_clause (start : Nat) : Settles anchors region (clause start) fun _ => True := by
  refine settles_leadingQualifiers.bind fun leading _ => ?_
  refine (settles_expectMark .assignment).bind fun _ _ => ?_
  refine (settles_expression .guarded).bind fun rhs _ => ?_
  refine (settles_qualifiers .guarded).bind fun trailing _ => ?_
  exact (settles_expectMark .semicolon).bind fun _ _ => (settles_spanFrom start).wrap

theorem settles_equation : Settles anchors region equation fun _ => True := by
  refine settles_position.bind fun start _ => (settles_run .pattern).bind fun left hpointed => ?_
  refine .ite (settles_fail _) ((settles_resolve hpointed).bind fun lhs _ => ?_)
  exact (settles_clause start).bind fun first _ => (settles_spanFrom start).wrap

theorem settles_continuation : Settles anchors region continuation fun _ => True := by
  refine Settles.get.bind fun state _ => .ite ?_ ?_
  · exact settles_position.bind fun start _ => settles_clause start
  · exact settles_current.bind fun token htoken => .throw htoken.span

/-! ## Statements -/

theorem settles_statement : Settles anchors region statement fun _ => True := by
  refine settles_currentKind.bind fun kind _ => ?_
  split
  case h_1 | h_2 | h_3 | h_4 | h_5 | h_6 | h_7 => exact settles_attributedStatement.wrap
  case h_8 =>
    exact settles_position.bind fun start _ => (settles_typeStatement start none false).wrap
  case h_9 | h_10 => exact settles_importStatement.wrap
  case h_11 => exact settles_importFromStatement.wrap
  case h_12 => exact settles_pragmaStatement.wrap
  case h_13 => exact settles_defStatement.wrap
  case h_14 => exact settles_undefStatement.wrap
  case h_15 | h_16 | h_17 | h_18 => exact settles_continuation.wrap
  case h_19 => exact settles_equation.wrap

end Parse

end Equational

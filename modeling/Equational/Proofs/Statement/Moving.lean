import Equational.Proofs.Expr.Faultless
import Equational.Proofs.Run.Moving
import Equational.Statement.Grammar

/-!
# Parts of statements that declare nothing

Of the steps that read a statement only the one that declares a header changes the table.  The parts
of headers, scopes and modifiers, and the parts of imports are moves, and runs are resolved under
the table as it stands.
-/

namespace Equational

namespace Parse

variable {noise : Noise}

/-! ## Expressions -/

theorem moving_resolve (collected : Run) : Moving .reporting (resolve collected) := by
  refine Moving.get.bind fun state => ?_
  have hresolves := collected.resolves state.table
  split
  · exact .pure _
  · rename_i diagnostic hfailed
    rw [hfailed] at hresolves
    exact (moving_report hresolves).bind fun _ => .pure _

theorem resolve_eq (run : Run) (state : ParseState) : resolve run state =
    match run.resolve state.table with
    | .ok e => .ok e state
    | .error diagnostic =>
      .ok (.error run.span) { state with reported := diagnostic :: state.reported } := by
  change (match run.resolve state.table with
    | .ok e => (Pure.pure e : Parse Expr)
    | .error diagnostic => report diagnostic >>= fun _ => Pure.pure (Expr.error run.span)) state = _
  cases run.resolve state.table <;> rfl

/-! ## Headers -/

theorem moving_operatorName : Moving noise operatorName := by
  refine moving_current.bind fun token => .ite ?_ (.ite ?_ (moving_fail _))
  · exact moving_advance.bind fun _ => .pure _
  · exact moving_operator.bind fun op => .pure _

theorem moving_parenthesizedOperator : Moving noise parenthesizedOperator := by
  refine moving_operatorName.bind fun name => ?_
  exact (moving_expectMark .closeParen).bind fun _ => .pure _

theorem moving_parameter : Moving noise parameter? := by
  refine moving_currentKind.bind fun kind => ?_
  refine (moving_peek _).bind fun token => .ite ?_ (.pure none)
  refine .ite ?_ ?_
  · refine moving_advance.bind fun _ => ?_
    exact moving_advance.bind fun _ => .pure _
  · exact moving_advance.bind fun _ => .pure _

theorem moving_parameters : Moving noise parameters :=
  Moving.get.bind fun state => moving_many moving_parameter state.limit []

theorem moving_precedence : Moving noise precedence := by
  refine (moving_acceptMark .openParen).bind fun copied => .ite ?_ ?_
  · exact moving_parenthesizedOperator.bind fun name => .pure _
  · refine (moving_expect .number).bind fun token => ?_
    refine (Moving.ofExcept _).bind fun literal => ?_
    split
    · exact .ite (.pure _) (.throw _)
    · exact .throw _

theorem moving_alias : Moving noise alias? := by
  refine (moving_accept _).bind fun named => .ite ?_ (.pure none)
  refine moving_current.bind fun token => .ite ?_ (.ite ?_ (moving_fail _))
  · exact moving_advance.bind fun _ => .pure _
  · exact moving_operator.bind fun op => .pure _

theorem exists_table_declare (header : Header) (state : ParseState) :
    ∃ table, (declare header).finalState state = { state with table } := by
  rw [finalState, declare]
  cases OperatorTable.declare header state.table with
  | ok _ table => exact ⟨table, rfl⟩
  | error _ table => exact ⟨table, rfl⟩

/-! ## Scopes and modifiers -/

theorem moving_scope : Moving noise scope? := by
  refine (moving_accept _).bind fun found => .ite (.pure _) ?_
  exact (moving_accept _).bind fun found => .ite (.pure _) (.pure none)

theorem moving_modifier : Moving noise modifier? := by
  refine moving_currentKind.bind fun kind => ?_
  split
  · exact moving_advance.bind fun _ => .pure _
  · exact .pure none

theorem moving_attributes : Moving noise attributes := by
  refine moving_scope.bind fun scope => Moving.get.bind fun state => ?_
  exact (moving_many moving_modifier state.limit []).bind fun modifiers => .pure _

/-! ## Imports, pragmas -/

theorem moving_moduleSpec : Moving noise moduleSpec := by
  refine moving_position.bind fun start => moving_current.bind fun token => ?_
  extract_lets next
  have hnext (name : ModuleName) : Moving noise (next name) := by
    refine moving_advance.bind fun _ => (moving_accept _).bind fun named => ?_
    refine .choice ((moving_plainName _).map some) (.pure none) fun knownAs => ?_
    exact (moving_spanFrom start).bind fun span => .pure _
  exact .ite (hnext _) (.choice (.pure _) (moving_fail _) hnext)

theorem moving_importKind : Moving noise importKind := by
  refine (moving_accept _).bind fun importing => .ite (.pure _) ?_
  exact (moving_accept _).bind fun including => .ite (.pure _) (moving_fail _)

theorem moving_symbolName : Moving noise symbolName := by
  refine moving_current.bind fun token => .ite ?_ ?_
  · exact moving_advance.bind fun _ => .pure _
  · refine (moving_acceptMark .openParen).bind fun opened => .ite ?_ (.ite ?_ (moving_fail _))
    · exact moving_parenthesizedOperator.bind fun name => .pure _
    · exact moving_operator.bind fun op => .pure _

theorem moving_symbolSpec : Moving noise symbolSpec := by
  refine moving_position.bind fun start => moving_symbolName.bind fun symbol => ?_
  refine (moving_accept _).bind fun renamed => ?_
  refine .choice (moving_symbolName.map some) (.pure none) fun knownAs => ?_
  exact (moving_spanFrom start).bind fun span => .pure _

theorem moving_sign : Moving noise sign? := by
  refine moving_current.bind fun token => .ite ?_ (.ite ?_ (.pure none))
  · exact moving_advance.bind fun _ => .pure _
  · exact moving_advance.bind fun _ => .pure _

end Parse

end Equational

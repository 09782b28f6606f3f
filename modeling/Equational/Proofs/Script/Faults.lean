import Equational.Proofs.Script.Lexical
import Equational.Proofs.Statement.Faults

/-!
# Error nodes of a script

Every error node of a script has a diagnostic of its own, however far the script is read.
Diagnostics of statements that were thrown away stand for no node.
-/

namespace Equational

def positionsOf (body : List Statement) : List Expr := body.flatMap Statement.positions

def resolutionCount (diagnostics : List Diagnostic) : Nat :=
  diagnostics.countP (·.cause.phase = .resolution)

theorem resolutionCount_append (first second : List Diagnostic) :
    resolutionCount (first ++ second) = resolutionCount first + resolutionCount second :=
  List.countP_append

theorem resolutionCount_eq_length {diagnostics : List Diagnostic}
    (h : ∀ diagnostic ∈ diagnostics, diagnostic.cause.phase = .resolution) :
    resolutionCount diagnostics = diagnostics.length := by
  rw [resolutionCount, List.countP_eq_length]
  simpa using h

/-! ## Steps -/

/-- Each expression is an error node by itself or faultless, and there are diagnostics enough for
those that are error nodes. -/
structure Covers (reported : List Diagnostic) (positions : List Expr) : Prop where
  faultless : ∀ e ∈ positions, e.isError ∨ e.containsError = false
  count_le : positions.countP Expr.isError ≤ resolutionCount reported

namespace Covers

variable {reported raised : List Diagnostic} {positions more : List Expr}

theorem raise (h : Covers reported positions) (raised : List Diagnostic) :
    Covers (raised ++ reported) positions where
  faultless := h.faultless
  count_le := by
    have hcount := h.count_le
    rw [resolutionCount_append]
    omega

theorem add (h : Covers reported positions) (hmore : Accounts more raised) :
    Covers (raised ++ reported) (more ++ positions) where
  faultless := List.forall_mem_append.mpr ⟨hmore.faultless, h.faultless⟩
  count_le := by
    have hcount := h.count_le
    rw [List.countP_append, hmore.count_eq, resolutionCount_append,
      resolutionCount_eq_length hmore.phase]
    omega

theorem perm (h : Covers reported positions) {others : List Expr} (hperm : others.Perm positions) :
    Covers reported others where
  faultless e he := h.faultless e (hperm.mem_iff.mp he)
  count_le := hperm.countP_eq Expr.isError ▸ h.count_le

end Covers

namespace Progress

def IsCovered (progress : Progress) : Prop :=
  Covers progress.state.reported (positionsOf progress.body)

private theorem positionsOf_addClause (clause : Clause) (body : List Statement) :
    (positionsOf (addClause clause body)).Perm (clause.positions ++ positionsOf body) ∨
      addClause clause body = body := by
  cases body with
  | nil => exact .inr rfl
  | cons last rest =>
    cases last with
    | equation lhs clauses span =>
      have hequation : (lhs :: clauses.flatMap Clause.positions ++ clause.positions).Perm
          (clause.positions ++ lhs :: clauses.flatMap Clause.positions) := List.perm_append_comm
      refine .inl ?_
      simpa [positionsOf, addClause, Statement.addClause, Statement.positions] using
        hequation.append_right (rest.flatMap Statement.positions)
    | _ => exact .inr rfl

theorem IsCovered.step {progress : Progress} (h : progress.IsCovered) :
    progress.step.IsCovered := by
  have haccounts := Parse.statement_accounts progress.state
  unfold IsCovered Progress.step
  cases hstep : Parse.statement progress.state with
  | error diagnostic final =>
    rw [hstep] at haccounts
    obtain ⟨raised, hreported, -⟩ := haccounts
    change Covers (diagnostic :: final.reported) (positionsOf progress.body)
    rw [hreported]
    exact h.raise (diagnostic :: raised)
  | ok parsed final =>
    rw [hstep] at haccounts
    obtain ⟨raised, hreported, haccounts⟩ := haccounts
    cases parsed with
    | statement statement =>
      change Covers final.reported (statement.positions ++ positionsOf progress.body)
      rw [hreported]
      exact h.add haccounts
    | clause clause =>
      change Covers final.reported (positionsOf (addClause clause progress.body))
      rw [hreported]
      rcases positionsOf_addClause clause progress.body with hperm | hsame
      · exact (h.add haccounts).perm hperm
      · rw [hsame]
        exact h.raise raised

end Progress

/-! ## Results -/

private theorem resolutionCount_le_final (mode : ParseMode) (state : ParseState) :
    resolutionCount state.reported ≤ resolutionCount (finalDiagnostics mode state) := by
  have hall (more : List Diagnostic) : resolutionCount state.reported ≤
      resolutionCount (Diagnostic.inSourceOrder (state.diagnostics ++ more)) := by
    unfold resolutionCount Diagnostic.inSourceOrder
    rw [(List.mergeSort_perm _ _).countP_eq, List.countP_append]
    unfold ParseState.diagnostics
    rw [List.countP_reverse]
    omega
  cases mode with
  | batch => exact hall _
  | failFast =>
    have hreported := hall []
    rwa [List.append_nil] at hreported

theorem error_nodes_accounted {source : String} {options : ParseOptions} {unit : ParsedUnit}
    (h : ParsedUnit.ofSource source options = .ok unit) :
    (∀ statement ∈ unit.script.body, ∀ e ∈ statement.positions,
        e.isError ∨ e.containsError = false) ∧
      (positionsOf unit.script.body).countP Expr.isError ≤ resolutionCount unit.diagnostics ∧
      (unit.diagnostics = [] → ∀ statement ∈ unit.script.body, ∀ span,
        ¬(Node.statement statement).Reaches (.expression (.error span))) := by
  obtain ⟨lexed, rounds, -, -, hshows⟩ := exists_shown_of_unit h
  have hstart : (Progress.start lexed).IsCovered := ⟨List.forall_mem_nil _, Nat.zero_le _⟩
  have hcovered :=
    Progress.run_induction Progress.IsCovered (fun _ => .step) hstart options.mode rounds
  have hperm :=
    (List.reverse_perm ((Progress.start lexed).run options.mode rounds).body).flatMap_right
    Statement.positions
  have hpositions : Covers ((Progress.start lexed).run options.mode rounds).state.reported
      (positionsOf unit.script.body) := by
    rw [hshows.body]
    exact hcovered.perm hperm
  have hcount : (positionsOf unit.script.body).countP Expr.isError ≤
      resolutionCount unit.diagnostics := by
    rw [hshows.diagnostics]
    exact Nat.le_trans hpositions.count_le (resolutionCount_le_final _ _)
  have hfaultless (statement : Statement) (hstatement : statement ∈ unit.script.body) (e : Expr)
      (he : e ∈ statement.positions) : e.isError ∨ e.containsError = false :=
    hpositions.faultless e (List.mem_flatMap_of_mem hstatement he)
  refine ⟨hfaultless, hcount, ?_⟩
  intro hnone statement hstatement span hreaches
  obtain ⟨e, he, hcontains⟩ := (Node.reaches_error_iff _).mp ⟨span, hreaches⟩
  rw [hnone] at hcount
  have herrors := List.countP_eq_zero.mp (Nat.le_zero.mp hcount)
  rcases hfaultless statement hstatement e he with herror | hnot
  · exact herrors e (List.mem_flatMap_of_mem hstatement he) herror
  · rw [hcontains] at hnot
    cases hnot

def faultySource : String := "f X + = X $$ 1;\ny = 1 + then;"

theorem faultySource_accounted :
    ∃ unit, ParsedUnit.ofSource faultySource {} = .ok unit ∧ unit.script.body.length = 1 ∧
      (positionsOf unit.script.body).countP Expr.isError = 2 ∧
      (∀ statement ∈ unit.script.body, ∀ e ∈ statement.positions,
        e.isError ∨ e.containsError = false) ∧
      (positionsOf unit.script.body).countP Expr.isError ≤ resolutionCount unit.diagnostics ∧
      (unit.diagnostics = [] → ∀ statement ∈ unit.script.body, ∀ span,
        ¬(Node.statement statement).Reaches (.expression (.error span))) := by
  obtain ⟨unit, hunit, hcounts⟩ := exists_of_map_eq_ok
    (f := fun unit : ParsedUnit =>
      (unit.script.body.length, (positionsOf unit.script.body).countP Expr.isError))
    (by decide +kernel : (ParsedUnit.ofSource faultySource {}).map _ = .ok (1, 2))
  obtain ⟨hbody, herrors⟩ := Prod.mk.inj hcounts
  exact ⟨unit, hunit, hbody, herrors, error_nodes_accounted hunit⟩

end Equational

import Mathlib.Data.List.Perm.Subperm
import Equational.Proofs.Result
import Equational.Proofs.Script.Faults
import Equational.Proofs.Script.Standing

/-!
# Stopping at the first diagnostic

Reading that stops at the first diagnostic is the beginning of the reading that goes on: both take
the same statements one by one until one of them has something to report.  The mode is looked at
between statements only, so a statement may report more than one diagnostic before reading stops.
-/

namespace Equational

open Cursor

namespace Progress

/-! ## The beginning of a reading -/

/-- Up to the first diagnostic, a reading is one that goes on and is stopped after so many
statements. -/
structure StopsAfter (progress : Progress) (rounds count : Nat) : Prop where
  result : progress.run .failFast rounds = progress.run .batch count
  earlier : ∀ fewer < count, (progress.run .batch fewer).state.reported = []
  proceeds : ∀ fewer < count, (progress.run .batch fewer).state.hasTokens = true
  ends : count = rounds ∨ (progress.run .batch count).isOver .failFast

theorem exists_stopsAfter (progress : Progress) (rounds : Nat) :
    ∃ count, progress.StopsAfter rounds count := by
  induction rounds generalizing progress with
  | zero => exact ⟨0, rfl, nofun, nofun, .inl rfl⟩
  | succ rounds ih =>
    by_cases hover : progress.isOver .failFast
    · exact ⟨0, run_of_isOver hover _, nofun, nofun, .inr hover⟩
    -- Not over: there are tokens, and nothing has been reported.
    · obtain ⟨count, h⟩ := ih progress.step
      have hover' := hover
      simp only [isOver, Bool.or_eq_true, Bool.and_eq_true, Bool.not_eq_true', decide_true,
        true_and, not_or, Bool.not_eq_false, List.isEmpty_iff] at hover'
      obtain ⟨htokens, hreported⟩ := hover'
      have hrun (more : Nat) : progress.run .batch (more + 1) = progress.step.run .batch more :=
        run_of_hasTokens htokens more
      refine ⟨count + 1, ?_, fun fewer hfewer => ?_, fun fewer hfewer => ?_, ?_⟩
      · rw [hrun, ← h.result, run, if_neg hover]
      · cases fewer with
        | zero => exact hreported
        | succ fewer =>
          rw [hrun]
          exact h.earlier fewer (by omega)
      · cases fewer with
        | zero => exact htokens
        | succ fewer =>
          rw [hrun]
          exact h.proceeds fewer (by omega)
      · rw [hrun]
        exact h.ends.imp_left (congrArg (· + 1))

/-! ## Reading on -/

private theorem reported_step (progress : Progress) :
    progress.state.reported <:+ progress.step.state.reported := by
  have haccounts := Parse.statement_accounts progress.state
  cases hresult : Parse.statement progress.state with
  | error diagnostic final =>
    rw [hresult] at haccounts
    obtain ⟨raised, hreported, -⟩ := haccounts
    rw [progress.step_of_error hresult]
    exact ⟨diagnostic :: raised, congrArg (diagnostic :: ·) hreported.symm⟩
  | ok parsed final =>
    rw [hresult] at haccounts
    obtain ⟨raised, hreported, -⟩ := haccounts
    cases parsed with
    | statement statement =>
      rw [progress.step_of_statement hresult]
      exact ⟨raised, hreported.symm⟩
    | clause clause =>
      rw [progress.step_of_clause hresult]
      exact ⟨raised, hreported.symm⟩

theorem reported_suffix (progress : Progress) (mode : ParseMode) (rounds : Nat) :
    progress.state.reported <:+ (progress.run mode rounds).state.reported :=
  run_induction (progress.state.reported <:+ ·.state.reported)
    (fun later h => h.trans later.reported_step) (List.suffix_refl _) mode rounds

end Progress

/-! ## Statements that are read further -/

/-- The same statement, or an equation with further clauses, up to whose end it reaches. -/
inductive Statement.Lengthens : Statement → Statement → Prop
  | same (statement : Statement) : Lengthens statement statement
  | clauses (lhs : Expr) (found more : List Clause) (last : Clause) (span : Span) :
    Lengthens (.equation lhs found span)
      (.equation lhs (found ++ more ++ [last]) ⟨span.start, last.span.stop⟩)

theorem Statement.Lengthens.addClause {first second : Statement} (h : first.Lengthens second)
    (clause : Clause) : first.Lengthens (second.addClause clause) := by
  cases h with
  | same =>
    cases first with
    | equation lhs found span =>
      have hlengthens := Lengthens.clauses lhs found [] clause span
      rwa [List.append_nil] at hlengthens
    | _ => exact .same _
  | clauses lhs found more last span =>
    have hlengthens := Lengthens.clauses lhs found (more ++ [last]) clause span
    rwa [← List.append_assoc] at hlengthens

/-- Some statements are the first ones of others, but the last of them may lack clauses. -/
def Begins (few all : List Statement) : Prop :=
  few = [] ∨ ∃ front last last' behind, few = front ++ [last] ∧ all = front ++ last' :: behind ∧
    last.Lengthens last'

namespace Begins

variable {few all : List Statement} {statement : Statement}

theorem refl (statements : List Statement) : Begins statements statements := by
  rcases List.eq_nil_or_concat statements with rfl | ⟨front, last, rfl⟩
  · exact .inl rfl
  · rw [List.concat_eq_append]
    exact .inr ⟨front, last, last, [], rfl, rfl, .same last⟩

theorem concat (h : Begins few all) (statement : Statement) : Begins few (all ++ [statement]) := by
  refine h.imp_right ?_
  rintro ⟨front, last, last', behind, hfew, rfl, hlast⟩
  exact ⟨front, last, last', behind ++ [statement], hfew, by simp, hlast⟩

theorem addClause (h : Begins few (all ++ [statement])) (clause : Clause) :
    Begins few (all ++ [statement.addClause clause]) := by
  refine h.imp_right ?_
  rintro ⟨front, last, last', behind, hfew, hall, hlast⟩
  rcases List.eq_nil_or_concat behind with rfl | ⟨behind, other, rfl⟩
  · obtain ⟨rfl, hstatement⟩ := List.append_inj' hall rfl
    obtain rfl := List.singleton_inj.mp hstatement
    exact ⟨all, last, _, [], hfew, rfl, hlast.addClause clause⟩
  · rw [List.concat_eq_append, ← List.cons_append, ← List.append_assoc] at hall
    obtain ⟨rfl, -⟩ := List.append_inj' hall rfl
    exact ⟨front, last, last', behind ++ [statement.addClause clause], hfew, by simp, hlast⟩

end Begins

namespace Progress

private theorem begins_step {few : List Statement} {progress : Progress}
    (h : Begins few progress.body.reverse) : Begins few progress.step.body.reverse := by
  cases hresult : Parse.statement progress.state with
  | error diagnostic final => rwa [progress.step_of_error hresult]
  | ok parsed final =>
    cases parsed with
    | statement statement =>
      rw [progress.step_of_statement hresult, List.reverse_cons]
      exact h.concat statement
    | clause clause =>
      rw [progress.step_of_clause hresult]
      cases hbody : progress.body with
      | nil => rwa [hbody] at h
      | cons last rest =>
        rw [hbody, List.reverse_cons] at h
        rw [addClause, List.reverse_cons]
        exact h.addClause clause

theorem begins_run (progress : Progress) (mode : ParseMode) (rounds : Nat) :
    Begins progress.body.reverse (progress.run mode rounds).body.reverse :=
  run_induction (Begins progress.body.reverse ·.body.reverse) (fun _ => begins_step) (.refl _)
    mode rounds

/-! ## Ends of readings -/

section Start

variable {source : String} {lexed : Lexed} (h : Lexed.ofSource source = .ok lexed)

include h

theorem values_eq_nil {rounds : Nat}
    (hover : ((start lexed).run .batch rounds).state.hasTokens = false)
    (hnone : ((start lexed).run .batch rounds).state.reported = []) :
    ((start lexed).run .batch rounds).state.cursor.errors.values = [] := by
  obtain ⟨_, -, -, hstart⟩ := abreast_start h
  obtain ⟨next, hnext, -⟩ := hstart.run_rounds rfl rounds
  have hahead := hnext.reaches rfl
  have hend := (hnext.hasTokens_eq hahead).2.mp hover
  obtain ⟨slot, rest, hslots⟩ := List.exists_cons_of_ne_nil hahead
  have hkind : slot.kind = .endOfInput := hend slot (by rw [hslots]; rfl)
  have hrest : rest = [] := by
    by_contra hrest
    have hinside := hnext.inside
    rw [hslots, List.dropLast_cons_of_ne_nil hrest] at hinside
    exact hinside slot List.mem_cons_self hkind
  have howed : slot.owed = none :=
    (hnext.owing slot (by rw [hslots]; exact List.mem_cons_self)).formed (by rw [hkind]; nofun)
  have hpassed : owedBy next.passed = [] := by
    refine hnext.settled ?_
    have hreported := hnext.first_reported
    rw [hnone] at hreported
    exact (List.append_eq_nil_iff.mp hreported.symm).1
  have hahead' : owedBy [slot] = [] := by simp [owedBy, howed]
  rw [hnext.values_eq, hslots, hrest, owedBy_append, owedBy_reverse, hpassed, hahead']
  rfl

/-- A reading that stops at the first diagnostic has come to the end of the input, where the reading
that goes on ends as well, or it has something to report. -/
theorem exists_stopped : ∃ count, (start lexed).StopsAfter (start lexed).state.limit count ∧
    ((start lexed).run .batch count = final lexed ∧ (final lexed).state.hasTokens = false ∨
      ((start lexed).run .batch count).state.reported ≠ []) := by
  have hfinal : (final lexed).state.hasTokens = false := hasTokens_final h
  obtain ⟨count, hstops⟩ := exists_stopsAfter (start lexed) (start lexed).state.limit
  refine ⟨count, hstops, ?_⟩
  rcases hstops.ends with rfl | hover
  · exact .inl ⟨rfl, hfinal⟩
  · simp only [isOver, Bool.or_eq_true, Bool.and_eq_true, Bool.not_eq_true', decide_true, true_and,
      List.isEmpty_eq_false_iff] at hover
    refine hover.imp_left fun htokens => ⟨?_, hfinal⟩
    have hrest := run_rest h count
    rwa [run_of_not_hasTokens htokens] at hrest

end Start

end Progress

/-! ## Diagnostics -/

theorem finalDiagnostics_failFast_perm (state : ParseState) :
    (finalDiagnostics .failFast state).Perm state.reported := by
  refine (List.mergeSort_perm _ _).trans ?_
  exact List.reverse_perm _

theorem ParsedUnit.isClean_iff {unit : ParsedUnit} (h : unit.cancelled = false) :
    unit.isClean ↔ unit.diagnostics = [] := by
  simp [isClean, h]

/-- What a single statement can report: as many diagnostics as it has error nodes, or one that stops
it behind some that would have stood for error nodes. -/
inductive Parse.Reports (state : ParseState) : List Diagnostic → Prop
  | read {parsed : Parsed} {final : ParseState} {raised : List Diagnostic}
    (h : statement state = .ok parsed final) (haccounts : Accounts parsed.positions raised) :
    Reports state raised
  | stopped {diagnostic : Diagnostic} {final : ParseState} {raised : List Diagnostic}
    (h : statement state = .error diagnostic final)
    (hphase : ∀ other ∈ raised, other.cause.phase = .resolution) :
    Reports state (diagnostic :: raised)

theorem Parse.Reports.length_le {state : ParseState} {raised : List Diagnostic}
    (h : Reports state raised) : raised.length ≤ resolutionCount raised + 1 := by
  cases h with
  | read _ haccounts =>
    rw [resolutionCount_eq_length haccounts.phase]
    exact Nat.le_succ _
  | stopped _ hphase =>
    rw [List.length_cons, ← resolutionCount_eq_length hphase, ← List.singleton_append,
      resolutionCount_append]
    omega

private theorem Progress.reports_step {progress : Progress} (h : progress.state.reported = []) :
    Parse.Reports progress.state progress.step.state.reported := by
  have haccounts := Parse.statement_accounts progress.state
  rw [h] at haccounts
  cases hresult : Parse.statement progress.state with
  | error diagnostic final =>
    rw [hresult] at haccounts
    obtain ⟨raised, hreported, hphase⟩ := haccounts
    rw [progress.step_of_error hresult]
    rw [List.append_nil] at hreported
    exact .stopped hresult (hreported ▸ hphase)
  | ok parsed final =>
    rw [hresult] at haccounts
    obtain ⟨raised, hreported, haccounts⟩ := haccounts
    rw [List.append_nil] at hreported
    subst hreported
    cases parsed with
    | statement statement =>
      rw [progress.step_of_statement hresult]
      exact .read hresult haccounts
    | clause clause =>
      rw [progress.step_of_clause hresult]
      exact .read hresult haccounts

/-! ## Results -/

/-- Reading stops behind the first statement that has something to report.  All diagnostics are that
statement's own, and at most one of them is not about a run that could not be resolved. -/
theorem failFast_reports_one_statement {source : String} {lexed : Lexed}
    (h : Lexed.ofSource source = .ok lexed) (cancelled : Bool) :
    ∃ unit, ParsedUnit.ofSource source { mode := .failFast, cancelled } = .ok unit ∧
      unit.diagnostics.length ≤ resolutionCount unit.diagnostics + 1 ∧
      (unit.diagnostics = [] ∨ ∃ count raised,
        (∀ fewer ≤ count, ((Progress.start lexed).run .batch fewer).state.reported = []) ∧
        Parse.Reports ((Progress.start lexed).run .batch count).state raised ∧
        unit.diagnostics.Perm raised ∧
        unit.script.body = ((Progress.start lexed).run .batch count).step.body.reverse) := by
  obtain ⟨unit, hunit⟩ := exists_unit h { mode := .failFast, cancelled }
  obtain ⟨_, rounds, hlexed, -, hshows⟩ := exists_shown_of_unit hunit
  obtain rfl := Except.ok.inj (h.symm.trans hlexed)
  obtain ⟨count, hstops⟩ := (Progress.start lexed).exists_stopsAfter rounds
  have hdiagnostics := finalDiagnostics_failFast_perm
    ((Progress.start lexed).run .failFast rounds).state
  rw [← hshows.diagnostics, hstops.result] at hdiagnostics
  have hbody := hshows.body
  rw [hstops.result] at hbody
  refine ⟨unit, hunit, ?_⟩
  cases count with
  | zero =>
    have hnone : unit.diagnostics = [] := List.perm_nil.mp hdiagnostics
    exact ⟨by simp [hnone], .inl hnone⟩
  | succ count =>
    have hlast := Progress.run_add (Progress.start lexed) count 1
    rw [Progress.run_of_hasTokens (hstops.proceeds count (Nat.lt_succ_self count)), Progress.run]
      at hlast
    rw [hlast] at hdiagnostics hbody
    have hreports := Progress.reports_step (hstops.earlier count (Nat.lt_succ_self count))
    refine ⟨?_, .inr ⟨count, _, fun fewer hfewer => ?_, hreports, hdiagnostics, hbody⟩⟩
    · rw [hdiagnostics.length_eq, resolutionCount, hdiagnostics.countP_eq]
      exact hreports.length_le
    · exact hstops.earlier fewer (Nat.lt_succ_of_le hfewer)

def twiceUnresolvedSource : String := "a 1 $$ 2 = 1 $$ 3;"

theorem twiceUnresolvedSource_reports :
    ∃ lexed, Lexed.ofSource twiceUnresolvedSource = .ok lexed ∧
      ((Progress.start lexed).run .batch 1).state.reported.length = 2 ∧
      ∃ unit, ParsedUnit.ofSource twiceUnresolvedSource { mode := .failFast, cancelled := false } =
          .ok unit ∧
        unit.diagnostics.length ≤ resolutionCount unit.diagnostics + 1 ∧
        (unit.diagnostics = [] ∨ ∃ count raised,
          (∀ fewer ≤ count, ((Progress.start lexed).run .batch fewer).state.reported = []) ∧
          Parse.Reports ((Progress.start lexed).run .batch count).state raised ∧
          unit.diagnostics.Perm raised ∧
          unit.script.body = ((Progress.start lexed).run .batch count).step.body.reverse) :=
  ⟨_, rfl, by decide +kernel, failFast_reports_one_statement rfl false⟩

theorem failFast_agrees_with_batch {source : String} {lexed : Lexed}
    (h : Lexed.ofSource source = .ok lexed) :
    ∃ first all, ParsedUnit.ofSource source { mode := .failFast } = .ok first ∧
      ParsedUnit.ofSource source { mode := .batch } = .ok all ∧
      (first.isClean ↔ all.isClean) ∧
      (first.isClean → first.script = all.script ∧ first.trivia = all.trivia ∧
        first.table = all.table) ∧
      first.diagnostics.Subperm all.diagnostics ∧
      Begins first.script.body all.script.body := by
  obtain ⟨first, hfirst⟩ := exists_unit h { mode := .failFast }
  obtain ⟨all, hall⟩ := exists_unit h { mode := .batch }
  obtain ⟨_, _, hlexed, hcount, hshows⟩ := exists_shown_of_unit hfirst
  obtain rfl := Except.ok.inj (h.symm.trans hlexed)
  obtain ⟨rfl, hcancelled⟩ := hcount rfl
  obtain ⟨_, _, hlexed', hcount', hshows'⟩ := exists_shown_of_unit hall
  obtain rfl := Except.ok.inj (h.symm.trans hlexed')
  obtain ⟨rfl, hcancelled'⟩ := hcount' rfl
  replace hshows' : all.Shows .batch lexed (Progress.final lexed) := hshows'
  obtain ⟨count, hstops, hend⟩ := Progress.exists_stopped h
  have hgrows := ((Progress.start lexed).run .batch count).reported_suffix .batch
    (Progress.start lexed).state.limit
  rw [Progress.run_rest h count] at hgrows
  have hdiagnostics := finalDiagnostics_failFast_perm
    ((Progress.start lexed).run .failFast (Progress.start lexed).state.limit).state
  rw [← hshows.diagnostics, hstops.result] at hdiagnostics
  have hdiagnostics' := finalDiagnostics_perm (Progress.final lexed).state
  rw [← hshows'.diagnostics] at hdiagnostics'
  have hsame (hnone : first.diagnostics = []) :
      (Progress.start lexed).run .batch count = Progress.final lexed ∧ all.diagnostics = [] := by
    rw [hnone, List.nil_perm] at hdiagnostics
    obtain ⟨hfinal, hover⟩ := hend.resolve_right (not_not_intro hdiagnostics)
    rw [hfinal] at hdiagnostics
    have hvalues : (Progress.final lexed).state.cursor.errors.values = [] :=
      Progress.values_eq_nil h hover hdiagnostics
    rw [hdiagnostics, hvalues] at hdiagnostics'
    exact ⟨hfinal, List.perm_nil.mp hdiagnostics'⟩
  refine ⟨first, all, hfirst, hall, ?_, fun hclean => ?_, ?_, ?_⟩
  · rw [ParsedUnit.isClean_iff hcancelled, ParsedUnit.isClean_iff hcancelled']
    refine ⟨fun hnone => (hsame hnone).2, fun hnone => ?_⟩
    rw [hnone, List.nil_perm] at hdiagnostics'
    rw [(List.append_eq_nil_iff.mp hdiagnostics').1, List.suffix_nil] at hgrows
    rwa [hgrows, List.perm_nil] at hdiagnostics
  · obtain ⟨hfinal, -⟩ := hsame ((ParsedUnit.isClean_iff hcancelled).mp hclean)
    rw [hstops.result, hfinal] at hshows
    exact ⟨hshows.script.trans hshows'.script.symm, hshows.trivia.trans hshows'.trivia.symm,
      hshows.table.trans hshows'.table.symm⟩
  · refine hdiagnostics.subperm.trans (.trans ?_ hdiagnostics'.symm.subperm)
    exact (hgrows.sublist.trans (List.sublist_append_left _ _)).subperm
  · rw [hshows.body, hshows'.body, hstops.result]
    have hbegins := ((Progress.start lexed).run .batch count).begins_run .batch
      (Progress.start lexed).state.limit
    rwa [Progress.run_rest h count] at hbegins

def secondClauseSource : String := "x = 1 $$ 2;\n= 3;\ny = 4;"

theorem secondClauseSource_agrees :
    ∃ lexed, Lexed.ofSource secondClauseSource = .ok lexed ∧
      ∃ first all, ParsedUnit.ofSource secondClauseSource { mode := .failFast } = .ok first ∧
        ParsedUnit.ofSource secondClauseSource { mode := .batch } = .ok all ∧
        (first.isClean ↔ all.isClean) ∧
        (first.isClean → first.script = all.script ∧ first.trivia = all.trivia ∧
          first.table = all.table) ∧
        first.diagnostics.Subperm all.diagnostics ∧
        Begins first.script.body all.script.body :=
  ⟨_, rfl, failFast_agrees_with_batch rfl⟩

end Equational

import Equational.Script

/-!
# Reading statements one by one

What one statement does to a reading, by how its parsing step ends, and what a reading is after some
more statements.
-/

namespace Equational

namespace Progress

/-! ## Steps -/

variable (progress : Progress) {state : ParseState}

theorem step_of_statement {statement : Statement}
    (h : Parse.statement progress.state = .ok (.statement statement) state) :
    progress.step = ⟨{ state with followsEquation := statement.isEquation },
      statement :: progress.body⟩ := by
  rw [step, h]

theorem step_of_clause {clause : Clause}
    (h : Parse.statement progress.state = .ok (.clause clause) state) :
    progress.step = ⟨state, addClause clause progress.body⟩ := by
  rw [step, h]

theorem step_of_error {diagnostic : Diagnostic}
    (h : Parse.statement progress.state = .error diagnostic state) :
    progress.step = ⟨{ state with
      cursor := state.cursor.skipStatement
      table := progress.state.table
      reported := diagnostic :: state.reported
      followsEquation := false }, progress.body⟩ := by
  rw [step, h]

/-! ## Runs -/

variable {progress}

theorem run_of_isOver {mode : ParseMode} (h : progress.isOver mode) (rounds : Nat) :
    progress.run mode rounds = progress := by
  cases rounds with
  | zero => rfl
  | succ rounds => simp [run, h]

theorem run_of_not_hasTokens (h : progress.state.hasTokens = false) (rounds : Nat) :
    progress.run .batch rounds = progress := by
  refine run_of_isOver ?_ rounds
  simp [isOver, h]

theorem run_of_hasTokens (h : progress.state.hasTokens = true) (rounds : Nat) :
    progress.run .batch (rounds + 1) = progress.step.run .batch rounds := by
  simp [run, isOver, h]

theorem run_add (progress : Progress) (rounds more : Nat) :
    progress.run .batch (rounds + more) = (progress.run .batch rounds).run .batch more := by
  induction rounds generalizing progress with
  | zero => rw [Nat.zero_add, run]
  | succ rounds ih =>
    rw [Nat.add_right_comm]
    cases h : progress.state.hasTokens with
    | false => rw [run_of_not_hasTokens h, run_of_not_hasTokens h, run_of_not_hasTokens h]
    | true => rw [run_of_hasTokens h, run_of_hasTokens h, ih]

theorem run_induction (holds : Progress → Prop)
    (hstep : ∀ progress : Progress, holds progress → holds progress.step) (hstart : holds progress)
    (mode : ParseMode) (rounds : Nat) : holds (progress.run mode rounds) := by
  induction rounds generalizing progress with
  | zero => exact hstart
  | succ rounds ih =>
    rw [run]
    split
    · exact hstart
    · exact ih (hstep progress hstart)

end Progress

end Equational

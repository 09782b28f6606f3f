import Equational.Proofs.Script.Reading
import Equational.Proofs.Statement.Declared

/-!
# The table of a script

The operator table behind a script is that of its headers, declared one after another under the
initial table.  Statements that fail leave nothing behind, whatever they had declared, and the
headers of those that stand have all taken effect.
-/

namespace Equational

def declaredBy (body : List Statement) : List Header := body.flatMap Statement.declared

namespace Progress

def TableDeclared (progress : Progress) : Prop :=
  OperatorTable.initial.declareAll (declaredBy progress.body.reverse) = .ok progress.state.table

private theorem declaredBy_addClause (clause : Clause) (body : List Statement) :
    declaredBy (addClause clause body).reverse = declaredBy body.reverse := by
  cases body with
  | nil => rfl
  | cons last rest => simp [addClause, declaredBy, Statement.declared_addClause]

theorem tableDeclared_start (tokens : List Token) (errors : DiagnosticMap) :
    TableDeclared ⟨.ofTokens tokens errors, []⟩ := rfl

theorem TableDeclared.step {progress : Progress} (h : progress.TableDeclared) :
    progress.step.TableDeclared := by
  have hread (value : Parsed) (final : ParseState)
      (hstatement : Parse.statement progress.state = .ok value final) :
      OperatorTable.initial.declareAll (declaredBy progress.body.reverse ++ value.declared) =
        .ok final.table := by
    rw [OperatorTable.declareAll_append h]
    exact Parse.declares_statement hstatement
  unfold TableDeclared Progress.step
  split
  · rename_i statement final hstatement
    have hdeclared := hread (.statement statement) final hstatement
    simpa [declaredBy, Parsed.declared] using hdeclared
  · rename_i clause final hstatement
    have hdeclared := hread (.clause clause) final hstatement
    simpa [declaredBy_addClause, Parsed.declared] using hdeclared
  · exact h

end Progress

/-! ## Results -/

/-- Reading may stop behind any statement: at the end of the input, at the first diagnostic, or
because it is cancelled there. -/
theorem table_determined (tokens : List Token) (errors : DiagnosticMap) (options : ParseOptions)
    (rounds : Nat) :
    let parsed := ParsedScript.ofTokens tokens errors options
    let progress := Progress.run options.mode rounds ⟨.ofTokens tokens errors, []⟩
    OperatorTable.initial.declareAll (declaredBy parsed.script.body) = .ok parsed.table ∧
      OperatorTable.initial.declareAll (declaredBy progress.body.reverse) =
        .ok progress.state.table := by
  have hstart := Progress.tableDeclared_start tokens errors
  have hrun := Progress.run_induction Progress.TableDeclared (fun _ => .step) hstart options.mode
  refine ⟨?_, hrun rounds⟩
  unfold ParsedScript.ofTokens
  dsimp only
  split
  · exact hstart
  · exact hrun _

end Equational

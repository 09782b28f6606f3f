import Equational.Lexed
import Equational.Statement.Grammar

/-!
# Scripts

Statements are read one after another.  One that fails is reported, its declarations are taken
back, and reading goes on behind the next semicolon, or stops there if the first diagnostic is to
be the last.

Whether a reading is cancelled is asked in front of each statement.  The option answers once for all
of them; a reading that is cancelled later on is one of fewer rounds.
-/

namespace Equational

inductive ParseMode where
  /-- Every diagnostic of a unit is wanted. -/
  | batch
  /-- The first diagnostic ends the unit. -/
  | failFast
  deriving DecidableEq, Repr

structure ParseOptions where
  mode : ParseMode := .batch
  /-- No further statement is to be read. -/
  cancelled : Bool := false
  deriving DecidableEq, Repr

/-! ## Reading statements -/

structure Progress where
  state : ParseState
  body : List Statement

namespace Progress

def addClause (clause : Clause) : List Statement → List Statement
  | last :: rest => last.addClause clause :: rest
  | [] => []

def step (progress : Progress) : Progress :=
  match Parse.statement progress.state with
  | .ok (.statement statement) state =>
    ⟨{ state with followsEquation := statement.isEquation }, statement :: progress.body⟩
  | .ok (.clause clause) state => ⟨state, addClause clause progress.body⟩
  | .error diagnostic state =>
    ⟨{ state with
        cursor := state.cursor.skipStatement
        table := progress.state.table
        reported := diagnostic :: state.reported
        followsEquation := false },
      progress.body⟩

def isOver (mode : ParseMode) (progress : Progress) : Bool :=
  !progress.state.hasTokens || (mode = .failFast && !progress.state.reported.isEmpty)

def run (mode : ParseMode) : Nat → Progress → Progress
  | 0, progress => progress
  | rounds + 1, progress =>
    if progress.isOver mode then progress else run mode rounds progress.step

end Progress

/-! ## Whole units -/

structure ParsedScript where
  script : Script
  diagnostics : List Diagnostic
  table : OperatorTable
  cancelled : Bool

/-- Malformed tokens that no statement met still have their diagnostics reported, unless the first
diagnostic is to be the last. -/
def finalDiagnostics (mode : ParseMode) (state : ParseState) : List Diagnostic :=
  match mode with
  | .batch => Diagnostic.inSourceOrder (state.diagnostics ++ state.cursor.errors.values)
  | .failFast => Diagnostic.inSourceOrder state.diagnostics

namespace ParsedScript

def ofTokens (tokens : List Token) (errors : DiagnosticMap) (options : ParseOptions) :
    ParsedScript :=
  let start : Progress := ⟨.ofTokens tokens errors, []⟩
  let cancelled := options.cancelled && start.state.hasTokens
  let final := if cancelled then start else start.run options.mode start.state.limit
  { script := ⟨final.body.reverse, ⟨0, final.state.cursor.current.span.start⟩⟩
    diagnostics := finalDiagnostics options.mode final.state
    table := final.state.table
    cancelled }

end ParsedScript

structure ParsedUnit where
  script : Script
  diagnostics : List Diagnostic
  trivia : List Trivia
  table : OperatorTable
  cancelled : Bool

namespace ParsedUnit

def isClean (unit : ParsedUnit) : Bool := unit.diagnostics.isEmpty && !unit.cancelled

/-- Only a text whose last literal or comment stays open gives no unit at all. -/
def ofSource (source : String) (options : ParseOptions) : Except Diagnostic ParsedUnit := do
  let lexed ← Lexed.ofSource source
  let parsed := ParsedScript.ofTokens lexed.tokens lexed.errors options
  return ⟨parsed.script, parsed.diagnostics, lexed.trivia, parsed.table, parsed.cancelled⟩

end ParsedUnit

end Equational

import Equational.Proofs.Statement.Concluded
import Equational.Proofs.Statement.Conditional

/-!
# Clauses without an equation

A run or a clause is stopped by a token that does not belong where it stands, or that cannot be
read.  That a clause has no equation in front of it is noticed before anything of it is read, and
only by the state: behind an equation no clause is reported as an orphan, whatever stops it.
-/

namespace Equational

open Cursor

/-! ## Diagnostics that are kept -/

/-- What is kept for the tokens is about themselves: no clause is an orphan for it. -/
def DiagnosticMap.HasNoOrphan (errors : DiagnosticMap) : Prop :=
  ∀ diagnostic ∈ errors.values, diagnostic.cause ≠ .orphanContinuation

namespace Cursor

def OwesNoOrphan (cursor : Cursor) : Prop := cursor.errors.HasNoOrphan

variable {cursor : Cursor}

theorem OwesNoOrphan.advance (h : cursor.OwesNoOrphan) : cursor.advance.OwesNoOrphan := by
  unfold Cursor.advance
  split
  · split
    · exact h
    · exact h
  · exact h

theorem OwesNoOrphan.split (h : cursor.OwesNoOrphan) (bytes : Nat) :
    (cursor.split bytes).OwesNoOrphan := by
  unfold OwesNoOrphan DiagnosticMap.HasNoOrphan
  rcases cursor.split_cases bytes with
    hsplit | ⟨passed, token, rest, errors, head, tail, rfl, hcut, hsplit⟩ <;> rw [hsplit]
  · exact h
  · rw [DiagnosticMap.values_openGap]
    exact h

theorem OwesNoOrphan.unexpected (h : cursor.OwesNoOrphan) (expected : String) :
    (cursor.unexpected expected).1.cause ≠ .orphanContinuation ∧
      (cursor.unexpected expected).2.OwesNoOrphan := by
  rcases cursor.unexpected_cases expected with
    ⟨diagnostic, -, hfound, hresult⟩ | ⟨cause, hcause, hresult⟩ <;> rw [hresult]
  · refine ⟨h diagnostic (DiagnosticMap.mem_values_of_find hfound), fun other hmem => h other ?_⟩
    exact (DiagnosticMap.values_erase_sublist _ _).subset hmem
  · exact ⟨by rcases hcause with rfl | rfl | rfl <;> nofun, h⟩

theorem OwesNoOrphan.skipStatement (h : cursor.OwesNoOrphan) :
    cursor.skipStatement.OwesNoOrphan :=
  skipStatement_induction (motive := OwesNoOrphan)
    (fun htakes howes => htakes.advance_eq ▸ howes.advance) h

end Cursor

theorem Moves.owesNoOrphan {noise : Noise} {state next : ParseState} (h : Moves noise state next)
    (howes : state.cursor.OwesNoOrphan) : next.cursor.OwesNoOrphan := by
  induction h with
  | refl => exact howes
  | tail _ hmove ih =>
    cases hmove with
    | advance => exact ih.advance
    | split _ => exact ih.split 1
    | unexpected _ expected => exact (ih.unexpected expected).2
    | exhaust | report _ _ => exact ih

namespace Parse

variable {α β : Type}

/-! ## Steps without orphans -/

/-- Unless that is kept for a token, the step does not fail for an orphan. -/
def NoOrphan (step : Parse α) : Prop :=
  ∀ state : ParseState, state.cursor.OwesNoOrphan →
    match step state with
    | .ok _ final => final.cursor.OwesNoOrphan
    | .error diagnostic _ => diagnostic.cause ≠ .orphanContinuation

namespace NoOrphan

variable {step : Parse α}

theorem pure (value : α) : NoOrphan (pure value) := fun _ howes => howes

theorem exhaust (value : α) : NoOrphan (exhaust value) := fun _ howes => howes

theorem throw {diagnostic : Diagnostic} (h : diagnostic.cause ≠ .orphanContinuation) :
    NoOrphan (throw diagnostic : Parse α) := fun _ _ => h

theorem get : NoOrphan get := fun _ howes => howes

theorem bind {next : α → Parse β} (h : NoOrphan step)
    (hnext : ∀ value, NoOrphan (next value)) : NoOrphan (step >>= next) := by
  intro state howes
  have hfirst := h state howes
  cases hstep : step state with
  | ok value middle =>
    rw [hstep] at hfirst
    rw [bind_of_ok hstep]
    exact hnext value middle hfirst
  | error diagnostic middle =>
    rw [hstep] at hfirst
    rwa [bind_of_error hstep]

theorem ite {condition : Prop} [Decidable condition] {second : Parse α} (h : NoOrphan step)
    (h' : NoOrphan second) : NoOrphan (if condition then step else second) := by
  split
  · exact h
  · exact h'

theorem wrap {f : α → β} (h : NoOrphan step) :
    NoOrphan (step >>= fun value => Pure.pure (f value)) := h.bind fun _ => .pure _

end NoOrphan

theorem noOrphan_current : NoOrphan current := NoOrphan.get.wrap

theorem noOrphan_currentKind : NoOrphan currentKind := noOrphan_current.wrap

theorem noOrphan_peek (distance : Nat) : NoOrphan (peek distance) := NoOrphan.get.wrap

theorem noOrphan_position : NoOrphan position := noOrphan_current.wrap

theorem noOrphan_spanFrom (start : Nat) : NoOrphan (spanFrom start) := NoOrphan.get.wrap

theorem noOrphan_advance : NoOrphan advance := fun _ howes => howes.advance

theorem noOrphan_fail (expected : String) : NoOrphan (fail expected : Parse α) :=
  fun _ howes => (howes.unexpected expected).1

theorem noOrphan_accept (kind : TokenKind) : NoOrphan (accept kind) :=
  noOrphan_currentKind.bind fun _ => .ite noOrphan_advance.wrap (.pure false)

theorem noOrphan_expect (kind : TokenKind) : NoOrphan (expect kind) :=
  noOrphan_currentKind.bind fun _ => .ite noOrphan_advance (noOrphan_fail _)

theorem noOrphan_expectMark (mark : Punctuation) : NoOrphan (expectMark mark) := noOrphan_expect _

theorem noOrphan_acceptMark (mark : Punctuation) : NoOrphan (acceptMark mark) := noOrphan_accept _

theorem noOrphan_numberLiteral (token : Token) :
    NoOrphan (MonadExcept.ofExcept (NumberLiteral.ofToken token)) := by
  unfold NumberLiteral.ofToken
  split
  · exact .pure _
  · exact .throw nofun

theorem noOrphan_many {item? : Parse (Option α)} (h : NoOrphan item?) (rounds : Nat)
    (found : List α) : NoOrphan (many item? rounds found) := by
  induction rounds generalizing found with
  | zero => exact .exhaust _
  | succ rounds ih =>
    refine h.bind fun answer => ?_
    cases answer with
    | some item => exact ih (item :: found)
    | none => exact .pure _

theorem noOrphan_separated (separator : Punctuation) {item : Parse α} (h : NoOrphan item) :
    NoOrphan (separated separator item) := by
  have hnext : NoOrphan (another separator item) :=
    (noOrphan_acceptMark separator).bind fun _ => .ite h.wrap (.pure none)
  exact h.bind fun first => NoOrphan.get.bind fun state => noOrphan_many hnext state.limit [first]

theorem noOrphan_identifier (expected : String) : NoOrphan (identifier expected) :=
  noOrphan_currentKind.bind fun _ => .ite noOrphan_advance.wrap (noOrphan_fail expected)

theorem noOrphan_operator : NoOrphan operator := by
  refine noOrphan_advance.bind fun token => ?_
  dsimp only
  split
  · exact noOrphan_currentKind.bind fun kind => .ite noOrphan_advance.wrap (.pure _)
  · exact .pure _

/-! ## Runs -/

theorem noOrphan_unclosed (bracket : Bracket) :
    NoOrphan (do throw (← unclosed bracket) : Parse α) := by
  unfold unclosed
  rw [bind_assoc]
  refine noOrphan_current.bind fun token => ?_
  split
  · exact noOrphan_fail _
  · exact noOrphan_fail _
  · rw [pure_bind]
    exact .throw nofun

section Parts

variable {inner : RunContext → Parse Run} (hinner : ∀ context, NoOrphan (inner context))

theorem noOrphan_close (bracket : Bracket) : NoOrphan (close bracket) :=
  (noOrphan_acceptMark _).bind fun _ => .ite (.pure _) (noOrphan_unclosed bracket)

include hinner

theorem noOrphan_collectEnumeration (bracket : Bracket) (runs : List Run) :
    NoOrphan (collectEnumeration inner bracket runs) := by
  refine noOrphan_advance.bind fun dots => .ite (.throw nofun) ?_
  exact noOrphan_currentKind.bind fun kind => .ite (.pure _) (hinner {}).wrap

theorem noOrphan_collectGenerators (rounds : Nat) (separator : Option Separator)
    (found : List Run) : NoOrphan (collectGenerators inner rounds separator found) := by
  induction rounds generalizing separator found with
  | zero => exact .exhaust _
  | succ rounds ih =>
    refine noOrphan_current.bind fun token => ?_
    split
    · exact .pure _
    · refine .ite (.throw nofun) (noOrphan_advance.bind fun _ => ?_)
      exact (hinner {}).bind fun run => ih _ (run :: found)

theorem noOrphan_collectElements (bracket : Bracket) (separator : Separator) (rounds : Nat)
    (found : List Run) : NoOrphan (collectElements inner bracket separator rounds found) := by
  induction rounds generalizing found with
  | zero => exact .exhaust _
  | succ rounds ih =>
    refine noOrphan_current.bind fun token => ?_
    split
    · refine .ite (.throw nofun) (noOrphan_advance.bind fun _ => ?_)
      refine noOrphan_currentKind.bind fun kind => .ite (.pure _) ?_
      exact (hinner {}).bind fun run => ih (run :: found)
    · refine .ite (noOrphan_collectEnumeration hinner bracket _) (.ite ?_ (.pure _))
      exact noOrphan_advance.bind fun _ => (hinner {}).wrap

theorem noOrphan_collectBody (bracket : Bracket) (first : Run) :
    NoOrphan (collectBody inner bracket first) := by
  refine NoOrphan.get.bind fun state => noOrphan_currentKind.bind fun kind => ?_
  split
  · exact noOrphan_collectEnumeration hinner bracket [first]
  · refine noOrphan_advance.bind fun _ => (hinner {}).bind fun generator => ?_
    exact (noOrphan_collectGenerators hinner _ none [generator]).wrap
  · exact noOrphan_collectElements hinner bracket .comma _ [first]
  · exact noOrphan_collectElements hinner bracket .semicolon _ [first]
  · exact noOrphan_advance.bind fun _ => (hinner {}).wrap
  · exact .ite (.pure _) (noOrphan_unclosed bracket)

theorem noOrphan_collectContainer : NoOrphan (collectContainer inner) := by
  refine noOrphan_advance.bind fun opening => (noOrphan_acceptMark _).bind fun closed => ?_
  refine .ite (noOrphan_spanFrom _).wrap ((hinner _).bind fun first => ?_)
  refine (noOrphan_collectBody hinner _ first).bind fun body => ?_
  exact (noOrphan_close _).bind fun _ => (noOrphan_spanFrom _).wrap

theorem noOrphan_collectLambda (context : RunContext) :
    NoOrphan (collectLambda inner context) := by
  refine noOrphan_advance.bind fun backslash => (hinner _).bind fun parameters => ?_
  refine (noOrphan_expectMark .dot).bind fun _ => (hinner _).bind fun body => ?_
  exact (noOrphan_spanFrom _).wrap

theorem noOrphan_collectConditional (context : RunContext) :
    NoOrphan (collectConditional inner context) := by
  refine noOrphan_advance.bind fun opening => (hinner {}).bind fun condition => ?_
  refine (noOrphan_expect _).bind fun _ => (hinner context).bind fun thenBranch => ?_
  exact noOrphan_currentKind.bind fun kind => .ite noOrphan_advance.wrap (.pure _)

omit hinner in
theorem noOrphan_collectIdentifier (context : RunContext) :
    NoOrphan (collectIdentifier context) := by
  refine noOrphan_advance.bind fun token => noOrphan_currentKind.bind fun kind => ?_
  refine (noOrphan_peek 1).bind fun follower => .ite ?_ (.pure _)
  exact noOrphan_advance.bind fun _ => noOrphan_advance.wrap

theorem noOrphan_nextItems (context : RunContext) (started : Bool) :
    NoOrphan (nextItems? inner context started) := by
  refine noOrphan_current.bind fun token => ?_
  split
  · exact (noOrphan_collectIdentifier context).wrap
  · exact (noOrphan_collectIdentifier context).wrap
  · exact noOrphan_advance.bind fun _ =>
      (noOrphan_identifier _).bind fun _ => (noOrphan_spanFrom _).wrap
  · exact noOrphan_advance.bind fun _ => (noOrphan_numberLiteral token).wrap
  · exact noOrphan_advance.bind fun _ => .pure _
  · exact (noOrphan_collectContainer hinner).wrap
  · exact (noOrphan_collectContainer hinner).wrap
  · exact (noOrphan_collectContainer hinner).wrap
  · exact (noOrphan_collectLambda hinner context).wrap
  · exact .ite (.pure none) (noOrphan_collectConditional hinner context).wrap
  · exact noOrphan_fail _
  · refine .ite (.pure none) (.ite (.pure none) (.ite ?_ ?_))
    · exact fun state howes => howes.split 1
    · exact .ite noOrphan_operator.wrap (.pure none)

theorem noOrphan_collectItems (context : RunContext) (rounds : Nat) (found : List RunItem) :
    NoOrphan (collectItems inner context rounds found) := by
  induction rounds generalizing found with
  | zero => exact .exhaust _
  | succ rounds ih =>
    refine (noOrphan_nextItems hinner context _).bind fun answer => ?_
    cases answer with
    | some items => exact ih (items.reverse ++ found)
    | none => exact .pure _

end Parts

theorem noOrphan_run (context : RunContext) : NoOrphan (run context) := by
  have hcollect (depth : Nat) (context : RunContext) : NoOrphan (collectRun depth context) := by
    induction depth generalizing context with
    | zero => exact noOrphan_position.bind fun _ => .exhaust _
    | succ depth ih =>
      refine noOrphan_position.bind fun start => NoOrphan.get.bind fun state => ?_
      exact (noOrphan_collectItems ih context _ []).wrap
  exact NoOrphan.get.bind fun state => hcollect state.limit context

/-! ## Clauses -/

theorem noOrphan_resolve (collected : Run) : NoOrphan (resolve collected) := by
  intro state howes
  rw [resolve_eq]
  cases collected.resolve state.table with
  | ok e => exact howes
  | error diagnostic => exact howes

theorem noOrphan_expression (context : RunContext) : NoOrphan (expression context) :=
  (noOrphan_run context).bind noOrphan_resolve

theorem noOrphan_binding (context : RunContext) : NoOrphan (binding context) :=
  (noOrphan_expression _).bind fun _ => (noOrphan_expectMark .assignment).bind fun _ =>
    (noOrphan_expression context).wrap

theorem noOrphan_qualifiers (context : RunContext) : NoOrphan (qualifiers context) := by
  have hqualifier : NoOrphan (qualifier? context) := by
    refine noOrphan_position.bind fun start => noOrphan_currentKind.bind fun kind => ?_
    split
    · exact noOrphan_advance.bind fun _ => (noOrphan_expression context).bind fun _ =>
        (noOrphan_spanFrom start).wrap
    · exact noOrphan_advance.bind fun _ => (noOrphan_spanFrom start).wrap
    · exact noOrphan_advance.bind fun _ =>
        (noOrphan_separated .comma (noOrphan_binding context)).bind fun _ =>
          (noOrphan_spanFrom start).wrap
    · exact .pure _
  exact NoOrphan.get.bind fun state => noOrphan_many hqualifier state.limit []

theorem noOrphan_clause (start : Nat) : NoOrphan (clause start) := by
  have hleading : NoOrphan leadingQualifiers := by
    refine noOrphan_currentKind.bind fun kind => .ite ?_ (.pure _)
    exact (noOrphan_qualifiers _).bind fun _ => (noOrphan_expectMark .colon).bind fun _ => .pure _
  refine hleading.bind fun _ => (noOrphan_expectMark .assignment).bind fun _ => ?_
  refine (noOrphan_expression .guarded).bind fun _ => ?_
  refine (noOrphan_qualifiers .guarded).bind fun _ => ?_
  exact (noOrphan_expectMark .semicolon).bind fun _ => (noOrphan_spanFrom start).wrap

/-! ## Orphans -/

section Orphans

variable {state : ParseState} (hbegins : beginsContinuation state.cursor.current.kind)

include hbegins

theorem statement_of_beginsContinuation :
    statement state = (do return Parsed.clause (← continuation)) state := by
  have hkind : currentKind state = .ok state.cursor.current.kind state := rfl
  rw [statement, bind_of_ok hkind]
  generalize state.cursor.current.kind = kind at hbegins
  unfold beginsContinuation at hbegins
  split at hbegins
  iterate 4 rfl
  cases hbegins

theorem statement_of_orphan (hfollows : state.followsEquation = false) :
    statement state = .error ⟨.orphanContinuation, state.cursor.current.span⟩ state := by
  have hget : (get : Parse ParseState) state = .ok state state := rfl
  have horphan : continuation state =
      .error ⟨.orphanContinuation, state.cursor.current.span⟩ state := by
    rw [continuation, bind_of_ok hget, if_neg (by simp [hfollows])]
    rfl
  rw [statement_of_beginsContinuation hbegins, bind_of_error horphan]

/-- Only where no equation is in front of it is a clause reported as an orphan. -/
theorem not_follows_of_orphan (howes : state.cursor.OwesNoOrphan) {diagnostic : Diagnostic}
    {final : ParseState} (h : statement state = .error diagnostic final)
    (hcause : diagnostic.cause = .orphanContinuation) : state.followsEquation = false := by
  refine Bool.eq_false_iff.mpr fun hfollows => ?_
  have hget : (get : Parse ParseState) state = .ok state state := rfl
  have hcontinues : continuation state = (do clause (← position)) state := by
    rw [continuation, bind_of_ok hget, if_pos hfollows]
  have hread : statement state = (do return Parsed.clause (← do clause (← position))) state := by
    rw [statement_of_beginsContinuation hbegins]
    change EStateM.bind continuation _ state = EStateM.bind (do clause (← position)) _ state
    rw [EStateM.bind, EStateM.bind, hcontinues]
  have hfails : NoOrphan (do return Parsed.clause (← do clause (← position))) :=
    (noOrphan_position.bind noOrphan_clause).wrap
  have hcauseNe := hfails state howes
  rw [← hread, h] at hcauseNe
  exact hcauseNe hcause

end Orphans

theorem records_owesNoOrphan :
    Records (fun _ state => state.cursor.OwesNoOrphan) (fun state => state.cursor.OwesNoOrphan) :=
  .of_moves (fun _ _ hmoves howes => hmoves.owesNoOrphan howes) fun _ _ _ howes => howes

end Parse

end Equational

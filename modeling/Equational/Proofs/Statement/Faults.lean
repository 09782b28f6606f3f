import Equational.Proofs.Statement.Events

/-!
# Error nodes of a statement

A run that cannot be resolved is reported and leaves an error node.  So a statement that has been
read has just as many error nodes as diagnostics were reported on the way, each of the phase that
resolves runs, and its other expressions are faultless.
-/

namespace Equational

/-! ## Accounts -/

/-- Each expression is an error node by itself or faultless, and the error nodes stand for what was
raised, one by one. -/
structure Accounts (positions : List Expr) (raised : List Diagnostic) : Prop where
  faultless : ∀ e ∈ positions, e.isError ∨ e.containsError = false
  count_eq : positions.countP Expr.isError = raised.length
  phase : ∀ diagnostic ∈ raised, diagnostic.cause.phase = .resolution

namespace Accounts

variable {positions : List Expr} {raised : List Diagnostic}

theorem nil : Accounts [] [] := ⟨List.forall_mem_nil _, rfl, List.forall_mem_nil _⟩

theorem addFaultless (h : Accounts positions raised) {e : Expr} (he : e.containsError = false) :
    Accounts (positions ++ [e]) raised where
  faultless := List.forall_mem_append.mpr ⟨h.faultless, List.forall_mem_singleton.mpr (.inr he)⟩
  count_eq := by
    have hnone : e.isError = false := by
      cases e <;> first | rfl | cases he
    simp [h.count_eq, hnone]
  phase := h.phase

theorem addError (h : Accounts positions raised) {diagnostic : Diagnostic}
    (hphase : diagnostic.cause.phase = .resolution) (span : Span) :
    Accounts (positions ++ [.error span]) (diagnostic :: raised) where
  faultless := List.forall_mem_append.mpr ⟨h.faultless, List.forall_mem_singleton.mpr (.inl rfl)⟩
  count_eq := by simp [h.count_eq, Expr.isError]
  phase := List.forall_mem_cons.mpr ⟨hphase, h.phase⟩

end Accounts

/-! ## Positions among the events -/

theorem filterMap_expressions (positions : List Expr) :
    (resolvedAll positions).filterMap Event.expression? = positions := by
  rw [resolvedAll, List.filterMap_map]
  exact List.filterMap_some

theorem filterMap_headerExpressions (found : List Header) :
    (found.flatMap Header.events).filterMap Event.expression? = found.flatMap Header.positions := by
  rw [List.filterMap_flatMap]
  refine congrArg (found.flatMap ·) (funext fun header => ?_)
  rw [Header.events, List.filterMap_append, filterMap_expressions]
  exact List.append_nil _

def Parsed.positions : Parsed → List Expr
  | statement s => s.positions
  | clause c => c.positions

theorem Parsed.expressions_of_events (parsed : Parsed) :
    parsed.events.filterMap Event.expression? = parsed.positions := by
  cases parsed with
  | clause c => exact filterMap_expressions c.positions
  | statement s =>
    cases s with
    | headers scope modifiers found span => exact filterMap_headerExpressions found
    | typeDeclaration external definition span =>
      change (definition.sections.flatMap TypeSection.events).filterMap _ = _
      rw [List.filterMap_flatMap]
      exact congrArg (definition.sections.flatMap ·)
        (funext fun t => filterMap_headerExpressions t.headers)
    | _ => exact filterMap_expressions _

/-! ## Statements -/

namespace Parse

def HasRaised (base : List Diagnostic) (events : List Event) (state : ParseState) : Prop :=
  ∃ raised, state.reported = raised ++ base ∧
    Accounts (events.filterMap Event.expression?) raised

/-- Everything that has been raised is about runs that could not be resolved. -/
def HasFailed (base : List Diagnostic) (state : ParseState) : Prop :=
  ∃ raised, state.reported = raised ++ base ∧
    ∀ diagnostic ∈ raised, diagnostic.cause.phase = .resolution

theorem ensures_resolve (base : List Diagnostic) (events : List Event) (run : Run) :
    Ensures (HasRaised base events) (resolve run)
      (fun e => HasRaised base (events ++ [.resolved e])) (HasFailed base) := by
  rintro state ⟨raised, hreported, haccounts⟩
  have hresolves := run.resolves state.table
  rw [resolve_eq]
  cases hresult : run.resolve state.table with
  | ok e =>
    rw [hresult] at hresolves
    refine ⟨raised, hreported, ?_⟩
    rw [List.filterMap_append]
    exact haccounts.addFaultless hresolves
  | error diagnostic =>
    rw [hresult] at hresolves
    refine ⟨diagnostic :: raised, congrArg (diagnostic :: ·) hreported, ?_⟩
    rw [List.filterMap_append]
    exact haccounts.addError hresolves run.span

theorem records_raised (base : List Diagnostic) : Records (HasRaised base) (HasFailed base) where
  silent events state next hmoves := by
    rintro ⟨raised, hreported, haccounts⟩
    exact ⟨raised, hmoves.reported_eq.trans hreported, haccounts⟩
  fails := by
    rintro events state ⟨raised, hreported, haccounts⟩
    exact ⟨raised, hreported, haccounts.phase⟩
  resolve := ensures_resolve base
  declare events header := by
    rintro state ⟨raised, hreported, haccounts⟩
    obtain ⟨table, htable⟩ := exists_table_declare header state
    have hfinal : ((declare header).finalState state).reported = raised ++ base := by
      rw [htable]
      exact hreported
    unfold finalState at hfinal
    cases hstep : declare header state with
    | ok value final =>
      rw [hstep] at hfinal
      refine ⟨raised, hfinal, ?_⟩
      rw [List.filterMap_append]
      exact (List.append_nil _).symm ▸ haccounts
    | error diagnostic final =>
      rw [hstep] at hfinal
      exact ⟨raised, hfinal, haccounts.phase⟩

theorem statement_accounts (state : ParseState) :
    match statement state with
    | .ok parsed final => ∃ raised, final.reported = raised ++ state.reported ∧
      Accounts parsed.positions raised
    | .error _ final => ∃ raised, final.reported = raised ++ state.reported ∧
      ∀ diagnostic ∈ raised, diagnostic.cause.phase = .resolution := by
  have hends := (records_raised state.reported).statement state ⟨[], rfl, .nil⟩
  cases hstep : statement state with
  | ok parsed final =>
    rw [hstep] at hends
    obtain ⟨raised, hreported, haccounts⟩ := hends
    rw [parsed.expressions_of_events] at haccounts
    exact ⟨raised, hreported, haccounts⟩
  | error diagnostic final =>
    rw [hstep] at hends
    exact hends

end Parse

end Equational

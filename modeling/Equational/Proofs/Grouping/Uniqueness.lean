import Equational.Proofs.Grouping.Resolution

/-!
# The expression of a run

The expression that a run resolves to is the only admissible grouping of its parts, each operator
being ranked by the entry that the table has for it in the role it plays.  A run whose operators all
have such entries, and which does not break off, fails to resolve only if no grouping is admissible,
and then the diagnostic is that of an ambiguous chain.
-/

namespace Equational

/-! ## Entries -/

/-- The entry of an operator is that of the table in the role which the operator plays. -/
def Part.Declared (table : OperatorTable) : Part → Prop
  | leading (.prefixed op entry) => table.lookupName op.name .prefixOp = some entry
  | joining (.binary op entry) => table.lookupName op.name .infixOp = some entry
  | trailing operator => table.lookupName operator.op.name .postfixOp = some operator.entry
  | operand _ | leading (.conditional _ _ _) | joining (.application _) => True

private theorem declared_of_followingParts {table : OperatorTable} {isLast next : Bool}
    {op : OperatorUse}
    {parts : List Part} (h : followingParts? table isLast op = some (parts, next)) :
    ∀ part ∈ parts, part.Declared table := by
  rcases followingParts?_cases h with
    ⟨entry, hentry, rfl, -⟩ | ⟨entry, hentry, rfl, -⟩ | ⟨entry, hentry, rfl, -⟩
  · simpa [Part.Declared] using hentry
  · simpa [Part.Declared] using hentry
  · simpa [Part.Declared] using hentry

private theorem declared_of_stepParts {table : OperatorTable} {expectsOperand isLast next : Bool}
    {step : Step} {parts : List Part}
    (h : step.parts? table expectsOperand isLast = some (parts, next)) :
    ∀ part ∈ parts, part.Declared table := by
  cases step with
  | operand value =>
    cases h
    cases expectsOperand <;> simp [argumentParts, Part.Declared]
  | conditional condition thenBranch span =>
    cases h
    cases expectsOperand <;> simp [argumentParts, Part.Declared]
  | operator op =>
    cases expectsOperand with
    | true =>
      obtain ⟨entry, hentry, hparts⟩ := Option.map_eq_some_iff.mp h
      cases hparts
      simpa [Part.Declared] using hentry
    | false => exact declared_of_followingParts h

theorem forall_mem_partsOf {table : OperatorTable} {P : Part → Prop} {expectsOperand : Bool}
    {steps : List Step} {parts : List Part}
    (h : ∀ step ∈ steps, ∀ {expectsOperand isLast next : Bool} {parts : List Part},
      step.parts? table expectsOperand isLast = some (parts, next) → ∀ part ∈ parts, P part)
    (hparts : partsOf? table expectsOperand steps = some parts) : ∀ part ∈ parts, P part := by
  induction steps generalizing expectsOperand parts with
  | nil =>
    cases expectsOperand with
    | true => cases hparts
    | false =>
      cases hparts
      simp
  | cons step rest ih =>
    obtain ⟨hstep, hrest⟩ := List.forall_mem_cons.mp h
    obtain ⟨first, next, behind, hfirst, hbehind, rfl⟩ := partsOf?_cons_eq_some_iff.mp hparts
    exact List.forall_mem_append.mpr ⟨hstep hfirst, ih hrest hbehind⟩

theorem declared_of_partsOf {table : OperatorTable} {expectsOperand : Bool} {steps : List Step}
    {parts : List Part} (h : partsOf? table expectsOperand steps = some parts) :
    ∀ part ∈ parts, part.Declared table :=
  forall_mem_partsOf (fun _ _ => declared_of_stepParts) h

/-! ## Results -/

theorem Run.resolve_admissible {table : OperatorTable} {run : Run} {e : Expr}
    (h : run.resolve table = .ok e) :
    ∃ g : Grouping, run.PartsAre table g.parts ∧ (∀ part ∈ g.parts, part.Declared table) ∧
      g.Admissible ∧ g.expr = e := by
  obtain ⟨parts, hparts⟩ := partsAre_of_resolve h
  have hgrouped := ((resolve_answers hparts).eq_ok_iff e).mp h
  obtain ⟨g, hg, hexpr⟩ := Option.map_eq_some_iff.mp hgrouped
  obtain ⟨rfl, hadmissible⟩ := group?_eq_some_iff.mp hg
  obtain ⟨steps, hread, hplaced⟩ := hparts
  exact ⟨g, ⟨steps, hread, hplaced⟩, declared_of_partsOf hplaced, hadmissible, hexpr⟩

theorem mixedRun_admissible :
    ∃ e, mixedRun.resolve .initial = .ok e ∧ e.text = "(+ (pre - (^ x y)) (app f z))" ∧
      ∃ g : Grouping, mixedRun.PartsAre .initial g.parts ∧
        (∀ part ∈ g.parts, part.Declared .initial) ∧ g.Admissible ∧ g.expr = e :=
  ⟨_, rfl, rfl, Run.resolve_admissible rfl⟩

theorem Run.resolve_unique {table : OperatorTable} {run : Run} {parts : List Part}
    (h : run.PartsAre table parts) :
    (∀ g g' : Grouping, g.parts = parts → g.Admissible → g'.parts = parts → g'.Admissible →
      g = g') ∧
    (∀ g : Grouping, g.parts = parts → g.Admissible → run.resolve table = .ok g.expr) ∧
    ((∃ left right span, run.resolve table = .error ⟨.ambiguousChain left right, span⟩) ↔
      ¬∃ g : Grouping, g.parts = parts ∧ g.Admissible) := by
  have hanswers := resolve_answers h
  refine ⟨?_, ?_, ?_⟩
  · intro g g' hparts hg hparts' hg'
    have hfirst := group?_eq_some_iff.mpr ⟨hparts, hg⟩
    have hsecond := group?_eq_some_iff.mpr ⟨hparts', hg'⟩
    exact Option.some.inj (hfirst.symm.trans hsecond)
  · intro g hparts hg
    rw [hanswers.eq_ok_iff, group?_eq_some_iff.mpr ⟨hparts, hg⟩]
    rfl
  · rw [hanswers.clash_iff, Option.map_eq_none_iff, Option.eq_none_iff_forall_ne_some]
    simp [group?_eq_some_iff]

theorem mixedRun_unique :
    ∃ parts, mixedRun.PartsAre .initial parts ∧
      (∀ g g' : Grouping, g.parts = parts → g.Admissible → g'.parts = parts → g'.Admissible →
        g = g') ∧
      (∀ g : Grouping, g.parts = parts → g.Admissible →
        mixedRun.resolve .initial = .ok g.expr) ∧
      ((∃ left right span,
          mixedRun.resolve .initial = .error ⟨.ambiguousChain left right, span⟩) ↔
        ¬∃ g : Grouping, g.parts = parts ∧ g.Admissible) :=
  ⟨_, ⟨_, rfl, rfl⟩, Run.resolve_unique ⟨_, rfl, rfl⟩⟩

example : ∃ span,
    (Run.ofItems [wordItem "a" 0, symbolItem "<" 2, wordItem "b" 4, symbolItem "<" 6,
      wordItem "c" 8] (.point 0)).resolve .initial = .error ⟨.ambiguousChain "<" "<", span⟩ :=
  ⟨_, rfl⟩

end Equational

import Equational.Proofs.Expr.Reading
import Equational.Run.Collect

/-!
# Sections

An operator that can only stand between two operands, with one operand in parentheses, leaves the
other operand open.  Which of the two ends is the operator of the section is settled by the symbols
alone, the front end first.  An operator in front is always found.  One behind its operand is found
unless the operand begins with an operator symbol as well: then that symbol is taken for the
operator of the section, and the one behind lacks its right operand.
-/

namespace Equational

variable {table : OperatorTable} {op : OperatorUse} {run : Run} {e : Expr}

def Atom.parenthesized (items : List RunItem) (runSpan span : Span) : Atom :=
  closedContainer .paren (.elements [⟨items, runSpan⟩] none false none) span

def RunItem.isOperator : RunItem → Bool
  | operator _ => true
  | atom _ | conditional _ _ _ => false

/-- An operator that has its left operand in front of it and its right operand behind it. -/
structure OperatorTable.OnlyJoins (table : OperatorTable) (op : OperatorUse) : Prop where
  isInfix : (table.lookupName op.name .infixOp).isSome
  not_prefix : table.lookupName op.name .prefixOp = none
  not_postfix : table.lookupName op.name .postfixOp = none

/-! ## What parentheses hold -/

theorem parenthesized_leading {items : List RunItem} (hne : items ≠ []) (runSpan span : Span) :
    Atom.parenthesized (.operator op :: items) runSpan span =
      .partialApply op (.ofItems items span) .left span := by
  cases items with
  | nil => exact absurd rfl hne
  | cons first rest => rfl

private theorem operatorForm?_behind {first : RunItem} (hfirst : first.isOperator = false)
    (rest : List RunItem) (runSpan span : Span) :
    operatorForm? ⟨first :: (rest ++ [.operator op]), runSpan⟩ span =
      some (.partialApply op (.ofItems (first :: rest) span) .right span) := by
  have hlast : (first :: (rest ++ [RunItem.operator op])).getLast? = some (.operator op) := by
    rw [← List.cons_append, List.getLast?_concat]
  have hfront : (first :: (rest ++ [RunItem.operator op])).dropLast = first :: rest := by
    rw [← List.cons_append, List.dropLast_concat]
  unfold operatorForm?
  dsimp only [Run.items]
  cases first with
  | operator other => cases hfirst
  | atom a =>
    dsimp only
    rw [hlast, hfront]
  | conditional condition thenBranch conditionalSpan =>
    dsimp only
    rw [hlast, hfront]

theorem parenthesized_behind {first : RunItem} (hfirst : first.isOperator = false)
    (rest : List RunItem) (runSpan span : Span) :
    Atom.parenthesized (first :: (rest ++ [.operator op])) runSpan span =
      .partialApply op (.ofItems (first :: rest) span) .right span := by
  unfold Atom.parenthesized closedContainer
  dsimp only
  rw [operatorForm?_behind hfirst]
  rfl

/-! ## Operands -/

theorem Run.resolve_ofItems (h : run.resolve table = .ok e) (span : Span) :
    (Run.ofItems run.items span).resolve table = .ok e := by
  obtain ⟨items, runSpan⟩ := run
  obtain ⟨parts, hparts⟩ := partsAre_of_resolve h
  have hgrouped := ((resolve_answers hparts).eq_ok_iff e).mp h
  have hparts' : (Run.ofItems items span).PartsAre table parts := hparts
  exact ((resolve_answers hparts').eq_ok_iff e).mpr hgrouped

theorem Run.exists_cons_of_resolve (h : run.resolve table = .ok e) :
    ∃ first rest, run.items = first :: rest := by
  obtain ⟨items, runSpan⟩ := run
  cases items with
  | nil => cases h
  | cons first rest => exact ⟨first, rest, rfl⟩

theorem resolve_partialApply_eq (hole : Hole) (operand : Run) (span : Span) :
    (Atom.partialApply op operand hole span).resolve table =
      assembleSection table op hole (readItems table operand.items) operand.span span := by
  obtain ⟨items, operandSpan⟩ := operand
  rw [Atom.resolve]
  rfl

theorem OperatorTable.OnlyJoins.resolve_partialApply (hop : table.OnlyJoins op) (hole : Hole)
    {operand : Run} (h : operand.resolve table = .ok e) (span : Span) :
    (Atom.partialApply op operand hole span).resolve table =
      .ok (.partialApply op e hole span) := by
  obtain ⟨items, operandSpan⟩ := operand
  rw [Run.resolve] at h
  have hopen (side : OperandSide) :
      assembleSection.assembleOpen table op hole (readItems table items) operandSpan span
        (table.lookupName op.name .infixOp).isSome side = .ok (.partialApply op e hole span) := by
    simp only [assembleSection.assembleOpen, hop.isInfix, if_true, h]
    rfl
  rw [resolve_partialApply_eq]
  unfold assembleSection
  cases hole with
  | left =>
    simp only [hop.not_prefix, Option.isSome_none, Bool.false_eq_true, if_false]
    exact hopen .left
  | right =>
    simp only [hop.not_postfix, Option.isSome_none, Bool.false_and, Bool.false_eq_true, if_false]
    exact hopen .right

/-! ## An operator that lacks its right operand -/

theorem assemble_ne_ok (hop : table.lookupName op.name .postfixOp = none) {last : RunItem}
    (hlast : last.read table = .ok (.operator op)) (items : List RunItem) (span : Span) :
    assemble table span (readItems table (items ++ [last])) ≠ .ok e := by
  intro h
  have hresolve : (Run.mk (items ++ [last]) span).resolve table = .ok e := by
    rw [Run.resolve, h]
  exact Run.getLast_read_ne hresolve hop last List.getLast?_concat hlast

/-- Neither the whole nor what stands behind the operator in front is an expression. -/
theorem assembleSection_left_ne_ok (hop : table.lookupName op.name .postfixOp = none)
    {last : RunItem} (hlast : last.read table = .ok (.operator op)) (first : OperatorUse)
    (rest : List RunItem) (operandSpan span : Span) :
    assembleSection table first .left (readItems table (rest ++ [last])) operandSpan span ≠
      .ok e := by
  intro h
  rcases assembleSection_cases h with hwhole | ⟨inner, hinner, -⟩
  · refine assemble_ne_ok hop hlast (.operator first :: rest) span ?_ (e := e)
    rw [← hwhole, List.cons_append, readItems, RunItem.read]
    rfl
  · exact assemble_ne_ok hop hlast rest _ hinner

theorem resolve_behind_symbol (hop : table.lookupName op.name .postfixOp = none)
    (first : OperatorUse) (rest : List RunItem) (runSpan span : Span) :
    (Atom.parenthesized (.operator first :: (rest ++ [.operator op])) runSpan span).resolve table ≠
      .ok e := by
  rw [parenthesized_leading (by simp), resolve_partialApply_eq]
  exact assembleSection_left_ne_ok hop (by rw [RunItem.read]) first rest _ span

/-! ## Sections -/

theorem resolve_sections (hop : table.OnlyJoins op) (h : run.resolve table = .ok e)
    (runSpan span : Span) :
    (Atom.parenthesized (.operator op :: run.items) runSpan span).resolve table =
      .ok (.partialApply op e .left span) ∧
    (run.items.head?.any RunItem.isOperator = false →
      (Atom.parenthesized (run.items ++ [.operator op]) runSpan span).resolve table =
        .ok (.partialApply op e .right span)) ∧
    (run.items.head?.any RunItem.isOperator = true →
      ∃ problem, (Atom.parenthesized (run.items ++ [.operator op]) runSpan span).resolve table =
        .error problem) := by
  obtain ⟨first, rest, hitems⟩ := Run.exists_cons_of_resolve h
  have hoperand := Run.resolve_ofItems h span
  simp only [hitems, List.head?_cons, Option.any_some, List.cons_append] at hoperand ⊢
  refine ⟨?_, ?_, ?_⟩
  · rw [parenthesized_leading (List.cons_ne_nil first rest)]
    exact hop.resolve_partialApply .left hoperand span
  · intro hfirst
    rw [parenthesized_behind hfirst]
    exact hop.resolve_partialApply .right hoperand span
  · intro hfirst
    cases first with
    | atom a => cases hfirst
    | conditional condition thenBranch conditionalSpan => cases hfirst
    | operator symbol =>
      cases hresult : (Atom.parenthesized (.operator symbol :: (rest ++ [.operator op])) runSpan
        span).resolve table with
      | ok value => exact absurd hresult (resolve_behind_symbol hop.not_postfix symbol rest _ _)
      | error problem => exact ⟨problem, rfl⟩

def productRun : Run :=
  .ofItems [wordItem "y" 0, symbolItem "*" 2, wordItem "z" 4] (.point 0)

/-- In front of the product and behind it the operator makes a section; behind a sign it does
not. -/
theorem plusSections :
    ∃ op product signed, op.text = "+" ∧ OperatorTable.initial.OnlyJoins op ∧
      productRun.resolve .initial = .ok product ∧ product.text = "(* y z)" ∧
      (Atom.parenthesized (.operator op :: productRun.items) productRun.span (.point 9)).resolve
        .initial = .ok (.partialApply op product .left (.point 9)) ∧
      (Atom.parenthesized (productRun.items ++ [.operator op]) productRun.span (.point 9)).resolve
        .initial = .ok (.partialApply op product .right (.point 9)) ∧
      mixedRun.resolve .initial = .ok signed ∧
      ∃ problem, (Atom.parenthesized (mixedRun.items ++ [.operator op]) mixedRun.span
        (.point 9)).resolve .initial = .error problem := by
  have hop : OperatorTable.initial.OnlyJoins ⟨⟨"+", none⟩, .point 6⟩ :=
    ⟨by decide +kernel, by decide +kernel, by decide +kernel⟩
  obtain ⟨product, hproduct, htext⟩ :
      ∃ e, productRun.resolve .initial = .ok e ∧ e.text = "(* y z)" := ⟨_, rfl, rfl⟩
  obtain ⟨signed, hsigned⟩ : ∃ e, mixedRun.resolve .initial = .ok e := ⟨_, rfl⟩
  obtain ⟨hleft, hright, -⟩ := resolve_sections hop hproduct productRun.span (.point 9)
  obtain ⟨-, -, hfails⟩ := resolve_sections hop hsigned mixedRun.span (.point 9)
  exact ⟨_, product, signed, rfl, hop, hproduct, htext, hleft, hright rfl, hsigned, hfails rfl⟩

end Equational

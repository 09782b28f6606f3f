import Equational.Proofs.Expr.Group
import Equational.Proofs.Grouping.Renaming

/-!
# Words as operators in parentheses

A word that the table ranks like a symbol has the symbol's forms in parentheses: alone it is a
literal, and in front of an operand or behind one it makes the same section, application or
diagnostic.  There is one exception.  Symbols are looked for before words, and otherwise what is in
front before what is behind.  So where a word is in front and a symbol behind, it is that symbol
which makes the section, and the word belongs to its operand; of two symbols or two words the one
behind lacks an operand of its own.
-/

namespace Equational

variable {table : OperatorTable} {op other last : OperatorUse} {word : RunItem}

/-! ## A symbol behind the operand -/

theorem error_of_ne_ok {α : Type} {result : Except Diagnostic α}
    (h : ∀ value, result ≠ .ok value) : ∃ problem, result = .error problem := by
  cases result with
  | ok value => exact absurd rfl (h value)
  | error problem => exact ⟨problem, rfl⟩

/-- Without postfix operators an operator behind its operand makes a section, or nothing. -/
theorem resolve_right_section (hlast : table.lookupName last.name .postfixOp = none) (operand : Run)
    (span : Span) (e : Expr) :
    (Atom.partialApply last operand .right span).resolve table = .ok e ↔
      (table.lookupName last.name .infixOp).isSome ∧
        ∃ inner, operand.resolve table = .ok inner ∧ e = .partialApply last inner .right span := by
  have hresolve : operand.resolve table =
      assemble table operand.span (readItems table operand.items) := by
    obtain ⟨items, operandSpan⟩ := operand
    rw [Run.resolve]
    rfl
  rw [resolve_partialApply_eq, hresolve]
  unfold assembleSection
  simp only [hlast, Option.isSome_none, Bool.false_and, Bool.false_eq_true, if_false]
  unfold assembleSection.assembleOpen
  cases (table.lookupName last.name .infixOp).isSome with
  | false =>
    simp only [Bool.false_eq_true, if_false, false_and, iff_false]
    split <;> nofun
  | true =>
    simp only [if_true, true_and, bind_eq_ok_iff]
    constructor
    · rintro ⟨inner, hinner, hnode⟩
      exact ⟨inner, hinner, (Except.ok.inj hnode).symm⟩
    · rintro ⟨inner, hinner, rfl⟩
      exact ⟨inner, hinner, rfl⟩

private theorem resolve_behind_word (hop : table.lookupName op.name .postfixOp = none)
    {first : RunItem}
    (hfirst : wordOperator? table first = some other) (hword : wordOperator? table word = some op)
    (rest : List RunItem) (runSpan span : Span) {e : Expr} :
    (Atom.parenthesized (first :: (rest ++ [word])) runSpan span).resolve table ≠ .ok e := by
  have hlast : ∀ last ∈ (rest ++ [word]).getLast?, last.isOperator = false := by
    rw [List.getLast?_concat]
    rintro _ ⟨⟩
    exact RunItem.isOperator_of_word hword
  rw [resolve_leading_items runSpan span (.inr hfirst) (by simp) hlast]
  exact assembleSection_left_ne_ok hop (read_of_wordOperator hword) other rest _ span

/-! ## Results -/

theorem words_take_symbol_forms (hword : wordOperator? table word = some other)
    (hranks : table.SameRanks op.name other.name) (runSpan span : Span) :
    (∀ rest, (∀ item ∈ rest.getLast?, item.isOperator = false) →
      SameOutcome (Expr.Renamed op other)
        ((Atom.parenthesized (.operator op :: rest) runSpan span).resolve table)
        ((Atom.parenthesized (word :: rest) runSpan span).resolve table)) ∧
    (∀ first middle, first.Rests table →
      SameOutcome (Expr.Renamed op other)
        ((Atom.parenthesized (first :: (middle ++ [.operator op])) runSpan span).resolve table)
        ((Atom.parenthesized (first :: (middle ++ [word])) runSpan span).resolve table)) ∧
    (∀ middle last, table.lookupName last.name .postfixOp = none →
      (∃ problem, (Atom.parenthesized (.operator op :: (middle ++ [.operator last])) runSpan
        span).resolve table = .error problem) ∧
      ∀ e, (Atom.parenthesized (word :: (middle ++ [.operator last])) runSpan span).resolve table =
          .ok e ↔
        (table.lookupName last.name .infixOp).isSome ∧
          ∃ inner, (Run.ofItems (word :: middle) span).resolve table = .ok inner ∧
            e = .partialApply last inner .right span) ∧
    ∀ first front middle, wordOperator? table first = some front →
      table.lookupName op.name .postfixOp = none →
      (∃ problem, (Atom.parenthesized (first :: (middle ++ [word])) runSpan span).resolve table =
        .error problem) ∧
      ∀ e, (Atom.parenthesized (first :: (middle ++ [.operator op])) runSpan span).resolve table =
          .ok e ↔
        (table.lookupName op.name .infixOp).isSome ∧
          ∃ inner, (Run.ofItems (first :: middle) span).resolve table = .ok inner ∧
            e = .partialApply op inner .right span := by
  refine ⟨fun rest hrest => ?_, fun first middle hfirst => ?_, fun middle last hlast => ⟨?_, ?_⟩,
    fun first front middle hfirst hop => ⟨?_, ?_⟩⟩
  · cases rest with
    | nil =>
      rw [resolve_operator runSpan span (.inl rfl), resolve_operator runSpan span (.inr hword)]
      exact .ok (.literal span)
    | cons second others =>
      rw [resolve_leading_items runSpan span (.inl rfl) (List.cons_ne_nil _ _) hrest,
        resolve_leading_items runSpan span (.inr hword) (List.cons_ne_nil _ _) hrest]
      exact renamed_assembleSection hranks .left _ _ span
  · rw [resolve_behind_items runSpan span hfirst (.inl rfl),
      resolve_behind_items runSpan span hfirst (.inr hword)]
    exact renamed_assembleSection hranks .right _ _ span
  · exact error_of_ne_ok fun e => resolve_behind_symbol hlast op middle runSpan span
  · rw [parenthesized_behind (RunItem.isOperator_of_word hword)]
    exact resolve_right_section hlast _ span
  · exact error_of_ne_ok fun e =>
      resolve_behind_word (hranks.eq_none hop) hfirst hword middle runSpan span
  · rw [parenthesized_behind (RunItem.isOperator_of_word hfirst)]
    exact resolve_right_section hop _ span

def negationTable : OperatorTable :=
  (OperatorTable.initial.insert ⟨"neg", 8, .prefixOp⟩).insert ⟨"neg", 6, .infixLeft⟩

def minusUse (start : Nat) : OperatorUse := ⟨⟨"-", none⟩, ⟨start, start + 1⟩⟩

def negUse (start : Nat) : OperatorUse := ⟨⟨"neg", none⟩, ⟨start, start + 3⟩⟩

/-- `(- y)` and `(neg y)` come to the same, and so do `(y -)` and `(y neg)`.  Of `(- y +)` and
`(neg y +)` the one is a diagnostic and the other a section, and so it is with `(neg y neg)` and
`(neg y -)`. -/
theorem negationTable_forms :
    SameOutcome (Expr.Renamed (minusUse 1) (negUse 1))
      ((Atom.parenthesized [.operator (minusUse 1), wordItem "y" 5] ⟨1, 6⟩ ⟨0, 7⟩).resolve
        negationTable)
      ((Atom.parenthesized [wordItem "neg" 1, wordItem "y" 5] ⟨1, 6⟩ ⟨0, 7⟩).resolve
        negationTable) ∧
    SameOutcome (Expr.Renamed (minusUse 3) (negUse 3))
      ((Atom.parenthesized [wordItem "y" 1, .operator (minusUse 3)] ⟨1, 6⟩ ⟨0, 7⟩).resolve
        negationTable)
      ((Atom.parenthesized [wordItem "y" 1, wordItem "neg" 3] ⟨1, 6⟩ ⟨0, 7⟩).resolve
        negationTable) ∧
    (∃ problem, (Atom.parenthesized [.operator (minusUse 1), wordItem "y" 5, symbolItem "+" 7]
      ⟨1, 8⟩ ⟨0, 9⟩).resolve negationTable = .error problem) ∧
    (∃ e, (Atom.parenthesized [wordItem "neg" 1, wordItem "y" 5, symbolItem "+" 7] ⟨1, 8⟩
      ⟨0, 9⟩).resolve negationTable = .ok e ∧ e.text = "(section (pre neg y) + _)") ∧
    (∃ problem, (Atom.parenthesized [wordItem "neg" 1, wordItem "y" 5, wordItem "neg" 7] ⟨1, 10⟩
      ⟨0, 11⟩).resolve negationTable = .error problem) ∧
    ∃ e, (Atom.parenthesized [wordItem "neg" 1, wordItem "y" 5, .operator (minusUse 7)] ⟨1, 10⟩
      ⟨0, 11⟩).resolve negationTable = .ok e ∧ e.text = "(section (pre neg y) - _)" := by
  have hword (start : Nat) : wordOperator? negationTable (wordItem "neg" start) =
      some (negUse start) := rfl
  have hranks (start : Nat) :
      negationTable.SameRanks (minusUse start).name (negUse start).name := by
    intro role
    cases role <;> rfl
  have hy (start : Nat) : (wordItem "y" start).Rests negationTable := ⟨rfl, rfl⟩
  obtain ⟨hleading, -, -⟩ := words_take_symbol_forms (hword 1) (hranks 1) ⟨1, 6⟩ ⟨0, 7⟩
  obtain ⟨-, hbehind, -⟩ := words_take_symbol_forms (hword 3) (hranks 3) ⟨1, 6⟩ ⟨0, 7⟩
  obtain ⟨-, -, hsymbol, -⟩ := words_take_symbol_forms (hword 1) (hranks 1) ⟨1, 8⟩ ⟨0, 9⟩
  obtain ⟨hfails, hmakes⟩ := hsymbol [wordItem "y" 5] ⟨⟨"+", none⟩, ⟨7, 8⟩⟩ rfl
  obtain ⟨-, -, -, hwords⟩ := words_take_symbol_forms (hword 7) (hranks 7) ⟨1, 10⟩ ⟨0, 11⟩
  obtain ⟨hfails', hmakes'⟩ := hwords _ _ [wordItem "y" 5] (hword 1) rfl
  refine ⟨hleading [wordItem "y" 5] ?_, hbehind _ [] (hy 1), hfails, ?_, hfails', ?_⟩
  · rintro _ ⟨⟩
    rfl
  · exact ⟨_, (hmakes _).mpr ⟨rfl, _, rfl, rfl⟩, rfl⟩
  · exact ⟨_, (hmakes' _).mpr ⟨rfl, _, rfl, rfl⟩, rfl⟩

end Equational

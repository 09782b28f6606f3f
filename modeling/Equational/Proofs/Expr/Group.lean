import Equational.Proofs.Expr.Section
import Equational.Proofs.Grouping.Conditional

/-!
# Groups

What parentheses around a few items come to.  An operator is an item by itself, or a word that the
table knows as one; the two are taken alike.  Where neither end of the items is an operator, they
are taken as they would be without the parentheses.
-/

namespace Equational

variable {table : OperatorTable}

/-! ## Operators and operands -/

/-- The item stands for this operator, as a symbol or as a word. -/
def RunItem.Operates (table : OperatorTable) (op : OperatorUse) (item : RunItem) : Prop :=
  item = .operator op ∨ wordOperator? table item = some op

namespace RunItem

variable {item : RunItem} {op : OperatorUse} {e : Expr}

theorem Operates.read (h : item.Operates table op) : item.read table = .ok (.operator op) := by
  rcases h with rfl | hword
  · rw [RunItem.read]
  · exact read_of_wordOperator hword

/-- An item at an end of what stands in parentheses is no operator there. -/
structure Rests (table : OperatorTable) (item : RunItem) : Prop where
  symbol : item.isOperator = false
  word : wordOperator? table item = none

theorem rests_of_read {step : Step} (hread : item.read table = .ok step)
    (hstep : ∀ op, step ≠ .operator op) : item.Rests table where
  symbol := by
    cases item with
    | operator op =>
      rw [RunItem.read] at hread
      exact absurd (Except.ok.inj hread).symm (hstep op)
    | atom a => rfl
    | conditional condition thenBranch span => rfl
  word := by
    refine Option.eq_none_iff_forall_ne_some.mpr fun op hword => ?_
    rw [read_of_wordOperator hword] at hread
    exact absurd (Except.ok.inj hread).symm (hstep op)

theorem isOperator_of_word (h : wordOperator? table item = some op) : item.isOperator = false := by
  cases item with
  | operator op => cases h
  | atom a => rfl
  | conditional condition thenBranch span => rfl

theorem rests_of_operand (hread : item.read table = .ok (.operand e)) : item.Rests table :=
  rests_of_read hread fun _ => nofun

theorem rests_of_conditional {condition : Expr} {thenBranch : Option Expr} {span : Span}
    (hread : item.read table = .ok (.conditional condition thenBranch span)) : item.Rests table :=
  rests_of_read hread fun _ h => by cases h

end RunItem

theorem closedContainer_cases (bracket : Bracket) (body : ContainerBody) (span : Span) :
    closedContainer bracket body span = .container bracket body span ∨
      (∃ op, closedContainer bracket body span = .operatorLiteral op span) ∨
      ∃ op operand hole,
        closedContainer bracket body span = .partialApply op operand hole span := by
  unfold closedContainer
  split
  · rename_i run
    cases hform : operatorForm? run span with
    | none => exact .inl rfl
    | some atom =>
      unfold operatorForm? at hform
      split at hform
      · cases hform
        exact .inr (.inl ⟨_, rfl⟩)
      · cases hform
        exact .inr (.inr ⟨_, _, _, rfl⟩)
      · split at hform <;> cases hform
        exact .inr (.inr ⟨_, _, _, rfl⟩)
  · exact .inl rfl

theorem wordOperator_closedContainer (bracket : Bracket) (body : ContainerBody) (span : Span) :
    wordOperator? table (.atom (closedContainer bracket body span)) = none := by
  rcases closedContainer_cases bracket body span with h | ⟨op, h⟩ | ⟨op, operand, hole, h⟩ <;>
    rw [h] <;> rfl

theorem read_closedContainer {bracket : Bracket} {body : ContainerBody} {span : Span} {e : Expr}
    (h : (closedContainer bracket body span).resolve table = .ok e) :
    (RunItem.atom (closedContainer bracket body span)).read table = .ok (.operand e) := by
  rw [RunItem.read, wordOperator_closedContainer, h]
  rfl

theorem resolve_closedContainer {bracket : Bracket} {body : ContainerBody}
    (h : ∀ run, bracket = .paren → body ≠ .elements [run] none false none) (span : Span) :
    (closedContainer bracket body span).resolve table = body.resolve table bracket span := by
  have hatom : closedContainer bracket body span = .container bracket body span := by
    unfold closedContainer
    split
    · exact absurd rfl (h _ rfl)
    · rfl
  rw [hatom, Atom.resolve]
  exact fun items runSpan hbracket hbody => h ⟨items, runSpan⟩ hbracket hbody

/-! ## Items in parentheses -/

section Items

variable {item first last : RunItem} {op : OperatorUse} {middle rest : List RunItem}
  (runSpan span : Span)

theorem operatorForm?_eq_none {items : List RunItem}
    (hfirst : ∀ first ∈ items.head?, first.isOperator = false)
    (hlast : ∀ last ∈ items.getLast?, last.isOperator = false) :
    operatorForm? ⟨items, runSpan⟩ span = none := by
  unfold operatorForm?
  dsimp only [Run.items]
  split
  · cases hfirst _ rfl
  · cases hfirst _ rfl
  · split
    · rename_i op hlastItem
      cases hlast _ hlastItem
    · rfl

theorem resolve_parenthesized_of_none {items : List RunItem}
    (h : operatorForm? ⟨items, runSpan⟩ span = none) :
    (Atom.parenthesized items runSpan span).resolve table =
      assembleGroup table items (readItems table items) runSpan span := by
  rw [Atom.parenthesized, closedContainer, h, Option.getD_none, Atom.resolve]

/-- Items with no operator at either end are taken as a run. -/
theorem resolve_parenthesized {items : List RunItem}
    (hfirst : ∀ first ∈ items.head?, first.Rests table)
    (hlast : ∀ last ∈ items.getLast?, last.Rests table) :
    (Atom.parenthesized items runSpan span).resolve table =
      assemble table runSpan (readItems table items) := by
  have hform := operatorForm?_eq_none runSpan span (fun first h => (hfirst first h).symbol)
    (fun last h => (hlast last h).symbol)
  have hhead : items.head?.bind (wordOperator? table) = none :=
    Option.bind_eq_none_iff.mpr fun first h => (hfirst first h).word
  have htail : items.getLast?.bind (wordOperator? table) = none :=
    Option.bind_eq_none_iff.mpr fun last h => (hlast last h).word
  rw [resolve_parenthesized_of_none _ _ hform, assembleGroup, hhead, htail]

theorem resolve_operator (h : item.Operates table op) :
    (Atom.parenthesized [item] runSpan span).resolve table = .ok (.operatorLiteral op span) := by
  rcases h with rfl | hword
  · rfl
  · have hform : operatorForm? ⟨[item], runSpan⟩ span = none := by
      refine operatorForm?_eq_none _ _ ?_ ?_ <;> rintro _ ⟨⟩ <;>
        exact RunItem.isOperator_of_word hword
    rw [resolve_parenthesized_of_none _ _ hform, assembleGroup, List.head?_cons, Option.bind_some,
      hword]
    rfl

theorem resolve_leading_items (h : item.Operates table op) (hne : rest ≠ [])
    (hlast : ∀ last ∈ rest.getLast?, last.isOperator = false) :
    (Atom.parenthesized (item :: rest) runSpan span).resolve table =
      assembleSection table op .left (readItems table rest) (itemsSpan rest span) span := by
  rcases h with rfl | hword
  · rw [parenthesized_leading hne, resolve_partialApply_eq]
    rfl
  · have hform : operatorForm? ⟨item :: rest, runSpan⟩ span = none := by
      refine operatorForm?_eq_none _ _ ?_ fun last hmem => hlast last ?_
      · rintro _ ⟨⟩
        exact RunItem.isOperator_of_word hword
      · rwa [List.getLast?_cons_of_ne_nil hne] at hmem
    have hlength : ¬(item :: rest).length = 1 := by simp [hne]
    rw [resolve_parenthesized_of_none _ _ hform, assembleGroup, List.head?_cons, Option.bind_some,
      hword]
    dsimp only
    rw [if_neg hlength]
    rfl

theorem resolve_leading (h : item.Operates table op) (hlast : last.Rests table) :
    (Atom.parenthesized [item, last] runSpan span).resolve table =
      assembleSection table op .left (readItems table [last]) (itemsSpan [last] span) span := by
  refine resolve_leading_items runSpan span h (List.cons_ne_nil _ _) ?_
  rintro _ ⟨⟩
  exact hlast.symbol

theorem resolve_behind_items (hfirst : first.Rests table) (h : item.Operates table op) :
    (Atom.parenthesized (first :: (middle ++ [item])) runSpan span).resolve table =
      assembleSection table op .right (readItems table (first :: middle))
        (itemsSpan (first :: middle) span) span := by
  rcases h with rfl | hword
  · rw [parenthesized_behind hfirst.symbol, resolve_partialApply_eq]
    rfl
  · have hgetLast : (first :: (middle ++ [item])).getLast? = some item := by
      rw [← List.cons_append, List.getLast?_concat]
    have hform : operatorForm? ⟨first :: (middle ++ [item]), runSpan⟩ span = none := by
      refine operatorForm?_eq_none _ _ ?_ ?_
      · rintro _ ⟨⟩
        exact hfirst.symbol
      · rw [hgetLast]
        rintro _ ⟨⟩
        exact RunItem.isOperator_of_word hword
    have hhead : (first :: (middle ++ [item])).head?.bind (wordOperator? table) = none :=
      hfirst.word
    have htail : (first :: (middle ++ [item])).getLast?.bind (wordOperator? table) = some op := by
      rw [hgetLast]
      exact hword
    have hfront : (first :: (middle ++ [item])).dropLast = first :: middle := by
      rw [← List.cons_append, List.dropLast_concat]
    rw [resolve_parenthesized_of_none _ _ hform, assembleGroup, hhead, htail, hfront]
    dsimp only
    rw [readItems_eq_map, ← List.map_dropLast, hfront, ← readItems_eq_map]

theorem resolve_behind (hfirst : first.Rests table) (h : item.Operates table op) :
    (Atom.parenthesized [first, item] runSpan span).resolve table =
      assembleSection table op .right (readItems table [first]) (itemsSpan [first] span) span := by
  rw [← List.nil_append [item]]
  exact resolve_behind_items runSpan span hfirst h

end Items

/-! ## Short runs -/

section Short

variable {span : Span} {op : OperatorUse} {e left right condition last : Expr}

theorem assemble_application :
    assemble table span [.ok (.operand left), .ok (.operand right)] =
      .ok (.apply left right (left.span.through right.span)) := rfl

theorem assemble_conditional (thenBranch : Option Expr) (conditionalSpan : Span) :
    assemble table span [.ok (.conditional condition thenBranch conditionalSpan),
      .ok (.operand last)] = .ok (conditionalNode condition thenBranch conditionalSpan last) := rfl

private theorem assemble_prefixed (h : (table.lookupName op.name .prefixOp).isSome) :
    assemble table span [.ok (.operator op), .ok (.operand e)] = .ok (prefixNode op e) := by
  obtain ⟨entry, hentry⟩ := Option.isSome_iff_exists.mp h
  have hstep : takeLeading table ⟨[], []⟩ op = .ok ⟨⟨[], [.prefixed op entry]⟩, true⟩ := by
    rw [takeLeading, hentry]
    rfl
  have hsteps : takeSteps table ⟨⟨[], []⟩, true⟩ [.operator op, .operand e] =
      .ok ⟨⟨[e], [.prefixed op entry]⟩, false⟩ := by
    rw [takeSteps, takeStep, if_pos rfl, hstep]
    rfl
  change arrange table span [.operator op, .operand e] = _
  rw [arrange, hsteps]
  rfl

theorem assemble_binary (h : (table.lookupName op.name .infixOp).isSome)
    (hbehind : table.lookupName op.name .postfixOp = none) :
    assemble table span [.ok (.operand left), .ok (.operator op), .ok (.operand right)] =
      .ok (binaryNode op left right) := by
  obtain ⟨entry, hentry⟩ := Option.isSome_iff_exists.mp h
  have hstep : takeFollowing table ⟨[left], []⟩ false op =
      .ok ⟨⟨[left], [.binary op entry]⟩, true⟩ := by
    rw [takeFollowing, hentry, hbehind]
    rfl
  have hsteps : takeSteps table ⟨⟨[], []⟩, true⟩ [.operand left, .operator op, .operand right] =
      .ok ⟨⟨[right, left], [.binary op entry]⟩, false⟩ := by
    have hfirst : takeStep table ⟨⟨[], []⟩, true⟩ false (.operand left) =
        .ok ⟨⟨[left], []⟩, false⟩ := rfl
    have hsecond : takeStep table ⟨⟨[left], []⟩, false⟩ false (.operator op) =
        .ok ⟨⟨[left], [.binary op entry]⟩, true⟩ := hstep
    rw [takeSteps, List.isEmpty_cons, hfirst]
    change takeSteps table ⟨⟨[left], []⟩, false⟩ [.operator op, .operand right] = _
    rw [takeSteps, List.isEmpty_cons, hsecond]
    rfl
  change arrange table span [.operand left, .operator op, .operand right] = _
  rw [arrange, hsteps]
  rfl

variable (operandSpan : Span)

theorem section_prefixed (h : (table.lookupName op.name .prefixOp).isSome) :
    assembleSection table op .left [.ok (.operand e)] operandSpan span = .ok (prefixNode op e) := by
  unfold assembleSection
  simp only [h, if_true]
  exact assemble_prefixed h

theorem section_left (h : (table.lookupName op.name .infixOp).isSome)
    (hleading : table.lookupName op.name .prefixOp = none) :
    assembleSection table op .left [.ok (.operand e)] operandSpan span =
      .ok (.partialApply op e .left span) := by
  unfold assembleSection
  simp only [hleading, Option.isSome_none, Bool.false_eq_true, if_false]
  simp only [assembleSection.assembleOpen, h, if_true]
  rfl

theorem section_right (h : (table.lookupName op.name .infixOp).isSome) :
    assembleSection table op .right [.ok (.operand e)] operandSpan span =
      .ok (.partialApply op e .right span) := by
  unfold assembleSection
  simp only [h, Bool.not_true, Bool.and_false, Bool.false_eq_true, if_false]
  simp only [assembleSection.assembleOpen, if_true]
  rfl

end Short

end Equational

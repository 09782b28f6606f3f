import Equational.Proofs.Grouping.Resolution

/-!
# From readings to expressions

The readings of the items of a run are grouped, or taken as an operator with one of its operands.
What is in parentheses comes down to one of these, or to an operator by itself.
-/

namespace Equational

variable {table : OperatorTable}

/-! ## Readings of items -/

theorem read_of_wordOperator {item : RunItem} {op : OperatorUse}
    (h : wordOperator? table item = some op) : item.read table = .ok (.operator op) := by
  cases item with
  | atom a => simp [RunItem.read, h]
  | operator other => cases h
  | conditional condition thenBranch span => cases h

theorem readItems_append (front back : List RunItem) :
    readItems table (front ++ back) = readItems table front ++ readItems table back := by
  induction front with
  | nil => rfl
  | cons item rest ih => simp [readItems, ih]

theorem readItems_eq_map (items : List RunItem) :
    readItems table items = items.map fun item => item.read table := by
  induction items with
  | nil => rw [readItems, List.map_nil]
  | cons item rest ih => rw [readItems, ih, List.map_cons]

theorem mapM_eq_ok {readings : Reading} {steps : List Step} (h : readings.mapM id = .ok steps) :
    readings = steps.map .ok := by
  induction readings generalizing steps with
  | nil =>
    cases h
    rfl
  | cons first rest ih =>
    obtain ⟨step, others, rfl, hrest, rfl⟩ := mapM_cons_eq_ok_iff.mp h
    rw [ih hrest]
    rfl

/-! ## Last steps -/

private theorem getLast_of_partsOf {op : OperatorUse}
    (h : table.lookupName op.name .postfixOp = none)
    {expectsOperand : Bool} {steps : List Step} {parts : List Part}
    (hparts : partsOf? table expectsOperand steps = some parts) :
    steps.getLast? ≠ some (.operator op) := by
  induction steps generalizing expectsOperand parts with
  | nil => nofun
  | cons step rest ih =>
    obtain ⟨first, next, behind, hfirst, hbehind, -⟩ := partsOf?_cons_eq_some_iff.mp hparts
    cases rest with
    | cons second others =>
      rw [List.getLast?_cons_cons]
      exact ih hbehind
    | nil =>
      rintro ⟨⟩
      have hexpects : next = true := by
        cases expectsOperand with
        | true =>
          obtain ⟨entry, -, hentry⟩ := Option.map_eq_some_iff.mp hfirst
          cases hentry
          rfl
        | false =>
          rcases followingParts?_cases hfirst with
            ⟨_, hbehind, -⟩ | ⟨_, -, -, hnext⟩ | ⟨_, -, -, hnext⟩
          · rw [h] at hbehind
            cases hbehind
          · exact hnext
          · exact hnext
      subst hexpects
      cases hbehind

theorem Run.getLast_read_ne {run : Run} {e : Expr} (h : run.resolve table = .ok e)
    {op : OperatorUse} (hbehind : table.lookupName op.name .postfixOp = none) :
    ∀ item ∈ run.items.getLast?, item.read table ≠ .ok (.operator op) := by
  intro item hitem hop
  obtain ⟨parts, steps, hread, hparts⟩ := run.partsAre_of_resolve h
  have hreadings := mapM_eq_ok hread
  rw [readItems_eq_map] at hreadings
  have hlast : (run.items.map fun item => item.read table).getLast? =
      some (.ok (.operator op)) := by
    rw [List.getLast?_map, Option.mem_def.mp hitem, ← hop]
    rfl
  rw [hreadings, List.getLast?_map] at hlast
  obtain ⟨step, hstep, hoperator⟩ := Option.map_eq_some_iff.mp hlast
  cases hoperator
  exact getLast_of_partsOf hbehind hparts hstep

/-! ## Groupings -/

theorem grouping_of_assemble {span : Span} {readings : Reading} {e : Expr}
    (h : assemble table span readings = .ok e) :
    ∃ (steps : List Step) (g : Grouping), readings.mapM id = .ok steps ∧
      partsOf? table true steps = some g.parts ∧ g.expr = e := by
  obtain ⟨steps, hread, harrange⟩ := steps_of_assemble h
  obtain ⟨parts, hparts⟩ := partsOf?_of_arrange harrange
  have hgrouped := ((arrange_answers hparts span).eq_ok_iff e).mp harrange
  obtain ⟨g, hg, hexpr⟩ := Option.map_eq_some_iff.mp hgrouped
  obtain ⟨rfl, -⟩ := group?_eq_some_iff.mp hg
  exact ⟨steps, g, hread, hparts, hexpr⟩

/-! ## Sections -/

def Hole.readings (op : OperatorUse) (operand : Reading) : Hole → Reading
  | left => .ok (.operator op) :: operand
  | right => operand ++ [.ok (.operator op)]

def Hole.steps (op : OperatorUse) (operand : List Step) : Hole → List Step
  | left => .operator op :: operand
  | right => operand ++ [.operator op]

theorem Hole.steps_of_readings {hole : Hole} {op : OperatorUse} {operand : Reading}
    {steps : List Step} (h : (hole.readings op operand).mapM id = .ok steps) :
    ∃ inner, operand.mapM id = .ok inner ∧ steps = hole.steps op inner := by
  cases hole with
  | left =>
    obtain ⟨step, inner, hstep, hinner, rfl⟩ := mapM_cons_eq_ok_iff.mp h
    cases hstep
    exact ⟨inner, hinner, rfl⟩
  | right =>
    obtain ⟨inner, last, hinner, hlast, rfl⟩ := mapM_append_eq_ok_iff.mp h
    cases hlast
    exact ⟨inner, hinner, rfl⟩

theorem Hole.readings_eq_steps {hole : Hole} {op : OperatorUse} {operand : Reading}
    {inner : List Step} (h : operand.mapM id = .ok inner) :
    (hole.readings op operand).mapM id = .ok (hole.steps op inner) := by
  cases hole with
  | left => exact mapM_cons_eq_ok_iff.mpr ⟨.operator op, inner, rfl, h, rfl⟩
  | right => exact mapM_append_eq_ok_iff.mpr ⟨inner, [.operator op], h, rfl, rfl⟩

/-- An operator is applied to its operand, or waits for another one.  It waits in front of its
operand only if it is no prefix operator. -/
theorem assembleSection_cases {op : OperatorUse} {hole : Hole} {operand : Reading}
    {operandSpan span : Span} {e : Expr}
    (h : assembleSection table op hole operand operandSpan span = .ok e) :
    assemble table span (hole.readings op operand) = .ok e ∨
      ∃ inner, assemble table operandSpan operand = .ok inner ∧
        e = .partialApply op inner hole span ∧ (table.lookupName op.name .infixOp).isSome ∧
        (hole = .left → table.lookupName op.name .prefixOp = none) := by
  have hopen {hasInfix : Bool} {side : OperandSide}
      (h : assembleSection.assembleOpen table op hole operand operandSpan span hasInfix side =
        .ok e) : ∃ inner, assemble table operandSpan operand = .ok inner ∧
          e = .partialApply op inner hole span ∧ hasInfix = true := by
    unfold assembleSection.assembleOpen at h
    split at h
    · rename_i hasInfix
      obtain ⟨inner, hinner, hnode⟩ := bind_eq_ok_iff.mp h
      exact ⟨inner, hinner, (Except.ok.inj hnode).symm, hasInfix⟩
    · split at h <;> cases h
  unfold assembleSection at h
  cases hole with
  | left =>
    dsimp only at h
    split at h
    · exact .inl h
    · rename_i hprefixed
      obtain ⟨inner, hinner, hnode, hinfixed⟩ := hopen h
      exact .inr ⟨inner, hinner, hnode, hinfixed, fun _ => by simpa using hprefixed⟩
  | right =>
    dsimp only at h
    split at h
    · exact .inl h
    · obtain ⟨inner, hinner, hnode, hinfixed⟩ := hopen h
      exact .inr ⟨inner, hinner, hnode, hinfixed, nofun⟩

/-! ## Groups -/

/-- In parentheses stands an operator, an operator with an operand, or an ordinary run. -/
theorem assembleGroup_cases {items : List RunItem} {runSpan span : Span} {e : Expr}
    (h : assembleGroup table items (readItems table items) runSpan span = .ok e) :
    (∃ op, readItems table items = [.ok (.operator op)] ∧ e = .operatorLiteral op span) ∨
      (∃ (op : OperatorUse) (hole : Hole) (operand : Reading) (operandSpan : Span),
        readItems table items = hole.readings op operand ∧
        assembleSection table op hole operand operandSpan span = .ok e) ∨
      assemble table runSpan (readItems table items) = .ok e := by
  unfold assembleGroup at h
  split at h
  · rename_i op hfirst
    obtain ⟨item, hitem, hword⟩ := Option.bind_eq_some_iff.mp hfirst
    obtain ⟨rest, rfl⟩ := List.head?_eq_some_iff.mp hitem
    have hread := read_of_wordOperator hword
    split at h
    · rename_i hlength
      obtain rfl : rest = [] := by simpa using hlength
      cases h
      exact .inl ⟨op, by simp [readItems, hread], rfl⟩
    · refine .inr (.inl ⟨op, .left, _, _, ?_, h⟩)
      rw [readItems, hread, List.tail_cons]
      rfl
  · rename_i op _ hlast
    obtain ⟨item, hitem, hword⟩ := Option.bind_eq_some_iff.mp hlast
    obtain ⟨front, rfl⟩ := List.getLast?_eq_some_iff.mp hitem
    have hreadings : readItems table (front ++ [item]) =
        readItems table front ++ [.ok (.operator op)] := by
      rw [readItems_append]
      simp [readItems, read_of_wordOperator hword]
    refine .inr (.inl ⟨op, .right, _, _, ?_, h⟩)
    rw [hreadings, List.dropLast_concat]
    rfl
  · exact .inr (.inr h)

theorem Atom.resolve_container (bracket : Bracket) (body : ContainerBody) (span : Span) :
    (∃ items runSpan, body = .elements [⟨items, runSpan⟩] none false none ∧
      ∀ table, (Atom.container bracket body span).resolve table =
        assembleGroup table items (readItems table items) runSpan span) ∨
    ∀ table, (Atom.container bracket body span).resolve table =
      body.resolve table bracket span := by
  by_cases hgroup : ∃ items runSpan, bracket = .paren ∧
      body = .elements [⟨items, runSpan⟩] none false none
  · obtain ⟨items, runSpan, rfl, rfl⟩ := hgroup
    exact .inl ⟨items, runSpan, rfl, fun _ => rfl⟩
  · refine .inr fun table => ?_
    rw [Atom.resolve]
    intro items runSpan hbracket hbody
    exact hgroup ⟨items, runSpan, hbracket, hbody⟩

end Equational

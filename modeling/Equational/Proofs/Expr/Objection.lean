import Equational.Proofs.Grouping.Balance
import Equational.Proofs.Yield

/-!
# What resolving may report

A diagnostic of a run comes from something that is in it, at any depth: a run without items, an
operator that is written there, or two operators that do not associate.  That the stacks run out of
operands is none of the possibilities.
-/

namespace Equational

/-! ## Runs inside a run -/

mutual

/-- The run itself and the runs inside it, at any depth. -/
def Run.nested : Run → List Run
  | ⟨items, span⟩ => ⟨items, span⟩ :: itemsNested items

def itemsNested : List RunItem → List Run
  | [] => []
  | item :: rest => item.nested ++ itemsNested rest

def RunItem.nested : RunItem → List Run
  | .atom a => a.nested
  | .operator _ => []
  | .conditional condition thenBranch _ => condition.nested ++ optionNested thenBranch

def Atom.nested : Atom → List Run
  | .container _ body _ => body.nested
  | .partialApply _ operand _ _ => operand.nested
  | .lambda parameters body _ => itemsNested parameters ++ body.nested
  | .identifier _ _ | .declared _ _ | .typed _ _ _ | .number _ _ | .string _ _
  | .operatorLiteral _ _ => []

def ContainerBody.nested : ContainerBody → List Run
  | .empty => []
  | .elements runs _ _ tail => runsNested runs ++ optionNested tail
  | .enumeration runs bound => runsNested runs ++ optionNested bound
  | .comprehension template generators => template.nested ++ runsNested generators

def runsNested : List Run → List Run
  | [] => []
  | run :: rest => run.nested ++ runsNested rest

def optionNested : Option Run → List Run
  | none => []
  | some run => run.nested

end

/-! ## Assembling -/

section Assembling

variable {table : OperatorTable} {occurs : OperatorUse → Prop} {vacant : Span → Prop}

theorem occurs_operator {op : OperatorUse} (h : occurs op) : (Step.operator op).Occurs occurs := by
  intro other hother
  cases hother
  exact h

def Reading.Objects (table : OperatorTable) (occurs : OperatorUse → Prop) (vacant : Span → Prop)
    (readings : Reading) : Prop :=
  ∀ reading ∈ readings, EndsIn (Objection table occurs vacant) (Step.Occurs occurs) reading

theorem Reading.Objects.mapM {readings : Reading} (h : readings.Objects table occurs vacant) :
    EndsIn (Objection table occurs vacant) (fun steps => ∀ step ∈ steps, step.Occurs occurs)
      (readings.mapM id) := by
  induction readings with
  | nil => exact List.forall_mem_nil _
  | cons first rest ih =>
    obtain ⟨hfirst, hrest⟩ := List.forall_mem_cons.mp h
    rw [List.mapM_cons]
    refine EndsIn.bind hfirst fun step hstep => (ih hrest).bind fun steps hsteps => ?_
    exact List.forall_mem_cons.mpr ⟨hstep, hsteps⟩

theorem eq_nil_of_readItems {items : List RunItem} (h : readItems table items = []) :
    items = [] := by
  rwa [readItems_eq_map, List.map_eq_nil_iff] at h

theorem ends_assemble {span : Span} {readings : Reading}
    (h : readings.Objects table occurs vacant) (hempty : readings = [] → vacant span) :
    EndsIn (Objection table occurs vacant) (fun _ => True) (assemble table span readings) := by
  unfold assemble
  split
  · rename_i hnone
    exact .emptyRun span (hempty (List.isEmpty_iff.mp hnone))
  · exact h.mapM.bind fun steps hsteps => ends_arrange span hsteps

theorem ends_assembleSection {op : OperatorUse} (hop : occurs op) (hole : Hole) {operand : Reading}
    {operandSpan : Span} (h : operand.Objects table occurs vacant)
    (hempty : operand = [] → vacant operandSpan) (span : Span) :
    EndsIn (Objection table occurs vacant) (fun _ => True)
      (assembleSection table op hole operand operandSpan span) := by
  have hoperator : EndsIn (Objection table occurs vacant) (Step.Occurs occurs)
      (.ok (.operator op)) := occurs_operator hop
  have hopen (hasInfix : Bool) (side : OperandSide) :
      EndsIn (Objection table occurs vacant) (fun _ => True)
        (assembleSection.assembleOpen table op hole operand operandSpan span hasInfix side) := by
    unfold assembleSection.assembleOpen
    split
    · exact (ends_assemble h hempty).bind fun _ _ => trivial
    · split
      · exact .missing _ _ _
      · exact .undeclared op hop
  unfold assembleSection
  dsimp only
  split
  · split
    · exact ends_assemble (List.forall_mem_cons.mpr ⟨hoperator, h⟩) (by simp)
    · exact hopen _ _
  · split
    · have hall := List.forall_mem_append.mpr ⟨h, List.forall_mem_singleton.mpr hoperator⟩
      exact ends_assemble hall (by simp)
    · exact hopen _ _

theorem ends_assembleGroup {items : List RunItem} {runSpan : Span}
    (hitems : ∀ item ∈ items, ∀ op, wordOperator? table item = some op → occurs op)
    (h : (readItems table items).Objects table occurs vacant)
    (hempty : items = [] → vacant runSpan) (span : Span) :
    EndsIn (Objection table occurs vacant) (fun _ => True)
      (assembleGroup table items (readItems table items) runSpan span) := by
  unfold assembleGroup
  split
  · rename_i op hfirst
    obtain ⟨item, hitem, hword⟩ := Option.bind_eq_some_iff.mp hfirst
    obtain ⟨rest, rfl⟩ := List.head?_eq_some_iff.mp hitem
    have hop := hitems item List.mem_cons_self op hword
    split
    · trivial
    · rename_i hlength
      refine ends_assembleSection hop .left
        (fun reading hmem => h reading (List.mem_of_mem_tail hmem)) ?_ span
      intro htail
      rw [readItems_eq_map, List.map_cons, List.tail_cons, List.map_eq_nil_iff] at htail
      exact absurd (congrArg (·.length + 1) htail) hlength
  · rename_i op hfirst hlast
    obtain ⟨item, hitem, hword⟩ := Option.bind_eq_some_iff.mp hlast
    obtain ⟨front, rfl⟩ := List.getLast?_eq_some_iff.mp hitem
    have hop := hitems item (List.mem_append_right front List.mem_cons_self) op hword
    refine ends_assembleSection hop .right
      (fun reading hmem => h reading (List.dropLast_subset _ hmem)) ?_ span
    intro hfront
    rw [readItems_eq_map, List.map_append, List.map_singleton, List.dropLast_concat,
      List.map_eq_nil_iff] at hfront
    -- the word would be the first item as well
    subst hfront
    exact absurd hword (by simp [show wordOperator? table item = none from hfirst])
  · exact ends_assemble h fun hnone => hempty (eq_nil_of_readItems hnone)

end Assembling

/-! ## Runs, at any depth -/

/-- The operators that are written in something, and the runs without items in it. -/
structure Witnessed (occurs : OperatorUse → Prop) (vacant : Span → Prop)
    (yield : List Occurrence) (nested : List Run) : Prop where
  occurs : ∀ op, .operator op ∈ yield → occurs op
  vacant : ∀ run ∈ nested, run.items = [] → vacant run.span

namespace Witnessed

variable {occurs : OperatorUse → Prop} {vacant : Span → Prop} {front back : List Occurrence}
  {inFront behind : List Run}

theorem left (h : Witnessed occurs vacant (front ++ back) (inFront ++ behind)) :
    Witnessed occurs vacant front inFront where
  occurs op hop := h.occurs op (List.mem_append_left _ hop)
  vacant run hrun := h.vacant run (List.mem_append_left _ hrun)

theorem right (h : Witnessed occurs vacant (front ++ back) (inFront ++ behind)) :
    Witnessed occurs vacant back behind where
  occurs op hop := h.occurs op (List.mem_append_right _ hop)
  vacant run hrun := h.vacant run (List.mem_append_right _ hrun)

theorem of_hole {op : OperatorUse} {operand : List Occurrence} {hole : Hole} {nested : List Run}
    (h : Witnessed occurs vacant (hole.yield op operand) nested) :
    occurs op ∧ Witnessed occurs vacant operand nested := by
  cases hole with
  | left =>
    exact ⟨h.occurs op List.mem_cons_self,
      fun other hother => h.occurs other (List.mem_cons_of_mem _ hother), h.vacant⟩
  | right =>
    exact ⟨h.occurs op (List.mem_append_right _ List.mem_cons_self),
      fun other hother => h.occurs other (List.mem_append_left _ hother), h.vacant⟩

theorem of_run {table : OperatorTable} {items : List RunItem} {span : Span}
    (h : Witnessed occurs vacant (itemsYield table items) (⟨items, span⟩ :: itemsNested items)) :
    Witnessed occurs vacant (itemsYield table items) (itemsNested items) ∧
      (items = [] → vacant span) :=
  ⟨⟨h.occurs, fun run hrun => h.vacant run (List.mem_cons_of_mem _ hrun)⟩,
    h.vacant ⟨items, span⟩ List.mem_cons_self⟩

theorem occurs_item {table : OperatorTable} {items : List RunItem} {nested : List Run}
    (h : Witnessed occurs vacant (itemsYield table items) nested) {item : RunItem}
    (hitem : item ∈ items) {op : OperatorUse} (hop : item.yield table = [.operator op]) :
    occurs op := by
  refine h.occurs op ?_
  clear h
  induction items with
  | nil => cases hitem
  | cons first rest ih =>
    rw [itemsYield]
    rcases List.mem_cons.mp hitem with rfl | hrest
    · rw [hop]
      exact List.mem_append_left _ List.mem_cons_self
    · exact List.mem_append_right _ (ih hrest)

end Witnessed

section Runs

variable {table : OperatorTable} {occurs : OperatorUse → Prop} {vacant : Span → Prop}

mutual

theorem Run.ends_resolve : ∀ run : Run, Witnessed occurs vacant (run.yield table) run.nested →
    EndsIn (Objection table occurs vacant) (fun _ => True) (run.resolve table)
  | ⟨items, span⟩, h => by
    rw [Run.yield, Run.nested] at h
    obtain ⟨hitems, hempty⟩ := h.of_run
    rw [Run.resolve]
    exact ends_assemble (objects_readItems items hitems) fun hnone =>
      hempty (eq_nil_of_readItems hnone)

theorem objects_readItems : ∀ items : List RunItem,
    Witnessed occurs vacant (itemsYield table items) (itemsNested items) →
      (readItems table items).Objects table occurs vacant
  | [], _ => List.forall_mem_nil _
  | item :: rest, h =>
    List.forall_mem_cons.mpr ⟨item.ends_read h.left, objects_readItems rest h.right⟩

theorem RunItem.ends_read : ∀ item : RunItem,
    Witnessed occurs vacant (item.yield table) item.nested →
      EndsIn (Objection table occurs vacant) (Step.Occurs occurs) (item.read table)
  | .operator op, h => occurs_operator (h.occurs op List.mem_cons_self)
  | .atom a, h => by
    cases hword : wordOperator? table (.atom a) with
    | some op =>
      rw [read_of_wordOperator hword]
      rw [yield_of_wordOperator hword] at h
      exact occurs_operator (h.occurs op List.mem_cons_self)
    | none =>
      simp only [RunItem.read, hword]
      exact (a.ends_resolve h).bind fun _ _ _ hop => by cases hop
  | .conditional condition thenBranch span, h =>
    (condition.ends_resolve h.left).bind fun _ _ =>
      (ends_resolveOption thenBranch h.right).bind fun _ _ _ hop => by cases hop

theorem Atom.ends_resolve : ∀ a : Atom, Witnessed occurs vacant (a.yield table) a.nested →
    EndsIn (Objection table occurs vacant) (fun _ => True) (a.resolve table)
  | .identifier _ _, _ | .declared _ _, _ | .typed _ _ _, _ | .number _ _, _ | .string _ _, _
  | .operatorLiteral _ _, _ => trivial
  | .partialApply op ⟨items, operandSpan⟩ hole span, h => by
    rw [Atom.yield, Atom.nested, Run.yield, Run.nested] at h
    obtain ⟨hop, hoperand⟩ := h.of_hole
    obtain ⟨hitems, hempty⟩ := hoperand.of_run
    exact ends_assembleSection hop hole (objects_readItems items hitems)
      (fun hnone => hempty (eq_nil_of_readItems hnone)) span
  | .lambda [] _ span, _ => .lambda _ span
  | .lambda (first :: rest) body span, h =>
    (ends_resolveParameters (first :: rest) h.left).bind fun _ _ =>
      (body.ends_resolve h.right).bind fun _ _ => trivial
  | .container bracket body span, h => by
    rcases Atom.resolve_container bracket body span with ⟨items, runSpan, rfl, hgroup⟩ | hbody
    · rw [hgroup]
      have hrun : Witnessed occurs vacant (itemsYield table items)
          (⟨items, runSpan⟩ :: itemsNested items) := by
        simpa [Atom.yield, ContainerBody.yield, runsYield, optionYield, Run.yield, Atom.nested,
          ContainerBody.nested, runsNested, optionNested, Run.nested] using h
      obtain ⟨hitems, hempty⟩ := hrun.of_run
      refine ends_assembleGroup (fun item hitem op hword => ?_) (objects_readItems items hitems)
        hempty span
      exact hitems.occurs_item hitem (yield_of_wordOperator hword)
    · rw [hbody]
      exact body.ends_resolve bracket span h

theorem ends_resolveParameters : ∀ items : List RunItem,
    Witnessed occurs vacant (itemsYield table items) (itemsNested items) →
      EndsIn (Objection table occurs vacant) (fun _ => True) (resolveParameters table items)
  | [], _ => trivial
  | .atom a :: rest, h => (a.ends_resolve h.left).bind fun _ _ =>
    (ends_resolveParameters rest h.right).bind fun _ _ => trivial
  | .operator op :: _, _ => .lambda _ op.span
  | .conditional _ _ span :: _, _ => .lambda _ span

theorem ContainerBody.ends_resolve (bracket : Bracket) (span : Span) : ∀ body : ContainerBody,
    Witnessed occurs vacant (body.yield table) body.nested →
      EndsIn (Objection table occurs vacant) (fun _ => True) (body.resolve table bracket span)
  | .empty, _ => trivial
  | .elements runs _ _ tail, h => (ends_resolveAll runs h.left).bind fun _ _ =>
    (ends_resolveOption tail h.right).bind fun _ _ => trivial
  | .enumeration runs bound, h => (ends_resolveAll runs h.left).bind fun _ _ =>
    (ends_resolveOption bound h.right).bind fun _ _ => trivial
  | .comprehension template generators, h => (template.ends_resolve h.left).bind fun _ _ =>
    (ends_resolveAll generators h.right).bind fun _ _ => trivial

theorem ends_resolveAll : ∀ runs : List Run,
    Witnessed occurs vacant (runsYield table runs) (runsNested runs) →
      EndsIn (Objection table occurs vacant) (fun _ => True) (resolveAll table runs)
  | [], _ => trivial
  | run :: rest, h => (run.ends_resolve h.left).bind fun _ _ =>
    (ends_resolveAll rest h.right).bind fun _ _ => trivial

theorem ends_resolveOption : ∀ run : Option Run,
    Witnessed occurs vacant (optionYield table run) (optionNested run) →
      EndsIn (Objection table occurs vacant) (fun _ => True) (resolveOption table run)
  | none, _ => trivial
  | some run, h => (run.ends_resolve h).bind fun _ _ => trivial

end

end Runs

/-! ## Results -/

/-- Every diagnostic of a run is about an operator that is written in it or about a run without
items inside it. -/
theorem Run.objection_of_error {table : OperatorTable} {run : Run} {diagnostic : Diagnostic}
    (h : run.resolve table = .error diagnostic) :
    Objection table (fun op => .operator op ∈ run.yield table)
      (fun span => ∃ inner ∈ run.nested, inner.items = [] ∧ inner.span = span) diagnostic :=
  (run.ends_resolve ⟨fun _ hop => hop, fun inner hinner hnone =>
    ⟨inner, hinner, hnone, rfl⟩⟩).of_error h

/-- The steps may be those of any run, and the table may hold operators of any fixity. -/
theorem operands_never_run_out (table : OperatorTable) :
    (∀ steps arrangement rest, Reached table steps arrangement rest →
      takeSteps table arrangement rest = takeSteps table ⟨⟨[], []⟩, true⟩ steps ∧
      arrangement.held.operands.length = joiningCount arrangement.held.pending +
        (if arrangement.expectsOperand then 0 else 1) ∧
      (arrangement.expectsOperand = false → arrangement.held.Suffice)) ∧
    ∀ (run : Run) (span : Span), run.resolve table = .error ⟨.emptyRun, span⟩ →
      ∃ inner ∈ run.nested, inner.items = [] ∧ inner.span = span := by
  refine ⟨fun steps arrangement rest h => ⟨h.takeSteps_eq, h.isSound.count, ?_⟩, ?_⟩
  · intro hholds
    exact Stacks.suffice (h.isSound.holding (by simp [hholds])).count
  · intro run span h
    cases Run.objection_of_error h with
    | emptyRun span hempty => exact hempty

def vacantRun : Run :=
  .ofItems [wordItem "f" 0,
    .atom (.container .paren (.elements [⟨[], .point 3⟩] none false none) ⟨2, 4⟩)] (.point 0)

/-- Behind a sum of two operands one operator is pending, and both of them are held. -/
theorem vacantRun_objects :
    (∃ x plus y arrangement,
      Reached .initial [.operand x, .operator plus, .operand y] arrangement [] ∧
      arrangement.held.operands = [y, x] ∧ joiningCount arrangement.held.pending = 1 ∧
      arrangement.held.Suffice) ∧
    vacantRun.resolve .initial = .error ⟨.emptyRun, .point 3⟩ ∧
    ∃ inner ∈ vacantRun.nested, inner.items = [] ∧ inner.span = .point 3 := by
  obtain ⟨hstacks, hempty⟩ := operands_never_run_out .initial
  refine ⟨?_, rfl, hempty vacantRun (.point 3) rfl⟩
  have hreached (x y : Expr) : Reached .initial
      [.operand x, .operator ⟨⟨"+", none⟩, .point 1⟩, .operand y]
      ⟨⟨[y, x], [.binary ⟨⟨"+", none⟩, .point 1⟩ ⟨"+", 6, .infixLeft⟩]⟩, false⟩ [] :=
    .next (.next (.next .start rfl) rfl) rfl
  have hsum := hreached (.string "a" (.point 0)) (.string "b" (.point 2))
  exact ⟨_, _, _, _, hsum, rfl, rfl, (hstacks _ _ _ hsum).2.2 rfl⟩

end Equational

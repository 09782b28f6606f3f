import Equational.Proofs.Expr.Objection
import Equational.Proofs.Operator.Latest

/-!
# What resolving depends on

A table is asked about nothing but the operators of a run and the function names in it that could be
words.  Two tables with the same answers about those resolve the run to the same expression, or fail
with the same diagnostic; headers for other symbols cannot regroup it.
-/

namespace Equational

/-! ## Names that are looked up -/

mutual

/-- The names that may be looked up while the run is resolved, at any depth: operators that are
taken up, and function names, which are operators if they are declared. -/
def Run.operatorNames : Run → List OperatorName
  | ⟨items, _⟩ => itemsOperatorNames items

def itemsOperatorNames : List RunItem → List OperatorName
  | [] => []
  | item :: rest => item.operatorNames ++ itemsOperatorNames rest

def RunItem.operatorNames : RunItem → List OperatorName
  | .atom a => a.operatorNames
  | .operator op => [op.name]
  | .conditional condition thenBranch _ =>
    condition.operatorNames ++ optionOperatorNames thenBranch

def Atom.operatorNames : Atom → List OperatorName
  | .identifier name _ =>
    if name.name.nameClass = .functionName then [⟨name.name.text, name.moduleName⟩] else []
  | .container _ body _ => body.operatorNames
  | .partialApply op operand _ _ => op.name :: operand.operatorNames
  | .lambda parameters body _ => itemsOperatorNames parameters ++ body.operatorNames
  | .declared _ _ | .typed _ _ _ | .number _ _ | .string _ _ | .operatorLiteral _ _ => []

def ContainerBody.operatorNames : ContainerBody → List OperatorName
  | .empty => []
  | .elements runs _ _ tail => runsOperatorNames runs ++ optionOperatorNames tail
  | .enumeration runs bound => runsOperatorNames runs ++ optionOperatorNames bound
  | .comprehension template generators =>
    template.operatorNames ++ runsOperatorNames generators

def runsOperatorNames : List Run → List OperatorName
  | [] => []
  | run :: rest => run.operatorNames ++ runsOperatorNames rest

def optionOperatorNames : Option Run → List OperatorName
  | none => []
  | some run => run.operatorNames

end

/-! ## Agreement -/

def OperatorTable.Agrees (table other : OperatorTable) (name : OperatorName) : Prop :=
  ∀ role, table.lookupName name role = other.lookupName name role

variable {table other : OperatorTable}

theorem OperatorTable.Agrees.isDeclared_eq {name : OperatorName} (h : table.Agrees other name) :
    table.isDeclared name = other.isDeclared name := by
  simp only [isDeclared, h _]

/-! ## Stacks -/

theorem takeLeading_congr {op : OperatorUse} (h : table.Agrees other op.name) (held : Stacks) :
    takeLeading table held op = takeLeading other held op := by
  unfold takeLeading
  rw [h .prefixOp, h.isDeclared_eq]

private theorem takeFollowing_congr {op : OperatorUse} (h : table.Agrees other op.name)
    (held : Stacks) (isLast : Bool) :
    takeFollowing table held isLast op = takeFollowing other held isLast op := by
  unfold takeFollowing
  simp only [h _]

abbrev Step.Agrees (table other : OperatorTable) (step : Step) : Prop :=
  step.Occurs fun op => table.Agrees other op.name

private theorem takeStep_congr {step : Step} (h : step.Agrees table other)
    (arrangement : Arrangement) (isLast : Bool) :
    takeStep table arrangement isLast step = takeStep other arrangement isLast step := by
  cases step with
  | operand operand => rfl
  | conditional condition thenBranch span => rfl
  | operator op =>
    have hop : table.Agrees other op.name := h op rfl
    dsimp only [takeStep]
    rw [takeLeading_congr hop, takeFollowing_congr hop]

private theorem takeSteps_congr {steps : List Step} (h : ∀ step ∈ steps, step.Agrees table other)
    (arrangement : Arrangement) :
    takeSteps table arrangement steps = takeSteps other arrangement steps := by
  induction steps generalizing arrangement with
  | nil => rfl
  | cons step rest ih =>
    obtain ⟨hstep, hrest⟩ := List.forall_mem_cons.mp h
    unfold takeSteps
    rw [takeStep_congr hstep]
    exact congrArg _ (funext fun next => ih hrest next)

private theorem arrange_congr {steps : List Step} (h : ∀ step ∈ steps, step.Agrees table other)
    (span : Span) : arrange table span steps = arrange other span steps := by
  unfold arrange
  rw [takeSteps_congr h]

/-! ## Assembling -/

def Reading.Agrees (table other : OperatorTable) (readings : Reading) : Prop :=
  ∀ step, .ok step ∈ readings → step.Agrees table other

theorem assemble_congr {readings : Reading} (h : readings.Agrees table other) (span : Span) :
    assemble table span readings = assemble other span readings := by
  unfold assemble
  split
  · rfl
  · cases hread : readings.mapM id with
    | error problem => rfl
    | ok steps =>
      refine arrange_congr (fun step hstep => h step ?_) span
      rw [mapM_eq_ok hread]
      exact List.mem_map_of_mem hstep

theorem assembleSection_congr {op : OperatorUse} (hop : table.Agrees other op.name)
    {operand : Reading} (h : operand.Agrees table other) (hole : Hole) (operandSpan span : Span) :
    assembleSection table op hole operand operandSpan span =
      assembleSection other op hole operand operandSpan span := by
  have hoperator : (Step.operator op).Agrees table other := occurs_operator hop
  have hfront : Reading.Agrees table other (.ok (.operator op) :: operand) := by
    intro step hstep
    rcases List.mem_cons.mp hstep with heq | hmem
    · cases heq
      exact hoperator
    · exact h step hmem
  have hbehind : Reading.Agrees table other (operand ++ [.ok (.operator op)]) := by
    intro step hstep
    rcases List.mem_append.mp hstep with hmem | hlast
    · exact h step hmem
    · cases List.mem_singleton.mp hlast
      exact hoperator
  simp only [assembleSection, assembleSection.assembleOpen, hop _, hop.isDeclared_eq,
    assemble_congr hfront, assemble_congr hbehind, assemble_congr h]

/-! ## Words -/

theorem operatorNames_of_wordOperator {item : RunItem} {op : OperatorUse}
    (h : wordOperator? table item = some op) : item.operatorNames = [op.name] := by
  unfold wordOperator? at h
  split at h
  · dsimp only at h
    split at h
    · rename_i hword
      rw [Bool.and_eq_true, decide_eq_true_iff] at hword
      cases h
      rw [RunItem.operatorNames, Atom.operatorNames, if_pos hword.1]
    · cases h
  · cases h

theorem wordOperator?_congr {item : RunItem}
    (h : ∀ name ∈ item.operatorNames, table.Agrees other name) :
    wordOperator? table item = wordOperator? other item := by
  unfold wordOperator?
  split
  · rename_i name span
    rw [RunItem.operatorNames, Atom.operatorNames] at h
    by_cases hfunction : name.name.nameClass = .functionName
    · rw [if_pos hfunction] at h
      dsimp only
      rw [(h _ List.mem_cons_self).isDeclared_eq]
    · simp only [hfunction, decide_false, Bool.false_and]
  · rfl

private theorem RunItem.occurs_read {item : RunItem} {step : Step}
    (h : item.read table = .ok step) : step.Occurs fun op => op.name ∈ item.operatorNames := by
  intro op hop
  subst hop
  cases item with
  | operator use =>
    cases h
    exact List.mem_cons_self
  | atom a =>
    rw [RunItem.read] at h
    split at h
    · rename_i hword
      cases h
      rw [operatorNames_of_wordOperator hword]
      exact List.mem_cons_self
    · obtain ⟨e, -, hstep⟩ := bind_eq_ok_iff.mp h
      cases hstep
  | conditional condition thenBranch span =>
    obtain ⟨e, -, hbranch⟩ := bind_eq_ok_iff.mp h
    obtain ⟨branch, -, hstep⟩ := bind_eq_ok_iff.mp hbranch
    cases hstep

theorem mem_itemsOperatorNames {items : List RunItem} {item : RunItem} (hitem : item ∈ items)
    {name : OperatorName} (hname : name ∈ item.operatorNames) :
    name ∈ itemsOperatorNames items := by
  induction items with
  | nil => cases hitem
  | cons first rest ih =>
    rw [itemsOperatorNames]
    rcases List.mem_cons.mp hitem with rfl | hrest
    · exact List.mem_append_left _ hname
    · exact List.mem_append_right _ (ih hrest)

theorem agrees_readItems {items : List RunItem}
    (h : ∀ name ∈ itemsOperatorNames items, table.Agrees other name) :
    (readItems other items).Agrees table other := by
  intro step hstep op hop
  rw [readItems_eq_map] at hstep
  obtain ⟨item, hitem, hread⟩ := List.mem_map.mp hstep
  exact h op.name (mem_itemsOperatorNames hitem (item.occurs_read hread op hop))

theorem assembleGroup_congr {items : List RunItem}
    (h : ∀ name ∈ itemsOperatorNames items, table.Agrees other name) (runSpan span : Span) :
    assembleGroup table items (readItems other items) runSpan span =
      assembleGroup other items (readItems other items) runSpan span := by
  have hreadings := agrees_readItems h
  have hword {item : RunItem} (hitem : item ∈ items) :
      wordOperator? table item = wordOperator? other item :=
    wordOperator?_congr fun name hname => h name (mem_itemsOperatorNames hitem hname)
  have hop {item : RunItem} (hitem : item ∈ items) {op : OperatorUse}
      (hop : wordOperator? other item = some op) : table.Agrees other op.name := by
    refine h op.name (mem_itemsOperatorNames hitem ?_)
    rw [operatorNames_of_wordOperator hop]
    exact List.mem_cons_self
  have hfirst : items.head?.bind (wordOperator? table) = items.head?.bind (wordOperator? other) :=
    Option.bind_congr fun item hitem => hword (List.mem_of_head? hitem)
  have hlast : items.getLast?.bind (wordOperator? table) =
      items.getLast?.bind (wordOperator? other) :=
    Option.bind_congr fun item hitem => hword (List.mem_of_getLast? hitem)
  unfold assembleGroup
  rw [hfirst, hlast]
  split
  · rename_i op hsome
    obtain ⟨item, hitem, hitemWord⟩ := Option.bind_eq_some_iff.mp hsome
    rw [assembleSection_congr (hop (List.mem_of_head? hitem) hitemWord) fun step hstep =>
      hreadings step (List.mem_of_mem_tail hstep)]
  · rename_i op _ hsome
    obtain ⟨item, hitem, hitemWord⟩ := Option.bind_eq_some_iff.mp hsome
    exact assembleSection_congr (hop (List.mem_of_getLast? hitem) hitemWord) (fun step hstep =>
      hreadings step (List.dropLast_subset _ hstep)) .right _ span
  · exact assemble_congr hreadings runSpan

/-! ## Runs, at any depth -/

mutual

theorem Run.resolve_congr : ∀ run : Run,
    (∀ name ∈ run.operatorNames, table.Agrees other name) →
      run.resolve table = run.resolve other
  | ⟨items, span⟩, h => by
    rw [Run.operatorNames] at h
    rw [Run.resolve, Run.resolve, readItems_congr items h]
    exact assemble_congr (agrees_readItems h) span

theorem readItems_congr : ∀ items : List RunItem,
    (∀ name ∈ itemsOperatorNames items, table.Agrees other name) →
      readItems table items = readItems other items
  | [], _ => rfl
  | item :: rest, h => by
    obtain ⟨hitem, hrest⟩ := List.forall_mem_append.mp h
    rw [readItems, readItems, item.read_congr hitem, readItems_congr rest hrest]

private theorem RunItem.read_congr : ∀ item : RunItem,
    (∀ name ∈ item.operatorNames, table.Agrees other name) →
      item.read table = item.read other
  | .operator op, _ => rfl
  | .atom a, h => by
    rw [RunItem.read, RunItem.read, wordOperator?_congr h, a.resolve_congr h]
  | .conditional condition thenBranch span, h => by
    obtain ⟨hcondition, hbranch⟩ := List.forall_mem_append.mp h
    rw [RunItem.read, RunItem.read, condition.resolve_congr hcondition,
      resolveOption_congr thenBranch hbranch]

theorem Atom.resolve_congr : ∀ a : Atom,
    (∀ name ∈ a.operatorNames, table.Agrees other name) → a.resolve table = a.resolve other
  | .identifier _ _, _ | .declared _ _, _ | .typed _ _ _, _ | .number _ _, _ | .string _ _, _
  | .operatorLiteral _ _, _ => rfl
  | .partialApply op ⟨items, operandSpan⟩ hole span, h => by
    obtain ⟨hop, hoperand⟩ := List.forall_mem_cons.mp h
    rw [Run.operatorNames] at hoperand
    rw [Atom.resolve, Atom.resolve, readItems_congr items hoperand]
    exact assembleSection_congr hop (agrees_readItems hoperand) hole operandSpan span
  | .lambda [] _ span, _ => rfl
  | .lambda (first :: rest) body span, h => by
    obtain ⟨hparameters, hbody⟩ := List.forall_mem_append.mp h
    rw [Atom.resolve, Atom.resolve, resolveParameters_congr (first :: rest) hparameters,
      body.resolve_congr hbody]
  | .container bracket body span, h => by
    rcases Atom.resolve_container bracket body span with ⟨items, runSpan, rfl, hgroup⟩ | hbody
    · have hitems : ∀ name ∈ itemsOperatorNames items, table.Agrees other name := by
        simpa [Atom.operatorNames, ContainerBody.operatorNames, runsOperatorNames,
          optionOperatorNames, Run.operatorNames] using h
      rw [hgroup, hgroup, readItems_congr items hitems]
      exact assembleGroup_congr hitems runSpan span
    · rw [hbody, hbody]
      exact body.resolve_congr bracket span h

theorem resolveParameters_congr : ∀ items : List RunItem,
    (∀ name ∈ itemsOperatorNames items, table.Agrees other name) →
      resolveParameters table items = resolveParameters other items
  | [], _ => rfl
  | .atom a :: rest, h => by
    obtain ⟨ha, hrest⟩ := List.forall_mem_append.mp h
    rw [resolveParameters, resolveParameters, a.resolve_congr ha,
      resolveParameters_congr rest hrest]
  | .operator op :: _, _ => rfl
  | .conditional _ _ span :: _, _ => rfl

theorem ContainerBody.resolve_congr (bracket : Bracket) (span : Span) : ∀ body : ContainerBody,
    (∀ name ∈ body.operatorNames, table.Agrees other name) →
      body.resolve table bracket span = body.resolve other bracket span
  | .empty, _ => rfl
  | .elements runs _ _ tail, h => by
    obtain ⟨hruns, htail⟩ := List.forall_mem_append.mp h
    rw [ContainerBody.resolve, ContainerBody.resolve, resolveAll_congr runs hruns,
      resolveOption_congr tail htail]
  | .enumeration runs bound, h => by
    obtain ⟨hruns, hbound⟩ := List.forall_mem_append.mp h
    rw [ContainerBody.resolve, ContainerBody.resolve, resolveAll_congr runs hruns,
      resolveOption_congr bound hbound]
  | .comprehension template generators, h => by
    obtain ⟨htemplate, hgenerators⟩ := List.forall_mem_append.mp h
    rw [ContainerBody.resolve, ContainerBody.resolve, template.resolve_congr htemplate,
      resolveAll_congr generators hgenerators]

theorem resolveAll_congr : ∀ runs : List Run,
    (∀ name ∈ runsOperatorNames runs, table.Agrees other name) →
      resolveAll table runs = resolveAll other runs
  | [], _ => rfl
  | run :: rest, h => by
    obtain ⟨hrun, hrest⟩ := List.forall_mem_append.mp h
    rw [resolveAll, resolveAll, run.resolve_congr hrun, resolveAll_congr rest hrest]

theorem resolveOption_congr : ∀ run : Option Run,
    (∀ name ∈ optionOperatorNames run, table.Agrees other name) →
      resolveOption table run = resolveOption other run
  | none, _ => rfl
  | some run, h => by
    rw [resolveOption, resolveOption, run.resolve_congr h]

end

/-! ## Headers for other symbols -/

/-- The symbols that the header may make operators of: its name and its alias. -/
def Header.symbols : Header → List String
  | .symbol (.operator name) _ _ knownAs _ => name.text :: knownAs.toList
  | _ => []

theorem Header.Makes.mem_symbols {symbol : String} {role : Role} {header : Header}
    {entry : OperatorEntry} (h : header.Makes table symbol role entry) :
    symbol ∈ header.symbols := by
  obtain ⟨hname | halias, -, -, -⟩ := h
  · exact hname ▸ List.mem_cons_self
  · exact List.mem_cons_of_mem _ (Option.mem_toList.mpr halias)

namespace OperatorTable

private theorem lookupName_congr {name : OperatorName} {role : Role}
    (htext : table.lookup name.text role = other.lookup name.text role)
    (hsymbol : table.lookup name.symbol role = other.lookup name.symbol role) :
    table.lookupName name role = other.lookupName name role := by
  unfold lookupName
  rw [htext, hsymbol]

theorem agrees_behind {header : Header} {name : OperatorName}
    (h : ∀ symbol ∈ header.symbols, symbol ≠ name.text ∧ symbol ≠ name.symbol) :
    (table.behind header).Agrees table name := by
  intro role
  refine lookupName_congr ?_ ?_
  · exact lookup_behind_of_forall_not_makes fun _ hmakes => (h _ hmakes.mem_symbols).1 rfl
  · exact lookup_behind_of_forall_not_makes fun _ hmakes => (h _ hmakes.mem_symbols).2 rfl

theorem agrees_behindAll {headers : List Header} {name : OperatorName}
    (h : ∀ header ∈ headers, ∀ symbol ∈ header.symbols, symbol ≠ name.text ∧ symbol ≠ name.symbol) :
    (table.behindAll headers).Agrees table name := by
  induction headers generalizing table with
  | nil => exact fun _ => rfl
  | cons header rest ih =>
    obtain ⟨hheader, hrest⟩ := List.forall_mem_cons.mp h
    exact fun role => (ih hrest role).trans (agrees_behind hheader role)

end OperatorTable

/-- A run resolves in the same way, to an expression or to a diagnostic, under tables that agree
about its operators and function names; in particular behind headers for other symbols. -/
theorem Run.resolve_depends_on_operatorNames (run : Run) (table : OperatorTable) :
    (∀ other : OperatorTable, (∀ name ∈ run.operatorNames, ∀ role,
      table.lookupName name role = other.lookupName name role) →
        run.resolve table = run.resolve other) ∧
    ∀ headers : List Header, (∀ header ∈ headers, ∀ symbol ∈ header.symbols,
      ∀ name ∈ run.operatorNames, symbol ≠ name.text ∧ symbol ≠ name.symbol) →
        run.resolve (table.behindAll headers) = run.resolve table := by
  refine ⟨fun other h => run.resolve_congr h, fun headers h => run.resolve_congr ?_⟩
  intro name hname
  exact OperatorTable.agrees_behindAll fun header hheader symbol hsymbol =>
    h header hheader symbol hsymbol name hname

def timesHeader : Header :=
  .symbol (.operator ⟨"*", none⟩) [⟨⟨"X", .variableName⟩, false⟩, ⟨⟨"Y", .variableName⟩, false⟩]
    (some (.level 4)) (some "by") ⟨0, 17⟩

/-- Neither another level of the product nor its alias regroups a run without products; a table of
just the three operators in it groups it as the built-in ones do. -/
theorem mixedRun_resolve_behind_times :
    mixedRun.resolve (OperatorTable.initial.behindAll [timesHeader]) =
      mixedRun.resolve OperatorTable.initial ∧
    mixedRun.resolve OperatorTable.initial =
      mixedRun.resolve ⟨[⟨"+", 6, .infixLeft⟩, ⟨"-", 8, .prefixOp⟩, ⟨"-", 6, .infixLeft⟩,
        ⟨"^", 9, .infixRight⟩]⟩ := by
  obtain ⟨hagree, hbehind⟩ := mixedRun.resolve_depends_on_operatorNames OperatorTable.initial
  refine ⟨hbehind _ (by decide), hagree _ fun name hname role => ?_⟩
  revert name
  cases role <;> decide +kernel

end Equational

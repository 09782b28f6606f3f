import Equational.Proofs.Yield

/-!
# Faultless resolution

Resolving a run never builds an error node, at any depth, and where it fails the diagnostic is of
the phase that resolves runs.  Both are kept up by everything that goes into an expression: the
operands and pending operators of the stacks, the steps that are read, and the parts of sections and
groups.
-/

namespace Equational

variable {α β : Type}

/-! ## Results of resolving -/

/-- A value as it should be, or a diagnostic of the phase that resolves runs. -/
def Resolves (good : α → Prop) : Except Diagnostic α → Prop
  | .ok value => good value
  | .error diagnostic => diagnostic.cause.phase = .resolution

theorem Resolves.bind {good : α → Prop} {good' : β → Prop} {result : Except Diagnostic α}
    {next : α → Except Diagnostic β} (h : Resolves good result)
    (hnext : ∀ value, good value → Resolves good' (next value)) :
    Resolves good' (result >>= next) := by
  cases result with
  | ok value => exact hnext value h
  | error diagnostic => exact h

/-! ## Faultless parts -/

def Expr.IsFaultless (e : Expr) : Prop := e.containsError = false

def AllFaultless (values : List Expr) : Prop := Expr.anyContainsError values = false

def OptionFaultless (value : Option Expr) : Prop := Expr.optionContainsError value = false

theorem allFaultless_cons {first : Expr} {rest : List Expr} :
    AllFaultless (first :: rest) ↔ first.IsFaultless ∧ AllFaultless rest := by
  simp [AllFaultless, Expr.IsFaultless, Expr.anyContainsError]

def Pending.IsFaultless : Pending → Prop
  | conditional condition thenBranch _ => condition.IsFaultless ∧ OptionFaultless thenBranch
  | binary _ _ | prefixed _ _ | application _ => True

structure Stacks.IsFaultless (held : Stacks) : Prop where
  operands : AllFaultless held.operands
  pending : ∀ pending ∈ held.pending, pending.IsFaultless

def Step.IsFaultless : Step → Prop
  | operand value => value.IsFaultless
  | operator _ => True
  | conditional condition thenBranch _ => condition.IsFaultless ∧ OptionFaultless thenBranch

/-! ## Nodes -/

section Nodes

open Equational.Expr

theorem isFaultless_binaryNode (op : OperatorUse) {left right : Expr} (hleft : left.IsFaultless)
    (hright : right.IsFaultless) : (binaryNode op left right).IsFaultless := by
  unfold IsFaultless at *
  unfold binaryNode
  dsimp only
  split <;> simp [containsError, hleft, hright]

theorem isFaultless_prefixNode (op : OperatorUse) {operand : Expr} (h : operand.IsFaultless) :
    (prefixNode op operand).IsFaultless := by
  unfold IsFaultless at *
  unfold prefixNode
  dsimp only
  split <;> simp [containsError, h]

theorem isFaultless_conditionalNode {condition last : Expr} {thenBranch : Option Expr} (span : Span)
    (hcondition : condition.IsFaultless) (hbranch : OptionFaultless thenBranch)
    (hlast : last.IsFaultless) :
    (conditionalNode condition thenBranch span last).IsFaultless := by
  cases thenBranch with
  | none => simp_all [IsFaultless, conditionalNode, containsError, optionContainsError]
  | some branch =>
    simp_all [IsFaultless, OptionFaultless, conditionalNode, containsError, optionContainsError]

end Nodes

/-! ## Applying pending operators -/

theorem Pending.resolves_apply {pending : Pending} (h : pending.IsFaultless)
    {operands : List Expr} (hoperands : AllFaultless operands) :
    Resolves AllFaultless (pending.apply operands) := by
  cases operands with
  | nil => rfl
  | cons right rest =>
    obtain ⟨hright, hrest⟩ := allFaultless_cons.mp hoperands
    cases pending with
    | prefixed op entry =>
      exact allFaultless_cons.mpr ⟨isFaultless_prefixNode op hright, hrest⟩
    | conditional condition thenBranch span =>
      exact allFaultless_cons.mpr ⟨isFaultless_conditionalNode span h.1 h.2 hright, hrest⟩
    | binary op entry =>
      cases rest with
      | nil => rfl
      | cons left rest =>
        obtain ⟨hleft, hrest⟩ := allFaultless_cons.mp hrest
        exact allFaultless_cons.mpr ⟨isFaultless_binaryNode op hleft hright, hrest⟩
    | application span =>
      cases rest with
      | nil => rfl
      | cons function rest =>
        obtain ⟨hfunction, hrest⟩ := allFaultless_cons.mp hrest
        refine allFaultless_cons.mpr ⟨?_, hrest⟩
        simp_all [Expr.IsFaultless, Expr.containsError]

theorem resolves_applyFor (arrival : Arrival) {operands : List Expr} {pending : List Pending}
    (hoperands : AllFaultless operands) (hpending : ∀ top ∈ pending, top.IsFaultless) :
    Resolves Stacks.IsFaultless (applyFor arrival operands pending) := by
  induction pending generalizing operands with
  | nil => exact ⟨hoperands, hpending⟩
  | cons top rest ih =>
    obtain ⟨htop, hrest⟩ := List.forall_mem_cons.mp hpending
    unfold applyFor
    split
    · exact ⟨hoperands, hpending⟩
    · rfl
    · exact (top.resolves_apply htop hoperands).bind fun applied happlied => ih happlied hrest

theorem resolves_applyAll {operands : List Expr} {pending : List Pending}
    (hoperands : AllFaultless operands) (hpending : ∀ top ∈ pending, top.IsFaultless) :
    Resolves AllFaultless (applyAll operands pending) := by
  induction pending generalizing operands with
  | nil => exact hoperands
  | cons top rest ih =>
    obtain ⟨htop, hrest⟩ := List.forall_mem_cons.mp hpending
    exact (top.resolves_apply htop hoperands).bind fun applied happlied => ih happlied hrest

namespace Stacks

variable {held : Stacks}

theorem IsFaultless.pushOperand (h : held.IsFaultless) {operand : Expr}
    (hoperand : operand.IsFaultless) : (held.pushOperand operand).IsFaultless :=
  ⟨allFaultless_cons.mpr ⟨hoperand, h.operands⟩, h.pending⟩

theorem IsFaultless.pushPending (h : held.IsFaultless) (pending : Pending)
    (hpending : pending.IsFaultless) : (held.pushPending pending).IsFaultless :=
  ⟨h.operands, List.forall_mem_cons.mpr ⟨hpending, h.pending⟩⟩

theorem IsFaultless.resolves_takeUp (h : held.IsFaultless) (pending : Pending)
    (hpending : pending.IsFaultless) : Resolves IsFaultless (held.takeUp pending) :=
  (resolves_applyFor _ h.operands h.pending).bind fun _ happlied =>
    happlied.pushPending pending hpending

theorem IsFaultless.resolves_takePostfix (h : held.IsFaultless) (op : OperatorUse)
    (entry : OperatorEntry) : Resolves IsFaultless (held.takePostfix op entry) := by
  refine (resolves_applyFor _ h.operands h.pending).bind fun applied happlied => ?_
  have hoperands := happlied.operands
  split
  · rename_i operand rest heq
    rw [heq] at hoperands
    obtain ⟨hoperand, hrest⟩ := allFaultless_cons.mp hoperands
    refine ⟨allFaultless_cons.mpr ⟨?_, hrest⟩, happlied.pending⟩
    simp_all [Expr.IsFaultless, Expr.containsError]
  · rfl

end Stacks

/-! ## Steps -/

section Steps

variable {table : OperatorTable} {arrangement : Arrangement}

theorem resolves_takeArgument (h : arrangement.held.IsFaultless) (span : Span) :
    Resolves Stacks.IsFaultless (takeArgument arrangement span) := by
  unfold takeArgument
  split
  · exact h
  · exact h.resolves_takeUp (.application span) trivial

theorem resolves_takeLeading {held : Stacks} (h : held.IsFaultless) (op : OperatorUse) :
    Resolves (·.held.IsFaultless) (takeLeading table held op) := by
  unfold takeLeading
  split
  · exact h.pushPending (.prefixed _ _) trivial
  · split <;> rfl

theorem resolves_takeFollowing {held : Stacks} (h : held.IsFaultless) (isLast : Bool)
    (op : OperatorUse) : Resolves (·.held.IsFaultless) (takeFollowing table held isLast op) := by
  have hbehind (entry : OperatorEntry) := h.resolves_takePostfix op entry
  have hjoin (entry : OperatorEntry) := h.resolves_takeUp (.binary op entry) trivial
  have hargument := h.resolves_takeUp (.application op.span) trivial
  unfold takeFollowing
  dsimp only
  split
  · exact (hbehind _).bind fun applied happlied => happlied
  · exact (hjoin _).bind fun applied happlied => happlied
  · split
    · exact (hbehind _).bind fun applied happlied => happlied
    · exact (hjoin _).bind fun applied happlied => happlied
  · refine hargument.bind fun applied happlied => ?_
    exact happlied.pushPending (.prefixed _ _) trivial
  · rfl

theorem resolves_takeStep (h : arrangement.held.IsFaultless) (isLast : Bool) {step : Step}
    (hstep : step.IsFaultless) :
    Resolves (·.held.IsFaultless) (takeStep table arrangement isLast step) := by
  cases step with
  | operand value =>
    exact (resolves_takeArgument h _).bind fun held hheld => hheld.pushOperand hstep
  | conditional condition thenBranch span =>
    refine (resolves_takeArgument h _).bind fun held hheld => ?_
    exact hheld.pushPending (.conditional _ _ _) hstep
  | operator op =>
    rw [takeStep]
    split
    · exact resolves_takeLeading h op
    · exact resolves_takeFollowing h isLast op

theorem resolves_takeSteps {steps : List Step} (h : arrangement.held.IsFaultless)
    (hsteps : ∀ step ∈ steps, step.IsFaultless) :
    Resolves (·.held.IsFaultless) (takeSteps table arrangement steps) := by
  induction steps generalizing arrangement with
  | nil => exact h
  | cons step rest ih =>
    obtain ⟨hstep, hrest⟩ := List.forall_mem_cons.mp hsteps
    exact (resolves_takeStep h _ hstep).bind fun next hnext => ih hnext hrest

theorem resolves_arrange (span : Span) {steps : List Step}
    (hsteps : ∀ step ∈ steps, step.IsFaultless) :
    Resolves Expr.IsFaultless (arrange table span steps) := by
  have hempty : Stacks.IsFaultless ⟨[], []⟩ := ⟨rfl, List.forall_mem_nil _⟩
  refine (resolves_takeSteps hempty hsteps).bind fun final hfinal => ?_
  split
  · split <;> rfl
  · refine (resolves_applyAll hfinal.operands hfinal.pending).bind fun values hvalues => ?_
    split
    · exact (allFaultless_cons.mp hvalues).1
    · rfl

end Steps

/-! ## Sections and groups -/

section Sections

variable {table : OperatorTable}

def Reading.Resolves (readings : Reading) : Prop :=
  ∀ reading ∈ readings, Equational.Resolves Step.IsFaultless reading

theorem Reading.Resolves.mapM {readings : Reading} (h : readings.Resolves) :
    Equational.Resolves (fun steps => ∀ step ∈ steps, step.IsFaultless) (readings.mapM id) := by
  induction readings with
  | nil => exact List.forall_mem_nil _
  | cons first rest ih =>
    obtain ⟨hfirst, hrest⟩ := List.forall_mem_cons.mp h
    rw [List.mapM_cons]
    refine Equational.Resolves.bind hfirst fun step hstep => (ih hrest).bind fun steps hsteps => ?_
    exact List.forall_mem_cons.mpr ⟨hstep, hsteps⟩

theorem resolves_assemble (span : Span) {readings : Reading} (h : readings.Resolves) :
    Resolves Expr.IsFaultless (assemble table span readings) := by
  unfold assemble
  split
  · rfl
  · exact h.mapM.bind fun steps hsteps => resolves_arrange span hsteps

theorem resolves_assembleSection (op : OperatorUse) (hole : Hole) {operand : Reading}
    (h : operand.Resolves) (operandSpan span : Span) :
    Resolves Expr.IsFaultless (assembleSection table op hole operand operandSpan span) := by
  have hoperator : Resolves Step.IsFaultless (.ok (.operator op)) := trivial
  have hopen (hasInfix : Bool) (side : OperandSide) : Resolves Expr.IsFaultless
      (assembleSection.assembleOpen table op hole operand operandSpan span hasInfix side) := by
    unfold assembleSection.assembleOpen
    split
    · exact (resolves_assemble operandSpan h).bind fun e he => he
    · split <;> rfl
  unfold assembleSection
  dsimp only
  split
  · split
    · exact resolves_assemble span (List.forall_mem_cons.mpr ⟨hoperator, h⟩)
    · exact hopen _ _
  · split
    · exact resolves_assemble span
        (List.forall_mem_append.mpr ⟨h, List.forall_mem_singleton.mpr hoperator⟩)
    · exact hopen _ _

theorem resolves_assembleGroup (items : List RunItem) {readings : Reading} (h : readings.Resolves)
    (runSpan span : Span) :
    Resolves Expr.IsFaultless (assembleGroup table items readings runSpan span) := by
  unfold assembleGroup
  split
  · split
    · rfl
    · exact resolves_assembleSection _ _
        (fun reading hmem => h reading (List.mem_of_mem_tail hmem)) _ _
  · exact resolves_assembleSection _ _
      (fun reading hmem => h reading (List.dropLast_subset _ hmem)) _ _
  · exact resolves_assemble runSpan h

end Sections

/-! ## Runs, at any depth -/

section Runs

variable (table : OperatorTable)

mutual

theorem Run.resolves : ∀ run : Run, Resolves Expr.IsFaultless (run.resolve table)
  | ⟨items, span⟩ => resolves_assemble span (resolves_readItems items)

theorem resolves_readItems : ∀ items : List RunItem, (readItems table items).Resolves
  | [] => List.forall_mem_nil _
  | item :: rest => List.forall_mem_cons.mpr ⟨item.resolves_read, resolves_readItems rest⟩

theorem RunItem.resolves_read : ∀ item : RunItem, Resolves Step.IsFaultless (item.read table)
  | .operator op => trivial
  | .atom a => by
    unfold RunItem.read
    split
    · trivial
    · exact a.resolves.bind fun value hvalue => hvalue
  | .conditional condition thenBranch span =>
    condition.resolves.bind fun test htest =>
      (resolves_resolveOption thenBranch).bind fun branch hbranch => ⟨htest, hbranch⟩

theorem Atom.resolves : ∀ a : Atom, Resolves Expr.IsFaultless (a.resolve table)
  | .identifier _ _ | .declared _ _ | .typed _ _ _ | .number _ _ | .string _ _
  | .operatorLiteral _ _ => rfl
  | .partialApply op ⟨items, operandSpan⟩ hole span =>
    resolves_assembleSection op hole (resolves_readItems items) operandSpan span
  | .lambda [] _ _ => rfl
  | .lambda (first :: rest) body span =>
    (resolves_resolveParameters (first :: rest)).bind fun parameters hparameters =>
      body.resolves.bind fun inner hinner => Bool.or_eq_false_iff.mpr ⟨hparameters, hinner⟩
  | .container bracket body span => by
    rcases Atom.resolve_container bracket body span with ⟨items, runSpan, rfl, hgroup⟩ | hbody
    · rw [hgroup]
      exact resolves_assembleGroup items (resolves_readItems items) runSpan span
    · rw [hbody]
      exact body.resolves bracket span

theorem resolves_resolveParameters : ∀ items : List RunItem,
    Resolves AllFaultless (resolveParameters table items)
  | [] => rfl
  | .atom a :: rest => a.resolves.bind fun first hfirst =>
    (resolves_resolveParameters rest).bind fun others hothers =>
      allFaultless_cons.mpr ⟨hfirst, hothers⟩
  | .operator _ :: _ | .conditional _ _ _ :: _ => rfl

theorem ContainerBody.resolves (bracket : Bracket) (span : Span) :
    ∀ body : ContainerBody, Resolves Expr.IsFaultless (body.resolve table bracket span)
  | .empty => rfl
  | .elements runs _ _ tail => (resolves_resolveAll runs).bind fun elements helements =>
    (resolves_resolveOption tail).bind fun last hlast =>
      Bool.or_eq_false_iff.mpr ⟨helements, hlast⟩
  | .enumeration runs bound => (resolves_resolveAll runs).bind fun elements helements =>
    (resolves_resolveOption bound).bind fun last hlast =>
      Bool.or_eq_false_iff.mpr ⟨helements, hlast⟩
  | .comprehension template generators => template.resolves.bind fun first hfirst =>
    (resolves_resolveAll generators).bind fun others hothers =>
      Bool.or_eq_false_iff.mpr ⟨hfirst, hothers⟩

theorem resolves_resolveAll : ∀ runs : List Run, Resolves AllFaultless (resolveAll table runs)
  | [] => rfl
  | run :: rest => run.resolves.bind fun first hfirst =>
    (resolves_resolveAll rest).bind fun others hothers =>
      allFaultless_cons.mpr ⟨hfirst, hothers⟩

theorem resolves_resolveOption : ∀ run : Option Run,
    Resolves OptionFaultless (resolveOption table run)
  | none => rfl
  | some run => run.resolves.bind fun value hvalue => hvalue

end

end Runs

end Equational

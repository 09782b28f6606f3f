import Equational.Proofs.Grouping.Tree
import Equational.Proofs.Result
import Mathlib.Data.List.Forall2

/-!
# Operators under another name

Nothing but its entries decides how an operator is taken up.  If an operator is written in place of
one that the table ranks alike in every role, the stacks stay the same up to the name: the same
nodes, with the one operator where the other one was, or a diagnostic of the same kind.
-/

namespace Equational

/-! ## Results of the same kind -/

inductive SameOutcome {α : Type} (Same : α → α → Prop) :
    Except Diagnostic α → Except Diagnostic α → Prop where
  | ok {value value' : α} (h : Same value value') : SameOutcome Same (.ok value) (.ok value')
  | error {problem problem' : Diagnostic} (h : problem.cause.name = problem'.cause.name) :
    SameOutcome Same (.error problem) (.error problem')

theorem SameOutcome.refl {α : Type} {Same : α → α → Prop} (h : ∀ value, Same value value)
    (result : Except Diagnostic α) : SameOutcome Same result result := by
  cases result with
  | ok value => exact .ok (h value)
  | error problem => exact .error rfl

theorem SameOutcome.bind {α β : Type} {Same : α → α → Prop} {Same' : β → β → Prop}
    {result result' : Except Diagnostic α} {next next' : α → Except Diagnostic β}
    (h : SameOutcome Same result result')
    (hnext : ∀ value value', Same value value' → SameOutcome Same' (next value) (next' value')) :
    SameOutcome Same' (result >>= next) (result' >>= next') := by
  cases h with
  | ok hvalue => exact hnext _ _ hvalue
  | error hname => exact .error hname

/-! ## Operators of one rank -/

def OperatorTable.SameRanks (table : OperatorTable) (name other : OperatorName) : Prop :=
  ∀ role, (table.lookupName name role).map OperatorEntry.rank =
    (table.lookupName other role).map OperatorEntry.rank

namespace OperatorTable.SameRanks

variable {table : OperatorTable} {name other : OperatorName}

theorem lookup_cases (h : table.SameRanks name other) (role : Role) :
    (table.lookupName name role = none ∧ table.lookupName other role = none) ∨
      ∃ entry entry', table.lookupName name role = some entry ∧
        table.lookupName other role = some entry' ∧ entry.rank = entry'.rank := by
  have hrole := h role
  cases hname : table.lookupName name role with
  | none =>
    rw [hname, Option.map_none] at hrole
    exact .inl ⟨rfl, Option.map_eq_none_iff.mp hrole.symm⟩
  | some entry =>
    rw [hname, Option.map_some] at hrole
    obtain ⟨entry', hother, hrank⟩ := Option.map_eq_some_iff.mp hrole.symm
    exact .inr ⟨entry, entry', rfl, hother, hrank.symm⟩

theorem isSome_eq (h : table.SameRanks name other) (role : Role) :
    (table.lookupName name role).isSome = (table.lookupName other role).isSome := by
  rcases h.lookup_cases role with ⟨hname, hother⟩ | ⟨entry, entry', hname, hother, -⟩
  · rw [hname, hother]
  · rw [hname, hother]
    rfl

theorem eq_none (h : table.SameRanks name other) {role : Role}
    (hname : table.lookupName name role = none) : table.lookupName other role = none := by
  rcases h.lookup_cases role with ⟨-, hother⟩ | ⟨entry, entry', hentry, -⟩
  · exact hother
  · rw [hname] at hentry
    cases hentry

theorem isDeclared_eq (h : table.SameRanks name other) :
    table.isDeclared name = table.isDeclared other := by
  simp only [isDeclared, List.any_cons, List.any_nil, h.isSome_eq]

end OperatorTable.SameRanks

/-! ## Corresponding nodes -/

section Correspondence

variable (op other : OperatorUse)

/-- The same operator, or the one in place of the other. -/
inductive InPlace : OperatorUse → OperatorUse → Prop where
  | same (use : OperatorUse) : InPlace use use
  | renamed : InPlace op other

/-- The same expression but for the one operator, and for the spans that depend on where it ends. -/
inductive Expr.Renamed : Expr → Expr → Prop where
  | same (e : Expr) : Renamed e e
  | literal (span : Span) : Renamed (.operatorLiteral op span) (.operatorLiteral other span)
  | partialApply (operand : Expr) (hole : Hole) (span : Span) :
    Renamed (.partialApply op operand hole span) (.partialApply other operand hole span)
  | prefixed {use use' : OperatorUse} {e e' : Expr} (huse : InPlace op other use use')
    (h : Renamed e e') : Renamed (prefixNode use e) (prefixNode use' e')
  | behind {use use' : OperatorUse} {e e' : Expr} (huse : InPlace op other use use')
    (h : Renamed e e') :
    Renamed (.unary use .behind e (e.span.through use.span))
      (.unary use' .behind e' (e'.span.through use'.span))
  | binary {use use' : OperatorUse} {left left' right right' : Expr}
    (huse : InPlace op other use use') (hleft : Renamed left left')
    (hright : Renamed right right') :
    Renamed (binaryNode use left right) (binaryNode use' left' right')
  | apply {function function' argument argument' : Expr} (hfunction : Renamed function function')
    (hargument : Renamed argument argument') :
    Renamed (.apply function argument (function.span.through argument.span))
      (.apply function' argument' (function'.span.through argument'.span))
  | conditional (condition : Expr) (thenBranch : Option Expr) (span : Span) {last last' : Expr}
    (h : Renamed last last') :
    Renamed (conditionalNode condition thenBranch span last)
      (conditionalNode condition thenBranch span last')

inductive Pending.Renamed : Pending → Pending → Prop where
  | binary {use use' : OperatorUse} {entry entry' : OperatorEntry}
    (huse : InPlace op other use use') (hrank : entry.rank = entry'.rank) :
    Renamed (.binary use entry) (.binary use' entry')
  | prefixed {use use' : OperatorUse} {entry entry' : OperatorEntry}
    (huse : InPlace op other use use') (hrank : entry.rank = entry'.rank) :
    Renamed (.prefixed use entry) (.prefixed use' entry')
  | application (span span' : Span) : Renamed (.application span) (.application span')
  | conditional (condition : Expr) (thenBranch : Option Expr) (span : Span) :
    Renamed (.conditional condition thenBranch span) (.conditional condition thenBranch span)

structure Stacks.Renamed (held held' : Stacks) : Prop where
  operands : List.Forall₂ (Expr.Renamed op other) held.operands held'.operands
  pending : List.Forall₂ (Pending.Renamed op other) held.pending held'.pending

structure Arrangement.Renamed (arrangement arrangement' : Arrangement) : Prop where
  held : arrangement.held.Renamed op other arrangement'.held
  expects : arrangement.expectsOperand = arrangement'.expectsOperand

inductive Step.Renamed : Step → Step → Prop where
  | operand {value value' : Expr} (h : value.Renamed op other value') :
    Renamed (.operand value) (.operand value')
  | operator {use use' : OperatorUse} (h : InPlace op other use use') :
    Renamed (.operator use) (.operator use')
  | conditional (condition : Expr) (thenBranch : Option Expr) (span : Span) :
    Renamed (.conditional condition thenBranch span) (.conditional condition thenBranch span)

end Correspondence

section Alike

variable {table : OperatorTable} {op other : OperatorUse}

theorem Step.Renamed.refl (step : Step) : step.Renamed op other step := by
  cases step with
  | operand value => exact .operand (.same value)
  | operator use => exact .operator (.same use)
  | conditional condition thenBranch span => exact .conditional condition thenBranch span

theorem InPlace.sameRanks {use use' : OperatorUse} (h : InPlace op other use use')
    (hranks : table.SameRanks op.name other.name) : table.SameRanks use.name use'.name := by
  cases h with
  | same => exact fun _ => rfl
  | renamed => exact hranks

/-! ## Applying pending operators -/

namespace Pending.Renamed

variable {pending pending' : Pending}

theorem rank_eq (h : pending.Renamed op other pending') :
    pending.precedence = pending'.precedence ∧ pending.fixity = pending'.fixity := by
  cases h with
  | binary _ hrank => exact Rank.mk.inj hrank
  | prefixed _ hrank => exact Rank.mk.inj hrank
  | application => exact ⟨rfl, rfl⟩
  | conditional => exact ⟨rfl, rfl⟩

theorem apply (h : pending.Renamed op other pending') {operands operands' : List Expr}
    (hoperands : List.Forall₂ (Expr.Renamed op other) operands operands') :
    SameOutcome (List.Forall₂ (Expr.Renamed op other)) (pending.apply operands)
      (pending'.apply operands') := by
  cases hoperands with
  | nil => exact .error rfl
  | cons hright hrest =>
    cases h with
    | prefixed huse hrank => exact .ok (.cons (.prefixed huse hright) hrest)
    | conditional condition thenBranch span =>
      exact .ok (.cons (.conditional condition thenBranch span hright) hrest)
    | binary huse hrank =>
      cases hrest with
      | nil => exact .error rfl
      | cons hleft hrest => exact .ok (.cons (.binary huse hleft hright) hrest)
    | application span span' =>
      cases hrest with
      | nil => exact .error rfl
      | cons hfunction hrest => exact .ok (.cons (.apply hfunction hright) hrest)

end Pending.Renamed

theorem renamed_applyFor {arrival arrival' : Arrival}
    (hprecedence : arrival.precedence = arrival'.precedence)
    (hfixity : arrival.fixity = arrival'.fixity) {operands operands' : List Expr}
    {pending pending' : List Pending}
    (hoperands : List.Forall₂ (Expr.Renamed op other) operands operands')
    (hpending : List.Forall₂ (Pending.Renamed op other) pending pending') :
    SameOutcome (Stacks.Renamed op other) (applyFor arrival operands pending)
      (applyFor arrival' operands' pending') := by
  induction hpending generalizing operands operands' with
  | nil => exact .ok ⟨hoperands, .nil⟩
  | cons htop hrest ih =>
    obtain ⟨htopPrecedence, htopFixity⟩ := htop.rank_eq
    unfold applyFor
    rw [htopPrecedence, htopFixity, hprecedence, hfixity]
    split
    · exact .ok ⟨hoperands, .cons htop hrest⟩
    · exact .error rfl
    · exact (htop.apply hoperands).bind fun _ _ happlied => ih happlied

theorem renamed_applyAll {operands operands' : List Expr} {pending pending' : List Pending}
    (hoperands : List.Forall₂ (Expr.Renamed op other) operands operands')
    (hpending : List.Forall₂ (Pending.Renamed op other) pending pending') :
    SameOutcome (List.Forall₂ (Expr.Renamed op other)) (applyAll operands pending)
      (applyAll operands' pending') := by
  induction hpending generalizing operands operands' with
  | nil => exact .ok hoperands
  | cons htop hrest ih => exact (htop.apply hoperands).bind fun _ _ happlied => ih happlied

namespace Stacks.Renamed

variable {held held' : Stacks}

theorem pushOperand (h : held.Renamed op other held') {value value' : Expr}
    (hvalue : value.Renamed op other value') :
    (held.pushOperand value).Renamed op other (held'.pushOperand value') :=
  ⟨.cons hvalue h.operands, h.pending⟩

theorem pushPending (h : held.Renamed op other held') {pending pending' : Pending}
    (hpending : pending.Renamed op other pending') :
    (held.pushPending pending).Renamed op other (held'.pushPending pending') :=
  ⟨h.operands, .cons hpending h.pending⟩

theorem takeUp (h : held.Renamed op other held') {pending pending' : Pending}
    (hpending : pending.Renamed op other pending') :
    SameOutcome (Stacks.Renamed op other) (held.takeUp pending) (held'.takeUp pending') := by
  obtain ⟨hprecedence, hfixity⟩ := hpending.rank_eq
  have happlied : SameOutcome (Stacks.Renamed op other)
      (applyFor pending.arrival held.operands held.pending)
      (applyFor pending'.arrival held'.operands held'.pending) :=
    renamed_applyFor hprecedence hfixity h.operands h.pending
  exact happlied.bind fun _ _ happlied => .ok (happlied.pushPending hpending)

theorem takePostfix (h : held.Renamed op other held') {use use' : OperatorUse}
    (huse : InPlace op other use use') {entry entry' : OperatorEntry}
    (hrank : entry.rank = entry'.rank) :
    SameOutcome (Stacks.Renamed op other) (held.takePostfix use entry)
      (held'.takePostfix use' entry') := by
  unfold Stacks.takePostfix
  refine SameOutcome.bind (renamed_applyFor (Rank.mk.inj hrank).1 ?_ h.operands h.pending)
    fun applied applied' happlied => ?_
  · rfl
  · obtain ⟨operands, pending⟩ := applied
    obtain ⟨operands', pending'⟩ := applied'
    obtain ⟨hoperands, hpending⟩ := happlied
    dsimp only at hoperands
    cases hoperands with
    | nil => exact .error rfl
    | cons hoperand hrest => exact .ok ⟨.cons (.behind huse hoperand) hrest, hpending⟩

end Stacks.Renamed

/-! ## Steps -/

section Steps

variable {arrangement arrangement' : Arrangement} {held held' : Stacks} {use use' : OperatorUse}

theorem renamed_takeArgument (h : arrangement.Renamed op other arrangement') (span span' : Span) :
    SameOutcome (Stacks.Renamed op other) (takeArgument arrangement span)
      (takeArgument arrangement' span') := by
  unfold takeArgument
  rw [h.expects]
  split
  · exact .ok h.held
  · exact h.held.takeUp (.application span span')

theorem renamed_takeLeading (hranks : table.SameRanks use.name use'.name)
    (huse : InPlace op other use use') (h : held.Renamed op other held') :
    SameOutcome (Arrangement.Renamed op other) (takeLeading table held use)
      (takeLeading table held' use') := by
  unfold takeLeading
  rcases hranks.lookup_cases .prefixOp with ⟨hname, hother⟩ | ⟨entry, entry', hname, hother, hrank⟩
  · rw [hname, hother, hranks.isDeclared_eq]
    dsimp only
    split
    · exact .error rfl
    · exact .error rfl
  · rw [hname, hother]
    exact .ok ⟨h.pushPending (.prefixed huse hrank), rfl⟩

theorem renamed_takeFollowing (hranks : table.SameRanks use.name use'.name)
    (huse : InPlace op other use use') (h : held.Renamed op other held') (isLast : Bool) :
    SameOutcome (Arrangement.Renamed op other) (takeFollowing table held isLast use)
      (takeFollowing table held' isLast use') := by
  have hbehind {entry entry' : OperatorEntry} (hrank : entry.rank = entry'.rank) :
      SameOutcome (Arrangement.Renamed op other)
        (do return ⟨← held.takePostfix use entry, false⟩)
        (do return ⟨← held'.takePostfix use' entry', false⟩) :=
    (h.takePostfix huse hrank).bind fun _ _ htaken => .ok ⟨htaken, rfl⟩
  have hjoin {entry entry' : OperatorEntry} (hrank : entry.rank = entry'.rank) :
      SameOutcome (Arrangement.Renamed op other)
        (do return ⟨← held.takeUp (.binary use entry), true⟩)
        (do return ⟨← held'.takeUp (.binary use' entry'), true⟩) :=
    (h.takeUp (.binary huse hrank)).bind fun _ _ htaken => .ok ⟨htaken, rfl⟩
  have hlead {entry entry' : OperatorEntry} (hrank : entry.rank = entry'.rank) :
      SameOutcome (Arrangement.Renamed op other)
        (do
          let applied ← held.takeUp (.application use.span)
          return ⟨applied.pushPending (.prefixed use entry), true⟩)
        (do
          let applied ← held'.takeUp (.application use'.span)
          return ⟨applied.pushPending (.prefixed use' entry'), true⟩) :=
    (h.takeUp (.application _ _)).bind fun _ _ htaken =>
      .ok ⟨htaken.pushPending (.prefixed huse hrank), rfl⟩
  unfold takeFollowing
  rcases hranks.lookup_cases .infixOp with ⟨hin, hin'⟩ | ⟨join, join', hin, hin', hjoinRank⟩
  · rcases hranks.lookup_cases .postfixOp with
      ⟨hpost, hpost'⟩ | ⟨entry, entry', hpost, hpost', hrank⟩
    · rcases hranks.lookup_cases .prefixOp with ⟨hpre, hpre'⟩ | ⟨entry, entry', hpre, hpre', hrank⟩
      · simp only [hin, hin', hpost, hpost', hpre, hpre']
        exact .error rfl
      · simp only [hin, hin', hpost, hpost', hpre, hpre']
        exact hlead hrank
    · simp only [hin, hin', hpost, hpost']
      exact hbehind hrank
  · rcases hranks.lookup_cases .postfixOp with
      ⟨hpost, hpost'⟩ | ⟨entry, entry', hpost, hpost', hrank⟩
    · simp only [hin, hin', hpost, hpost']
      exact hjoin hjoinRank
    · simp only [hin, hin', hpost, hpost']
      split
      · exact hbehind hrank
      · exact hjoin hjoinRank

theorem renamed_takeStep (hranks : table.SameRanks op.name other.name)
    (h : arrangement.Renamed op other arrangement') {step step' : Step}
    (hstep : step.Renamed op other step') (isLast : Bool) :
    SameOutcome (Arrangement.Renamed op other) (takeStep table arrangement isLast step)
      (takeStep table arrangement' isLast step') := by
  cases hstep with
  | operand hvalue =>
    exact (renamed_takeArgument h _ _).bind fun _ _ htaken =>
      .ok ⟨htaken.pushOperand hvalue, rfl⟩
  | conditional condition thenBranch span =>
    exact (renamed_takeArgument h _ _).bind fun _ _ htaken =>
      .ok ⟨htaken.pushPending (.conditional condition thenBranch span), rfl⟩
  | operator huse =>
    have huseRanks := huse.sameRanks hranks
    simp only [takeStep, h.expects]
    split
    · exact renamed_takeLeading huseRanks huse h.held
    · exact renamed_takeFollowing huseRanks huse h.held isLast

theorem renamed_takeSteps (hranks : table.SameRanks op.name other.name) {steps steps' : List Step}
    (h : arrangement.Renamed op other arrangement')
    (hsteps : List.Forall₂ (Step.Renamed op other) steps steps') :
    SameOutcome (Arrangement.Renamed op other) (takeSteps table arrangement steps)
      (takeSteps table arrangement' steps') := by
  induction hsteps generalizing arrangement arrangement' with
  | nil => exact .ok h
  | @cons step step' rest rest' hstep hrest ih =>
    have hlast : rest.isEmpty = rest'.isEmpty := by cases hrest <;> rfl
    rw [takeSteps, takeSteps, hlast]
    exact (renamed_takeStep hranks h hstep _).bind fun _ _ hnext => ih hnext

end Steps

/-! ## Expressions -/

theorem renamed_arrange (hranks : table.SameRanks op.name other.name) (span : Span)
    {steps steps' : List Step} (hsteps : List.Forall₂ (Step.Renamed op other) steps steps') :
    SameOutcome (Expr.Renamed op other) (arrange table span steps)
      (arrange table span steps') := by
  have hstart : Arrangement.Renamed op other ⟨⟨[], []⟩, true⟩ ⟨⟨[], []⟩, true⟩ :=
    ⟨⟨.nil, .nil⟩, rfl⟩
  refine (renamed_takeSteps hranks hstart hsteps).bind fun final final' hfinal => ?_
  obtain ⟨⟨operands, pending⟩, expects⟩ := final
  obtain ⟨⟨operands', pending'⟩, expects'⟩ := final'
  obtain ⟨⟨hoperands, hpending⟩, rfl⟩ := hfinal
  dsimp only at hoperands hpending ⊢
  split
  · cases hpending with
    | nil => exact .error rfl
    | cons htop hrest => exact .error rfl
  · refine (renamed_applyAll hoperands hpending).bind fun values values' hvalues => ?_
    cases hvalues with
    | nil => exact .error rfl
    | cons hvalue hrest =>
      cases hrest with
      | nil => exact .ok hvalue
      | cons hsecond hothers => exact .error rfl

theorem renamed_assemble (hranks : table.SameRanks op.name other.name) (span : Span)
    {readings readings' : Reading}
    (h : List.Forall₂ (SameOutcome (Step.Renamed op other)) readings readings') :
    SameOutcome (Expr.Renamed op other) (assemble table span readings)
      (assemble table span readings') := by
  have hempty : readings.isEmpty = readings'.isEmpty := by cases h <;> rfl
  have hread : SameOutcome (List.Forall₂ (Step.Renamed op other)) (readings.mapM id)
      (readings'.mapM id) := by
    clear hempty
    induction h with
    | nil => exact .ok .nil
    | cons hfirst hrest ih =>
      simp only [List.mapM_cons]
      exact SameOutcome.bind hfirst fun _ _ hstep => ih.bind fun _ _ hsteps =>
        .ok (.cons hstep hsteps)
  unfold assemble
  rw [hempty]
  split
  · exact .error rfl
  · exact hread.bind fun _ _ hsteps => renamed_arrange hranks span hsteps

/-- The operator of a section may have either name. -/
theorem renamed_assembleSection (hranks : table.SameRanks op.name other.name) (hole : Hole)
    (operand : Reading) (operandSpan span : Span) :
    SameOutcome (Expr.Renamed op other) (assembleSection table op hole operand operandSpan span)
      (assembleSection table other hole operand operandSpan span) := by
  have hoperand : List.Forall₂ (SameOutcome (Step.Renamed op other)) operand operand :=
    List.forall₂_same.mpr fun reading _ => .refl .refl reading
  have hoperator : SameOutcome (Step.Renamed op other) (.ok (.operator op))
      (.ok (.operator other)) := .ok (.operator .renamed)
  have hopen (hasInfix : Bool) (side : OperandSide) : SameOutcome (Expr.Renamed op other)
      (assembleSection.assembleOpen table op hole operand operandSpan span hasInfix side)
      (assembleSection.assembleOpen table other hole operand operandSpan span hasInfix side) := by
    unfold assembleSection.assembleOpen
    rw [hranks.isDeclared_eq]
    split
    · cases assemble table operandSpan operand with
      | ok e => exact .ok (.partialApply e hole span)
      | error problem => exact .error rfl
    · split
      · exact .error rfl
      · exact .error rfl
  unfold assembleSection
  simp only [hranks.isSome_eq]
  cases hole with
  | left =>
    dsimp only
    split
    · exact renamed_assemble hranks span (.cons hoperator hoperand)
    · exact hopen _ _
  | right =>
    dsimp only
    split
    · exact renamed_assemble hranks span (List.rel_append hoperand (.cons hoperator .nil))
    · exact hopen _ _

end Alike

end Equational

import Equational.Proofs.Expr.Placement

/-!
# Spans that resolution gives

Resolution makes up no positions: what it builds, and what it complains about, begins where some
item of the run begins and ends where some item ends.  Some positions are taken to be anchors.  If
the items of a run begin and end at anchors, one behind another, then the expression of the run does
as well, or the diagnostic is about a span that does.

A conditional without its else branch ends where its then branch begins, which may be behind
everything else in the run; it only has to begin in its place.  Nothing is asked of what resolution
does not look at.
-/

namespace Equational

variable {α β : Type} {anchors : Nat → Prop} {low middle high : Nat}

/-! ## Anchored spans -/

/-- From an anchor to a later one. -/
structure Span.IsAnchored (anchors : Nat → Prop) (span : Span) : Prop where
  start : anchors span.start
  stop : anchors span.stop
  ordered : span.start ≤ span.stop

structure Span.Sits (anchors : Nat → Prop) (low : Nat) (span : Span) (high : Nat) : Prop
    extends span.IsAnchored anchors where
  low_le : low ≤ span.start
  le_high : span.stop ≤ high

/-- An anchored span that begins between two positions. -/
structure Span.Opens (anchors : Nat → Prop) (low : Nat) (span : Span) (high : Nat) : Prop
    extends span.IsAnchored anchors where
  low_le : low ≤ span.start
  le_high : span.start ≤ high

instance Span.sits_spreads : Spreads (Span.Sits anchors) where
  le h := Nat.le_trans h.low_le (Nat.le_trans h.ordered h.le_high)
  widen h hlow hhigh :=
    ⟨h.toIsAnchored, Nat.le_trans hlow h.low_le, Nat.le_trans h.le_high hhigh⟩

instance Span.opens_spreads : Spreads (Span.Opens anchors) where
  le h := Nat.le_trans h.low_le h.le_high
  widen h hlow hhigh :=
    ⟨h.toIsAnchored, Nat.le_trans hlow h.low_le, Nat.le_trans h.le_high hhigh⟩

namespace Span

variable {first last span : Span}

theorem Sits.opens (h : span.Sits anchors low high) : span.Opens anchors low high :=
  ⟨h.toIsAnchored, h.low_le, Nat.le_trans h.ordered h.le_high⟩

theorem IsAnchored.sits (h : span.IsAnchored anchors) : span.Sits anchors span.start span.stop :=
  ⟨h, Nat.le_refl _, Nat.le_refl _⟩

theorem Opens.through (h : first.Opens anchors low middle) (h' : last.Sits anchors middle high) :
    (first.through last).Sits anchors low high :=
  ⟨⟨h.start, h'.stop, Nat.le_trans h.le_high (Nat.le_trans h'.low_le h'.ordered)⟩, h.low_le,
    h'.le_high⟩

end Span

/-! ## Groupings -/

def Leading.Sits (anchors : Nat → Prop) (low : Nat) (operator : Leading) (high : Nat) : Prop :=
  match operator with
  | .prefixed op _ => op.span.Sits anchors low high
  | .conditional _ _ span => span.Opens anchors low high

def Part.Sits (anchors : Nat → Prop) (low : Nat) (part : Part) (high : Nat) : Prop :=
  match part with
  | .operand value => value.span.Sits anchors low high
  | .leading operator => operator.Sits anchors low high
  | .joining _ => low ≤ high
  | .trailing operator => operator.op.span.Sits anchors low high

instance Part.sits_spreads : Spreads (Part.Sits anchors) where
  le {_ _ part} h := by
    cases part with
    | operand value => exact Span.sits_spreads.le h
    | joining operator => exact h
    | trailing operator => exact Span.sits_spreads.le h
    | leading operator =>
      cases operator with
      | prefixed op entry => exact Span.sits_spreads.le h
      | conditional condition thenBranch span => exact Span.opens_spreads.le h
  widen {_ _ _ _ part} h hlow hhigh := by
    cases part with
    | operand value => exact Span.sits_spreads.widen h hlow hhigh
    | joining operator => exact Nat.le_trans hlow (Nat.le_trans h hhigh)
    | trailing operator => exact Span.sits_spreads.widen h hlow hhigh
    | leading operator =>
      cases operator with
      | prefixed op entry => exact Span.sits_spreads.widen h hlow hhigh
      | conditional condition thenBranch span => exact Span.opens_spreads.widen h hlow hhigh

theorem Leading.sits_node {operator : Leading} {operand : Expr}
    (h : operator.Sits anchors low middle) (hoperand : operand.span.Sits anchors middle high) :
    (operator.node operand).span.Sits anchors low high := by
  cases operator with
  | prefixed op entry =>
    have hspan := (Span.Sits.opens h).through hoperand
    unfold node prefixNode
    dsimp only
    split <;> exact hspan
  | conditional condition thenBranch span =>
    have hspan := Span.Opens.through h hoperand
    cases thenBranch <;> exact hspan

theorem Joining.sits_node {operator : Joining} {left right : Expr}
    (hleft : left.span.Sits anchors low middle) (hright : right.span.Sits anchors middle high) :
    (operator.node left right).span.Sits anchors low high := by
  have hspan := hleft.opens.through hright
  cases operator with
  | application span => exact hspan
  | binary op entry =>
    unfold node binaryNode
    dsimp only
    split <;> exact hspan

theorem Grouping.sits_expr {g : Grouping} (h : Row (Part.Sits anchors) low g.parts high) :
    g.expr.span.Sits anchors low high := by
  induction g generalizing low high with
  | leaf value => exact h.of_singleton
  | leading operator operand ih =>
    obtain _ | ⟨hoperator, hoperand⟩ := h
    exact Leading.sits_node hoperator (ih hoperand)
  | joining operator left right ihLeft ihRight =>
    obtain ⟨middle, hleft, hrest⟩ := h.split
    obtain _ | ⟨hoperator, hright⟩ := hrest
    exact Joining.sits_node (ihLeft hleft)
      (Span.sits_spreads.widen (ihRight hright) hoperator (Nat.le_refl _))
  | trailing operator operand ih =>
    obtain ⟨middle, hoperand, hoperator⟩ := h.split
    exact (ih hoperand).opens.through hoperator.of_singleton

/-! ## Steps -/

namespace Step

def span : Step → Span
  | operand value => value.span
  | operator op => op.span
  | conditional _ _ span => span

def Sits (anchors : Nat → Prop) (low : Nat) (step : Step) (high : Nat) : Prop :=
  match step with
  | operand value => value.span.Sits anchors low high
  | operator op => op.span.Sits anchors low high
  | conditional _ _ span => span.Opens anchors low high

instance sits_spreads : Spreads (Sits anchors) where
  le {_ _ step} h := by
    cases step with
    | operand value => exact Span.sits_spreads.le h
    | operator op => exact Span.sits_spreads.le h
    | conditional condition thenBranch span => exact Span.opens_spreads.le h
  widen {_ _ _ _ step} h hlow hhigh := by
    cases step with
    | operand value => exact Span.sits_spreads.widen h hlow hhigh
    | operator op => exact Span.sits_spreads.widen h hlow hhigh
    | conditional condition thenBranch span => exact Span.opens_spreads.widen h hlow hhigh

variable {table : OperatorTable} {step : Step}

theorem Sits.isAnchored (h : step.Sits anchors low high) : step.span.IsAnchored anchors := by
  cases step with
  | operand value => exact Span.Sits.toIsAnchored h
  | operator op => exact Span.Sits.toIsAnchored h
  | conditional condition thenBranch span => exact Span.Opens.toIsAnchored h

theorem sits_places : Places (Sits anchors) (Part.Sits anchors) where
  application _ low := Nat.le_refl low
  operand h := h
  conditional h := h
  leading h := h
  joining h := Span.sits_spreads.le h
  trailing h := h

end Step

/-! ## Diagnostics -/

/-- A value as it should be, or a diagnostic about an anchored span. -/
def Points (anchors : Nat → Prop) (good : α → Prop) : Except Diagnostic α → Prop
  | .ok value => good value
  | .error diagnostic => diagnostic.span.IsAnchored anchors

namespace Points

variable {good : α → Prop} {good' : β → Prop} {result : Except Diagnostic α}

theorem bind {next : α → Except Diagnostic β} (h : Points anchors good result)
    (hnext : ∀ value, good value → Points anchors good' (next value)) :
    Points anchors good' (result >>= next) := by
  cases result with
  | ok value => exact hnext value h
  | error diagnostic => exact h

theorem of_ok {other : α → Prop} (h : Points anchors good result)
    (hvalue : ∀ value, result = .ok value → other value) : Points anchors other result := by
  cases result with
  | ok value => exact hvalue value rfl
  | error diagnostic => exact h

theorem imp {other : α → Prop} (h : Points anchors good result)
    (hvalue : ∀ value, good value → other value) : Points anchors other result := by
  cases result with
  | ok value => exact hvalue value h
  | error diagnostic => exact h

end Points

section Arranging

variable {table : OperatorTable} {held : Stacks} {arrangement : Arrangement}

def Stacks.IsAnchored (anchors : Nat → Prop) (held : Stacks) : Prop :=
  ∀ pending ∈ held.pending, pending.span.IsAnchored anchors

theorem Pending.points_apply {pending : Pending} (h : pending.span.IsAnchored anchors)
    (operands : List Expr) : Points anchors (fun _ => True) (pending.apply operands) := by
  cases operands with
  | nil => exact h
  | cons right rest =>
    cases pending with
    | prefixed op entry => trivial
    | conditional condition thenBranch span => trivial
    | binary op entry =>
      cases rest with
      | nil => exact h
      | cons left rest => trivial
    | application span =>
      cases rest with
      | nil => exact h
      | cons function rest => trivial

theorem points_applyFor (arrival : Arrival) (harrival : arrival.span.IsAnchored anchors)
    (operands : List Expr) {pending : List Pending}
    (h : ∀ top ∈ pending, top.span.IsAnchored anchors) :
    Points anchors (Stacks.IsAnchored anchors) (applyFor arrival operands pending) := by
  induction pending generalizing operands with
  | nil => exact h
  | cons top rest ih =>
    obtain ⟨htop, hrest⟩ := List.forall_mem_cons.mp h
    unfold applyFor
    split
    · exact h
    · exact harrival
    · exact (top.points_apply htop operands).bind fun applied _ => ih applied hrest

theorem points_applyAll (operands : List Expr) {pending : List Pending}
    (h : ∀ top ∈ pending, top.span.IsAnchored anchors) :
    Points anchors (fun _ => True) (applyAll operands pending) := by
  induction pending generalizing operands with
  | nil => trivial
  | cons top rest ih =>
    obtain ⟨htop, hrest⟩ := List.forall_mem_cons.mp h
    exact (top.points_apply htop operands).bind fun applied _ => ih applied hrest

namespace Stacks.IsAnchored

variable (h : held.IsAnchored anchors)

include h

theorem pushPending (pending : Pending) (hpending : pending.span.IsAnchored anchors) :
    (held.pushPending pending).IsAnchored anchors := List.forall_mem_cons.mpr ⟨hpending, h⟩

theorem points_takeUp (pending : Pending) (hpending : pending.span.IsAnchored anchors) :
    Points anchors (IsAnchored anchors) (held.takeUp pending) :=
  (points_applyFor pending.arrival hpending _ h).bind fun _ happlied =>
    pushPending happlied pending hpending

theorem points_takePostfix {op : OperatorUse} (hop : op.span.IsAnchored anchors)
    (entry : OperatorEntry) : Points anchors (IsAnchored anchors) (held.takePostfix op entry) := by
  refine (points_applyFor ⟨entry.precedence, .postfixOp, op.text, op.span⟩ hop _ h).bind
    fun applied happlied => ?_
  split
  · exact happlied
  · exact hop

theorem points_takeLeading {op : OperatorUse} (hop : op.span.IsAnchored anchors) :
    Points anchors (·.held.IsAnchored anchors) (takeLeading table held op) := by
  unfold takeLeading
  split
  · exact h.pushPending (.prefixed op _) hop
  · split <;> exact hop

theorem points_takeFollowing {op : OperatorUse} (hop : op.span.IsAnchored anchors)
    (isLast : Bool) :
    Points anchors (·.held.IsAnchored anchors) (takeFollowing table held isLast op) := by
  have hbehind (entry : OperatorEntry) := h.points_takePostfix hop entry
  have hjoin (entry : OperatorEntry) := h.points_takeUp (.binary op entry) hop
  have hargument := h.points_takeUp (.application op.span) hop
  unfold takeFollowing
  dsimp only
  split
  · exact (hbehind _).bind fun applied happlied => happlied
  · exact (hjoin _).bind fun applied happlied => happlied
  · split
    · exact (hbehind _).bind fun applied happlied => happlied
    · exact (hjoin _).bind fun applied happlied => happlied
  · refine hargument.bind fun applied happlied => ?_
    exact pushPending happlied (.prefixed op _) hop
  · exact hop

end Stacks.IsAnchored

theorem points_takeArgument (h : arrangement.held.IsAnchored anchors) {span : Span}
    (hspan : span.IsAnchored anchors) :
    Points anchors (Stacks.IsAnchored anchors) (takeArgument arrangement span) := by
  unfold takeArgument
  split
  · exact h
  · exact h.points_takeUp (.application span) hspan

theorem points_takeStep (h : arrangement.held.IsAnchored anchors) (isLast : Bool) {step : Step}
    (hstep : step.span.IsAnchored anchors) :
    Points anchors (·.held.IsAnchored anchors) (takeStep table arrangement isLast step) := by
  cases step with
  | operand value => exact (points_takeArgument h hstep).bind fun held hheld => hheld
  | conditional condition thenBranch span =>
    refine (points_takeArgument h hstep).bind fun held hheld => ?_
    exact hheld.pushPending (.conditional condition thenBranch span) hstep
  | operator op =>
    rw [takeStep]
    split
    · exact h.points_takeLeading hstep
    · exact h.points_takeFollowing hstep isLast

theorem points_takeSteps {steps : List Step} (h : arrangement.held.IsAnchored anchors)
    (hsteps : ∀ step ∈ steps, step.span.IsAnchored anchors) :
    Points anchors (·.held.IsAnchored anchors) (takeSteps table arrangement steps) := by
  induction steps generalizing arrangement with
  | nil => exact h
  | cons step rest ih =>
    obtain ⟨hstep, hrest⟩ := List.forall_mem_cons.mp hsteps
    exact (points_takeStep h _ hstep).bind fun next hnext => ih hnext hrest

theorem points_arrange {span : Span} (hspan : span.IsAnchored anchors) {steps : List Step}
    (hsteps : ∀ step ∈ steps, step.span.IsAnchored anchors) :
    Points anchors (fun _ => True) (arrange table span steps) := by
  have hempty : Stacks.IsAnchored anchors (Arrangement.mk ⟨[], []⟩ true).held :=
    List.forall_mem_nil _
  refine (points_takeSteps hempty hsteps).bind fun final hfinal => ?_
  split
  · split
    · rename_i top rest hpending
      exact hfinal top (hpending ▸ List.mem_cons_self)
    · exact hspan
  · refine (points_applyAll _ hfinal).bind fun values _ => ?_
    split
    · trivial
    · exact hspan

end Arranging

/-! ## Readings -/

/-- What could not be read may have been anything between the two positions. -/
structure ReadingSits (anchors : Nat → Prop) (low : Nat) (reading : Except Diagnostic Step)
    (high : Nat) : Prop where
  le : low ≤ high
  points : Points anchors (fun step => step.Sits anchors low high) reading

instance ReadingSits.spreads : Spreads (ReadingSits anchors) where
  le h := h.le
  widen h hlow hhigh := ⟨Nat.le_trans hlow (Nat.le_trans h.le hhigh),
    h.points.imp fun _ hstep => Step.sits_spreads.widen hstep hlow hhigh⟩

section Assembling

variable {table : OperatorTable} {readings : Reading} {span : Span}

theorem points_readings (h : Row (ReadingSits anchors) low readings high) :
    Points anchors (fun steps => Row (Step.Sits anchors) low steps high) (readings.mapM id) := by
  induction h with
  | nil h => exact Row.nil h
  | cons hfirst _ ih =>
    rw [List.mapM_cons]
    refine hfirst.points.bind fun step hstep => ih.bind fun rest hrest => ?_
    exact Row.cons hstep hrest

theorem points_assemble (hspan : span.IsAnchored anchors)
    (h : Row (ReadingSits anchors) low readings high) :
    Points anchors (fun e => e.span.Sits anchors low high) (assemble table span readings) := by
  have hsteps := points_readings h
  have hfails : Points anchors (fun _ => True) (assemble table span readings) := by
    unfold assemble
    split
    · exact hspan
    · refine hsteps.bind fun steps hrow => points_arrange hspan fun step hstep => ?_
      exact Step.Sits.isAnchored (hrow.of_mem hstep)
  refine hfails.of_ok fun e hassemble => ?_
  obtain ⟨steps, g, hread, hparts, rfl⟩ := grouping_of_assemble hassemble
  rw [hread] at hsteps
  exact Grouping.sits_expr (Step.sits_places.partsOf hsteps hparts)

/-! ## Sections -/

variable (hspan : span.IsAnchored anchors) (hlow : span.start ≤ low) (hhigh : high ≤ span.stop)

include hspan hlow hhigh

theorem points_assembleSection {op : OperatorUse} {hole : Hole} {operand : Reading}
    {operandSpan : Span} (hoperand : operandSpan.IsAnchored anchors)
    (h : Row (ReadingSits anchors) low (hole.readings op operand) high) :
    Points anchors (fun e => e.span.Sits anchors span.start span.stop)
      (assembleSection table op hole operand operandSpan span) := by
  have hwhole : Points anchors (fun e => e.span.Sits anchors span.start span.stop)
      (assemble table span (hole.readings op operand)) :=
    (points_assemble hspan h).imp fun e he => Span.sits_spreads.widen he hlow hhigh
  obtain ⟨hop, hinner⟩ : op.span.IsAnchored anchors ∧
      Points anchors (fun _ => True) (assemble table operandSpan operand) := by
    cases hole with
    | left =>
      obtain _ | ⟨hop, hrest⟩ := h
      have hop' : op.span.Sits anchors _ _ := hop.points
      exact ⟨hop'.toIsAnchored, (points_assemble hoperand hrest).imp fun _ _ => trivial⟩
    | right =>
      obtain ⟨middle, hrest, hop⟩ := h.split
      have hop' : op.span.Sits anchors _ _ := hop.of_singleton.points
      exact ⟨hop'.toIsAnchored, (points_assemble hoperand hrest).imp fun _ _ => trivial⟩
  have hopen (hasInfix : Bool) (side : OperandSide) :
      Points anchors (fun e => e.span.Sits anchors span.start span.stop)
        (assembleSection.assembleOpen table op hole operand operandSpan span hasInfix side) := by
    unfold assembleSection.assembleOpen
    split
    · exact hinner.bind fun _ _ => hspan.sits
    · split <;> exact hop
  unfold assembleSection
  cases hole with
  | left =>
    dsimp only
    split
    · exact hwhole
    · exact hopen _ _
  | right =>
    dsimp only
    split
    · exact hwhole
    · exact hopen _ _

end Assembling

end Equational

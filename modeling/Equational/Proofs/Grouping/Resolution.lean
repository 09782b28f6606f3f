import Equational.Proofs.Grouping.Building
import Equational.Proofs.Operator.Lookup
import Equational.Proofs.Result

/-!
# Resolution as grouping

The operands and the pending operators that resolution keeps on its stacks are the left operands and
the operators of the open nodes.  Hence a run resolves to an expression exactly if its parts have an
admissible grouping, and there is at most one; if the parts have none, two of the operators do not
associate, and that is what the diagnostic says.
-/

namespace Equational

/-! ## Stacks of open nodes -/

def frameOperands : List Frame → List Expr
  | [] => []
  | .leading _ :: rest => frameOperands rest
  | .joining left _ :: rest => left.expr :: frameOperands rest

namespace Unfinished

def expectsOperand : Unfinished → Bool
  | expecting _ => true
  | holding _ _ => false

def toStacks : Unfinished → Stacks
  | expecting frames => ⟨frameOperands frames, frames.map Frame.pending⟩
  | holding frames focus => ⟨focus.expr :: frameOperands frames, frames.map Frame.pending⟩

def arrangement (held : Unfinished) : Arrangement := ⟨held.toStacks, held.expectsOperand⟩

end Unfinished

def Arrival.rank (arrival : Arrival) : Rank := ⟨arrival.precedence, arrival.fixity⟩

theorem apply_close (frame : Frame) (rest : List Frame) (focus : Grouping) :
    frame.pending.apply (focus.expr :: frameOperands (frame :: rest)) =
      .ok ((frame.close focus).expr :: frameOperands rest) := by
  cases frame with
  | leading operator => simp [Frame.pending, frameOperands, Frame.close, Grouping.expr]
  | joining left operator => simp [Frame.pending, frameOperands, Frame.close, Grouping.expr]

theorem applyFor_answers (arrival : Arrival) (frames : List Frame) (focus : Grouping) :
    Answers (applyFor arrival (focus.expr :: frameOperands frames) (frames.map Frame.pending))
      ((settle arrival.rank frames focus).map fun settled =>
        (Unfinished.holding settled.1 settled.2).toStacks) := by
  induction frames generalizing focus with
  | nil => exact .ok _
  | cons frame rest ih =>
    have hverdict : verdict frame.pending.precedence frame.pending.fixity arrival.precedence
        arrival.fixity = frame.rank.against arrival.rank := rfl
    simp only [List.map_cons, applyFor, settle, hverdict]
    cases frame.rank.against arrival.rank with
    | apply =>
      rw [apply_close]
      exact ih (frame.close focus)
    | keep => exact .ok _
    | clash => exact .clash _ _ _

theorem takeUp_answers (operator : Joining) (frames : List Frame) (focus : Grouping) :
    Answers ((Unfinished.holding frames focus).toStacks.takeUp operator.pending)
      (((Unfinished.holding frames focus).take (.joining operator)).map Unfinished.toStacks) := by
  simp only [Stacks.takeUp, Unfinished.take, Option.bind_eq_bind, Option.map_bind]
  refine (applyFor_answers operator.pending.arrival frames focus).bind ?_
  intro settled _
  exact .ok _

theorem takePostfix_answers (operator : Trailing) (hfixity : operator.entry.fixity = .postfixOp)
    (frames : List Frame) (focus : Grouping) :
    Answers ((Unfinished.holding frames focus).toStacks.takePostfix operator.op operator.entry)
      (((Unfinished.holding frames focus).take (.trailing operator)).map Unfinished.toStacks) := by
  have hrank : operator.rank = (⟨operator.entry.precedence, .postfixOp⟩ : Rank) := by
    simp [Trailing.rank, OperatorEntry.rank, hfixity]
  simp only [Stacks.takePostfix, Unfinished.take, Option.bind_eq_bind, Option.map_bind, hrank]
  refine (applyFor_answers ⟨operator.entry.precedence, .postfixOp, operator.op.text,
    operator.op.span⟩ frames focus).bind ?_
  intro settled _
  exact .ok _

/-! ## Steps -/

theorem Unfinished.expecting_of_take {frames : List Frame} {focus : Grouping} {operator : Joining}
    {taken : Unfinished} (h : (holding frames focus).take (.joining operator) = some taken) :
    ∃ opened, taken = expecting opened := by
  simp only [take, Option.bind_eq_bind, Option.bind_eq_some_iff] at h
  obtain ⟨settled, -, hopened⟩ := h
  cases hopened
  exact ⟨_, rfl⟩

theorem takeUp_bind_answers (operator : Joining) (frames : List Frame) (focus : Grouping)
    {rest : List Part} {next : Stacks → Except Diagnostic Arrangement}
    (hnext : ∀ opened, Answers (next (Unfinished.expecting opened).toStacks)
      ((rest.foldlM Unfinished.take (.expecting opened)).map Unfinished.arrangement)) :
    Answers ((Unfinished.holding frames focus).toStacks.takeUp operator.pending >>= next)
      (((.joining operator :: rest).foldlM Unfinished.take (.holding frames focus)).map
        Unfinished.arrangement) := by
  simp only [List.foldlM_cons, Option.bind_eq_bind, Option.map_bind]
  refine (takeUp_answers operator frames focus).bind ?_
  intro taken htaken
  obtain ⟨opened, rfl⟩ := Unfinished.expecting_of_take htaken
  exact hnext opened

theorem takePostfix_bind_answers (operator : Trailing)
    (hfixity : operator.entry.fixity = .postfixOp) (frames : List Frame) (focus : Grouping) :
    Answers (do
        let held ← (Unfinished.holding frames focus).toStacks.takePostfix operator.op operator.entry
        return ⟨held, false⟩)
      (([.trailing operator].foldlM Unfinished.take (.holding frames focus)).map
        Unfinished.arrangement) := by
  simp only [List.foldlM_cons, List.foldlM_nil, Option.bind_eq_bind, Option.map_bind]
  refine (takePostfix_answers operator hfixity frames focus).bind ?_
  intro taken htaken
  simp only [Unfinished.take, Option.bind_eq_bind, Option.bind_eq_some_iff] at htaken
  obtain ⟨settled, -, hheld⟩ := htaken
  cases hheld
  exact .ok _

private theorem takeFollowing_answers {table : OperatorTable} {isLast next : Bool}
    {op : OperatorUse}
    {parts : List Part} (h : followingParts? table isLast op = some (parts, next))
    (frames : List Frame) (focus : Grouping) :
    Answers (takeFollowing table (Unfinished.holding frames focus).toStacks isLast op)
      ((parts.foldlM Unfinished.take (.holding frames focus)).map Unfinished.arrangement) := by
  unfold followingParts? at h
  unfold takeFollowing
  cases hjoin : table.lookupName op.name .infixOp with
  | none =>
    cases hbehind : table.lookupName op.name .postfixOp with
    | some entry =>
      simp only [hjoin, hbehind] at h ⊢
      cases h
      exact takePostfix_bind_answers ⟨op, entry⟩
        (OperatorTable.fixity_of_lookupName_postfix hbehind) frames focus
    | none =>
      cases hlead : table.lookupName op.name .prefixOp with
      | none => simp [hjoin, hbehind, hlead] at h
      | some entry =>
        simp only [hjoin, hbehind, hlead] at h ⊢
        cases h
        exact takeUp_bind_answers (.application op.span) frames focus fun opened => .ok _
  | some entry =>
    cases hbehind : table.lookupName op.name .postfixOp with
    | none =>
      simp only [hjoin, hbehind] at h ⊢
      cases h
      exact takeUp_bind_answers (.binary op entry) frames focus fun opened => .ok _
    | some behind =>
      simp only [hjoin, hbehind] at h ⊢
      cases isLast with
      | false =>
        cases h
        exact takeUp_bind_answers (.binary op entry) frames focus fun opened => .ok _
      | true =>
        cases h
        exact takePostfix_bind_answers ⟨op, behind⟩
          (OperatorTable.fixity_of_lookupName_postfix hbehind) frames focus

theorem takeStep_answers {table : OperatorTable} {held : Unfinished} {isLast next : Bool}
    {step : Step} {parts : List Part}
    (h : step.parts? table held.expectsOperand isLast = some (parts, next)) :
    Answers (takeStep table held.arrangement isLast step)
      ((parts.foldlM Unfinished.take held).map Unfinished.arrangement) := by
  cases held with
  | expecting frames =>
    cases step with
    | operand value =>
      cases h
      exact .ok _
    | conditional condition thenBranch span =>
      cases h
      exact .ok _
    | operator op =>
      obtain ⟨entry, hentry, hparts⟩ := Option.map_eq_some_iff.mp h
      cases hparts
      simp only [takeStep, Unfinished.arrangement, Unfinished.expectsOperand, takeLeading, hentry]
      exact .ok _
  | holding frames focus =>
    cases step with
    | operand value =>
      cases h
      exact takeUp_bind_answers (.application value.span) frames focus fun opened => .ok _
    | conditional condition thenBranch span =>
      cases h
      exact takeUp_bind_answers (.application span) frames focus fun opened => .ok _
    | operator op => exact takeFollowing_answers h frames focus

def Part.expectsOperand : Part → Bool
  | operand _ | trailing _ => false
  | leading _ | joining _ => true

theorem Unfinished.expectsOperand_of_take {held taken : Unfinished} {part : Part}
    (h : held.take part = some taken) : taken.expectsOperand = part.expectsOperand := by
  cases held with
  | expecting frames => cases part <;> cases h <;> rfl
  | holding frames focus =>
    cases part with
    | operand value => cases h
    | leading operator => cases h
    | joining operator =>
      obtain ⟨opened, rfl⟩ := expecting_of_take h
      rfl
    | trailing operator =>
      simp only [take, Option.bind_eq_bind, Option.bind_eq_some_iff] at h
      obtain ⟨settled, -, hheld⟩ := h
      cases hheld
      rfl

private theorem followingParts?_last {table : OperatorTable} {isLast next : Bool} {op : OperatorUse}
    {parts : List Part} (h : followingParts? table isLast op = some (parts, next)) :
    ∃ front part, parts = front ++ [part] ∧ part.expectsOperand = next := by
  rcases followingParts?_cases h with
    ⟨entry, -, rfl, rfl⟩ | ⟨entry, -, rfl, rfl⟩ | ⟨entry, -, rfl, rfl⟩
  · exact ⟨[], _, rfl, rfl⟩
  · exact ⟨[], _, rfl, rfl⟩
  · exact ⟨[.joining (.application op.span)], _, rfl, rfl⟩

private theorem Step.parts?_last {table : OperatorTable} {expectsOperand isLast next : Bool}
    {step : Step}
    {parts : List Part} (h : step.parts? table expectsOperand isLast = some (parts, next)) :
    ∃ front part, parts = front ++ [part] ∧ part.expectsOperand = next := by
  cases step with
  | operand value =>
    cases h
    exact ⟨_, _, rfl, rfl⟩
  | conditional condition thenBranch span =>
    cases h
    exact ⟨_, _, rfl, rfl⟩
  | operator op =>
    cases expectsOperand with
    | true =>
      obtain ⟨entry, -, hparts⟩ := Option.map_eq_some_iff.mp h
      cases hparts
      exact ⟨[], _, rfl, rfl⟩
    | false => exact followingParts?_last h

theorem expectsOperand_of_parts {table : OperatorTable} {held final : Unfinished}
    {expectsOperand isLast next : Bool} {step : Step} {parts : List Part}
    (h : step.parts? table expectsOperand isLast = some (parts, next))
    (htake : parts.foldlM Unfinished.take held = some final) : final.expectsOperand = next := by
  obtain ⟨front, part, rfl, rfl⟩ := Step.parts?_last h
  simp only [List.foldlM_append, List.foldlM_cons, List.foldlM_nil, Option.bind_eq_bind,
    Option.bind_eq_some_iff] at htake
  obtain ⟨before, -, taken, htaken, hfinal⟩ := htake
  cases hfinal
  exact Unfinished.expectsOperand_of_take htaken

theorem expectsOperand_of_partsOf {table : OperatorTable} {held final : Unfinished}
    {steps : List Step} {parts : List Part}
    (h : partsOf? table held.expectsOperand steps = some parts)
    (htake : parts.foldlM Unfinished.take held = some final) : final.expectsOperand = false := by
  induction steps generalizing held parts with
  | nil =>
    cases held with
    | expecting frames => cases h
    | holding frames focus =>
      cases h
      cases htake
      rfl
  | cons step rest ih =>
    obtain ⟨first, next, behind, hfirst, hbehind, rfl⟩ := partsOf?_cons_eq_some_iff.mp h
    simp only [List.foldlM_append, Option.bind_eq_bind, Option.bind_eq_some_iff] at htake
    obtain ⟨taken, htaken, hfinal⟩ := htake
    rw [← expectsOperand_of_parts hfirst htaken] at hbehind
    exact ih hbehind hfinal

theorem takeSteps_answers {table : OperatorTable} {held : Unfinished} {steps : List Step}
    {parts : List Part} (h : partsOf? table held.expectsOperand steps = some parts) :
    Answers (takeSteps table held.arrangement steps)
      ((parts.foldlM Unfinished.take held).map Unfinished.arrangement) := by
  induction steps generalizing held parts with
  | nil =>
    cases held with
    | expecting frames => cases h
    | holding frames focus =>
      cases h
      exact .ok _
  | cons step rest ih =>
    obtain ⟨first, next, behind, hfirst, hbehind, rfl⟩ := partsOf?_cons_eq_some_iff.mp h
    simp only [takeSteps, List.foldlM_append, Option.bind_eq_bind, Option.map_bind]
    refine (takeStep_answers hfirst).bind ?_
    intro taken htaken
    rw [← expectsOperand_of_parts hfirst htaken] at hbehind
    exact ih hbehind

private theorem takeFollowing_ne_ok {table : OperatorTable} {isLast : Bool} {op : OperatorUse}
    (h : followingParts? table isLast op = none) (held : Stacks) (arranged : Arrangement) :
    takeFollowing table held isLast op ≠ .ok arranged := by
  unfold followingParts? at h
  unfold takeFollowing
  cases hjoin : table.lookupName op.name .infixOp with
  | some entry =>
    cases hbehind : table.lookupName op.name .postfixOp <;> cases isLast <;>
      simp [hjoin, hbehind] at h
  | none =>
    cases hbehind : table.lookupName op.name .postfixOp with
    | some entry => simp [hjoin, hbehind] at h
    | none =>
      cases hlead : table.lookupName op.name .prefixOp with
      | some entry => simp [hjoin, hbehind, hlead] at h
      | none =>
        intro harranged
        cases harranged

private theorem takeStep_ne_ok {table : OperatorTable} {held : Arrangement} {isLast : Bool}
    {step : Step}
    (h : step.parts? table held.expectsOperand isLast = none) (arranged : Arrangement) :
    takeStep table held isLast step ≠ .ok arranged := by
  cases step with
  | operand value => cases h
  | conditional condition thenBranch span => cases h
  | operator op =>
    simp only [Step.parts?] at h
    simp only [takeStep]
    cases hexpects : held.expectsOperand with
    | true =>
      have hlead : table.lookupName op.name .prefixOp = none := by
        simpa [hexpects] using h
      intro harranged
      simp only [if_true, takeLeading, hlead] at harranged
      split at harranged <;> cases harranged
    | false =>
      simp only [hexpects] at h
      exact takeFollowing_ne_ok h held.held arranged

theorem partsOf?_of_takeSteps {table : OperatorTable} {held : Unfinished} {steps : List Step}
    {final : Arrangement} (h : takeSteps table held.arrangement steps = .ok final)
    (hcomplete : final.expectsOperand = false) :
    ∃ parts, partsOf? table held.expectsOperand steps = some parts := by
  induction steps generalizing held with
  | nil =>
    cases held with
    | expecting frames =>
      cases h
      cases hcomplete
    | holding frames focus => exact ⟨[], rfl⟩
  | cons step rest ih =>
    obtain ⟨arranged, hstep, hrest⟩ := bind_eq_ok_iff.mp h
    cases hparts : step.parts? table held.expectsOperand rest.isEmpty with
    | none => exact absurd hstep (takeStep_ne_ok hparts arranged)
    | some placed =>
      obtain ⟨first, next⟩ := placed
      have harranged := ((takeStep_answers hparts).eq_ok_iff arranged).mp hstep
      obtain ⟨taken, htaken, rfl⟩ := Option.map_eq_some_iff.mp harranged
      obtain ⟨behind, hbehind⟩ := ih hrest
      rw [expectsOperand_of_parts hparts htaken] at hbehind
      exact ⟨_, partsOf?_cons_eq_some_iff.mpr ⟨first, next, behind, hparts, hbehind, rfl⟩⟩

/-! ## Runs -/

private theorem applyAll_closeAll (frames : List Frame) (focus : Grouping) :
    applyAll (focus.expr :: frameOperands frames) (frames.map Frame.pending) =
      .ok [(closeAll frames focus).expr] := by
  induction frames generalizing focus with
  | nil => rfl
  | cons frame rest ih =>
    simp only [List.map_cons, applyAll, apply_close]
    exact ih (frame.close focus)

theorem arrange_answers {table : OperatorTable} {steps : List Step} {parts : List Part}
    (h : partsOf? table true steps = some parts) (span : Span) :
    Answers (arrange table span steps) ((group? parts).map Grouping.expr) := by
  have hstart : partsOf? table (Unfinished.expecting []).expectsOperand steps = some parts := h
  simp only [arrange, group?, Option.map_bind]
  refine (takeSteps_answers hstart).bind ?_
  intro final hfinal
  have hcomplete := expectsOperand_of_partsOf hstart hfinal
  cases final with
  | expecting frames => cases hcomplete
  | holding frames focus =>
    have happlied : applyAll (Unfinished.holding frames focus).arrangement.held.operands
        (Unfinished.holding frames focus).arrangement.held.pending =
          .ok [(closeAll frames focus).expr] := applyAll_closeAll frames focus
    simp only [happlied]
    exact .ok _

theorem partsOf?_of_arrange {table : OperatorTable} {span : Span} {steps : List Step} {e : Expr}
    (h : arrange table span steps = .ok e) : ∃ parts, partsOf? table true steps = some parts := by
  obtain ⟨final, hsteps, hrest⟩ := bind_eq_ok_iff.mp h
  cases hexpects : final.expectsOperand with
  | false =>
    have hstart : takeSteps table (Unfinished.expecting []).arrangement steps = .ok final := hsteps
    exact partsOf?_of_takeSteps hstart hexpects
  | true =>
    simp only [hexpects, if_true] at hrest
    split at hrest <;> cases hrest

theorem assemble_eq {table : OperatorTable} {span : Span} {readings : Reading}
    {steps : List Step} (h : readings.mapM id = .ok steps) (hne : steps ≠ []) :
    assemble table span readings = arrange table span steps := by
  cases readings with
  | nil =>
    cases h
    exact absurd rfl hne
  | cons first rest =>
    simp only [assemble, List.isEmpty_cons, Bool.false_eq_true, if_false, h]
    rfl

theorem steps_of_assemble {table : OperatorTable} {span : Span} {readings : Reading} {e : Expr}
    (h : assemble table span readings = .ok e) :
    ∃ steps, readings.mapM id = .ok steps ∧ arrange table span steps = .ok e := by
  unfold assemble at h
  split at h
  · cases h
  · exact bind_eq_ok_iff.mp h

/-- The parts of a run whose nested runs resolve. -/
def Run.PartsAre (table : OperatorTable) (run : Run) (parts : List Part) : Prop :=
  ∃ steps, run.read table = .ok steps ∧ partsOf? table true steps = some parts

theorem Run.resolve_answers {table : OperatorTable} {run : Run} {parts : List Part}
    (h : run.PartsAre table parts) :
    Answers (run.resolve table) ((group? parts).map Grouping.expr) := by
  obtain ⟨steps, hread, hparts⟩ := h
  obtain ⟨items, span⟩ := run
  have hne : steps ≠ [] := by
    rintro rfl
    cases hparts
  have hreadings : (readItems table items).mapM id = .ok steps := hread
  rw [Run.resolve, assemble_eq hreadings hne]
  exact arrange_answers hparts span

theorem Run.partsAre_of_resolve {table : OperatorTable} {run : Run} {e : Expr}
    (h : run.resolve table = .ok e) : ∃ parts, run.PartsAre table parts := by
  obtain ⟨items, span⟩ := run
  rw [Run.resolve] at h
  obtain ⟨steps, hread, harrange⟩ := steps_of_assemble h
  obtain ⟨parts, hparts⟩ := partsOf?_of_arrange harrange
  exact ⟨parts, steps, hread, hparts⟩

/-! ## A run -/

def wordItem (text : String) (start : Nat) : RunItem :=
  .atom (.identifier ⟨none, ⟨text, .functionName⟩⟩ ⟨start, start + text.utf8ByteSize⟩)

def symbolItem (symbol : String) (start : Nat) : RunItem :=
  .operator ⟨⟨symbol, none⟩, ⟨start, start + symbol.utf8ByteSize⟩⟩

def mixedRun : Run :=
  .ofItems [symbolItem "-" 0, wordItem "x" 2, symbolItem "^" 4, wordItem "y" 6, symbolItem "+" 8,
    wordItem "f" 10, wordItem "z" 12] (.point 0)

end Equational

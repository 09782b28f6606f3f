import Equational.Expr.Resolve
import Equational.Proofs.Result

/-!
# Balanced stacks

Where an operand has to come next, the operands on the stack are as many as the pending operators
that join two of them; behind an operand there is one more.  Hence applying pending operators, early
or at the end, never runs out of operands, and at the end a single one is left.  A step can fail in
three ways: two operators do not associate, an operator lacks an operand, or it is not declared.
-/

namespace Equational

/-! ## Counting -/

def Pending.joins : Pending → Bool
  | binary _ _ | application _ => true
  | prefixed _ _ | conditional _ _ _ => false

def joiningCount (pending : List Pending) : Nat := pending.countP Pending.joins

theorem joiningCount_cons (top : Pending) (rest : List Pending) :
    joiningCount (top :: rest) = joiningCount rest + if top.joins then 1 else 0 :=
  List.countP_cons

theorem Pending.exists_apply {top : Pending} {rest : List Pending} {operands : List Expr}
    (h : operands.length = joiningCount (top :: rest) + 1) :
    ∃ applied, top.apply operands = .ok applied ∧ applied.length = joiningCount rest + 1 := by
  rw [joiningCount_cons] at h
  cases operands with
  | nil => simp at h
  | cons right operands =>
    have hbehind : operands.length = joiningCount rest + if top.joins then 1 else 0 := by
      rw [List.length_cons] at h
      omega
    cases top with
    | prefixed op entry => exact ⟨_, rfl, congrArg (· + 1) hbehind⟩
    | conditional condition thenBranch span => exact ⟨_, rfl, congrArg (· + 1) hbehind⟩
    | binary op entry =>
      cases operands with
      | nil => simp [joins] at hbehind
      | cons left operands => exact ⟨_, rfl, hbehind⟩
    | application span =>
      cases operands with
      | nil => simp [joins] at hbehind
      | cons function operands => exact ⟨_, rfl, hbehind⟩

theorem exists_applyAll {front back : List Pending} {operands : List Expr}
    (h : operands.length = joiningCount (front ++ back) + 1) :
    ∃ applied, applyAll operands front = .ok applied ∧ applied.length = joiningCount back + 1 := by
  induction front generalizing operands with
  | nil => exact ⟨operands, rfl, h⟩
  | cons top rest ih =>
    obtain ⟨first, hfirst, hlength⟩ := top.exists_apply h
    obtain ⟨applied, happlied, hback⟩ := ih hlength
    refine ⟨applied, ?_, hback⟩
    rw [applyAll, hfirst]
    exact happlied

theorem applyFor_cases (arrival : Arrival) {operands : List Expr} {pending : List Pending}
    (h : operands.length = joiningCount pending + 1) :
    (∃ front back applied, pending = front ++ back ∧ applyAll operands front = .ok applied ∧
      applyFor arrival operands pending = .ok ⟨applied, back⟩) ∨
    ∃ top ∈ pending,
      verdict top.precedence top.fixity arrival.precedence arrival.fixity = .clash ∧
      applyFor arrival operands pending =
        .error ⟨.ambiguousChain top.symbol arrival.symbol, arrival.span⟩ := by
  induction pending generalizing operands with
  | nil => exact .inl ⟨[], [], operands, rfl, rfl, rfl⟩
  | cons top rest ih =>
    cases hverdict : verdict top.precedence top.fixity arrival.precedence arrival.fixity with
    | keep => exact .inl ⟨[], top :: rest, operands, rfl, rfl, by rw [applyFor, hverdict]⟩
    | clash => exact .inr ⟨top, List.mem_cons_self, hverdict, by rw [applyFor, hverdict]⟩
    | apply =>
      obtain ⟨first, hfirst, hlength⟩ := top.exists_apply h
      have hbehind : applyFor arrival operands (top :: rest) = applyFor arrival first rest := by
        rw [applyFor, hverdict]
        simp only [hfirst]
        rfl
      rw [hbehind]
      rcases ih hlength with ⟨front, back, applied, rfl, hall, hfor⟩ | ⟨other, hmem, hclash, hfor⟩
      · refine .inl ⟨top :: front, back, applied, rfl, ?_, hfor⟩
        rw [applyAll, hfirst]
        exact hall
      · exact .inr ⟨other, List.mem_cons_of_mem _ hmem, hclash, hfor⟩

/-- With an operand in hand, the stacks suffice for what may be done with them: any number of the
pending operators can be applied, all of them leave one operand, and an arriving operator has some
of them applied or clashes. -/
structure Stacks.Suffice (held : Stacks) : Prop where
  some_applied : ∀ front back, held.pending = front ++ back →
    ∃ operands, applyAll held.operands front = .ok operands ∧
      operands.length = joiningCount back + 1
  all_applied : ∃ e, applyAll held.operands held.pending = .ok [e]
  arriving : ∀ arrival : Arrival,
    (∃ front back operands, held.pending = front ++ back ∧
      applyAll held.operands front = .ok operands ∧
      applyFor arrival held.operands held.pending = .ok ⟨operands, back⟩) ∨
    ∃ left, applyFor arrival held.operands held.pending =
      .error ⟨.ambiguousChain left arrival.symbol, arrival.span⟩

theorem Stacks.suffice {held : Stacks}
    (h : held.operands.length = joiningCount held.pending + 1) : held.Suffice := by
  have happlied {front back : List Pending} (hpending : held.pending = front ++ back) :
      ∃ operands, applyAll held.operands front = .ok operands ∧
        operands.length = joiningCount back + 1 := by
    rw [hpending] at h
    exact exists_applyAll h
  refine ⟨fun front back => happlied, ?_, fun arrival => ?_⟩
  · obtain ⟨operands, hoperands, hlength⟩ := happlied (List.append_nil held.pending).symm
    obtain ⟨e, rfl⟩ := List.length_eq_one_iff.mp hlength
    exact ⟨e, hoperands⟩
  · exact (applyFor_cases arrival h).imp id fun ⟨top, _, _, hfor⟩ => ⟨top.symbol, hfor⟩

/-! ## Operators that occur -/

section Objections

variable (table : OperatorTable) (occurs : OperatorUse → Prop)

def Pending.Stands : Pending → Prop
  | binary op entry => occurs op ∧ table.lookupName op.name .infixOp = some entry
  | prefixed op entry => occurs op ∧ table.lookupName op.name .prefixOp = some entry
  | application _ | conditional _ _ _ => True

inductive Arrival.Stands : Arrival → Prop where
  | joining (pending : Pending) (hjoins : pending.joins) (h : pending.Stands table occurs) :
    Stands pending.arrival
  | behind (op : OperatorUse) (entry : OperatorEntry) (h : occurs op)
    (hentry : table.lookupName op.name .postfixOp = some entry) :
    Stands ⟨entry.precedence, .postfixOp, op.text, op.span⟩

/-- What resolving may report, given the operators that occur and the runs without items. -/
inductive Objection (vacant : Span → Prop) : Diagnostic → Prop where
  | emptyRun (span : Span) (h : vacant span) : Objection vacant ⟨.emptyRun, span⟩
  | undeclared (op : OperatorUse) (h : occurs op) : Objection vacant (undeclared op)
  | missing (symbol : String) (side : OperandSide) (span : Span) :
    Objection vacant ⟨.missingOperand symbol side, span⟩
  | clash (top : Pending) (arrival : Arrival) (htop : top.Stands table occurs)
    (harrival : arrival.Stands table occurs)
    (h : verdict top.precedence top.fixity arrival.precedence arrival.fixity = .clash) :
    Objection vacant ⟨.ambiguousChain top.symbol arrival.symbol, arrival.span⟩
  | lambda (reason : String) (span : Span) : Objection vacant ⟨.malformedLambda reason, span⟩

/-- The pending operators occur, and there are operands for all of them but for those that are
still to come. -/
structure Stacks.IsSound (held : Stacks) (inHand : Nat) : Prop where
  count : held.operands.length = joiningCount held.pending + inHand
  stands : ∀ pending ∈ held.pending, pending.Stands table occurs

def Arrangement.IsSound (arrangement : Arrangement) : Prop :=
  arrangement.held.IsSound table occurs (if arrangement.expectsOperand then 0 else 1)

end Objections

/-! ## Taking up operators -/

section Taking

variable {table : OperatorTable} {occurs : OperatorUse → Prop} {vacant : Span → Prop}

namespace Arrangement.IsSound

variable {arrangement : Arrangement}

theorem expecting (h : arrangement.IsSound table occurs) (hexpects : arrangement.expectsOperand) :
    arrangement.held.IsSound table occurs 0 := by
  rwa [IsSound, if_pos hexpects] at h

theorem holding (h : arrangement.IsSound table occurs) (hexpects : ¬arrangement.expectsOperand) :
    arrangement.held.IsSound table occurs 1 := by
  rwa [IsSound, if_neg hexpects] at h

end Arrangement.IsSound

namespace Stacks.IsSound

variable {held : Stacks}

theorem pushOperand (h : held.IsSound table occurs 0) (operand : Expr) :
    (held.pushOperand operand).IsSound table occurs 1 :=
  ⟨congrArg (· + 1) h.count, h.stands⟩

theorem pushLeading (h : held.IsSound table occurs 0) (pending : Pending)
    (hjoins : pending.joins = false) (hstands : pending.Stands table occurs) :
    (held.pushPending pending).IsSound table occurs 0 where
  count := by simpa [pushPending, joiningCount_cons, hjoins] using h.count
  stands := List.forall_mem_cons.mpr ⟨hstands, h.stands⟩

theorem pushJoining (h : held.IsSound table occurs 1) (pending : Pending)
    (hjoins : pending.joins) (hstands : pending.Stands table occurs) :
    (held.pushPending pending).IsSound table occurs 0 where
  count := by simpa [pushPending, joiningCount_cons, hjoins] using h.count
  stands := List.forall_mem_cons.mpr ⟨hstands, h.stands⟩

theorem ends_applyFor (h : held.IsSound table occurs 1) {arrival : Arrival}
    (harrival : arrival.Stands table occurs) :
    EndsIn (Objection table occurs vacant) (fun applied => applied.IsSound table occurs 1)
      (applyFor arrival held.operands held.pending) := by
  rcases applyFor_cases arrival h.count with
    ⟨front, back, applied, hpending, hall, hfor⟩ | ⟨top, hmem, hclash, hfor⟩
  · have hcount := h.count
    rw [hpending] at hcount
    obtain ⟨found, hfound, hlength⟩ := exists_applyAll hcount
    obtain rfl := Except.ok.inj (hfound.symm.trans hall)
    rw [hfor]
    refine ⟨hlength, fun pending hmem => h.stands pending ?_⟩
    rw [hpending]
    exact List.mem_append_right front hmem
  · rw [hfor]
    exact .clash top arrival (h.stands top hmem) harrival hclash

theorem ends_takeUp (h : held.IsSound table occurs 1) (pending : Pending) (hjoins : pending.joins)
    (hstands : pending.Stands table occurs) :
    EndsIn (Objection table occurs vacant) (fun taken => taken.IsSound table occurs 0)
      (held.takeUp pending) :=
  (h.ends_applyFor (.joining pending hjoins hstands)).bind fun _ happlied =>
    happlied.pushJoining pending hjoins hstands

theorem ends_takePostfix (h : held.IsSound table occurs 1) {op : OperatorUse}
    {entry : OperatorEntry} (hoccurs : occurs op)
    (hentry : table.lookupName op.name .postfixOp = some entry) :
    EndsIn (Objection table occurs vacant) (fun taken => taken.IsSound table occurs 1)
      (held.takePostfix op entry) := by
  refine (h.ends_applyFor (.behind op entry hoccurs hentry)).bind fun applied happlied => ?_
  have hcount := happlied.count
  split
  · rename_i operand rest heq
    rw [heq] at hcount
    exact ⟨hcount, happlied.stands⟩
  · rename_i heq
    rw [heq] at hcount
    simp at hcount

end Stacks.IsSound

/-! ## Steps -/

theorem ends_takeArgument {arrangement : Arrangement} (h : arrangement.IsSound table occurs)
    (span : Span) :
    EndsIn (Objection table occurs vacant) (fun taken => taken.IsSound table occurs 0)
      (takeArgument arrangement span) := by
  unfold takeArgument
  split
  · rename_i hexpects
    exact h.expecting hexpects
  · rename_i hexpects
    exact (h.holding hexpects).ends_takeUp (.application span) rfl trivial

theorem ends_takeLeading {held : Stacks} (h : held.IsSound table occurs 0) {op : OperatorUse}
    (hoccurs : occurs op) :
    EndsIn (Objection table occurs vacant) (fun next => next.IsSound table occurs)
      (takeLeading table held op) := by
  unfold takeLeading
  split
  · rename_i entry hentry
    exact h.pushLeading (.prefixed op entry) rfl ⟨hoccurs, hentry⟩
  · split
    · exact .missing _ _ _
    · exact .undeclared op hoccurs

theorem ends_takeFollowing {held : Stacks} (h : held.IsSound table occurs 1) (isLast : Bool)
    {op : OperatorUse} (hoccurs : occurs op) :
    EndsIn (Objection table occurs vacant) (fun next => next.IsSound table occurs)
      (takeFollowing table held isLast op) := by
  have hbehind {entry : OperatorEntry} (hentry : table.lookupName op.name .postfixOp = some entry) :
      EndsIn (Objection table occurs vacant) (fun next => next.IsSound table occurs)
        (do return (⟨← held.takePostfix op entry, false⟩ : Arrangement)) :=
    (h.ends_takePostfix hoccurs hentry).bind fun _ htaken => htaken
  have hjoin {entry : OperatorEntry} (hentry : table.lookupName op.name .infixOp = some entry) :
      EndsIn (Objection table occurs vacant) (fun next => next.IsSound table occurs)
        (do return (⟨← held.takeUp (.binary op entry), true⟩ : Arrangement)) :=
    (h.ends_takeUp (.binary op entry) rfl ⟨hoccurs, hentry⟩).bind fun _ htaken => htaken
  unfold takeFollowing
  dsimp only
  split
  · rename_i entry _ hentry
    exact hbehind hentry
  · rename_i entry hentry _
    exact hjoin hentry
  · rename_i entry behind hentry hpostfix
    split
    · exact hbehind hpostfix
    · exact hjoin hentry
  · rename_i entry _ _ hentry
    refine (h.ends_takeUp (.application op.span) rfl trivial).bind fun taken htaken => ?_
    exact htaken.pushLeading (.prefixed op entry) rfl ⟨hoccurs, hentry⟩
  · exact .undeclared op hoccurs

def Step.Occurs (occurs : OperatorUse → Prop) (step : Step) : Prop :=
  ∀ op, step = .operator op → occurs op

theorem ends_takeStep {arrangement : Arrangement} (h : arrangement.IsSound table occurs)
    (isLast : Bool) {step : Step} (hstep : step.Occurs occurs) :
    EndsIn (Objection table occurs vacant) (fun next => next.IsSound table occurs)
      (takeStep table arrangement isLast step) := by
  cases step with
  | operand value =>
    exact (ends_takeArgument h _).bind fun _ htaken => htaken.pushOperand value
  | conditional condition thenBranch span =>
    refine (ends_takeArgument h _).bind fun taken htaken => ?_
    exact htaken.pushLeading (.conditional condition thenBranch span) rfl trivial
  | operator op =>
    have hoccurs := hstep op rfl
    rw [takeStep]
    split
    · rename_i hexpects
      exact ends_takeLeading (h.expecting hexpects) hoccurs
    · rename_i hexpects
      exact ends_takeFollowing (h.holding hexpects) isLast hoccurs

theorem isSound_beginning : Arrangement.IsSound table occurs ⟨⟨[], []⟩, true⟩ :=
  ⟨rfl, List.forall_mem_nil _⟩

theorem ends_takeSteps {arrangement : Arrangement} {steps : List Step}
    (h : arrangement.IsSound table occurs) (hsteps : ∀ step ∈ steps, step.Occurs occurs) :
    EndsIn (Objection table occurs vacant) (fun final => final.IsSound table occurs)
      (takeSteps table arrangement steps) := by
  induction steps generalizing arrangement with
  | nil => exact h
  | cons step rest ih =>
    obtain ⟨hstep, hrest⟩ := List.forall_mem_cons.mp hsteps
    exact (ends_takeStep h _ hstep).bind fun next hnext => ih hnext hrest

theorem ends_arrange (span : Span) {steps : List Step}
    (hsteps : ∀ step ∈ steps, step.Occurs occurs) :
    EndsIn (Objection table occurs vacant) (fun _ => True) (arrange table span steps) := by
  refine (ends_takeSteps isSound_beginning hsteps).bind fun final hfinal => ?_
  split
  · split
    · exact .missing _ _ _
    · exact .missing _ _ _
  · rename_i hexpects
    obtain ⟨e, happlied⟩ := (Stacks.suffice (hfinal.holding hexpects).count).all_applied
    rw [happlied]
    trivial

end Taking

/-! ## The arrangements of a run -/

/-- Where the reading of the steps arrives, with the steps that are left. -/
inductive Reached (table : OperatorTable) (steps : List Step) : Arrangement → List Step → Prop where
  | start : Reached table steps ⟨⟨[], []⟩, true⟩ steps
  | next {arrangement next : Arrangement} {step : Step} {rest : List Step}
    (h : Reached table steps arrangement (step :: rest))
    (hstep : takeStep table arrangement rest.isEmpty step = .ok next) :
    Reached table steps next rest

namespace Reached

variable {table : OperatorTable} {steps rest : List Step} {arrangement : Arrangement}

theorem isSound (h : Reached table steps arrangement rest) :
    arrangement.IsSound table fun _ => True := by
  induction h with
  | start => exact isSound_beginning
  | @next arrangement next step rest h hstep ih =>
    have hends : EndsIn (Objection table (fun _ => True) fun _ => True)
        (fun next => next.IsSound table fun _ => True)
        (takeStep table arrangement rest.isEmpty step) :=
      ends_takeStep ih rest.isEmpty fun _ _ => trivial
    exact hends.of_ok hstep

theorem takeSteps_eq (h : Reached table steps arrangement rest) :
    takeSteps table arrangement rest = takeSteps table ⟨⟨[], []⟩, true⟩ steps := by
  induction h with
  | start => rfl
  | next h hstep ih =>
    rw [← ih, takeSteps, hstep]
    rfl

end Reached

end Equational

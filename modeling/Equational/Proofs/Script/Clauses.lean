import Equational.Proofs.Script.Rounds
import Equational.Proofs.Statement.Orphan

/-!
# Clauses and their equations

Whether a further clause may follow is a flag that is kept apart from the statements.  The two never
disagree: while the flag is up, the latest statement is an equation, so that no clause is lost and
each joins the equation it stands behind.
-/

namespace Equational

/-! ## Equations as they are read -/

def Statement.clauses : Statement → List Clause
  | equation _ clauses _ => clauses
  | _ => []

def Parsed.clauses : Parsed → List Clause
  | statement read => read.clauses
  | clause read => [read]

theorem Statement.clauses_of_other {statement : Statement} (h : statement.isEquation = false) :
    statement.clauses = [] := by
  cases statement <;> first | rfl | cases h

/-- An equation has one clause at first, which reaches as far as the equation. -/
def Statement.IsFresh (statement : Statement) : Prop :=
  statement.isEquation = true → ∃ lhs clause, statement = .equation lhs [clause] clause.span

namespace Parse

variable {α β : Type}

def Gives (step : Parse α) (after : α → ParseState → Prop) : Prop :=
  Ensures (fun _ => True) step after fun _ => True

namespace Gives

variable {step : Parse α} {after : α → ParseState → Prop}

theorem pure {value : α} (h : ∀ state, after value state) : Gives (pure value) after :=
  Ensures.pure fun state _ => h state

theorem throw (diagnostic : Diagnostic) : Gives (throw diagnostic) after :=
  Ensures.throw diagnostic fun _ _ => trivial

theorem ite {condition : Prop} [Decidable condition] {second : Parse α} (h : Gives step after)
    (h' : Gives second after) : Gives (if condition then step else second) after :=
  Ensures.ite (fun _ => h) fun _ => h'

theorem behind {next : β → Parse α} {first : Parse β} (hnext : ∀ value, Gives (next value) after) :
    Gives (first >>= next) after := by
  have hany : Ensures (fun _ => True) first (fun _ _ => True) fun _ => True := by
    intro state _
    split <;> trivial
  exact hany.bind hnext

end Gives

section Fresh

variable {start : Nat}

theorem gives_closing {start : Nat} {node : Span → Statement}
    (hnode : ∀ span, (node span).isEquation = false) :
    Gives (do let _ ← expectMark .semicolon; return node (← spanFrom start))
      fun found _ => found.isEquation = false :=
  .behind fun _ => .behind fun span => .pure fun _ => hnode span

theorem gives_typeStatement (start : Nat) (scope : Option Scope) (external : Bool) :
    Gives (typeStatement start scope external) fun found _ => found.isEquation = false := by
  refine .behind fun _ => .behind fun name => .ite ?_ (.behind fun _ => .ite ?_ ?_)
  · refine .behind fun renamed => .ite (.behind fun knownAs => ?_) (.behind fun knownAs => ?_) <;>
      exact gives_closing fun _ => rfl
  · exact .behind fun target => gives_closing fun _ => rfl
  · refine .behind fun derived => .ite (.behind fun supertype => ?_) (.behind fun supertype => ?_)
    all_goals
      refine .behind fun defined => .ite (.behind fun sections => ?_) (.behind fun sections => ?_)
      all_goals exact gives_closing fun _ => rfl

theorem gives_attributedStatement :
    Gives attributedStatement fun found _ => found.isEquation = false := by
  refine .behind fun start => .behind fun attributes => .behind fun kind => ?_
  refine .ite (.ite (gives_typeStatement _ _ _) (.ite (gives_typeStatement _ _ _) ?_)) ?_
  · exact .behind fun token => .throw _
  · exact .behind fun headers => gives_closing fun _ => rfl

theorem gives_importStatement : Gives importStatement fun found _ => found.isEquation = false :=
  .behind fun _ => .behind fun _ => .behind fun _ => gives_closing fun _ => rfl

theorem gives_importFromStatement :
    Gives importFromStatement fun found _ => found.isEquation = false := by
  refine .behind fun _ => .behind fun _ => .behind fun _ => .behind fun _ => ?_
  exact .ite (.behind fun _ => gives_closing fun _ => rfl)
    (.behind fun _ => gives_closing fun _ => rfl)

theorem gives_pragmaStatement : Gives pragmaStatement fun found _ => found.isEquation = false := by
  refine .behind fun _ => .behind fun _ => .behind fun _ => .behind fun _ => ?_
  exact .behind fun _ => .behind fun _ => .pure fun _ => rfl

theorem gives_defStatement : Gives defStatement fun found _ => found.isEquation = false :=
  .behind fun _ => .behind fun _ => gives_closing fun _ => rfl

theorem gives_undefStatement : Gives undefStatement fun found _ => found.isEquation = false :=
  .behind fun _ => .behind fun _ => gives_closing fun _ => rfl

theorem gives_clause (start : Nat) :
    Gives (clause start) fun found state => found.span = ⟨start, state.cursor.previousEnd⟩ := by
  refine .behind fun _ => .behind fun _ => .behind fun _ => .behind fun _ => .behind fun _ => ?_
  exact fun state _ => rfl

/-- What is read at once is a whole statement, or a clause, from the given place on. -/
structure IsRead (start : Nat) (parsed : Parsed) (state : ParseState) : Prop where
  isFresh : ∀ statement, parsed = .statement statement → statement.IsFresh
  span : ∀ clause ∈ parsed.clauses, clause.span = ⟨start, state.cursor.previousEnd⟩

theorem isRead_of_other {start : Nat} {statement : Statement} {state : ParseState}
    (h : statement.isEquation = false) : IsRead start (.statement statement) state where
  isFresh := by
    rintro _ ⟨⟩ hequation
    rw [h] at hequation
    cases hequation
  span := by simp [Parsed.clauses, Statement.clauses_of_other h]

theorem gives_equation : Yields (fun state => state.cursor.current.span.start = start) equation
    fun found => IsRead start (.statement found) := by
  have hposition : Yields (fun state => state.cursor.current.span.start = start) position
      fun found _ => found = start := fun _ h => h
  refine hposition.bind fun found => ?_
  rintro state rfl
  refine (Gives.behind fun left => .ite (.behind fun _ => .throw _) ?_) state trivial
  refine .behind fun lhs => Ensures.bind (gives_clause found) fun first => ?_
  intro state hspan
  refine ⟨?_, by simpa [Parsed.clauses, Statement.clauses] using hspan⟩
  rintro _ ⟨⟩ _
  exact ⟨lhs, first, congrArg _ hspan.symm⟩

theorem gives_continuation : Yields (fun state => state.cursor.current.span.start = start)
    continuation fun found => IsRead start (.clause found) := by
  have hget : Yields (fun state => state.cursor.current.span.start = start) get
      fun _ state => state.cursor.current.span.start = start := fun _ h => h
  have hposition : Yields (fun state => state.cursor.current.span.start = start) position
      fun found _ => found = start := fun _ h => h
  refine hget.bind fun state => .ite (fun _ => hposition.bind fun found => ?_) fun _ => ?_
  · rintro state rfl
    refine
      (Ensures.imp (gives_clause found) (fun _ => id) fun clause state hspan => ?_) state trivial
    exact ⟨nofun, by simpa [Parsed.clauses] using hspan⟩
  · exact Ensures.imp (Gives.behind fun token => .throw _) (fun _ _ => trivial) fun _ _ => id

theorem gives_statement :
    Yields (fun state => state.cursor.current.span.start = start) statement (IsRead start) := by
  have hother {step : Parse Statement} (h : Gives step fun found _ => found.isEquation = false) :
      Yields (fun state => state.cursor.current.span.start = start)
        (do return Parsed.statement (← step)) (IsRead start) := by
    refine Ensures.imp (Ensures.bind h fun found => ?_) (fun _ _ => trivial) fun _ _ => id
    exact .pure fun _ => isRead_of_other
  have hclause : Yields (fun state => state.cursor.current.span.start = start)
      (do return Parsed.clause (← continuation)) (IsRead start) :=
    gives_continuation.bind fun clause => .pure fun _ => id
  have hkind : Yields (fun state => state.cursor.current.span.start = start) currentKind
      fun _ state => state.cursor.current.span.start = start := fun _ h => h
  refine hkind.bind fun kind => ?_
  split
  iterate 7 exact hother gives_attributedStatement
  · have htype : Gives (do typeStatement (← position) none false)
        fun found _ => found.isEquation = false :=
      .behind fun start => gives_typeStatement start none false
    exact hother htype
  iterate 2 exact hother gives_importStatement
  · exact hother gives_importFromStatement
  · exact hother gives_pragmaStatement
  · exact hother gives_defStatement
  · exact hother gives_undefStatement
  iterate 4 exact hclause
  · exact gives_equation.bind fun found => .pure fun _ => id

end Fresh

theorem records_followsEquation (follows : Bool) :
    Records (fun _ state => state.followsEquation = follows)
      (fun state => state.followsEquation = follows) := by
  refine .of_moves (fun state next hmoves hfollows => ?_) fun _ _ _ hfollows => hfollows
  rw [← hfollows]
  induction hmoves with
  | refl => rfl
  | tail _ hmove ih =>
    cases hmove with
    | advance | split _ | unexpected _ _ | exhaust _ => exact ih

end Parse

/-! ## Outcomes -/

abbrev Outcome := Except Diagnostic Parsed

def clauseOutcome (clause : Clause) : Outcome := .ok (.clause clause)

def Outcome.isClause : Outcome → Bool
  | .ok (.clause _) => true
  | _ => false

def Outcome.isOfEquation : Outcome → Bool
  | .ok (.statement statement) => statement.isEquation
  | .ok (.clause _) => true
  | .error _ => false

/-- Nothing has been read yet, or the last statement failed or was not an equation. -/
def LacksEquation (outcomes : List Outcome) : Prop :=
  outcomes = [] ∨ (∃ diagnostic, outcomes.getLast? = some (.error diagnostic)) ∨
    ∃ statement, outcomes.getLast? = some (.ok (.statement statement)) ∧
      statement.isEquation = false

theorem lacksEquation_iff {outcomes : List Outcome} :
    LacksEquation outcomes ↔ outcomes.getLast?.any Outcome.isOfEquation = false := by
  rw [LacksEquation, ← List.getLast?_eq_none_iff]
  cases outcomes.getLast? with
  | none => simp
  | some last =>
    match last with
    | .error diagnostic => simp [Outcome.isOfEquation]
    | .ok (.statement statement) => simp [Outcome.isOfEquation]
    | .ok (.clause clause) => simp [Outcome.isOfEquation]

namespace Progress

def outcome (progress : Progress) : Outcome :=
  match Parse.statement progress.state with
  | .ok parsed _ => .ok parsed
  | .error diagnostic _ => .error diagnostic

def outcomes (mode : ParseMode) : Nat → Progress → List Outcome
  | 0, _ => []
  | rounds + 1, progress =>
    if progress.isOver mode then [] else progress.outcome :: outcomes mode rounds progress.step

end Progress

/-! ## What the outcomes leave -/

/-- The statements that outcomes leave, both with the latest first.  A failure leaves nothing, and
any other statement stays with the clauses that were read right behind it, in their order; only
behind an equation there are any. -/
inductive Attaches : List Outcome → List Statement → Prop where
  | nil : Attaches [] []
  | failed {outcomes : List Outcome} {body : List Statement} (diagnostic : Diagnostic)
    (h : Attaches outcomes body) : Attaches (.error diagnostic :: outcomes) body
  | statement {outcomes : List Outcome} {body : List Statement} {first : Statement}
    (clauses : List Clause) (hclauses : clauses ≠ [] → first.isEquation = true)
    (hfresh : first.IsFresh) (h : Attaches outcomes body) :
    Attaches ((clauses.map clauseOutcome).reverse ++ .ok (.statement first) :: outcomes)
      (clauses.foldl (fun statement clause => statement.addClause clause) first :: body)

section Clauses

variable {statement : Statement}

theorem Statement.exists_of_isEquation (h : statement.isEquation = true) :
    ∃ lhs clauses span, statement = .equation lhs clauses span := by
  cases statement <;> first | exact ⟨_, _, _, rfl⟩ | cases h

theorem Statement.isEquation_addClause (clause : Clause) :
    (statement.addClause clause).isEquation = statement.isEquation := by
  cases statement <;> rfl

theorem Statement.isEquation_foldl (clauses : List Clause) :
    (clauses.foldl (fun statement clause => statement.addClause clause) statement).isEquation =
      statement.isEquation := by
  induction clauses generalizing statement with
  | nil => rfl
  | cons clause rest ih => rw [List.foldl_cons, ih, isEquation_addClause]

theorem Statement.clauses_addClause (h : statement.isEquation = true) (clause : Clause) :
    (statement.addClause clause).clauses = statement.clauses ++ [clause] := by
  cases statement <;> first | rfl | cases h

theorem Statement.clauses_foldl (h : statement.isEquation = true) (clauses : List Clause) :
    (clauses.foldl (fun statement clause => statement.addClause clause) statement).clauses =
      statement.clauses ++ clauses := by
  induction clauses generalizing statement with
  | nil => exact (List.append_nil _).symm
  | cons clause rest ih =>
    rw [List.foldl_cons, ih (by rwa [isEquation_addClause]), clauses_addClause h, List.append_assoc]
    rfl

end Clauses

def clauseCount (body : List Statement) : Nat := (body.flatMap Statement.clauses).length

namespace Attaches

variable {outcomes : List Outcome} {body : List Statement}

theorem isEquation_of_follows {first : Statement} {clauses : List Clause}
    (hclauses : clauses ≠ [] → first.isEquation = true)
    (hfollows : ((clauses.map clauseOutcome).reverse ++
      .ok (.statement first) :: outcomes).head?.any Outcome.isOfEquation = true) :
    first.isEquation = true := by
  cases clauses with
  | nil => exact hfollows
  | cons => exact hclauses (List.cons_ne_nil _ _)

theorem addClause (h : Attaches outcomes body)
    (hfollows : outcomes.head?.any Outcome.isOfEquation = true) (clause : Clause) :
    Attaches (clauseOutcome clause :: outcomes) (Progress.addClause clause body) := by
  cases h with
  | nil => cases hfollows
  | failed => cases hfollows
  | statement clauses hclauses hfresh h =>
    have hequation := isEquation_of_follows hclauses hfollows
    have hlonger := Attaches.statement (clauses ++ [clause]) (fun _ => hequation) hfresh h
    rw [List.map_append, List.reverse_append, List.foldl_append] at hlonger
    exact hlonger

theorem exists_equation (h : Attaches outcomes body)
    (hfollows : outcomes.head?.any Outcome.isOfEquation = true) :
    ∃ lhs clauses span rest, body = .equation lhs clauses span :: rest := by
  cases h with
  | nil => cases hfollows
  | failed => cases hfollows
  | @statement _ body first clauses hclauses _ _ =>
    have hequation := isEquation_of_follows hclauses hfollows
    rw [← Statement.isEquation_foldl clauses] at hequation
    obtain ⟨lhs, all, span, heq⟩ := Statement.exists_of_isEquation hequation
    exact ⟨lhs, all, span, body, congrArg (· :: body) heq⟩

theorem clauseCount_eq (h : Attaches outcomes body) :
    clauseCount body =
      body.countP Statement.isEquation + outcomes.countP Outcome.isClause := by
  induction h with
  | nil => rfl
  | failed diagnostic h ih => exact ih
  | @statement outcomes body first clauses hclauses hfresh h ih =>
    have hcount : ((clauses.map clauseOutcome).reverse ++ .ok (.statement first) ::
        outcomes).countP Outcome.isClause =
          clauses.length + outcomes.countP Outcome.isClause := by
      have hall : (clauses.map clauseOutcome).countP Outcome.isClause = clauses.length := by
        rw [List.countP_map]
        exact List.countP_eq_length.mpr fun _ _ => rfl
      rw [List.countP_append, List.countP_reverse, hall]
      rfl
    -- An equation comes with one clause, and each clause behind it adds one.
    rw [clauseCount, List.flatMap_cons, List.length_append, ← clauseCount, ih, hcount,
      List.countP_cons, Statement.isEquation_foldl]
    cases hequation : first.isEquation with
    | true =>
      obtain ⟨lhs, clause, rfl⟩ := hfresh hequation
      rw [Statement.clauses_foldl rfl, List.length_append, if_pos rfl]
      change (1 + clauses.length) + _ = _
      omega
    | false =>
      obtain rfl : clauses = [] := by
        by_contra hne
        rw [hclauses hne] at hequation
        cases hequation
      rw [List.foldl_nil, Statement.clauses_of_other hequation, if_neg Bool.false_ne_true]
      change 0 + _ = _ + (0 + _)
      omega

end Attaches

/-! ## Reading -/

namespace Progress

variable {progress : Progress} {outcomes : List Outcome}

theorem outcome_of_ok {parsed : Parsed} {final : ParseState}
    (h : Parse.statement progress.state = .ok parsed final) : progress.outcome = .ok parsed := by
  rw [outcome, h]

theorem outcome_of_error {diagnostic : Diagnostic} {final : ParseState}
    (h : Parse.statement progress.state = .error diagnostic final) :
    progress.outcome = .error diagnostic := by
  rw [outcome, h]

theorem outcome_eq_error_iff {diagnostic : Diagnostic} :
    progress.outcome = .error diagnostic ↔
      ∃ final, Parse.statement progress.state = .error diagnostic final := by
  unfold outcome
  cases Parse.statement progress.state with
  | ok parsed final => simp
  | error problem final => simp

theorem outcome_eq_ok_iff {parsed : Parsed} :
    progress.outcome = .ok parsed ↔
      ∃ final, Parse.statement progress.state = .ok parsed final := by
  unfold outcome
  cases Parse.statement progress.state with
  | ok found final => simp
  | error problem final => simp

/-- The statements are those that the outcomes leave, and the flag is up just behind an equation or
one of its clauses. -/
structure IsAttached (outcomes : List Outcome) (progress : Progress) : Prop where
  attaches : Attaches outcomes progress.body
  follows : progress.state.followsEquation = outcomes.head?.any Outcome.isOfEquation

theorem IsAttached.step (h : IsAttached outcomes progress) :
    IsAttached (progress.outcome :: outcomes) progress.step := by
  cases hstatement : Parse.statement progress.state with
  | error diagnostic state =>
    rw [outcome_of_error hstatement, step_of_error progress hstatement]
    exact ⟨.failed diagnostic h.attaches, rfl⟩
  | ok parsed state =>
    rw [outcome_of_ok hstatement]
    cases parsed with
    | statement statement =>
      rw [step_of_statement progress hstatement]
      have hfresh := (Parse.gives_statement.of_ok rfl hstatement).isFresh statement rfl
      exact ⟨.statement [] (fun hne => absurd rfl hne) hfresh h.attaches, rfl⟩
    | clause clause =>
      rw [step_of_clause progress hstatement]
      have hfollows := (Parse.continues_of_clause hstatement).2
      have hstays := (Parse.records_followsEquation true).statement.of_ok hfollows hstatement
      exact ⟨h.attaches.addClause (h.follows ▸ hfollows) clause, hstays⟩

theorem IsAttached.run (h : IsAttached outcomes progress) (mode : ParseMode) (rounds : Nat) :
    IsAttached ((progress.outcomes mode rounds).reverse ++ outcomes)
      (progress.run mode rounds) := by
  induction rounds generalizing progress outcomes with
  | zero => exact h
  | succ rounds ih =>
    rw [Progress.run, Progress.outcomes]
    split
    · exact h
    · rw [List.reverse_cons, List.append_assoc]
      exact ih h.step

end Progress

/-! ## Clauses in source order -/

/-- What is recorded of some bytes within the given ones, with which they begin. -/
structure Span.RecordsPart (span whole : Span) : Prop where
  start : span.start = recorded whole.start
  stop : ∃ stop, span.stop = recorded stop ∧ whole.start < stop ∧ stop ≤ whole.stop

/-- The clauses lie in some of the extents, one behind another. -/
def Statement.StandsAlong (extents : List Span) (statement : Statement) : Prop :=
  ∃ places, places.Sublist extents ∧
    List.Forall₂ (fun clause place => clause.span.RecordsPart place) statement.clauses places

theorem le_start_of_recordsPart {clauses : List Clause} {places : List Span} {low : Nat}
    (h : List.Forall₂ (fun clause place => clause.span.RecordsPart place) clauses places)
    (hlow : ∀ place ∈ places, low ≤ place.start ∧ place.stop < positionCount) :
    ∀ clause ∈ clauses, low ≤ clause.span.start := by
  induction h with
  | nil => nofun
  | @cons clause place clauses places hclause _ ih =>
    obtain ⟨⟨hfirst, hsize⟩, hothers⟩ := List.forall_mem_cons.mp hlow
    obtain ⟨stop, -, hlt, hle⟩ := hclause.stop
    refine List.forall_mem_cons.mpr ⟨?_, ih hothers⟩
    rwa [hclause.start, recorded_of_lt (by omega)]

namespace Statement.StandsAlong

variable {statement : Statement} {extents more : List Span}

theorem mono (h : statement.StandsAlong extents) (hmore : extents.Sublist more) :
    statement.StandsAlong more := by
  obtain ⟨places, hplaces, hclauses⟩ := h
  exact ⟨places, hplaces.trans hmore, hclauses⟩

theorem of_other (h : statement.isEquation = false) : statement.StandsAlong extents :=
  ⟨[], List.nil_sublist _, clauses_of_other h ▸ .nil⟩

theorem addClause (h : statement.StandsAlong extents) {clause : Clause} {extent : Span}
    (hclause : clause.span.RecordsPart extent) :
    (statement.addClause clause).StandsAlong (extents ++ [extent]) := by
  cases hequation : statement.isEquation with
  | false => exact of_other ((isEquation_addClause clause).trans hequation)
  | true =>
    obtain ⟨places, hplaces, hclauses⟩ := h
    refine ⟨places ++ [extent], hplaces.append (List.Sublist.refl _), ?_⟩
    rw [clauses_addClause hequation]
    exact List.rel_append hclauses (.cons hclause .nil)

theorem pairwise (h : statement.StandsAlong extents)
    (hordered : extents.Pairwise fun first second => first.stop ≤ second.start)
    (hsize : ∀ extent ∈ extents, extent.stop < positionCount) :
    statement.clauses.Pairwise fun first second => first.span.stop ≤ second.span.start := by
  obtain ⟨places, hplaces, hclauses⟩ := h
  have hordered := hordered.sublist hplaces
  have hsize : ∀ place ∈ places, place.stop < positionCount :=
    fun place hmem => hsize place (hplaces.subset hmem)
  clear hplaces
  generalize statement.clauses = clauses at hclauses
  induction hclauses with
  | nil => exact .nil
  | @cons clause place clauses places hclause hclauses ih =>
    obtain ⟨hbehind, hordered⟩ := List.pairwise_cons.mp hordered
    obtain ⟨hfirst, hothers⟩ := List.forall_mem_cons.mp hsize
    obtain ⟨stop, hstop, -, hle⟩ := hclause.stop
    refine List.pairwise_cons.mpr ⟨?_, ih hordered hothers⟩
    rw [hstop, recorded_of_lt (Nat.lt_of_le_of_lt hle hfirst)]
    exact le_start_of_recordsPart hclauses fun other hmem =>
      ⟨Nat.le_trans hle (hbehind other hmem), hothers other hmem⟩

end Statement.StandsAlong

namespace Progress

variable {progress : Progress} {place : Nat → Nat} {start : Nat}

def extent (place : Nat → Nat) (progress : Progress) : Span :=
  ⟨progress.state.cursor.offset place, progress.step.state.cursor.offset place⟩

/-- The extents of the statements that are read in at most so many rounds, the first one first. -/
def extents (place : Nat → Nat) (mode : ParseMode) : Nat → Progress → List Span
  | 0, _ => []
  | rounds + 1, progress =>
    if progress.isOver mode then []
    else progress.extent place :: extents place mode rounds progress.step

theorem stands_step (h : progress.state.Stands place start false) :
    progress.step.state.Stands place start false := by
  have hkeeps := (Parse.records_stands place start false).statement progress.state h
  cases hstep : Parse.statement progress.state with
  | error diagnostic final =>
    rw [hstep] at hkeeps
    rw [step_of_error progress hstep]
    have hskip := hkeeps.skipStatement
    exact ⟨hskip.sound, hskip.stands, hskip.start_le, hskip.passed⟩
  | ok parsed final =>
    rw [hstep] at hkeeps
    cases parsed with
    | statement statement =>
      rw [step_of_statement progress hstep]
      exact ⟨hkeeps.sound, hkeeps.stands, hkeeps.start_le, hkeeps.passed⟩
    | clause clause =>
      rw [step_of_clause progress hstep]
      exact hkeeps

theorem forall_extents (h : progress.state.Stands place start false) {holds : Span → Prop}
    (hholds : ∀ later : Progress, later.state.Stands place start false →
      holds (later.extent place)) (mode : ParseMode) (rounds : Nat) :
    ∀ extent ∈ progress.extents place mode rounds, holds extent := by
  induction rounds generalizing progress with
  | zero => nofun
  | succ rounds ih =>
    rw [extents]
    split
    · nofun
    · exact List.forall_mem_cons.mpr ⟨hholds progress h, ih (stands_step h)⟩

theorem pairwise_extents (h : progress.state.Stands place start false) (mode : ParseMode)
    (rounds : Nat) :
    (progress.extents place mode rounds).Pairwise
      fun first second => first.stop ≤ second.start := by
  induction rounds generalizing progress start with
  | zero => exact .nil
  | succ rounds ih =>
    rw [extents]
    split
    · exact .nil
    · have hnext := (stands_step h).begins
      refine List.pairwise_cons.mpr ⟨?_, ih hnext⟩
      exact forall_extents hnext (fun later hlater => hlater.start_le) mode rounds

private theorem recordsPart_of_statement (h : progress.state.Stands place start false)
    {parsed : Parsed}
    {final : ParseState} (hstep : Parse.statement progress.state = .ok parsed final)
    {clause : Clause} (hmem : clause ∈ parsed.clauses) :
    clause.span.RecordsPart ⟨progress.state.cursor.offset place, final.cursor.offset place⟩ := by
  have hspan := (Parse.gives_statement.of_ok rfl hstep).span clause hmem
  have hpasses := Parse.passes_statement.of_ok h.begins hstep
  rw [hspan]
  exact ⟨h.stands.start_eq h.sound.isEnded, hpasses.passed rfl⟩

private theorem standsAlong_step (h : progress.state.Stands place start false) {seen : List Span}
    (hbody : ∀ statement ∈ progress.body, statement.StandsAlong seen) :
    ∀ statement ∈ progress.step.body,
      statement.StandsAlong (seen ++ [progress.extent place]) := by
  have hseen : seen.Sublist (seen ++ [progress.extent place]) := List.sublist_append_left _ _
  have hothers : ∀ statement ∈ progress.body,
      statement.StandsAlong (seen ++ [progress.extent place]) :=
    fun statement hmem => (hbody statement hmem).mono hseen
  rw [extent] at hothers ⊢
  cases hstep : Parse.statement progress.state with
  | error diagnostic final =>
    rw [step_of_error progress hstep] at hothers ⊢
    exact hothers
  | ok parsed final =>
    have hparts {clause : Clause} (hmem : clause ∈ parsed.clauses) :=
      recordsPart_of_statement h hstep hmem
    cases parsed with
    | statement statement =>
      rw [step_of_statement progress hstep] at hothers ⊢
      refine List.forall_mem_cons.mpr ⟨?_, hothers⟩
      cases hequation : statement.isEquation with
      | false => exact .of_other hequation
      | true =>
        obtain ⟨lhs, clause, rfl⟩ :=
          (Parse.gives_statement.of_ok rfl hstep).isFresh statement rfl hequation
        exact ⟨_, List.sublist_append_right _ _, .cons (hparts List.mem_cons_self) .nil⟩
    | clause clause =>
      rw [step_of_clause progress hstep] at hothers ⊢
      dsimp only at hothers ⊢
      cases hprevious : progress.body with
      | nil => exact List.forall_mem_nil _
      | cons last rest =>
        rw [hprevious] at hbody hothers
        refine List.forall_mem_cons.mpr ⟨?_, (List.forall_mem_cons.mp hothers).2⟩
        exact (List.forall_mem_cons.mp hbody).1.addClause (hparts List.mem_cons_self)

theorem standsAlong_run (h : progress.state.Stands place start false) {seen : List Span}
    (hbody : ∀ statement ∈ progress.body, statement.StandsAlong seen) (mode : ParseMode)
    (rounds : Nat) :
    ∀ statement ∈ (progress.run mode rounds).body,
      statement.StandsAlong (seen ++ progress.extents place mode rounds) := by
  induction rounds generalizing progress seen with
  | zero => exact (List.append_nil seen).symm ▸ hbody
  | succ rounds ih =>
    rw [run, extents]
    split
    · exact (List.append_nil seen).symm ▸ hbody
    · have hrest := ih (stands_step h) (standsAlong_step h hbody)
      rwa [List.append_assoc] at hrest

/-! ## Diagnostics that are kept -/

private theorem owesNoOrphan_step (h : progress.state.cursor.OwesNoOrphan) :
    progress.step.state.cursor.OwesNoOrphan := by
  have hstays := Parse.records_owesNoOrphan.statement progress.state h
  cases hstep : Parse.statement progress.state with
  | error diagnostic final =>
    rw [hstep] at hstays
    rw [step_of_error progress hstep]
    exact hstays.skipStatement
  | ok parsed final =>
    rw [hstep] at hstays
    cases parsed with
    | statement statement =>
      rw [step_of_statement progress hstep]
      exact hstays
    | clause clause =>
      rw [step_of_clause progress hstep]
      exact hstays

end Progress

theorem Lexed.hasNoOrphan {source : String} {lexed : Lexed} (h : ofSource source = .ok lexed) :
    lexed.errors.HasNoOrphan := by
  obtain ⟨slots, hslots⟩ := exists_slots h
  intro diagnostic hmem hcause
  rw [hslots.values] at hmem
  obtain ⟨slot, hslot, howed⟩ := List.mem_filterMap.mp hmem
  have hphase := ((hslots.isLexed slot hslot).span_of_owed howed).2
  rw [hcause] at hphase
  cases hphase

/-! ## Results -/

/-- However far some tokens have been read: the statements are those that the outcomes so far leave;
a clause is only read behind an equation, which it joins; no clause is lost; in a text the clauses
of an equation stand one behind another, where their statements are read; and what begins a clause
is an orphan just where nothing has been read yet, or where the last outcome was neither an equation
nor one of its clauses.  Only a diagnostic of that kind that is kept for a token could be raised
elsewhere. -/
theorem clauses_stay_attached (tokens : List Token) (errors : DiagnosticMap) (mode : ParseMode)
    (rounds : Nat) :
    let start : Progress := ⟨.ofTokens tokens errors, []⟩
    let outcomes := start.outcomes mode rounds
    let final := start.run mode rounds
    Attaches outcomes.reverse final.body ∧
    (final.state.followsEquation = true →
      ∃ lhs clauses span rest, final.body = .equation lhs clauses span :: rest) ∧
    (∀ clause, final.outcome = .ok (.clause clause) → ∃ lhs clauses span rest,
      final.body = .equation lhs clauses span :: rest ∧
      final.step.body =
        .equation lhs (clauses ++ [clause]) ⟨span.start, clause.span.stop⟩ :: rest) ∧
    clauseCount final.body =
      final.body.countP Statement.isEquation + outcomes.countP Outcome.isClause ∧
    (∀ source lexed pieces, Lexed.ofSource source = .ok lexed →
      Lexed.CutInto source.toList pieces → tokens = lexed.tokens → errors = lexed.errors →
      let extents := start.extents (offsetBehind (byteLength source.toList) pieces) mode rounds
      extents.Pairwise (fun first second => first.stop ≤ second.start) ∧
      ∀ statement ∈ final.body, statement.StandsAlong extents ∧
        (byteLength source.toList < positionCount →
          statement.clauses.Pairwise fun first second => first.span.stop ≤ second.span.start)) ∧
    (Parse.beginsContinuation final.state.cursor.current.kind = true →
      (LacksEquation outcomes →
        final.outcome = .error ⟨.orphanContinuation, final.state.cursor.current.span⟩) ∧
      (errors.HasNoOrphan → ∀ diagnostic, final.outcome = .error diagnostic →
        diagnostic.cause = .orphanContinuation → LacksEquation outcomes)) := by
  intro start outcomes final
  have hstart : start.IsAttached [] := ⟨.nil, rfl⟩
  have hattached : final.IsAttached outcomes.reverse := by
    simpa using hstart.run mode rounds
  have hfollows : final.state.followsEquation = true →
      ∃ lhs clauses span rest, final.body = .equation lhs clauses span :: rest :=
    fun h => hattached.attaches.exists_equation (hattached.follows ▸ h)
  refine ⟨hattached.attaches, hfollows, ?_, ?_, ?_, ?_⟩
  · intro clause hclause
    obtain ⟨state, hstatement⟩ := Progress.outcome_eq_ok_iff.mp hclause
    obtain ⟨lhs, clauses, span, rest, hbody⟩ :=
      hfollows (Parse.continues_of_clause hstatement).2
    refine ⟨lhs, clauses, span, rest, hbody, ?_⟩
    rw [final.step_of_clause hstatement, hbody]
    rfl
  · rw [hattached.attaches.clauseCount_eq, List.countP_reverse]
  · rintro source lexed pieces hlexed hcut rfl rfl extents
    have hstands : start.state.Stands _ 0 false := stands_start hlexed hcut
    have hordered := Progress.pairwise_extents hstands mode rounds
    have hnone : ∀ statement ∈ start.body, statement.StandsAlong [] := List.forall_mem_nil _
    refine ⟨hordered, fun statement hmem => ?_⟩
    have hstatement : statement.StandsAlong extents :=
      Progress.standsAlong_run hstands hnone mode rounds statement hmem
    refine ⟨hstatement, fun hsize => hstatement.pairwise hordered ?_⟩
    refine Progress.forall_extents hstands (fun later _ => ?_) mode rounds
    have hle := offsetBehind_le (fun _ hpiece => Lexed.span_stop_le_of_piece hcut hpiece)
    exact Nat.lt_of_le_of_lt (hle _) hsize
  · intro hbegins
    have hflag : LacksEquation outcomes ↔ final.state.followsEquation = false := by
      rw [lacksEquation_iff, hattached.follows, List.head?_reverse]
    refine ⟨fun hlacks => ?_, fun hkept diagnostic herror hcause => ?_⟩
    · exact Progress.outcome_of_error (Parse.statement_of_orphan hbegins (hflag.mp hlacks))
    · have howes : start.state.cursor.OwesNoOrphan := hkept
      have howes : final.state.cursor.OwesNoOrphan :=
        Progress.run_induction (·.state.cursor.OwesNoOrphan) (fun _ => Progress.owesNoOrphan_step)
          howes mode rounds
      obtain ⟨state, hstatement⟩ := Progress.outcome_eq_error_iff.mp herror
      exact hflag.mpr (Parse.not_follows_of_orphan hbegins howes hstatement hcause)

/-- An orphan, an equation with two clauses, a clause that fails, another orphan, an import, and one
more orphan, in front of which the reading is looked at. -/
def orphansText : String := "= 1;\nf = 2;\n= 3;\n= then;\n= 4;\nimport m;\n= 5;"

theorem orphansText_attached :
    ∃ lexed, Lexed.ofSource orphansText = .ok lexed ∧
      let start : Progress := ⟨.ofTokens lexed.tokens lexed.errors, []⟩
      let final := start.run .batch 6
      clauseCount final.body = 2 ∧
      (∀ statement ∈ final.body,
        statement.clauses.Pairwise fun first second => first.span.stop ≤ second.span.start) ∧
      final.outcome = .error ⟨.orphanContinuation, ⟨40, 41⟩⟩ ∧
      LacksEquation (start.outcomes .batch 6) := by
  obtain ⟨lexed, hlexed, houtcome⟩ := exists_of_map_eq_ok
    (f := fun lexed : Lexed =>
      let start : Progress := ⟨.ofTokens lexed.tokens lexed.errors, []⟩
      let outcomes := start.outcomes .batch 6
      let final := start.run .batch 6
      (final.state.cursor.current.kind, final.state.cursor.current.span,
        outcomes.getLast?.any Outcome.isOfEquation, final.body.countP Statement.isEquation,
        outcomes.countP Outcome.isClause))
    (by decide +kernel : (Lexed.ofSource orphansText).map _ =
      .ok (.mark .assignment, ⟨40, 41⟩, false, 1, 1))
  simp only [Prod.mk.injEq] at houtcome
  obtain ⟨hkind, hspan, hlast, hequations, hclauses⟩ := houtcome
  obtain ⟨pieces, hcut, -⟩ := Lexed.exists_pieces hlexed
  obtain ⟨-, -, -, hcount, hplaced, horphan⟩ :=
    clauses_stay_attached lexed.tokens lexed.errors .batch 6
  obtain ⟨-, hordered⟩ := hplaced _ _ _ hlexed hcut rfl rfl
  have hbegins : Parse.beginsContinuation ((Progress.mk (.ofTokens lexed.tokens lexed.errors)
      []).run .batch 6).state.cursor.current.kind = true := by
    rw [hkind]
    rfl
  obtain ⟨hraised, hlacks⟩ := horphan hbegins
  have herror := hraised (lacksEquation_iff.mpr hlast)
  rw [hspan] at herror
  refine ⟨lexed, hlexed, ?_, fun statement hmem => (hordered statement hmem).2 (by decide), herror,
    hlacks (Lexed.hasNoOrphan hlexed) _ herror rfl⟩
  rw [hcount, hequations, hclauses]

end Equational

import Equational.Proofs.Parse.Offset
import Equational.Proofs.Run.Moving

/-!
# Entries of runs

Collecting a run collects the runs of its containers, lambdas and conditionals.  A twin of the step
that collects runs reports where each of them begins, the outermost one included, and does nothing
else besides.  What it reports shows that each run begins at a later token than the one before.
-/

namespace Equational

open Parse

theorem Separator.kind_ne {kind : TokenKind} {separator : Separator}
    (h : Separator.ofKind? kind = some separator) : kind ≠ .endOfInput := by
  rintro rfl
  cases h

/-! ## A twin that reports -/

def entryNote (offset : Nat) : Diagnostic := ⟨.emptyRun, .point offset⟩

def collectWith (inner : RunContext → Parse Run) (context : RunContext) : Parse Run := do
  let start ← position
  let rounds := (← get).limit
  return .ofItems (← collectItems inner context rounds []) (.point start)

/-- Collects as `collectRun` does, but reports where each run begins. -/
def tracedRun (place : Nat → Nat) : Nat → RunContext → Parse Run
  | 0, context => do
    report (entryNote ((← get).cursor.offset place))
    collectRun 0 context
  | depth + 1, context => do
    report (entryNote ((← get).cursor.offset place))
    collectWith (tracedRun place depth) context

def reporting {α : Type} (reported : List Diagnostic) :
    EStateM.Result Diagnostic ParseState α → EStateM.Result Diagnostic ParseState α
  | .ok value state => .ok value { state with reported }
  | .error diagnostic state => .error diagnostic { state with reported }

namespace Parse

variable {α β : Type}

/-! ## Steps that do not look at what has been reported -/

def Plain (step : Parse α) : Prop :=
  ∀ state reported, step { state with reported } = reporting reported (step state)

namespace Plain

theorem pure (value : α) : Plain (pure value) := fun _ _ => rfl

theorem throw (diagnostic : Diagnostic) : Plain (throw diagnostic : Parse α) := fun _ _ => rfl

theorem bind {step : Parse α} {next : α → Parse β} (h : Plain step)
    (hnext : ∀ value, Plain (next value)) : Plain (step >>= next) := by
  intro state reported
  change EStateM.bind step next _ = reporting reported (EStateM.bind step next state)
  unfold EStateM.bind
  rw [h state reported]
  cases step state with
  | ok value middle => exact hnext value middle reported
  | error diagnostic middle => rfl

theorem ite {condition : Prop} [Decidable condition] {first second : Parse α} (h : Plain first)
    (h' : Plain second) : Plain (if condition then first else second) := by
  split
  · exact h
  · exact h'

theorem ofExcept (outcome : Except Diagnostic α) : Plain (MonadExcept.ofExcept outcome) := by
  cases outcome with
  | ok value => exact pure value
  | error diagnostic => exact throw diagnostic

end Plain

theorem plain_current : Plain current := fun _ _ => rfl

theorem plain_currentKind : Plain currentKind := fun _ _ => rfl

theorem plain_peek (distance : Nat) : Plain (peek distance) := fun _ _ => rfl

theorem plain_position : Plain position := fun _ _ => rfl

theorem plain_spanFrom (start : Nat) : Plain (spanFrom start) := fun _ _ => rfl

theorem plain_advance : Plain advance := fun _ _ => rfl

theorem plain_unexpected (expected : String) : Plain (unexpected expected) := fun _ _ => rfl

private theorem plain_fail (expected : String) : Plain (fail expected : Parse α) :=
  (plain_unexpected expected).bind fun diagnostic => .throw diagnostic

theorem plain_accept (kind : TokenKind) : Plain (accept kind) :=
  plain_currentKind.bind fun _ => .ite (plain_advance.bind fun _ => .pure true) (.pure false)

theorem plain_identifier (expected : String) : Plain (identifier expected) :=
  plain_currentKind.bind fun _ => .ite (plain_advance.bind fun _ => .pure _) (plain_fail expected)

theorem plain_operator : Plain operator := by
  refine plain_advance.bind fun token => ?_
  dsimp only
  split
  · refine plain_currentKind.bind fun kind => .ite ?_ (.pure _)
    exact plain_advance.bind fun second => .pure _
  · exact .pure _

theorem plain_unclosed (bracket : Bracket) : Plain (unclosed bracket) := by
  refine plain_current.bind fun token => ?_
  split
  · exact plain_unexpected _
  · exact plain_unexpected _
  · exact .pure _

theorem plain_close (bracket : Bracket) : Plain (close bracket) := by
  refine (plain_accept _).bind fun accepted => .ite (.pure _) ?_
  exact (plain_unclosed bracket).bind fun diagnostic => .throw diagnostic

theorem plain_collectIdentifier (context : RunContext) : Plain (collectIdentifier context) := by
  refine plain_advance.bind fun token => plain_currentKind.bind fun kind => ?_
  refine (plain_peek 1).bind fun follower => .ite ?_ (.pure _)
  exact plain_advance.bind fun _ => plain_advance.bind fun typeToken => .pure _

/-! ## Steps and their twins -/

/-- The entries that have been reported, the latest first, each of them at a later offset than the
one before; whether something has been passed behind the last one is told too. -/
structure Entered (place : Nat → Nat) (moved : Bool) (state : ParseState) : Prop where
  stands : state.Stands place 0 false
  entries : ∃ offsets : List Nat, state.reported = offsets.map entryNote ∧
    offsets.Pairwise (· > ·) ∧ ∀ offset ∈ offsets, offset + moved.toNat ≤ state.cursor.offset place

structure Meets (place : Nat → Nat) (token : Token) (state : ParseState) : Prop extends
    Entered place false state where
  current_eq : state.cursor.current = token

/-- A step and its twin end alike, but for the entries that the twin has reported. -/
inductive Mirrored (place : Nat → Nat) (after : α → ParseState → Prop) :
    EStateM.Result Diagnostic ParseState α → EStateM.Result Diagnostic ParseState α → Prop where
  | ok (value : α) (final : ParseState) (reported : List Diagnostic)
    (h : after value { final with reported }) :
    Mirrored place after (.ok value final) (.ok value { final with reported })
  | error (diagnostic : Diagnostic) (final : ParseState) (reported : List Diagnostic)
    (h : Entered place false { final with reported }) :
    Mirrored place after (.error diagnostic final) (.error diagnostic { final with reported })

def Mirrors (place : Nat → Nat) (before : ParseState → Prop) (step twin : Parse α)
    (after : α → ParseState → Prop) : Prop :=
  ∀ state reported, before { state with reported } →
    Mirrored place after (step state) (twin { state with reported })

variable {place : Nat → Nat} {moved : Bool}

namespace Entered

variable {state next : ParseState}

theorem weaken (h : Entered place moved state) : Entered place false state := by
  obtain ⟨hready, offsets, hreported, hordered, hbounded⟩ := h
  refine ⟨hready, offsets, hreported, hordered, fun offset hmem => ?_⟩
  exact Nat.le_trans (Nat.le_add_right _ _) (hbounded offset hmem)

theorem moves (h : Entered place moved state) (hmoves : Moves .silent state next) :
    Entered place moved next := by
  obtain ⟨hstands, offsets, hreported, hordered, hbounded⟩ := h
  refine ⟨hstands.moves hmoves, offsets, hmoves.reported_eq.trans hreported, hordered, ?_⟩
  exact fun offset hmem => Nat.le_trans (hbounded offset hmem) (hstands.offset_le hmoves)

theorem exists_entries (h : Entered place moved state) :
    ∃ entries : List Nat, entries.Pairwise (· < ·) ∧
      state.reported = (entries.map entryNote).reverse := by
  obtain ⟨-, offsets, hreported, hordered, -⟩ := h
  refine ⟨offsets.reverse, List.pairwise_reverse.mpr hordered, ?_⟩
  rw [List.map_reverse, List.reverse_reverse, hreported]

theorem advance (h : Entered place moved state)
    (hkind : state.cursor.current.kind ≠ .endOfInput) :
    Entered place true { state with cursor := state.cursor.advance } := by
  obtain ⟨hstands, offsets, hreported, hordered, hbounded⟩ := h.weaken
  refine ⟨(hstands.advance hkind).weaken, offsets, hreported, hordered, fun offset hmem => ?_⟩
  exact Nat.lt_of_le_of_lt (hbounded offset hmem) (hstands.begins.advance hkind).lt_offset

theorem enter (h : Entered place true state) :
    Entered place false
      { state with reported := entryNote (state.cursor.offset place) :: state.reported } := by
  obtain ⟨⟨hsound, hstands, hstart, -⟩, offsets, hreported, hordered, hbounded⟩ := h
  refine ⟨⟨hsound, hstands, hstart, nofun⟩, state.cursor.offset place :: offsets,
    congrArg _ hreported, ?_, ?_⟩
  · exact List.pairwise_cons.mpr ⟨hbounded, hordered⟩
  · refine List.forall_mem_cons.mpr ⟨Nat.le_refl _, fun offset hmem => ?_⟩
    exact Nat.le_trans (Nat.le_add_right _ _) (hbounded offset hmem)

end Entered

namespace Mirrors

variable {step twin : Parse α} {next next' : α → Parse β} {before : ParseState → Prop}
  {mid : α → ParseState → Prop} {after : β → ParseState → Prop}

theorem pure {value : β} (h : ∀ state, before state → after value state) :
    Mirrors place before (pure value) (pure value) after :=
  fun state reported hbefore => .ok value state reported (h _ hbefore)

theorem throw {diagnostic : Diagnostic} (h : ∀ state, before state → Entered place false state) :
    Mirrors place before (throw diagnostic) (throw diagnostic) after :=
  fun state reported hbefore => .error diagnostic state reported (h _ hbefore)

theorem bind (h : Mirrors place before step twin mid)
    (hnext : ∀ value, Mirrors place (mid value) (next value) (next' value) after) :
    Mirrors place before (step >>= next) (twin >>= next') after := by
  intro state reported hbefore
  have hfirst := h state reported hbefore
  change Mirrored place after (EStateM.bind step next state) (EStateM.bind twin next' _)
  unfold EStateM.bind
  generalize step state = result at hfirst
  generalize twin { state with reported } = result' at hfirst
  cases hfirst with
  | ok value middle reported h => exact hnext value middle reported h
  | error diagnostic final reported h => exact .error diagnostic final reported h

theorem ite {condition : Prop} [Decidable condition] {first second first' second' : Parse β}
    (h : condition → Mirrors place before first first' after)
    (h' : ¬condition → Mirrors place before second second' after) :
    Mirrors place before (if condition then first else second)
      (if condition then first' else second') after := by
  split
  · exact h ‹_›
  · exact h' ‹_›

theorem imp {before' : ParseState → Prop} {after' : α → ParseState → Prop}
    (h : Mirrors place before step twin mid) (hbefore : ∀ state, before' state → before state)
    (hafter : ∀ value state, mid value state → after' value state) :
    Mirrors place before' step twin after' := by
  intro state reported hstate
  have hends := h state reported (hbefore _ hstate)
  generalize step state = result at hends ⊢
  generalize twin { state with reported } = result' at hends ⊢
  cases hends with
  | ok value final reported h => exact .ok value final reported (hafter value _ h)
  | error diagnostic final reported h => exact .error diagnostic final reported h

theorem exhaust {α : Type} {value : α} :
    Mirrors place (Entered place moved) (Parse.exhaust value) (Parse.exhaust value)
      fun _ => Entered place moved :=
  fun state reported hentered =>
    .ok value { state with exhausted := true } reported (hentered.moves (.single (.exhaust _)))

theorem plain (hplain : Plain step) (hmoving : Moving .silent step) :
    Mirrors place (Entered place moved) step step fun _ => Entered place moved := by
  intro state reported hentered
  have hmoves : Moves .silent { state with reported } (step.finalState { state with reported }) :=
    hmoving _
  unfold finalState at hmoves
  rw [hplain state reported] at hmoves ⊢
  cases hstep : step state with
  | ok value final =>
    rw [hstep] at hmoves
    exact .ok value final reported (hentered.moves hmoves)
  | error diagnostic final =>
    rw [hstep] at hmoves
    exact .error diagnostic final reported (hentered.moves hmoves).weaken

theorem andThen (hplain : Plain step) (hmoving : Moving .silent step)
    (hnext : ∀ value, Mirrors place (Entered place moved) (next value) (next' value) after) :
    Mirrors place (Entered place moved) (step >>= next) (step >>= next') after :=
  (plain hplain hmoving).bind hnext

theorem get {next next' : ParseState → Parse β}
    (h : ∀ state reported, Mirrors place before (next state) (next' { state with reported })
      after) :
    Mirrors place before (get >>= next) (get >>= next') after :=
  fun state reported hbefore => h state reported state reported hbefore

theorem currentKind {next next' : TokenKind → Parse β}
    (h : ∀ token, Mirrors place (Meets place token) (next token.kind) (next' token.kind) after) :
    Mirrors place (Entered place false) (Parse.currentKind >>= next)
      (Parse.currentKind >>= next') after :=
  fun state reported hentered => h _ state reported ⟨hentered, rfl⟩

theorem current {next next' : Token → Parse β}
    (h : ∀ token, Mirrors place (Meets place token) (next token) (next' token) after) :
    Mirrors place (Entered place false) (Parse.current >>= next) (Parse.current >>= next')
      after :=
  fun state reported hentered => h _ state reported ⟨hentered, rfl⟩

theorem meets {token : Token} (h : Mirrors place (Entered place false) step twin mid) :
    Mirrors place (Meets place token) step twin mid :=
  h.imp (fun _ hmeets => hmeets.toEntered) fun _ _ => id

end Mirrors

/-! ## Passing tokens -/

theorem mirrors_advance {token : Token} (hkind : token.kind ≠ .endOfInput) :
    Mirrors place (Meets place token) advance advance fun _ => Entered place true := by
  intro state reported hmeets
  refine .ok state.cursor.current { state with cursor := state.cursor.advance } reported ?_
  exact hmeets.toEntered.advance (hmeets.current_eq ▸ hkind)

theorem mirrors_expect {kind : TokenKind} (hkind : kind ≠ .endOfInput) :
    Mirrors place (Entered place false) (expect kind) (expect kind)
      fun _ => Entered place true := by
  refine .currentKind fun token => .ite (fun hfound => ?_) fun _ => ?_
  · exact mirrors_advance (hfound ▸ hkind)
  · refine .meets (.andThen (plain_unexpected _) (moving_unexpected _) fun diagnostic => ?_)
    exact .throw fun _ => id

end Parse

/-! ## Collecting with a twin -/

section Parts

variable {place : Nat → Nat} {inner twin : RunContext → Parse Run}
  (hinner : ∀ context, Mirrors place (Entered place true) (inner context) (twin context)
    fun _ => Entered place false)

include hinner

theorem mirrors_behind {β : Type} {token : Token} (hkind : token.kind ≠ .endOfInput)
    {after : β → ParseState → Prop} (context : RunContext) {next next' : Token → Run → Parse β}
    (h : ∀ token run, Mirrors place (Entered place false) (next token run) (next' token run)
      after) :
    Mirrors place (Meets place token)
      (advance >>= fun token => inner context >>= fun run => next token run)
      (advance >>= fun token => twin context >>= fun run => next' token run) after :=
  (mirrors_advance hkind).bind fun token => (hinner context).bind fun run => h token run

theorem mirrors_collectEnumeration {token : Token} (hkind : token.kind ≠ .endOfInput)
    (bracket : Bracket) (runs : List Run) :
    Mirrors place (Meets place token) (collectEnumeration inner bracket runs)
      (collectEnumeration twin bracket runs) fun _ => Entered place false := by
  refine (mirrors_advance hkind).bind fun dots => .ite (fun _ => .throw fun _ => Entered.weaken)
    fun _ => ?_
  refine .andThen plain_currentKind moving_currentKind fun kind => .ite (fun _ => ?_) fun _ => ?_
  · exact .pure fun _ => Entered.weaken
  · exact (hinner {}).bind fun bound => .pure fun _ => id

theorem mirrors_collectGenerators (rounds : Nat) (separator : Option Separator)
    (found : List Run) :
    Mirrors place (Entered place false) (collectGenerators inner rounds separator found)
      (collectGenerators twin rounds separator found) fun _ => Entered place false := by
  induction rounds generalizing separator found with
  | zero => exact .exhaust
  | succ rounds ih =>
    refine .current fun token => ?_
    cases hkind : Separator.ofKind? token.kind with
    | none => exact .pure fun _ hmeets => hmeets.toEntered
    | some next =>
      refine .ite (fun _ => .throw fun _ hmeets => hmeets.toEntered) fun _ => ?_
      exact mirrors_behind hinner (Separator.kind_ne hkind) {} fun _ run =>
        ih (some next) (run :: found)

theorem mirrors_collectElements (bracket : Bracket) (separator : Separator) (rounds : Nat)
    (found : List Run) :
    Mirrors place (Entered place false) (collectElements inner bracket separator rounds found)
      (collectElements twin bracket separator rounds found) fun _ => Entered place false := by
  induction rounds generalizing found with
  | zero => exact .exhaust
  | succ rounds ih =>
    refine .current fun token => ?_
    cases hkind : Separator.ofKind? token.kind with
    | none =>
      refine .ite (fun hdots => ?_) fun _ => .ite (fun hpipe => ?_) fun _ => ?_
      · exact mirrors_collectEnumeration hinner (by simp [hdots]) bracket found.reverse
      · exact mirrors_behind hinner (by simp [hpipe]) {} fun _ _ => .pure fun _ => id
      · exact .pure fun _ hmeets => hmeets.toEntered
    | some next =>
      refine .ite (fun _ => .throw fun _ hmeets => hmeets.toEntered) fun _ => ?_
      refine (mirrors_advance (Separator.kind_ne hkind)).bind fun _ => ?_
      refine .andThen plain_currentKind moving_currentKind fun kind => ?_
      refine .ite (fun _ => ?_) fun _ => ?_
      · exact .pure fun _ => Entered.weaken
      · exact (hinner {}).bind fun run => ih (run :: found)

theorem mirrors_collectBody (bracket : Bracket) (first : Run) :
    Mirrors place (Entered place false) (collectBody inner bracket first)
      (collectBody twin bracket first) fun _ => Entered place false := by
  refine .get fun state _ => .currentKind fun token => ?_
  dsimp only
  split <;> rename_i hkind
  · exact mirrors_collectEnumeration hinner (by simp [hkind]) bracket [first]
  · refine mirrors_behind hinner (by simp [hkind]) {} fun _ generator => ?_
    exact (mirrors_collectGenerators hinner state.limit none [generator]).bind fun _ =>
      .pure fun _ => id
  · exact (mirrors_collectElements hinner bracket .comma state.limit [first]).meets
  · exact (mirrors_collectElements hinner bracket .semicolon state.limit [first]).meets
  · exact mirrors_behind hinner (by simp [hkind]) {} fun _ _ => .pure fun _ => id
  · refine .ite (fun _ => .pure fun _ hmeets => hmeets.toEntered) fun _ => .meets ?_
    refine .andThen (plain_unclosed bracket) (moving_unclosed bracket) fun diagnostic => ?_
    exact .throw fun _ => id

theorem mirrors_collectContainer {token : Token} (hkind : token.kind ≠ .endOfInput) :
    Mirrors place (Meets place token) (collectContainer inner) (collectContainer twin)
      fun _ => Entered place false := by
  refine (mirrors_advance hkind).bind fun opening => ?_
  refine .andThen (plain_accept _) (moving_acceptMark _) fun closed => ?_
  refine .ite (fun _ => ?_) fun _ => ?_
  · refine .andThen (plain_spanFrom _) (moving_spanFrom _) fun span => ?_
    exact .pure fun _ => Entered.weaken
  · refine (hinner _).bind fun first => (mirrors_collectBody hinner _ first).bind fun body => ?_
    refine .andThen (plain_close _) (moving_close _) fun _ => ?_
    exact .andThen (plain_spanFrom _) (moving_spanFrom _) fun span => .pure fun _ => id

theorem mirrors_collectLambda {token : Token} (hkind : token.kind ≠ .endOfInput)
    (context : RunContext) :
    Mirrors place (Meets place token) (collectLambda inner context) (collectLambda twin context)
      fun _ => Entered place false := by
  have hdot : TokenKind.mark .dot ≠ .endOfInput := nofun
  refine mirrors_behind hinner hkind _ fun backslash parameters => ?_
  refine (mirrors_expect hdot).bind fun _ => (hinner _).bind fun body => ?_
  exact .andThen (plain_spanFrom _) (moving_spanFrom _) fun span => .pure fun _ => id

theorem mirrors_collectConditional {token : Token} (hkind : token.kind ≠ .endOfInput)
    (context : RunContext) :
    Mirrors place (Meets place token) (collectConditional inner context)
      (collectConditional twin context) fun _ => Entered place false := by
  have hthen : TokenKind.word .thenWord ≠ .endOfInput := nofun
  refine mirrors_behind hinner hkind {} fun opening condition => ?_
  refine (mirrors_expect hthen).bind fun _ => (hinner context).bind fun thenBranch => ?_
  refine .andThen plain_currentKind moving_currentKind fun kind => .ite (fun _ => ?_) fun _ => ?_
  · exact .andThen plain_advance moving_advance fun closing => .pure fun _ => id
  · exact .pure fun _ => id

theorem mirrors_nextItems (context : RunContext) (started : Bool) :
    Mirrors place (Entered place false) (nextItems? inner context started)
      (nextItems? twin context started) fun _ => Entered place false := by
  have hplain {α : Type} {step : Parse α} {token : Token} {f : α → List RunItem}
      (hplain : Plain step) (hmoving : Moving .silent step) :
      Mirrors place (Meets place token) (step >>= fun value => pure (some (f value)))
        (step >>= fun value => pure (some (f value))) fun _ => Entered place false :=
    .meets (.andThen hplain hmoving fun _ => .pure fun _ => id)
  refine .current fun token => ?_
  split <;> rename_i hkind
  · exact hplain (plain_collectIdentifier context) (moving_collectIdentifier context)
  · exact hplain (plain_collectIdentifier context) (moving_collectIdentifier context)
  · refine .meets (.andThen plain_advance moving_advance fun _ => ?_)
    refine .andThen (plain_identifier _) (moving_identifier _) fun name => ?_
    exact .andThen (plain_spanFrom _) (moving_spanFrom _) fun span => .pure fun _ => id
  · refine .meets (.andThen plain_advance moving_advance fun _ => ?_)
    exact .andThen (.ofExcept _) (.ofExcept _) fun literal => .pure fun _ => id
  · exact .meets (.andThen plain_advance moving_advance fun _ => .pure fun _ => id)
  · exact (mirrors_collectContainer hinner (by simp [hkind])).bind fun _ => .pure fun _ => id
  · exact (mirrors_collectContainer hinner (by simp [hkind])).bind fun _ => .pure fun _ => id
  · exact (mirrors_collectContainer hinner (by simp [hkind])).bind fun _ => .pure fun _ => id
  · exact (mirrors_collectLambda hinner (by simp [hkind]) context).bind fun _ => .pure fun _ => id
  · refine .ite (fun _ => .pure fun _ hmeets => hmeets.toEntered) fun _ => ?_
    exact (mirrors_collectConditional hinner (by simp [hkind]) context).bind fun _ =>
      .pure fun _ => id
  · exact .meets (.andThen (plain_unexpected _) (moving_unexpected _) fun _ => .throw fun _ => id)
  · refine .ite (fun _ => .pure fun _ hmeets => hmeets.toEntered) fun _ => ?_
    refine .ite (fun _ => .pure fun _ hmeets => hmeets.toEntered) fun _ => ?_
    refine .ite (fun hdot => ?_) fun _ => .ite (fun _ => ?_) fun _ => ?_
    · intro state reported hmeets
      rw [Bool.and_eq_true] at hdot
      have hmove : Move .silent { state with reported } _ :=
        .split (hmeets.current_eq.symm ▸ hdot.2)
      exact .ok none { state with cursor := state.cursor.split 1 } reported
        (hmeets.toEntered.moves (.single hmove))
    · exact hplain plain_operator moving_operator
    · exact .pure fun _ hmeets => hmeets.toEntered

theorem mirrors_collectItems (context : RunContext) (rounds : Nat) (found : List RunItem) :
    Mirrors place (Entered place false) (collectItems inner context rounds found)
      (collectItems twin context rounds found) fun _ => Entered place false := by
  induction rounds generalizing found with
  | zero => exact .exhaust
  | succ rounds ih =>
    refine (mirrors_nextItems hinner context _).bind fun answer => ?_
    cases answer with
    | some items => exact ih (items.reverse ++ found)
    | none => exact .pure fun _ => id

theorem mirrors_collectWith (context : RunContext) :
    Mirrors place (Entered place false) (collectWith inner context) (collectWith twin context)
      fun _ => Entered place false := by
  refine .andThen plain_position moving_position fun start => .get fun state _ => ?_
  exact (mirrors_collectItems hinner context state.limit []).bind fun items => .pure fun _ => id

end Parts

/-! ## Entries -/

theorem mirrors_collectRun {place : Nat → Nat} (depth : Nat) (context : RunContext) :
    Mirrors place (Entered place true) (collectRun depth context) (tracedRun place depth context)
      fun _ => Entered place false := by
  induction depth generalizing context with
  | zero =>
    have hempty : Mirrors place (Entered place false) (collectRun 0 context)
        (collectRun 0 context) fun _ => Entered place false :=
      .andThen plain_position moving_position fun start => .exhaust
    exact fun state reported hentered => hempty state _ hentered.enter
  | succ depth ih =>
    exact fun state reported hentered => mirrors_collectWith ih context state _ hentered.enter

/-- Each run that is collected, whether in the end it succeeds or not, begins at a later token than
the one that was begun before it. -/
theorem entries_in_order {place : Nat → Nat} {state : ParseState} (h : state.Stands place 0 false)
    (depth : Nat) (context : RunContext) :
    ∃ entries : List Nat, entries.Pairwise (· < ·) ∧
      tracedRun place depth context { state with reported := [] } =
        reporting (entries.map entryNote).reverse (collectRun depth context state) := by
  have hentered : Entered place true { state with reported := [] } :=
    ⟨⟨h.sound, h.stands, h.start_le, nofun⟩, [], rfl, .nil, nofun⟩
  have hmirrored := mirrors_collectRun depth context state [] hentered
  generalize collectRun depth context state = result at hmirrored ⊢
  generalize tracedRun place depth context _ = result' at hmirrored ⊢
  cases hmirrored with
  | ok value final reported hfinal =>
    obtain ⟨entries, hordered, rfl⟩ := hfinal.exists_entries
    exact ⟨entries, hordered, rfl⟩
  | error diagnostic final reported hfinal =>
    obtain ⟨entries, hordered, rfl⟩ := hfinal.exists_entries
    exact ⟨entries, hordered, rfl⟩

end Equational

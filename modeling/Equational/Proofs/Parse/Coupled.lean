import Equational.Proofs.Parse.Splitting
import Equational.Proofs.Relocation.Resolution

/-!
# Coupled steps

Two parsing steps are coupled if from the same shared part they come to the same value, up to its
place, and the same shared part, or to the same diagnostic.  The one exception is a first run that
has left the shared tokens: no semicolon is ahead of it any more.

Coupled steps are closed under sequencing, branching and looping.  A loop goes round equally often
in both runs, since each round passes a token and neither run is limited to fewer rounds than there
is weight ahead.
-/

namespace Equational

open Cursor

namespace Parse

variable {α β : Type} [Relocatable α] [Relocatable β] {κ : Coupling} {stage : Stage}

/-! ## Outcomes -/

inductive Outcome (κ : Coupling) (after : α → Stage) :
    EStateM.Result Diagnostic ParseState α → EStateM.Result Diagnostic ParseState α → Prop where
  | ok (value : α) (shared : Shared) (table : OperatorTable) (h : κ.Fits (after value) shared) :
    Outcome κ after (.ok value (κ.first.state shared table))
      (.ok (relocate κ.place value) (κ.second.state (relocate κ.place shared) table))
  | error (diagnostic : Diagnostic) (shared : Shared) (table : OperatorTable)
      (h : κ.Stops diagnostic shared) :
    Outcome κ after (.error diagnostic (κ.first.state shared table))
      (.error (relocate κ.place diagnostic) (κ.second.state (relocate κ.place shared) table))
  | left {value : α} {final : ParseState} {other : EStateM.Result Diagnostic ParseState α}
      (hextent : κ.extent = .statements) (hloose : (after value).loose) (h : final.IsBarren) :
    Outcome κ after (.ok value final) other
  | lost {diagnostic : Diagnostic} {final : ParseState}
      {other : EStateM.Result Diagnostic ParseState α} (hextent : κ.extent = .statements) :
    Outcome κ after (.error diagnostic final) other

def StaysBarren (before : Stage) (step : Parse α) (after : α → Stage) : Prop :=
  before.loose → ∀ state value final, state.IsBarren → step state = .ok value final →
    (after value).loose ∧ final.IsBarren

/-- From one stage, the two steps come to another one, which depends on their value. -/
structure Couples (κ : Coupling) (before : Stage) (step step' : Parse α) (after : α → Stage) :
    Prop where
  shared : ∀ shared table, κ.Fits before shared →
    Outcome κ after (step (κ.first.state shared table))
      (step' (κ.second.state (relocate κ.place shared) table))
  barren : StaysBarren before step after

omit [Relocatable α] in
theorem Moving.staysBarren {step : Parse α} {before : Stage} {after : α → Stage}
    (h : Moving .reporting step) (hloose : before.loose → ∀ value, (after value).loose) :
    StaysBarren before step after :=
  fun hbefore _ value _ hbarren hstep => ⟨hloose hbefore value, h.isBarren hstep hbarren⟩

namespace Couples

variable {step step' : Parse α} {next next' : α → Parse β} {before : Stage} {mid : α → Stage}
  {after : β → Stage}

theorem pure {value other : α} {after : α → Stage} (h : before.Entails (after value))
    (hvalue : before.assumes → other = relocate κ.place value) :
    Couples κ before (pure value) (pure other) after where
  shared shared table hfits := by
    rw [hvalue hfits.assumes]
    exact .ok value shared table (hfits.entails h)
  barren hloose state result final hbarren hstep := by
    cases hstep
    exact ⟨h.loose hloose, hbarren⟩

theorem throw (diagnostic : Diagnostic) (hphase : diagnostic.cause.phase ≠ .lexical)
    (after : α → Stage) :
    Couples κ before (throw diagnostic) (throw (relocate κ.place diagnostic)) after where
  shared shared table hfits := .error diagnostic shared table (.raised hfits hphase)
  barren _ _ _ _ _ hstep := by cases hstep

theorem bind (h : Couples κ before step step' mid)
    (hnext : ∀ value, Couples κ (mid value) (next value) (next' (relocate κ.place value)) after) :
    Couples κ before (step >>= next) (step' >>= next') after where
  shared shared table hfits := by
    have hfirst := h.shared shared table hfits
    change Outcome κ after (EStateM.bind step next _) (EStateM.bind step' next' _)
    unfold EStateM.bind
    generalize step (κ.first.state shared table) = result at hfirst
    generalize step' (κ.second.state (relocate κ.place shared) table) = result' at hfirst
    cases hfirst with
    | ok value shared table h => exact (hnext value).shared shared table h
    | error diagnostic shared table h => exact .error diagnostic shared table h
    | @left value final other hextent hloose h =>
      dsimp only
      cases hlast : next value final with
      | ok result last =>
        obtain ⟨hloose', h'⟩ := (hnext value).barren hloose final result last h hlast
        exact .left hextent hloose' h'
      | error diagnostic last => exact .lost hextent
    | lost hextent => exact .lost hextent
  barren hloose state value final hbarren hstep := by
    obtain ⟨first, middle, hfirst, hrest⟩ := bind_eq_ok_iff.mp hstep
    obtain ⟨hmid, hmiddle⟩ := h.barren hloose state first middle hbarren hfirst
    exact (hnext first).barren hmid middle value final hmiddle hrest

theorem ite {condition condition' : Prop} [Decidable condition] [Decidable condition']
    {first second first' second' : Parse α} {after : α → Stage}
    (hcondition : condition ↔ condition') (h : condition → Couples κ before first first' after)
    (h' : ¬condition → Couples κ before second second' after) :
    Couples κ before (if condition then first else second)
      (if condition' then first' else second') after := by
  by_cases hc : condition
  · rw [if_pos hc, if_pos (hcondition.mp hc)]
    exact h hc
  · rw [if_neg hc, if_neg (mt hcondition.mpr hc)]
    exact h' hc

theorem some_map {mid : Stage} (h : Couples κ before step step' fun _ => mid) :
    Couples κ before (some <$> step) (some <$> step') fun _ => mid := by
  rw [map_eq_pure_bind, map_eq_pure_bind]
  exact h.bind fun _ => .pure (.refl mid) fun _ => rfl

theorem entails {first : Stage} {after after' : α → Stage} (h : Couples κ before step step' after)
    (hbefore : first.Entails before) (hafter : ∀ value, (after value).Entails (after' value)) :
    Couples κ first step step' after' where
  shared shared table hfits := by
    have hsteps := h.shared shared table (hfits.entails hbefore)
    generalize step (κ.first.state shared table) = result at hsteps
    generalize step' (κ.second.state (relocate κ.place shared) table) = result' at hsteps
    cases hsteps with
    | ok value shared table h => exact .ok value shared table (h.entails (hafter value))
    | error diagnostic shared table h => exact .error diagnostic shared table h
    | left hextent hloose h => exact .left hextent ((hafter _).loose hloose) h
    | lost hextent => exact .lost hextent
  barren hloose state value final hbarren hstep := by
    obtain ⟨hafter', hfinal⟩ :=
      h.barren (hbefore.loose hloose) state value final hbarren hstep
    exact ⟨(hafter value).loose hafter', hfinal⟩

theorem ofExcept {result result' : Except Diagnostic α}
    (h : Relocated κ.place (relocate κ.place) result result') :
    Couples κ before (MonadExcept.ofExcept result) (MonadExcept.ofExcept result')
      fun _ => before := by
  cases h with
  | ok value => exact .pure (.refl before) fun _ => rfl
  | error diagnostic hphase => exact .throw diagnostic hphase _

theorem of_moving {after : α → Stage} (hmoving : Moving .reporting step)
    (hloose : before.loose → ∀ value, (after value).loose)
    (h : ∀ shared table, κ.Fits before shared → Outcome κ after (step (κ.first.state shared table))
      (step' (κ.second.state (relocate κ.place shared) table))) :
    Couples κ before step step' after where
  shared := h
  barren := hmoving.staysBarren hloose

end Couples

/-! ## Looking -/

theorem exists_cons_of_fits {shared : Shared} (h : κ.Fits stage shared) :
    ∃ passed token rest reported, shared = ⟨passed, token :: rest, reported⟩ := by
  obtain ⟨passed, ahead, reported⟩ := shared
  cases ahead with
  | nil => exact absurd rfl h.nonempty
  | cons token rest => exact ⟨passed, token, rest, reported, rfl⟩

theorem couples_current_aligned :
    Couples κ stage current current fun token =>
      (stage.assume (κ.place.Aligns token.span.start)).look token.kind := by
  refine .of_moving moving_current (fun hloose _ => hloose) fun shared table hfits => ?_
  obtain ⟨passed, token, rest, reported, rfl⟩ := exists_cons_of_fits hfits
  have haligned := (hfits.tracked token List.mem_cons_self).aligned
  exact .ok token.toToken _ table (hfits.assume haligned).look

theorem couples_current :
    Couples κ stage current current fun token => stage.look token.kind :=
  couples_current_aligned.entails (.refl _) fun token =>
    .assumed (.refl (stage.look token.kind)) _

theorem couples_currentKind : Couples κ stage currentKind currentKind stage.look :=
  couples_current.bind fun _ => .pure (.refl _) fun _ => rfl

theorem couples_currentKind_seen {seen : TokenKind} :
    Couples κ (stage.look seen) currentKind currentKind fun found =>
      (stage.assume (found = seen)).look found := by
  refine .of_moving (moving_current.bind fun _ => .pure _) (fun hloose _ => hloose) ?_
  intro shared table hfits
  obtain ⟨passed, token, rest, reported, rfl⟩ := exists_cons_of_fits hfits
  have hseen := hfits.kind_eq rfl
  have hforgets : (stage.look seen).Entails { stage with seen := none } :=
    ⟨Nat.le_refl _, rfl, nofun, fun _ => id, id, id, id⟩
  exact .ok token.kind _ table ((hfits.entails hforgets).assume hseen).look

theorem couples_peek_unused {distance distance' : Nat} {next next' : Token → Parse α}
    {after : α → Stage} (h : ∀ token token', Couples κ stage (next token) (next' token') after) :
    Couples κ stage (peek distance >>= next) (peek distance' >>= next') after where
  shared shared table hfits := (h _ _).shared shared table hfits
  barren hloose state value final hbarren hstep :=
    (h _ (.endOfInput 0)).barren hloose state value final hbarren hstep

theorem couples_peek_next {kind : TokenKind} {opened : List Bracket}
    (hkind : Passes stage.opened kind opened) :
    Couples κ (stage.look kind) (peek 1) (peek 1) fun token =>
      (stage.look kind).lookBehind token.kind := by
  refine .of_moving (moving_peek 1) (fun hloose _ => hloose) fun shared table hfits => ?_
  obtain ⟨passed, token, rest, reported, rfl⟩ := exists_cons_of_fits hfits
  have hrest := hfits.rest_ne_nil (hfits.kind_eq rfl ▸ hkind.ne_terminator κ.extent)
  obtain ⟨next, others, rfl⟩ := List.exists_cons_of_ne_nil hrest
  exact .ok next.toToken _ table hfits.lookBehind

theorem couples_position_aligned :
    Couples κ stage position position fun start =>
      stage.assume (κ.place.Aligns start) := by
  refine .of_moving moving_position (fun hloose _ => hloose) fun shared table hfits => ?_
  obtain ⟨passed, token, rest, reported, rfl⟩ := exists_cons_of_fits hfits
  have haligned := (hfits.tracked token List.mem_cons_self).aligned
  exact .ok token.span.start _ table (hfits.assume haligned)

theorem couples_position : Couples κ stage position position fun _ => stage :=
  couples_position_aligned.entails (.refl _) fun _ => .assumed (.refl _) _

theorem couples_spanFrom_start (hmoved : stage.moved) (start : Nat) :
    Couples κ stage (spanFrom start) (spanFrom (relocate κ.place start)) fun span =>
      stage.assume (span.start = start) := by
  refine .of_moving (moving_spanFrom start) (fun hloose _ => hloose) fun shared table hfits => ?_
  obtain ⟨token, passed, hpassed⟩ := List.exists_cons_of_ne_nil (hfits.moved hmoved)
  obtain ⟨_, ahead, reported⟩ := shared
  obtain rfl := hpassed
  exact .ok (⟨start, token.span.stop⟩ : Span) _ table (hfits.assume rfl)

theorem couples_spanFrom (hmoved : stage.moved) (start : Nat) :
    Couples κ stage (spanFrom start) (spanFrom (relocate κ.place start)) fun _ => stage :=
  (couples_spanFrom_start hmoved start).entails (.refl _) fun _ => .assumed (.refl _) _

/-! ## Moving -/

theorem advance_eq {side : Side} {passed rest : List Slot} {token : Slot}
    {reported : List Diagnostic} {table : OperatorTable} (h : token.kind ≠ .endOfInput) :
    advance (side.state ⟨passed, token :: rest, reported⟩ table) =
      .ok token.toToken (side.state ⟨token :: passed, rest, reported⟩ table) := by
  have hadvance := Cursor.advance_ofSlots (passed ++ side.before) (rest ++ side.behind) token h
  exact congrArg (fun cursor => EStateM.Result.ok token.toToken (ParseState.mk cursor _ _ _ _ _))
    hadvance

theorem outcome_advance {after : Token → Stage} {passed rest : List Slot} {token : Slot}
    {reported : List Diagnostic} (table : OperatorTable) (hend : token.kind ≠ .endOfInput)
    (hfits : κ.Fits (after token.toToken) ⟨token :: passed, rest, reported⟩) :
    Outcome κ after (advance (κ.first.state ⟨passed, token :: rest, reported⟩ table))
      (advance (κ.second.state (relocate κ.place ⟨passed, token :: rest, reported⟩) table)) := by
  have hsecond :
      advance (κ.second.state (relocate κ.place ⟨passed, token :: rest, reported⟩) table) =
      .ok (relocate κ.place token.toToken)
        (κ.second.state (relocate κ.place ⟨token :: passed, rest, reported⟩) table) :=
    advance_eq hend
  rw [advance_eq hend, hsecond]
  exact .ok token.toToken ⟨token :: passed, rest, reported⟩ table hfits

theorem couples_advance_to {kind : TokenKind} {opened : List Bracket} {after : Token → Stage}
    (hkind : Passes stage.opened kind opened)
    (hafter : ∀ token, token.kind = kind → κ.place.Aligns token.span.start →
      (stage.passTo opened).Entails (after token))
    (hloose : stage.loose → ∀ token, (after token).loose) :
    Couples κ (stage.look kind) advance advance after := by
  refine .of_moving moving_advance hloose fun shared table hfits => ?_
  obtain ⟨passed, token, rest, reported, rfl⟩ := exists_cons_of_fits hfits
  obtain rfl := hfits.kind_eq rfl
  have hrest := hfits.rest_ne_nil (hkind.ne_terminator κ.extent)
  have haligned := (hfits.tracked token List.mem_cons_self).aligned
  have hpassed := (hfits.pass hrest hkind.not_malformed hkind.nesting).entails
    (hafter token.toToken rfl haligned)
  exact outcome_advance table hkind.not_end hpassed

theorem couples_advance {kind : TokenKind} (hkind : kind.isPlain) :
    Couples κ (stage.look kind) advance advance fun _ => stage.pass :=
  couples_advance_to (.plain _ hkind) (fun _ _ _ => .refl _) fun hloose _ => hloose

theorem couples_advance_aligned {kind : TokenKind} (hkind : kind.isPlain) :
    Couples κ (stage.look kind) advance advance fun token =>
      stage.pass.assume (κ.place.Aligns token.span.start) :=
  couples_advance_to (.plain _ hkind) (fun _ _ haligned => .assuming (.refl _) fun _ => haligned)
    fun hloose _ => hloose

theorem couples_advance_opening {kind : TokenKind}
    (hkind : kind = .mark .openParen ∨ kind = .mark .openBracket ∨ kind = .mark .openCurly) :
    Couples κ (stage.look kind) advance advance fun token =>
      (stage.passTo (Bracket.ofOpening token.kind :: stage.opened)).assume
        (κ.place.Aligns token.span.start) := by
  refine couples_advance_to (.opening _ hkind) ?_ fun hloose _ => hloose
  rintro token rfl haligned
  exact .assuming (.refl _) fun _ => haligned

theorem couples_advance_expected {kind follower : TokenKind} (hkind : kind.isPlain) :
    Couples κ ((stage.look kind).lookBehind follower) advance advance fun _ =>
      stage.pass.look follower := by
  refine .of_moving moving_advance (fun hloose _ => hloose) fun shared table hfits => ?_
  obtain ⟨passed, token, rest, reported, rfl⟩ := exists_cons_of_fits hfits
  obtain rfl := hfits.kind_eq rfl
  have hpasses := Passes.plain stage.opened hkind
  have hrest := hfits.rest_ne_nil (hpasses.ne_terminator κ.extent)
  obtain ⟨next, others, rfl⟩ := List.exists_cons_of_ne_nil hrest
  obtain rfl : next.kind = follower := Option.some.inj (hfits.next follower rfl)
  have hpassed := (hfits.pass hrest hpasses.not_malformed hpasses.nesting).look
  exact outcome_advance table hpasses.not_end hpassed

theorem couples_advance_separator {kind : TokenKind} {separator : Separator}
    (hkind : Separator.ofKind? kind = some separator) (hopened : stage.opened ≠ []) :
    Couples κ (stage.look kind) advance advance fun _ => stage.pass.loosen := by
  by_cases hsemicolon : kind = .mark .semicolon
  · obtain rfl := hsemicolon
    refine .of_moving moving_advance (fun _ _ => rfl) fun shared table hfits => ?_
    obtain ⟨passed, token, rest, reported, rfl⟩ := exists_cons_of_fits hfits
    have hsemicolon := hfits.kind_eq rfl
    by_cases hrest : rest = []
    · obtain rfl := hrest
      have hend := hfits.terminated token rfl
      rw [hsemicolon] at hend
      cases hextent : κ.extent with
      | all => simp [hextent, Extent.terminator] at hend
      | statement =>
        -- Some bracket is still open.
        have hnested := (hfits.nested hextent).1
        rw [List.map_cons, hsemicolon] at hnested
        exact absurd (Option.some.inj hnested) hopened
      | statements =>
        rw [advance_eq (by simp [hsemicolon])]
        obtain ⟨hbehind, hbarren⟩ := κ.ends hextent
        refine .left hextent rfl ⟨fun other hmem => ?_, fun hnone => ?_⟩
        · obtain ⟨slot, hslot, rfl⟩ := List.mem_map.mp hmem
          exact hbarren slot hslot
        · exact absurd (List.map_eq_nil_iff.mp hnone) hbehind
    · have hnesting : nestingStep stage.opened token.kind = some stage.opened := by
        rw [hsemicolon]
        rfl
      have hpassed := (hfits.pass hrest (by simp [hsemicolon]) hnesting).entails (.loosen (.refl _))
      exact outcome_advance table (by simp [hsemicolon]) hpassed
  · have hplain : kind.isPlain := by
      cases kind with
      | mark m => cases m <;> first | rfl | exact absurd rfl hsemicolon | cases hkind
      | _ => cases hkind
    exact (couples_advance hplain).entails (.refl _) fun _ => .loosen (.refl _)

theorem couples_accept {kind : TokenKind} {opened : List Bracket}
    (hkind : Passes stage.opened kind opened) :
    Couples κ stage (accept kind) (accept kind) fun accepted =>
      if accepted then stage.passTo opened else stage.fresh := by
  refine couples_currentKind.bind fun found => .ite Iff.rfl ?_ ?_
  · rintro rfl
    refine Couples.bind (couples_advance_to hkind (fun _ _ _ => .refl _) fun hloose _ => hloose) ?_
    exact fun _ => .pure (.refl _) fun _ => rfl
  · intro _
    exact .pure (.looked (.refl _) found) fun _ => rfl

/-- A step that goes one way if a token is accepted, and another way if not. -/
theorem Couples.accepting {kind : TokenKind} {opened : List Bracket}
    (hkind : Passes stage.opened kind opened) {yes no yes' no' : Parse α} {after : α → Stage}
    (h : Couples κ (stage.passTo opened) yes yes' after)
    (h' : Couples κ stage.fresh no no' after) :
    Couples κ stage (do if ← accept kind then yes else no) (do if ← accept kind then yes' else no')
      after := by
  refine (couples_accept hkind).bind fun accepted => .ite Iff.rfl ?_ ?_
  · rintro rfl
    exact h
  · intro hno
    rw [if_neg hno]
    exact h'

theorem Couples.accepting_seen {seen kind : TokenKind} {opened : List Bracket}
    (hkind : Passes stage.opened kind opened) {yes no yes' no' : Parse α} {after : α → Stage}
    (h : Couples κ (stage.passTo opened) yes yes' after)
    (h' : Couples κ (stage.look seen) no no' after) :
    Couples κ (stage.look seen) (do if ← accept kind then yes else no)
      (do if ← accept kind then yes' else no') after := by
  have haccept : Couples κ (stage.look seen) (accept kind) (accept kind) fun accepted =>
      if accepted then stage.passTo opened else stage.look seen := by
    refine couples_currentKind_seen.bind fun found => .ite Iff.rfl ?_ ?_
    · rintro rfl
      have hpass : ((stage.assume (found = seen)).passTo opened).Entails (stage.passTo opened) :=
        ⟨Nat.le_refl _, rfl, nofun, nofun, id, id, And.left⟩
      refine Couples.bind (couples_advance_to hkind (fun _ _ _ => hpass) fun hloose _ => hloose) ?_
      exact fun _ => .pure (.refl _) fun _ => rfl
    · intro _
      refine .pure ?_ fun _ => rfl
      refine ⟨Nat.le_refl _, rfl, ?_, fun _ => id, id, id, And.left⟩
      rintro kind hseen ⟨-, rfl⟩
      exact hseen
  refine haccept.bind fun accepted => .ite Iff.rfl ?_ ?_
  · rintro rfl
    exact h
  · intro hno
    rw [if_neg hno]
    exact h'

omit [Relocatable α] [Relocatable β] in
theorem optional_bind (kind : TokenKind) (item : Parse α) (next : Option α → Parse β) :
    (do if ← accept kind then some <$> item >>= next else pure none >>= next) =
      (do if ← accept kind then some <$> item else pure none) >>= next := by
  rw [bind_assoc]
  refine congrArg (accept kind >>= ·) (funext fun accepted => ?_)
  cases accepted <;> rfl

theorem couples_optional {kind : TokenKind} {opened : List Bracket} {mid : Stage}
    (hkind : Passes stage.opened kind opened) {item item' : Parse α}
    (h : Couples κ (stage.passTo opened) item item' fun _ => mid)
    (hnone : stage.fresh.Entails mid) :
    Couples κ stage (do if ← accept kind then some <$> item else pure none)
      (do if ← accept kind then some <$> item' else pure none) fun _ => mid :=
  .accepting hkind h.some_map (.pure hnone fun _ => rfl)

theorem Couples.optional {kind : TokenKind} {opened : List Bracket} (mid : Stage)
    (hkind : Passes stage.opened kind opened) {item item' : Parse α}
    {next next' : Option α → Parse β} {after : β → Stage}
    (h : Couples κ (stage.passTo opened) item item' fun _ => mid) (hnone : stage.fresh.Entails mid)
    (hnext : ∀ value, Couples κ mid (next value) (next' (relocate κ.place value)) after) :
    Couples κ stage (do if ← accept kind then some <$> item >>= next else Pure.pure none >>= next)
      (do if ← accept kind then some <$> item' >>= next' else Pure.pure none >>= next') after := by
  rw [optional_bind, optional_bind]
  exact (couples_optional hkind h hnone).bind hnext

/-! ## Diagnostics -/

section Failing

omit [Relocatable α] [Relocatable β]

def unexpectedCause (token : Token) (expected : String) : Cause :=
  if token.kind = .endOfInput then .unexpectedEnd expected
  else .unexpectedToken token.qualifiedValue ("expected " ++ expected)

theorem phase_unexpectedCause (token : Token) (expected : String) :
    (unexpectedCause token expected).phase ≠ .lexical := by
  unfold unexpectedCause
  split <;> nofun

theorem unexpected_of_kind {cursor : Cursor} (hkind : cursor.current.kind ≠ .malformed)
    (expected : String) :
    cursor.unexpected expected =
      (⟨unexpectedCause cursor.current expected, cursor.current.span⟩, cursor) := by
  unfold Cursor.unexpected unexpectedCause
  dsimp only
  split <;> simp_all

variable {side : Side} {passed rest : List Slot} (token : Slot) {reported : List Diagnostic}
  {table : OperatorTable}

theorem fail_of_owed {diagnostic : Diagnostic} (hkind : token.kind = .malformed)
    (howed : token.owed = some diagnostic) (expected : String) :
    (fail expected : Parse α) (side.state ⟨passed, token :: rest, reported⟩ table) =
      .error diagnostic
        (side.state ⟨passed, { token with owed := none } :: rest, reported⟩ table) := by
  have hunexpected := Cursor.unexpected_ofSlots (passed ++ side.before) (rest ++ side.behind) token
    hkind howed expected
  exact congrArg (fun found : Diagnostic × Cursor =>
    (EStateM.Result.error found.1 (ParseState.mk found.2 _ _ _ _ _) : EStateM.Result _ _ α))
    hunexpected

theorem fail_of_kind (hkind : token.kind ≠ .malformed) (expected : String) :
    (fail expected : Parse α) (side.state ⟨passed, token :: rest, reported⟩ table) =
      .error ⟨unexpectedCause token.toToken expected, token.span⟩
        (side.state ⟨passed, token :: rest, reported⟩ table) := by
  have hunexpected := @unexpected_of_kind
    (.ofSlots (passed ++ side.before) (token :: rest ++ side.behind)) hkind expected
  exact congrArg (fun found : Diagnostic × Cursor =>
    (EStateM.Result.error found.1 (ParseState.mk found.2 _ _ _ _ _) : EStateM.Result _ _ α))
    hunexpected

theorem fail_bind (expected : String) (next : α → Parse β) :
    (fail expected >>= next) = fail expected := by
  unfold fail
  rw [bind_assoc]
  rfl

end Failing

omit [Relocatable α] in
theorem exists_stops_of_fail {shared : Shared} (hfits : κ.Fits stage shared) (table : OperatorTable)
    (expected : String) : ∃ diagnostic stopped, κ.Stops diagnostic stopped ∧
      (fail expected : Parse α) (κ.first.state shared table) =
        .error diagnostic (κ.first.state stopped table) ∧
      (fail expected : Parse α) (κ.second.state (relocate κ.place shared) table) =
        .error (relocate κ.place diagnostic)
          (κ.second.state (relocate κ.place stopped) table) := by
  obtain ⟨passed, token, rest, reported, rfl⟩ := exists_cons_of_fits hfits
  by_cases hkind : token.kind = .malformed
  · obtain ⟨diagnostic, howed, -⟩ := (hfits.owing token List.mem_cons_self).malformed hkind
    refine ⟨diagnostic, _, .taken hfits hkind howed, fail_of_owed token hkind howed expected, ?_⟩
    exact fail_of_owed (relocate κ.place token) hkind (congrArg (relocate κ.place) howed) expected
  · refine ⟨_, _, .raised hfits (phase_unexpectedCause token.toToken expected),
      fail_of_kind token hkind expected, ?_⟩
    exact fail_of_kind (relocate κ.place token) hkind expected

theorem couples_fail (expected : String) (after : α → Stage) :
    Couples κ stage (fail expected) (fail expected) after where
  barren _ _ _ _ _ hstep := by cases hstep
  shared shared table hfits := by
    obtain ⟨diagnostic, stopped, hstops, hfirst, hsecond⟩ :=
      exists_stops_of_fail (α := α) hfits table expected
    rw [hfirst, hsecond]
    exact .error diagnostic stopped table hstops

theorem couples_expect {kind : TokenKind} {opened : List Bracket}
    (hkind : Passes stage.opened kind opened) :
    Couples κ stage (expect kind) (expect kind) fun _ => stage.passTo opened := by
  refine couples_currentKind.bind fun found => .ite Iff.rfl ?_ fun _ => couples_fail _ _
  rintro rfl
  exact couples_advance_to hkind (fun _ _ _ => .refl _) fun hloose _ => hloose

/-! ## Loops -/

theorem Couples.limited {next next' : ParseState → Parse α} {after : α → Stage}
    (h : ∀ later state state', later.Entails stage → later.weight ≤ state.limit →
      later.weight ≤ state'.limit → Couples κ later (next state) (next' state') after) :
    Couples κ stage (get >>= next) (get >>= next') after where
  shared shared table hfits := by
    have hweight := hfits.weight_le_ceiling
    refine (h { stage with weight := totalWeight (tokensOf shared.ahead) }
      (κ.first.state shared table) (κ.second.state (relocate κ.place shared) table) ?_
      (Nat.le_trans hweight κ.room.1) (Nat.le_trans hweight κ.room.2)).shared shared table ?_
    · exact (Stage.Entails.refl stage).lighter hfits.weight_le
    · exact { hfits with weight_le := Nat.le_refl _ }
  barren hloose state value final hbarren hstep :=
    (h { stage with weight := 0 } state state ((Stage.Entails.refl stage).lighter (Nat.zero_le _))
      (Nat.zero_le _) (Nat.zero_le _)).barren hloose state value final hbarren hstep

theorem StaysBarren.of_weightless {step step' : Parse α} {after : α → Stage}
    (h : StaysBarren stage step after) (hweight : stage.weight = 0) :
    Couples κ stage step step' after where
  shared shared table hfits := by
    obtain ⟨passed, token, rest, reported, rfl⟩ := exists_cons_of_fits hfits
    have hle := hfits.weight_le
    have hpos := Coupling.tokenWeight_pos token.toToken
    simp only [tokensOf_cons, totalWeight] at hle
    omega
  barren := h

/-- A loop that passes a token in each round goes round equally often in both runs. -/
theorem couples_rounds {ι : Type} (loop loop' : Nat → ι → Parse α) (image : ι → ι)
    (P : Stage → ι → Prop) (after : Stage → α → Stage)
    (hzero : ∀ stage i, P stage i → StaysBarren stage (loop 0 i) (after stage))
    (hsucc : ∀ stage i first second, P stage i →
      (∀ later j, P later j → later.weight ≤ stage.weight - 1 →
        Couples κ later (loop first j) (loop' second (image j)) (after later)) →
      Couples κ stage (loop (first + 1) i) (loop' (second + 1) (image i)) (after stage))
    {i : ι} (hstage : P stage i) {first second : Nat} (hfirst : stage.weight ≤ first)
    (hsecond : stage.weight ≤ second) :
    Couples κ stage (loop first i) (loop' second (image i)) (after stage) := by
  -- The two loops may be given different numbers of rounds, so the second one varies.
  induction first generalizing stage second i with
  | zero =>
    exact (hzero stage i hstage).of_weightless (Nat.le_zero.mp hfirst)
  | succ first ih =>
    have hround (second : Nat) (hsecond : stage.weight ≤ second + 1) :
        Couples κ stage (loop (first + 1) i) (loop' (second + 1) (image i)) (after stage) := by
      refine hsucc stage i first second hstage fun later j hlater hweight => ?_
      exact ih hlater (by omega) (by omega)
    cases second with
    | zero => exact (hround first hfirst).barren.of_weightless (Nat.le_zero.mp hsecond)
    | succ second => exact hround second hsecond

theorem couples_many {item? item?' : Parse (Option α)}
    (h : ∀ stage, Couples κ stage item? item?' fun answer =>
      if answer.isSome then stage.pass.loosen else stage.loosen)
    {first second : Nat} (hfirst : stage.weight ≤ first) (hsecond : stage.weight ≤ second)
    (found : List α) :
    Couples κ stage (many item? first found) (many item?' second (relocate κ.place found))
      fun _ => stage.loosen := by
  have hdone (stage : Stage) (found : List α) : Couples κ stage (Pure.pure found.reverse)
      (Pure.pure (relocate κ.place found).reverse) fun _ => stage.loosen :=
    .pure (.loosen (.refl _)) fun _ => (relocate_reverse _ _).symm
  refine couples_rounds (many item?) (many item?') (relocate κ.place) (fun _ _ => True)
    (fun stage _ => stage.loosen) ?_ ?_ trivial hfirst hsecond
  · exact fun stage found _ => (moving_exhaust found.reverse).staysBarren fun _ _ => rfl
  · intro stage found first second _ hrest
    refine (h stage).bind fun answer => ?_
    cases answer with
    | some item =>
      refine (hrest stage.pass.loosen (item :: found) trivial (Nat.le_refl _)).entails (.refl _) ?_
      exact fun _ => (Stage.Entails.refl stage).passed.loosened
    | none => exact hdone stage.loosen found

theorem couples_separated {separator : Punctuation}
    (hseparator : (TokenKind.mark separator).isPlain)
    {item item' : Parse α} (h : ∀ stage, Couples κ stage item item' fun _ => stage.pass.loosen) :
    Couples κ stage (separated separator item) (separated separator item')
      fun _ => stage.pass.loosen := by
  have hpass (stage : Stage) := (Stage.Entails.refl stage).passed
  have hnext (stage : Stage) : Couples κ stage (another separator item) (another separator item')
      fun answer => if answer.isSome then stage.pass.loosen else stage.loosen := by
    refine .accepting (.plain _ hseparator) ?_ ?_
    · exact (h stage.pass).bind fun value => .pure (hpass stage.pass).loosened fun _ => rfl
    · exact .pure (Stage.Entails.refl stage.fresh).loosen fun _ => rfl
  refine (h stage).bind fun first =>
    Couples.limited fun later state state' hlater hfirst hsecond => ?_
  exact (couples_many hnext hfirst hsecond [first]).entails (.refl _) fun _ => hlater.loosened

/-! ## Names and operators -/

theorem couples_identifier (expected : String) :
    Couples κ stage (identifier expected) (identifier expected) fun _ => stage.pass := by
  refine couples_currentKind.bind fun kind => .ite Iff.rfl ?_ fun _ => couples_fail expected _
  intro hkind
  refine (couples_advance (TokenKind.isPlain_of_isIdentifier hkind)).bind fun token => ?_
  exact .pure (.refl _) fun _ => rfl

theorem isPlain_of_isPlainIdentifier {token : Token} (h : token.isPlainIdentifier) :
    token.kind.isPlain := by
  simp only [Token.isPlainIdentifier, Bool.and_eq_true] at h
  exact TokenKind.isPlain_of_isIdentifier h.1

theorem couples_plainName (expected : String) :
    Couples κ stage (plainName expected) (plainName expected) fun _ => stage.pass := by
  refine couples_current.bind fun token => .ite Iff.rfl ?_ fun _ => couples_fail expected _
  intro htoken
  refine (couples_advance (isPlain_of_isPlainIdentifier htoken)).bind fun token => ?_
  exact .pure (.refl _) fun _ => rfl

theorem couples_operator_aligned {kind : TokenKind} (hkind : kind.isOperatorStart) :
    Couples κ (stage.look kind) operator operator fun op =>
      stage.pass.assume (κ.place.Aligns op.span.start) := by
  refine (couples_advance_aligned (TokenKind.isPlain_of_isOperatorStart hkind)).bind fun token => ?_
  dsimp only [kind_relocate]
  split
  · refine couples_currentKind.bind fun found => .ite Iff.rfl ?_ fun _ => ?_
    · rintro rfl
      refine Couples.bind (couples_advance rfl) fun second => ?_
      refine .pure ?_ fun _ => rfl
      exact (Stage.Entails.refl stage.pass).passed.assumed _ |>.assuming fun h => h.2
    · refine .pure (.looked (.refl _) found) fun _ => rfl
  · exact .pure (.refl _) fun _ => rfl

theorem couples_operator {kind : TokenKind} (hkind : kind.isOperatorStart) :
    Couples κ (stage.look kind) operator operator fun _ => stage.pass :=
  (couples_operator_aligned hkind).entails (.refl _) fun _ => .assumed (.refl _) _

/-! ## Splitting -/

theorem split_of_cut {side : Side} {passed rest : List Slot} (token : Slot)
    {reported : List Diagnostic} {table : OperatorTable} {bytes : Nat} {head tail : List Char}
    (hcut : cutText? bytes token.value.toList = some (head, tail)) :
    split bytes (side.state ⟨passed, token :: rest, reported⟩ table) =
      .ok () (side.state ⟨passed, frontPart token bytes head :: backPart token bytes tail :: rest,
        reported⟩ table) := by
  have hsplit := Cursor.split_ofSlots (passed ++ side.before) (rest ++ side.behind) token hcut
  exact congrArg (fun cursor => EStateM.Result.ok () (ParseState.mk cursor _ _ _ _ _)) hsplit

theorem split_of_not_cut {side : Side} {passed rest : List Slot} (token : Slot)
    {reported : List Diagnostic} {table : OperatorTable} {bytes : Nat}
    (hcut : cutText? bytes token.value.toList = none) :
    split bytes (side.state ⟨passed, token :: rest, reported⟩ table) =
      .ok () (side.state ⟨passed, token :: rest, reported⟩ table) := by
  exact congrArg (fun cursor => EStateM.Result.ok () (ParseState.mk cursor _ _ _ _ _))
    (Cursor.split_of_not_cut hcut)

theorem couples_split (bytes : Nat) :
    Couples κ (stage.look .operatorSymbol) (split bytes) (split bytes) fun _ => stage.fresh := by
  refine ⟨fun shared table hfits => ?_, fun hloose state value final hbarren hstep => ?_⟩
  case refine_2 =>
    cases hstep
    exact ⟨hloose, Cursor.IsBarren.split hbarren bytes⟩
  obtain ⟨passed, token, rest, reported, rfl⟩ := exists_cons_of_fits hfits
  have hkind := hfits.kind_eq rfl
  cases hcut : cutText? bytes token.value.toList with
  | none =>
    have hsecond : split bytes
        (κ.second.state (relocate κ.place ⟨passed, token :: rest, reported⟩) table) =
        .ok () (κ.second.state (relocate κ.place ⟨passed, token :: rest, reported⟩) table) :=
      split_of_not_cut (relocate κ.place token) hcut
    rw [split_of_not_cut token hcut, hsecond]
    exact .ok () _ table (hfits.entails (.looked (.refl _) _))
  | some parts =>
    obtain ⟨head, tail⟩ := parts
    have htracks := hfits.tracked token List.mem_cons_self
    have hsecond : split bytes
        (κ.second.state (relocate κ.place ⟨passed, token :: rest, reported⟩) table) =
        .ok () (κ.second.state ⟨relocate κ.place passed,
          frontPart (relocate κ.place token) bytes head ::
            backPart (relocate κ.place token) bytes tail :: relocate κ.place rest,
          relocate κ.place reported⟩ table) :=
      split_of_cut (relocate κ.place token) hcut
    have hfront : frontPart (relocate κ.place token) bytes head =
        relocate κ.place (frontPart token bytes head) :=
      congrArg (Slot.mk · _) (relocate_frontToken hcut htracks hkind).symm
    have hback : backPart (relocate κ.place token) bytes tail =
        relocate κ.place (backPart token bytes tail) :=
      congrArg (Slot.mk · none) (relocate_backToken hcut htracks hkind).symm
    rw [split_of_cut token hcut, hsecond, hfront, hback]
    have hparts := Coupling.Fits.split hkind hcut hfits
    exact .ok () ⟨passed, _ :: _ :: rest, reported⟩ table hparts

end Parse

end Equational

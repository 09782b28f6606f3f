import Equational.Proofs.Parse.Placement
import Equational.Proofs.Run.Anchored
import Equational.Proofs.Run.Follows

/-!
# Diagnostics that stop a step

While a text is parsed, its tokens begin and end at anchors, and so do the spans of everything that
has been reported.  A step settles if it keeps that up, and if the diagnostic that it fails with is
about an anchored span as well.  What is known of the value of a step is passed on to what follows:
of tokens, that they are anchored themselves.
-/

namespace Equational

variable {anchors : Nat → Prop} {region : Span}

/-! ## Moving over anchored tokens -/

namespace Cursor

variable {cursor after : Cursor}

theorem Takes.isAnchored {token : Token} (h : cursor.Takes token after)
    (hanchored : cursor.IsAnchored anchors) : after.IsAnchored anchors := by
  refine ⟨by rw [h.tokens_eq]; exact hanchored.tokens,
    by rw [h.errors_eq]; exact hanchored.kept, ?_⟩
  rw [h.previousEnd_eq]
  exact (hanchored.tokens token h.mem_tokens).span.stop

theorem IsAnchored.unexpected (h : cursor.IsAnchored anchors) (hended : cursor.IsEnded)
    (expected : String) :
    (cursor.unexpected expected).1.span.IsAnchored anchors ∧
      (cursor.unexpected expected).2.IsAnchored anchors := by
  rcases cursor.unexpected_cases expected with
    ⟨diagnostic, -, hfound, hresult⟩ | ⟨cause, -, hresult⟩ <;> rw [hresult]
  · refine ⟨h.kept diagnostic (DiagnosticMap.mem_values_of_find hfound), h.tokens, ?_,
      h.previousEnd⟩
    exact fun other hmem => h.kept other ((DiagnosticMap.values_erase_sublist _ _).subset hmem)
  · obtain ⟨passed, token, rest, errors, rfl⟩ := hended.exists_cons
    exact ⟨(h.tokens token (List.mem_append_right _ List.mem_cons_self)).span, h⟩

theorem IsAnchored.skipStatement (h : cursor.IsAnchored anchors) :
    cursor.skipStatement.IsAnchored anchors :=
  skipStatement_induction (motive := (·.IsAnchored anchors)) (fun htakes h => htakes.isAnchored h) h

end Cursor

namespace ParseState

/-- What a step leaves in order even where it fails. -/
structure IsAnchored (anchors : Nat → Prop) (state : ParseState) : Prop where
  cursor : state.cursor.IsAnchored anchors
  reported : ∀ diagnostic ∈ state.reported, diagnostic.span.IsAnchored anchors

structure IsSettled (anchors : Nat → Prop) (region : Span) (state : ParseState) : Prop
    extends state.IsReady region, state.IsAnchored anchors

variable {state next : ParseState}

theorem IsSettled.settled (h : state.IsSettled anchors region) :
    state.cursor.IsSettled anchors region := ⟨h.sound.isEnded, h.laid, h.cursor⟩

end ParseState

theorem Move.isSettled {state next : ParseState} (h : Move .silent state next)
    (hsettled : state.IsSettled anchors region) : next.IsSettled anchors region := by
  refine ⟨(h.isReady hsettled.toIsReady).1, ?_⟩
  cases h with
  | advance =>
    refine ⟨?_, hsettled.reported⟩
    dsimp only
    rcases hsettled.sound.advance_cases with hstay | htakes
    · rw [hstay]
      exact hsettled.cursor
    · exact htakes.isAnchored hsettled.cursor
  | split hdot => exact ⟨hsettled.cursor.split hsettled.laid hdot, hsettled.reported⟩
  | unexpected _ expected =>
    exact ⟨(hsettled.cursor.unexpected hsettled.sound.isEnded expected).2, hsettled.reported⟩
  | exhaust => exact ⟨hsettled.cursor, hsettled.reported⟩

namespace Parse

variable {α β : Type}

/-! ## What a step blames -/

def Lands (anchors : Nat → Prop) (after : α → ParseState → Prop) :
    EStateM.Result Diagnostic ParseState α → Prop
  | .ok value final => after value final
  | .error diagnostic final => diagnostic.span.IsAnchored anchors ∧ final.IsAnchored anchors

/-- What becomes of the step from every state in which it may begin. -/
def Blames (anchors : Nat → Prop) (before : ParseState → Prop) (step : Parse α)
    (after : α → ParseState → Prop) : Prop :=
  ∀ state, before state → Lands anchors after (step state)

namespace Blames

variable {before : ParseState → Prop} {step : Parse α} {after : α → ParseState → Prop}

theorem pure {value : α} (h : ∀ state, before state → after value state) :
    Blames anchors before (pure value) after := h

theorem throw {diagnostic : Diagnostic} (hspan : diagnostic.span.IsAnchored anchors)
    (h : ∀ state, before state → state.IsAnchored anchors) :
    Blames anchors before (throw diagnostic) after := fun state hbefore => ⟨hspan, h state hbefore⟩

theorem bind {next : α → Parse β} {last : β → ParseState → Prop}
    (h : Blames anchors before step after)
    (hnext : ∀ value, Blames anchors (after value) (next value) last) :
    Blames anchors before (step >>= next) last := by
  intro state hbefore
  have hfirst := h state hbefore
  cases hstep : step state with
  | ok value middle =>
    rw [hstep] at hfirst
    rw [bind_of_ok hstep]
    exact hnext value middle hfirst
  | error diagnostic middle =>
    rw [hstep] at hfirst
    rwa [bind_of_error hstep]

theorem ite {condition : Prop} [Decidable condition] {second : Parse α}
    (h : condition → Blames anchors before step after)
    (h' : ¬condition → Blames anchors before second after) :
    Blames anchors before (if condition then step else second) after := by
  split
  · exact h ‹_›
  · exact h' ‹_›

theorem imp {before' : ParseState → Prop} {after' : α → ParseState → Prop}
    (h : Blames anchors before step after) (hbefore : ∀ state, before' state → before state)
    (hafter : ∀ value state, after value state → after' value state) :
    Blames anchors before' step after' := by
  intro state hstate
  have hends := h state (hbefore state hstate)
  cases hstep : step state with
  | ok value final =>
    rw [hstep] at hends
    exact hafter value final hends
  | error diagnostic final =>
    rw [hstep] at hends
    exact hends

theorem and_ensures {before' failed : ParseState → Prop} {after' : α → ParseState → Prop}
    (h : Blames anchors before step after) (h' : Ensures before' step after' failed)
    (hbefore : ∀ state, before state → before' state) :
    Blames anchors before step fun value state => after value state ∧ after' value state := by
  intro state hstate
  have hends := h state hstate
  have hends' := h' state (hbefore state hstate)
  cases hstep : step state with
  | ok value final =>
    rw [hstep] at hends hends'
    exact ⟨hends, hends'⟩
  | error diagnostic final =>
    rw [hstep] at hends
    exact hends

end Blames

/-! ## Steps that settle -/

/-- What is known of the value does not depend on the state. -/
def Settles (anchors : Nat → Prop) (region : Span) (step : Parse α) (fact : α → Prop) : Prop :=
  Blames anchors (ParseState.IsSettled anchors region) step
    fun value state => fact value ∧ state.IsSettled anchors region

namespace Settles

variable {step : Parse α} {fact : α → Prop} {fact' : β → Prop}

theorem pure {value : α} (h : fact value) : Settles anchors region (pure value) fact :=
  Blames.pure fun _ hstate => ⟨h, hstate⟩

theorem throw {diagnostic : Diagnostic} (hspan : diagnostic.span.IsAnchored anchors) :
    Settles anchors region (throw diagnostic) fact :=
  Blames.throw hspan fun _ hstate => hstate.toIsAnchored

theorem get : Settles anchors region get fun _ => True := fun _ hstate => ⟨trivial, hstate⟩

theorem exhaust {value : α} (h : fact value) :
    Settles anchors region (Parse.exhaust value) fact :=
  fun state hstate => ⟨h, (Move.exhaust state).isSettled hstate⟩

theorem bind {next : α → Parse β} (h : Settles anchors region step fact)
    (hnext : ∀ value, fact value → Settles anchors region (next value) fact') :
    Settles anchors region (step >>= next) fact' :=
  Blames.bind h fun value state hstate => hnext value hstate.1 state hstate.2

theorem current {next : Token → Parse β}
    (h : ∀ token, token.IsAnchored anchors →
      Blames anchors (fun state => state.IsSettled anchors region ∧ state.cursor.current = token)
        (next token) fun value state => fact' value ∧ state.IsSettled anchors region) :
    Settles anchors region (Parse.current >>= next) fact' :=
  fun state hstate => h _ hstate.settled.current.1 state ⟨hstate, rfl⟩

theorem anyway {holds : ParseState → Prop} (h : Settles anchors region step fact) :
    Blames anchors (fun state => state.IsSettled anchors region ∧ holds state) step
      fun value state => fact value ∧ state.IsSettled anchors region :=
  Blames.imp h (fun _ hstate => hstate.1) fun _ _ hends => hends

theorem ite {condition : Prop} [Decidable condition] {second : Parse α}
    (h : Settles anchors region step fact) (h' : Settles anchors region second fact) :
    Settles anchors region (if condition then step else second) fact :=
  Blames.ite (fun _ => h) fun _ => h'

theorem choice {condition : Prop} [Decidable condition] {second : Parse α} {next : α → Parse β}
    (h : Settles anchors region step fact) (h' : Settles anchors region second fact)
    (hnext : ∀ value, fact value → Settles anchors region (next value) fact') :
    Settles anchors region (if condition then step >>= next else second >>= next) fact' :=
  .ite (h.bind hnext) (h'.bind hnext)

theorem map (f : α → β) (h : Settles anchors region step fact) :
    Settles anchors region (f <$> step) fun _ => True := by
  rw [map_eq_pure_bind]
  exact h.bind fun _ _ => .pure trivial

theorem wrap {f : α → β} (h : Settles anchors region step fact) :
    Settles anchors region (step >>= fun value => Pure.pure (f value)) fun _ => True :=
  h.bind fun _ _ => .pure trivial

end Settles

/-! ## Looking and moving -/

theorem settles_current : Settles anchors region current (·.IsAnchored anchors) :=
  fun _ hstate => ⟨hstate.settled.current.1, hstate⟩

theorem settles_currentKind : Settles anchors region currentKind fun _ => True :=
  settles_current.wrap

theorem settles_peek (distance : Nat) : Settles anchors region (peek distance) fun _ => True :=
  Settles.get.wrap

theorem settles_position : Settles anchors region position anchors :=
  settles_current.bind fun _ htoken => .pure htoken.span.start

theorem settles_spanFrom (start : Nat) :
    Settles anchors region (spanFrom start) fun _ => True := Settles.get.wrap

theorem settles_advance : Settles anchors region advance (·.IsAnchored anchors) :=
  fun state hstate => ⟨hstate.settled.current.1, (Move.advance state).isSettled hstate⟩

theorem settles_unexpected (expected : String) :
    Settles anchors region (unexpected expected) (·.span.IsAnchored anchors) := by
  intro state hstate
  exact ⟨(hstate.cursor.unexpected hstate.sound.isEnded expected).1,
    (Move.unexpected state expected).isSettled hstate⟩

theorem settles_fail {fact : α → Prop} (expected : String) :
    Settles anchors region (fail expected) fact :=
  (settles_unexpected expected).bind fun _ hspan => .throw hspan

theorem settles_accept (kind : TokenKind) : Settles anchors region (accept kind) fun _ => True :=
  settles_currentKind.bind fun _ _ => .ite settles_advance.wrap (.pure trivial)

theorem settles_expect (kind : TokenKind) :
    Settles anchors region (expect kind) (·.IsAnchored anchors) :=
  settles_currentKind.bind fun _ _ => .ite settles_advance (settles_fail _)

theorem settles_expectMark (mark : Punctuation) :
    Settles anchors region (expectMark mark) (·.IsAnchored anchors) := settles_expect _

theorem settles_acceptMark (mark : Punctuation) :
    Settles anchors region (acceptMark mark) fun _ => True := settles_accept _

theorem settles_numberLiteral {token : Token} (htoken : token.IsAnchored anchors) :
    Settles anchors region (MonadExcept.ofExcept (NumberLiteral.ofToken token)) fun _ => True := by
  unfold NumberLiteral.ofToken
  split
  · exact .pure trivial
  · exact .throw htoken.span

/-! ## Loops -/

theorem settles_many {item? : Parse (Option α)} {fact : Option α → Prop}
    (h : Settles anchors region item? fact) (rounds : Nat) (found : List α) :
    Settles anchors region (many item? rounds found) fun _ => True := by
  induction rounds generalizing found with
  | zero => exact .exhaust trivial
  | succ rounds ih =>
    refine h.bind fun answer _ => ?_
    cases answer with
    | some item => exact ih (item :: found)
    | none => exact .pure trivial

theorem settles_separated (separator : Punctuation) {item : Parse α} {fact : α → Prop}
    (h : Settles anchors region item fact) :
    Settles anchors region (separated separator item) fun _ => True := by
  have hnext : Settles anchors region (another separator item) fun _ => True :=
    (settles_acceptMark separator).bind fun _ _ => .ite h.wrap (.pure trivial)
  exact h.bind fun first _ => Settles.get.bind fun state _ => settles_many hnext state.limit [first]

/-! ## Names and operators -/

theorem settles_identifier (expected : String) :
    Settles anchors region (identifier expected) fun _ => True :=
  settles_currentKind.bind fun _ _ => .ite settles_advance.wrap (settles_fail expected)

theorem settles_plainName (expected : String) :
    Settles anchors region (plainName expected) fun _ => True :=
  settles_current.bind fun _ _ => .ite settles_advance.wrap (settles_fail expected)

theorem settles_operator : Settles anchors region operator fun _ => True := by
  refine settles_advance.bind fun token _ => ?_
  dsimp only
  split
  · exact settles_currentKind.bind fun _ _ => .ite settles_advance.wrap (.pure trivial)
  · exact .pure trivial

/-! ## Runs -/

section Parts

variable {inner : RunContext → Parse Run}
  (hinner : ∀ context, Settles anchors region (inner context) fun _ => True)

theorem settles_unclosed (bracket : Bracket) :
    Settles anchors region (unclosed bracket) (·.span.IsAnchored anchors) := by
  refine settles_current.bind fun token htoken => ?_
  split
  · exact settles_unexpected _
  · exact settles_unexpected _
  · exact .pure htoken.span

theorem settles_close (bracket : Bracket) :
    Settles anchors region (close bracket) fun _ => True := by
  refine (settles_acceptMark _).bind fun _ _ => .ite (.pure trivial) ?_
  exact (settles_unclosed bracket).bind fun _ hspan => .throw hspan

include hinner

theorem settles_collectEnumeration (bracket : Bracket) (runs : List Run) :
    Settles anchors region (collectEnumeration inner bracket runs) fun _ => True := by
  refine settles_advance.bind fun dots hdots => .ite (.throw hdots.span) ?_
  exact settles_currentKind.bind fun _ _ => .ite (.pure trivial) (hinner {}).wrap

theorem settles_collectGenerators (rounds : Nat) (separator : Option Separator)
    (found : List Run) :
    Settles anchors region (collectGenerators inner rounds separator found) fun _ => True := by
  induction rounds generalizing separator found with
  | zero => exact .exhaust trivial
  | succ rounds ih =>
    refine settles_current.bind fun token htoken => ?_
    split
    · exact .pure trivial
    · refine .ite (.throw htoken.span) (settles_advance.bind fun _ _ => ?_)
      exact (hinner {}).bind fun run _ => ih _ (run :: found)

theorem settles_collectElements (bracket : Bracket) (separator : Separator) (rounds : Nat)
    (found : List Run) :
    Settles anchors region (collectElements inner bracket separator rounds found)
      fun _ => True := by
  induction rounds generalizing found with
  | zero => exact .exhaust trivial
  | succ rounds ih =>
    refine settles_current.bind fun token htoken => ?_
    split
    · refine .ite (.throw htoken.span) (settles_advance.bind fun _ _ => ?_)
      refine settles_currentKind.bind fun _ _ => .ite (.pure trivial) ?_
      exact (hinner {}).bind fun run _ => ih (run :: found)
    · refine .ite (settles_collectEnumeration hinner bracket _) (.ite ?_ (.pure trivial))
      exact settles_advance.bind fun _ _ => (hinner {}).wrap

theorem settles_collectBody (bracket : Bracket) (first : Run) :
    Settles anchors region (collectBody inner bracket first) fun _ => True := by
  refine Settles.get.bind fun state _ => settles_currentKind.bind fun kind _ => ?_
  split
  · exact settles_collectEnumeration hinner bracket [first]
  · refine settles_advance.bind fun _ _ => (hinner {}).bind fun generator _ => ?_
    exact (settles_collectGenerators hinner _ none [generator]).wrap
  · exact settles_collectElements hinner bracket .comma _ [first]
  · exact settles_collectElements hinner bracket .semicolon _ [first]
  · exact settles_advance.bind fun _ _ => (hinner {}).wrap
  · exact .ite (.pure trivial) ((settles_unclosed bracket).bind fun _ hspan => .throw hspan)

theorem settles_collectContainer :
    Settles anchors region (collectContainer inner) fun _ => True := by
  refine settles_advance.bind fun opening _ => (settles_acceptMark _).bind fun _ _ => .ite ?_ ?_
  · exact (settles_spanFrom _).wrap
  · refine (hinner _).bind fun first _ => (settles_collectBody hinner _ first).bind fun body _ => ?_
    exact (settles_close _).bind fun _ _ => (settles_spanFrom _).wrap

theorem settles_collectLambda (context : RunContext) :
    Settles anchors region (collectLambda inner context) fun _ => True := by
  refine settles_advance.bind fun backslash _ => (hinner _).bind fun parameters _ => ?_
  refine (settles_expectMark .dot).bind fun _ _ => (hinner _).bind fun body _ => ?_
  exact (settles_spanFrom _).wrap

theorem settles_collectConditional (context : RunContext) :
    Settles anchors region (collectConditional inner context) fun _ => True := by
  refine settles_advance.bind fun opening _ => (hinner {}).bind fun condition _ => ?_
  refine (settles_expect _).bind fun _ _ => (hinner context).bind fun thenBranch _ => ?_
  exact settles_currentKind.bind fun _ _ => .ite settles_advance.wrap (.pure trivial)

omit hinner in
theorem settles_collectIdentifier (context : RunContext) :
    Settles anchors region (collectIdentifier context) fun _ => True := by
  refine settles_advance.bind fun token _ => settles_currentKind.bind fun kind _ => ?_
  refine (settles_peek 1).bind fun follower _ => .ite ?_ (.pure trivial)
  exact settles_advance.bind fun _ _ => settles_advance.wrap

theorem settles_nextItems (context : RunContext) (started : Bool) :
    Settles anchors region (nextItems? inner context started) fun _ => True := by
  -- Only the split has to know that the token looked at is the current one.
  refine .current fun token htoken => ?_
  split
  · exact (settles_collectIdentifier context).wrap.anyway
  · exact (settles_collectIdentifier context).wrap.anyway
  · refine (settles_advance.bind fun _ _ => ?_).anyway
    exact (settles_identifier _).bind fun name _ => (settles_spanFrom _).wrap
  · exact (settles_advance.bind fun _ _ => (settles_numberLiteral htoken).wrap).anyway
  · exact settles_advance.wrap.anyway
  · exact (settles_collectContainer hinner).wrap.anyway
  · exact (settles_collectContainer hinner).wrap.anyway
  · exact (settles_collectContainer hinner).wrap.anyway
  · exact (settles_collectLambda hinner context).wrap.anyway
  · exact (Settles.ite (.pure trivial) (settles_collectConditional hinner context).wrap).anyway
  · exact (settles_fail _).anyway
  · refine .ite (fun _ => (Settles.pure trivial).anyway) fun _ => ?_
    refine .ite (fun _ => (Settles.pure trivial).anyway) fun _ => ?_
    refine .ite (fun hdot => ?_) fun _ => ?_
    · rw [Bool.and_eq_true] at hdot
      rintro state ⟨hstate, rfl⟩
      exact ⟨trivial, (Move.split hdot.2).isSettled hstate⟩
    · exact (Settles.ite settles_operator.wrap (.pure trivial)).anyway

theorem settles_collectItems (context : RunContext) (rounds : Nat) (found : List RunItem) :
    Settles anchors region (collectItems inner context rounds found) fun _ => True := by
  induction rounds generalizing found with
  | zero => exact .exhaust trivial
  | succ rounds ih =>
    refine (settles_nextItems hinner context _).bind fun answer _ => ?_
    cases answer with
    | some items => exact ih (items.reverse ++ found)
    | none => exact .pure trivial

end Parts

theorem settles_collectRun (depth : Nat) (context : RunContext) :
    Settles anchors region (collectRun depth context) fun _ => True := by
  induction depth generalizing context with
  | zero => exact settles_position.bind fun _ _ => .exhaust trivial
  | succ depth ih =>
    refine settles_position.bind fun start _ => Settles.get.bind fun state _ => ?_
    exact (settles_collectItems ih context _ []).wrap

theorem settles_run (context : RunContext) :
    Settles anchors region (run context) fun collected =>
      ∀ table, collected.IsPointed anchors table := by
  intro state hstate
  have hcollects : Settles anchors region (run context) fun _ => True :=
    Settles.get.bind fun state _ => settles_collectRun state.limit context
  have hends := hcollects state hstate
  cases hstep : run context state with
  | error diagnostic final =>
    rw [hstep] at hends
    exact hends
  | ok collected final =>
    rw [hstep] at hends
    refine ⟨fun table => ?_, hends.2⟩
    obtain ⟨after, hcollects, rfl⟩ := ((follows_run context hstate.sound.isEnded).ok_iff state rfl
      hstate.sound.weight_le collected final).mp hstep
    have hseats : state.cursor.Seats anchors region (Run.Sits anchors table) [collected] after :=
      hcollects.seats
    exact (hseats hstate.settled).2.of_singleton.isPointed

end Parse

end Equational

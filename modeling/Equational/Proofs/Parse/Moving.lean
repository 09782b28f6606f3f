import Equational.Run.Collect
import Mathlib.Logic.Relation

/-!
# Moves

What a parsing step may do to the state when it declares nothing: pass the current token, split an
operator that begins with the dot of a lambda, take the diagnostic that is kept for a token, run out
of rounds, and report what keeps a run from being resolved.  Such steps are closed under sequencing
and looping, whether they end with a value or with a diagnostic, so everything that survives a
single move survives them.

Only steps that resolve runs report anything; all the others are silent.
-/

namespace Equational

/-! ## What is unexpected -/

/-- The diagnostic for a malformed token is taken, if it is there.  Otherwise a diagnostic is made
about the current token, and nothing changes. -/
theorem Cursor.unexpected_cases (cursor : Cursor) (expected : String) :
    (∃ diagnostic, cursor.current.kind = .malformed ∧
      cursor.errors.find? cursor.index = some diagnostic ∧
      cursor.unexpected expected =
        (diagnostic, { cursor with errors := cursor.errors.erase cursor.index })) ∨
    ∃ cause, (cause = .unrecognisedToken cursor.current.value ∨ cause = .unexpectedEnd expected ∨
        cause = .unexpectedToken cursor.current.qualifiedValue ("expected " ++ expected)) ∧
      cursor.unexpected expected = (⟨cause, cursor.current.span⟩, cursor) := by
  unfold unexpected
  dsimp only
  split
  · rename_i hkind
    split
    · rename_i diagnostic hfound
      exact .inl ⟨diagnostic, hkind, hfound, rfl⟩
    · exact .inr ⟨_, .inl rfl, rfl⟩
  · exact .inr ⟨_, .inr (.inl rfl), rfl⟩
  · exact .inr ⟨_, .inr (.inr rfl), rfl⟩

theorem Cursor.exists_errors_of_unexpected (cursor : Cursor) (expected : String) :
    ∃ errors, (cursor.unexpected expected).2 = { cursor with errors } := by
  rcases cursor.unexpected_cases expected with ⟨_, -, -, hresult⟩ | ⟨_, -, hresult⟩
  · exact ⟨_, congrArg Prod.snd hresult⟩
  · exact ⟨cursor.errors, congrArg Prod.snd hresult⟩

/-! ## Moves -/

inductive Noise where
  | silent
  | reporting

inductive Move : Noise → ParseState → ParseState → Prop where
  | advance {noise : Noise} (state : ParseState) :
    Move noise state { state with cursor := state.cursor.advance }
  | split {noise : Noise} {state : ParseState} (hdot : beginsWithDot state.cursor.current) :
    Move noise state { state with cursor := state.cursor.split 1 }
  | unexpected {noise : Noise} (state : ParseState) (expected : String) :
    Move noise state { state with cursor := (state.cursor.unexpected expected).2 }
  | exhaust {noise : Noise} (state : ParseState) : Move noise state { state with exhausted := true }
  | report (state : ParseState) {diagnostic : Diagnostic}
    (hphase : diagnostic.cause.phase = .resolution) :
    Move .reporting state { state with reported := diagnostic :: state.reported }

abbrev Moves (noise : Noise) : ParseState → ParseState → Prop := Relation.ReflTransGen (Move noise)

section Moves

variable {noise : Noise} {first second : ParseState}

theorem Move.table_eq (h : Move noise first second) : second.table = first.table := by
  cases h <;> rfl

theorem Moves.table_eq (h : Moves noise first second) : second.table = first.table := by
  induction h with
  | refl => rfl
  | tail _ hmove ih => exact hmove.table_eq.trans ih

theorem Moves.reported_eq (h : Moves .silent first second) : second.reported = first.reported := by
  induction h with
  | refl => rfl
  | tail _ hmove ih =>
    cases hmove with
    | advance | split _ | unexpected _ _ | exhaust _ => exact ih

end Moves

/-! ## Moving steps -/

namespace Parse

variable {α β : Type} {noise : Noise}

section Bind

variable {step : Parse α} {next : α → Parse β} {state middle : ParseState}

theorem bind_of_ok {value : α} (h : step state = .ok value middle) :
    (step >>= next) state = next value middle := by
  change EStateM.bind step next state = _
  unfold EStateM.bind
  rw [h]

theorem bind_of_error {diagnostic : Diagnostic} (h : step state = .error diagnostic middle) :
    (step >>= next) state = .error diagnostic middle := by
  change EStateM.bind step next state = _
  unfold EStateM.bind
  rw [h]

theorem bind_eq_ok_iff {final : ParseState} {value : β} :
    (step >>= next) state = .ok value final ↔
      ∃ first middle, step state = .ok first middle ∧ next first middle = .ok value final := by
  cases hstep : step state with
  | ok first middle =>
    rw [bind_of_ok hstep]
    constructor
    · intro h
      exact ⟨first, middle, rfl, h⟩
    · rintro ⟨_, _, ⟨⟩, h⟩
      exact h
  | error diagnostic middle =>
    rw [bind_of_error hstep]
    simp

end Bind

/-- The state in which a step ends, with a value or without. -/
def finalState (step : Parse α) (state : ParseState) : ParseState :=
  match step state with
  | .ok _ final => final
  | .error _ final => final

def Moving (noise : Noise) (step : Parse α) : Prop :=
  ∀ state, Moves noise state (step.finalState state)

namespace Moving

theorem pure (value : α) : Moving noise (pure value) := fun _ => .refl

theorem throw (diagnostic : Diagnostic) : Moving noise (throw diagnostic : Parse α) :=
  fun _ => .refl

theorem get : Moving noise get := fun _ => .refl

theorem bind {step : Parse α} {next : α → Parse β} (h : Moving noise step)
    (hnext : ∀ value, Moving noise (next value)) : Moving noise (step >>= next) := by
  intro state
  have hfirst := h state
  have hsecond (first : α) (middle : ParseState) := hnext first middle
  change Moves noise state (finalState (EStateM.bind step next) state)
  unfold finalState EStateM.bind at *
  cases hstep : step state with
  | ok first middle =>
    rw [hstep] at hfirst
    exact hfirst.trans (hsecond first middle)
  | error diagnostic middle =>
    rw [hstep] at hfirst
    exact hfirst

theorem map {step : Parse α} (f : α → β) (h : Moving noise step) : Moving noise (f <$> step) := by
  rw [map_eq_pure_bind]
  exact h.bind fun _ => .pure _

theorem ite {condition : Prop} [Decidable condition] {first second : Parse α}
    (h : Moving noise first) (h' : Moving noise second) :
    Moving noise (if condition then first else second) := by
  split
  · exact h
  · exact h'

theorem choice {condition : Prop} [Decidable condition] {first second : Parse α}
    {next : α → Parse β} (h : Moving noise first) (h' : Moving noise second)
    (hnext : ∀ value, Moving noise (next value)) :
    Moving noise (if condition then first >>= next else second >>= next) :=
  .ite (h.bind hnext) (h'.bind hnext)

theorem ofExcept (outcome : Except Diagnostic α) :
    Moving noise (MonadExcept.ofExcept outcome : Parse α) := by
  cases outcome with
  | ok value => exact .pure value
  | error diagnostic => exact .throw diagnostic

end Moving

/-! ## Looking and moving -/

theorem moving_current : Moving noise current := Moving.get.bind fun _ => .pure _

theorem Moving.current {next : Token → Parse α}
    (h : ∀ (state : ParseState) (token : Token), token = state.cursor.current →
      Moves noise state ((next token).finalState state)) :
    Moving noise (current >>= next) := fun state => h state _ rfl

theorem moving_currentKind : Moving noise currentKind := moving_current.bind fun _ => .pure _

theorem moving_peek (distance : Nat) : Moving noise (peek distance) :=
  Moving.get.bind fun _ => .pure _

theorem moving_position : Moving noise position := moving_current.bind fun _ => .pure _

theorem moving_spanFrom (start : Nat) : Moving noise (spanFrom start) :=
  Moving.get.bind fun _ => .pure _

theorem moving_advance : Moving noise advance := fun state => .single (.advance state)

theorem moving_report {diagnostic : Diagnostic} (hphase : diagnostic.cause.phase = .resolution) :
    Moving .reporting (report diagnostic) := fun state => .single (.report state hphase)

theorem moving_unexpected (expected : String) : Moving noise (unexpected expected) := fun state =>
  .single (.unexpected state expected)

theorem moving_fail (expected : String) : Moving noise (fail expected : Parse α) :=
  (moving_unexpected expected).bind fun _ => .throw _

theorem moving_accept (kind : TokenKind) : Moving noise (accept kind) := by
  refine moving_currentKind.bind fun found => .ite ?_ (.pure false)
  exact moving_advance.bind fun _ => .pure true

theorem moving_expectOr (kind : TokenKind) (otherwise? : Option Diagnostic) :
    Moving noise (expectOr kind otherwise?) := by
  refine moving_currentKind.bind fun found => .ite moving_advance ?_
  cases otherwise? with
  | none => exact moving_fail _
  | some diagnostic => exact .ite (moving_fail _) (.throw diagnostic)

theorem moving_expect (kind : TokenKind) : Moving noise (expect kind) := moving_expectOr kind none

theorem moving_expectMark (mark : Punctuation) : Moving noise (expectMark mark) := moving_expect _

theorem moving_acceptMark (mark : Punctuation) : Moving noise (acceptMark mark) := moving_accept _

/-! ## Loops -/

theorem moving_exhaust (value : α) : Moving noise (exhaust value) := fun state =>
  .single (.exhaust state)

theorem moving_many {item? : Parse (Option α)} (h : Moving noise item?) (rounds : Nat)
    (found : List α) : Moving noise (many item? rounds found) := by
  induction rounds generalizing found with
  | zero => exact moving_exhaust _
  | succ rounds ih =>
    refine h.bind fun answer => ?_
    cases answer with
    | some item => exact ih (item :: found)
    | none => exact .pure _

theorem moving_separated (separator : Punctuation) {item : Parse α} (h : Moving noise item) :
    Moving noise (separated separator item) := by
  have hnext : Moving noise (another separator item) :=
    (moving_acceptMark separator).bind fun _ => .ite (h.bind fun _ => .pure _) (.pure none)
  exact h.bind fun first => Moving.get.bind fun state => moving_many hnext state.limit [first]

/-! ## Names and operators -/

theorem moving_identifier (expected : String) : Moving noise (identifier expected) := by
  refine moving_currentKind.bind fun kind => .ite ?_ (moving_fail expected)
  exact moving_advance.bind fun _ => .pure _

theorem moving_plainName (expected : String) : Moving noise (plainName expected) := by
  refine moving_current.bind fun token => .ite ?_ (moving_fail expected)
  exact moving_advance.bind fun _ => .pure _

theorem moving_operator : Moving noise operator := by
  refine moving_advance.bind fun token => ?_
  dsimp only
  split
  · refine moving_currentKind.bind fun kind => .ite ?_ (.pure _)
    exact moving_advance.bind fun second => .pure _
  · exact .pure _

end Parse

end Equational

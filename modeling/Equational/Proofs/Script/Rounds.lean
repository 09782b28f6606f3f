import Equational.Proofs.Lexed.Offset
import Equational.Proofs.Run.Entries
import Equational.Proofs.Script.Lossless
import Equational.Proofs.Statement.Passing

/-!
# Rounds of loops

A round of a loop over the tokens either ends the loop or passes a token and goes on, so each round
begins at a later token than the one before.
-/

namespace Equational

open Parse

variable {place : Nat → Nat} {lexed : Lexed}

/-! ## Reachable states -/

theorem stands_start {source : String} {pieces : List Piece} {lexed : Lexed}
    (h : Lexed.ofSource source = .ok lexed) (hcut : Lexed.CutInto source.toList pieces) :
    (ParseState.ofTokens lexed.tokens lexed.errors).Stands
      (offsetBehind (byteLength source.toList) pieces) 0 false := by
  have hpieces : lexed = .ofPieces pieces (byteLength source.toList) :=
    Except.ok.inj (h.symm.trans (Lexed.ofChars_of_cutInto hcut))
  refine ⟨isSound_start h, ?_, Nat.zero_le _, nofun⟩
  have hcursor := cursor_start h
  change (ParseState.ofTokens lexed.tokens lexed.errors).cursor = _ at hcursor
  rw [hcursor, hpieces]
  exact hcut.stands

namespace ParseState.ReachableFrom

variable {state next : ParseState}

theorem moves (h : state.ReachableFrom lexed) (hmoves : Moves .silent state next) :
    next.ReachableFrom lexed := by
  induction hmoves with
  | refl => exact h
  | tail _ hmove ih =>
    cases hmove with
    | advance => exact ih.advance
    | split hdot => exact ih.split hdot
    | unexpected _ expected => exact ih.unexpected expected
    | exhaust => exact ih.exhaust

theorem stands (hstart : (ParseState.ofTokens lexed.tokens lexed.errors).Stands place 0 false)
    (h : state.ReachableFrom lexed) : state.Stands place 0 false := by
  have hmoved {state next : ParseState} (hmove : Move .silent state next)
      (h : state.Stands place 0 false) : next.Stands place 0 false := h.move hmove
  induction h with
  | start => exact hstart
  | advance _ ih => exact hmoved (.advance _) ih
  | split _ hdot ih => exact hmoved (.split hdot) ih
  | unexpected _ expected ih => exact hmoved (.unexpected _ expected) ih
  | skipStatement _ ih => exact ih.skipStatement
  | exhaust _ ih => exact hmoved (.exhaust _) ih
  | declare _ _ _ _ ih => exact ⟨ih.sound, ih.stands, ih.start_le, ih.passed⟩

end ParseState.ReachableFrom

theorem records_reachable (lexed : Lexed) :
    Records (fun _ => ParseState.ReachableFrom lexed) (ParseState.ReachableFrom lexed) :=
  .of_moves (fun _ _ hmoves hstate => hstate.moves hmoves) fun state table reported hstate =>
    hstate.declare table reported state.followsEquation

namespace Parse

variable {α β γ : Type}

/-! ## Steps that proceed -/

/-- If the step gives a value of this kind, it has come to a later token. -/
def Proceeds (place : Nat → Nat) (lexed : Lexed) (step : Parse α) (counts : α → Prop) : Prop :=
  ∀ state value next, state.ReachableFrom lexed → step state = .ok value next → counts value →
    state.cursor.offset place < next.cursor.offset place ∧ next.ReachableFrom lexed

/-! ## Rounds -/

section Rounds

variable {again : β → Parse γ} {state middle : ParseState}

/-- What is done ends the loop, whatever another round would do, or it goes on to another round at a
later token than that of the state. -/
def GoesOn (place : Nat → Nat) (lexed : Lexed) (state : ParseState)
    (outcome : (β → Parse γ) → EStateM.Result Diagnostic ParseState γ) : Prop :=
  (∃ last, ∀ again, outcome again = last) ∨
    ∃ value next, state.cursor.offset place < next.cursor.offset place ∧
      next.ReachableFrom lexed ∧ ∀ again, outcome again = again value next

/-- Each round begins at a later token than the one before. -/
def Advancing (place : Nat → Nat) (lexed : Lexed) (round : (β → Parse γ) → β → Parse γ) : Prop :=
  ∀ state, state.ReachableFrom lexed → ∀ value,
    GoesOn place lexed state fun again => round again value state

theorem GoesOn.ends (last : EStateM.Result Diagnostic ParseState γ) :
    GoesOn place lexed state fun _ : β → Parse γ => last := .inl ⟨last, fun _ => rfl⟩

theorem GoesOn.bind {step : Parse α} {next : (β → Parse γ) → α → Parse γ}
    (h : ∀ value final, step middle = .ok value final →
      GoesOn place lexed state fun again => next again value final) :
    GoesOn place lexed state fun again => (step >>= next again) middle := by
  cases hstep : step middle with
  | ok value final =>
    simp only [bind_of_ok hstep]
    exact h value final hstep
  | error diagnostic final =>
    simp only [bind_of_error hstep]
    exact .ends _

theorem GoesOn.current {next : (β → Parse γ) → Token → Parse γ}
    (h : GoesOn place lexed state fun again => next again middle.cursor.current middle) :
    GoesOn place lexed state fun again => (Parse.current >>= next again) middle := h

theorem GoesOn.ite {condition : Prop} [Decidable condition] {first second : (β → Parse γ) → Parse γ}
    (h : condition → GoesOn place lexed state fun again => first again middle)
    (h' : ¬condition → GoesOn place lexed state fun again => second again middle) :
    GoesOn place lexed state
      fun again => (if condition then first again else second again) middle := by
  by_cases hcondition : condition
  · simpa only [if_pos hcondition] using h hcondition
  · simpa only [if_neg hcondition] using h' hcondition

end Rounds

theorem advancing_manyRound {item? : Parse (Option α)}
    (h : Proceeds place lexed item? (·.isSome)) : Advancing place lexed (manyRound item?) := by
  intro state hreachable found
  refine .bind fun answer next hstep => ?_
  cases answer with
  | some item =>
    obtain ⟨hlt, hnext⟩ := h _ _ _ hreachable hstep rfl
    exact .inr ⟨item :: found, next, hlt, hnext, fun _ => rfl⟩
  | none => exact .ends _

/-- The first item passes a token, and so does each separator with the item behind it. -/
structure Spaced (place : Nat → Nat) (lexed : Lexed) (separator : Punctuation) (item : Parse α) :
    Prop where
  items : Proceeds place lexed item fun _ => True
  separators : Proceeds place lexed (acceptMark separator) (· = true)
  rounds : Advancing place lexed (manyRound (another separator item))

/-! ## Loops of runs -/

section Placed

variable (hstart : (ParseState.ofTokens lexed.tokens lexed.errors).Stands place 0 false)

include hstart

theorem Proceeds.of_yields {step : Parse α} {counts : α → Prop}
    (hkeeps : Ensures (ParseState.ReachableFrom lexed) step
      (fun _ => ParseState.ReachableFrom lexed) (ParseState.ReachableFrom lexed))
    (h : ∀ start, Yields (ParseState.Stands place start false) step
      fun value state => counts value → state.Stands place start true) :
    Proceeds place lexed step counts := by
  intro state value next hstate hstep hcounts
  have hnext := (h _).of_ok (hstate.stands hstart).begins hstep hcounts
  exact ⟨hnext.lt_offset, hkeeps.of_ok hstate hstep⟩

theorem Proceeds.of_moving {step : Parse α} {counts : α → Prop} (hmoving : Moving .silent step)
    (h : ∀ start, Yields (ParseState.Stands place start false) step
      fun value state => counts value → state.Stands place start true) :
    Proceeds place lexed step counts :=
  .of_yields hstart ((records_reachable lexed).moving hmoving []) h

theorem Proceeds.of_passes {step : Parse α}
    (hkeeps : Ensures (ParseState.ReachableFrom lexed) step
      (fun _ => ParseState.ReachableFrom lexed) (ParseState.ReachableFrom lexed))
    (h : ∀ start, Yields (ParseState.Stands place start false) step
      fun _ => ParseState.Stands place start true) : Proceeds place lexed step fun _ => True :=
  .of_yields hstart hkeeps fun start => (h start).imp (fun _ => id) fun _ _ hstate _ => hstate

theorem spaced_of_proceeds {item : Parse α} (h : Proceeds place lexed item fun _ => True)
    (separator : Punctuation) : Spaced place lexed separator item := by
  have hmoving : Moving .silent (acceptMark separator) := moving_acceptMark separator
  have hseparator : Proceeds place lexed (acceptMark separator) (· = true) := by
    refine .of_moving hstart hmoving fun start state hstands => ?_
    exact (yields_acceptMark separator).imp (fun _ => id)
      (fun _ _ hstate haccepted => by rwa [if_pos haccepted] at hstate) state ⟨hstands, rfl⟩
  refine ⟨h, hseparator, advancing_manyRound fun state answer next hstate hstep hsome => ?_⟩
  obtain ⟨accepted, middle, haccept, hanswer⟩ := bind_eq_ok_iff.mp hstep
  cases accepted with
  | false =>
    cases hanswer
    cases hsome
  | true =>
    obtain ⟨hlt, hmiddle⟩ := hseparator _ _ _ hstate haccept rfl
    obtain ⟨value, last, hvalue, hlast⟩ := bind_eq_ok_iff.mp hanswer
    cases hlast
    obtain ⟨hlt', hnext⟩ := h _ _ _ hmiddle hvalue trivial
    exact ⟨Nat.lt_trans hlt hlt', hnext⟩

section Collecting

variable {inner : RunContext → Parse Run} (hinner : ∀ context, Moving .silent (inner context))

include hinner

theorem advancing_itemsRound (context : RunContext) :
    Advancing place lexed (itemsRound inner context) := by
  intro state hreachable found
  refine .bind fun answer next hstep => ?_
  cases answer with
  | some items =>
    have hproceeds : Proceeds place lexed (nextItems? inner context (!found.isEmpty)) (·.isSome) :=
      .of_moving hstart (moving_nextItems hinner context _) fun _ =>
        yields_nextItems hinner context _
    obtain ⟨hlt, hnext⟩ := hproceeds _ _ _ hreachable hstep rfl
    exact .inr ⟨items.reverse ++ found, next, hlt, hnext, fun _ => rfl⟩
  | none => exact .ends _

theorem goesOn_behind {state : ParseState} (hreachable : state.ReachableFrom lexed)
    (hkind : state.cursor.current.kind ≠ .endOfInput) (value : Run → β) :
    GoesOn place lexed state fun again : β → Parse γ => (do again (value (← inner {})))
      { state with cursor := state.cursor.advance } := by
  refine .bind fun run next hstep => ?_
  have hmoves : Moves .silent { state with cursor := state.cursor.advance }
      ((inner {}).finalState { state with cursor := state.cursor.advance }) := hinner {} _
  unfold finalState at hmoves
  rw [hstep] at hmoves
  have hpassed := (hreachable.stands hstart).begins.advance hkind
  exact .inr ⟨value run, next, (hpassed.moves hmoves).lt_offset, hreachable.advance.moves hmoves,
    fun _ => rfl⟩

theorem advancing_elementsRound (bracket : Bracket) (separator : Separator) :
    Advancing place lexed (elementsRound inner bracket separator) := by
  refine fun state hreachable found => .current ?_
  cases hkind : Separator.ofKind? state.cursor.current.kind with
  | none => exact .ends _
  | some next =>
    refine .ite (fun _ => .ends _) fun _ => .bind fun _ passed hadvance => ?_
    cases hadvance
    refine .bind fun kind passed hlook => ?_
    cases hlook
    refine .ite (fun _ => .ends _) fun _ => ?_
    exact goesOn_behind hstart hinner hreachable (Separator.kind_ne hkind) (· :: found)

theorem advancing_generatorsRound :
    Advancing place lexed fun again (value : Option Separator × List Run) =>
      generatorsRound inner (fun separator found => again (separator, found)) value.1 value.2 := by
  refine fun state hreachable ⟨separator, found⟩ => .current ?_
  cases hkind : Separator.ofKind? state.cursor.current.kind with
  | none => exact .ends _
  | some next =>
    refine .ite (fun _ => .ends _) fun _ => .bind fun _ passed hadvance => ?_
    cases hadvance
    exact goesOn_behind hstart hinner hreachable (Separator.kind_ne hkind) fun run =>
      (some next, run :: found)

end Collecting

end Placed

end Parse

/-! ## All loops -/

/-- The loops of the grammar, but for the one over whole statements. -/
structure LoopsAdvance (place : Nat → Nat) (lexed : Lexed) : Prop where
  items : ∀ depth context, Advancing place lexed (itemsRound (collectRun depth) context)
  elements : ∀ depth bracket separator,
    Advancing place lexed (elementsRound (collectRun depth) bracket separator)
  generators : ∀ depth,
    Advancing place lexed fun again (value : Option Separator × List Run) =>
      generatorsRound (collectRun depth) (fun separator found => again (separator, found))
        value.1 value.2
  parameters : Advancing place lexed (manyRound parameter?)
  modifiers : Advancing place lexed (manyRound modifier?)
  qualifiers : ∀ context, Advancing place lexed (manyRound (qualifier? context))
  headers : Spaced place lexed .comma do
    let found ← header
    declare found
    return found
  sections : Spaced place lexed .pipe typeSection
  bindings : ∀ context, Spaced place lexed .comma (binding context)
  modules : Spaced place lexed .comma moduleSpec
  symbols : Spaced place lexed .comma symbolSpec
  names : Spaced place lexed .comma (identifier "name to undefine")

theorem loops_advance
    (hstart : (ParseState.ofTokens lexed.tokens lexed.errors).Stands place 0 false) :
    LoopsAdvance place lexed where
  items depth context := advancing_itemsRound hstart (moving_collectRun depth) context
  elements depth := advancing_elementsRound hstart (moving_collectRun depth)
  generators depth := advancing_generatorsRound hstart (moving_collectRun depth)
  parameters := advancing_manyRound (.of_moving hstart moving_parameter fun _ => passes_parameter)
  modifiers := advancing_manyRound (.of_moving hstart moving_modifier fun _ => passes_modifier)
  qualifiers context := by
    have hkeeps := @Records.qualifier _ _ (records_reachable lexed) [] context
    exact advancing_manyRound (.of_yields hstart hkeeps fun _ => passes_qualifier context)
  headers := by
    refine spaced_of_proceeds hstart (.of_passes hstart ?_ fun _ => passes_declared) .comma
    have hrecords := records_reachable lexed
    exact (@Records.header _ _ hrecords []).bind fun found =>
      (hrecords.declare [] found).bind fun _ => .pure fun _ hstate => hstate
  sections := by
    have hkeeps := @Records.typeSection _ _ (records_reachable lexed) []
    exact spaced_of_proceeds hstart (.of_passes hstart hkeeps fun _ => passes_typeSection) .pipe
  bindings context := by
    have hkeeps := @Records.binding _ _ (records_reachable lexed) [] context
    exact spaced_of_proceeds hstart (.of_passes hstart hkeeps fun _ => passes_binding context)
      .comma
  modules := by
    have hkeeps := (records_reachable lexed).moving moving_moduleSpec []
    exact spaced_of_proceeds hstart (.of_passes hstart hkeeps fun _ => passes_moduleSpec) .comma
  symbols := by
    have hkeeps := (records_reachable lexed).moving moving_symbolSpec []
    exact spaced_of_proceeds hstart (.of_passes hstart hkeeps fun _ => passes_symbolSpec) .comma
  names := by
    have hkeeps := (records_reachable lexed).moving (moving_identifier "name to undefine") []
    exact spaced_of_proceeds hstart (.of_passes hstart hkeeps fun _ => passes_identifier _) .comma

end Equational

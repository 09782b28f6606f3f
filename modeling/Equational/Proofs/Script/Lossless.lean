import Equational.Proofs.Result
import Equational.Proofs.Run.Follows
import Equational.Proofs.Run.Sound
import Equational.Proofs.Script.Lexical

/-!
# Runs lose no token

From every state that parsing a text may come to, a run that is collected writes just the tokens
that are passed, and the cursor stands in front of a token that adds nothing to the run.
-/

namespace Equational

open Parse

/-! ## Reachable states -/

/-- What parsing a text does to its state on the way.  A token is only split if it is an operator
that begins with the dot of a lambda. -/
inductive ParseState.ReachableFrom (lexed : Lexed) : ParseState → Prop where
  | start : ReachableFrom lexed (.ofTokens lexed.tokens lexed.errors)
  | advance {state : ParseState} (h : ReachableFrom lexed state) :
    ReachableFrom lexed { state with cursor := state.cursor.advance }
  | split {state : ParseState} (h : ReachableFrom lexed state)
    (hdot : beginsWithDot state.cursor.current) :
    ReachableFrom lexed { state with cursor := state.cursor.split 1 }
  | unexpected {state : ParseState} (h : ReachableFrom lexed state) (expected : String) :
    ReachableFrom lexed { state with cursor := (state.cursor.unexpected expected).2 }
  | skipStatement {state : ParseState} (h : ReachableFrom lexed state) :
    ReachableFrom lexed { state with cursor := state.cursor.skipStatement }
  | exhaust {state : ParseState} (h : ReachableFrom lexed state) :
    ReachableFrom lexed { state with exhausted := true }
  | declare {state : ParseState} (h : ReachableFrom lexed state) (table : OperatorTable)
    (reported : List Diagnostic) (followsEquation : Bool) :
    ReachableFrom lexed { state with table, reported, followsEquation }

def ParseState.Reachable (state : ParseState) : Prop :=
  ∃ source lexed, Lexed.ofSource source = .ok lexed ∧ state.ReachableFrom lexed

theorem ParseState.Reachable.start {source : String} {lexed : Lexed}
    (h : Lexed.ofSource source = .ok lexed) :
    (ParseState.ofTokens lexed.tokens lexed.errors).Reachable :=
  ⟨source, lexed, h, .start⟩

theorem isSound_start {source : String} {lexed : Lexed} (h : Lexed.ofSource source = .ok lexed) :
    (ParseState.ofTokens lexed.tokens lexed.errors).cursor.IsSound
      (ParseState.ofTokens lexed.tokens lexed.errors).limit := by
  have hcursor := cursor_start h
  change (ParseState.ofTokens lexed.tokens lexed.errors).cursor = _ at hcursor
  obtain ⟨tokens, htokens, -⟩ := exists_tokens_of_ofSource h
  refine ⟨?_, ?_, Nat.le_succ _⟩ <;> rw [hcursor]
  · exact ⟨tokens, _, htokens, rfl⟩
  · exact Lexed.isProper_of_ofSource h

theorem ParseState.Reachable.isSound {state : ParseState} (h : state.Reachable) :
    state.cursor.IsSound state.limit := by
  obtain ⟨source, lexed, hlexed, hfrom⟩ := h
  induction hfrom with
  | start => exact isSound_start hlexed
  | advance _ ih => exact ih.advance
  | split _ hdot ih => exact ih.split hdot
  | unexpected _ expected ih => exact ih.unexpected expected
  | skipStatement _ ih => exact ih.skipStatement
  | exhaust _ ih => exact ih
  | declare _ _ _ _ ih => exact ih

/-! ## Ends of runs -/

theorem current_split_of_dot {cursor : Cursor} (hdot : beginsWithDot cursor.current) :
    (cursor.split 1).current.kind = .mark .dot ∨ cursor.split 1 = cursor := by
  rcases cursor.split_cases 1 with
    hsplit | ⟨passed, token, rest, errors, head, tail, rfl, hcut, hsplit⟩
  · exact .inr hsplit
  · refine .inl ?_
    have hhead : token.value.toList.head? = some '.' := (Cursor.kind_of_beginsWithDot hdot).2.2
    obtain ⟨others, hvalue⟩ := List.head?_eq_some_iff.mp hhead
    have hfirst : head = ['.'] := by
      rw [hvalue, Cursor.cutText?, if_pos (by decide)] at hcut
      split at hcut <;> cases hcut
      rfl
    rw [hsplit, hfirst]
    rfl

section Stop

variable {context : RunContext} {started : Bool} {state : ParseState}
  (inner : RunContext → Parse Run)

theorem nextItems_of_dot (hkind : state.cursor.current.kind = .mark .dot)
    (hstop : context.stopAtDot = true) :
    nextItems? inner context started state = .ok none state := by
  rw [nextItems?, Parse.bind_eq_ok_iff]
  refine ⟨state.cursor.current, state, rfl, ?_⟩
  simp [hkind, hstop]
  rfl

private theorem nextItems_of_stuck (hdot : beginsWithDot state.cursor.current)
    (hstay : state.cursor.split 1 = state.cursor) (hstop : context.stopAtDot = true) :
    nextItems? inner context started state = .ok none state := by
  have hkind := (Cursor.kind_of_beginsWithDot hdot).1
  rw [nextItems?, Parse.bind_eq_ok_iff]
  refine ⟨state.cursor.current, state, rfl, ?_⟩
  have hsplit : Parse.split 1 state = .ok () state := by
    change EStateM.Result.ok () { state with cursor := state.cursor.split 1 } = _
    rw [hstay]
  simp only [hkind, hstop, hdot, Bool.and_self, ↓reduceIte, reduceCtorEq, decide_false,
    Bool.and_false, Bool.false_eq_true]
  exact Parse.bind_eq_ok_iff.mpr ⟨(), state, hsplit, rfl⟩

private theorem nextItems_of_other (hkind : Grammar.beginsItem state.cursor.current.kind = false) :
    nextItems? inner context started state = .ok none state := by
  have hdot : beginsWithDot state.cursor.current = false := by
    refine Bool.eq_false_iff.mpr fun hdot => ?_
    rw [(Cursor.kind_of_beginsWithDot hdot).1] at hkind
    cases hkind
  rw [nextItems?, Parse.bind_eq_ok_iff]
  refine ⟨state.cursor.current, state, rfl, ?_⟩
  generalize state.cursor.current.kind = kind at hkind ⊢
  cases kind with
  | endOfInput =>
    simp [hdot, TokenKind.isOperatorStart]
    rfl
  | mark mark =>
    cases mark <;> first
      | (cases hkind; done)
      | (simp [hdot, TokenKind.isOperatorStart, Punctuation.isOperator]; rfl)
  | word word =>
    cases word <;> first
      | (cases hkind; done)
      | (simp [hdot, TokenKind.isOperatorStart, Keyword.isOperator]; rfl)
  | _ => cases hkind

theorem nextItems_of_stop {cursor after : Cursor} (h : Grammar.Stop context started cursor after)
    (hstate : state.cursor = after) : nextItems? inner context started state = .ok none state := by
  cases h with
  | guard hkind hstop =>
    subst hstate
    rw [nextItems?, Parse.bind_eq_ok_iff]
    refine ⟨state.cursor.current, state, rfl, ?_⟩
    simp only [hkind, hstop]
    rfl
  | assignment hkind hstop =>
    subst hstate
    rw [nextItems?, Parse.bind_eq_ok_iff]
    refine ⟨state.cursor.current, state, rfl, ?_⟩
    simp only [hkind, hstop]
    rfl
  | dot hkind hstop => exact nextItems_of_dot inner (hstate ▸ hkind) hstop
  | glued hdot hstop =>
    rcases current_split_of_dot hdot with hkind | hstay
    · exact nextItems_of_dot inner (hstate ▸ hkind) hstop
    · rw [hstay] at hstate
      subst hstate
      exact nextItems_of_stuck inner hdot hstay hstop
  | other hkind => exact nextItems_of_other inner (hstate ▸ hkind)

end Stop

/-! ## Whole runs -/

theorem Grammar.Items.exists_stop {Inner : RunContext → Cursor → Run → Cursor → Prop}
    {context : RunContext} {started : Bool} {cursor after : Cursor} {items : List RunItem}
    (h : Items Inner context started cursor items after) :
    ∃ last, Stop context (started || !items.isEmpty) last after := by
  induction h with
  | stop h => exact ⟨_, by simpa using stop_of_answer _ _ _ h⟩
  | @next _ _ _ _ items more h _ ih =>
    have hne := (next_of_answer _ _ _ h).ne_nil
    have hlonger : (items ++ more).isEmpty = false := by simp [hne]
    simpa [hlonger] using ih

theorem Grammar.Collects.exists_stop {depth : Nat} {context : RunContext} {cursor after : Cursor}
    {run : Run} (h : Collects depth context cursor run after) :
    ∃ last, Stop context (!run.isEmpty) last after := by
  cases depth with
  | zero => exact h.elim
  | succ depth =>
    obtain ⟨items, hitems, rfl⟩ := h
    exact hitems.exists_stop

theorem run_lossless {state final : ParseState} (hreachable : state.Reachable)
    {context : RunContext} {run : Run} (h : Parse.run context state = .ok run final) :
    ∃ taken, state.cursor.Passage taken final.cursor ∧
      final.cursor.passed = taken.reverse ++ state.cursor.passed ∧
      List.Forall₂ Glyph.Shows run.written taken ∧
      ∀ inner, nextItems? inner context (!run.isEmpty) final = .ok none final := by
  have hsound := hreachable.isSound
  obtain ⟨after, hcollects, rfl⟩ :=
    ((follows_run context hsound.isEnded).ok_iff state rfl hsound.weight_le run final).mp h
  obtain ⟨taken, hpassage, hshows⟩ := hcollects.writes
  obtain ⟨last, hstop⟩ := hcollects.exists_stop
  exact ⟨taken, hpassage, hpassage.passed_eq, hshows hsound.isProper,
    fun inner => nextItems_of_stop inner hstop rfl⟩

/-- A typed variable, a lambda whose dot is glued to an operator, conditionals with and without an
else branch, a section of an operator of two words, and an enumeration. -/
def nestedText : String := "X:T (\\x.-if a then x else var y) (z or else) if b then [1; 2..]; z"

theorem nestedText_lossless :
    ∃ lexed run final taken, Lexed.ofSource nestedText = .ok lexed ∧
      Parse.run {} (.ofTokens lexed.tokens lexed.errors) = .ok run final ∧
      run.written.length = 30 ∧
      (ParseState.ofTokens lexed.tokens lexed.errors).cursor.Passage taken final.cursor ∧
      final.cursor.passed =
        taken.reverse ++ (ParseState.ofTokens lexed.tokens lexed.errors).cursor.passed ∧
      List.Forall₂ Glyph.Shows run.written taken ∧
      ∀ inner, nextItems? inner {} (!run.isEmpty) final = .ok none final := by
  obtain ⟨lexed, hlexed, houtcome⟩ := exists_of_map_eq_ok
    (f := fun lexed : Lexed =>
      match Parse.run {} (.ofTokens lexed.tokens lexed.errors) with
      | .ok run _ => some run.written.length
      | .error _ _ => none)
    (by decide +kernel : (Lexed.ofSource nestedText).map _ = .ok (some 30))
  split at houtcome
  · rename_i run final hrun
    obtain ⟨taken, hpassage, hpassed, hshows, hrests⟩ := run_lossless (.start hlexed) hrun
    exact ⟨lexed, run, final, taken, hlexed, hrun, Option.some.inj houtcome, hpassage, hpassed,
      hshows, hrests⟩
  · cases houtcome

end Equational

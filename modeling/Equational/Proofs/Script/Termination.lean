import Equational.Proofs.Script.FailFast
import Equational.Proofs.Script.Rounds

/-!
# Parsing ends

Each statement, whether it is read or skipped, leaves the cursor in front of a later token, and so
does each round of a loop and each run within a run.  The number of rounds that is allowed is never
what ends a reading: one that is allowed more of them comes to the same end.
-/

namespace Equational

open Cursor Parse

/-! ## Skipping -/

namespace ParseState

variable {place : Nat → Nat} {start : Nat} {moved : Bool} {state next : ParseState}

theorem moves_skip (state : ParseState) (cursor : Cursor) :
    Moves .silent { state with cursor } { state with cursor := cursor.skipStatement } :=
  skipStatement_induction (motive := fun reached =>
      Moves .silent { state with cursor } { state with cursor := reached })
    (fun htakes hmoves => hmoves.tail (htakes.advance_eq ▸ .advance _)) .refl

theorem Stands.offset_lt_skip (h : state.Stands place start moved) (htokens : state.hasTokens) :
    state.cursor.offset place < state.cursor.skipStatement.offset place := by
  have hkind : state.cursor.current.kind ≠ .endOfInput := bne_iff_ne.mp htokens
  have hmoves : Moves .silent { state with cursor := state.cursor.advance }
      { state with cursor := state.cursor.skipStatement } := by
    rcases (h.sound.isEnded.takes hkind).skipStatement_eq with hskip | hskip <;> rw [hskip]
    exact moves_skip state state.cursor.advance
  exact ((h.begins.advance hkind).moves hmoves).lt_offset

structure IsUnderway (place : Nat → Nat) (start : Nat) (state : ParseState) : Prop extends
    state.Stands place start false where
  left : state.hasTokens = false → start < state.cursor.offset place

private theorem hasTokens_split (hdot : beginsWithDot state.cursor.current) :
    { state with cursor := state.cursor.split 1 : ParseState }.hasTokens := by
  obtain ⟨cursor, table, reported, followsEquation, limit, exhausted⟩ := state
  rcases current_split_of_dot hdot with hkind | hstays
  · simp [hasTokens, hkind]
  · simp [hasTokens, hstays, (kind_of_beginsWithDot hdot).1]

private theorem hasTokens_unexpected (state : ParseState) (expected : String) :
    { state with cursor := (state.cursor.unexpected expected).2 : ParseState }.hasTokens =
      state.hasTokens := by
  obtain ⟨errors, hresult⟩ := state.cursor.exists_errors_of_unexpected expected
  rw [hresult]
  rfl

theorem IsUnderway.move (h : state.IsUnderway place start) (hmove : Move .silent state next) :
    next.IsUnderway place start := by
  refine ⟨h.toStands.move hmove, fun hnone => ?_⟩
  cases htokens : state.hasTokens with
  | false => exact Nat.lt_of_lt_of_le (h.left htokens) (h.offset_le (.single hmove))
  | true =>
    cases hmove with
    | advance => exact (h.advance (bne_iff_ne.mp htokens)).lt_offset
    -- The parts of a split token are no end of the input.
    | split hdot =>
      rw [hasTokens_split hdot] at hnone
      cases hnone
    | unexpected _ expected =>
      rw [hasTokens_unexpected, htokens] at hnone
      cases hnone
    | exhaust => cases htokens.symm.trans hnone

theorem records_underway (place : Nat → Nat) (start : Nat) :
    Records (fun _ => IsUnderway place start) (IsUnderway place start) := by
  refine .of_moves (fun state next hmoves h => ?_) fun _ _ _ h =>
    ⟨⟨h.sound, h.stands, h.start_le, h.passed⟩, h.left⟩
  induction hmoves with
  | refl => exact h
  | tail _ hmove ih => exact ih.move hmove

private theorem IsUnderway.lt_skip (h : state.IsUnderway place start) :
    start < state.cursor.skipStatement.offset place := by
  cases htokens : state.hasTokens with
  | false => exact Nat.lt_of_lt_of_le (h.left htokens) (h.offset_le (moves_skip state _))
  | true => exact Nat.lt_of_le_of_lt h.start_le (h.offset_lt_skip htokens)

end ParseState

/-! ## Statements -/

namespace Progress

variable {place : Nat → Nat} {lexed : Lexed}

/-- A statement that is read, or is skipped where it fails, leaves a later token ahead. -/
theorem offset_lt_step {progress : Progress} (h : progress.state.Stands place 0 false)
    (htokens : progress.state.hasTokens) :
    progress.state.cursor.offset place < progress.step.state.cursor.offset place := by
  have hunderway : progress.state.IsUnderway place (progress.state.cursor.offset place) :=
    ⟨h.begins, fun hnone => absurd (htokens.symm.trans hnone) nofun⟩
  have hpasses := passes_statement progress.state h.begins
  have hkeeps := (ParseState.records_underway place _).statement progress.state hunderway
  cases hstep : statement progress.state with
  | error diagnostic final =>
    rw [hstep] at hkeeps
    rw [step_of_error progress hstep]
    exact hkeeps.lt_skip
  | ok parsed final =>
    rw [hstep] at hpasses
    cases parsed with
    | statement statement =>
      rw [step_of_statement progress hstep]
      exact hpasses.lt_offset
    | clause clause =>
      rw [step_of_clause progress hstep]
      exact hpasses.lt_offset

theorem reachable_step {progress : Progress} (h : progress.state.ReachableFrom lexed) :
    progress.step.state.ReachableFrom lexed := by
  have hkeeps := (records_reachable lexed).statement progress.state h
  cases hstep : statement progress.state with
  | error diagnostic final =>
    rw [hstep] at hkeeps
    rw [step_of_error progress hstep]
    exact hkeeps.skipStatement.declare progress.state.table (diagnostic :: final.reported) false
  | ok parsed final =>
    rw [hstep] at hkeeps
    cases parsed with
    | statement statement =>
      rw [step_of_statement progress hstep]
      exact hkeeps.declare final.table final.reported statement.isEquation
    | clause clause =>
      rw [step_of_clause progress hstep]
      exact hkeeps

theorem reachable_run (lexed : Lexed) (mode : ParseMode) (rounds : Nat) :
    ((start lexed).run mode rounds).state.ReachableFrom lexed :=
  run_induction (·.state.ReachableFrom lexed) (fun _ => reachable_step) .start mode rounds

end Progress

/-! ## More rounds -/

def Framing.allowing (lexed : Lexed) (slots : List Slot) (limit : Nat) : Framing :=
  { Framing.ofStart lexed slots with second := ⟨[], [], [], limit, []⟩ }

namespace Progress

def withLimit (progress : Progress) (limit : Nat) : Progress :=
  { progress with state := { progress.state with limit } }

/-- The reading goes alike beside one that is allowed more rounds. -/
def IsSteady (lexed : Lexed) (slots : List Slot) (progress : Progress) : Prop :=
  ∀ limit, totalWeight lexed.tokens + 1 ≤ limit →
    ∃ shared, Abreast (.allowing lexed slots limit) shared progress (progress.withLimit limit)

section Steady

variable {source : String} {lexed : Lexed} {slots : List Slot} {progress second : Progress}
  {shared : Shared} {limit rounds : Nat}

theorem isSteady_start (h : Lexed.ofSource source = .ok lexed) :
    ∃ slots, IsSteady lexed slots (start lexed) := by
  obtain ⟨slots, -, -, habreast⟩ := abreast_start h
  refine ⟨slots, fun limit hlimit => ⟨_, {
    habreast with second_limit := rfl, body := fun _ => ?_, room := ?_ }⟩⟩
  · obtain ⟨added, hfirst, hsecond, hclosed⟩ := habreast.body trivial
    exact ⟨added, hfirst, hsecond, hclosed⟩
  · exact ⟨habreast.room.1, Nat.le_trans habreast.room.2 hlimit⟩

private theorem eq_withLimit (h : Abreast (.allowing lexed slots limit) shared progress second)
    (hbody : relocate .still progress.body = progress.body)
    (hagrees : progress.state.followsEquation = second.state.followsEquation) :
    second = progress.withLimit limit := by
  have hreported : relocate .still shared.reported = shared.reported :=
    List.map_id'' (fun _ => rfl) shared.reported
  have hcursor : second.state.cursor = progress.state.cursor := by
    rw [h.second_cursor, h.first_cursor]
    simp only [Framing.allowing, Framing.ofStart, Framing.alone, relocate_still_slots]
  have hreports : second.state.reported = progress.state.reported := by
    rw [h.second_reported, h.first_reported]
    exact congrArg (· ++ []) hreported
  have hbodies : second.body = progress.body := by
    obtain ⟨added, hfirst, hsecond, -⟩ := h.body trivial
    obtain rfl : progress.body = added := hfirst.trans (List.append_nil added)
    exact hsecond.trans ((List.append_nil _).trans hbody)
  have hexhausted := h.second_rounds.trans h.first_rounds.symm
  obtain ⟨⟨_, _, _, _, _, _⟩, _⟩ := progress
  obtain ⟨⟨_, _, _, _, _, _⟩, _⟩ := second
  cases hcursor
  cases hreports
  cases hbodies
  cases hagrees
  cases hexhausted
  cases h.table
  cases h.second_limit
  rfl

theorem IsSteady.step (h : IsSteady lexed slots progress) :
    IsSteady lexed slots progress.step ∧ ∀ limit, totalWeight lexed.tokens + 1 ≤ limit →
      (progress.withLimit limit).step = progress.step.withLimit limit := by
  have hsteps (limit : Nat) (hlimit : totalWeight lexed.tokens + 1 ≤ limit) :
      ∃ next, Abreast (.allowing lexed slots limit) next progress.step
          (progress.withLimit limit).step ∧
        progress.step.state.followsEquation =
          (progress.withLimit limit).step.state.followsEquation := by
    obtain ⟨shared, hshared⟩ := h limit hlimit
    obtain ⟨next, hnext⟩ := hshared.step_all rfl
    exact ⟨next, hnext.toAbreast, hnext.agrees⟩
  have hself : progress.withLimit (totalWeight lexed.tokens + 1) = progress := by
    obtain ⟨shared, hshared⟩ := h _ (Nat.le_refl _)
    obtain ⟨⟨_, _, _, _, limit, _⟩, _⟩ := progress
    obtain rfl : limit = _ := hshared.first_limit
    rfl
  have hbody : relocate .still progress.step.body = progress.step.body := by
    obtain ⟨next, hnext, -⟩ := hsteps _ (Nat.le_refl _)
    rw [hself] at hnext
    obtain ⟨added, hfirst, hsecond, -⟩ := hnext.body trivial
    rw [hfirst] at hsecond
    have hadded := List.append_cancel_right hsecond
    rw [hfirst]
    exact (congrArg (relocate Relocation.still) (List.append_nil added)).trans
      (hadded.symm.trans (List.append_nil added).symm)
  have hequal (limit : Nat) (hlimit : totalWeight lexed.tokens + 1 ≤ limit) :
      (progress.withLimit limit).step = progress.step.withLimit limit := by
    obtain ⟨next, hnext, hagrees⟩ := hsteps limit hlimit
    exact eq_withLimit hnext hbody hagrees
  refine ⟨fun limit hlimit => ?_, hequal⟩
  obtain ⟨next, hnext, -⟩ := hsteps limit hlimit
  rw [hequal limit hlimit] at hnext
  exact ⟨next, hnext⟩

theorem IsSteady.run_withLimit (h : IsSteady lexed slots progress)
    (hlimit : totalWeight lexed.tokens + 1 ≤ limit) (mode : ParseMode) (rounds : Nat) :
    (progress.withLimit limit).run mode rounds = (progress.run mode rounds).withLimit limit := by
  induction rounds generalizing progress with
  | zero => rfl
  | succ rounds ih =>
    obtain ⟨hnext, hstep⟩ := h.step
    have hover : (progress.withLimit limit).isOver mode = progress.isOver mode := rfl
    rw [run, run, hover]
    split
    · rfl
    · rw [hstep limit hlimit, ih hnext]

/-- No loop runs out of rounds. -/
theorem exhausted_run (h : Lexed.ofSource source = .ok lexed) (mode : ParseMode) (rounds : Nat) :
    ((start lexed).run mode rounds).state.exhausted = false := by
  have hbatch (rounds : Nat) : ((start lexed).run .batch rounds).state.exhausted = false := by
    obtain ⟨slots, -, -, hstart⟩ := abreast_start h
    obtain ⟨next, hnext, -⟩ := hstart.run_rounds rfl rounds
    exact hnext.first_rounds
  cases mode with
  | batch => exact hbatch rounds
  | failFast =>
    obtain ⟨count, hstops⟩ := exists_stopsAfter (start lexed) rounds
    rw [hstops.result]
    exact hbatch count

/-! ## Ends -/

private theorem run_of_le {mode : ParseMode} {more : Nat} (hle : rounds ≤ more)
    (hover : (progress.run mode rounds).isOver mode) :
    progress.run mode more = progress.run mode rounds := by
  induction rounds generalizing progress more with
  | zero => exact run_of_isOver hover more
  | succ rounds ih =>
    obtain ⟨more, rfl⟩ := Nat.exists_eq_add_one.mpr (Nat.lt_of_lt_of_le (Nat.succ_pos _) hle)
    rw [run] at hover ⊢
    rw [run]
    split
    · rfl
    · rename_i hgoes
      rw [if_neg hgoes] at hover
      exact ih (Nat.le_of_succ_le_succ hle) hover

theorem isOver_run (h : Lexed.ofSource source = .ok lexed) (mode : ParseMode) :
    ((start lexed).run mode (start lexed).state.limit).isOver mode := by
  cases mode with
  | batch =>
    have hfinal : (final lexed).state.hasTokens = false := hasTokens_final h
    change (final lexed).isOver .batch = true
    simp [isOver, hfinal]
  | failFast =>
    obtain ⟨count, hstops, hend⟩ := exists_stopped h
    rw [hstops.result]
    rcases hend with ⟨hcount, hfinal⟩ | hreported
    · simp [hcount, isOver, hfinal]
    · simp [isOver, hreported]

/-- As many rounds as there can be tokens are enough. -/
theorem run_of_limit_le (h : Lexed.ofSource source = .ok lexed)
    (hlimit : (start lexed).state.limit ≤ limit) (mode : ParseMode) :
    ((start lexed).withLimit limit).run mode limit =
      ((start lexed).run mode (start lexed).state.limit).withLimit limit := by
  have hrounds := run_of_le hlimit (isOver_run h mode)
  obtain ⟨slots, hsteady⟩ := isSteady_start h
  rw [hsteady.run_withLimit (limit_start h ▸ hlimit), hrounds]

end Steady

end Progress

/-! ## Results -/

/-- Statements, the rounds of loops and runs within runs begin at later and later tokens, no loop
runs out of rounds, and a reading ends at the end of the input or with the first diagnostic, however
many rounds it is allowed.  How late a token is, is told by its offset in the text, which is what
its span records. -/
theorem parsing_ends {source : String} {lexed : Lexed} (h : Lexed.ofSource source = .ok lexed)
    (options : ParseOptions) :
    ∃ pieces, Lexed.CutInto source.toList pieces ∧
      lexed = .ofPieces pieces (byteLength source.toList) ∧
      let place := offsetBehind (byteLength source.toList) pieces
      (∀ state : ParseState, state.ReachableFrom lexed →
        state.cursor.current.span.start = recorded (state.cursor.offset place) ∧
          (byteLength source.toList < positionCount →
            state.cursor.current.span.start = state.cursor.offset place)) ∧
      (∀ rounds progress, progress = (Progress.start lexed).run options.mode rounds →
        progress.state.ReachableFrom lexed ∧ progress.state.exhausted = false ∧
          (progress.state.hasTokens →
            progress.state.cursor.offset place < progress.step.state.cursor.offset place)) ∧
      LoopsAdvance place lexed ∧
      (∀ state : ParseState, state.ReachableFrom lexed → ∀ depth context,
        ∃ entries : List Nat, entries.Pairwise (· < ·) ∧
          tracedRun place depth context { state with reported := [] } =
            reporting (entries.map entryNote).reverse (collectRun depth context state)) ∧
      ∃ final : Progress,
        (∀ limit, (Progress.start lexed).state.limit ≤ limit →
          ((Progress.start lexed).withLimit limit).run options.mode limit =
            final.withLimit limit) ∧
        (final.state.cursor.current.kind = .endOfInput ∨
          options.mode = .failFast ∧ final.state.reported ≠ []) ∧
        ∃ unit, ParsedUnit.ofSource source options = .ok unit ∧
          (options.cancelled = false →
            unit.cancelled = false ∧ unit.Shows options.mode lexed final) := by
  obtain ⟨pieces, hcut, hpieces⟩ := Lexed.exists_pieces h
  have hstart := stands_start h hcut
  refine ⟨pieces, hcut, hpieces, fun state hstate => ?_, ?_, loops_advance hstart, ?_, _,
    fun limit hlimit => Progress.run_of_limit_le h hlimit _, ?_, ?_⟩
  · have hstands := hstate.stands hstart
    have hrecorded := hstands.stands.start_eq hstands.sound.isEnded
    refine ⟨hrecorded, fun hsize => ?_⟩
    have hle := offsetBehind_le (fun _ hmem => Lexed.span_stop_le_of_piece hcut hmem)
      (totalWeight state.cursor.passed)
    exact hrecorded.trans (recorded_of_lt (Nat.lt_of_le_of_lt hle hsize))
  · rintro rounds progress rfl
    have hreachable := Progress.reachable_run lexed options.mode rounds
    exact ⟨hreachable, Progress.exhausted_run h options.mode rounds,
      Progress.offset_lt_step (hreachable.stands hstart)⟩
  · exact fun state hstate => entries_in_order (hstate.stands hstart)
  · have hover := Progress.isOver_run h options.mode
    simp only [Progress.isOver, Bool.or_eq_true, Bool.and_eq_true, Bool.not_eq_true',
      decide_eq_true_eq, List.isEmpty_eq_false_iff] at hover
    exact hover.imp_left bne_eq_false_iff_eq.mp
  · obtain ⟨unit, hunit⟩ := exists_unit h options
    obtain ⟨_, rounds, hlexed, hrounds, hshows⟩ := exists_shown_of_unit hunit
    obtain rfl := Except.ok.inj (h.symm.trans hlexed)
    refine ⟨unit, hunit, fun hcancelled => ?_⟩
    obtain ⟨rfl, hgoes⟩ := hrounds hcancelled
    exact ⟨hgoes, hshows⟩

/-- A lambda whose dot has to be split off an operator, a bracket that is never opened, a
declaration that lacks its names, and containers that are left open. -/
def strayTokensSource : String := "f = \\x.* 1;\n] g;\nconst ,;\nh [1, (2 = 3"

theorem strayTokensSource_ends :
    ∃ lexed, Lexed.ofSource strayTokensSource = .ok lexed ∧
      ((List.range 6).map fun rounds =>
        ((Progress.start lexed).run .batch rounds).state.cursor.current.span.start) =
          [0, 12, 17, 26, 38, 38] ∧
      ∀ rounds, ((Progress.start lexed).run .batch rounds).state.hasTokens →
        ((Progress.start lexed).run .batch rounds).state.cursor.current.span.start <
          ((Progress.start lexed).run .batch rounds).step.state.cursor.current.span.start := by
  obtain ⟨lexed, hlexed, hoffsets⟩ := exists_of_map_eq_ok
    (by decide +kernel : (Lexed.ofSource strayTokensSource).map (fun lexed =>
      (List.range 6).map fun rounds =>
        ((Progress.start lexed).run .batch rounds).state.cursor.current.span.start) =
          .ok [0, 12, 17, 26, 38, 38])
  refine ⟨lexed, hlexed, hoffsets, fun rounds htokens => ?_⟩
  obtain ⟨pieces, -, -, hrecorded, hrounds, -⟩ := parsing_ends hlexed {}
  have hsize : byteLength strayTokensSource.toList < positionCount := by decide
  obtain ⟨hreachable, -, hlater⟩ := hrounds rounds _ rfl
  rw [(hrecorded _ hreachable).2 hsize, (hrecorded _ (Progress.reachable_step hreachable)).2 hsize]
  exact hlater htokens

end Equational

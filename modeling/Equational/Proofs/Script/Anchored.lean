import Equational.Proofs.Script.Placement
import Equational.Proofs.Statement.Anchored

/-!
# Diagnostics of a unit

The tokens of a text begin and end between its characters, and an operator may be split between any
two of its characters.  Whatever the statements report is about positions taken from there, so it
lies in the text; at the end the diagnostics are sorted.
-/

namespace Equational

/-! ## Between characters -/

/-- The offset is that of a place between two characters of the text, or at one of its ends. -/
def IsBoundary (source : List Char) (offset : Nat) : Prop :=
  ∃ before after, source = before ++ after ∧ offset = byteLength before

theorem IsBoundary.le {source : List Char} {offset : Nat} (h : IsBoundary source offset) :
    offset ≤ byteLength source := by
  obtain ⟨before, after, rfl, rfl⟩ := h
  rw [byteLength_append]
  exact Nat.le_add_right _ _

theorem Span.Covers.isAnchored {span : Span} {source text : List Char}
    (h : span.Covers source text) : span.IsAnchored (IsBoundary source) := by
  obtain ⟨before, after, hsource, hstart, hstop⟩ := h
  refine ⟨⟨before, text ++ after, ?_, hstart⟩, ⟨before ++ text, after, hsource, hstop⟩, ?_⟩
  · rw [hsource, List.append_assoc]
  · rw [hstart, hstop, byteLength_append]
    exact Nat.le_add_right _ _

section Start

variable {source : String} {lexed : Lexed} (h : Lexed.ofSource source = .ok lexed)
  (hsize : byteLength source.toList < positionCount)

include h hsize

theorem isAnchored_of_ofSource {token : Token} (hmem : token ∈ lexed.tokens) :
    token.IsAnchored (IsBoundary source.toList) := by
  have htiles := Lexed.ofSource_tiles h hsize
  by_cases hend : token.kind = .endOfInput
  · obtain ⟨tokens, htokens, hinside⟩ := htiles.ends
    rw [htokens, List.mem_append, List.mem_singleton] at hmem
    rcases hmem with hmem | rfl
    · exact absurd hend (hinside token hmem)
    · have hend : IsBoundary source.toList (byteLength source.toList) :=
        ⟨source.toList, [], (List.append_nil _).symm, rfl⟩
      exact ⟨⟨hend, hend, Nat.le_refl _⟩, nofun⟩
  · obtain ⟨text, -, hcovers, hspells⟩ := htiles.tokens token hmem hend
    refine ⟨hcovers.isAnchored, fun hkind hplain head tail hvalue => ?_⟩
    obtain ⟨before, after, hsource, hstart, -⟩ := hcovers
    have htext : token.value.toList = text := by
      rw [Token.Spells, if_neg (by simp [hkind])] at hspells
      simpa [Token.qualifiedValue, qualify, hplain] using hspells
    refine ⟨before ++ head, tail ++ after, ?_, by rw [hstart, byteLength_append]⟩
    rw [hsource, ← htext, hvalue]
    simp only [List.append_assoc]

private theorem isAnchored_errors {diagnostic : Diagnostic}
    (hmem : diagnostic ∈ lexed.errors.values) :
    diagnostic.span.IsAnchored (IsBoundary source.toList) := by
  obtain ⟨entry, hentry, rfl⟩ := List.mem_map.mp hmem
  obtain ⟨token, htoken, hspan⟩ := (keepsDiagnostics_of_ofSource h).span entry.1 entry.2 hentry
  rw [hspan]
  exact (isAnchored_of_ofSource h hsize (List.mem_of_getElem? htoken)).span

theorem isAnchored_start :
    (Progress.start lexed).state.IsAnchored (IsBoundary source.toList) := by
  refine ⟨⟨fun token hmem => isAnchored_of_ofSource h hsize ?_,
    fun diagnostic hmem => isAnchored_errors h hsize ?_, ?_⟩, nofun⟩
  · rwa [cursor_start h] at hmem
  · rwa [cursor_start h] at hmem
  · rw [cursor_start h]
    exact ⟨[], source.toList, rfl, rfl⟩

end Start

/-! ## Statements -/

def Progress.IsAnchored (anchors : Nat → Prop) (size : Nat) (progress : Progress) : Prop :=
  progress.IsPlaced size ∧ progress.state.IsAnchored anchors

theorem Progress.IsAnchored.step {anchors : Nat → Prop} {size : Nat} {progress : Progress}
    (h : progress.IsAnchored anchors size) : progress.step.IsAnchored anchors size := by
  refine ⟨h.1.step, ?_⟩
  obtain ⟨⟨low, -, hready⟩, hanchored⟩ := h
  have hsettles : Parse.Settles anchors ⟨low, size⟩ Parse.statement fun _ => True :=
    Parse.settles_statement
  have hends := hsettles progress.state ⟨hready, hanchored⟩
  cases hstep : Parse.statement progress.state with
  | error diagnostic final =>
    rw [hstep] at hends
    obtain ⟨hspan, hcursor, hreported⟩ := hends
    rw [step_of_error progress hstep]
    exact ⟨hcursor.skipStatement, List.forall_mem_cons.mpr ⟨hspan, hreported⟩⟩
  | ok parsed final =>
    rw [hstep] at hends
    obtain ⟨hcursor, hreported⟩ := hends.2.toIsAnchored
    cases parsed with
    | statement statement =>
      rw [step_of_statement progress hstep]
      exact ⟨hcursor, hreported⟩
    | clause clause =>
      rw [step_of_clause progress hstep]
      exact ⟨hcursor, hreported⟩

/-! ## Diagnostics of a unit -/

theorem ParseState.IsAnchored.finalDiagnostics {anchors : Nat → Prop} {state : ParseState}
    (h : state.IsAnchored anchors) (mode : ParseMode) {diagnostic : Diagnostic}
    (hmem : diagnostic ∈ finalDiagnostics mode state) : diagnostic.span.IsAnchored anchors := by
  have hreported : ∀ diagnostic ∈ state.diagnostics, diagnostic.span.IsAnchored anchors :=
    fun _ hmem => h.reported _ (List.mem_reverse.mp hmem)
  cases mode with
  | failFast => exact hreported diagnostic ((List.mergeSort_perm _ _).mem_iff.mp hmem)
  | batch =>
    rcases List.mem_append.mp ((List.mergeSort_perm _ _).mem_iff.mp hmem) with hmem | hkept
    · exact hreported diagnostic hmem
    · exact h.cursor.kept diagnostic hkept

theorem Diagnostic.pairwise_inSourceOrder (diagnostics : List Diagnostic) :
    (inSourceOrder diagnostics).Pairwise
      fun first second => first.span.start ≤ second.span.start := by
  have hsorted : (inSourceOrder diagnostics).Pairwise
      fun first second => decide (first.span.start ≤ second.span.start) := by
    refine List.pairwise_mergeSort (fun first second third hfirst hsecond => ?_)
      (fun first second => ?_) diagnostics
    · rw [decide_eq_true_eq] at hfirst hsecond ⊢
      exact Nat.le_trans hfirst hsecond
    · rw [Bool.or_eq_true, decide_eq_true_eq, decide_eq_true_eq]
      exact Nat.le_total _ _
  exact hsorted.imp of_decide_eq_true

/-- The diagnostics stand in the order in which they begin, each between characters of the text. -/
structure StandBetweenCharacters (source : List Char) (diagnostics : List Diagnostic) : Prop where
  ordered : diagnostics.Pairwise fun first second => first.span.start ≤ second.span.start
  start_le_stop : ∀ diagnostic ∈ diagnostics, diagnostic.span.start ≤ diagnostic.span.stop
  stop_le : ∀ diagnostic ∈ diagnostics, diagnostic.span.stop ≤ byteLength source
  boundaries : ∀ diagnostic ∈ diagnostics,
    IsBoundary source diagnostic.span.start ∧ IsBoundary source diagnostic.span.stop

private theorem standBetweenCharacters_of_isAnchored {source : List Char} {state : ParseState}
    (h : state.IsAnchored (IsBoundary source)) (mode : ParseMode) :
    StandBetweenCharacters source (finalDiagnostics mode state) := by
  have hspans : ∀ diagnostic ∈ finalDiagnostics mode state,
      diagnostic.span.IsAnchored (IsBoundary source) := fun _ => h.finalDiagnostics mode
  refine ⟨?_, fun diagnostic hmem => ?_, fun diagnostic hmem => ?_, fun diagnostic hmem => ?_⟩
  · cases mode with
    | batch => exact Diagnostic.pairwise_inSourceOrder _
    | failFast => exact Diagnostic.pairwise_inSourceOrder _
  · obtain ⟨-, -, hordered⟩ := hspans diagnostic hmem
    exact hordered
  · obtain ⟨-, hstop, -⟩ := hspans diagnostic hmem
    exact hstop.le
  · obtain ⟨hstart, hstop, -⟩ := hspans diagnostic hmem
    exact ⟨hstart, hstop⟩

/-- Reading may stop behind any statement: at the end of the input, at the first diagnostic, or
because it is cancelled there. -/
theorem diagnostics_between_characters {source : String} {lexed : Lexed}
    (hsize : byteLength source.toList < positionCount) (h : Lexed.ofSource source = .ok lexed) :
    (∀ mode rounds, StandBetweenCharacters source.toList
      (finalDiagnostics mode ((Progress.start lexed).run mode rounds).state)) ∧
      ∀ options unit, ParsedUnit.ofSource source options = .ok unit →
        StandBetweenCharacters source.toList unit.diagnostics := by
  have hplaced : (Progress.start lexed).IsPlaced (byteLength source.toList) :=
    ⟨0, .nil (Nat.le_refl _), isReady_start h hsize⟩
  have hstart : (Progress.start lexed).IsAnchored (IsBoundary source.toList)
      (byteLength source.toList) := ⟨hplaced, isAnchored_start h hsize⟩
  have hruns : ∀ mode rounds, StandBetweenCharacters source.toList
      (finalDiagnostics mode ((Progress.start lexed).run mode rounds).state) := by
    intro mode rounds
    obtain ⟨-, hanchored⟩ :=
      Progress.run_induction (·.IsAnchored _ _) (fun _ => .step) hstart mode rounds
    exact standBetweenCharacters_of_isAnchored hanchored mode
  refine ⟨hruns, fun options unit hunit => ?_⟩
  obtain ⟨lexed', rounds, hlexed, -, hshows⟩ := exists_shown_of_unit hunit
  obtain rfl := Except.ok.inj (h.symm.trans hlexed)
  rw [hshows.diagnostics]
  exact hruns options.mode rounds

/-- An operator word without a branch behind it, a malformed number, a header that binds a
qualified name and a bracket that stays open, among characters of two bytes. -/
def misplacedText : String :=
  "\"é\" = if \"ü\" then;\n09 f = \\X\"ö\";\nconst A::v = 3;\nh = (+ 1"

theorem misplacedText_between_characters :
    byteLength misplacedText.toList < positionCount ∧
    ∃ lexed unit, Lexed.ofSource misplacedText = .ok lexed ∧
      ParsedUnit.ofSource misplacedText {} = .ok unit ∧
      (unit.diagnostics.map Diagnostic.span).Perm [⟨60, 60⟩, ⟨42, 46⟩, ⟨21, 23⟩, ⟨7, 19⟩] ∧
      (∀ mode rounds, StandBetweenCharacters misplacedText.toList
        (finalDiagnostics mode ((Progress.start lexed).run mode rounds).state)) ∧
      StandBetweenCharacters misplacedText.toList unit.diagnostics := by
  have hsize : byteLength misplacedText.toList < positionCount := by decide +kernel
  -- The order of the sorted diagnostics does not evaluate; what is sorted does.
  obtain ⟨lexed, hlexed, hspans⟩ := exists_of_map_eq_ok
    (f := fun lexed : Lexed =>
      let final := (Progress.start lexed).run .batch (Progress.start lexed).state.limit
      (final.state.reported ++ final.state.cursor.errors.values).map Diagnostic.span)
    (by decide +kernel : (Lexed.ofSource misplacedText).map _ =
      .ok [⟨60, 60⟩, ⟨42, 46⟩, ⟨21, 23⟩, ⟨7, 19⟩])
  obtain ⟨unit, hunit⟩ := exists_unit hlexed {}
  obtain ⟨lexed', rounds, hlexed', hrounds, hshows⟩ := exists_shown_of_unit hunit
  obtain rfl := Except.ok.inj (hlexed.symm.trans hlexed')
  obtain ⟨rfl, -⟩ := hrounds rfl
  obtain ⟨hruns, hunits⟩ := diagnostics_between_characters hsize hlexed
  refine ⟨hsize, lexed, unit, hlexed, hunit, ?_, hruns, hunits {} unit hunit⟩
  rw [hshows.diagnostics, ← hspans]
  exact (finalDiagnostics_perm _).map Diagnostic.span

end Equational

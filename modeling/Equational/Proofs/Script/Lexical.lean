import Equational.Proofs.Lexed.Token
import Equational.Proofs.Script.Abreast

/-!
# Lexical diagnostics of a unit

However far the statements of a text are read, its lexical diagnostics are reported once each: those
of the malformed tokens that a statement met, and at the end those of the tokens that were skipped
or not reached.  A single reading is seen as going abreast with itself.
-/

namespace Equational

open Cursor Parse

/-! ## Where nothing moves -/

def Relocation.still : Relocation := ⟨id, id⟩

theorem relocate_still_slot (slot : Slot) : relocate Relocation.still slot = slot := by
  obtain ⟨⟨kind, value, moduleName, span⟩, owed⟩ := slot
  cases owed <;> rfl

theorem relocate_still_slots (slots : List Slot) : relocate Relocation.still slots = slots := by
  rw [relocate_list]
  exact List.map_id'' relocate_still_slot slots

theorem tracks_still {slot : Slot} (h : slot.IsLexed) : Relocation.still.Tracks slot.toToken :=
  ⟨rfl, fun _ _ _ => ⟨rfl, rfl⟩, h.symbol⟩

/-! ## A reading beside itself -/

theorem shareable_toEnd {place : Relocation} {slots : List Slot} {size : Nat}
    (htracked : ∀ slot ∈ slots, place.Tracks slot.toToken) (hend : place.Aligns (recorded size))
    (hinside : ∀ slot ∈ slots, slot.kind ≠ .endOfInput) (howing : ∀ slot ∈ slots, slot.IsOwing) :
    Shareable place .all (slots ++ [.endOfInput size]) where
  terminated last hlast := by
    rw [List.getLast?_concat] at hlast
    obtain rfl := Option.some.inj hlast
    rfl
  inside := by
    rw [List.dropLast_concat]
    exact hinside
  tracked :=
    List.forall_mem_append.mpr ⟨htracked, List.forall_mem_singleton.mpr ⟨hend, nofun, nofun⟩⟩
  owing := List.forall_mem_append.mpr
    ⟨howing, List.forall_mem_singleton.mpr (Slot.IsLexed.endOfInput size).isOwing⟩

def Framing.alone (place : Relocation) (around : Surroundings) (owed : List Diagnostic)
    (alike : Prop) : Framing where
  place := place
  extent := .all
  first := around
  second := around
  owed := owed
  alike := alike
  ends := nofun

theorem abreast_alone {progress : Progress} {place : Relocation} {before ahead : List Slot}
    {alike : Prop} (hcursor : progress.state.cursor = .ofSlots before ahead)
    (hshareable : Shareable place .all ahead) (hahead : ahead ≠ [])
    (hfixed : relocate place ahead = ahead)
    (hroom : totalWeight (tokensOf ahead) ≤ progress.state.limit)
    (hrounds : progress.state.exhausted = false) (hbody : alike → progress.body = []) :
    Abreast (.alone place
      ⟨before, [], progress.state.reported, progress.state.limit, progress.body⟩
      (owedBy ahead) alike) ⟨[], ahead, []⟩ progress progress where
  toShareable := hshareable
  first_cursor := by
    rw [hcursor]
    exact congrArg (Cursor.ofSlots before) (List.append_nil ahead).symm
  second_cursor := by
    rw [hcursor]
    exact congrArg (Cursor.ofSlots before) ((List.append_nil _).trans hfixed).symm
  first_reported := rfl
  second_reported := rfl
  table := rfl
  body halike := ⟨[], rfl, rfl, fun _ => .inl ⟨hbody halike, hbody halike⟩⟩
  agree _ := rfl
  reaches _ := hahead
  first_limit := rfl
  second_limit := rfl
  room := ⟨hroom, hroom⟩
  first_rounds := hrounds
  second_rounds := hrounds
  owed := .refl _
  settled _ := rfl

/-! ## The start of a text -/

def Progress.start (lexed : Lexed) : Progress := ⟨.ofTokens lexed.tokens lexed.errors, []⟩

/-- A unit is what the statements read so far make up. -/
structure ParsedUnit.Shows (unit : ParsedUnit) (mode : ParseMode) (lexed : Lexed)
    (final : Progress) : Prop where
  script : unit.script = ⟨final.body.reverse, ⟨0, final.state.cursor.current.span.start⟩⟩
  diagnostics : unit.diagnostics = finalDiagnostics mode final.state
  table : unit.table = final.state.table
  trivia : unit.trivia = lexed.trivia

theorem ParsedUnit.Shows.body {unit : ParsedUnit} {mode : ParseMode} {lexed : Lexed}
    {final : Progress} (h : unit.Shows mode lexed final) :
    unit.script.body = final.body.reverse := by
  rw [h.script]

theorem exists_shown_of_unit {source : String} {options : ParseOptions} {unit : ParsedUnit}
    (h : ParsedUnit.ofSource source options = .ok unit) :
    ∃ lexed rounds, Lexed.ofSource source = .ok lexed ∧
      (options.cancelled = false →
        rounds = (Progress.start lexed).state.limit ∧ unit.cancelled = false) ∧
      unit.Shows options.mode lexed ((Progress.start lexed).run options.mode rounds) := by
  unfold ParsedUnit.ofSource at h
  cases hlexed : Lexed.ofSource source with
  | error fatal =>
    rw [hlexed] at h
    cases h
  | ok lexed =>
    rw [hlexed] at h
    obtain rfl := Except.ok.inj h
    simp only [ParsedScript.ofTokens]
    split
    · rename_i hcancelled
      refine ⟨lexed, 0, rfl, ?_, ⟨rfl, rfl, rfl, rfl⟩⟩
      intro hnot
      simp [hnot] at hcancelled
    · refine ⟨lexed, _, rfl, fun hnot => ⟨rfl, ?_⟩, ⟨rfl, rfl, rfl, rfl⟩⟩
      rw [hnot]
      rfl

theorem exists_unit {source : String} {lexed : Lexed} (h : Lexed.ofSource source = .ok lexed)
    (options : ParseOptions) : ∃ unit, ParsedUnit.ofSource source options = .ok unit := by
  rw [ParsedUnit.ofSource, h]
  exact ⟨_, rfl⟩

section Start

variable {source : String} {lexed : Lexed}

theorem exists_tokens_of_ofSource (h : Lexed.ofSource source = .ok lexed) :
    ∃ tokens, lexed.tokens = tokens ++ [Token.endOfInput (recorded (byteLength source.toList))] ∧
      ∀ token ∈ tokens, token.kind ≠ .endOfInput := by
  obtain ⟨pieces, hcut, rfl⟩ := Lexed.exists_pieces h
  exact Lexed.tokens_ofPieces hcut _

theorem cursor_start (h : Lexed.ofSource source = .ok lexed) :
    (Progress.start lexed).state.cursor = ⟨[], lexed.tokens, lexed.errors⟩ := by
  obtain ⟨tokens, htokens, -⟩ := exists_tokens_of_ofSource h
  have hwith : withEnd lexed.tokens = lexed.tokens := by
    rw [htokens, withEnd, List.getLast?_concat]
    rfl
  exact congrArg (Cursor.mk [] · lexed.errors) hwith

theorem limit_start (h : Lexed.ofSource source = .ok lexed) :
    (Progress.start lexed).state.limit = totalWeight lexed.tokens + 1 :=
  congrArg (fun cursor => Cursor.weight cursor + 1) (cursor_start h)

theorem Lexed.IsOf.cursor_start {slots : List Slot} (hof : lexed.IsOf slots)
    (h : Lexed.ofSource source = .ok lexed) :
    (Progress.start lexed).state.cursor = .ofSlots [] slots := by
  rw [Equational.cursor_start h, hof.tokens, hof.errors]
  rfl

def Framing.ofStart (lexed : Lexed) (slots : List Slot) : Framing :=
  .alone .still ⟨[], [], [], totalWeight lexed.tokens + 1, []⟩ (owedBy slots) True

theorem abreast_start (h : Lexed.ofSource source = .ok lexed) :
    ∃ slots, lexed.IsOf slots ∧ (∀ slot ∈ slots, slot.IsLexed) ∧
      Abreast (.ofStart lexed slots) ⟨[], slots, []⟩ (.start lexed) (.start lexed) := by
  obtain ⟨slots, hslots⟩ := Lexed.exists_slots h
  have hlimit := limit_start h
  refine ⟨_, hslots.toIsOf, hslots.isLexed, ?_⟩
  rw [Framing.ofStart, ← hlimit]
  refine abreast_alone (hslots.cursor_start h) (shareable_toEnd ?_ rfl ?_ ?_) (by simp)
    (relocate_still_slots _) ?_ rfl fun _ => rfl
  · exact fun slot hmem => tracks_still (hslots.lies slot hmem).toIsLexed
  · exact fun slot hmem => (hslots.lies slot hmem).inside
  · exact fun slot hmem => (hslots.lies slot hmem).isOwing
  · rw [hlimit, hslots.tokens]
    exact Nat.le_succ _

end Start

/-! ## Lexical diagnostics -/

theorem finalDiagnostics_perm (state : ParseState) :
    (finalDiagnostics .batch state).Perm (state.reported ++ state.cursor.errors.values) := by
  refine (List.mergeSort_perm _ _).trans ?_
  exact (List.reverse_perm _).append_right _

theorem values_of_ofSlots (passed ahead : List Slot) :
    (Cursor.ofSlots passed ahead).errors.values = owedBy (passed.reverse ++ ahead) :=
  DiagnosticMap.values_ofSlots _

theorem Abreast.values_eq {lexed : Lexed} {slots : List Slot} {shared : Shared}
    {first second : Progress} (h : Abreast (.ofStart lexed slots) shared first second) :
    first.state.cursor.errors.values = owedBy (shared.passed.reverse ++ shared.ahead) := by
  rw [h.first_cursor, values_of_ofSlots]
  simp [Framing.ofStart, Framing.alone]

/-- Of the tokens ahead just the malformed ones have a diagnostic kept, under their indices. -/
def Cursor.KeepsAhead (cursor : Cursor) : Prop :=
  ∀ distance token, cursor.ahead[distance]? = some token →
    (token.kind = .malformed ↔
      ∃ diagnostic, cursor.errors.find? (cursor.index + distance) = some diagnostic)

private theorem keepsAhead_ofSlots {passed ahead : List Slot} (h : ∀ slot ∈ ahead, slot.IsOwing) :
    (Cursor.ofSlots passed ahead).KeepsAhead := by
  intro distance token htoken
  obtain ⟨slot, hslot, rfl⟩ := by
    simpa [Cursor.ofSlots, tokensOf, List.getElem?_map] using htoken
  have hindex : (passed.reverse ++ ahead)[passed.length + distance]? = some slot := by
    rw [List.getElem?_append_right (by simp)]
    simpa using hslot
  have hkept := DiagnosticMap.find_of_getElem hindex
  have howing := h slot (List.mem_of_getElem? hslot)
  have hlength : (Cursor.ofSlots passed ahead).index = passed.length := by
    simp [Cursor.index, Cursor.ofSlots, tokensOf]
  rw [hlength]
  change _ ↔ ∃ diagnostic, (DiagnosticMap.ofSlots (passed.reverse ++ ahead)).find? _ = _
  rw [hkept]
  constructor
  · intro hmalformed
    obtain ⟨diagnostic, howed, -⟩ := howing.malformed hmalformed
    exact ⟨diagnostic, howed⟩
  · rintro ⟨diagnostic, howed⟩
    by_contra hformed
    cases (howing.formed hformed).symm.trans howed

theorem keepsAhead_run {source : String} {lexed : Lexed} (h : Lexed.ofSource source = .ok lexed)
    (rounds : Nat) : ((Progress.start lexed).run .batch rounds).state.cursor.KeepsAhead := by
  obtain ⟨slots, -, -, hstart⟩ := abreast_start h
  obtain ⟨next, hnext, -⟩ := hstart.run_rounds rfl rounds
  rw [hnext.first_cursor]
  refine keepsAhead_ofSlots ?_
  change ∀ slot ∈ next.ahead ++ [], slot.IsOwing
  rw [List.append_nil]
  exact hnext.owing

theorem lexicalOnes_finalDiagnostics_run {source : String} {lexed : Lexed}
    (h : Lexed.ofSource source = .ok lexed) (rounds : Nat) :
    (lexicalOnes (finalDiagnostics .batch ((Progress.start lexed).run .batch rounds).state)).Perm
      lexed.errors.values := by
  obtain ⟨slots, hof, hlexed, hstart⟩ := abreast_start h
  obtain ⟨next, hnext, -⟩ := hstart.run_rounds rfl rounds
  have hreported : ((Progress.start lexed).run .batch rounds).state.reported = next.reported :=
    hnext.first_reported.trans (List.append_nil _)
  have hlexical : lexicalOnes (owedBy (next.passed.reverse ++ next.ahead)) =
      owedBy (next.passed.reverse ++ next.ahead) := by
    refine List.filter_eq_self.mpr fun diagnostic hmem => ?_
    have hmem' := hnext.owed.mem_iff.mp (List.mem_append_right _ hmem)
    obtain ⟨slot, hslot, howed⟩ := List.mem_filterMap.mp hmem'
    exact decide_eq_true ((hlexed slot hslot).span_of_owed howed).2
  refine ((finalDiagnostics_perm _).filter _).trans ?_
  rw [hreported, hnext.values_eq, List.filter_append, hof.values]
  exact (congrArg (lexicalOnes next.reported ++ ·) hlexical ▸ hnext.owed)

/-- Diagnostics are kept under the indices of the malformed tokens, and at their spans. -/
structure Lexed.KeepsDiagnostics (lexed : Lexed) : Prop where
  index : ∀ index, index ∈ lexed.errors.entries.map Prod.fst ↔
    ∃ token, lexed.tokens[index]? = some token ∧ token.kind = .malformed
  span : ∀ index diagnostic, (index, diagnostic) ∈ lexed.errors.entries →
    ∃ token, lexed.tokens[index]? = some token ∧ diagnostic.span = token.span

theorem keepsDiagnostics_of_ofSource {source : String} {lexed : Lexed}
    (h : Lexed.ofSource source = .ok lexed) : lexed.KeepsDiagnostics := by
  obtain ⟨slots, hslots⟩ := Lexed.exists_slots h
  have hlexed {index : Nat} {slot : Slot}
      (hslot : (slots ++ [.endOfInput (byteLength source.toList)])[index]? = some slot) :=
    hslots.isLexed slot (List.mem_of_getElem? hslot)
  constructor
  · intro index
    simp only [List.mem_map, Prod.exists, exists_and_right, exists_eq_right,
      hslots.mem_entries_iff, hslots.getElem_tokens_iff]
    constructor
    · rintro ⟨diagnostic, slot, hslot, howed⟩
      exact ⟨_, ⟨slot, hslot, rfl⟩, (hlexed hslot).exists_owed_iff.mp ⟨diagnostic, howed⟩⟩
    · rintro ⟨_, ⟨slot, hslot, rfl⟩, hkind⟩
      obtain ⟨diagnostic, howed⟩ := (hlexed hslot).exists_owed_iff.mpr hkind
      exact ⟨diagnostic, slot, hslot, howed⟩
  · intro index diagnostic hmem
    obtain ⟨slot, hslot, howed⟩ := hslots.mem_entries_iff.mp hmem
    exact ⟨_, hslots.getElem_tokens_iff.mpr ⟨slot, hslot, rfl⟩,
      ((hlexed hslot).span_of_owed howed).1⟩

/-- No lexical diagnostic is lost, reported twice or made up, wherever the reading of statements is
cancelled.  One that is made up for a malformed token, because none is kept for it, would be one too
many: those that are reported and those that are still kept are always the ones of the text. -/
theorem lexical_diagnostics_complete {source : String} {lexed : Lexed}
    (h : Lexed.ofSource source = .ok lexed) :
    lexed.KeepsDiagnostics ∧
      (∀ rounds, ((Progress.start lexed).run .batch rounds).state.cursor.KeepsAhead) ∧
      (∀ rounds, (lexicalOnes (finalDiagnostics .batch
        ((Progress.start lexed).run .batch rounds).state)).Perm lexed.errors.values) ∧
      ∀ options unit, options.mode = .batch → ParsedUnit.ofSource source options = .ok unit →
        (lexicalOnes unit.diagnostics).Perm lexed.errors.values := by
  refine ⟨keepsDiagnostics_of_ofSource h, keepsAhead_run h, lexicalOnes_finalDiagnostics_run h, ?_⟩
  intro options unit hmode hunit
  rw [ParsedUnit.ofSource, h] at hunit
  obtain rfl := Except.ok.inj hunit
  simp only [ParsedScript.ofTokens, hmode]
  split
  · exact lexicalOnes_finalDiagnostics_run h 0
  · exact lexicalOnes_finalDiagnostics_run h _

/-- Two malformed numbers behind an operator that is split: the statement fails at the first one,
and the second one is skipped. -/
def malformedSource : String := "x = \\y.-08 + 09;\nz = 1;"

theorem malformedSource_diagnostics_complete :
    ∃ lexed, Lexed.ofSource malformedSource = .ok lexed ∧
      lexed.errors.entries.map Prod.fst = [5, 7] ∧ lexed.KeepsDiagnostics ∧
      (∀ rounds, ((Progress.start lexed).run .batch rounds).state.cursor.KeepsAhead) ∧
      (∀ rounds, (lexicalOnes (finalDiagnostics .batch
        ((Progress.start lexed).run .batch rounds).state)).Perm lexed.errors.values) ∧
      ∀ options unit, options.mode = .batch →
        ParsedUnit.ofSource malformedSource options = .ok unit →
        (lexicalOnes unit.diagnostics).Perm lexed.errors.values :=
  ⟨_, rfl, rfl, lexical_diagnostics_complete rfl⟩

end Equational

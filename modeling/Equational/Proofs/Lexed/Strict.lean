import Equational.Proofs.Lexed.Token
import Equational.Proofs.Token.Comment

/-!
# Strict reading

The lexical errors of a text are those that reading records before it comes to the end or to a
lexeme that is left open, and then the fatal one.  They start one behind the other.  Strict reading
gives tokens if there are none, and else the first one, unless a fatal one follows: a fatal error
ends the reading before the recorded ones are looked at.
-/

namespace Equational

open Equational.Token

/-! ## Fatal causes -/

def Token.Meaning.IsGraded : Meaning → Prop
  | .malformed cause => cause.isFatal = false
  | .unclosed cause _ => cause.isFatal = true
  | _ => True

private theorem Token.Lexeme.FoundIn.isGraded {text : List Char} {lexeme : Lexeme}
    (h : lexeme.FoundIn text) : lexeme.meaning.IsGraded := by
  cases h with
  | malformedString _ _ hcause => rcases hcause with rfl | ⟨escape, rfl⟩ <;> rfl
  | malformedNumber | openComment | openString | unrecognised => rfl
  | _ => trivial

theorem Token.isGraded_first (text : List Char) : (Lexeme.first text).meaning.IsGraded :=
  (Lexeme.first_foundIn text).isGraded

namespace Lexed

/-! ## Recorded errors -/

structure LexicalError where
  offset : Nat
  diagnostic : Diagnostic
  deriving DecidableEq

/-- Where reading comes to an end: what has been read by then, the errors recorded on the way, the
latest first, and the fatal one if a lexeme is left open. -/
structure Scan where
  reading : Reading := {}
  recorded : List LexicalError := []
  fatal : Option LexicalError := none

def Scan.result (scan : Scan) (size : Nat) : Except Diagnostic Lexed :=
  match scan.fatal with
  | some error => .error error.diagnostic
  | none => .ok (scan.reading.finish size)

def Scan.errors (scan : Scan) : List LexicalError := scan.recorded.reverse ++ scan.fatal.toList

def Scan.add (scan : Scan) (offset : Nat) (lexeme : Lexeme) : Scan where
  reading := scan.reading.add offset lexeme
  recorded :=
    match lexeme.meaning with
    | .malformed cause =>
      ⟨offset, ⟨cause, .between offset (offset + byteLength lexeme.text)⟩⟩ :: scan.recorded
    | _ => scan.recorded
  fatal := scan.fatal

def scanFrom : Nat → Nat → Scan → List Char → Scan
  | _, _, scan, [] => scan
  | covered + 1, offset, scan, c :: rest => scanFrom covered (offset + c.utf8Size) scan rest
  | 0, offset, scan, c :: rest =>
    let lexeme := Lexeme.first (c :: rest)
    match lexeme.meaning with
    | .unclosed cause width =>
      { scan with fatal := some ⟨offset, ⟨cause, .between offset (offset + width)⟩⟩ }
    | _ => scanFrom (lexeme.text.length - 1) (offset + c.utf8Size) (scan.add offset lexeme) rest

theorem readFrom_eq_scanFrom (covered offset : Nat) (scan : Scan) (hfatal : scan.fatal = none)
    (text : List Char) :
    readFrom covered offset scan.reading text =
      (scanFrom covered offset scan text).result (offset + byteLength text) := by
  induction text generalizing covered offset scan with
  | nil => cases covered <;> simp [readFrom, scanFrom, Scan.result, hfatal]
  | cons c rest ih =>
    rw [byteLength_cons, ← Nat.add_assoc]
    cases covered with
    | succ covered => exact ih covered _ scan hfatal
    | zero =>
      simp only [readFrom, scanFrom]
      cases (Lexeme.first (c :: rest)).meaning with
      | unclosed cause width => rfl
      | blank | trivia | token | malformed => exact ih _ _ (scan.add offset _) hfatal

def scan (source : List Char) : Scan :=
  match interpreterLine? source with
  | some line => scanFrom line.text.length 0 (({} : Scan).add 0 line) source
  | none => scanFrom 0 0 {} source

theorem ofChars_eq_scan (source : List Char) :
    ofChars source = (scan source).result (byteLength source) := by
  unfold ofChars scan
  cases interpreterLine? source with
  | some line =>
    have hread := readFrom_eq_scanFrom line.text.length 0 (({} : Scan).add 0 line) rfl source
    rwa [Nat.zero_add] at hread
  | none =>
    have hread := readFrom_eq_scanFrom 0 0 {} rfl source
    rwa [Nat.zero_add] at hread

def lexicalErrors (source : String) : List LexicalError := (scan source.toList).errors

/-! ## Order -/

structure LexicalError.Precedes (error : LexicalError) (offset : Nat) : Prop where
  before : error.offset < offset
  start : error.diagnostic.span.start = recorded error.offset

/-- The errors recorded so far are those that are kept under the indices of tokens.  They stand one
behind the other in front of an offset, and none is fatal. -/
structure Scan.IsOrderly (scan : Scan) (offset : Nat) : Prop where
  values : scan.reading.errors.values = scan.recorded.reverse.map LexicalError.diagnostic
  keys : ∀ entry ∈ scan.reading.errors.entries, entry.1 < scan.reading.tokens.length
  ordered : scan.recorded.Pairwise fun later earlier => earlier.offset < later.offset
  precedes : ∀ error ∈ scan.recorded, error.Precedes offset
  mild : ∀ error ∈ scan.recorded, error.diagnostic.cause.isFatal = false

namespace Scan.IsOrderly

variable {scan : Scan} {offset next : Nat}

theorem empty (offset : Nat) : ({} : Scan).IsOrderly offset := ⟨rfl, nofun, .nil, nofun, nofun⟩

theorem mono (h : scan.IsOrderly offset) (hnext : offset ≤ next) : scan.IsOrderly next where
  values := h.values
  keys := h.keys
  ordered := h.ordered
  precedes error hmem :=
    ⟨Nat.lt_of_lt_of_le (h.precedes error hmem).before hnext, (h.precedes error hmem).start⟩
  mild := h.mild

theorem add (h : scan.IsOrderly offset) {lexeme : Lexeme} (hgraded : lexeme.meaning.IsGraded)
    (hclosed : ∀ cause width, lexeme.meaning ≠ .unclosed cause width) (hnext : offset < next) :
    (scan.add offset lexeme).IsOrderly next := by
  have hmono := h.mono (Nat.le_of_lt hnext)
  obtain ⟨text, meaning⟩ := lexeme
  cases meaning with
  | unclosed cause width => exact absurd rfl (hclosed cause width)
  | blank | trivia => exact ⟨h.values, h.keys, h.ordered, hmono.precedes, h.mild⟩
  | token =>
    have hkeys (entry : Nat × Diagnostic) (hmem : entry ∈ scan.reading.errors.entries) :
        entry.1 < scan.reading.tokens.length + 1 := Nat.lt_succ_of_lt (h.keys entry hmem)
    exact ⟨h.values, hkeys, h.ordered, hmono.precedes, h.mild⟩
  | malformed cause =>
    -- The index of the new token is greater than all keys.
    have hentries : DiagnosticMap.insertEntry _
        ⟨cause, .between offset (offset + byteLength text)⟩ scan.reading.errors.entries = _ :=
      DiagnosticMap.insertEntry_of_forall_lt h.keys
    refine ⟨?_, ?_, ?_, ?_, ?_⟩
    · have hvalues := h.values
      rw [DiagnosticMap.values] at hvalues
      simp [Scan.add, Reading.add, Reading.pushMalformed, Reading.push, DiagnosticMap.values,
        DiagnosticMap.insert, hentries, hvalues]
    · intro entry hmem
      simp only [Scan.add, Reading.add, Reading.pushMalformed, Reading.push, DiagnosticMap.insert,
        hentries, List.mem_append, List.mem_singleton] at hmem
      rcases hmem with hmem | rfl
      · exact Nat.lt_succ_of_lt (h.keys entry hmem)
      · exact Nat.lt_succ_self _
    · exact List.pairwise_cons.mpr ⟨fun error hmem => (h.precedes error hmem).before, h.ordered⟩
    · exact List.forall_mem_cons.mpr ⟨⟨hnext, rfl⟩, hmono.precedes⟩
    · exact List.forall_mem_cons.mpr ⟨hgraded, h.mild⟩

end Scan.IsOrderly

structure Scan.IsOver (scan : Scan) (size : Nat) : Prop extends scan.IsOrderly size where
  behind : ∀ error ∈ scan.recorded, ∀ fatal ∈ scan.fatal, error.offset < fatal.offset
  within : ∀ fatal ∈ scan.fatal, fatal.Precedes size
  isFatal : ∀ fatal ∈ scan.fatal, fatal.diagnostic.cause.isFatal = true

theorem Scan.IsOrderly.isOver {scan : Scan} {size : Nat} (h : scan.IsOrderly size)
    (hfatal : scan.fatal = none) : scan.IsOver size := by
  refine ⟨h, ?_, ?_, ?_⟩ <;> simp [hfatal]

private theorem scanFrom_isOver (covered : Nat) {offset : Nat} {scan : Scan} (text : List Char)
    (h : scan.IsOrderly offset) (hfatal : scan.fatal = none) :
    (scanFrom covered offset scan text).IsOver (offset + byteLength text) := by
  induction text generalizing covered offset scan with
  | nil =>
    have hscan := h.isOver hfatal
    cases covered <;> exact hscan
  | cons c rest ih =>
    rw [byteLength_cons, ← Nat.add_assoc]
    cases covered with
    | succ covered => exact ih covered (h.mono (Nat.le_add_right _ _)) hfatal
    | zero =>
      have hgraded := isGraded_first (c :: rest)
      have hpos := c.utf8Size_pos
      simp only [scanFrom]
      split
      · rename_i cause width hmeaning
        rw [hmeaning] at hgraded
        refine ⟨⟨h.values, h.keys, h.ordered, ?_, h.mild⟩, ?_, ?_, ?_⟩
        · exact (h.mono (by omega)).precedes
        · rintro error hmem fatal ⟨⟩
          exact (h.precedes error hmem).before
        · rintro fatal ⟨⟩
          refine ⟨?_, rfl⟩
          dsimp only
          omega
        · rintro fatal ⟨⟩
          exact hgraded
      · rename_i hclosed
        exact ih _ (h.add hgraded hclosed (Nat.lt_add_of_pos_right hpos)) hfatal

theorem scan_isOver (source : List Char) : (scan source).IsOver (byteLength source) := by
  have hover (covered : Nat) {scan : Scan} (h : scan.IsOrderly 0) (hfatal : scan.fatal = none) :=
    scanFrom_isOver covered source h hfatal
  rw [Nat.zero_add] at hover
  unfold scan
  split
  · rename_i line hline
    obtain ⟨-, -, -, hmeaning⟩ := interpreterLine_eq_some hline
    have hadd : ({} : Scan).add 0 line =
        { reading := ({} : Reading).add 0 line } := by simp [Scan.add, hmeaning]
    rw [hadd]
    have hnone : (({} : Reading).add 0 line).errors = .empty := by simp [Reading.add, hmeaning]
    have hentries : ({ reading := ({} : Reading).add 0 line } : Scan).reading.errors.entries = [] :=
      congrArg DiagnosticMap.entries hnone
    refine hover _ ⟨?_, ?_, .nil, List.forall_mem_nil _, List.forall_mem_nil _⟩ rfl
    · exact congrArg (List.map Prod.snd) hentries
    · rw [hentries]
      exact List.forall_mem_nil _
  · exact hover _ (.empty 0) rfl

namespace Scan.IsOver

variable {scan : Scan} {size : Nat}

theorem precedes_of_mem (h : scan.IsOver size) {error : LexicalError} (hmem : error ∈ scan.errors) :
    error.Precedes size := by
  rcases List.mem_append.mp hmem with hmem | hmem
  · exact h.precedes error (List.mem_reverse.mp hmem)
  · exact h.within error (Option.mem_toList.mp hmem)

theorem starts_first (h : scan.IsOver size) (hfatal : scan.fatal = none) {first : LexicalError}
    {rest : List LexicalError} (herrors : scan.errors = first :: rest) :
    first.diagnostic.cause.isFatal = false ∧ ∀ other ∈ rest, first.offset < other.offset := by
  rw [Scan.errors, hfatal, Option.toList_none, List.append_nil] at herrors
  have hordered := List.pairwise_reverse.mpr h.ordered
  rw [herrors, List.pairwise_cons] at hordered
  refine ⟨h.mild first (List.mem_reverse.mp ?_), hordered.1⟩
  rw [herrors]
  exact List.mem_cons_self

end Scan.IsOver

/-! ## Strict reading -/

private theorem values_eq_lexicalErrors {source : String} {lexed : Lexed}
    (h : ofSource source = .ok lexed) :
    lexed.errors.values = (lexicalErrors source).map LexicalError.diagnostic := by
  rw [ofSource, ofChars_eq_scan, Scan.result] at h
  split at h
  · cases h
  · rename_i hfatal
    cases h
    have hvalues := (scan_isOver source.toList).values
    rw [lexicalErrors, Scan.errors, hfatal, Option.toList_none, List.append_nil]
    exact hvalues

/-- The fatal error is looked at first, then the first of those that have been recorded. -/
theorem strictTokens_eq (source : String) :
    strictTokens source =
      match (scan source.toList).fatal, lexicalErrors source with
      | some fatal, _ => .error fatal.diagnostic
      | none, first :: _ => .error first.diagnostic
      | none, [] =>
        .ok ((scan source.toList).reading.finish (byteLength source.toList)).tokens := by
  have hread : ofSource source = _ := ofChars_eq_scan source.toList
  cases hfatal : (scan source.toList).fatal with
  | some fatal =>
    rw [Scan.result, hfatal] at hread
    rw [strictTokens, hread]
    rfl
  | none =>
    rw [Scan.result, hfatal] at hread
    have hvalues := values_eq_lexicalErrors hread
    rw [strictTokens, hread]
    dsimp only [bind, Except.bind]
    rw [hvalues]
    cases lexicalErrors source <;> rfl

/-- Strict reading gives tokens if and only if there is no lexical error.  Else it gives the
diagnostic of one of them, and no other starts before that one, except when it is fatal and not the
only one. -/
theorem strict_reading_fails (source : String) :
    ((∃ tokens, strictTokens source = .ok tokens) ↔ lexicalErrors source = []) ∧
      (∀ error ∈ lexicalErrors source, error.Precedes (byteLength source.toList)) ∧
      ∀ diagnostic, strictTokens source = .error diagnostic →
        ∃ error ∈ lexicalErrors source, error.diagnostic = diagnostic ∧
          ((∀ other ∈ lexicalErrors source, error.offset ≤ other.offset) ↔
            (diagnostic.cause.isFatal = true → lexicalErrors source = [error])) := by
  have hstrict := strictTokens_eq source
  have hover := scan_isOver source.toList
  have hprecedes (error : LexicalError) (hmem : error ∈ lexicalErrors source) :=
    hover.precedes_of_mem hmem
  cases hfatal : (scan source.toList).fatal with
  | some fatal =>
    have hbehind (error : LexicalError) (hmem : error ∈ (scan source.toList).recorded) :=
      hover.behind error hmem fatal hfatal
    have hgrade := hover.isFatal fatal hfatal
    have herrors : lexicalErrors source = (scan source.toList).recorded.reverse ++ [fatal] := by
      rw [lexicalErrors, Scan.errors, hfatal]
      rfl
    rw [hfatal] at hstrict
    refine ⟨by simp [hstrict, herrors], hprecedes, fun diagnostic hdiagnostic => ?_⟩
    cases hstrict.symm.trans hdiagnostic
    rw [herrors]
    refine ⟨fatal, by simp, rfl, fun hfirst _ => ?_, fun halone => ?_⟩
    · cases hrecorded : (scan source.toList).recorded with
      | nil => rfl
      | cons other rest =>
        have hearlier := hbehind other (by simp [hrecorded])
        have hlater := hfirst other (by simp [hrecorded])
        omega
    · simp [halone hgrade]
  | none =>
    rw [hfatal] at hstrict
    cases herrors : lexicalErrors source with
    | nil =>
      rw [herrors] at hstrict
      rw [hstrict]
      exact ⟨⟨fun _ => rfl, fun _ => ⟨_, rfl⟩⟩, nofun, nofun⟩
    | cons first rest =>
      obtain ⟨hmild, hbehind⟩ := hover.starts_first hfatal herrors
      rw [herrors] at hstrict hprecedes
      refine ⟨by simp [hstrict], hprecedes, fun diagnostic hdiagnostic => ?_⟩
      cases hstrict.symm.trans hdiagnostic
      have hfirst : ∀ other ∈ first :: rest, first.offset ≤ other.offset :=
        List.forall_mem_cons.mpr
          ⟨Nat.le_refl _, fun other hother => Nat.le_of_lt (hbehind other hother)⟩
      refine ⟨first, List.mem_cons_self, rfl, fun _ hnot => ?_, fun _ => hfirst⟩
      rw [hmild] at hnot
      cases hnot

def openSource : String := "08 \"abc"

theorem openSource_fails_late :
    lexicalErrors openSource =
        [⟨0, ⟨.invalidNumber "08", ⟨0, 2⟩⟩⟩, ⟨3, ⟨.unterminatedString, ⟨3, 4⟩⟩⟩] ∧
      strictTokens openSource = .error ⟨.unterminatedString, ⟨3, 4⟩⟩ ∧
      ¬∀ other ∈ lexicalErrors openSource, 3 ≤ other.offset := by
  have herrors : lexicalErrors openSource =
      [⟨0, ⟨.invalidNumber "08", ⟨0, 2⟩⟩⟩, ⟨3, ⟨.unterminatedString, ⟨3, 4⟩⟩⟩] := rfl
  have hfails : strictTokens openSource = .error ⟨.unterminatedString, ⟨3, 4⟩⟩ := rfl
  refine ⟨herrors, hfails, fun hfirst => ?_⟩
  obtain ⟨error, hmem, hdiagnostic, hearliest⟩ := (strict_reading_fails openSource).2.2 _ hfails
  -- It is the second one of the two.
  have herror : error = ⟨3, ⟨.unterminatedString, ⟨3, 4⟩⟩⟩ := by
    rw [herrors] at hmem
    simp only [List.mem_cons, List.not_mem_nil, or_false] at hmem
    rcases hmem with rfl | rfl
    · cases hdiagnostic
    · rfl
  subst herror
  have halone := hearliest.mp hfirst rfl
  simp [herrors] at halone

end Lexed

end Equational

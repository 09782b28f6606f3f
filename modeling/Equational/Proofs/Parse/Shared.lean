import Equational.Proofs.Relocation.Values
import Equational.Proofs.Parse.Barren
import Equational.Token.Lexeme

/-!
# Runs over shared tokens

Two parsing runs go over the same tokens, which may stand at different places of their units: what
stands in front of them and behind them may differ, and so may what has been reported before.  As
long as neither run looks beyond the shared tokens, both do the same.

The shared tokens end with the end of the input or with a semicolon.  In the second case a run can
leave them inside brackets, where a semicolon only separates elements.  Either the first unit ends
there, and the statement comes to nothing; or the brackets are nested and no semicolon stands
between them.
-/

namespace Equational

open Cursor Token

/-! ## Nesting -/

def nestingStep : List Bracket → TokenKind → Option (List Bracket)
  | opened, .mark .openParen => some (.paren :: opened)
  | opened, .mark .openBracket => some (.square :: opened)
  | opened, .mark .openCurly => some (.curly :: opened)
  | .paren :: opened, .mark .closeParen => some opened
  | .square :: opened, .mark .closeBracket => some opened
  | .curly :: opened, .mark .closeCurly => some opened
  | _, .mark .closeParen | _, .mark .closeBracket | _, .mark .closeCurly => none
  | opened, _ => some opened

/-- The brackets that are open behind some tokens, if each bracket that they close is the one that
was opened last. -/
def nesting? : List Bracket → List TokenKind → Option (List Bracket)
  | opened, [] => some opened
  | opened, kind :: rest => (nestingStep opened kind).bind (nesting? · rest)

namespace TokenKind

def isPlain : TokenKind → Bool
  | endOfInput | malformed | mark .semicolon | mark .openParen | mark .openBracket
  | mark .openCurly | mark .closeParen | mark .closeBracket | mark .closeCurly => false
  | _ => true

theorem isPlain_of_isIdentifier {kind : TokenKind} (h : kind.isIdentifier) : kind.isPlain := by
  cases kind <;> first | rfl | cases h

theorem isPlain_of_isOperatorStart {kind : TokenKind} (h : kind.isOperatorStart) :
    kind.isPlain := by
  cases kind with
  | mark m => cases m <;> first | rfl | cases h
  | word w => rfl
  | operatorSymbol => rfl
  | _ => cases h

end TokenKind

/-- Passing such a token leaves neither the statement nor the unit, and changes the open brackets
like this. -/
structure Passes (opened : List Bracket) (kind : TokenKind) (opened' : List Bracket) : Prop where
  not_end : kind ≠ .endOfInput
  not_malformed : kind ≠ .malformed
  not_semicolon : kind ≠ .mark .semicolon
  nesting : nestingStep opened kind = some opened'

namespace Passes

variable (opened : List Bracket)

theorem plain {kind : TokenKind} (h : kind.isPlain) : Passes opened kind opened := by
  refine ⟨?_, ?_, ?_, ?_⟩
  · rintro rfl
    cases h
  · rintro rfl
    cases h
  · rintro rfl
    cases h
  · cases kind with
    | mark m => cases m <;> first | rfl | cases h
    | _ => rfl

theorem opening {kind : TokenKind}
    (h : kind = .mark .openParen ∨ kind = .mark .openBracket ∨ kind = .mark .openCurly) :
    Passes opened kind (Bracket.ofOpening kind :: opened) := by
  rcases h with rfl | rfl | rfl <;> exact ⟨nofun, nofun, nofun, rfl⟩

theorem closing (bracket : Bracket) :
    Passes (bracket :: opened) (.mark bracket.closing) opened := by
  cases bracket <;> exact ⟨nofun, nofun, nofun, rfl⟩

end Passes

/-! ## Slots -/

structure Slot.IsOwing (slot : Slot) : Prop where
  malformed : slot.kind = .malformed → ∃ diagnostic, slot.owed = some diagnostic ∧
    diagnostic.cause.phase = .lexical
  formed : slot.kind ≠ .malformed → slot.owed = none

structure Relocation.Tracks (place : Relocation) (token : Token) : Prop where
  aligned : place.Aligns token.span.start
  parts : token.kind = .operatorSymbol → ∀ bytes < token.value.utf8ByteSize,
    place.start (recorded (token.span.start + bytes)) =
        recorded (place.start token.span.start + bytes) ∧
      place.stop (recorded (token.span.start + bytes)) =
        recorded (place.start token.span.start + bytes)
  symbol : token.kind = .operatorSymbol → ∀ c ∈ token.value.toList, isOperatorChar c

/-! ## Shared parts -/

/-- Tokens that two runs have passed, the nearest first, those that are still ahead of both, and
what both have reported. -/
structure Shared where
  passed : List Slot
  ahead : List Slot
  reported : List Diagnostic

instance : Relocatable Shared where
  relocate place shared :=
    ⟨relocate place shared.passed, relocate place shared.ahead, relocate place shared.reported⟩

/-- What one of the runs has around the shared part. -/
structure Side where
  before : List Slot
  behind : List Slot
  reported : List Diagnostic
  followsEquation : Bool
  limit : Nat

def Side.state (side : Side) (shared : Shared) (table : OperatorTable) : ParseState :=
  { cursor := .ofSlots (shared.passed ++ side.before) (shared.ahead ++ side.behind)
    table
    reported := shared.reported ++ side.reported
    followsEquation := side.followsEquation
    limit := side.limit
    exhausted := false }

/-- How far the shared tokens reach. -/
inductive Extent where
  /-- To the end of the input. -/
  | all
  /-- To a semicolon, behind which nothing follows in the first run that could end a statement. -/
  | statements
  /-- To the first semicolon, at which no bracket is open. -/
  | statement
  deriving DecidableEq

def Extent.terminator : Extent → TokenKind
  | all => .endOfInput
  | statements | statement => .mark .semicolon

theorem Passes.ne_terminator {opened opened' : List Bracket} {kind : TokenKind}
    (h : Passes opened kind opened') (extent : Extent) : kind ≠ extent.terminator := by
  cases extent with
  | all => exact h.not_end
  | statements => exact h.not_semicolon
  | statement => exact h.not_semicolon

structure Shareable (place : Relocation) (extent : Extent) (ahead : List Slot) : Prop where
  terminated : ∀ last ∈ ahead.getLast?, last.kind = extent.terminator
  inside : ∀ token ∈ ahead.dropLast, token.kind ≠ .endOfInput
  tracked : ∀ token ∈ ahead, place.Tracks token.toToken
  owing : ∀ token ∈ ahead, token.IsOwing

theorem Shareable.tail {place : Relocation} {extent : Extent} {token : Slot} {rest : List Slot}
    (h : Shareable place extent (token :: rest)) : Shareable place extent rest where
  terminated last hlast := by
    refine h.terminated last ?_
    rw [List.getLast?_cons]
    exact congrArg (fun found => some (found.getD token)) hlast
  inside other hmem := by
    refine h.inside other ?_
    have hrest : rest ≠ [] := by
      rintro rfl
      cases hmem
    rw [List.dropLast_cons_of_ne_nil hrest]
    exact List.mem_cons_of_mem _ hmem
  tracked other hmem := h.tracked other (List.mem_cons_of_mem _ hmem)
  owing other hmem := h.owing other (List.mem_cons_of_mem _ hmem)

theorem Shareable.not_end {place : Relocation} {extent : Extent} {ahead : List Slot}
    (h : Shareable place extent ahead) (hextent : extent ≠ .all) :
    ∀ token ∈ ahead, token.kind ≠ .endOfInput := by
  intro token hmem
  have hne := List.ne_nil_of_mem hmem
  rw [← List.dropLast_concat_getLast hne, List.mem_append, List.mem_singleton] at hmem
  rcases hmem with hmem | rfl
  · exact h.inside token hmem
  · rw [h.terminated _ (List.getLast?_eq_some_getLast hne)]
    cases extent with
    | all => exact absurd rfl hextent
    | statements => exact nofun
    | statement => exact nofun

structure Coupling where
  place : Relocation
  extent : Extent
  first : Side
  second : Side
  /-- What the shared tokens owe. -/
  owed : List Diagnostic
  /-- What those of them owe that are passed at first. -/
  settled : List Diagnostic
  /-- What weight may be ahead. -/
  ceiling : Nat
  room : ceiling ≤ first.limit ∧ ceiling ≤ second.limit
  ends : extent = .statements → first.behind ≠ [] ∧ ∀ token ∈ first.behind, token.IsBarren

/-! ## Stages -/

/-- What is known in the course of a run. -/
structure Stage where
  /-- The weight of the tokens ahead is not more. -/
  weight : Nat
  opened : List Bracket := []
  /-- The kind of the current token. -/
  seen : Option TokenKind := none
  /-- The kind of the token behind the current one. -/
  next : Option TokenKind := none
  /-- The first run may have left the shared tokens. -/
  loose : Bool := false
  /-- Some of the tokens have been passed. -/
  moved : Bool := false
  assumes : Prop := True

namespace Stage

def fresh (stage : Stage) : Stage := { stage with seen := none, next := none }

def look (stage : Stage) (kind : TokenKind) : Stage := { stage with seen := some kind }

def lookBehind (stage : Stage) (kind : TokenKind) : Stage := { stage with next := some kind }

def pass (stage : Stage) : Stage :=
  { stage with weight := stage.weight - 1, seen := none, next := none, moved := true }

def passTo (stage : Stage) (opened : List Bracket) : Stage := { stage.pass with opened }

def loosen (stage : Stage) : Stage := { stage.fresh with loose := true }

def assume (stage : Stage) (fact : Prop) : Stage :=
  { stage with assumes := stage.assumes ∧ fact }

structure Entails (first second : Stage) : Prop where
  weight : first.weight ≤ second.weight
  opened : first.opened = second.opened
  seen : ∀ kind ∈ second.seen, first.assumes → kind ∈ first.seen
  next : ∀ kind ∈ second.next, kind ∈ first.next
  loose : first.loose → second.loose
  moved : second.moved → first.moved
  assumes : first.assumes → second.assumes

namespace Entails

variable {first second third : Stage}

theorem refl (stage : Stage) : Entails stage stage :=
  ⟨Nat.le_refl _, rfl, fun _ hseen _ => hseen, fun _ => id, id, id, id⟩

theorem trans (h : Entails first second) (h' : Entails second third) : Entails first third where
  weight := Nat.le_trans h.weight h'.weight
  opened := h.opened.trans h'.opened
  seen kind hseen hassumes := h.seen kind (h'.seen kind hseen (h.assumes hassumes)) hassumes
  next kind hnext := h.next kind (h'.next kind hnext)
  loose := h'.loose ∘ h.loose
  moved := h.moved ∘ h'.moved
  assumes := h'.assumes ∘ h.assumes

theorem freshened (h : Entails first second) : Entails first.fresh second.fresh :=
  ⟨h.weight, h.opened, nofun, nofun, h.loose, h.moved, h.assumes⟩

theorem looked (h : Entails first second) (kind : TokenKind) :
    Entails (first.look kind) second.fresh :=
  ⟨h.weight, h.opened, nofun, nofun, h.loose, h.moved, h.assumes⟩

/-- A loose stage says nothing about the tokens ahead but their weight. -/
theorem loosely (hweight : first.weight ≤ second.weight) (hopened : first.opened = second.opened)
    (hmoved : second.moved → first.moved) (hassumes : first.assumes → second.assumes) :
    Entails first second.loosen :=
  ⟨hweight, hopened, nofun, nofun, fun _ => rfl, hmoved, hassumes⟩

theorem loosen (h : Entails first second) : Entails first second.loosen :=
  loosely h.weight h.opened h.moved h.assumes

theorem loosened (h : Entails first second) : Entails first.loosen second.loosen :=
  loosely h.weight h.opened h.moved h.assumes

theorem passed (h : Entails first second) : Entails first.pass second.fresh :=
  ⟨Nat.le_trans (Nat.sub_le _ _) h.weight, h.opened, nofun, nofun, h.loose, fun _ => rfl,
    h.assumes⟩

theorem lighter (h : Entails first second) {weight : Nat} (hweight : weight ≤ first.weight) :
    Entails { first with weight } second :=
  ⟨Nat.le_trans hweight h.weight, h.opened, h.seen, h.next, h.loose, h.moved, h.assumes⟩

theorem assuming (h : Entails first second) {fact : Prop} (hfact : first.assumes → fact) :
    Entails first (second.assume fact) :=
  ⟨h.weight, h.opened, h.seen, h.next, h.loose, h.moved,
    fun hassumes => ⟨h.assumes hassumes, hfact hassumes⟩⟩

theorem assumed (h : Entails first second) (fact : Prop) : Entails (first.assume fact) second where
  weight := h.weight
  opened := h.opened
  seen kind hseen hassumes := h.seen kind hseen hassumes.1
  next := h.next
  loose := h.loose
  moved := h.moved
  assumes hassumes := h.assumes hassumes.1

end Entails

end Stage

/-! ## What holds of a shared part -/

namespace Coupling

variable (κ : Coupling)

structure Keeps (shared : Shared) : Prop extends
    Shareable κ.place κ.extent shared.ahead where
  owed : owedBy (shared.passed.reverse ++ shared.ahead) = κ.owed
  settled : owedBy shared.passed = κ.settled
  reported : ∀ diagnostic ∈ shared.reported, diagnostic.cause.phase ≠ .lexical
  weight_le_ceiling : totalWeight (tokensOf shared.ahead) ≤ κ.ceiling

/-- What holds as long as neither run has left the shared tokens. -/
structure Fits (stage : Stage) (shared : Shared) : Prop extends κ.Keeps shared where
  nonempty : shared.ahead ≠ []
  weight_le : totalWeight (tokensOf shared.ahead) ≤ stage.weight
  nested : κ.extent = .statement →
    nesting? stage.opened (shared.ahead.map (·.kind)) = some [] ∧
      ∀ token ∈ shared.ahead.dropLast, token.kind ≠ .mark .semicolon
  seen : ∀ kind ∈ stage.seen, shared.ahead.head?.map (·.kind) = some kind
  next : ∀ kind ∈ stage.next, shared.ahead[1]?.map (·.kind) = some kind
  moved : stage.moved → shared.passed ≠ []
  assumes : stage.assumes

/-- What holds when a diagnostic has stopped both runs: a lexical one has been taken from the
current token. -/
inductive Stops : Diagnostic → Shared → Prop where
  | raised {stage : Stage} {shared : Shared} {diagnostic : Diagnostic} (h : κ.Fits stage shared)
      (hphase : diagnostic.cause.phase ≠ .lexical) : Stops diagnostic shared
  | taken {stage : Stage} {passed rest : List Slot} {token : Slot} {reported : List Diagnostic}
      {diagnostic : Diagnostic} (h : κ.Fits stage ⟨passed, token :: rest, reported⟩)
      (hkind : token.kind = .malformed) (howed : token.owed = some diagnostic) :
      Stops diagnostic ⟨passed, { token with owed := none } :: rest, reported⟩

end Coupling

namespace Coupling

variable {κ : Coupling} {stage : Stage} {passed rest : List Slot} {token : Slot}
  {reported : List Diagnostic}

theorem Fits.entails {other : Stage} {shared : Shared} (h : κ.Fits stage shared)
    (hstage : stage.Entails other) : κ.Fits other shared where
  toKeeps := h.toKeeps
  nonempty := h.nonempty
  weight_le := Nat.le_trans h.weight_le hstage.weight
  nested hextent := hstage.opened ▸ h.nested hextent
  seen kind hseen := h.seen kind (hstage.seen kind hseen h.assumes)
  next kind hnext := h.next kind (hstage.next kind hnext)
  moved hmoved := h.moved (hstage.moved hmoved)
  assumes := hstage.assumes h.assumes

theorem Fits.look (h : κ.Fits stage ⟨passed, token :: rest, reported⟩) :
    κ.Fits (stage.look token.kind) ⟨passed, token :: rest, reported⟩ where
  toKeeps := h.toKeeps
  nonempty := h.nonempty
  weight_le := h.weight_le
  nested := h.nested
  seen kind hseen := by
    obtain rfl := Option.some.inj hseen
    rfl
  next := h.next
  moved := h.moved
  assumes := h.assumes

theorem Fits.lookBehind {next : Slot}
    (h : κ.Fits stage ⟨passed, token :: next :: rest, reported⟩) :
    κ.Fits (stage.lookBehind next.kind) ⟨passed, token :: next :: rest, reported⟩ where
  toKeeps := h.toKeeps
  nonempty := h.nonempty
  weight_le := h.weight_le
  nested := h.nested
  seen := h.seen
  next kind hnext := by
    obtain rfl := Option.some.inj hnext
    rfl
  moved := h.moved
  assumes := h.assumes

theorem Fits.assume {shared : Shared} {fact : Prop} (h : κ.Fits stage shared) (hfact : fact) :
    κ.Fits (stage.assume fact) shared where
  toKeeps := h.toKeeps
  nonempty := h.nonempty
  weight_le := h.weight_le
  nested := h.nested
  seen := h.seen
  next := h.next
  moved := h.moved
  assumes := ⟨h.assumes, hfact⟩

theorem Fits.kind_eq {kind : TokenKind} (h : κ.Fits stage ⟨passed, token :: rest, reported⟩)
    (hseen : stage.seen = some kind) : token.kind = kind :=
  Option.some.inj (h.seen kind hseen)

theorem Keeps.rest_ne_nil (h : κ.Keeps ⟨passed, token :: rest, reported⟩)
    (hkind : token.kind ≠ κ.extent.terminator) : rest ≠ [] := by
  rintro rfl
  exact hkind (h.terminated token rfl)

theorem tokenWeight_pos (token : Token) : 0 < tokenWeight token := by
  unfold tokenWeight
  omega

theorem Keeps.pass (h : κ.Keeps ⟨passed, token :: rest, reported⟩)
    (hformed : token.kind ≠ .malformed) : κ.Keeps ⟨token :: passed, rest, reported⟩ where
  toShareable := h.toShareable.tail
  owed := by simpa using h.owed
  settled := by
    have hnone := (h.owing token List.mem_cons_self).formed hformed
    rw [← h.settled]
    simp [owedBy, hnone]
  reported := h.reported
  weight_le_ceiling := by
    have hweight := h.weight_le_ceiling
    simp only [tokensOf_cons, totalWeight] at hweight ⊢
    omega

theorem Fits.pass {opened : List Bracket} (h : κ.Fits stage ⟨passed, token :: rest, reported⟩)
    (hrest : rest ≠ []) (hformed : token.kind ≠ .malformed)
    (hnesting : nestingStep stage.opened token.kind = some opened) :
    κ.Fits (stage.passTo opened) ⟨token :: passed, rest, reported⟩ where
  toKeeps := h.toKeeps.pass hformed
  nonempty := hrest
  weight_le := by
    have hweight := h.weight_le
    have hpos := tokenWeight_pos token.toToken
    simp only [tokensOf_cons, totalWeight, Stage.passTo, Stage.pass] at hweight ⊢
    omega
  nested hextent := by
    obtain ⟨hnested, hlast⟩ := h.nested hextent
    simp only [List.map_cons, nesting?, hnesting, Option.bind_some] at hnested
    simp only [List.dropLast_cons_of_ne_nil hrest, List.forall_mem_cons] at hlast
    exact ⟨hnested, hlast.2⟩
  seen := nofun
  next := nofun
  moved _ := List.cons_ne_nil token passed
  assumes := h.assumes

end Coupling

end Equational

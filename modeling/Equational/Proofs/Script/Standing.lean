import Equational.Proofs.Lexed.Composition
import Equational.Proofs.Result
import Equational.Proofs.Script.LaterText

/-!
# Statements stand

What is read behind a clean text that ends with a semicolon adds statements to it and diagnostics
behind it.  Only a clause without a left side can reach back to a statement that has been read, and
the first statement behind the text is none.
-/

namespace Equational

open Cursor Parse

/-! ## Positions between two bounds -/

/-- The position is recorded for an offset between two bounds.  This tells where something starts in
a text of any size; the position itself may be less, if it has been counted anew. -/
def RecordedIn (low high position : Nat) : Prop :=
  ∃ offset, low ≤ offset ∧ offset < high ∧ position = recorded offset

theorem RecordedIn.le_and_lt {low high position : Nat} (h : RecordedIn low high position)
    (hhigh : high ≤ positionCount) : low ≤ position ∧ position < high := by
  obtain ⟨offset, hlow, hoffset, rfl⟩ := h
  rw [recorded_of_lt (Nat.lt_of_lt_of_le hoffset hhigh)]
  exact ⟨hlow, hoffset⟩

open Classical in
/-- Starts are moved between two bounds unless they are there, and stops are left alone. -/
noncomputable def Relocation.within (low high : Nat) : Relocation where
  start position := if RecordedIn low high position then position else recorded low
  stop := id

theorem Relocation.within_of_recordedIn {low high position : Nat}
    (h : RecordedIn low high position) : (Relocation.within low high).start position = position :=
  if_pos h

theorem Relocation.recordedIn_within {low high : Nat} (h : low < high) (position : Nat) :
    RecordedIn low high ((Relocation.within low high).start position) := by
  unfold within
  dsimp only
  split
  · assumption
  · exact ⟨low, Nat.le_refl _, h, rfl⟩

namespace Slot

variable {slot : Slot} {low high : Nat}

theorem LiesIn.recordedIn_start (h : slot.LiesIn low high) :
    RecordedIn low high slot.span.start := by
  obtain ⟨start, stop, hlow, hhigh, hfills⟩ := h.fills
  rw [hfills.span]
  exact ⟨start, hlow, Nat.lt_of_lt_of_le hfills.nonempty hhigh, rfl⟩

theorem LiesIn.tracks_within (h : slot.LiesIn low high) :
    (Relocation.within low high).Tracks slot.toToken where
  aligned := (Relocation.within_of_recordedIn h.recordedIn_start).symm
  parts hkind bytes hbytes := by
    obtain ⟨start, stop, hlow, hhigh, hfills⟩ := h.fills
    have hroom := hfills.room hkind
    have hinside : RecordedIn low high (recorded (slot.span.start + bytes)) := by
      rw [hfills.span]
      exact ⟨start + bytes, by omega, by omega, recorded_recorded_add start bytes⟩
    rw [Relocation.within_of_recordedIn hinside, Relocation.within_of_recordedIn h.recordedIn_start]
    exact ⟨rfl, rfl⟩
  symbol := h.symbol

theorem IsLexed.relocate_eq (h : slot.IsLexed) {place : Relocation}
    (hspan : relocate place slot.span = slot.span) : relocate place slot = slot := by
  have howed : relocate place slot.owed = slot.owed := by
    rcases h.owed with ⟨hnone, -⟩ | ⟨-, cause, hsome, -⟩
    · rw [hnone]
      rfl
    · rw [hsome]
      exact congrArg (fun span => some (Diagnostic.mk cause span)) hspan
  change Slot.mk (Token.mk _ _ _ (relocate place slot.span)) (relocate place slot.owed) = slot
  rw [hspan, howed]

theorem LiesIn.relocate_within (h : slot.LiesIn low high) :
    relocate (Relocation.within low high) slot = slot :=
  h.relocate_eq (congrArg (Span.mk · _) (Relocation.within_of_recordedIn h.recordedIn_start))

theorem LiesIn.mono (h : slot.LiesIn low high) {stop : Nat} (hstop : high ≤ stop) :
    slot.LiesIn low stop := by
  obtain ⟨first, last, hlow, hhigh, hfills⟩ := h.fills
  exact ⟨h.toIsLexed, h.inside, first, last, hlow, Nat.le_trans hhigh hstop, hfills⟩

end Slot

theorem relocate_within_slots {slots : List Slot} {low high : Nat}
    (h : ∀ slot ∈ slots, slot.LiesIn low high) :
    relocate (Relocation.within low high) slots = slots := by
  have hfixed : slots.map (relocate (Relocation.within low high)) = slots.map id :=
    List.map_congr_left fun slot hmem => (h slot hmem).relocate_within
  rw [relocate_list, hfixed, List.map_id]

/-! ## Tokens to the end of the input -/

theorem relocate_toEnd {place : Relocation} {slots moved : List Slot}
    (h : relocate place slots = moved) {size size' : Nat} (hend : place.Aligns (recorded size))
    (hsize : place.start (recorded size) = recorded size') :
    relocate place (slots ++ [.endOfInput size]) = moved ++ [.endOfInput size'] := by
  have hspan : relocate place (Span.point (recorded size)) = Span.point (recorded size') :=
    congr (congrArg Span.mk hsize) (hend.trans hsize)
  rw [relocate_append, h]
  exact congrArg (fun span => moved ++ [(⟨⟨.endOfInput, "EOF", none, span⟩, none⟩ : Slot)]) hspan

/-! ## Diagnostics behind a text -/

section Behind

variable {progress : Progress} {before later : List Slot} {low size : Nat}
  (hcursor : progress.state.cursor = .ofSlots before (later ++ [.endOfInput size]))
  (hlies : ∀ slot ∈ later, slot.LiesIn low size) (hlow : low ≤ size)
  (hroom : totalWeight (tokensOf (later ++ [.endOfInput size])) ≤ progress.state.limit)
  (hrounds : progress.state.exhausted = false)

include hcursor hlies hlow hroom hrounds

private theorem abreast_within :
    Abreast (.alone (.within low (size + 1))
      ⟨before, [], progress.state.reported, progress.state.limit, progress.body⟩
      (owedBy (later ++ [.endOfInput size])) False)
      ⟨[], later ++ [.endOfInput size], []⟩ progress progress := by
  have hlies' (slot : Slot) (hmem : slot ∈ later) : slot.LiesIn low (size + 1) :=
    (hlies slot hmem).mono (Nat.le_succ size)
  have hsize : (Relocation.within low (size + 1)).start (recorded size) = recorded size :=
    Relocation.within_of_recordedIn ⟨size, hlow, Nat.lt_succ_self size, rfl⟩
  have hshareable := shareable_toEnd (fun slot hmem => (hlies' slot hmem).tracks_within) hsize.symm
    (fun slot hmem => (hlies slot hmem).inside) fun slot hmem => (hlies slot hmem).isOwing
  exact abreast_alone hcursor hshareable (by simp)
    (relocate_toEnd (relocate_within_slots hlies') hsize.symm hsize) hroom hrounds False.elim

/-- What a reading reports of the tokens ahead starts behind those it has passed. -/
theorem recordedIn_start_of_run (hreported : progress.state.reported = [])
    (howed : owedBy before = []) (rounds : Nat) :
    ∀ diagnostic ∈ finalDiagnostics .batch (progress.run .batch rounds).state,
      RecordedIn low (size + 1) diagnostic.span.start := by
  obtain ⟨next, hnext, -⟩ :=
    (abreast_within hcursor hlies hlow hroom hrounds).run_rounds rfl rounds
  intro diagnostic hmem
  rw [(finalDiagnostics_perm _).mem_iff, List.mem_append] at hmem
  rcases hmem with hmem | hmem
  · rw [hnext.second_reported] at hmem
    simp only [Framing.alone, hreported, List.append_nil, relocate_list, List.mem_map] at hmem
    obtain ⟨other, -, rfl⟩ := hmem
    exact Relocation.recordedIn_within (Nat.lt_succ_of_le hlow) _
  · -- The tokens ahead owed this one from the start.
    rw [hnext.first_cursor, values_of_ofSlots, List.reverse_append, List.append_assoc,
      owedBy_append, owedBy_reverse] at hmem
    simp only [Framing.alone, howed, List.append_nil, List.reverse_nil, List.nil_append] at hmem
    have hmem' := hnext.owed.mem_iff.mp (List.mem_append_right _ hmem)
    obtain ⟨slot, hslot, hdiagnostic⟩ := List.mem_filterMap.mp hmem'
    rcases List.mem_append.mp hslot with hslot | hslot
    · have hlies := hlies slot hslot
      rw [(hlies.span_of_owed hdiagnostic).1]
      exact (hlies.mono (Nat.le_succ size)).recordedIn_start
    · obtain rfl := List.mem_singleton.mp hslot
      cases hdiagnostic

end Behind

/-! ## Statements in front -/

/-- Some statements have been read, and none of them is going to take a further clause. -/
structure Stands (base : List Statement) (progress : Progress) : Prop where
  suffix : base <:+ progress.body
  closed : progress.body = base → progress.state.followsEquation = true →
    ¬beginsContinuation progress.state.cursor.current.kind

namespace Stands

variable {base : List Statement} {progress : Progress}

theorem of_longer (h : base <:+ progress.body) (hlonger : base.length < progress.body.length) :
    Stands base progress where
  suffix := h
  closed hsame := by
    rw [hsame] at hlonger
    exact absurd hlonger (Nat.lt_irrefl _)

theorem step (h : Stands base progress) : Stands base progress.step := by
  have hlength := h.suffix.length_le
  cases hstatement : Parse.statement progress.state with
  | error diagnostic state =>
    rw [progress.step_of_error hstatement]
    exact ⟨h.suffix, fun _ hfollows => by cases hfollows⟩
  | ok parsed state =>
    cases parsed with
    | statement statement =>
      rw [progress.step_of_statement hstatement]
      exact of_longer (h.suffix.trans (List.suffix_cons _ _)) (Nat.lt_succ_of_le hlength)
    | clause clause =>
      rw [progress.step_of_clause hstatement]
      obtain ⟨hbegins, hfollows⟩ := continues_of_clause hstatement
      have hne : base ≠ progress.body := fun hsame => h.closed hsame.symm hfollows hbegins
      -- The clause joins a statement in front of which the others stand.
      obtain ⟨front, hfront⟩ := h.suffix
      cases front with
      | nil => exact absurd hfront hne
      | cons last front =>
        have hbody : Progress.addClause clause progress.body =
            last.addClause clause :: (front ++ base) := by
          rw [← hfront]
          rfl
        refine of_longer ?_ ?_
        · exact ⟨last.addClause clause :: front, by simp [hbody]⟩
        · simp only [hbody, List.length_cons, List.length_append]
          omega

theorem run (h : Stands base progress) (rounds : Nat) : Stands base (progress.run .batch rounds) :=
  Progress.run_induction (Stands base) (fun _ => step) h .batch rounds

end Stands

/-! ## Joined texts -/

/-- A text, by itself, begins no clause that would continue the statement in front of it. -/
def BeginsAnew (text : String) : Prop :=
  ∀ lexed, Lexed.ofLaterText text = .ok lexed →
    ∀ token ∈ lexed.tokens.head?, ¬beginsContinuation token.kind

theorem BeginsAnew.of_kind {text : String} {lexed : Lexed} {kind : TokenKind}
    (h : Lexed.ofLaterText text = .ok lexed) (hhead : lexed.tokens.head?.map Token.kind = some kind)
    (hkind : ¬beginsContinuation kind) : BeginsAnew text := by
  intro found hfound token htoken
  obtain rfl := Except.ok.inj (h.symm.trans hfound)
  rw [htoken] at hhead
  rwa [← Option.some.inj hhead] at hkind

theorem BeginsAnew.head {distance : Nat} {text : String} {later : List Slot}
    (h : BeginsAnew text) (hlater : Lexed.LaterSlots distance text.toList later) (size : Nat) :
    ∀ slot ∈ (later ++ [Slot.endOfInput size]).head?, ¬beginsContinuation slot.kind := by
  obtain ⟨lexed, own, hlexed, hof, rfl⟩ := hlater.exists_ofLaterText
  have hhead := h lexed hlexed
  rw [hof.tokens] at hhead
  cases own with
  | nil => exact fun token htoken => by cases htoken; nofun
  | cons first rest =>
    rintro slot ⟨⟩
    exact hhead first.toToken rfl

private theorem Stands.take_reverse {base : List Statement} {progress : Progress}
    (h : Stands base progress) :
    progress.body.reverse.take base.reverse.length = base.reverse :=
  (List.prefix_iff_eq_take.mp (List.reverse_prefix.mpr h.suffix)).symm

def earlierStatements : String := "public (!+) A B @ 5;\nx = a !+ b;"

/-- Declares the same operator anew, and leaves an operand out. -/
def laterStatements : String := "public (!+) A B @ 7;\ny = a !+;"

end Equational

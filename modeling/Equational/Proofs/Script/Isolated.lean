import Equational.Proofs.Script.Standing

/-!
# Failed statements

A statement that fails leaves no trace but its diagnostics.  Whether its text stands between two
others or not, the statements around it are read alike, and the operator table is the same at the
end.
-/

namespace Equational

open Cursor Parse

/-! ## Further on -/

theorem Slot.IsLexed.tracks_shift {slot : Slot} (h : slot.IsLexed) (distance : Nat) :
    (Relocation.shift distance).Tracks slot.toToken where
  aligned := rfl
  parts _ bytes _ := by
    have hmoved : recorded (recorded (slot.span.start + bytes) + distance) =
        recorded (recorded (slot.span.start + distance) + bytes) := by
      rw [recorded_recorded_add, recorded_recorded_add, Nat.add_right_comm]
    exact ⟨hmoved, hmoved⟩
  symbol := h.symbol

theorem owedBy_relocate (place : Relocation) (slots : List Slot) :
    owedBy (relocate place slots) = relocate place (owedBy slots) := by
  rw [owedBy, relocate_list, List.filterMap_map, relocate_list, owedBy, List.map_filterMap]
  rfl

/-! ## A statement that fails -/

def Parse.Fails (state : ParseState) : Prop :=
  ∃ diagnostic final, statement state = .error diagnostic final

instance (state : ParseState) : Decidable (Fails state) :=
  match h : statement state with
  | .ok _ _ => isFalse fun ⟨_, _, hfails⟩ => by cases h.symm.trans hfails
  | .error diagnostic final => isTrue ⟨diagnostic, final, h⟩

/-- Properly nested, with its only semicolon at its end. -/
structure IsSingleStatement (kinds : List TokenKind) : Prop where
  nested : nesting? [] kinds = some []
  closed : kinds.getLast? = some (.mark .semicolon)
  single : .mark .semicolon ∉ kinds.dropLast

theorem IsSingleStatement.exists_last {slots : List Slot}
    (h : IsSingleStatement (slots.map (·.kind))) :
    ∃ front last, slots = front ++ [last] ∧ last.kind = .mark .semicolon ∧
      ∀ slot ∈ front, slot.kind ≠ .mark .semicolon := by
  have hclosed := h.closed
  rw [List.getLast?_map] at hclosed
  obtain ⟨last, hlast, hkind⟩ := Option.map_eq_some_iff.mp hclosed
  refine ⟨slots.dropLast, last, (List.dropLast_append_getLast? last hlast).symm, hkind, ?_⟩
  intro slot hmem hsemicolon
  have hsingle := h.single
  rw [← List.map_dropLast] at hsingle
  exact hsingle (List.mem_map.mpr ⟨slot, hmem, hsemicolon⟩)

structure Skipped (before : Progress) (passed rest : List Slot) (reported : List Diagnostic)
    (after : Progress) : Prop where
  cursor : after.state.cursor = .ofSlots passed rest
  reported : after.state.reported = reported ++ before.state.reported
  table : after.state.table = before.state.table
  follows : after.state.followsEquation = false
  limit : after.state.limit = before.state.limit
  exhausted : after.state.exhausted = false
  body : after.body = before.body

section Failing

variable {attempt progress : Progress} {passed middle rest last : List Slot} {low high : Nat}
  (hattempt : attempt.state.cursor = .ofSlots passed (middle ++ last))
  (hprogress : progress.state.cursor = .ofSlots passed (middle ++ rest))
  (htable : progress.state.table = attempt.state.table)
  (hfollows : attempt.state.followsEquation = progress.state.followsEquation)
  (hroom : totalWeight (tokensOf middle) ≤ attempt.state.limit ∧
    totalWeight (tokensOf middle) ≤ progress.state.limit)
  (hrounds : attempt.state.exhausted = false ∧ progress.state.exhausted = false)
  (hsingle : IsSingleStatement (middle.map (·.kind)))
  (hlies : ∀ slot ∈ middle, slot.LiesIn low high)

include hattempt hprogress htable hfollows hroom hrounds hsingle hlies

private theorem abreast_statement :
    Abreast
      { place := .within low high
        extent := .statement
        first := ⟨passed, last, attempt.state.reported, attempt.state.limit, attempt.body⟩
        second := ⟨passed, rest, progress.state.reported, progress.state.limit, progress.body⟩
        owed := owedBy middle
        alike := False
        ends := nofun }
      ⟨[], middle, []⟩ attempt progress where
  terminated slot hslot := by
    obtain ⟨front, semicolon, rfl, hkind, -⟩ := hsingle.exists_last
    rw [List.getLast?_concat] at hslot
    obtain rfl := Option.some.inj hslot
    exact hkind
  inside slot hmem := (hlies slot (List.dropLast_subset _ hmem)).inside
  tracked slot hmem := (hlies slot hmem).tracks_within
  owing slot hmem := (hlies slot hmem).isOwing
  first_cursor := hattempt
  second_cursor := by
    rw [hprogress]
    exact congrArg (fun ahead => Cursor.ofSlots passed (ahead ++ rest))
      (relocate_within_slots hlies).symm
  first_reported := rfl
  second_reported := rfl
  table := htable
  body := False.elim
  agree _ := hfollows
  reaches := nofun
  first_limit := rfl
  second_limit := rfl
  room := hroom
  first_rounds := hrounds.1
  second_rounds := hrounds.2
  owed := .refl _
  settled _ := rfl

theorem exists_skipped (hfails : Fails attempt.state) :
    ∃ skipped reported, Skipped progress (skipped ++ passed) rest reported progress.step ∧
      ∀ diagnostic ∈ reported ++ owedBy skipped, RecordedIn low high diagnostic.span.start := by
  have habreast := abreast_statement hattempt hprogress htable hfollows hroom hrounds hsingle hlies
  obtain ⟨front, semicolon, hmiddle, -, hfront⟩ := hsingle.exists_last
  have hahead : middle ≠ [] := by simp [hmiddle]
  have hbounds : low < high := by
    obtain ⟨start, stop, hlow, hhigh, hfills⟩ := (hlies semicolon (by simp [hmiddle])).fills
    have hnonempty := hfills.nonempty
    omega
  have hsteps := habreast.concluded hahead fun _ =>
    ⟨hsingle.nested, by rw [hmiddle, List.dropLast_concat]; exact hfront⟩
  obtain ⟨raised, stopped, hraised⟩ := hfails
  generalize hfirst : statement attempt.state = result at hsteps
  generalize hsecond : statement progress.state = result' at hsteps
  cases hsteps with
  | ok => cases hfirst.symm.trans hraised
  | lost hextent => cases hextent
  | error diagnostic shared table hstops =>
    obtain ⟨next, hnext, hleaves⟩ := habreast.step_of_error hstops hfirst hsecond
    have hstep := progress.step_of_error hsecond
    have hcursor := hnext.second_cursor
    rw [hleaves rfl] at hcursor
    refine ⟨relocate (Relocation.within low high) next.passed,
      relocate (Relocation.within low high) next.reported,
      ⟨hcursor, hnext.second_reported, ?_, ?_, hnext.second_limit, hnext.second_rounds, ?_⟩, ?_⟩
    · rw [hstep]
    · rw [hstep]
    · rw [hstep]
    · rw [owedBy_relocate, ← relocate_append]
      intro diagnostic hmem
      obtain ⟨other, -, rfl⟩ := List.mem_map.mp hmem
      exact Relocation.recordedIn_within hbounds _

end Failing

/-! ## The statements around it -/

structure ReadsOn (progress last : Progress) : Prop where
  room : totalWeight progress.state.cursor.ahead ≤ progress.state.limit
  exhausted : progress.state.exhausted = false
  run : ∃ rounds, totalWeight progress.state.cursor.ahead ≤ rounds ∧
    last = progress.run .batch rounds

private theorem totalWeight_relocate (place : Relocation) (tokens : List Token) :
    totalWeight (relocate place tokens) = totalWeight tokens := by
  induction tokens with
  | nil => rfl
  | cons token rest ih => exact congrArg (tokenWeight token + ·) ih

def Framing.further (distance : Nat) (before before' ahead : List Slot) (first second : Progress) :
    Framing where
  place := .shift distance
  extent := .all
  first := ⟨before, [], first.state.reported, first.state.limit, first.body⟩
  second := ⟨before', [], second.state.reported, second.state.limit, second.body⟩
  owed := owedBy ahead
  alike := True
  ends hextent := by cases hextent

section Further

variable {first second last last' : Progress} {before before' later moved : List Slot}
  {text : List Char} {offset distance size : Nat}

/-- Two readings of the same tokens, one of them further on, stay abreast to the end. -/
theorem abreast_further
    (hfirst : first.state.cursor = .ofSlots before (later ++ [.endOfInput size]))
    (hsecond : second.state.cursor = .ofSlots before' (moved ++ [.endOfInput (size + distance)]))
    (hlater : Lexed.LaterSlots offset text later)
    (hmoved : Lexed.LaterSlots (offset + distance) text moved)
    (htable : second.state.table = first.state.table)
    (hanew : ∀ slot ∈ (later ++ [Slot.endOfInput size]).head?, ¬beginsContinuation slot.kind)
    (hlast : ReadsOn first last) (hlast' : ReadsOn second last') :
    ∃ next, Abreast (.further distance before before' (later ++ [.endOfInput size]) first second)
      next last last' := by
  have hahead : relocate (Relocation.shift distance) (later ++ [Slot.endOfInput size]) =
      moved ++ [.endOfInput (size + distance)] :=
    relocate_toEnd (hlater.shift hmoved).symm rfl (recorded_recorded_add size distance)
  rw [← hahead] at hsecond
  obtain ⟨hroom, hrounds, count, hcount, rfl⟩ := hlast
  obtain ⟨hroom', hrounds', count', hcount', rfl⟩ := hlast'
  rw [hfirst] at hroom hcount
  rw [hsecond] at hroom' hcount'
  have hweight : totalWeight (tokensOf (relocate (Relocation.shift distance)
        (later ++ [Slot.endOfInput size]))) =
      totalWeight (tokensOf (later ++ [.endOfInput size])) := by
    rw [tokensOf_relocate, totalWeight_relocate]
  change totalWeight (tokensOf _) ≤ _ at hroom hcount hroom' hcount'
  rw [hweight] at hroom' hcount'
  have hstart : Abreast
      (.further distance before before' (later ++ [.endOfInput size]) first second)
      ⟨[], later ++ [.endOfInput size], []⟩ first second := {
    toShareable := shareable_toEnd
      (fun slot hmem => (hlater.liesIn slot hmem).toIsLexed.tracks_shift distance) rfl
      (fun slot hmem => (hlater.liesIn slot hmem).inside)
      fun slot hmem => (hlater.liesIn slot hmem).isOwing
    first_cursor := hfirst.trans (congrArg (Cursor.ofSlots before) (List.append_nil _).symm)
    second_cursor := hsecond.trans (congrArg (Cursor.ofSlots before') (List.append_nil _).symm)
    first_reported := rfl
    second_reported := rfl
    table := htable
    body := fun _ => ⟨[], rfl, rfl, fun _ => .inr fun _ => hanew⟩
    agree := fun ⟨slot, hslot, hbegins⟩ => absurd hbegins (hanew slot hslot)
    reaches := fun _ => by simp
    first_limit := rfl
    second_limit := rfl
    room := ⟨hroom, hroom'⟩
    first_rounds := hrounds
    second_rounds := hrounds'
    owed := .refl _
    settled := fun _ => rfl }
  obtain ⟨next, hnext, -⟩ := hstart.run_to_end rfl hcount hcount'
  exact ⟨next, hnext⟩

theorem finalDiagnostics_further {ahead : List Slot} {next : Shared}
    (h : Abreast (.further distance before before' ahead first second) next last last')
    (hreported : first.state.reported = []) (howed : owedBy before = []) :
    (finalDiagnostics .batch last'.state).Perm
      (relocate (Relocation.shift distance) (finalDiagnostics .batch last.state) ++
        (second.state.reported ++ owedBy before')) := by
  have hfirst := (finalDiagnostics_perm last.state).map (relocate (Relocation.shift distance))
  rw [h.first_reported, h.first_cursor, values_of_ofSlots] at hfirst
  have hsecond := finalDiagnostics_perm last'.state
  rw [h.second_reported, h.second_cursor, values_of_ofSlots] at hsecond
  simp only [Framing.further, hreported, howed, owedBy_append, owedBy_reverse, owedBy_relocate,
    List.append_nil, List.map_append, List.reverse_append, List.reverse_nil, List.nil_append]
    at hfirst hsecond
  refine hsecond.trans (.trans ?_ (hfirst.append_right _).symm)
  simp only [List.perm_iff_count, List.count_append, List.count_reverse, relocate_list,
    List.map_reverse]
  intro diagnostic
  omega

end Further

/-! ## Texts one behind another -/

private theorem kinds_of_laterSlots {distance : Nat} {text : String} {lexed : Lexed}
    {slots : List Slot} (h : Lexed.ofLaterText text = .ok lexed)
    (hslots : Lexed.LaterSlots distance text.toList slots) :
    lexed.proper.map Token.kind = slots.map (·.kind) := by
  have hlies := hslots.liesIn
  obtain ⟨found, own, hfound, hof, rfl⟩ := hslots.exists_ofLaterText
  obtain rfl := Except.ok.inj (h.symm.trans hfound)
  rw [hof.proper fun slot hmem => (hlies _ (List.mem_map_of_mem hmem)).inside, tokensOf,
    List.map_map, relocate_list, List.map_map]
  rfl

section Joined

variable {source middle more : String} {lexed attempted inner joined : Lexed} {unit : ParsedUnit}
  (h : Lexed.ofSource source = .ok lexed) (hunit : ParsedUnit.ofSource source {} = .ok unit)
  (hclean : unit.isClean) (hends : Progress.EndsStatement lexed)
  (hinner : Lexed.ofLaterText middle = .ok inner)
  (hsingle : IsSingleStatement (inner.proper.map Token.kind))
  (hattempted : Lexed.ofSource (source ++ "\n" ++ middle) = .ok attempted)
  (hfails : Fails (Progress.behind lexed attempted).state)
  (hjoined : Lexed.ofSource (source ++ "\n" ++ (middle ++ "\n" ++ more)) = .ok joined)

include h hunit hclean hends hinner hsingle hattempted hfails hjoined

private theorem exists_skipped_of_joined :
    ∃ moved passed skipped reported after, owedBy passed = [] ∧
      Lexed.LaterSlots (byteLength source.toList + 1 + (byteLength middle.toList + 1))
        more.toList moved ∧
      Skipped (Progress.behind lexed joined) (skipped ++ passed) (moved ++ [.endOfInput
        (byteLength source.toList + 1 + byteLength more.toList + (byteLength middle.toList + 1))])
        reported after ∧
      (∀ diagnostic ∈ reported ++ owedBy skipped, RecordedIn (byteLength source.toList + 1)
        (byteLength source.toList + 1 + byteLength middle.toList) diagnostic.span.start) ∧
      ReadsOn after (Progress.final joined) := by
  obtain ⟨slots, mid, hslots, hmid, hlies, hmidLater⟩ := Lexed.exists_slots_of_joined h hattempted
  obtain ⟨others, all, hothers, hall, -, hallLater⟩ := Lexed.exists_slots_of_joined h hjoined
  obtain rfl := List.append_cancel_right (hslots.unique hothers)
  have htext : (middle ++ "\n" ++ more).toList = middle.toList ++ '\n' :: more.toList := by simp
  rw [htext] at hallLater hall
  obtain ⟨moved, rfl, hmoved⟩ := hmidLater.exists_of_joined hallLater
  have hsize : byteLength source.toList + 1 + byteLength (middle.toList ++ '\n' :: more.toList) =
      byteLength source.toList + 1 + byteLength more.toList + (byteLength middle.toList + 1) := by
    have hlineEnd : '\n'.utf8Size = 1 := rfl
    rw [byteLength_append, byteLength_cons, hlineEnd]
    omega
  rw [hsize, List.append_assoc] at hall
  rw [kinds_of_laterSlots hinner hmidLater] at hsingle
  obtain ⟨rounds, hrounds, hfinal⟩ :=
    Progress.run_start_of_joined h hunit hclean hends hjoined ⟨hslots, hlies⟩ hall
  obtain ⟨passed, hpassed, howed⟩ := Progress.exists_passed h hunit hclean
  have hattempt := Progress.behind_cursor hslots hmid hpassed howed
  have hprogress := Progress.behind_cursor hslots hall hpassed howed
  have hroom : totalWeight (tokensOf mid) ≤ (Progress.behind lexed attempted).state.limit ∧
      totalWeight (tokensOf mid) ≤ (Progress.behind lexed joined).state.limit := by
    change totalWeight (tokensOf mid) ≤ (Progress.start attempted).state.limit ∧
      totalWeight (tokensOf mid) ≤ (Progress.start joined).state.limit
    rw [limit_start hattempted, limit_start hjoined, hmid.tokens, hall.tokens]
    simp only [tokensOf_append, totalWeight_append]
    omega
  have hexhausted : (Progress.behind lexed attempted).state.exhausted = false ∧
      (Progress.behind lexed joined).state.exhausted = false :=
    ⟨Progress.exhausted_final h, Progress.exhausted_final h⟩
  obtain ⟨skipped, reported, hskipped, hinside⟩ :=
    exists_skipped hattempt hprogress rfl rfl hroom hexhausted hsingle hmidLater.liesIn hfails
  obtain ⟨front, semicolon, hmiddle, -⟩ := hsingle.exists_last
  have hne : mid ≠ [] := by simp [hmiddle]
  have hpos := totalWeight_tokensOf_pos hne
  rw [tokensOf_append, totalWeight_append] at hrounds
  obtain ⟨rounds, rfl⟩ := Nat.exists_eq_succ_of_ne_zero (show rounds ≠ 0 by omega)
  have htokensAhead : (Progress.behind lexed joined).state.hasTokens = true := by
    obtain ⟨first, others, hfirst⟩ := List.exists_cons_of_ne_nil hne
    have hkind := (hmidLater.liesIn first (by simp [hfirst])).inside
    rw [ParseState.hasTokens, hprogress, hfirst]
    simpa [Cursor.current, Cursor.peek, Cursor.ofSlots] using hkind
  rw [Progress.run_of_hasTokens htokensAhead] at hfinal
  refine ⟨moved, passed, skipped, reported, _, howed, ?_, hskipped, hinside, ?_, hskipped.exhausted,
    rounds, ?_, hfinal⟩
  · rwa [← Nat.add_assoc]
  · rw [hskipped.limit, hskipped.cursor]
    change totalWeight (tokensOf _) ≤ (Progress.start joined).state.limit
    rw [limit_start hjoined, hall.tokens]
    simp only [tokensOf_append, totalWeight_append]
    omega
  · rw [hskipped.cursor]
    change totalWeight (tokensOf _) ≤ rounds
    omega

end Joined

/-! ## Results -/

/-- Two units have the same statements first.  The second one has the other statements of the first
one further on, the same table, and besides its diagnostics only some that start between two
bounds: at positions that are recorded for offsets there. -/
structure DiffersBy (kept : List Statement) (distance low high : Nat) (first second : ParsedUnit) :
    Prop where
  body : ∃ added, first.script.body = kept ++ added ∧
    second.script.body = kept ++ relocate (Relocation.shift distance) added
  table : second.table = first.table
  diagnostics : ∃ inside,
    second.diagnostics.Perm (relocate (Relocation.shift distance) first.diagnostics ++ inside) ∧
      ∀ diagnostic ∈ inside, RecordedIn low high diagnostic.span.start ∧
        (high ≤ positionCount → low ≤ diagnostic.span.start ∧ diagnostic.span.start < high)

def soundStatements : String := "public (!+) A B @ 5;\nx = 1;"

def failedStatement : String := "public (!+) A @ 3, q [r];"

def furtherStatements : String := "y = a !+ b;\nz = 08;"

end Equational

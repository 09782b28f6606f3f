import Equational.Proofs.Lexed.Joined
import Equational.Proofs.Script.Lexical

/-!
# Later text

Text behind a clean text that ends with a semicolon does not change how that text is read.  The
reading of the joined text comes to a state that is determined by the first text alone, but for the
tokens ahead; and from there on everything that is added begins behind the first text.
-/

namespace Equational

open Cursor Parse

/-! ## Entries from an index on -/

namespace DiagnosticMap

def rebase (errors : DiagnosticMap) (first index : Nat) : DiagnosticMap where
  entries := (errors.entries.filter (first ≤ ·.1)).map
    fun entry => (entry.1 - first + index, entry.2)
  ordered := by
    refine List.pairwise_map.mpr ((errors.ordered.filter _).imp_of_mem ?_)
    intro entry other hentry hother hlt
    have hfirst := of_decide_eq_true (List.mem_filter.mp hentry).2
    dsimp only
    omega

theorem entries_rebase_ofSlots (front rest : List Slot) (index : Nat) :
    ((ofSlots (front ++ rest)).rebase front.length index).entries = entriesFrom index rest := by
  have hsplit := entriesFrom_append 0 front rest
  rw [Nat.zero_add] at hsplit
  have hfront : (entriesFrom 0 front).filter (front.length ≤ ·.1) = [] :=
    List.filter_eq_nil_iff.mpr fun entry hmem => by
      have hkey := (key_of_mem_entriesFrom hmem).2
      simp only [decide_eq_true_eq]
      omega
  have hrest : (entriesFrom front.length rest).filter (front.length ≤ ·.1) =
      entriesFrom front.length rest :=
    List.filter_eq_self.mpr fun entry hmem => decide_eq_true (key_of_mem_entriesFrom hmem).1
  change ((entriesFrom 0 (front ++ rest)).filter _).map _ = _
  have hshift := entriesFrom_add 0 front.length rest
  have hindex := entriesFrom_add 0 index rest
  rw [Nat.zero_add] at hshift hindex
  rw [hsplit, List.filter_append, hfront, hrest, List.nil_append, hshift, hindex, List.map_map]
  exact List.map_congr_left fun entry _ => by simp

end DiagnosticMap

namespace Progress

/-! ## Ends of readings -/

def final (lexed : Lexed) : Progress := (start lexed).run .batch (start lexed).state.limit

theorem exists_lexed_of_unit {source : String} {unit : ParsedUnit} {options : ParseOptions}
    (h : ParsedUnit.ofSource source options = .ok unit) :
    ∃ lexed, Lexed.ofSource source = .ok lexed := by
  obtain ⟨lexed, -, hlexed, -⟩ := exists_shown_of_unit h
  exact ⟨lexed, hlexed⟩

theorem unit_eq_final {source : String} {lexed : Lexed} {unit : ParsedUnit}
    (h : Lexed.ofSource source = .ok lexed) (hunit : ParsedUnit.ofSource source {} = .ok unit) :
    unit.script.body = (final lexed).body.reverse ∧
      unit.diagnostics = finalDiagnostics .batch (final lexed).state ∧
      unit.table = (final lexed).state.table := by
  rw [ParsedUnit.ofSource, h] at hunit
  obtain rfl := Except.ok.inj hunit
  exact ⟨rfl, rfl, rfl⟩

section Clean

variable {source : String} {lexed : Lexed} {unit : ParsedUnit}
  (h : Lexed.ofSource source = .ok lexed) (hunit : ParsedUnit.ofSource source {} = .ok unit)
  (hclean : unit.isClean)

include h

theorem abreast_final :
    ∃ slots next, lexed.IsOf slots ∧
      Abreast (.ofStart lexed slots) next (final lexed) (final lexed) ∧
      ∀ token ∈ next.ahead.head?, token.kind = .endOfInput := by
  obtain ⟨slots, hof, -, hstart⟩ := abreast_start h
  have hrounds : totalWeight (tokensOf slots) ≤ (start lexed).state.limit :=
    hof.tokens ▸ limit_start h ▸ Nat.le_succ _
  obtain ⟨next, hnext⟩ := hstart.run_to_end rfl hrounds hrounds
  exact ⟨slots, next, hof, hnext⟩

theorem hasTokens_final : (final lexed).state.hasTokens = false := by
  obtain ⟨_, next, -, hnext, hend⟩ := abreast_final h
  exact (hnext.hasTokens_eq (hnext.reaches rfl)).2.mpr hend

theorem exhausted_final : (final lexed).state.exhausted = false := by
  obtain ⟨_, _, -, hnext, -⟩ := abreast_final h
  exact hnext.first_rounds

private theorem run_final (rounds : Nat) : (final lexed).run .batch rounds = final lexed :=
  run_of_not_hasTokens (hasTokens_final h) rounds

theorem run_rest (count : Nat) :
    ((start lexed).run .batch count).run .batch (start lexed).state.limit = final lexed := by
  rw [← run_add, Nat.add_comm, run_add]
  exact run_final h count

include hunit hclean

theorem reported_final : (final lexed).state.reported = [] ∧
    (final lexed).state.cursor.errors.values = [] := by
  have hnone : unit.diagnostics = [] := by
    simp only [ParsedUnit.isClean, Bool.and_eq_true, List.isEmpty_iff] at hclean
    exact hclean.1
  have hperm := finalDiagnostics_perm (final lexed).state
  rw [← (unit_eq_final h hunit).2.1, hnone, List.nil_perm] at hperm
  exact List.append_eq_nil_iff.mp hperm

theorem reported_run (count : Nat) : ((start lexed).run .batch count).state.reported = [] := by
  obtain ⟨slots, -, -, hstart⟩ := abreast_start h
  obtain ⟨next, hnext, -⟩ := hstart.run_rounds rfl count
  obtain ⟨last, hlast, hgrows⟩ := hnext.run_rounds rfl (start lexed).state.limit
  have hreported := hlast.first_reported
  rw [run_rest h, (reported_final h hunit hclean).1] at hreported
  have hempty : last.reported = [] := (List.append_eq_nil_iff.mp hreported.symm).1
  rw [hempty, List.suffix_nil] at hgrows
  rw [hnext.first_reported, hgrows]
  rfl

theorem exists_passed :
    ∃ passed, (final lexed).state.cursor.passed = tokensOf passed ∧ owedBy passed = [] := by
  obtain ⟨_, next, -, hnext, -⟩ := abreast_final h
  have hreported := hnext.first_reported.symm.trans (reported_final h hunit hclean).1
  refine ⟨next.passed, ?_, hnext.settled (List.append_eq_nil_iff.mp hreported).1⟩
  rw [hnext.first_cursor]
  exact congrArg tokensOf (List.append_nil next.passed)

end Clean

/-! ## Behind a text -/

/-- Behind all statements of a text, with those tokens of the joined text ahead that are not its
own. -/
def behind (lexed joined : Lexed) : Progress :=
  let passed := (final lexed).state.cursor.passed
  let own := lexed.tokens.length - 1
  ⟨{ (final lexed).state with
      cursor := ⟨passed, joined.tokens.drop own, joined.errors.rebase own passed.length⟩
      limit := (start joined).state.limit }, (final lexed).body⟩

/-- Behind the last semicolon comes nothing. -/
def EndsStatement (lexed : Lexed) : Prop :=
  ∀ last ∈ lexed.tokens.dropLast.getLast?, last.kind = .mark .semicolon

theorem EndsStatement.of_kind {lexed : Lexed}
    (h : lexed.tokens.dropLast.getLast?.map Token.kind = some (.mark .semicolon)) :
    EndsStatement lexed := by
  intro last hlast
  rw [hlast] at h
  exact Option.some.inj h

section Joined

variable {source more : String} {lexed joined : Lexed} {slots rest : List Slot}
  (h : Lexed.ofSource source = .ok lexed)
  (hjoined : Lexed.ofSource (source ++ "\n" ++ more) = .ok joined)
  (hslots : lexed.IsOf (slots ++ [.endOfInput (byteLength source.toList)]))
  (hall : joined.IsOf (slots ++ rest))

include hslots hall in
theorem behind_cursor {passed : List Slot}
    (hpassed : (final lexed).state.cursor.passed = tokensOf passed) (howed : owedBy passed = []) :
    (behind lexed joined).state.cursor = .ofSlots passed rest := by
  have hown : lexed.tokens.length - 1 = slots.length := by simp [hslots.tokens, tokensOf]
  have hahead : joined.tokens.drop slots.length = tokensOf rest := by
    simp [hall.tokens, tokensOf]
  have hreversed : owedBy passed.reverse = [] := by rw [owedBy_reverse, howed, List.reverse_nil]
  have herrors : joined.errors.rebase slots.length (tokensOf passed).length =
      .ofSlots (passed.reverse ++ rest) := by
    refine DiagnosticMap.ext ?_
    have hbehind := DiagnosticMap.entriesFrom_append 0 passed.reverse rest
    rw [DiagnosticMap.entriesFrom_of_owedBy_eq_nil hreversed, List.nil_append, Nat.zero_add,
      List.length_reverse] at hbehind
    rw [hall.errors, DiagnosticMap.entries_rebase_ofSlots, tokensOf, List.length_map]
    exact hbehind.symm
  simp only [behind, hpassed, hown, hahead, herrors]
  rfl

def frameOfJoined (source : String) (lexed joined : Lexed) (slots rest : List Slot) :
    Framing where
  place := .still
  extent := .statements
  first := ⟨[], [.endOfInput (byteLength source.toList)], [], totalWeight lexed.tokens + 1, []⟩
  second := ⟨[], rest, [], totalWeight joined.tokens + 1, []⟩
  owed := owedBy slots
  alike := True
  ends _ :=
    ⟨List.cons_ne_nil _ _,
      List.forall_mem_singleton.mpr ⟨nofun, (by decide : ';' ∉ "EOF".toList)⟩⟩

include h hjoined hslots hall

theorem abreast_start_of_joined (hends : EndsStatement lexed)
    (hlies : ∀ slot ∈ slots, slot.LiesIn 0 (byteLength source.toList)) :
    Abreast (frameOfJoined source lexed joined slots rest) ⟨[], slots, []⟩ (start lexed)
      (start joined) where
  terminated last hlast := by
    refine hends last.toToken ?_
    rw [hslots.tokens, tokensOf, List.map_append, List.map_singleton, List.dropLast_concat,
      List.getLast?_map]
    exact Option.mem_map_of_mem _ hlast
  inside slot hmem := (hlies slot (List.dropLast_subset _ hmem)).inside
  tracked slot hmem := tracks_still (hlies slot hmem).toIsLexed
  owing slot hmem := (hlies slot hmem).toIsLexed.isOwing
  first_cursor := hslots.cursor_start h
  second_cursor := by
    rw [hall.cursor_start hjoined]
    exact congrArg (fun ahead => Cursor.ofSlots [] (ahead ++ rest))
      (relocate_still_slots slots).symm
  first_reported := rfl
  second_reported := rfl
  table := rfl
  body _ := ⟨[], rfl, rfl, fun _ => .inl ⟨rfl, rfl⟩⟩
  agree _ := rfl
  reaches := nofun
  first_limit := limit_start h
  second_limit := limit_start hjoined
  room := by
    simp only [frameOfJoined, hslots.tokens, hall.tokens, tokensOf_append, totalWeight_append]
    omega
  first_rounds := rfl
  second_rounds := rfl
  owed := .refl _
  settled _ := rfl

omit h hjoined hslots hall in
private theorem cursor_of_joined {next : Shared} {first second : Progress}
    (hnext : Abreast (frameOfJoined source lexed joined slots rest) next first second)
    (hahead : next.ahead = []) : second.state.cursor = .ofSlots next.passed rest := by
  have hcursor := hnext.second_cursor
  have hpassed : relocate Relocation.still next.passed ++ [] = next.passed :=
    (List.append_nil _).trans (relocate_still_slots _)
  rw [hahead] at hcursor
  exact hcursor.trans (congrArg (Cursor.ofSlots · rest) hpassed)

private theorem eq_behind {next : Shared} {second : Progress}
    (hreported : (final lexed).state.reported = [])
    (hnext : Abreast (frameOfJoined source lexed joined slots rest) next (final lexed) second)
    (hahead : next.ahead = [])
    (hagrees : (final lexed).state.followsEquation = second.state.followsEquation) :
    second = behind lexed joined := by
  obtain ⟨_, _, -, hstill, -⟩ := abreast_final h
  have hnone : next.reported = [] := by
    rw [hnext.first_reported] at hreported
    exact (List.append_eq_nil_iff.mp hreported).1
  have hpassed : (final lexed).state.cursor.passed = tokensOf next.passed := by
    rw [hnext.first_cursor]
    exact congrArg tokensOf (List.append_nil next.passed)
  have hcursor : second.state.cursor = (behind lexed joined).state.cursor :=
    (cursor_of_joined hnext hahead).trans
      (behind_cursor hslots hall hpassed (hnext.settled hnone)).symm
  have hsecond : second.state.reported = (final lexed).state.reported := by
    rw [hreported, hnext.second_reported, hnone]
    rfl
  have hlimit : second.state.limit = (behind lexed joined).state.limit :=
    hnext.second_limit.trans (limit_start hjoined).symm
  have hrounds : second.state.exhausted = (final lexed).state.exhausted :=
    hnext.second_rounds.trans hnext.first_rounds.symm
  have hbody : second.body = (final lexed).body :=
    (hnext.body_eq trivial ⟨rfl, rfl⟩).trans (hstill.body_eq trivial ⟨rfl, rfl⟩).symm
  have htable := hnext.table
  obtain ⟨⟨cursor, table, reported, follows, limit, exhausted⟩, body⟩ := second
  simp only at hcursor htable hsecond hagrees hlimit hrounds hbody
  subst hcursor htable hsecond hagrees hlimit hrounds hbody
  rfl

end Joined

/-- The reading of a joined text comes behind the first text in the state in which the reading of
that text ends. -/
theorem run_start_of_joined {source more : String} {lexed joined : Lexed} {unit : ParsedUnit}
    {slots rest : List Slot} (h : Lexed.ofSource source = .ok lexed)
    (hunit : ParsedUnit.ofSource source {} = .ok unit) (hclean : unit.isClean)
    (hends : EndsStatement lexed)
    (hjoined : Lexed.ofSource (source ++ "\n" ++ more) = .ok joined)
    (hslots : lexed.HasSlots source slots) (hall : joined.IsOf (slots ++ rest)) :
    ∃ rounds, totalWeight (tokensOf rest) ≤ rounds ∧
      final joined = (behind lexed joined).run .batch rounds := by
  have habreast := abreast_start_of_joined h hjoined hslots.toIsOf hall hends hslots.lies
  have hrounds : totalWeight (tokensOf slots) ≤ (start lexed).state.limit := by
    rw [limit_start h, hslots.tokens, tokensOf_append, totalWeight_append]
    omega
  have hrounds' : totalWeight (tokensOf slots) + totalWeight (tokensOf rest) ≤
      (start joined).state.limit := by
    rw [limit_start hjoined, hall.tokens, tokensOf_append, totalWeight_append]
    exact Nat.le_succ _
  obtain ⟨next, second, rounds, hnext, hagrees, hahead, hleft, hrun⟩ :=
    habreast.run_statements rfl rfl rfl rfl hrounds hrounds' (reported_run h hunit hclean)
  have hreported := (reported_final h hunit hclean).1
  obtain rfl := eq_behind h hjoined hslots.toIsOf hall hreported hnext hahead hagrees
  exact ⟨rounds, hleft, hrun⟩

end Progress

end Equational

import Equational.Proofs.Parse.Skipping
import Equational.Proofs.Script.Reading
import Equational.Proofs.Statement.Concluded

/-!
# Readings abreast

Two readings of statements go abreast over the tokens that they share: after each step they have
added the same statements and diagnostics, up to their place, under the same table.  A statement
that fails is skipped in both, up to the same semicolon.

On the way no lexical diagnostic is lost: what has been reported and what the tokens still owe add
up to what they owed at first.
-/

namespace Equational

open Cursor Parse

/-! ## Lexical diagnostics -/

def lexicalOnes (diagnostics : List Diagnostic) : List Diagnostic :=
  diagnostics.filter (·.cause.phase = .lexical)

theorem lexicalOnes_append (first second : List Diagnostic) :
    lexicalOnes (first ++ second) = lexicalOnes first ++ lexicalOnes second :=
  List.filter_append _ _

theorem lexicalOnes_eq_nil {diagnostics : List Diagnostic}
    (h : ∀ diagnostic ∈ diagnostics, diagnostic.cause.phase ≠ .lexical) :
    lexicalOnes diagnostics = [] := by
  simpa [lexicalOnes, List.filter_eq_nil_iff] using h

/-! ## Stopped statements -/

namespace Shareable

variable {place : Relocation} {extent : Extent}

theorem suffix {skipped rest : List Slot} (h : Shareable place extent (skipped ++ rest)) :
    Shareable place extent rest := by
  induction skipped with
  | nil => exact h
  | cons token skipped ih => exact ih h.tail

theorem stops_skipping {skipped rest : List Slot} (h : Shareable place extent (skipped ++ rest))
    (hne : skipped ++ rest ≠ []) (hskips : Skips (skipped.map (·.kind)) (rest.map (·.kind))) :
    (skipped.map (·.kind)).getLast? = some (.mark .semicolon) ∨ rest.map (·.kind) ≠ [] := by
  by_cases hrest : rest = []
  · subst hrest
    rw [List.append_nil] at h hne
    have hlast := List.getLast?_eq_some_getLast hne
    have hkind := h.terminated _ hlast
    have hinside := hskips.inside _ (List.mem_map_of_mem (List.getLast_mem hne))
    rw [List.getLast?_map, hlast]
    cases extent with
    | all => exact absurd hkind hinside
    | statements | statement => exact .inl (congrArg some hkind)
  · exact .inr (mt List.map_eq_nil_iff.mp hrest)

end Shareable

private theorem totalWeight_pos {tokens : List Token} (h : tokens ≠ []) :
    0 < totalWeight tokens := by
  obtain ⟨token, rest, rfl⟩ := List.exists_cons_of_ne_nil h
  have hpos := Coupling.tokenWeight_pos token
  rw [totalWeight]
  omega

theorem totalWeight_tokensOf_pos {slots : List Slot} (h : slots ≠ []) :
    0 < totalWeight (tokensOf slots) :=
  totalWeight_pos (mt List.map_eq_nil_iff.mp h)

/-- What is left where both runs have been stopped and the statement has been skipped. -/
structure Coupling.Leaves (κ : Coupling) (diagnostic : Diagnostic) (passed ahead : List Slot) :
    Prop where
  shareable : Shareable κ.place κ.extent ahead
  reaches : κ.extent = .all → ahead ≠ []
  weight_le : totalWeight (tokensOf ahead) ≤ κ.ceiling
  progress : totalWeight (tokensOf ahead) < κ.ceiling ∨
    ∀ token ∈ ahead.head?, token.kind = .endOfInput
  leaves : κ.extent = .statement → ahead = []
  owed : (lexicalOnes [diagnostic] ++ owedBy (passed.reverse ++ ahead)).Perm κ.owed

namespace Coupling

variable {κ : Coupling}

theorem leaves_of_skips {diagnostic : Diagnostic} {passed skipped rest : List Slot}
    (h : Shareable κ.place κ.extent (skipped ++ rest)) (hne : skipped ++ rest ≠ [])
    (hskips : Skips (skipped.map (·.kind)) (rest.map (·.kind)))
    (hsingle : κ.extent = .statement →
      ∀ token ∈ (skipped ++ rest).dropLast, token.kind ≠ .mark .semicolon)
    (hweight : totalWeight (tokensOf (skipped ++ rest)) ≤ κ.ceiling)
    (howed : (lexicalOnes [diagnostic] ++ owedBy (passed.reverse ++ (skipped ++ rest))).Perm
      κ.owed) : κ.Leaves diagnostic (skipped.reverse ++ passed) rest := by
  rw [tokensOf_append, totalWeight_append] at hweight
  refine ⟨h.suffix, fun hextent => ?_, by omega, ?_, fun hextent => ?_, by simpa using howed⟩
  · have hstops := h.stops_skipping hne hskips
    rw [hextent] at h
    rintro rfl
    rw [List.append_nil] at h hne
    have hlast := h.terminated _ (List.getLast?_eq_some_getLast hne)
    exact hskips.inside _ (List.mem_map_of_mem (List.getLast_mem hne)) hlast
  · rcases hskips.ne_nil_or_head with hskipped | hend
    · have hpos := totalWeight_tokensOf_pos hskipped
      exact .inl (by omega)
    · exact .inr hend
  · -- There is no end of the input, and no semicolon but the last token.
    by_contra hrest
    rcases hskips.eq_concat_or_head with ⟨front, last, rfl, hlast⟩ | hend
    · refine hsingle hextent last ?_ hlast
      rw [List.dropLast_append_of_ne_nil hrest]
      simp
    · obtain ⟨first, others, rfl⟩ := List.exists_cons_of_ne_nil hrest
      have hmem : first ∈ skipped ++ first :: others :=
        List.mem_append_right _ List.mem_cons_self
      exact h.not_end (by rw [hextent]; nofun) first hmem (hend first rfl)

theorem Stops.leaves {diagnostic : Diagnostic} {shared : Shared}
    (h : κ.Stops diagnostic shared) :
    ∃ skipped rest, shared.ahead = skipped ++ rest ∧
      Skips (skipped.map (·.kind)) (rest.map (·.kind)) ∧
      ((skipped.map (·.kind)).getLast? = some (.mark .semicolon) ∨ rest.map (·.kind) ≠ []) ∧
      (∀ other ∈ shared.reported, other.cause.phase ≠ .lexical) ∧
      κ.Leaves diagnostic (skipped.reverse ++ shared.passed) rest := by
  cases h with
  | raised h hphase =>
    obtain ⟨passed, ahead, reported⟩ := shared
    obtain ⟨skipped, rest, rfl, hskips⟩ := exists_skips (·.kind) ahead
    refine ⟨skipped, rest, rfl, hskips, h.stops_skipping h.nonempty hskips, h.reported, ?_⟩
    refine leaves_of_skips h.toShareable h.nonempty hskips (fun hextent => (h.nested hextent).2)
      h.weight_le_ceiling ?_
    rw [lexicalOnes_eq_nil (List.forall_mem_singleton.mpr hphase), List.nil_append, h.owed]
  | @taken stage passed rest token reported diagnostic h hkind howed =>
    -- The token that has given its diagnostic is skipped first.
    have hne : rest ≠ [] := h.rest_ne_nil (by rw [hkind]; cases κ.extent <;> nofun)
    obtain ⟨skipped, rest, rfl, hskips⟩ := exists_skips (·.kind) rest
    have hstops := h.tail.stops_skipping hne hskips
    refine ⟨{ token with owed := none } :: skipped, rest, rfl, ?_, ?_, h.reported, ?_⟩
    · exact .pass (by simp [hkind]) (by simp [hkind]) hskips
    · refine hstops.imp_left fun hlast => ?_
      rw [List.map_cons, List.getLast?_cons, hlast]
      rfl
    rw [List.reverse_cons, List.append_assoc]
    refine leaves_of_skips h.tail hne hskips (fun hextent => ?_) ?_ ?_
    · have hsingle := (h.nested hextent).2
      rw [List.dropLast_cons_of_ne_nil hne] at hsingle
      exact (List.forall_mem_cons.mp hsingle).2
    · have hweight := h.weight_le_ceiling
      rw [tokensOf_cons, totalWeight] at hweight
      omega
    · obtain ⟨_, howed', hphase⟩ := (h.owing token List.mem_cons_self).malformed hkind
      obtain rfl := Option.some.inj (howed.symm.trans howed')
      rw [← h.owed]
      simpa [lexicalOnes, owedBy, hphase, howed] using List.perm_middle.symm

end Coupling

/-! ## Steps -/

theorem Parse.continues_of_clause {state final : ParseState} {clause : Clause}
    (h : statement state = .ok (.clause clause) final) :
    beginsContinuation state.cursor.current.kind ∧ state.followsEquation = true := by
  have hstatement {state : ParseState} {step : Parse Statement} :
      (do return Parsed.statement (← step)) state ≠ .ok (.clause clause) final := by
    intro hstep
    obtain ⟨_, _, -, hpure⟩ := bind_eq_ok_iff.mp hstep
    cases hpure
  have hfollows (hclause : (do return Parsed.clause (← continuation)) state =
      .ok (.clause clause) final) : state.followsEquation = true := by
    obtain ⟨_, _, hcontinuation, -⟩ := bind_eq_ok_iff.mp hclause
    by_contra horphan
    obtain ⟨_, _, hget, hthrow⟩ := bind_eq_ok_iff.mp hcontinuation
    cases hget
    rw [if_neg horphan] at hthrow
    cases hthrow
  obtain ⟨kind, middle, hkind, hrest⟩ := bind_eq_ok_iff.mp h
  cases hkind
  generalize state.cursor.current.kind = kind at hrest ⊢
  split at hrest
  iterate 7 exact absurd hrest hstatement
  · obtain ⟨start, middle, -, hrest⟩ := bind_eq_ok_iff.mp hrest
    exact absurd hrest hstatement
  iterate 6 exact absurd hrest hstatement
  iterate 4 exact ⟨rfl, hfollows hrest⟩
  · exact absurd hrest hstatement

/-! ## Two readings -/

/-- What one of the readings has around the shared tokens, and what it had reported and read
before. -/
structure Surroundings where
  before : List Slot
  behind : List Slot
  reported : List Diagnostic
  limit : Nat
  body : List Statement

/-- Two readings with shared tokens. -/
structure Framing where
  place : Relocation
  extent : Extent
  first : Surroundings
  second : Surroundings
  /-- What the shared tokens owed at first. -/
  owed : List Diagnostic
  /-- The statements are compared as well. -/
  alike : Prop
  ends : extent = .statements → first.behind ≠ [] ∧ ∀ token ∈ first.behind, token.IsBarren

/-- Both readings have added the same statements to those they had, and no clause can reach back to
those any more. -/
structure Framing.Adds (frame : Framing) (ahead : List Slot) (first second : Progress)
    (added : List Statement) : Prop where
  first_body : first.body = added ++ frame.first.body
  second_body : second.body = relocate frame.place added ++ frame.second.body
  closed : added = [] → frame.first.body = [] ∧ frame.second.body = [] ∨
    (first.state.followsEquation = true →
      ∀ token ∈ ahead.head?, ¬beginsContinuation token.kind)

structure Abreast (frame : Framing) (shared : Shared) (first second : Progress) : Prop extends
    Shareable frame.place frame.extent shared.ahead where
  first_cursor : first.state.cursor =
    .ofSlots (shared.passed ++ frame.first.before) (shared.ahead ++ frame.first.behind)
  second_cursor : second.state.cursor =
    .ofSlots (relocate frame.place shared.passed ++ frame.second.before)
      (relocate frame.place shared.ahead ++ frame.second.behind)
  first_reported : first.state.reported = shared.reported ++ frame.first.reported
  second_reported : second.state.reported =
    relocate frame.place shared.reported ++ frame.second.reported
  table : second.state.table = first.state.table
  body : frame.alike → ∃ added, frame.Adds shared.ahead first second added
  agree : (∃ token ∈ shared.ahead.head?, beginsContinuation token.kind) →
    first.state.followsEquation = second.state.followsEquation
  reaches : frame.extent = .all → shared.ahead ≠ []
  first_limit : first.state.limit = frame.first.limit
  second_limit : second.state.limit = frame.second.limit
  room : totalWeight (tokensOf shared.ahead) ≤ frame.first.limit ∧
    totalWeight (tokensOf shared.ahead) ≤ frame.second.limit
  /-- No loop has run out of rounds. -/
  first_rounds : first.state.exhausted = false
  second_rounds : second.state.exhausted = false
  owed : (lexicalOnes shared.reported ++ owedBy (shared.passed.reverse ++ shared.ahead)).Perm
    frame.owed
  /-- A statement that succeeds passes no malformed token. -/
  settled : shared.reported = [] → owedBy shared.passed = []

namespace Abreast

variable {frame : Framing} {shared : Shared} {first second : Progress}

def coupling (h : Abreast frame shared first second) : Coupling where
  place := frame.place
  extent := frame.extent
  first := {
    before := frame.first.before
    behind := frame.first.behind
    reported := first.state.reported
    followsEquation := first.state.followsEquation
    limit := first.state.limit }
  second := {
    before := frame.second.before
    behind := frame.second.behind
    reported := second.state.reported
    followsEquation := second.state.followsEquation
    limit := second.state.limit }
  owed := owedBy (shared.passed.reverse ++ shared.ahead)
  settled := owedBy shared.passed
  ceiling := totalWeight (tokensOf shared.ahead)
  room := by
    rw [h.first_limit, h.second_limit]
    exact h.room
  ends := frame.ends

def fresh (shared : Shared) : Shared := { shared with reported := [] }

theorem first_state (h : Abreast frame shared first second) :
    first.state = h.coupling.first.state (fresh shared) first.state.table :=
  congr (congrArg (fun cursor exhausted => { first.state with cursor, exhausted }) h.first_cursor)
    h.first_rounds

theorem second_state (h : Abreast frame shared first second) :
    second.state =
      h.coupling.second.state (relocate frame.place (fresh shared)) first.state.table :=
  congr (congr (congrArg (fun cursor table exhausted =>
    { second.state with cursor, table, exhausted }) h.second_cursor) h.table) h.second_rounds

def IsNested (frame : Framing) (ahead : List Slot) : Prop :=
  frame.extent = .statement → nesting? [] (ahead.map (·.kind)) = some [] ∧
    ∀ token ∈ ahead.dropLast, token.kind ≠ .mark .semicolon

theorem fits (h : Abreast frame shared first second) {token : Slot} {rest : List Slot}
    (hahead : shared.ahead = token :: rest) (hnested : IsNested frame shared.ahead) :
    h.coupling.Fits (Stage.look { weight := totalWeight (tokensOf shared.ahead) } token.kind)
      (fresh shared) where
  toShareable := h.toShareable
  owed := rfl
  settled := rfl
  reported := List.forall_mem_nil _
  weight_le_ceiling := Nat.le_refl _
  nonempty := by
    rw [fresh, hahead]
    exact List.cons_ne_nil _ _
  weight_le := Nat.le_refl _
  nested := hnested
  seen kind hseen := by
    obtain rfl := Option.some.inj hseen
    rw [fresh, hahead]
    rfl
  next := nofun
  moved := nofun
  assumes := trivial

theorem concluded (h : Abreast frame shared first second) (hahead : shared.ahead ≠ [])
    (hnested : IsNested frame shared.ahead) :
    Concluded h.coupling (totalWeight (tokensOf shared.ahead) - 1) (statement first.state)
      (statement second.state) := by
  obtain ⟨token, rest, htokens⟩ := List.exists_cons_of_ne_nil hahead
  have hfollows (hbegins : beginsContinuation token.kind) :
      first.state.followsEquation = second.state.followsEquation :=
    h.agree ⟨token, by rw [htokens]; rfl, hbegins⟩
  have hconcludes : Concludes h.coupling (totalWeight (tokensOf shared.ahead) - 1)
      (Stage.look { weight := totalWeight (tokensOf shared.ahead) } token.kind) statement
      statement :=
    concludes_statement rfl (Nat.le_add_of_sub_le (Nat.le_refl _)) hfollows
  have hsteps := hconcludes.shared _ first.state.table (h.fits htokens hnested)
  have hsecond := h.second_state
  change _ = h.coupling.second.state (relocate h.coupling.place (fresh shared)) _ at hsecond
  rwa [← h.first_state, ← hsecond] at hsteps

theorem advance (h : Abreast frame shared first second) {first' second' : Progress}
    {passed ahead : List Slot} {reported : List Diagnostic}
    (hshareable : Shareable frame.place frame.extent ahead)
    (hreaches : frame.extent = .all → ahead ≠ [])
    (hweight : totalWeight (tokensOf ahead) ≤ totalWeight (tokensOf shared.ahead))
    (hcursor : first'.state.cursor =
      .ofSlots (passed ++ frame.first.before) (ahead ++ frame.first.behind))
    (hcursor' : second'.state.cursor =
      .ofSlots (relocate frame.place passed ++ frame.second.before)
        (relocate frame.place ahead ++ frame.second.behind))
    (hreported : first'.state.reported = reported ++ first.state.reported)
    (hreported' : second'.state.reported = relocate frame.place reported ++ second.state.reported)
    (hlimit : first'.state.limit = first.state.limit)
    (hlimit' : second'.state.limit = second.state.limit)
    (hrounds : first'.state.exhausted = false) (hrounds' : second'.state.exhausted = false)
    (htable : second'.state.table = first'.state.table)
    (hbody : frame.alike → ∃ added, frame.Adds ahead first' second' added)
    (hagree : first'.state.followsEquation = second'.state.followsEquation)
    (howed : (lexicalOnes reported ++ owedBy (passed.reverse ++ ahead)).Perm
      (owedBy (shared.passed.reverse ++ shared.ahead)))
    (hsettled : reported = [] → owedBy passed = owedBy shared.passed) :
    Abreast frame ⟨passed, ahead, reported ++ shared.reported⟩ first' second' where
  toShareable := hshareable
  first_cursor := hcursor
  second_cursor := hcursor'
  first_reported := by rw [hreported, h.first_reported, List.append_assoc]
  second_reported := by
    rw [hreported', h.second_reported, ← List.append_assoc, relocate_list, relocate_list,
      relocate_list, List.map_append]
  table := htable
  body := hbody
  agree _ := hagree
  reaches := hreaches
  first_limit := hlimit.trans h.first_limit
  second_limit := hlimit'.trans h.second_limit
  room := ⟨Nat.le_trans hweight h.room.1, Nat.le_trans hweight h.room.2⟩
  first_rounds := hrounds
  second_rounds := hrounds'
  owed := by
    refine .trans ?_ h.owed
    rw [lexicalOnes_append]
    refine (List.perm_append_comm.append_right _).trans ?_
    rw [List.append_assoc]
    exact howed.append_left _
  settled hnone := by
    obtain ⟨hreported, hbefore⟩ := List.append_eq_nil_iff.mp hnone
    exact (hsettled hreported).trans (h.settled hbefore)

/-- After one statement of two readings. -/
structure Follows (frame : Framing) (shared next : Shared) (first second : Progress) : Prop extends
    Abreast frame next first second where
  weight_le : totalWeight (tokensOf next.ahead) ≤ totalWeight (tokensOf shared.ahead)
  progress : totalWeight (tokensOf next.ahead) < totalWeight (tokensOf shared.ahead) ∨
    ∀ token ∈ next.ahead.head?, token.kind = .endOfInput
  grows : shared.reported <:+ next.reported
  agrees : first.state.followsEquation = second.state.followsEquation

theorem step_of_error (h : Abreast frame shared first second) {diagnostic : Diagnostic}
    {stopped : Shared} {table : OperatorTable} (hstops : h.coupling.Stops diagnostic stopped)
    (hfirst : statement first.state = .error diagnostic (h.coupling.first.state stopped table))
    (hsecond : statement second.state = .error (relocate frame.place diagnostic)
      (h.coupling.second.state (relocate frame.place stopped) table)) :
    ∃ next, Follows frame shared next first.step second.step ∧
      (frame.extent = .statement → next.ahead = []) := by
  obtain ⟨skipped, rest, hahead, hskips, hends, hphases, hleaves⟩ := hstops.leaves
  have hskip := skipStatement_of_skips hskips hends stopped.passed frame.first.before
    frame.first.behind
  have hkinds (slots : List Slot) :
      (relocate frame.place slots).map (·.kind) = slots.map (·.kind) := by
    simp [Function.comp_def]
  rw [← hkinds skipped, ← hkinds rest] at hskips hends
  have hskip' := skipStatement_of_skips hskips hends (relocate frame.place stopped.passed)
    frame.second.before frame.second.behind
  have hreported : lexicalOnes (diagnostic :: stopped.reported) = lexicalOnes [diagnostic] := by
    rw [← List.singleton_append, lexicalOnes_append, lexicalOnes_eq_nil hphases, List.append_nil]
  have howed := hleaves.owed
  rw [← hreported] at howed
  rw [first.step_of_error hfirst, second.step_of_error hsecond]
  refine ⟨⟨skipped.reverse ++ stopped.passed, rest,
    (diagnostic :: stopped.reported) ++ shared.reported⟩, ⟨?_, hleaves.weight_le,
    hleaves.progress, List.suffix_append _ _, rfl⟩, hleaves.leaves⟩
  refine h.advance hleaves.shareable hleaves.reaches hleaves.weight_le ?_ ?_
    rfl rfl rfl rfl rfl rfl h.table (fun halike => ?_) rfl howed nofun
  · rw [← hskip, ← hahead]
    rfl
  · rw [relocate_append, relocate_reverse, ← hskip', ← relocate_append, ← hahead]
    rfl
  · obtain ⟨added, hadds⟩ := h.body halike
    exact ⟨added, hadds.first_body, hadds.second_body, fun _ => .inr nofun⟩

private theorem adds_clause (h : Abreast frame shared first second) (halike : frame.alike)
    {clause : Clause} {ahead : List Slot} {first' second' : Progress}
    (hbegins : ∃ token ∈ shared.ahead.head?, beginsContinuation token.kind)
    (hfollows : first.state.followsEquation = true)
    (hfirst : first'.body = Progress.addClause clause first.body)
    (hsecond : second'.body = Progress.addClause (relocate frame.place clause) second.body) :
    ∃ added, frame.Adds ahead first' second' added := by
  obtain ⟨added, hadds⟩ := h.body halike
  rw [hadds.first_body] at hfirst
  rw [hadds.second_body] at hsecond
  cases added with
  | nil =>
    rcases hadds.closed rfl with ⟨hnone, hnone'⟩ | hclosed
    · rw [hnone] at hfirst
      rw [hnone'] at hsecond
      exact ⟨[], by rw [hfirst, hnone]; rfl, by rw [hsecond, hnone']; rfl,
        fun _ => .inl ⟨hnone, hnone'⟩⟩
    · obtain ⟨token, htoken, hcontinues⟩ := hbegins
      exact absurd hcontinues (hclosed hfollows token htoken)
  | cons last added =>
    refine ⟨last.addClause clause :: added, hfirst, ?_, nofun⟩
    rw [hsecond]
    exact congrArg (· :: (relocate frame.place added ++ frame.second.body))
      (relocate_addClause frame.place clause last).symm

private theorem step_of_ok (h : Abreast frame shared first second) (hahead : shared.ahead ≠ [])
    {parsed : Parsed} {next : Shared} {table : OperatorTable} (hkeeps : h.coupling.Keeps next)
    (hreaches : frame.extent = .all → next.ahead ≠ [])
    (hweight : totalWeight (tokensOf next.ahead) < totalWeight (tokensOf shared.ahead))
    (hfirst : statement first.state = .ok parsed (h.coupling.first.state next table))
    (hsecond : statement second.state = .ok (relocate frame.place parsed)
      (h.coupling.second.state (relocate frame.place next) table)) :
    Follows frame shared ⟨next.passed, next.ahead, next.reported ++ shared.reported⟩
      first.step second.step := by
  have hle := Nat.le_of_lt hweight
  have hgrows := List.suffix_append next.reported shared.reported
  have howed : (lexicalOnes next.reported ++ owedBy (next.passed.reverse ++ next.ahead)).Perm
      (owedBy (shared.passed.reverse ++ shared.ahead)) := by
    rw [lexicalOnes_eq_nil hkeeps.reported, hkeeps.owed]
    exact .refl _
  cases parsed with
  | statement statement =>
    rw [first.step_of_statement hfirst, second.step_of_statement hsecond]
    have hagrees := (isEquation_relocate frame.place statement).symm
    refine ⟨h.advance hkeeps.toShareable hreaches hle rfl rfl rfl rfl rfl rfl rfl rfl rfl ?_ hagrees
      howed fun _ => hkeeps.settled, hle, .inl hweight, hgrows, hagrees⟩
    intro halike
    obtain ⟨added, hadds⟩ := h.body halike
    exact ⟨statement :: added, congrArg (statement :: ·) hadds.first_body,
      congrArg (relocate frame.place statement :: ·) hadds.second_body, nofun⟩
  | clause clause =>
    rw [first.step_of_clause hfirst, second.step_of_clause hsecond]
    obtain ⟨hcontinues, hfollows⟩ := continues_of_clause hfirst
    have hbegins : ∃ token ∈ shared.ahead.head?, beginsContinuation token.kind := by
      obtain ⟨token, rest, htokens⟩ := List.exists_cons_of_ne_nil hahead
      rw [h.first_cursor, htokens] at hcontinues
      exact ⟨token, by rw [htokens]; rfl, hcontinues⟩
    have hagrees := h.agree hbegins
    exact ⟨h.advance hkeeps.toShareable hreaches hle rfl rfl rfl rfl rfl rfl rfl rfl rfl
      (fun halike => h.adds_clause halike hbegins hfollows rfl rfl) hagrees howed
      fun _ => hkeeps.settled, hle, .inl hweight, hgrows, hagrees⟩

theorem step (h : Abreast frame shared first second) (hahead : shared.ahead ≠ [])
    (hnested : IsNested frame shared.ahead) :
    (∃ next, Follows frame shared next first.step second.step) ∨
      frame.extent = .statements ∧ first.step.state.reported ≠ [] := by
  have hsteps := h.concluded hahead hnested
  have hpos := totalWeight_tokensOf_pos hahead
  generalize hfirst : statement first.state = result at hsteps
  generalize hsecond : statement second.state = result' at hsteps
  cases hsteps with
  | ok parsed next table hkeeps hpassed hreaches hweight =>
    exact .inl ⟨_, h.step_of_ok hahead hkeeps hreaches (by omega) hfirst hsecond⟩
  | error diagnostic stopped table hstops =>
    obtain ⟨next, hnext, -⟩ := h.step_of_error hstops hfirst hsecond
    exact .inl ⟨next, hnext⟩
  | lost hextent =>
    rw [first.step_of_error hfirst]
    exact .inr ⟨hextent, List.cons_ne_nil _ _⟩

theorem body_eq (h : Abreast frame shared first second) (halike : frame.alike)
    (hnone : frame.first.body = [] ∧ frame.second.body = []) :
    second.body = relocate frame.place first.body := by
  obtain ⟨added, hadds⟩ := h.body halike
  rw [hadds.first_body, hadds.second_body, hnone.1, hnone.2, List.append_nil, List.append_nil]

/-! ## Runs -/

theorem hasTokens_eq (h : Abreast frame shared first second) (hahead : shared.ahead ≠ []) :
    first.state.hasTokens = second.state.hasTokens ∧
      (first.state.hasTokens = false ↔ ∀ token ∈ shared.ahead.head?, token.kind = .endOfInput) := by
  obtain ⟨token, rest, htokens⟩ := List.exists_cons_of_ne_nil hahead
  have hfirst : first.state.cursor.current = token.toToken := by
    rw [h.first_cursor, htokens]
    rfl
  have hsecond : second.state.cursor.current = relocate frame.place token.toToken := by
    rw [h.second_cursor, htokens]
    rfl
  simp [ParseState.hasTokens, hfirst, hsecond, htokens]

theorem step_all (h : Abreast frame shared first second) (hextent : frame.extent = .all) :
    ∃ next, Follows frame shared next first.step second.step := by
  have hnested : IsNested frame shared.ahead := fun hstatement => by
    rw [hextent] at hstatement
    cases hstatement
  rcases h.step (h.reaches hextent) hnested with hnext | ⟨hstatements, -⟩
  · exact hnext
  · rw [hextent] at hstatements
    cases hstatements

/-- Readings over the same tokens to the end of the input stay abreast. -/
theorem run_rounds (h : Abreast frame shared first second) (hextent : frame.extent = .all)
    (rounds : Nat) : ∃ next, Abreast frame next (first.run .batch rounds)
      (second.run .batch rounds) ∧ shared.reported <:+ next.reported := by
  induction rounds generalizing shared first second with
  | zero => exact ⟨shared, h, List.suffix_refl _⟩
  | succ rounds ih =>
    obtain ⟨hsame, -⟩ := h.hasTokens_eq (h.reaches hextent)
    cases htokens : first.state.hasTokens with
    | false =>
      rw [Progress.run_of_not_hasTokens htokens, Progress.run_of_not_hasTokens (hsame ▸ htokens)]
      exact ⟨shared, h, List.suffix_refl _⟩
    | true =>
      rw [Progress.run_of_hasTokens htokens, Progress.run_of_hasTokens (hsame ▸ htokens)]
      obtain ⟨next, hnext⟩ := h.step_all hextent
      obtain ⟨last, hlast, hgrows⟩ := ih hnext.toAbreast
      exact ⟨last, hlast, hnext.grows.trans hgrows⟩

/-- Readings that are given enough rounds come to the end of the input. -/
theorem run_to_end (h : Abreast frame shared first second) (hextent : frame.extent = .all)
    {rounds rounds' : Nat} (hrounds : totalWeight (tokensOf shared.ahead) ≤ rounds)
    (hrounds' : totalWeight (tokensOf shared.ahead) ≤ rounds') :
    ∃ next, Abreast frame next (first.run .batch rounds) (second.run .batch rounds') ∧
      ∀ token ∈ next.ahead.head?, token.kind = .endOfInput := by
  induction rounds generalizing shared first second rounds' with
  | zero =>
    have hpos := totalWeight_tokensOf_pos (h.reaches hextent)
    omega
  | succ rounds ih =>
    have hpos := totalWeight_tokensOf_pos (h.reaches hextent)
    obtain ⟨hsame, hover⟩ := h.hasTokens_eq (h.reaches hextent)
    cases htokens : first.state.hasTokens with
    | false =>
      rw [Progress.run_of_not_hasTokens htokens, Progress.run_of_not_hasTokens (hsame ▸ htokens)]
      exact ⟨shared, h, hover.mp htokens⟩
    | true =>
      obtain ⟨rounds', rfl⟩ := Nat.exists_eq_succ_of_ne_zero (show rounds' ≠ 0 by omega)
      rw [Progress.run_of_hasTokens htokens, Progress.run_of_hasTokens (hsame ▸ htokens)]
      obtain ⟨next, hnext⟩ := h.step_all hextent
      -- A step that shares no fewer tokens has come to the end.
      rcases hnext.progress with hless | hend
      · exact ih hnext.toAbreast (by omega) (by omega)
      · obtain ⟨hsame', hover'⟩ := hnext.hasTokens_eq (hnext.reaches hextent)
        have hdone := hover'.mpr hend
        rw [Progress.run_of_not_hasTokens hdone, Progress.run_of_not_hasTokens (hsame' ▸ hdone)]
        exact ⟨next, hnext.toAbreast, hend⟩

private theorem hasTokens_of_ahead (h : Abreast frame shared first second)
    (hahead : shared.ahead ≠ []) (hextent : frame.extent ≠ .all) :
    first.state.hasTokens = true ∧ second.state.hasTokens = true := by
  obtain ⟨hsame, hover⟩ := h.hasTokens_eq hahead
  obtain ⟨token, rest, htokens⟩ := List.exists_cons_of_ne_nil hahead
  have hfirst : first.state.hasTokens = true := by
    by_contra hnone
    have hend := hover.mp (by simpa using hnone) token (by rw [htokens]; rfl)
    exact h.not_end hextent token (by rw [htokens]; exact List.mem_cons_self) hend
  exact ⟨hfirst, hsame ▸ hfirst⟩

theorem Follows.weight_lt {next : Shared} (h : Follows frame shared next first second)
    (hahead : shared.ahead ≠ []) (hextent : frame.extent ≠ .all) :
    totalWeight (tokensOf next.ahead) < totalWeight (tokensOf shared.ahead) := by
  rcases h.progress with hless | hend
  · exact hless
  · have hinside := h.not_end hextent
    cases htokens : next.ahead with
    | nil => exact totalWeight_tokensOf_pos hahead
    | cons token rest =>
      rw [htokens] at hend hinside
      exact absurd (hend token rfl) (hinside token List.mem_cons_self)

/-- Readings that share whole statements: the first one ends with them, and the second one has
rounds left for what comes behind them. -/
theorem run_statements (h : Abreast frame shared first second)
    (hextent : frame.extent = .statements) {last : Slot} (hbehind : frame.first.behind = [last])
    (hlast : last.kind = .endOfInput)
    (hagrees : first.state.followsEquation = second.state.followsEquation)
    {rounds rounds' left : Nat} (hrounds : totalWeight (tokensOf shared.ahead) ≤ rounds)
    (hrounds' : totalWeight (tokensOf shared.ahead) + left ≤ rounds')
    (hclean : ∀ count, (first.run .batch count).state.reported = []) :
    ∃ next second' rounds'', Abreast frame next (first.run .batch rounds) second' ∧
      (first.run .batch rounds).state.followsEquation = second'.state.followsEquation ∧
      next.ahead = [] ∧ left ≤ rounds'' ∧
      second.run .batch rounds' = second'.run .batch rounds'' := by
  induction rounds generalizing shared first second rounds' with
  | zero =>
    have hahead : shared.ahead = [] := by
      by_contra hahead
      have hpos := totalWeight_tokensOf_pos hahead
      omega
    exact ⟨shared, second, rounds', h, hagrees, hahead, by omega, rfl⟩
  | succ rounds ih =>
    by_cases hahead : shared.ahead = []
    · have hover : first.state.hasTokens = false := by
        have hcurrent : first.state.cursor.current = last.toToken := by
          rw [h.first_cursor, hahead, hbehind]
          rfl
        simp [ParseState.hasTokens, hcurrent, hlast]
      rw [Progress.run_of_not_hasTokens hover]
      exact ⟨shared, second, rounds', h, hagrees, hahead, by omega, rfl⟩
    · have hpos := totalWeight_tokensOf_pos hahead
      have hinner : frame.extent ≠ .all := by rw [hextent]; nofun
      obtain ⟨hfirst, hsecond⟩ := h.hasTokens_of_ahead hahead hinner
      obtain ⟨rounds', rfl⟩ := Nat.exists_eq_succ_of_ne_zero (show rounds' ≠ 0 by omega)
      rw [Progress.run_of_hasTokens hfirst, Progress.run_of_hasTokens hsecond]
      have hclean' (count : Nat) : (first.step.run .batch count).state.reported = [] := by
        rw [← Progress.run_of_hasTokens hfirst]
        exact hclean (count + 1)
      have hnested : IsNested frame shared.ahead := fun hstatement => by
        rw [hextent] at hstatement
        cases hstatement
      -- The first reading reports nothing, so both of them read the statement.
      rcases h.step hahead hnested with ⟨next, hnext⟩ | ⟨-, hreported⟩
      · have hless := hnext.weight_lt hahead hinner
        exact ih hnext.toAbreast hnext.agrees (by omega) (by omega) hclean'
      · exact absurd (hclean' 0) hreported

end Abreast

end Equational

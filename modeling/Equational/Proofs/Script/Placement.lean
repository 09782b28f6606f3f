import Equational.Proofs.Script.Lossless
import Equational.Proofs.Script.Reading
import Equational.Proofs.Statement.Events
import Equational.Proofs.Statement.Placement

/-!
# Placement of scripts

The statements of a script stand one behind another in the text, and the nodes of each of them
within one another.  A clause that joins an equation stands behind all of it, and the equation is
extended up to the end of the clause.
-/

namespace Equational

/-! ## Texts -/

theorem row_of_pairwise {low high : Nat} {tokens : List Token} (hle : low ≤ high)
    (hordered : tokens.Pairwise fun first second => first.span.stop ≤ second.span.start)
    (hlies : ∀ token ∈ tokens, token.Lies low high) : Row Token.Lies low tokens high := by
  induction tokens generalizing low with
  | nil => exact .nil hle
  | cons token rest ih =>
    obtain ⟨hbehind, hrest⟩ := List.pairwise_cons.mp hordered
    obtain ⟨htoken, hothers⟩ := List.forall_mem_cons.mp hlies
    obtain ⟨hlow, hstop, hnonempty, hroom, hrecordable, hhigh⟩ := htoken
    have hfirst : token.Lies low token.span.stop :=
      ⟨hlow, hstop, hnonempty, hroom, hrecordable, Nat.le_refl _⟩
    refine .cons hfirst (ih hhigh hrest fun other hmem => ?_)
    obtain ⟨-, hstop', hnonempty', hroom', hrecordable', hhigh'⟩ := hothers other hmem
    exact ⟨hbehind other hmem, hstop', hnonempty', hroom', hrecordable', hhigh'⟩

theorem lies_endOfInput {size : Nat} (hsize : size < positionCount) :
    (Token.endOfInput (recorded size)).Lies 0 size := by
  rw [recorded_of_lt hsize]
  exact ⟨Nat.zero_le _, Nat.le_refl _, fun hother => absurd rfl hother, nofun, hsize, Nat.le_refl _⟩

theorem Slot.LiesIn.lies {slot : Slot} {high : Nat} (h : slot.LiesIn 0 high)
    (hsize : high < positionCount) : slot.toToken.Lies 0 high := by
  obtain ⟨start, stop, -, hhigh, hfills⟩ := h.fills
  have hstop := Nat.lt_of_le_of_lt hhigh hsize
  have hspan : slot.span = ⟨start, stop⟩ := by
    rw [hfills.span, Span.between, recorded_of_lt hstop,
      recorded_of_lt (Nat.lt_trans hfills.nonempty hstop)]
  refine ⟨Nat.zero_le _, ?_, fun _ => ?_, fun hkind => ?_, ?_, ?_⟩ <;> rw [hspan]
  · exact Nat.le_of_lt hfills.nonempty
  · exact hfills.nonempty
  · exact hfills.room hkind
  · exact hstop
  · exact hhigh

theorem lies_of_ofSource {source : String} {lexed : Lexed} (h : Lexed.ofSource source = .ok lexed)
    (hsize : byteLength source.toList < positionCount) {token : Token}
    (hmem : token ∈ lexed.tokens) : token.Lies 0 (byteLength source.toList) := by
  obtain ⟨slots, hslots⟩ := Lexed.exists_slots h
  rw [hslots.tokens, tokensOf_append, List.mem_append] at hmem
  rcases hmem with hmem | hmem
  · obtain ⟨slot, hslot, rfl⟩ := List.mem_map.mp hmem
    exact (hslots.lies slot hslot).lies hsize
  · rw [List.mem_singleton.mp hmem]
    exact lies_endOfInput hsize

theorem isReady_start {source : String} {lexed : Lexed} (h : Lexed.ofSource source = .ok lexed)
    (hsize : byteLength source.toList < positionCount) :
    (Progress.start lexed).state.IsReady ⟨0, byteLength source.toList⟩ := by
  refine ⟨isSound_start h, ?_⟩
  rw [Cursor.IsLaid, cursor_start h]
  exact row_of_pairwise (Nat.zero_le _) (Lexed.ofSource_tiles h hsize).tokens_ordered
    fun _ hmem => lies_of_ofSource h hsize hmem

/-! ## Statements -/

theorem ParseState.IsReady.settle {region : Span} {state : ParseState} (h : state.IsReady region) :
    state.IsReady ⟨state.cursor.previousEnd, region.stop⟩ := by
  refine ⟨h.sound, ?_⟩
  have hlaid := h.laid
  unfold Cursor.IsLaid at hlaid ⊢
  exact hlaid.widen (by unfold Cursor.reach; dsimp only; omega) (Nat.le_refl _)

theorem ParseState.IsReady.begins {low size : Nat} {state : ParseState}
    (h : state.IsReady ⟨low, size⟩) : ∃ start, low ≤ start ∧ Parse.Begins size start state := by
  have hplaced : Parse.Placed ⟨low, size⟩ false [] state := ⟨h, .nil (Nat.le_max_left _ _), nofun⟩
  obtain ⟨hrow, hbegins⟩ := hplaced.begins
  exact ⟨_, hrow.le, hbegins, rfl⟩

theorem ParseState.IsReady.low_le {low size : Nat} {state : ParseState}
    (h : state.IsReady ⟨low, size⟩) : low ≤ size :=
  Nat.le_trans (Nat.le_max_left _ _) (Row.le h.laid)

theorem records_ready (region : Span) :
    Parse.Records (fun _ => ParseState.IsReady region) (ParseState.IsReady region) :=
  .of_moves (fun _ _ hmoves hready => (hmoves.isReady hready).1)
    fun _ _ _ hready => ⟨hready.sound, hready.laid⟩

theorem Node.Stands.addClause {low middle start high : Nat} {last : Statement} {clause : Clause}
    (h : Node.Stands low (.statement last) middle) (hstart : middle ≤ start)
    (hclause : Node.Stands start (.clause clause) high) :
    Node.Stands low (.statement (last.addClause clause)) high := by
  have hle := Node.stands_spreads.le hclause
  cases last with
  | equation lhs clauses span =>
    obtain ⟨hlow, hnonempty, hstop, hinPlace⟩ := h
    obtain ⟨hlow', hnonempty', hstop', hinPlace'⟩ := hclause
    have hbefore : span.start ≤ clause.span.start := by
      change span.start < span.stop at hnonempty
      change start ≤ clause.span.start at hlow'
      change span.stop ≤ middle at hstop
      omega
    have hbehind : span.stop ≤ clause.span.stop := by
      change start ≤ clause.span.start at hlow'
      change clause.span.start < clause.span.stop at hnonempty'
      change span.stop ≤ middle at hstop
      omega
    have hspan : span.start < clause.span.stop := Nat.lt_of_le_of_lt hbefore hnonempty'
    refine ⟨hlow, hspan, hstop', fun hfaultless => ?_⟩
    refine Node.inPlace_of_within nofun hspan fun child hchild => ?_
    have hpositions : ((Statement.equation lhs clauses span).addClause clause).positions =
        (Statement.equation lhs clauses span).positions ++ clause.positions := by
      simp [Statement.addClause, Statement.positions]
    have hchildren : ((Statement.equation lhs clauses span).addClause clause).children =
        (Statement.equation lhs clauses span).children ++ [.clause clause] := by
      simp [Statement.addClause, Statement.children]
    rw [Node.IsFaultless, Node.positions, hpositions, List.forall_mem_append] at hfaultless
    rw [Node.children, hchildren, List.mem_append, List.mem_singleton] at hchild
    rcases hchild with hchild | rfl
    · have hequation := hinPlace hfaultless.1
      obtain ⟨hfirst, hlast⟩ := hequation.isOrdered.within child hchild
      exact ⟨hfirst, hequation.child hchild, Nat.le_trans hlast hbehind⟩
    · exact ⟨hbefore, hinPlace' hfaultless.2, Nat.le_refl _⟩
  | _ => exact Node.stands_spreads.widen h (Nat.le_refl _) (Nat.le_trans hstart hle)

namespace Progress

/-- The statements read so far stand one behind another, in front of the tokens ahead. -/
def IsPlaced (size : Nat) (progress : Progress) : Prop :=
  ∃ low, Row Node.Stands 0 (progress.body.reverse.map .statement) low ∧
    progress.state.IsReady ⟨low, size⟩

private theorem row_addClause {body : List Statement} {clause : Clause} {low start high : Nat}
    (h : Row Node.Stands 0 (body.reverse.map .statement) low) (hstart : low ≤ start)
    (hclause : Node.Stands start (.clause clause) high) :
    Row Node.Stands 0 ((addClause clause body).reverse.map .statement) high := by
  cases body with
  | nil => exact .nil (Nat.zero_le _)
  | cons last rest =>
    rw [List.reverse_cons, List.map_append] at h
    obtain ⟨middle, hrest, hlast⟩ := h.split
    rw [addClause, List.reverse_cons, List.map_append]
    exact hrest.concat (hlast.of_singleton.addClause hstart hclause)

theorem IsPlaced.step {size : Nat} {progress : Progress} (h : progress.IsPlaced size) :
    progress.step.IsPlaced size := by
  obtain ⟨low, hrow, hready⟩ := h
  obtain ⟨start, hstart, hbegins⟩ := hready.begins
  have hends := Parse.yields_statement progress.state hbegins
  have hstays := (records_ready ⟨low, size⟩).statement progress.state hready
  cases hstep : Parse.statement progress.state with
  | error diagnostic final =>
    rw [hstep] at hstays
    rw [step_of_error progress hstep]
    exact ⟨low, hrow, hstays.sound.skipStatement, hstays.laid.skipStatement⟩
  | ok parsed final =>
    rw [hstep] at hends
    obtain ⟨hfinal, -, hstands⟩ := hends
    obtain ⟨hsound, hlaid⟩ := hfinal.settle
    cases parsed with
    | statement statement =>
      rw [step_of_statement progress hstep]
      refine ⟨final.cursor.previousEnd, ?_, hsound, hlaid⟩
      rw [List.reverse_cons, List.map_append]
      exact hrow.concat (Node.stands_spreads.widen hstands hstart (Nat.le_refl _))
    | clause clause =>
      rw [step_of_clause progress hstep]
      refine ⟨final.cursor.previousEnd, ?_, hsound, hlaid⟩
      exact row_addClause hrow hstart hstands

end Progress

/-! ## Results -/

theorem spans_in_order {source : String} {options : ParseOptions} {unit : ParsedUnit}
    (hsize : byteLength source.toList < positionCount)
    (h : ParsedUnit.ofSource source options = .ok unit) :
    (unit.script.body.Pairwise fun first second => first.span.stop ≤ second.span.start) ∧
      ∀ statement ∈ unit.script.body,
        statement.span.start < statement.span.stop ∧
        statement.span.stop ≤ byteLength source.toList ∧
        ((∀ span, ¬(Node.statement statement).Reaches (.expression (.error span))) →
          ∀ node, (Node.statement statement).Reaches node → node.IsOrdered) := by
  obtain ⟨lexed, rounds, hlexed, -, hshows⟩ := exists_shown_of_unit h
  have hstart : (Progress.start lexed).IsPlaced (byteLength source.toList) :=
    ⟨0, .nil (Nat.le_refl _), isReady_start hlexed hsize⟩
  obtain ⟨low, hrow, hready⟩ :=
    Progress.run_induction (·.IsPlaced _) (fun _ => .step) hstart options.mode rounds
  have hlow := hready.low_le
  rw [← hshows.body] at hrow
  refine ⟨?_, fun statement hstatement => ?_⟩
  · have hpairwise : (unit.script.body.map Node.statement).Pairwise
        fun first second => first.span.stop ≤ second.span.start :=
      hrow.pairwise fun hfirst hsecond => Nat.le_trans hfirst.le_high hsecond.low_le
    exact List.pairwise_map.mp hpairwise
  · obtain ⟨-, hnonempty, hhigh, hinPlace⟩ := hrow.of_mem (List.mem_map_of_mem hstatement)
    refine ⟨hnonempty, Nat.le_trans hhigh hlow, fun hfaultless node hreaches => ?_⟩
    refine hinPlace (fun e he => ?_) node hreaches
    refine Bool.eq_false_iff.mpr fun hcontains => ?_
    obtain ⟨span, hspan⟩ := (Node.reaches_error_iff _).mpr ⟨e, he, hcontains⟩
    exact hfaultless span hspan

/-- An equation is extended by a second clause.  Its first one has a conditional, a list, a lambda,
a section and bindings, and the type behind it has two sections. -/
def nestedStatements : String :=
  "f X = if X then [X; 1 | t] else \\u.(+ u) where t = - 1;\n= 2 otherwise;\n" ++
    "type t = const c | var d = 3;"

theorem nestedStatements_in_order :
    byteLength nestedStatements.toList < positionCount ∧
    ∃ unit, ParsedUnit.ofSource nestedStatements {} = .ok unit ∧
      unit.script.body.map Statement.span = [⟨0, 70⟩, ⟨71, 100⟩] ∧
      (unit.script.body.Pairwise fun first second => first.span.stop ≤ second.span.start) ∧
      ∀ statement ∈ unit.script.body, ∀ node,
        (Node.statement statement).Reaches node → node.IsOrdered := by
  have hsize : byteLength nestedStatements.toList < positionCount := by decide +kernel
  obtain ⟨unit, hunit, hfacts⟩ := exists_of_map_eq_ok
    (f := fun unit : ParsedUnit => (unit.script.body.map Statement.span,
      (unit.script.body.flatMap Statement.positions).any Expr.containsError))
    (by decide +kernel :
      (ParsedUnit.ofSource nestedStatements {}).map _ = .ok ([⟨0, 70⟩, ⟨71, 100⟩], false))
  obtain ⟨hspans, herrors⟩ := Prod.mk.inj hfacts
  obtain ⟨hpairwise, hstatements⟩ := spans_in_order hsize hunit
  refine ⟨hsize, unit, hunit, hspans, hpairwise, fun statement hstatement => ?_⟩
  refine (hstatements statement hstatement).2.2 fun span hreaches => ?_
  obtain ⟨e, he, hcontains⟩ := (Node.reaches_error_iff _).mp ⟨span, hreaches⟩
  have hnone := List.any_eq_false.mp herrors e (List.mem_flatMap_of_mem hstatement he)
  exact hnone hcontains

end Equational

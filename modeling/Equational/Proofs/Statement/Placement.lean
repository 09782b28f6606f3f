import Equational.Proofs.Parse.Placement
import Equational.Proofs.Run.Follows
import Equational.Proofs.Statement.Moving

/-!
# Placement of statements

The parts of a statement stand one behind another within it: headers and sections of types, the
qualifiers around the right side of a clause, patterns and values.  Only the first clause of an
equation has the start of the equation, with the left side in front of the clause.
-/

namespace Equational

def Parsed.node : Parsed → Node
  | statement s => .statement s
  | clause c => .clause c

namespace Parse

variable {region : Span} {size start : Nat} {moved : Bool} {nodes : List Node}

/-! ## Expressions -/

/-- A run has been collected behind the nodes. -/
structure Awaits (region : Span) (moved : Bool) (nodes : List Node) (collected : Run)
    (state : ParseState) : Prop extends state.IsReady region where
  rows : ∃ middle, Row Node.Fits region.start nodes middle ∧
    ∀ table, collected.Lies table middle (state.cursor.reach region)
  passed : moved → region.start < state.cursor.reach region

theorem yields_run (context : RunContext) :
    Yields (Placed region moved nodes) (run context) (Awaits region moved nodes) := by
  intro state hplaced
  have hmoves : Moves .silent state ((run context).finalState state) := moving_run context state
  unfold finalState at hmoves
  cases hstep : run context state with
  | error diagnostic final => trivial
  | ok collected final =>
    rw [hstep] at hmoves
    obtain ⟨hready, -, hpassed⟩ := hplaced.moves hmoves
    refine ⟨hready, ⟨_, hplaced.row, fun table => ?_⟩, hpassed⟩
    obtain ⟨after, hcollects, rfl⟩ := ((follows_run context hplaced.sound.isEnded).ok_iff state rfl
      hplaced.sound.weight_le collected final).mp hstep
    have hlays : state.cursor.Lays region (Run.Lies table) [collected] after := hcollects.lays
    exact (hlays hplaced.laid).2.of_singleton

theorem yields_resolve (collected : Run) :
    Yields (Awaits region moved nodes collected) (resolve collected)
      fun e => Placed region moved (nodes ++ [.expression e]) := by
  rintro state ⟨hready, ⟨middle, hrow, hlies⟩, hpassed⟩
  have hle := (Run.spreads state.table).le (hlies state.table)
  rw [resolve_eq]
  cases hresult : collected.resolve state.table with
  | ok e =>
    refine ⟨hready, hrow.concat ⟨hle, fun _ => ?_⟩, hpassed⟩
    exact Run.lies_resolve (hlies state.table) hresult
  | error diagnostic =>
    refine ⟨⟨hready.sound, hready.laid⟩, hrow.concat ⟨hle, fun hfaultless => ?_⟩, hpassed⟩
    cases hfaultless _ List.mem_cons_self

theorem yields_expression (context : RunContext) :
    Yields (Placed region moved nodes) (expression context)
      fun e => Placed region moved (nodes ++ [.expression e]) :=
  (yields_run context).bind fun collected => yields_resolve collected

theorem yields_binding (context : RunContext) :
    Yields (Placed region moved nodes) (binding context)
      fun found => Placed region true (nodes ++ found.children) := by
  refine (yields_expression _).bind fun pattern => (yields_expectMark _).bind fun _ => ?_
  refine (yields_expression context).bind fun value => .pure fun state hstate => ?_
  rwa [List.append_assoc] at hstate

/-! ## Headers -/

theorem yields_parenthesizedOperator :
    Yields (Placed region moved nodes) parenthesizedOperator fun _ => Placed region true nodes :=
  andThen moving_operatorName fun _ =>
    (yields_expectMark _).bind fun _ => .pure fun _ hstate => hstate

theorem yields_operatorHeader :
    Yields (Placed ⟨start, size⟩ false []) (operatorHeader start)
      fun found => Ends size start (.header found) := by
  refine yields_parenthesizedOperator.bind fun name => ?_
  refine andThen moving_parameters fun parameters => ?_
  refine andThen (moving_acceptMark .atSign) fun given => ?_
  refine orThen (moving_precedence.map some) (.pure none) fun precedence => ?_
  refine andThen moving_alias fun knownAs => ?_
  exact yields_end
    (fun span => .header (.symbol (.operator name) parameters precedence knownAs span)) nofun
    (fun _ => rfl) (fun _ _ hchild => hchild) fun _ _ hends => hends

theorem yields_nameHeader :
    Yields (Placed ⟨start, size⟩ false []) (nameHeader start)
      fun found => Ends size start (.header found) := by
  refine (yields_identifier _).bind fun name => andThen moving_currentKind fun kind => ?_
  refine .ite (fun _ => ?_) fun _ => ?_
  · unfold bindingHeader
    cases name.moduleName with
    | some moduleName => exact andThen (moving_spanFrom start) fun span => thrown _
    | none =>
      refine andThen moving_advance fun _ => (yields_expression {}).bind fun value => ?_
      exact yields_end (fun span => .header (.binding name.name value span)) nofun (fun _ => rfl)
        (fun _ _ hchild => hchild) fun _ _ hends => hends
  · refine andThen moving_parameters fun parameters => andThen moving_alias fun knownAs => ?_
    exact yields_end (fun span => .header (.symbol (.identifier name) parameters none knownAs span))
      nofun (fun _ => rfl) (fun _ _ hchild => hchild) fun _ _ hends => hends

theorem yields_header :
    Yields (Placed region moved nodes) header
      fun found => Placed region true (nodes ++ [.header found]) := by
  refine yields_enclosed fun start => andThen (moving_acceptMark .openParen) fun opened => ?_
  exact .ite (fun _ => yields_operatorHeader) fun _ => yields_nameHeader

theorem yields_declare (header : Header) :
    Yields (Placed region moved nodes) (declare header) fun _ => Placed region moved nodes := by
  rintro state ⟨⟨hsound, hlaid⟩, hrow, hpassed⟩
  obtain ⟨table, hfinal⟩ := exists_table_declare header state
  unfold finalState at hfinal
  cases hstep : declare header state with
  | error diagnostic final => trivial
  | ok value final =>
    rw [hstep] at hfinal
    obtain rfl : final = _ := hfinal
    exact ⟨⟨hsound, hlaid⟩, hrow, hpassed⟩

theorem yields_headers :
    Yields (Placed region moved nodes) headers
      fun found => Placed region true (nodes ++ found.map .header) := by
  refine yields_separatedNodes .comma fun moved nodes => yields_header.bind fun found => ?_
  exact (yields_declare found).bind fun _ => .pure fun _ hstate => hstate

/-! ## Types -/

theorem yields_typeSection :
    Yields (Placed region moved nodes) typeSection
      fun found => Placed region true (nodes ++ [.typeSection found]) := by
  refine yields_enclosed fun start => andThen moving_attributes fun attributes => ?_
  refine yields_headers.bind fun found => ?_
  exact yields_end (fun span => .typeSection ⟨attributes.1, attributes.2, found, span⟩) nofun
    (fun _ => rfl) (fun _ _ hchild => hchild) fun _ _ hends => hends

theorem yields_closing {statement : Span → Statement} (hspan : ∀ span, (statement span).span = span)
    (hchildren : ∀ span, ∀ child ∈ (statement span).children, child ∈ nodes) :
    Yields (Placed ⟨start, size⟩ moved nodes)
      (do let _ ← expectMark .semicolon; return statement (← spanFrom start))
      fun found => Ends size start (.statement found) :=
  (yields_expectMark _).bind fun _ =>
    yields_end (fun span => .statement (statement span)) nofun hspan hchildren
      fun _ _ hends => hends

theorem yields_typeDefinition (scope : Option Scope) (external : Bool) (name : Name) :
    Yields (Placed ⟨start, size⟩ moved []) (typeDefinition start scope external name)
      fun found => Ends size start (.statement found) := by
  refine andThen (moving_acceptMark .colon) fun derived => ?_
  refine orThen ((moving_identifier _).map some) (.pure none) fun supertype => ?_
  refine andThen (moving_acceptMark .assignment) fun defined => ?_
  have hsections : Yields (Placed ⟨start, size⟩ moved []) (separated .pipe typeSection)
      fun sections => Placed ⟨start, size⟩ moved (sections.map .typeSection) :=
    (yields_separatedNodes .pipe fun _ _ => yields_typeSection).imp (fun _ => id)
      fun _ _ hstate => hstate.weaken
  have hnone : Yields (Placed ⟨start, size⟩ moved []) (pure [])
      fun sections => Placed ⟨start, size⟩ moved (sections.map .typeSection) :=
    .pure fun _ hstate => hstate
  refine .choice hsections hnone fun sections => ?_
  exact yields_closing (fun _ => rfl) fun _ _ hchild => hchild

theorem yields_typeStatement (scope : Option Scope) (external : Bool) :
    Yields (Placed ⟨start, size⟩ moved []) (typeStatement start scope external)
      fun found => Ends size start (.statement found) := by
  refine andThen (moving_expect _) fun _ => andThen (moving_identifier _) fun name => ?_
  refine .ite (fun _ => ?_) fun _ => ?_
  · refine andThen (moving_accept _) fun renamed => ?_
    refine orThen ((moving_plainName _).map some) (.pure none) fun knownAs => ?_
    exact yields_closing (fun _ => rfl) fun _ _ hchild => hchild
  · refine andThen (moving_acceptMark .equals) fun synonymous => .ite (fun _ => ?_) fun _ => ?_
    · exact andThen (moving_identifier _) fun target =>
        yields_closing (fun _ => rfl) fun _ _ hchild => hchild
    · exact yields_typeDefinition scope external name.name

/-! ## Equations -/

theorem yields_bindings (context : RunContext) :
    Yields (Placed region moved nodes) (separated .comma (binding context))
      fun pairs => Placed region true (nodes ++ pairs.flatMap Binding.children) :=
  yields_separated .comma fun _ _ => yields_binding context

theorem yields_qualifier (context : RunContext) :
    Yields (Placed region moved nodes) (qualifier? context) fun answer state =>
      Placed region moved (nodes ++ answer.toList.map .qualifier) state ∧
        (answer.isSome → Placed region true (nodes ++ answer.toList.map .qualifier) state) := by
  refine yields_position fun start houter => yields_kind fun kind => ?_
  have hword {word : Keyword} : Yields (fun state =>
      (Placed ⟨start, region.stop⟩ false [] state ∧ Placed region moved nodes state) ∧
        state.cursor.current.kind = .word word) advance
      fun _ => Placed ⟨start, region.stop⟩ true [] := by
    have hkind : TokenKind.word word ≠ .endOfInput := nofun
    exact (yields_advance hkind).imp (fun _ hstate => ⟨hstate.1.1, hstate.2⟩) fun _ _ => id
  have hends {found : Qualifier} {state : ParseState}
      (h : Ends region.stop start (.qualifier found) state) :
      Placed region moved (nodes ++ (some found).toList.map .qualifier) state ∧
        ((some found).isSome →
          Placed region true (nodes ++ (some found).toList.map .qualifier) state) :=
    ⟨(h.enclosed houter).weaken, fun _ => h.enclosed houter⟩
  split
  · refine hword.bind fun _ => (yields_expression context).bind fun condition => ?_
    exact yields_end (fun span => .qualifier (.guard condition span)) nofun (fun _ => rfl)
      (fun _ _ hchild => hchild) fun _ _ => hends
  · refine hword.bind fun _ => ?_
    exact yields_end (fun span => .qualifier (.otherwise span)) nofun (fun _ => rfl)
      (fun _ _ hchild => hchild) fun _ _ => hends
  · refine hword.bind fun _ => (yields_bindings context).bind fun bindings => ?_
    exact yields_end (fun span => .qualifier (.bindings bindings span)) nofun (fun _ => rfl)
      (fun _ _ hchild => hchild) fun _ _ => hends
  · refine .pure fun state hstate => ?_
    have hplaced := hstate.1.2
    rw [← List.append_nil nodes] at hplaced
    exact ⟨hplaced, nofun⟩

theorem yields_qualifiers (context : RunContext) :
    Yields (Placed region moved nodes) (qualifiers context)
      fun found => Placed region moved (nodes ++ found.map .qualifier) := by
  have hadd (found : List Qualifier) :
      Yields (Placed region moved (nodes ++ found.map .qualifier)) (qualifier? context)
        fun answer => Placed region moved (nodes ++ (found ++ answer.toList).map .qualifier) :=
    (yields_qualifier context).imp (fun _ => id) fun answer state hstate => by
      simpa using hstate.1
  refine andThen Moving.get fun state => ?_
  have hexhaust (state : ParseState) : Moves .silent state { state with exhausted := true } :=
    .single (.exhaust state)
  have hfound := Ensures.many (fun found => Placed region moved (nodes ++ found.map .qualifier))
    (fun found state hplaced => hplaced.moves (hexhaust state)) hadd state.limit []
  simpa using hfound

theorem yields_leadingQualifiers :
    Yields (Placed region moved nodes) leadingQualifiers
      fun found => Placed region moved (nodes ++ found.map .qualifier) := by
  refine andThen moving_currentKind fun kind => .ite (fun _ => ?_) fun _ => ?_
  · refine (yields_qualifiers _).bind fun found => ?_
    exact andThen (moving_expectMark .colon) fun _ => .pure fun _ hstate => hstate
  · exact .pure fun state hstate => (List.append_nil nodes).symm ▸ hstate

/-- A clause has the start of its equation, whose left side may stand in front of it. -/
theorem yields_clause :
    Yields (Placed ⟨start, size⟩ moved nodes) (clause start)
      fun found state => Placed ⟨start, size⟩ true (nodes ++ found.children) state ∧
        Ends size start (.clause found) state := by
  refine yields_leadingQualifiers.bind fun leading => ?_
  refine andThen (moving_expectMark .assignment) fun _ => ?_
  refine (yields_expression _).bind fun rhs => (yields_qualifiers _).bind fun trailing => ?_
  refine (yields_expectMark .semicolon).bind fun _ => ?_
  rintro state hplaced
  have hnodes : Placed ⟨start, size⟩ true
      (nodes ++ (leading.map .qualifier ++ .expression rhs :: trailing.map .qualifier)) state := by
    simpa using hplaced
  refine ⟨hnodes, hnodes.ends nofun rfl fun child hchild => hnodes.fits ?_⟩
  exact List.mem_append_right _ hchild

/-! ## Statements -/

structure Begins (size start : Nat) (state : ParseState) : Prop extends
    Placed ⟨start, size⟩ false [] state where
  start_eq : state.cursor.current.span.start = start

theorem begins_position {next : Nat → Parse β} {after : β → ParseState → Prop}
    (h : Yields (Placed ⟨start, size⟩ false []) (next start) after) :
    Yields (Begins size start) (position >>= next) after := by
  rintro state ⟨hplaced, rfl⟩
  exact h state hplaced

theorem begins_advance {next : Token → Parse β} {after : β → ParseState → Prop}
    (h : ∀ token, token.span.start = start →
      Yields (Placed ⟨start, size⟩ false []) (next token) after) :
    Yields (Begins size start) (advance >>= next) after := by
  rintro state ⟨hplaced, hstart⟩
  have hmoves : Moves .silent state { state with cursor := state.cursor.advance } :=
    .single (.advance state)
  exact h _ hstart _ (hplaced.moves hmoves)

theorem yields_equation :
    Yields (Begins size start) equation fun found => Ends size start (.statement found) := by
  refine begins_position ((yields_run _).bind fun left => .ite (fun _ => ?_) fun _ => ?_)
  · exact yields_fail _
  · refine (yields_resolve left).bind fun lhs => yields_clause.bind fun first => ?_
    rintro state ⟨hplaced, hclause⟩
    refine hplaced.ends nofun rfl fun child hchild => ?_
    rcases List.mem_cons.mp hchild with rfl | hchild
    · exact hplaced.fits (List.mem_cons_self)
    · obtain rfl := List.mem_singleton.mp hchild
      exact hclause.stands.fits

theorem yields_continuation :
    Yields (Begins size start) continuation fun found => Ends size start (.clause found) := by
  have hget : Yields (Begins size start) get fun _ => Begins size start := fun _ => id
  refine hget.bind fun state => .ite (fun _ => ?_) fun _ => ?_
  · exact begins_position (yields_clause.imp (fun _ => id) fun _ _ hends => hends.2)
  · have hcurrent : Yields (Begins size start) current fun _ => Begins size start := fun _ => id
    exact hcurrent.bind fun token => thrown _

theorem yields_attributedStatement :
    Yields (Begins size start) attributedStatement
      fun found => Ends size start (.statement found) := by
  refine begins_position (andThen moving_attributes fun attributes => ?_)
  refine andThen moving_currentKind fun kind => ?_
  refine .ite (fun _ => .ite (fun _ => ?_) fun _ => .ite (fun _ => ?_) fun _ => ?_) fun _ => ?_
  · exact yields_typeStatement attributes.1 false
  · exact yields_typeStatement attributes.1 true
  · exact andThen moving_current fun token => thrown _
  · exact yields_headers.bind fun found => yields_closing (fun _ => rfl) fun _ _ hchild => hchild

theorem yields_importStatement :
    Yields (Begins size start) importStatement fun found => Ends size start (.statement found) := by
  refine begins_position (andThen moving_importKind fun kind => ?_)
  refine andThen (moving_separated .comma moving_moduleSpec) fun specs => ?_
  exact yields_closing (fun _ => rfl) fun _ _ hchild => hchild

theorem yields_importFromStatement :
    Yields (Begins size start) importFromStatement
      fun found => Ends size start (.statement found) := by
  refine begins_advance fun opening hopening => ?_
  subst hopening
  refine andThen moving_moduleSpec fun spec => andThen moving_importKind fun kind => ?_
  refine andThen moving_currentKind fun next => ?_
  refine orThen (.pure []) (moving_separated .comma moving_symbolSpec) fun symbols => ?_
  exact yields_closing (fun _ => rfl) fun _ _ hchild => hchild

theorem yields_pragmaStatement :
    Yields (Begins size start) pragmaStatement fun found => Ends size start (.statement found) := by
  refine begins_advance fun opening hopening => ?_
  subst hopening
  have hnumber : TokenKind.number ≠ .endOfInput := nofun
  refine andThen moving_sign fun sign => (yields_expect hnumber).bind fun token => ?_
  refine andThen (Moving.ofExcept _) fun value => andThen (moving_acceptMark .semicolon) fun _ => ?_
  exact yields_end (fun span => .statement (.pragma sign value span)) nofun (fun _ => rfl)
    (fun _ _ hchild => hchild) fun _ _ hends => hends

theorem yields_defStatement :
    Yields (Begins size start) defStatement fun found => Ends size start (.statement found) := by
  refine begins_advance fun opening hopening => ?_
  subst hopening
  refine (yields_bindings {}).bind fun pairs => ?_
  exact yields_closing (fun _ => rfl) fun _ _ hchild => hchild

theorem yields_undefStatement :
    Yields (Begins size start) undefStatement fun found => Ends size start (.statement found) := by
  refine begins_advance fun opening hopening => ?_
  subst hopening
  refine andThen (moving_separated .comma (moving_identifier _)) fun names => ?_
  exact yields_closing (fun _ => rfl) fun _ _ hchild => hchild

theorem yields_statement :
    Yields (Begins size start) statement fun parsed => Ends size start parsed.node := by
  have hstatement {step : Parse Statement}
      (hstep : Yields (Begins size start) step fun found => Ends size start (.statement found)) :
      Yields (Begins size start) (do return Parsed.statement (← step))
        fun parsed => Ends size start parsed.node :=
    hstep.bind fun found => .pure fun _ hstate => hstate
  have hkind : Yields (Begins size start) currentKind fun _ => Begins size start := fun _ => id
  refine hkind.bind fun kind => ?_
  split
  case h_1 | h_2 | h_3 | h_4 | h_5 | h_6 | h_7 => exact hstatement yields_attributedStatement
  case h_8 =>
    refine begins_position ((yields_typeStatement none false).bind fun found => ?_)
    exact .pure fun _ hstate => hstate
  case h_9 | h_10 => exact hstatement yields_importStatement
  case h_11 => exact hstatement yields_importFromStatement
  case h_12 => exact hstatement yields_pragmaStatement
  case h_13 => exact hstatement yields_defStatement
  case h_14 => exact hstatement yields_undefStatement
  case h_15 | h_16 | h_17 | h_18 =>
    exact yields_continuation.bind fun found => .pure fun _ hstate => hstate
  case h_19 => exact hstatement yields_equation

end Parse

end Equational

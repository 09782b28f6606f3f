import Equational.Proofs.Run.Passing
import Equational.Proofs.Statement.Events

/-!
# Statements pass tokens

Every statement that is read passes at least one token, and so does every item of the lists in it:
headers and their parameters, modifiers, sections of types, bindings, qualifiers and imported names.
-/

namespace Equational

namespace Parse

variable {α : Type} {place : Nat → Nat} {start : Nat} {moved : Bool}

open ParseState (Stands)

/-- Whatever becomes of a statement, the tokens ahead stay where they are. -/
theorem records_stands (place : Nat → Nat) (start : Nat) (moved : Bool) :
    Records (fun _ => Stands place start moved) (Stands place start moved) :=
  .of_moves (fun _ _ hmoves hstands => hstands.moves hmoves)
    fun _ _ _ hstands => ⟨hstands.sound, hstands.stands, hstands.start_le, hstands.passed⟩

theorem stays_expression (context : RunContext) :
    Yields (Stands place start moved) (expression context) fun _ => Stands place start moved :=
  (@Records.expression _ _ (records_stands place start moved) [] context).yields

theorem stays_resolve (collected : Run) :
    Yields (Stands place start moved) (resolve collected) fun _ => Stands place start moved :=
  ((records_stands place start moved).resolve [] collected).yields

theorem stays_qualifiers (context : RunContext) :
    Yields (Stands place start moved) (qualifiers context) fun _ => Stands place start moved :=
  (@Records.qualifiers _ _ (records_stands place start moved) [] context).yields

theorem stays_declare (header : Header) :
    Yields (Stands place start moved) (declare header) fun _ => Stands place start moved :=
  ((records_stands place start moved).declare [] header).yields

theorem passes_separated (separator : Punctuation) {item : Parse α}
    (h : Yields (Stands place start false) item fun _ => Stands place start true) :
    Yields (Stands place start false) (separated separator item)
      fun _ => Stands place start true := by
  have hexhaust (state : ParseState) : Moves .silent state { state with exhausted := true } :=
    .single (.exhaust state)
  have hagain : Yields (Stands place start true) item fun _ => Stands place start true :=
    h.imp (fun _ hstands => hstands.weaken) fun _ _ => id
  exact .separated (fun _ => Stands place start true)
    (fun _ state hstands => hstands.moves (hexhaust state)) separator h (fun _ => hagain)
    fun _ => (moving_acceptMark separator).stays

/-! ## Bindings and headers -/

theorem passes_binding (context : RunContext) :
    Yields (Stands place start false) (binding context) fun _ => Stands place start true := by
  refine (stays_expression _).bind fun pattern => (passes_expectMark .assignment).bind fun _ => ?_
  exact (stays_expression context).bind fun value => .pure fun _ => id

theorem stays_operatorHeader (begin : Nat) :
    Yields (Stands place start true) (operatorHeader begin) fun _ => Stands place start true := by
  refine Moving.stays (moving_parenthesizedOperator.bind fun name => ?_)
  refine moving_parameters.bind fun parameters => (moving_acceptMark .atSign).bind fun given => ?_
  refine .choice (moving_precedence.map some) (.pure none) fun precedence => ?_
  exact moving_alias.bind fun knownAs => (moving_spanFrom begin).bind fun span => .pure _

theorem passes_nameHeader (begin : Nat) :
    Yields (Stands place start false) (nameHeader begin) fun _ => Stands place start true := by
  refine (passes_identifier _).bind fun name => moving_currentKind.stays.bind fun kind => ?_
  refine .ite (fun _ => ?_) fun _ => ?_
  · unfold bindingHeader
    cases name.moduleName with
    | some moduleName => exact (moving_spanFrom begin).stays.bind fun span => thrown _
    | none =>
      refine moving_advance.stays.bind fun _ => (stays_expression {}).bind fun value => ?_
      exact (moving_spanFrom begin).stays.bind fun span => .pure fun _ => id
  · refine moving_parameters.stays.bind fun parameters => moving_alias.stays.bind fun knownAs => ?_
    exact (moving_spanFrom begin).stays.bind fun span => .pure fun _ => id

theorem passes_header :
    Yields (Stands place start false) header fun _ => Stands place start true := by
  refine moving_position.stays.bind fun begin state hstands => ?_
  have haccepts : Yields (Faces place start state.cursor.current.kind)
      (acceptMark .openParen >>= fun opened =>
        if opened then operatorHeader begin else nameHeader begin)
      fun _ => Stands place start true := by
    refine (yields_acceptMark .openParen).bind fun opened => .ite (fun hopened => ?_) fun hnot => ?_
    · exact (stays_operatorHeader begin).imp (fun _ h => by rwa [if_pos hopened] at h) fun _ _ => id
    · exact (passes_nameHeader begin).imp (fun _ h => (by rwa [if_neg hnot] at h : Faces _ _ _ _).1)
        fun _ _ => id
  exact haccepts state ⟨hstands, rfl⟩

theorem passes_declared :
    Yields (Stands place start false) (do
      let found ← header
      declare found
      return found) fun _ => Stands place start true :=
  passes_header.bind fun found => (stays_declare found).bind fun _ => .pure fun _ => id

theorem passes_typeSection :
    Yields (Stands place start false) typeSection fun _ => Stands place start true := by
  refine moving_position.stays.bind fun begin => moving_attributes.stays.bind fun attributes => ?_
  refine (passes_separated .comma passes_declared).bind fun headers => ?_
  exact (moving_spanFrom begin).stays.bind fun span => .pure fun _ => id

theorem passes_parameter : Yields (Stands place start false) parameter?
    fun answer state => answer.isSome → state.Stands place start true := by
  refine yields_kind fun kind => ?_
  have hpeek : Yields (Faces place start kind) (peek (if kind = .mark .tilde then 1 else 0))
      fun token state => Faces place start kind state ∧
        (kind ≠ .mark .tilde → token.kind = kind) := by
    rintro state ⟨hstands, rfl⟩
    refine ⟨⟨hstands, rfl⟩, fun hplain => ?_⟩
    rw [if_neg hplain]
    rfl
  have hsome {found : Parameter} {state : ParseState} (h : state.Stands place start true) :
      (some found).isSome → state.Stands place start true := fun _ => h
  refine hpeek.bind fun token => .ite (fun hname => .ite (fun htilde => ?_) fun hplain => ?_)
    fun _ => .pure fun _ _ => nofun
  · have hkind : kind ≠ .endOfInput := by rw [htilde]; nofun
    refine Ensures.imp (yields_passing hkind fun _ => moving_advance.stays.bind fun _ => ?_)
      (fun _ hstate => hstate.1) fun _ _ => id
    exact .pure fun _ => hsome
  · simp only [Bool.and_eq_true, decide_eq_true_eq] at hname
    by_cases hend : kind = .endOfInput
    · rintro state ⟨-, htoken⟩
      have hkind := htoken hplain
      rw [hname.1, hend] at hkind
      cases hkind
    · refine Ensures.imp (yields_passing hend fun _ => ?_) (fun _ hstate => hstate.1) fun _ _ => id
      exact .pure fun _ => hsome

theorem passes_modifier : Yields (Stands place start false) modifier?
    fun answer state => answer.isSome → state.Stands place start true := by
  refine yields_kind fun kind => ?_
  cases hmodifier : modifierOfKind? kind with
  | none => exact .pure fun _ _ => nofun
  | some modifier =>
    have hkind : kind ≠ .endOfInput := by
      rintro rfl
      cases hmodifier
    exact yields_passing hkind fun _ => .pure fun _ hstate _ => hstate

/-! ## Imports -/

theorem passes_moduleSpec :
    Yields (Stands place start false) moduleSpec fun _ => Stands place start true := by
  refine moving_position.stays.bind fun begin => yields_current fun token => ?_
  extract_lets next
  have hnext (hkind : token.kind ≠ .endOfInput) (name : ModuleName) :
      Yields (Faces place start token.kind) (next name) fun _ => Stands place start true := by
    refine yields_passing hkind fun _ => Moving.stays ((moving_accept _).bind fun named => ?_)
    refine .choice ((moving_plainName _).map some) (.pure none) fun knownAs => ?_
    exact (moving_spanFrom begin).bind fun span => .pure _
  have hfail : Yields (Faces place start token.kind) (fail "module name" : Parse ModuleName)
      fun _ _ => False := yields_fail _
  refine .ite (fun hstring => hnext (by simp [hstring]) _) fun _ => ?_
  refine .ite (fun hplain => hnext (Token.kind_ne_of_isPlainIdentifier hplain) _) fun _ => ?_
  exact hfail.bind fun _ _ => False.elim

theorem passes_symbolName :
    Yields (Stands place start false) symbolName fun _ => Stands place start true := by
  refine yields_current fun token => .ite (fun hplain => ?_) fun _ => ?_
  · refine yields_passing (Token.kind_ne_of_isPlainIdentifier hplain) fun _ => ?_
    exact .pure fun _ => id
  · refine (yields_acceptMark .openParen).bind fun accepted => ?_
    cases accepted with
    | true => exact (moving_parenthesizedOperator.bind fun name => .pure _).stays
    | false =>
      refine .ite (fun htrue => absurd htrue Bool.false_ne_true) fun _ => ?_
      refine .ite (fun hstart => ?_) fun _ => yields_fail _
      exact (passes_operator (kind_ne_of_isOperatorStart hstart)).bind fun op => .pure fun _ => id

theorem passes_symbolSpec :
    Yields (Stands place start false) symbolSpec fun _ => Stands place start true := by
  refine moving_position.stays.bind fun begin => passes_symbolName.bind fun symbol => ?_
  refine Moving.stays ((moving_accept _).bind fun renamed => ?_)
  refine .choice (moving_symbolName.map some) (.pure none) fun knownAs => ?_
  exact (moving_spanFrom begin).bind fun span => .pure _

/-! ## Equations -/

theorem passes_qualifier (context : RunContext) :
    Yields (Stands place start false) (qualifier? context)
      fun answer state => answer.isSome → state.Stands place start true := by
  have hword {word : Keyword} : TokenKind.word word ≠ .endOfInput := nofun
  refine moving_position.stays.bind fun begin => yields_kind fun kind => ?_
  split
  · refine yields_passing hword fun _ => (stays_expression context).bind fun condition => ?_
    exact (moving_spanFrom begin).stays.bind fun span => .pure fun _ hstate _ => hstate
  · refine yields_passing hword fun _ => (moving_spanFrom begin).stays.bind fun span => ?_
    exact .pure fun _ hstate _ => hstate
  · refine yields_passing hword fun _ => ?_
    have hbinding : Yields (Stands place start false) (binding context)
        fun _ => Stands place start true := passes_binding context
    have hbindings := passes_separated .comma hbinding
    refine (hbindings.imp (fun _ hstate => hstate.weaken) fun _ _ => id).bind fun bindings => ?_
    exact (moving_spanFrom begin).stays.bind fun span => .pure fun _ hstate _ => hstate
  · exact .pure fun _ _ => nofun

theorem passes_clause (begin : Nat) :
    Yields (Stands place start false) (clause begin) fun _ => Stands place start true := by
  have hleading : Yields (Stands place start false) leadingQualifiers
      fun _ => Stands place start false :=
    (@Records.leadingQualifiers _ _ (records_stands place start false) []).yields
  refine hleading.bind fun leading => (moving_expectMark .assignment).stays.bind fun _ => ?_
  refine (stays_expression .guarded).bind fun rhs => ?_
  refine (stays_qualifiers .guarded).bind fun trailing => ?_
  refine (passes_expectMark .semicolon).bind fun _ => ?_
  exact (moving_spanFrom begin).stays.bind fun span => .pure fun _ => id

theorem passes_equation :
    Yields (Stands place start false) equation fun _ => Stands place start true := by
  refine moving_position.stays.bind fun begin => (moving_run .pattern).stays.bind fun left => ?_
  refine .ite (fun _ => ?_) fun _ => ?_
  · exact (moving_unexpected _).stays.bind fun diagnostic => thrown diagnostic
  · refine (stays_resolve left).bind fun lhs => (passes_clause begin).bind fun first => ?_
    exact (moving_spanFrom begin).stays.bind fun span => .pure fun _ => id

theorem passes_continuation :
    Yields (Stands place start false) continuation fun _ => Stands place start true := by
  refine Moving.get.stays.bind fun state => .ite (fun _ => ?_) fun _ => ?_
  · exact moving_position.stays.bind fun begin => passes_clause begin
  · exact moving_current.stays.bind fun token => thrown _

/-! ## Statements -/

theorem passes_closing {begin : Nat} {node : Span → Statement} :
    Yields (Stands place start false)
      (do let _ ← expectMark .semicolon; return node (← spanFrom begin))
      fun _ => Stands place start true :=
  (passes_expectMark .semicolon).bind fun _ =>
    (moving_spanFrom begin).stays.bind fun _ => .pure fun _ => id

theorem passes_typeStatement (begin : Nat) (scope : Option Scope) (external : Bool) :
    Yields (Stands place start false) (typeStatement begin scope external)
      fun _ => Stands place start true := by
  refine (moving_expect _).stays.bind fun _ => (moving_identifier _).stays.bind fun name => ?_
  refine .ite (fun _ => (moving_accept _).stays.bind fun renamed => ?_) fun _ =>
    (moving_acceptMark .equals).stays.bind fun synonymous => .ite (fun _ => ?_) fun _ => ?_
  · exact .choice ((moving_plainName _).map some).stays (Moving.pure none).stays
      fun knownAs => passes_closing
  · exact (moving_identifier _).stays.bind fun target => passes_closing
  · refine (moving_acceptMark .colon).stays.bind fun derived => ?_
    refine .choice ((moving_identifier _).map some).stays (Moving.pure none).stays
      fun supertype => (moving_acceptMark .assignment).stays.bind fun defined => ?_
    refine .choice ?_ (.pure fun _ => id) fun sections => passes_closing
    exact (passes_separated .pipe passes_typeSection).imp (fun _ => id) fun _ _ h => h.weaken

theorem passes_attributedStatement :
    Yields (Stands place start false) attributedStatement fun _ => Stands place start true := by
  refine moving_position.stays.bind fun begin => moving_attributes.stays.bind fun attributes => ?_
  refine moving_currentKind.stays.bind fun kind => .ite (fun _ => ?_) fun _ => ?_
  · refine .ite (fun _ => passes_typeStatement _ _ _) fun _ => ?_
    refine .ite (fun _ => passes_typeStatement _ _ _) fun _ => ?_
    exact moving_current.stays.bind fun token => thrown _
  · refine Ensures.bind ?_ fun headers => passes_closing
    exact (passes_separated .comma passes_declared).imp (fun _ => id) fun _ _ h => h.weaken

theorem passes_importStatement :
    Yields (Stands place start false) importStatement fun _ => Stands place start true := by
  refine moving_position.stays.bind fun begin => moving_importKind.stays.bind fun kind => ?_
  exact (moving_separated .comma moving_moduleSpec).stays.bind fun specs => passes_closing

theorem passes_importFromStatement :
    Yields (Stands place start false) importFromStatement fun _ => Stands place start true := by
  refine moving_advance.stays.bind fun opening => moving_moduleSpec.stays.bind fun spec => ?_
  refine moving_importKind.stays.bind fun kind => moving_currentKind.stays.bind fun next => ?_
  exact .choice (Moving.pure []).stays (moving_separated .comma moving_symbolSpec).stays
    fun symbols => passes_closing

theorem passes_pragmaStatement :
    Yields (Stands place start false) pragmaStatement fun _ => Stands place start true := by
  have hnumber : TokenKind.number ≠ .endOfInput := nofun
  refine moving_advance.stays.bind fun opening => moving_sign.stays.bind fun sign => ?_
  refine (passes_expect hnumber).bind fun token => (Moving.ofExcept _).stays.bind fun value => ?_
  refine (moving_acceptMark .semicolon).stays.bind fun _ => ?_
  exact (moving_spanFrom _).stays.bind fun span => .pure fun _ => id

theorem passes_defStatement :
    Yields (Stands place start false) defStatement fun _ => Stands place start true := by
  refine moving_advance.stays.bind fun opening => Ensures.bind ?_ fun pairs => passes_closing
  exact (passes_separated .comma (passes_binding {})).imp (fun _ => id) fun _ _ h => h.weaken

theorem passes_undefStatement :
    Yields (Stands place start false) undefStatement fun _ => Stands place start true := by
  refine moving_advance.stays.bind fun opening => ?_
  exact (moving_separated .comma (moving_identifier _)).stays.bind fun names => passes_closing

theorem passes_statement :
    Yields (Stands place start false) statement fun _ => Stands place start true := by
  have hparsed {α : Type} {step : Parse α} {node : α → Parsed}
      (h : Yields (Stands place start false) step fun _ => Stands place start true) :
      Yields (Stands place start false) (do return node (← step))
        fun _ => Stands place start true :=
    h.bind fun found => .pure fun _ => id
  refine moving_currentKind.stays.bind fun kind => ?_
  split
  case h_1 | h_2 | h_3 | h_4 | h_5 | h_6 | h_7 => exact hparsed passes_attributedStatement
  case h_8 =>
    exact moving_position.stays.bind fun begin => hparsed (passes_typeStatement begin none false)
  case h_9 | h_10 => exact hparsed passes_importStatement
  case h_11 => exact hparsed passes_importFromStatement
  case h_12 => exact hparsed passes_pragmaStatement
  case h_13 => exact hparsed passes_defStatement
  case h_14 => exact hparsed passes_undefStatement
  case h_15 | h_16 | h_17 | h_18 => exact hparsed passes_continuation
  case h_19 => exact hparsed passes_equation

end Parse

end Equational

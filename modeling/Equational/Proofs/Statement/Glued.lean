import Equational.Proofs.Run.Glued
import Equational.Proofs.Statement.Coupled

/-!
# Statements over a glued dot

A statement is read alike over a symbol with a glued dot and over its parts.  Where nothing but the
lambda leads to the symbol, both readings see the same token at every step.
-/

namespace Equational

namespace Parse

variable {α : Type} {γ : Gluing} {bound before after depth : Nat} {token : Token}

/-! ## Parameters -/

theorem parameter_eq : parameter? = (do
    if (← currentKind) = .mark .tilde then
      let token ← peek 1
      if token.kind = .variableName && !token.isQualified then
        let _ ← advance
        if (← currentKind) = .variableName then
          let _ ← advance
          return some ⟨.ofToken token, true⟩
        else return none
      else return none
    else
      let token ← current
      if token.kind = .variableName && !token.isQualified then
        let _ ← advance
        return some ⟨.ofToken token, false⟩
      else return none) := by
  have hcases : parameter? = (do
      if (← currentKind) = .mark .tilde then
        let token ← peek 1
        if token.kind = .variableName && !token.isQualified then
          let _ ← advance
          let _ ← advance
          return some ⟨.ofToken token, true⟩
        else return none
      else
        let token ← current
        if token.kind = .variableName && !token.isQualified then
          let _ ← advance
          return some ⟨.ofToken token, false⟩
        else return none) := by
    refine congrArg (currentKind >>= ·) (funext fun found => ?_)
    by_cases htilde : found = .mark .tilde
    · simp only [htilde, decide_true, if_true]
    · simp only [htilde, decide_false, if_false]
      rfl
  rw [hcases]
  funext state
  change (if state.cursor.current.kind = .mark .tilde then _ else _ : Parse (Option Parameter))
    state = (if state.cursor.current.kind = .mark .tilde then _ else _ : Parse (Option Parameter))
    state
  by_cases htilde : state.cursor.current.kind = .mark .tilde
  · rw [if_pos htilde, if_pos htilde]
    change (if (decide ((state.cursor.peek 1).kind = .variableName) && _) = true then _ else _ :
        Parse (Option Parameter)) state =
      (if (decide ((state.cursor.peek 1).kind = .variableName) && _) = true then _ else _ :
        Parse (Option Parameter)) state
    split
    · rename_i hname
      exact advance_looked (by rw [htilde]; nofun)
        (of_decide_eq_true (Bool.and_eq_true_iff.mp hname).1) _ _
    · rfl
  · rw [if_neg htilde, if_neg htilde]

section Tight

variable (htight : γ.loose = false) (hlimit : bound ≤ γ.limit)

/-! ## Looking -/

include htight

theorem agrees_looking {next : Token → Parse α}
    (h : ∀ token, AgreesAt γ bound before token (next token) after) :
    Agrees γ bound before (Parse.current >>= next) after :=
  .current h (confronts_of_tight htight _ _)

theorem agrees_lookingAtKind {next : TokenKind → Parse α}
    (h : ∀ token, AgreesAt γ bound before token (next token.kind) after) :
    Agrees γ bound before (currentKind >>= next) after :=
  .currentKind h (confronts_of_tight htight _ _)

omit htight

theorem agreesAt_advance_variable (htoken : token.kind = .variableName) :
    AgreesAt γ bound depth token advance depth :=
  .advance (passes_of_isIdentifier (htoken ▸ rfl))

theorem agrees_expectNumber : Agrees γ bound depth (expect .number) depth :=
  agrees_expect nofun ⟨.plain rfl, nofun⟩

theorem agreesAt_advance_plainIdentifier (htoken : token.isPlainIdentifier) :
    AgreesAt γ bound depth token advance depth :=
  .advance (passes_of_isIdentifier (isIdentifier_of_isPlainIdentifier htoken))

/-! ## Expressions -/

theorem agrees_resolve (collected : Run) : Agrees γ bound depth (resolve collected) depth := by
  refine .get (fun state => ?_) fun _ _ => rfl
  split
  · exact .pure _
  · exact (agrees_report _).bind fun _ => .pure _

section Expressions

include hlimit

theorem agrees_expression (context : RunContext) :
    Agrees γ bound depth (expression context) depth :=
  (agrees_run hlimit context).bind agrees_resolve

theorem agrees_binding (context : RunContext) :
    Agrees γ bound depth (binding context) depth := by
  refine (agrees_expression hlimit _).bind fun pattern => ?_
  refine (agrees_expectMark .assignment (passes_mark rfl nofun)).bind fun _ => ?_
  exact (agrees_expression hlimit context).bind fun value => .pure _

end Expressions

/-! ## Headers -/

section Headers

include htight

theorem agrees_operatorName : Agrees γ bound depth operatorName depth := by
  refine agrees_looking htight fun token => .ite (fun hname => ?_) fun _ =>
    .ite (fun hstart => ?_) fun _ => (agrees_fail _).at_token token
  · exact (AgreesAt.advance (passes_of_isIdentifier (hname ▸ rfl))).bind fun _ => .pure _
  · exact (agreesAt_operator hstart).bind fun op => .pure _

theorem agrees_parenthesizedOperator :
    Agrees γ bound (depth + 1) parenthesizedOperator depth :=
  (agrees_operatorName htight).bind fun _ =>
    (agrees_expectMark .closeParen (passes_closingMark .paren)).bind fun _ => .pure _

theorem agrees_parameter : Agrees γ bound depth parameter? depth := by
  have hvariable {token : Token} {p : Bool}
      (h : (decide (token.kind = .variableName) && p) = true) : token.kind = .variableName :=
    of_decide_eq_true (Bool.and_eq_true_iff.mp h).1
  rw [parameter_eq]
  refine Agrees.peekBehind ?_ ?_ (passes_mark rfl ?_) (fun tilde token htilde => ?_) ?_ ?_
  · nofun
  · nofun
  · nofun
  · refine .ite (fun _ => ?_) fun _ => (Agrees.pure none).at_token tilde
    refine (AgreesAt.advance_mark htilde rfl nofun).bind fun _ => ?_
    refine .kindIs nofun nofun (fun other hname => ?_) (.pure none)
    exact (agreesAt_advance_variable hname).bind fun _ => .pure _
  · rw [γ.kind, γ.dot_kind]
    rfl
  · refine agrees_looking htight fun token => .ite (fun hname => ?_) fun _ =>
      (Agrees.pure none).at_token token
    exact (agreesAt_advance_variable (hvariable hname)).bind fun _ => .pure _

theorem agrees_parameters : Agrees γ bound depth parameters depth :=
  .get (fun state => agrees_many (agrees_parameter htight) state.limit []) fun _ _ => rfl

theorem agrees_precedence : Agrees γ bound depth precedence depth := by
  refine .acceptingMark ?_ (passes_opening (.inl rfl)) ?_ ?_
  · nofun
  · exact (agrees_parenthesizedOperator htight).bind fun name => .pure _
  · refine agrees_expectNumber.bind fun token => (Agrees.ofExcept _).bind fun literal => ?_
    split
    · exact .ite (.pure _) (.throw _)
    · exact .throw _

theorem agrees_alias : Agrees γ bound depth alias? depth := by
  refine (agrees_acceptWord _).bind fun named => .ite ?_ (.pure none)
  refine agrees_looking htight fun token => .ite (fun hname => ?_) fun _ =>
    .ite (fun hstart => ?_) fun _ => (agrees_fail _).at_token token
  · exact (agreesAt_advance_plainIdentifier hname).bind fun _ => .pure _
  · exact (agreesAt_operator hstart).bind fun op => .pure _

theorem agrees_operatorHeader (start : Nat) :
    Agrees γ bound (depth + 1) (operatorHeader start) depth := by
  refine (agrees_parenthesizedOperator htight).bind fun name => ?_
  refine (agrees_parameters htight).bind fun parameters => ?_
  refine (agrees_acceptMark .atSign nofun (passes_mark rfl nofun)).bind fun ranked => ?_
  refine .choice ((agrees_precedence htight).map some) (.pure none) fun precedence => ?_
  exact (agrees_alias htight).bind fun knownAs => (agrees_spanFrom start).bind fun span => .pure _

include hlimit

omit htight in
theorem agreesAt_bindingHeader (htoken : token.kind = .mark .assignment) (start : Nat)
    (bound' : Identifier) : AgreesAt γ bound depth token (bindingHeader start bound') depth := by
  unfold bindingHeader
  cases bound'.moduleName with
  | some moduleName =>
    exact ((agrees_spanFrom start).bind fun span => Agrees.throw _).at_token token
  | none =>
    refine (AgreesAt.advance_mark htoken rfl nofun).bind fun _ => ?_
    refine (agrees_expression hlimit {}).bind fun value => ?_
    exact (agrees_spanFrom start).bind fun span => .pure _

theorem agrees_nameHeader (start : Nat) : Agrees γ bound depth (nameHeader start) depth := by
  refine (agrees_identifier _).bind fun name => .kindIs nofun nofun (fun token htoken => ?_) ?_
  · exact agreesAt_bindingHeader hlimit htoken start name
  · refine (agrees_parameters htight).bind fun parameters => ?_
    exact (agrees_alias htight).bind fun knownAs => (agrees_spanFrom start).bind fun span => .pure _

theorem agrees_header : Agrees γ bound depth header depth := by
  refine agrees_position.bind fun start => .acceptingMark ?_ (passes_opening (.inl rfl)) ?_ ?_
  · nofun
  · exact agrees_operatorHeader htight start
  · exact agrees_nameHeader htight hlimit start

omit htight hlimit in
theorem agrees_declare (header : Header) : Agrees γ bound depth (declare header) depth where
  lightens state value final hstep := by
    obtain ⟨table, hfinal⟩ := exists_table_declare header state
    rw [finalState, hstep] at hfinal
    have hcursor := congrArg ParseState.cursor hfinal
    exact Nat.le_of_eq (congrArg Cursor.weight hcursor)
  together state state' halong := by
    cases halong with
    | intro h hstate =>
      unfold declare
      cases OperatorTable.declare header state.table with
      | ok _ table => exact .ok () (.intro { state with table } h hstate)
      | error diagnostic table =>
        exact .error diagnostic (.intro { state with table }
          (h.mono (Nat.le_refl _) (Nat.zero_le _)) hstate)

theorem agrees_headers : Agrees γ bound depth headers depth := by
  refine agrees_separated .comma nofun (passes_mark rfl nofun) ?_
  refine (agrees_header htight hlimit).bind fun header => ?_
  exact (agrees_declare header).bind fun _ => .pure _

end Headers

/-! ## Scopes and modifiers -/

theorem agrees_scope : Agrees γ bound depth scope? depth := by
  refine (agrees_acceptWord _).bind fun found => .ite (.pure _) ?_
  exact (agrees_acceptWord _).bind fun found => .ite (.pure _) (.pure none)

theorem agreesAt_modifier {modifier : Modifier} (h : modifierOfKind? token.kind = some modifier) :
    AgreesAt γ bound depth token advance depth := by
  refine .advance ⟨.plain (isPlain_of_modifierOfKind h), fun hkind => ?_⟩
  rw [hkind] at h
  cases h

include htight

theorem agrees_modifier : Agrees γ bound depth modifier? depth := by
  refine agrees_lookingAtKind htight fun token => ?_
  split
  · rename_i modifier hmodifier
    exact (agreesAt_modifier hmodifier).bind fun _ => .pure _
  · exact (Agrees.pure none).at_token token

theorem agrees_attributes : Agrees γ bound depth attributes depth := by
  refine agrees_scope.bind fun scope => .get (fun state => ?_) fun _ _ => rfl
  exact (agrees_many (agrees_modifier htight) state.limit []).bind fun modifiers => .pure _

omit htight in
theorem agrees_ending (start : Nat) (node : Span → α) :
    Agrees γ bound depth (do
      let _ ← expectMark .semicolon
      return node (← spanFrom start)) depth :=
  (agrees_expectMark .semicolon passes_semicolon).bind fun _ =>
    (agrees_spanFrom start).bind fun _ => .pure _

/-! ## Types -/

section Types

include hlimit

theorem agrees_typeSection : Agrees γ bound depth typeSection depth := by
  refine agrees_position.bind fun start => (agrees_attributes htight).bind fun attributes => ?_
  refine (agrees_headers htight hlimit).bind fun headers => ?_
  exact (agrees_spanFrom start).bind fun span => .pure _

omit htight hlimit in
theorem agrees_typeRename (start : Nat) (scope : Option Scope) (name : Identifier) :
    Agrees γ bound depth (typeRename start scope name) depth := by
  refine (agrees_acceptWord _).bind fun named => ?_
  refine .choice ((agrees_plainName _).map some) (.pure none) fun knownAs => ?_
  exact agrees_ending start _

omit htight hlimit in
theorem agrees_typeSynonym (start : Nat) (scope : Option Scope) (name : Name) :
    Agrees γ bound depth (typeSynonym start scope name) depth :=
  (agrees_identifier _).bind fun _ => agrees_ending start _

theorem agrees_typeDefinition (start : Nat) (scope : Option Scope) (external : Bool)
    (name : Name) : Agrees γ bound depth (typeDefinition start scope external name) depth := by
  refine (agrees_acceptMark .colon nofun (passes_mark rfl nofun)).bind fun typed => ?_
  refine .choice ((agrees_identifier _).map some) (.pure none) fun supertype => ?_
  refine (agrees_acceptMark .assignment nofun (passes_mark rfl nofun)).bind fun defined => ?_
  refine .choice (agrees_separated .pipe nofun (passes_mark rfl nofun)
    (agrees_typeSection htight hlimit)) (.pure []) fun sections => ?_
  exact agrees_ending start _

theorem agrees_typeStatement (start : Nat) (scope : Option Scope) (external : Bool) :
    Agrees γ bound depth (typeStatement start scope external) depth := by
  refine (agrees_expectWord _).bind fun _ => (agrees_identifier _).bind fun name => ?_
  refine .ite (agrees_typeRename start scope name) ?_
  refine (agrees_acceptMark .equals nofun (passes_mark rfl nofun)).bind fun synonym => ?_
  exact .ite (agrees_typeSynonym start scope _)
    (agrees_typeDefinition htight hlimit start scope external _)

theorem agrees_attributedStatement : Agrees γ bound depth attributedStatement depth := by
  refine agrees_position.bind fun start => (agrees_attributes htight).bind fun attributes => ?_
  refine .kindIs nofun nofun (fun token _ => .ite (fun _ => ?_) fun _ => .ite (fun _ => ?_)
    fun _ => ?_) ?_
  · exact (agrees_typeStatement htight hlimit start _ false).at_token token
  · exact (agrees_typeStatement htight hlimit start _ true).at_token token
  · exact (agrees_looking htight fun token => (Agrees.throw _).at_token token).at_token token
  · exact (agrees_headers htight hlimit).bind fun _ => agrees_ending start _

end Types

/-! ## Imports -/

theorem agrees_moduleSpec : Agrees γ bound depth moduleSpec depth := by
  refine agrees_position.bind fun start => agrees_looking htight fun token => ?_
  have hnext (h : AgreesAt γ bound depth token advance depth) (name : ModuleName) :
      AgreesAt γ bound depth token (do
        let _ ← advance
        let knownAs ←
          if ← accept (.word .asWord) then some <$> plainName "module alias" else pure none
        return (⟨name, knownAs, ← spanFrom start⟩ : ModuleSpec)) depth := by
    refine h.bind fun _ => (agrees_acceptWord _).bind fun named => ?_
    refine .choice ((agrees_plainName _).map some) (.pure none) fun knownAs => ?_
    exact (agrees_spanFrom start).bind fun span => .pure _
  refine .ite (fun hstring => ?_) fun _ => .ite (fun hname => ?_) fun _ => ?_
  · exact hnext (.advance ⟨.plain (hstring ▸ rfl), hstring ▸ nofun⟩) _
  · exact hnext (agreesAt_advance_plainIdentifier hname) _
  · rw [fail_bind]
    exact (agrees_fail _).at_token token

omit htight in
theorem agrees_importKind : Agrees γ bound depth importKind depth := by
  refine (agrees_acceptWord _).bind fun importing => .ite (.pure _) ?_
  exact (agrees_acceptWord _).bind fun including => .ite (.pure _) (agrees_fail _)

theorem agrees_importStatement : Agrees γ bound depth importStatement depth := by
  refine agrees_position.bind fun start => agrees_importKind.bind fun kind => ?_
  refine (agrees_separated .comma nofun (passes_mark rfl nofun)
    (agrees_moduleSpec htight)).bind fun specs => ?_
  exact agrees_ending start _

theorem agrees_symbolName : Agrees γ bound depth symbolName depth := by
  have hmoving (token : Token) : Moving .silent (do
      if ← acceptMark .openParen then return SymbolName.operator (← parenthesizedOperator).text
      else if token.kind.isOperatorStart then return .operator (← operator).name.text
      else fail "imported symbol") :=
    (moving_acceptMark _).bind fun _ => .ite (moving_parenthesizedOperator.bind fun _ => .pure _)
      (.ite (moving_operator.bind fun _ => .pure _) (moving_fail _))
  refine agrees_looking htight fun token => .ite (fun hname => ?_) fun _ =>
    .accepting (hmoving token).lightens (fun hopening => ?_) fun _ => ?_
  · exact (agreesAt_advance_plainIdentifier hname).bind fun _ => .pure _
  · refine (AgreesAt.advance (passes_opening (.inl hopening))).bind fun _ => ?_
    exact (agrees_parenthesizedOperator htight).bind fun name => .pure _
  · rw [if_neg nofun]
    refine .ite (fun hstart => ?_) fun _ => (agrees_fail _).at_token token
    exact (agreesAt_operator hstart).bind fun op => .pure _

theorem agrees_symbolSpec : Agrees γ bound depth symbolSpec depth := by
  refine agrees_position.bind fun start => (agrees_symbolName htight).bind fun symbol => ?_
  refine (agrees_acceptWord _).bind fun renamed => ?_
  refine .choice ((agrees_symbolName htight).map some) (.pure none) fun knownAs => ?_
  exact (agrees_spanFrom start).bind fun span => .pure _

theorem agreesAt_importFromStatement (htoken : token.kind = .word .fromWord) :
    AgreesAt γ bound depth token importFromStatement depth := by
  refine (AgreesAt.advance_word htoken).bind fun opening => ?_
  refine (agrees_moduleSpec htight).bind fun spec => agrees_importKind.bind fun kind => ?_
  have hnext (symbols : List SymbolSpec) : Agrees γ bound depth (do
      let _ ← expectMark .semicolon
      return Statement.importsFrom spec kind symbols (← spanFrom opening.span.start)) depth :=
    agrees_ending _ _
  refine .kindIs nofun nofun (fun token _ => ((Agrees.pure _).bind hnext).at_token token) ?_
  exact (agrees_separated .comma nofun (passes_mark rfl nofun)
    (agrees_symbolSpec htight)).bind hnext

/-! ## Pragmas, definitions -/

theorem agrees_sign : Agrees γ bound depth sign? depth := by
  have hsymbol {token : Token} {p : Bool}
      (h : (decide (token.kind = .operatorSymbol) && p) = true) :
      AgreesAt γ bound depth token advance depth := by
    have hkind := of_decide_eq_true (Bool.and_eq_true_iff.mp h).1
    exact .advance (passes_of_isOperatorStart (hkind ▸ rfl))
  refine agrees_looking htight fun token => .ite (fun hplus => ?_) fun _ =>
    .ite (fun hminus => ?_) fun _ => (Agrees.pure none).at_token token
  · exact (hsymbol hplus).bind fun _ => .pure _
  · exact (hsymbol hminus).bind fun _ => .pure _

theorem agreesAt_pragmaStatement (htoken : token.kind = .mark .atSign) :
    AgreesAt γ bound depth token pragmaStatement depth := by
  refine (AgreesAt.advance_mark htoken rfl nofun).bind fun opening => ?_
  refine (agrees_sign htight).bind fun sign => agrees_expectNumber.bind fun token => ?_
  refine (Agrees.ofExcept _).bind fun value => ?_
  refine (agrees_acceptMark .semicolon nofun passes_semicolon).bind fun _ => ?_
  exact (agrees_spanFrom _).bind fun span => .pure _

omit htight in
include hlimit in
theorem agreesAt_defStatement (htoken : token.kind = .word .defWord) :
    AgreesAt γ bound depth token defStatement depth := by
  refine (AgreesAt.advance_word htoken).bind fun opening => ?_
  refine (agrees_separated .comma nofun (passes_mark rfl nofun)
    (agrees_binding hlimit {})).bind fun pairs => ?_
  exact agrees_ending _ _

omit htight in
theorem agreesAt_undefStatement (htoken : token.kind = .word .undefWord) :
    AgreesAt γ bound depth token undefStatement depth := by
  refine (AgreesAt.advance_word htoken).bind fun opening => ?_
  refine (agrees_separated .comma nofun (passes_mark rfl nofun)
    (agrees_identifier _)).bind fun names => ?_
  exact agrees_ending _ _

/-! ## Equations -/

include hlimit

theorem agrees_qualifier (context : RunContext) :
    Agrees γ bound depth (qualifier? context) depth := by
  refine agrees_position.bind fun start => agrees_lookingAtKind htight fun token => ?_
  generalize hkind : token.kind = kind
  split
  · refine (AgreesAt.advance_word hkind).bind fun _ => ?_
    refine (agrees_expression hlimit context).bind fun condition => ?_
    exact (agrees_spanFrom start).bind fun span => .pure _
  · refine (AgreesAt.advance_word hkind).bind fun _ => ?_
    exact (agrees_spanFrom start).bind fun span => .pure _
  · refine (AgreesAt.advance_word hkind).bind fun _ => ?_
    refine (agrees_separated .comma nofun (passes_mark rfl nofun)
      (agrees_binding hlimit context)).bind fun bindings => ?_
    exact (agrees_spanFrom start).bind fun span => .pure _
  · exact (Agrees.pure none).at_token token

theorem agrees_qualifiers (context : RunContext) :
    Agrees γ bound depth (qualifiers context) depth :=
  .get (fun state => agrees_many (agrees_qualifier htight hlimit context) state.limit [])
    fun _ _ => rfl

theorem agrees_leadingQualifiers : Agrees γ bound depth leadingQualifiers depth := by
  refine agrees_lookingAtKind htight fun token => .ite (fun _ => ?_) fun _ =>
    (Agrees.pure []).at_token token
  refine ((agrees_qualifiers htight hlimit _).bind fun found => ?_).at_token token
  exact (agrees_expectMark .colon (passes_mark rfl nofun)).bind fun _ => .pure _

theorem agrees_clause (start : Nat) : Agrees γ bound depth (clause start) depth := by
  refine (agrees_leadingQualifiers htight hlimit).bind fun leading => ?_
  refine (agrees_expectMark .assignment (passes_mark rfl nofun)).bind fun _ => ?_
  refine (agrees_expression hlimit _).bind fun rhs => ?_
  exact (agrees_qualifiers htight hlimit _).bind fun trailing => agrees_ending start _

theorem agrees_equation : Agrees γ bound depth equation depth := by
  refine agrees_position.bind fun start => (agrees_run hlimit _).bind fun left => ?_
  refine .ite (agrees_fail _) ((agrees_resolve left).bind fun lhs => ?_)
  refine (agrees_clause htight hlimit start).bind fun first => ?_
  exact (agrees_spanFrom start).bind fun span => .pure _

theorem agrees_continuation : Agrees γ bound depth continuation depth := by
  refine .get (fun state => .ite (agrees_position.bind (agrees_clause htight hlimit)) ?_)
    fun _ _ => rfl
  exact agrees_looking htight fun token => (Agrees.throw _).at_token token

/-! ## Statements -/

theorem agrees_statement : Agrees γ bound depth statement depth := by
  refine agrees_lookingAtKind htight fun token => ?_
  generalize hkind : token.kind = kind
  split
  iterate 7 exact ((agrees_attributedStatement htight hlimit).bind fun _ => .pure _).at_token token
  · refine Agrees.at_token (agrees_position.bind fun start => ?_) token
    exact (agrees_typeStatement htight hlimit start none false).bind fun _ => .pure _
  iterate 2 exact ((agrees_importStatement htight).bind fun _ => .pure _).at_token token
  · exact (agreesAt_importFromStatement htight hkind).bind fun _ => .pure _
  · exact (agreesAt_pragmaStatement htight hkind).bind fun _ => .pure _
  · exact (agreesAt_defStatement hlimit hkind).bind fun _ => .pure _
  · exact (agreesAt_undefStatement hkind).bind fun _ => .pure _
  iterate 4 exact ((agrees_continuation htight hlimit).bind fun _ => .pure _).at_token token
  · exact ((agrees_equation htight hlimit).bind fun _ => .pure _).at_token token

end Tight

end Parse

end Equational

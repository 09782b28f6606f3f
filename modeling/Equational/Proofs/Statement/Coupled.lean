import Equational.Proofs.Run.Coupled
import Equational.Proofs.Statement.Moving

/-!
# Coupled parts of statements

The steps that read expressions, headers, scopes, types, imports and qualifiers are coupled, up to
where the statement is ended.  Runs are resolved and headers declared under tables that are the same
in both runs, and neither depends on where the text stands.
-/

namespace Equational

namespace Parse

variable {κ : Coupling} {stage : Stage}

/-! ## Expressions -/

theorem couples_resolve (collected : Run) :
    Couples κ stage (resolve collected) (resolve (relocate κ.place collected)) fun _ => stage := by
  refine .of_moving (moving_resolve collected) (fun hloose _ => hloose) fun shared table hfits => ?_
  have hresolved : Relocated κ.place (relocate κ.place) (collected.resolve table)
      ((relocate κ.place collected).resolve table) :=
    Run.relocated_resolve κ.place table collected
  have hfirst : (κ.first.state shared table).table = table := rfl
  have hsecond : (κ.second.state (relocate κ.place shared) table).table = table := rfl
  rw [resolve_eq, resolve_eq, hfirst, hsecond]
  generalize collected.resolve table = result at hresolved ⊢
  generalize (relocate κ.place collected).resolve table = result' at hresolved ⊢
  cases hresolved with
  | ok expr => exact .ok expr shared table hfits
  | error diagnostic hphase =>
    rw [span_relocate_run]
    refine .ok (Expr.error collected.span)
      ⟨shared.passed, shared.ahead, diagnostic :: shared.reported⟩
      table ?_
    exact { hfits with reported := List.forall_mem_cons.mpr ⟨hphase, hfits.reported⟩ }

theorem couples_expression (context : RunContext) :
    Couples κ stage (expression context) (expression context) fun _ => stage.loosen := by
  refine (couples_run context).bind fun collected => ?_
  exact (couples_resolve collected).entails (.assumed (.refl _) _) fun _ => .refl _

theorem couples_binding (context : RunContext) :
    Couples κ stage (binding context) (binding context) fun _ => stage.pass.loosen := by
  refine (couples_expression _).bind fun pattern => ?_
  refine Couples.bind (couples_expect (.plain _ rfl)) fun _ => ?_
  exact (couples_expression context).bind fun value => .pure (.refl _) fun _ => rfl

/-! ## Single headers -/

theorem couples_operatorName :
    Couples κ stage operatorName operatorName fun _ => stage.pass := by
  refine couples_current.bind fun token => .ite Iff.rfl (fun hkind => ?_) fun _ => ?_
  · rw [hkind]
    exact Couples.bind (couples_advance rfl) fun _ => .pure (.refl _) fun _ => rfl
  · refine .ite Iff.rfl (fun hstart => ?_) fun _ => couples_fail _ _
    exact (couples_operator hstart).bind fun op => .pure (.refl _) fun _ => rfl

theorem couples_parenthesizedOperator {opened : List Bracket}
    (hopened : stage.opened = .paren :: opened) :
    Couples κ stage parenthesizedOperator parenthesizedOperator fun _ => stage.passTo opened := by
  refine couples_operatorName.bind fun name => ?_
  have hclosing : Passes stage.pass.opened (.mark .closeParen) opened :=
    hopened ▸ Passes.closing opened .paren
  refine (couples_expect hclosing).bind fun _ => .pure ?_ fun _ => rfl
  exact ⟨Nat.sub_le _ _, rfl, nofun, nofun, id, id, id⟩

theorem couples_parameter : Couples κ stage parameter? parameter? fun answer =>
    if answer.isSome then stage.pass.loosen else stage.loosen := by
  refine couples_currentKind.bind fun kind => ?_
  by_cases hspecial : kind = .mark .tilde
  · obtain rfl := hspecial
    refine Couples.bind (couples_peek_next (.plain _ rfl)) fun token => .ite Iff.rfl ?_ fun _ => ?_
    · intro hname
      simp only [Bool.and_eq_true, decide_eq_true_eq] at hname
      refine Couples.bind (couples_advance_expected rfl) fun _ => ?_
      rw [hname.1]
      refine Couples.bind (couples_advance rfl) fun _ => .pure ?_ fun _ => rfl
      exact (Stage.Entails.refl stage.pass).passed.loosen
    · refine .pure ?_ fun _ => rfl
      exact .loosely (Nat.le_refl _) rfl id id
  · simp only [relocate_placeless, id, hspecial, decide_false, if_false]
    refine couples_current.bind fun token => .ite Iff.rfl ?_ fun _ => ?_
    · intro hname
      simp only [Bool.and_eq_true, decide_eq_true_eq] at hname
      rw [hname.1]
      refine Couples.bind (couples_advance rfl) fun _ => .pure ?_ fun _ => rfl
      exact (Stage.Entails.refl stage.pass).loosen
    · exact .pure ((Stage.Entails.refl stage).looked _).loosen fun _ => rfl

theorem couples_parameters : Couples κ stage parameters parameters fun _ => stage.loosen := by
  refine Couples.limited fun later state state' hlater hlimit hlimit' => ?_
  refine (couples_many (fun _ => couples_parameter) hlimit hlimit' []).entails (.refl _) ?_
  exact fun _ => hlater.loosened

theorem couples_precedence : Couples κ stage precedence precedence fun _ => stage.pass := by
  refine .accepting (.opening _ (.inl rfl)) ?_ ?_
  · refine (couples_parenthesizedOperator rfl).bind fun name => .pure ?_ fun _ => rfl
    exact ⟨Nat.sub_le _ _, rfl, nofun, nofun, id, id, id⟩
  · refine Couples.bind (couples_expect (.plain _ rfl)) fun token => ?_
    refine (Couples.ofExcept (relocated_ofToken κ.place token)).bind fun literal => ?_
    dsimp only [relocate_placeless, id]
    split
    · refine .ite Iff.rfl (fun _ => .pure (.refl _) fun _ => rfl) fun _ => ?_
      exact .throw ⟨.invalidPrecedence token.value, token.span⟩ nofun _
    · exact .throw ⟨.invalidPrecedence token.value, token.span⟩ nofun _

theorem couples_alias : Couples κ stage alias? alias? fun _ => stage.loosen := by
  refine .accepting (.plain _ rfl) ?_ (.pure (Stage.Entails.refl _).loosen fun _ => rfl)
  refine couples_current.bind fun token => .ite Iff.rfl (fun hname => ?_) fun _ => ?_
  · refine (couples_advance (isPlain_of_isPlainIdentifier hname)).bind fun _ =>
      .pure ?_ fun _ => rfl
    exact (Stage.Entails.refl stage).passed.passed.loosen
  · refine .ite Iff.rfl (fun hstart => ?_) fun _ => couples_fail _ _
    refine (couples_operator hstart).bind fun op => .pure ?_ fun _ => rfl
    exact (Stage.Entails.refl stage).passed.passed.loosen

theorem relocate_symbolHeader (place : Relocation) (name : HeaderName) (parameters : List Parameter)
    (precedence : Option PrecedenceSpec) (knownAs : Option String) (span : Span) :
    Header.symbol name (relocate place parameters) (relocate place precedence)
        (relocate place knownAs) (relocate place span) =
      relocate place (Header.symbol name parameters precedence knownAs span) := by
  simp only [relocate_placelessList, relocate_placelessOption]
  rfl

theorem couples_operatorHeader {opened : List Bracket} (hopened : stage.opened = .paren :: opened)
    (start : Nat) :
    Couples κ stage (operatorHeader start) (operatorHeader (relocate κ.place start)) fun _ =>
      { stage.loosen with opened, moved := true } := by
  refine (couples_parenthesizedOperator hopened).bind fun name => ?_
  refine couples_parameters.bind fun parameters => ?_
  refine .optional (stage.passTo opened).loosen (.plain _ rfl) ?_ ?_ fun precedence => ?_
  · refine couples_precedence.entails (.refl _) fun _ => ?_
    exact .loosely (Nat.le_trans (Nat.sub_le _ _) (Nat.sub_le _ _)) rfl id id
  · exact .refl _
  · refine couples_alias.bind fun knownAs => ?_
    refine (couples_spanFrom rfl start).bind fun span => .pure ?_ fun _ => relocate_symbolHeader ..
    exact ⟨Nat.sub_le _ _, rfl, nofun, nofun, id, id, id⟩

theorem couples_bindingHeader (hmoved : stage.moved) (start : Nat) (bound : Identifier) :
    Couples κ (stage.look (.mark .assignment)) (bindingHeader start bound)
      (bindingHeader (relocate κ.place start) bound) fun _ => stage.loosen := by
  unfold bindingHeader
  cases bound.moduleName with
  | some moduleName =>
    have hmoved : (stage.look (.mark .assignment)).moved := hmoved
    refine (couples_spanFrom hmoved start).bind fun span => ?_
    exact .throw ⟨.unexpectedToken bound.text "a qualified name cannot be bound", span⟩ nofun _
  | none =>
    refine Couples.bind (couples_advance rfl) fun _ => ?_
    refine (couples_expression {}).bind fun value => ?_
    refine (couples_spanFrom rfl start).bind fun span => .pure ?_ fun _ => rfl
    exact ⟨Nat.sub_le _ _, rfl, nofun, nofun, id, fun _ => rfl, id⟩

theorem couples_nameHeader (start : Nat) :
    Couples κ stage (nameHeader start) (nameHeader (relocate κ.place start)) fun _ =>
      stage.pass.loosen := by
  refine (couples_identifier _).bind fun name => ?_
  refine couples_currentKind.bind fun kind => .ite Iff.rfl ?_ fun _ => ?_
  · rintro rfl
    exact couples_bindingHeader rfl start name
  · refine couples_parameters.bind fun parameters => ?_
    refine couples_alias.bind fun knownAs => ?_
    refine (couples_spanFrom rfl start).bind fun span => .pure (.refl _) fun _ => ?_
    exact relocate_symbolHeader _ _ _ none _ _

theorem couples_header : Couples κ stage header header fun _ => stage.pass.loosen := by
  refine couples_position.bind fun start => ?_
  refine .accepting (.opening _ (.inl rfl)) ?_ (couples_nameHeader start)
  exact (couples_operatorHeader rfl start).entails (.refl _) fun _ => .refl stage.pass.loosen

/-! ## Several headers -/

theorem couples_declare (header : Header) :
    Couples κ stage (declare header) (declare (relocate κ.place header)) fun _ => stage where
  shared shared table hfits := by
    have hdeclared := relocated_declared κ.place table header
    rw [declare_eq, declare_eq]
    dsimp only [Side.state]
    generalize table.declared header = result at hdeclared ⊢
    generalize table.declared (relocate κ.place header) = result' at hdeclared ⊢
    cases hdeclared with
    | ok outcome => exact .ok () shared outcome.1 hfits
    | error diagnostic hphase => exact .error diagnostic shared table (.raised hfits hphase)
  barren hloose state value final hbarren hstep := by
    rw [declare_eq] at hstep
    split at hstep <;> cases hstep
    exact ⟨hloose, hbarren⟩

theorem couples_headers : Couples κ stage headers headers fun _ => stage.pass.loosen := by
  refine couples_separated rfl fun stage => ?_
  refine couples_header.bind fun header => ?_
  exact (couples_declare header).bind fun _ => .pure (.refl _) fun _ => rfl

/-! ## Scopes and modifiers -/

theorem couples_scope : Couples κ stage scope? scope? fun _ => stage.loosen := by
  have hpass (stage : Stage) := (Stage.Entails.refl stage).passed.loosen
  refine .accepting (.plain _ rfl) (.pure (hpass stage) fun _ => rfl) ?_
  refine .accepting (.plain _ rfl) (.pure (hpass stage) fun _ => rfl) ?_
  exact .pure (Stage.Entails.refl stage).freshened.loosen fun _ => rfl

theorem isPlain_of_modifierOfKind {kind : TokenKind} {modifier : Modifier}
    (h : modifierOfKind? kind = some modifier) : kind.isPlain := by
  cases kind with
  | word w => rfl
  | _ => cases h

theorem couples_modifier : Couples κ stage modifier? modifier? fun answer =>
    if answer.isSome then stage.pass.loosen else stage.loosen := by
  refine couples_currentKind.bind fun kind => ?_
  dsimp only [relocate_placeless, id]
  split
  · rename_i modifier hmodifier
    refine (couples_advance (isPlain_of_modifierOfKind hmodifier)).bind fun _ => ?_
    exact .pure (Stage.Entails.refl stage.pass).loosen fun _ => rfl
  · exact .pure ((Stage.Entails.refl stage).looked _).loosen fun _ => rfl

theorem couples_attributes : Couples κ stage attributes attributes fun _ => stage.loosen := by
  refine couples_scope.bind fun scope => ?_
  refine Couples.limited fun later state state' hlater hlimit hlimit' => ?_
  refine (couples_many (fun _ => couples_modifier) hlimit hlimit' []).bind fun found => ?_
  refine .pure (hlater.trans (.refl _)).loosened fun _ => ?_
  simp

theorem relocate_attributes (place : Relocation) (attributes : Option Scope × List Modifier) :
    relocate place attributes = attributes := by
  simp

/-! ## Types -/

theorem couples_typeSection :
    Couples κ stage typeSection typeSection fun _ => stage.pass.loosen := by
  refine couples_position.bind fun start => couples_attributes.bind fun attributes => ?_
  rw [relocate_attributes]
  refine couples_headers.bind fun headers => ?_
  exact (couples_spanFrom rfl start).bind fun span => .pure (.refl _) fun _ => rfl

/-! ## Imports -/

theorem couples_moduleSpec : Couples κ stage moduleSpec moduleSpec fun _ => stage.pass.loosen := by
  refine couples_position.bind fun start => couples_current.bind fun token => ?_
  extract_lets next next'
  have hnext (hkind : token.kind.isPlain) (name : ModuleName) :
      Couples κ (stage.look token.kind) (next name) (next' name) fun _ => stage.pass.loosen := by
    refine (couples_advance hkind).bind fun _ => ?_
    refine .optional stage.pass.loosen (.plain _ rfl) ?_ ?_ fun knownAs => ?_
    · refine (couples_plainName _).entails (.refl _) fun _ => ?_
      exact (Stage.Entails.refl stage.pass).passed.passed.loosen
    · exact (Stage.Entails.refl stage.pass).loosen
    · refine (couples_spanFrom rfl start).bind fun span => .pure (.refl _) fun _ => ?_
      rw [relocate_placelessOption]
      rfl
  refine .ite Iff.rfl (fun hstring => hnext ?_ _) fun _ =>
    .ite Iff.rfl (fun hname => ?_) fun _ => ?_
  · rw [hstring]
    rfl
  · exact hnext (isPlain_of_isPlainIdentifier hname) _
  · rw [fail_bind, fail_bind]
    exact couples_fail _ _

theorem couples_importKind : Couples κ stage importKind importKind fun _ => stage.pass := by
  refine .accepting (.plain _ rfl) (.pure (.refl _) fun _ => rfl) ?_
  refine .accepting (.plain _ rfl) (.pure (.refl _) fun _ => rfl) ?_
  exact couples_fail _ _

theorem couples_symbolName : Couples κ stage symbolName symbolName fun _ => stage.pass := by
  refine couples_current.bind fun token => .ite Iff.rfl (fun hname => ?_) fun _ => ?_
  · refine (couples_advance (isPlain_of_isPlainIdentifier hname)).bind fun _ => ?_
    exact .pure (.refl _) fun _ => rfl
  · refine .accepting_seen (.opening _ (.inl rfl)) ?_ (.ite Iff.rfl ?_ fun _ => couples_fail _ _)
    · refine (couples_parenthesizedOperator rfl).bind fun name => .pure ?_ fun _ => rfl
      exact ⟨Nat.sub_le _ _, rfl, nofun, nofun, id, id, id⟩
    · intro hstart
      exact (couples_operator hstart).bind fun op => .pure (.refl _) fun _ => rfl

theorem couples_symbolSpec :
    Couples κ stage symbolSpec symbolSpec fun _ => stage.pass.loosen := by
  refine couples_position.bind fun start => couples_symbolName.bind fun symbol => ?_
  refine .optional stage.pass.loosen (.plain _ rfl) ?_ ?_ fun knownAs => ?_
  · refine couples_symbolName.entails (.refl _) fun _ => ?_
    exact (Stage.Entails.refl stage.pass).passed.passed.loosen
  · exact (Stage.Entails.refl stage.pass).loosen
  · refine (couples_spanFrom rfl start).bind fun span => .pure (.refl _) fun _ => ?_
    rw [relocate_placelessOption]
    rfl

/-! ## Signs -/

theorem couples_sign : Couples κ stage sign? sign? fun _ => stage.fresh := by
  refine couples_current.bind fun token => ?_
  have hpass (symbol : String) (sign : Sign)
      (h : (token.kind = .operatorSymbol && token.value == symbol) = true) :
      Couples κ (stage.look token.kind)
        (do
          let _ ← advance
          return some sign)
        (do
          let _ ← advance
          return some sign) fun _ => stage.fresh := by
    simp only [Bool.and_eq_true, decide_eq_true_eq] at h
    rw [h.1]
    refine Couples.bind (couples_advance rfl) fun _ => .pure ?_ fun _ => rfl
    exact (Stage.Entails.refl stage).passed
  refine .ite Iff.rfl (hpass "+" .plus) fun _ => .ite Iff.rfl (hpass "-" .minus) fun _ => ?_
  exact .pure ((Stage.Entails.refl stage).looked _) fun _ => rfl

/-! ## Qualifiers -/

theorem couples_qualifier (context : RunContext) :
    Couples κ stage (qualifier? context) (qualifier? context) fun answer =>
      if answer.isSome then stage.pass.loosen else stage.loosen := by
  refine couples_position.bind fun start => couples_currentKind.bind fun kind => ?_
  dsimp only [relocate_placeless, id]
  split
  · refine Couples.bind (couples_advance rfl) fun _ => ?_
    refine (couples_expression context).bind fun condition => ?_
    exact (couples_spanFrom rfl start).bind fun span => .pure (.refl _) fun _ => rfl
  · refine Couples.bind (couples_advance rfl) fun _ => ?_
    refine (couples_spanFrom rfl start).bind fun span => .pure ?_ fun _ => rfl
    exact (Stage.Entails.refl stage.pass).loosen
  · refine Couples.bind (couples_advance rfl) fun _ => ?_
    refine (couples_separated rfl fun _ => couples_binding context).bind fun bindings => ?_
    refine (couples_spanFrom rfl start).bind fun span => .pure ?_ fun _ => rfl
    exact (Stage.Entails.refl stage.pass).passed.loosened
  · exact .pure ((Stage.Entails.refl stage).looked _).loosen fun _ => rfl

theorem couples_qualifiers (context : RunContext) :
    Couples κ stage (qualifiers context) (qualifiers context) fun _ => stage.loosen := by
  refine Couples.limited fun later state state' hlater hlimit hlimit' => ?_
  refine (couples_many (fun _ => couples_qualifier context) hlimit hlimit' []).entails (.refl _) ?_
  exact fun _ => hlater.loosened

theorem couples_leadingQualifiers :
    Couples κ stage leadingQualifiers leadingQualifiers fun _ => stage.loosen := by
  refine couples_currentKind.bind fun kind => .ite Iff.rfl (fun _ => ?_) fun _ => ?_
  · refine (couples_qualifiers _).bind fun found => ?_
    refine Couples.bind (couples_expect (.plain _ rfl)) fun _ => .pure ?_ fun _ => rfl
    exact ⟨Nat.sub_le _ _, rfl, nofun, nofun, id, fun _ => rfl, id⟩
  · exact .pure ((Stage.Entails.refl stage).looked _).loosen fun _ => rfl

end Parse

end Equational

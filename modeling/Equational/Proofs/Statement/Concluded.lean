import Equational.Proofs.Statement.Coupled

/-!
# Concluded statements

Two runs that read a statement from the same shared part come to the same end: the same statement,
up to its place, with the shared tokens behind it still ahead, or the same diagnostic.  A first run
that has left the shared tokens does not come to a statement any more, because every statement that
it could have left them in has to end with a semicolon.
-/

namespace Equational

namespace Parse

variable {α β : Type} [Relocatable α] [Relocatable β] {κ : Coupling} {stage : Stage} {bound : Nat}

/-! ## Outcomes -/

inductive Concluded (κ : Coupling) (bound : Nat) :
    EStateM.Result Diagnostic ParseState α → EStateM.Result Diagnostic ParseState α → Prop where
  | ok (value : α) (shared : Shared) (table : OperatorTable) (h : κ.Keeps shared)
      (hpassed : shared.passed ≠ []) (hahead : κ.extent = .all → shared.ahead ≠ [])
      (hweight : Cursor.totalWeight (tokensOf shared.ahead) ≤ bound) :
    Concluded κ bound (.ok value (κ.first.state shared table))
      (.ok (relocate κ.place value) (κ.second.state (relocate κ.place shared) table))
  | error (diagnostic : Diagnostic) (shared : Shared) (table : OperatorTable)
      (h : κ.Stops diagnostic shared) :
    Concluded κ bound (.error diagnostic (κ.first.state shared table))
      (.error (relocate κ.place diagnostic) (κ.second.state (relocate κ.place shared) table))
  | lost {diagnostic : Diagnostic} {final : ParseState}
      {other : EStateM.Result Diagnostic ParseState α} (hextent : κ.extent = .statements) :
    Concluded κ bound (.error diagnostic final) other

/-- From one stage, the two steps read the rest of a statement. -/
structure Concludes (κ : Coupling) (bound : Nat) (before : Stage) (step step' : Parse α) :
    Prop where
  shared : ∀ shared table, κ.Fits before shared →
    Concluded κ bound (step (κ.first.state shared table))
      (step' (κ.second.state (relocate κ.place shared) table))
  barren : before.loose → ∀ state value final, state.IsBarren → step state ≠ .ok value final

namespace Concludes

variable {step step' : Parse α} {next next' : α → Parse β} {before : Stage}

theorem ite {condition condition' : Prop} [Decidable condition] [Decidable condition']
    {first second first' second' : Parse α} (hcondition : condition ↔ condition')
    (h : condition → Concludes κ bound before first first')
    (h' : ¬condition → Concludes κ bound before second second') :
    Concludes κ bound before (if condition then first else second)
      (if condition' then first' else second') := by
  by_cases hc : condition
  · rw [if_pos hc, if_pos (hcondition.mp hc)]
    exact h hc
  · rw [if_neg hc, if_neg (mt hcondition.mpr hc)]
    exact h' hc

/-- Behind a statement that has been read, both runs can still give it its final form. -/
theorem followed (h : Concludes κ bound before step step')
    (hnext : ∀ value shared table, shared.passed ≠ [] → ∃ result,
      next value (κ.first.state shared table) = .ok result (κ.first.state shared table) ∧
      next' (relocate κ.place value) (κ.second.state (relocate κ.place shared) table) =
        .ok (relocate κ.place result) (κ.second.state (relocate κ.place shared) table)) :
    Concludes κ bound before (step >>= next) (step' >>= next') where
  shared shared table hfits := by
    have hsteps := h.shared shared table hfits
    change Concluded κ bound (EStateM.bind step next _) (EStateM.bind step' next' _)
    unfold EStateM.bind
    generalize step (κ.first.state shared table) = result at hsteps
    generalize step' (κ.second.state (relocate κ.place shared) table) = result' at hsteps
    cases hsteps with
    | ok value shared table h hpassed hahead hweight =>
      obtain ⟨result, hfirst, hsecond⟩ := hnext value shared table hpassed
      dsimp only
      rw [hfirst, hsecond]
      exact .ok result shared table h hpassed hahead hweight
    | error diagnostic shared table h => exact .error diagnostic shared table h
    | lost hextent => exact .lost hextent
  barren hloose state value final hbarren hstep := by
    obtain ⟨first, middle, hfirst, -⟩ := bind_eq_ok_iff.mp hstep
    exact h.barren hloose state first middle hbarren hfirst

end Concludes

theorem Couples.concludes {step step' : Parse α} {next next' : α → Parse β} {before : Stage}
    {mid : α → Stage} (h : Couples κ before step step' mid)
    (hnext : ∀ value, Concludes κ bound (mid value) (next value)
      (next' (relocate κ.place value))) :
    Concludes κ bound before (step >>= next) (step' >>= next') where
  shared shared table hfits := by
    have hfirst := h.shared shared table hfits
    change Concluded κ bound (EStateM.bind step next _) (EStateM.bind step' next' _)
    unfold EStateM.bind
    generalize step (κ.first.state shared table) = result at hfirst
    generalize step' (κ.second.state (relocate κ.place shared) table) = result' at hfirst
    cases hfirst with
    | ok value shared table h => exact (hnext value).shared shared table h
    | error diagnostic shared table h => exact .error diagnostic shared table h
    | @left value final other hextent hloose h =>
      dsimp only
      cases hlast : next value final with
      | ok result last => exact absurd hlast ((hnext value).barren hloose final result last h)
      | error diagnostic last => exact .lost hextent
    | lost hextent => exact .lost hextent
  barren hloose state value final hbarren hstep := by
    obtain ⟨first, middle, hfirst, hrest⟩ := bind_eq_ok_iff.mp hstep
    obtain ⟨hmid, hmiddle⟩ := h.barren hloose state first middle hbarren hfirst
    exact (hnext first).barren hmid middle value final hmiddle hrest

theorem Concludes.optional {kind : TokenKind} {opened : List Bracket} (mid : Stage)
    (hkind : Passes stage.opened kind opened) {item item' : Parse α}
    {next next' : Option α → Parse β}
    (h : Couples κ (stage.passTo opened) item item' fun _ => mid) (hnone : stage.fresh.Entails mid)
    (hnext : ∀ value, Concludes κ bound mid (next value) (next' (relocate κ.place value))) :
    Concludes κ bound stage
      (do if ← accept kind then some <$> item >>= next else Pure.pure none >>= next)
      (do if ← accept kind then some <$> item' >>= next' else Pure.pure none >>= next') := by
  rw [optional_bind, optional_bind]
  exact (couples_optional hkind h hnone).concludes hnext

theorem Concludes.choice {condition condition' : Prop} [Decidable condition] [Decidable condition']
    {first second first' second' : Parse α} {next next' : α → Parse β} {mid : α → Stage}
    (hcondition : condition ↔ condition') (h : condition → Couples κ stage first first' mid)
    (h' : ¬condition → Couples κ stage second second' mid)
    (hnext : ∀ value, Concludes κ bound (mid value) (next value)
      (next' (relocate κ.place value))) :
    Concludes κ bound stage (if condition then first >>= next else second >>= next)
      (if condition' then first' >>= next' else second' >>= next') :=
  .ite hcondition (fun hc => (h hc).concludes hnext) fun hc => (h' hc).concludes hnext

theorem concludes_throw (diagnostic : Diagnostic) (hphase : diagnostic.cause.phase ≠ .lexical) :
    Concludes κ bound stage (throw diagnostic : Parse α)
      (throw (relocate κ.place diagnostic)) where
  shared shared table hfits := .error diagnostic shared table (.raised hfits hphase)
  barren _ _ _ _ _ hstep := by cases hstep

theorem concludes_fail (expected : String) :
    Concludes κ bound stage (fail expected : Parse α) (fail expected) where
  barren _ _ _ _ _ hstep := by cases hstep
  shared shared table hfits := by
    obtain ⟨diagnostic, stopped, hstops, hfirst, hsecond⟩ :=
      exists_stops_of_fail (α := α) hfits table expected
    rw [hfirst, hsecond]
    exact .error diagnostic stopped table hstops

/-! ## The end of a statement -/

section Closing

omit [Relocatable α]

def closing (start : Nat) (f : Span → α) : Parse α := do
  let _ ← expectMark .semicolon
  return f (← spanFrom start)

variable {side : Side} {passed rest : List Slot} {token : Slot} {reported : List Diagnostic}
  {table : OperatorTable} (start : Nat) (f : Span → α)

theorem closing_of_kind (h : token.kind = .mark .semicolon) :
    closing start f (side.state ⟨passed, token :: rest, reported⟩ table) =
      .ok (f ⟨start, token.span.stop⟩) (side.state ⟨token :: passed, rest, reported⟩ table) := by
  have hexpect : expectMark .semicolon (side.state ⟨passed, token :: rest, reported⟩ table) =
      advance (side.state ⟨passed, token :: rest, reported⟩ table) :=
    congrFun (if_pos h) _
  change EStateM.bind _ _ _ = _
  unfold EStateM.bind
  rw [hexpect, advance_eq (by rw [h]; nofun)]
  rfl

theorem closing_of_kind_ne (h : token.kind ≠ .mark .semicolon) :
    closing start f (side.state ⟨passed, token :: rest, reported⟩ table) =
      fail (TokenKind.mark .semicolon).label
        (side.state ⟨passed, token :: rest, reported⟩ table) := by
  have hexpect : expectMark .semicolon (side.state ⟨passed, token :: rest, reported⟩ table) =
      fail (TokenKind.mark .semicolon).label
        (side.state ⟨passed, token :: rest, reported⟩ table) :=
    congrFun (if_neg h) _
  change EStateM.bind _ _ _ = _
  unfold EStateM.bind
  rw [hexpect]
  rfl

private theorem closing_ne_ok {state final : ParseState} {value : α} (h : state.IsBarren) :
    closing start f state ≠ .ok value final := by
  intro hstep
  obtain ⟨token, middle, hexpect, -⟩ := bind_eq_ok_iff.mp hstep
  have hkind : state.cursor.current.kind ≠ .mark .semicolon := Cursor.IsBarren.kind_ne h
  have hfail : expectMark .semicolon state = fail (TokenKind.mark .semicolon).label state :=
    congrFun (if_neg hkind) _
  rw [hfail] at hexpect
  cases hexpect

end Closing

theorem concludes_closing {f f' : Span → α} (start : Nat) (hbound : stage.weight ≤ bound + 1)
    (hf : ∀ span, f' (relocate κ.place span) = relocate κ.place (f span)) :
    Concludes κ bound stage (closing start f) (closing (relocate κ.place start) f') where
  shared shared table hfits := by
    obtain ⟨passed, token, rest, reported, rfl⟩ := exists_cons_of_fits hfits
    by_cases hkind : token.kind = .mark .semicolon
    · have hweight := hfits.weight_le
      have hpos := Coupling.tokenWeight_pos token.toToken
      have hsecond : closing (relocate κ.place start) f' (κ.second.state
          (relocate κ.place ⟨passed, token :: rest, reported⟩) table) =
          .ok (relocate κ.place (f ⟨start, token.span.stop⟩)) (κ.second.state
            (relocate κ.place ⟨token :: passed, rest, reported⟩) table) := by
        rw [← hf]
        exact closing_of_kind _ f' hkind
      rw [closing_of_kind start f hkind, hsecond]
      refine .ok _ ⟨token :: passed, rest, reported⟩ table
        (hfits.toKeeps.pass (by rw [hkind]; nofun)) (List.cons_ne_nil _ _)
        (fun hextent => hfits.rest_ne_nil ?_) ?_
      · rw [hkind, hextent]
        nofun
      simp only [tokensOf_cons, Cursor.totalWeight] at hweight ⊢
      omega
    · have hsecond : closing (relocate κ.place start) f' (κ.second.state
          (relocate κ.place ⟨passed, token :: rest, reported⟩) table) =
          fail (TokenKind.mark .semicolon).label (κ.second.state
            (relocate κ.place ⟨passed, token :: rest, reported⟩) table) :=
        closing_of_kind_ne _ f' hkind
      rw [closing_of_kind_ne start f hkind, hsecond]
      exact (concludes_fail _).shared _ table hfits
  barren _ state value final hbarren := closing_ne_ok start f hbarren

section LightClosing

omit [Relocatable α]

def lightClosing (start : Nat) (f : Span → α) : Parse α := do
  let _ ← acceptMark .semicolon
  return f (← spanFrom start)

theorem lightClosing_of_kind {state : ParseState} (start : Nat) (f : Span → α)
    (h : state.cursor.current.kind = .mark .semicolon) :
    lightClosing start f state = closing start f state := by
  have haccept : acceptMark .semicolon state = (advance >>= fun _ => pure true) state :=
    congrFun (if_pos h) state
  have hexpect : expectMark .semicolon state = advance state := congrFun (if_pos h) state
  change EStateM.bind (acceptMark .semicolon) _ state = EStateM.bind (expectMark .semicolon) _ state
  unfold EStateM.bind
  rw [haccept, hexpect]
  rfl

theorem lightClosing_of_kind_ne {state : ParseState} (start : Nat) (f : Span → α)
    (h : state.cursor.current.kind ≠ .mark .semicolon) :
    lightClosing start f state = .ok (f ⟨start, state.cursor.previousEnd⟩) state := by
  have haccept : acceptMark .semicolon state = .ok false state :=
    congrFun (if_neg h) state
  change EStateM.bind (acceptMark .semicolon) _ state = _
  unfold EStateM.bind
  rw [haccept]
  rfl

end LightClosing

/-- A semicolon that may be left out.  The first run has to be inside the shared tokens for this. -/
theorem concludes_lightClosing {f f' : Span → α} (start : Nat) (hmoved : stage.moved)
    (hloose : stage.loose = false) (hbound : stage.weight ≤ bound)
    (hf : ∀ span, f' (relocate κ.place span) = relocate κ.place (f span)) :
    Concludes κ bound stage (lightClosing start f) (lightClosing (relocate κ.place start) f') where
  shared shared table hfits := by
    obtain ⟨passed, token, rest, reported, rfl⟩ := exists_cons_of_fits hfits
    have hsame : (κ.second.state (relocate κ.place ⟨passed, token :: rest, reported⟩)
        table).cursor.current.kind = token.kind := rfl
    by_cases hkind : (κ.first.state ⟨passed, token :: rest, reported⟩
        table).cursor.current.kind = .mark .semicolon
    · rw [lightClosing_of_kind start f hkind,
        lightClosing_of_kind (relocate κ.place start) f' (hsame.trans hkind)]
      exact (concludes_closing start (Nat.le_succ_of_le hbound) hf).shared _ table hfits
    · obtain ⟨last, others, rfl⟩ := List.exists_cons_of_ne_nil (hfits.moved hmoved)
      rw [lightClosing_of_kind_ne start f hkind,
        lightClosing_of_kind_ne (relocate κ.place start) f' (hsame.trans_ne hkind)]
      have hfinal := Concluded.ok (f ⟨start, last.span.stop⟩) _ table hfits.toKeeps
        (List.cons_ne_nil _ _) (fun _ => List.cons_ne_nil _ _) (Nat.le_trans hfits.weight_le hbound)
      rw [← hf] at hfinal
      exact hfinal
  barren hloose' := by
    rw [hloose] at hloose'
    cases hloose'

/-! ## Types -/

section Forms

omit [Relocatable α] [Relocatable β]

variable (hbound : stage.weight ≤ bound + 1)

include hbound

theorem concludes_typeRename (start : Nat) (scope : Option Scope) (name : Identifier) :
    Concludes κ bound stage (typeRename start scope name)
      (typeRename (relocate κ.place start) scope name) := by
  refine .optional stage.loosen (.plain _ rfl) ?_ ?_ fun knownAs => ?_
  · refine (couples_plainName _).entails (.refl _) fun _ => ?_
    exact (Stage.Entails.refl stage).passed.passed.loosen
  · exact (Stage.Entails.refl stage).freshened.loosen
  · rw [relocate_placelessOption]
    exact concludes_closing start hbound fun span => rfl

theorem concludes_typeSynonym (start : Nat) (scope : Option Scope) (name : Name) :
    Concludes κ bound stage (typeSynonym start scope name)
      (typeSynonym (relocate κ.place start) scope name) := by
  refine (couples_identifier _).concludes fun target => ?_
  exact concludes_closing start (Nat.le_trans (Nat.sub_le _ _) hbound) fun span => rfl

theorem concludes_typeDefinition (start : Nat) (scope : Option Scope) (external : Bool)
    (name : Name) :
    Concludes κ bound stage (typeDefinition start scope external name)
      (typeDefinition (relocate κ.place start) scope external name) := by
  have hpass := (Stage.Entails.refl stage).passed
  refine .optional stage.loosen (.plain _ rfl) ?_ ?_ fun supertype => ?_
  · exact (couples_identifier _).entails (.refl _) fun _ => hpass.passed.loosen
  · exact (Stage.Entails.refl stage).freshened.loosen
  · rw [relocate_placelessOption]
    have hnext (sections : List TypeSection) : Concludes κ bound stage.loosen
        (closing start (Statement.typeDeclaration external ⟨scope, name, supertype, sections⟩))
        (closing (relocate κ.place start) (Statement.typeDeclaration external
          ⟨scope, name, supertype, relocate κ.place sections⟩)) :=
      concludes_closing start hbound fun span => rfl
    refine Couples.concludes (couples_accept (.plain _ rfl)) fun defined => ?_
    refine .choice Iff.rfl (fun hyes => ?_) (fun hno => ?_) hnext
    · rw [if_pos hyes]
      refine (couples_separated rfl fun _ => couples_typeSection).entails (.refl _) fun _ => ?_
      exact hpass.passed.loosened
    · rw [if_neg hno]
      exact .pure (.refl _) fun _ => rfl

theorem concludes_typeStatement (start : Nat) (scope : Option Scope) (external : Bool) :
    Concludes κ bound stage (typeStatement start scope external)
      (typeStatement (relocate κ.place start) scope external) := by
  replace hbound := Nat.le_trans (Nat.sub_le _ 1) hbound
  refine Couples.concludes (couples_expect (.plain _ rfl)) fun _ => ?_
  replace hbound := Nat.le_trans (Nat.sub_le _ 1) hbound
  refine (couples_identifier _).concludes fun name => ?_
  refine .ite Iff.rfl (fun _ => concludes_typeRename hbound start scope name) fun _ => ?_
  refine Couples.concludes (couples_accept (.plain _ rfl)) fun synonym => .ite Iff.rfl ?_ ?_
  · rintro rfl
    exact concludes_typeSynonym (Nat.le_trans (Nat.sub_le _ 1) hbound) start scope name.name
  · intro hno
    rw [if_neg hno]
    exact concludes_typeDefinition hbound start scope external name.name

theorem concludes_attributedStatement :
    Concludes κ bound stage attributedStatement attributedStatement := by
  refine couples_position.concludes fun start => couples_attributes.concludes fun attributes => ?_
  rw [relocate_attributes]
  refine couples_currentKind.concludes fun kind => .ite Iff.rfl (fun _ => ?_) fun _ => ?_
  · have hbound : (stage.loosen.look kind).weight ≤ bound + 1 := hbound
    refine .ite Iff.rfl (fun _ => concludes_typeStatement hbound start _ false) fun _ => ?_
    refine .ite Iff.rfl (fun _ => concludes_typeStatement hbound start _ true) fun _ => ?_
    refine couples_current.concludes fun token => ?_
    exact concludes_throw
      ⟨.unexpectedToken "type" "only `extern` may precede a type declaration", token.span⟩ nofun
  · refine couples_headers.concludes fun headers => ?_
    exact concludes_closing start (Nat.le_trans (Nat.sub_le _ _) hbound) fun span => rfl

/-! ## Imports -/

theorem concludes_importStatement :
    Concludes κ bound stage importStatement importStatement := by
  refine couples_position.concludes fun start => couples_importKind.concludes fun kind => ?_
  refine (couples_separated rfl fun _ => couples_moduleSpec).concludes fun specs => ?_
  refine concludes_closing start ?_ fun span => rfl
  exact Nat.le_trans (Nat.sub_le _ _) (Nat.le_trans (Nat.sub_le _ _) hbound)

theorem concludes_importFromStatement :
    Concludes κ bound (stage.look (.word .fromWord)) importFromStatement importFromStatement := by
  refine Couples.concludes (couples_advance rfl) fun opening => ?_
  refine couples_moduleSpec.concludes fun spec => couples_importKind.concludes fun kind => ?_
  replace hbound := Nat.le_trans (Nat.sub_le _ 1) (Nat.le_trans (Nat.sub_le _ 1)
    (Nat.le_trans (Nat.sub_le _ 1) hbound))
  have hnext (symbols : List SymbolSpec) : Concludes κ bound stage.pass.pass.loosen.pass.loosen
      (closing opening.span.start (Statement.importsFrom spec kind symbols))
      (closing (relocate κ.place opening.span.start) (Statement.importsFrom
        (relocate κ.place spec) kind (relocate κ.place symbols))) :=
    concludes_closing _ hbound fun span => rfl
  refine couples_currentKind.concludes fun next => .choice Iff.rfl (fun _ => ?_) (fun _ => ?_) hnext
  · exact .pure ((Stage.Entails.refl stage.pass.pass.loosen.pass).looked _).loosen fun _ => rfl
  · refine (couples_separated rfl fun _ => ?_).entails (.refl _) fun _ => ?_
    · exact couples_symbolSpec
    · exact ((Stage.Entails.refl stage.pass.pass.loosen.pass).looked next).passed.loosened

/-! ## Pragmas, definitions -/

theorem concludes_pragmaStatement (hloose : stage.loose = false) :
    Concludes κ bound (stage.look (.mark .atSign)) pragmaStatement pragmaStatement := by
  refine Couples.concludes (couples_advance rfl) fun opening => ?_
  refine couples_sign.concludes fun sign => ?_
  rw [relocate_placelessOption]
  refine Couples.concludes (couples_expect (.plain _ rfl)) fun token => ?_
  refine (Couples.ofExcept (relocated_ofToken κ.place token)).concludes fun value => ?_
  refine concludes_lightClosing opening.span.start rfl hloose ?_ fun span => rfl
  exact Nat.sub_le_of_le_add (Nat.le_trans (Nat.sub_le _ 1) hbound)

theorem concludes_defStatement :
    Concludes κ bound (stage.look (.word .defWord)) defStatement defStatement := by
  refine Couples.concludes (couples_advance rfl) fun opening => ?_
  refine (couples_separated rfl fun _ => couples_binding {}).concludes fun pairs => ?_
  refine concludes_closing opening.span.start ?_ fun span => rfl
  exact Nat.le_trans (Nat.sub_le _ _) (Nat.le_trans (Nat.sub_le _ _) hbound)

theorem concludes_undefStatement :
    Concludes κ bound (stage.look (.word .undefWord)) undefStatement undefStatement := by
  have hname (stage : Stage) : Couples κ stage (identifier "name to undefine")
      (identifier "name to undefine") fun _ => stage.pass :=
    couples_identifier "name to undefine"
  refine Couples.concludes (couples_advance rfl) fun opening => ?_
  refine (couples_separated rfl fun stage => ?_).concludes fun names => ?_
  · exact (hname stage).entails (.refl _) fun _ => .loosen (.refl _)
  · rw [relocate_placelessList]
    refine concludes_closing opening.span.start ?_ fun span => rfl
    exact Nat.le_trans (Nat.sub_le _ _) (Nat.le_trans (Nat.sub_le _ _) hbound)

/-! ## Equations -/

theorem concludes_clause (start : Nat) :
    Concludes κ bound stage (clause start) (clause (relocate κ.place start)) := by
  refine couples_leadingQualifiers.concludes fun leading => ?_
  refine Couples.concludes (couples_expect (.plain _ rfl)) fun _ => ?_
  refine (couples_expression _).concludes fun rhs => ?_
  refine (couples_qualifiers _).concludes fun trailing => ?_
  exact concludes_closing start (Nat.le_trans (Nat.sub_le _ _) hbound) fun span => rfl

theorem concludes_equation : Concludes κ bound stage equation equation := by
  refine couples_position.concludes fun start => (couples_run _).concludes fun left => ?_
  refine .ite ?_ (fun _ => concludes_fail _) fun _ => ?_
  · rw [isEmpty_relocate_run]
  · have hbound : stage.loosen.weight ≤ bound + 1 := hbound
    refine Couples.concludes
      ((couples_resolve left).entails (.assumed (.refl _) _) fun _ => .refl _)
      fun lhs => ?_
    refine (concludes_clause hbound start).followed fun first shared table hpassed => ?_
    obtain ⟨token, passed, htoken⟩ := List.exists_cons_of_ne_nil hpassed
    obtain ⟨_, ahead, reported⟩ := shared
    obtain rfl := htoken
    exact ⟨.equation lhs [first] ⟨start, token.span.stop⟩, rfl, rfl⟩

end Forms

/-! ## Statements -/

section Statements

omit [Relocatable α] [Relocatable β]

theorem concludes_continuation (hloose : stage.loose = false) (hbound : stage.weight ≤ bound + 1)
    (hfollows : stage.assumes → κ.first.followsEquation = κ.second.followsEquation) :
    Concludes κ bound stage continuation continuation where
  shared shared table hfits := by
    have hsame := hfollows hfits.assumes
    by_cases hfirst : κ.first.followsEquation = true
    · have hclause : Concludes κ bound stage (position >>= clause) (position >>= clause) :=
        couples_position.concludes fun start => concludes_clause hbound start
      have hsteps (side : Side) (hside : side.followsEquation = true) (shared : Shared) :
          continuation (side.state shared table) =
            (position >>= clause) (side.state shared table) :=
        congrFun (if_pos hside) _
      rw [hsteps κ.first hfirst, hsteps κ.second (hsame ▸ hfirst)]
      exact hclause.shared shared table hfits
    · have horphan : Concludes κ bound stage
          (do throw ⟨.orphanContinuation, (← current).span⟩ : Parse Clause)
          (do throw ⟨.orphanContinuation, (← current).span⟩) :=
        couples_current.concludes fun token =>
          concludes_throw ⟨.orphanContinuation, token.span⟩ nofun
      have hsteps (side : Side) (hside : ¬side.followsEquation = true) (shared : Shared) :
          continuation (side.state shared table) =
            (do throw ⟨.orphanContinuation, (← current).span⟩ : Parse Clause)
              (side.state shared table) :=
        congrFun (if_neg hside) _
      rw [hsteps κ.first hfirst, hsteps κ.second (hsame ▸ hfirst)]
      exact horphan.shared shared table hfits
  barren hloose' := by
    rw [hloose] at hloose'
    cases hloose'

def beginsContinuation : TokenKind → Bool
  | .mark .assignment | .word .ifWord | .word .otherwiseWord | .word .whereWord => true
  | _ => false

theorem concludes_statement {seen : TokenKind} (hloose : stage.loose = false)
    (hbound : stage.weight ≤ bound + 1)
    (hfollows : beginsContinuation seen → κ.first.followsEquation = κ.second.followsEquation) :
    Concludes κ bound (stage.look seen) statement statement := by
  refine couples_currentKind_seen.concludes fun found => ?_
  dsimp only [relocate_placeless, id]
  have hstatement {later : Stage} {step step' : Parse Statement}
      (h : Concludes κ bound later step step') :
      Concludes κ bound later (do return Parsed.statement (← step))
        (do return Parsed.statement (← step')) :=
    h.followed fun value shared table _ => ⟨Parsed.statement value, rfl, rfl⟩
  replace hbound : ((stage.assume (found = seen)).look found).weight ≤ bound + 1 := hbound
  replace hloose : ((stage.assume (found = seen)).look found).loose = false := hloose
  have hclause (hfound : beginsContinuation found) :
      Concludes κ bound ((stage.assume (found = seen)).look found)
        (do return Parsed.clause (← continuation)) (do return .clause (← continuation)) := by
    refine (concludes_continuation hloose hbound ?_).followed fun value shared table _ => ?_
    · exact fun h => hfollows (h.2 ▸ hfound)
    · exact ⟨.clause value, rfl, rfl⟩
  split
  iterate 7 exact hstatement (concludes_attributedStatement hbound)
  · refine couples_position.concludes fun start => ?_
    exact hstatement (concludes_typeStatement hbound start none false)
  iterate 2 exact hstatement (concludes_importStatement hbound)
  · exact hstatement (concludes_importFromStatement hbound)
  · exact hstatement (concludes_pragmaStatement hbound hloose)
  · exact hstatement (concludes_defStatement hbound)
  · exact hstatement (concludes_undefStatement hbound)
  iterate 4 exact hclause rfl
  · exact hstatement (concludes_equation hbound)

end Statements

end Parse

end Equational

import Equational.Proofs.Parse.Alongside
import Equational.Proofs.Run.Coupled
import Equational.Proofs.Run.Follows

/-!
# Collecting runs over a glued dot

The steps that collect the parts of a run agree over a symbol with a glued dot, if the step for
inner runs does.  Only the parameters of the lambda lead to the symbol.  The run behind the
backslash ends where the symbol is split, and so does the same run over its parts: there the two
states become the same.
-/

namespace Equational

open Parse

variable {α : Type} {γ : Gluing} {bound before after depth : Nat} {token : Token}

/-! ## Operators -/

theorem agrees_joinOperator (token : Token) :
    Agrees γ bound depth (joinOperator token) depth := by
  unfold joinOperator
  dsimp only
  split
  · refine .kindIs nofun nofun (fun second hsecond => ?_) (.pure _)
    exact (AgreesAt.advance_word hsecond).bind fun _ => .pure _
  · exact .pure _

theorem agreesAt_operator (htoken : token.kind.isOperatorStart) :
    AgreesAt γ bound depth token operator depth :=
  .passing (passes_of_isOperatorStart htoken) agrees_joinOperator

theorem confronts_operator {next : OperatorUse → Parse α} (h : ∀ op, Lightens (next op))
    (other : Parse α) : Confronts γ bound (operator >>= next) other after := by
  rw [operator_eq, bind_assoc]
  refine confronts_passing (fun token => ?_) other
  have hjoin : Agrees γ bound 0 (joinOperator token) 0 := agrees_joinOperator token
  exact hjoin.lightens.bind h

/-! ## Closing brackets -/

theorem dot_ne_closing (bracket : Bracket) : Punctuation.dot ≠ bracket.closing := by
  cases bracket <;> nofun

theorem agrees_unclosed (bracket : Bracket) :
    Agrees γ bound before (do throw (← unclosed bracket) : Parse α) after := by
  rw [throw_unclosed_eq]
  refine .current (fun token => ?_) ?_
  · split
    · exact (agrees_fail _).at_token token
    · exact (agrees_fail _).at_token token
    · exact (Agrees.throw _).at_token token
  · rw [γ.kind]
    exact confronts_throw _ _

theorem agrees_close (bracket : Bracket) :
    Agrees γ bound (depth + 1) (close bracket) depth :=
  .acceptingMark (dot_ne_closing bracket) (passes_closingMark bracket) (.pure ())
    (agrees_unclosed bracket)

theorem agrees_closing (bracket : Bracket) {first second : Parse α}
    (h : Agrees γ bound before first after) (h' : Agrees γ bound before second after) :
    Agrees γ bound before (currentKind >>= fun found =>
      if found = .mark bracket.closing then first else second) after :=
  .kindIs nofun (mark_dot_ne (dot_ne_closing bracket)) (fun token _ => h.at_token token) h'

/-! ## Parts of a container -/

section Parts

variable {inner : RunContext → Parse Run}
  (hinner : ∀ depth context, Agrees γ bound depth (inner context) depth)

include hinner

theorem agreesAt_collectEnumeration (htoken : token.kind = .mark .dotDot) (bracket : Bracket)
    (runs : List Run) :
    AgreesAt γ bound depth token (collectEnumeration inner bracket runs) depth := by
  refine (AgreesAt.advance_mark htoken rfl nofun).bind fun dots => .ite (.throw _) ?_
  exact agrees_closing bracket (.pure _) ((hinner _ {}).bind fun bound => .pure _)

theorem agrees_collectGenerators (rounds : Nat) (separator : Option Separator)
    (found : List Run) :
    Agrees γ bound depth (collectGenerators inner rounds separator found) depth := by
  induction rounds generalizing separator found with
  | zero => exact agrees_exhaust _
  | succ rounds ih =>
    refine .current (fun token => ?_) ?_
    · split
      · exact (Agrees.pure _).at_token token
      · rename_i next hnext
        refine .ite (fun _ => (Agrees.throw _).at_token token) fun _ => ?_
        refine (AgreesAt.advance (passes_of_separator hnext)).bind fun _ => ?_
        exact (hinner depth {}).bind fun run => ih _ (run :: found)
    · rw [γ.kind, γ.dot_kind]
      exact confronts_pure found.reverse

theorem agrees_collectElements (bracket : Bracket) (separator : Separator) (rounds : Nat)
    (found : List Run) :
    Agrees γ bound depth (collectElements inner bracket separator rounds found) depth := by
  induction rounds generalizing found with
  | zero => exact agrees_exhaust _
  | succ rounds ih =>
    refine .current (fun token => ?_) ?_
    · split
      · rename_i next hnext
        refine .ite (fun _ => (Agrees.throw _).at_token token) fun _ => ?_
        refine (AgreesAt.advance (passes_of_separator hnext)).bind fun _ => ?_
        refine agrees_closing bracket (.pure _) ?_
        exact (hinner depth {}).bind fun run => ih (run :: found)
      · refine .ite (fun htoken => agreesAt_collectEnumeration hinner htoken bracket _) fun _ => ?_
        refine .ite (fun htoken => ?_) fun _ => (Agrees.pure _).at_token token
        refine (AgreesAt.advance_mark htoken rfl nofun).bind fun _ => ?_
        exact (hinner depth {}).bind fun tail => .pure _
    · rw [γ.kind, γ.dot_kind]
      exact confronts_pure (ContainerBody.elements found.reverse (some separator) false none)

theorem agrees_collectBody (bracket : Bracket) (first : Run) :
    Agrees γ bound depth (collectBody inner bracket first) depth := by
  have hunclosed : Agrees γ bound depth (do throw (← unclosed bracket) : Parse ContainerBody)
      depth :=
    agrees_unclosed bracket
  refine .get (fun state => .currentKind (fun token => ?_) ?_) fun _ _ => rfl
  · generalize hkind : token.kind = kind
    split
    · exact agreesAt_collectEnumeration hinner hkind bracket [first]
    · refine (AgreesAt.advance_mark hkind rfl nofun).bind fun _ => ?_
      refine (hinner depth {}).bind fun generator => ?_
      exact (agrees_collectGenerators hinner _ none [generator]).bind fun _ => .pure _
    · exact (agrees_collectElements hinner bracket .comma _ [first]).at_token token
    · exact (agrees_collectElements hinner bracket .semicolon _ [first]).at_token token
    · refine (AgreesAt.advance_mark hkind rfl nofun).bind fun _ => ?_
      exact (hinner depth {}).bind fun tail => .pure _
    · exact (Agrees.ite (.pure _) hunclosed).at_token token
  · dsimp only
    rw [if_neg nofun, if_neg (mark_dot_ne (dot_ne_closing bracket))]
    exact hunclosed.confronts

end Parts

/-! ## Parts of a run -/

section Parts

variable {inner : RunContext → Parse Run}
  (hinner : ∀ depth context, Agrees γ (bound - 1) depth (inner context) depth)

include hinner

theorem agreesAt_collectContainer (htoken : token.kind = .mark .openParen ∨
      token.kind = .mark .openBracket ∨ token.kind = .mark .openCurly) :
    AgreesAt γ bound depth token (collectContainer inner) depth := by
  refine .passing (passes_opening htoken) fun opening => ?_
  refine .acceptingMark (dot_ne_closing _) (passes_closingMark _) ?_ ?_
  · exact (agrees_spanFrom _).bind fun span => .pure _
  · refine (hinner _ _).bind fun first => ?_
    refine (agrees_collectBody hinner _ first).bind fun body => ?_
    exact (agrees_close _).bind fun _ => (agrees_spanFrom _).bind fun span => .pure _

theorem agreesAt_collectConditional (htoken : token.kind = .word .ifWord) (context : RunContext) :
    AgreesAt γ bound depth token (collectConditional inner context) depth := by
  refine .passing (htoken ▸ passes_word _) fun opening => (hinner _ {}).bind fun condition => ?_
  refine (agrees_expectWord _).bind fun _ => (hinner _ context).bind fun thenBranch => ?_
  refine .kindIs nofun nofun (fun token htoken => ?_) (.pure _)
  exact (AgreesAt.advance_word htoken).bind fun closing => .pure _

end Parts

/-! ## Lambdas -/

namespace Gluing

def whole (γ : Gluing) (passed : List Token) (errors : DiagnosticMap) : Cursor :=
  ⟨passed, γ.parameters ++ γ.glued :: γ.rest, errors⟩

def parted (γ : Gluing) (passed : List Token) (errors : DiagnosticMap) : Cursor :=
  ⟨passed, γ.parameters ++ γ.dot :: γ.tail :: γ.rest,
    errors.openGap (passed.length + γ.parameters.length)⟩

theorem isEnded_whole (passed : List Token) (errors : DiagnosticMap) :
    (γ.whole passed errors).IsEnded := by
  obtain ⟨front, last, hrest, hlast⟩ := γ.ended
  exact ⟨γ.parameters ++ γ.glued :: front, last, by simp [whole, hrest], hlast⟩

theorem Beside.at_parts {cursor cursor' : Cursor} (h : γ.Beside bound depth cursor cursor')
    (hahead : cursor.ahead = γ.dot :: γ.tail :: γ.rest) :
    cursor' = cursor ∨ γ.detached = true ∧ cursor'.ahead = cursor.ahead := by
  cases h with
  | same => exact .inl rfl
  | @ahead passed front errors =>
    have hfront : front ++ [γ.glued] = [γ.dot] ++ [γ.tail] :=
      List.append_cancel_right ((List.append_assoc _ _ _).trans hahead)
    have hlast := (List.append_inj' hfront rfl).2
    exact absurd (List.cons.inj hlast).1.symm γ.tail_ne_glued
  | behind _ hweight =>
    have hpos := Coupling.tokenWeight_pos γ.dot
    subst hahead
    simp only [Cursor.totalWeight] at hweight
    omega
  | abreast hdetached _ hsame => exact .inr ⟨hdetached, hsame⟩

end Gluing

theorem Parse.Together.at_parts {value : α} {state : ParseState}
    {other : EStateM.Result Diagnostic ParseState α}
    (h : Together γ bound depth (.ok value state) other)
    (hahead : state.cursor.ahead = γ.dot :: γ.tail :: γ.rest) :
    ∃ cursor', other = .ok value { state with cursor := cursor' } ∧
      (cursor' = state.cursor ∨ γ.detached = true ∧ cursor'.ahead = state.cursor.ahead) := by
  cases h with
  | ok _ h =>
    cases h with
    | intro h => exact ⟨_, rfl, h.at_parts hahead⟩
  | kept _ hweight =>
    have hpos := Coupling.tokenWeight_pos γ.dot
    rw [Cursor.weight, hahead, Cursor.totalWeight, Cursor.totalWeight] at hweight
    omega

section Lambda

variable {inner : RunContext → Parse Run}
  (hinner : ∀ depth context, Agrees γ (bound - 1) depth (inner context) depth)
  (hloosen : ∀ depth context, Agrees γ.loosen (bound - 1) depth (inner context) depth)
  (hdetach : ∀ depth context, Agrees γ.detach (bound - 1) depth (inner context) depth)
  (hfollows : FollowsWithin (bound - 1) inner CollectsAny) (hbound : bound - 1 ≤ γ.limit)
  {base : ParseState} (hlimit : base.limit = γ.limit) (passed : List Token)
  (errors : DiagnosticMap)
  (hweight : (γ.whole (γ.backslash :: passed) errors).weight ≤ bound - 1)

include hdetach hfollows hbound hlimit hweight

theorem exists_parameters : ∃ run middle,
    inner { stopAtDot := true } { base with cursor := γ.whole (γ.backslash :: passed) errors } =
        .ok run { base with cursor := middle } ∧
      middle.ahead = γ.dot :: γ.tail :: γ.rest := by
  obtain ⟨run, stop, hrun, hstop⟩ := γ.ends
  let alone : ParseState := { base with cursor := γ.whole [γ.backslash] .empty }
  have hends : inner { stopAtDot := true } alone = .ok run { alone with cursor := stop } :=
    ((hfollows _ _ (γ.isEnded_whole [γ.backslash] .empty) hweight).ok_iff alone rfl
      (Nat.le_trans hweight (hlimit ▸ hbound)) _ _).mpr ⟨stop, hrun, rfl⟩
  have hbeside : γ.detach.Beside (bound - 1) 0 alone.cursor
      (γ.whole (γ.backslash :: passed) errors) :=
    .abreast rfl (γ.isEnded_whole _ _) rfl rfl
  have htogether := (hdetach 0 { stopAtDot := true }).together alone _ (.intro _ hbeside hlimit)
  rw [hends] at htogether
  obtain ⟨middle, hmiddle, hsame⟩ := htogether.at_parts hstop
  refine ⟨run, middle, hmiddle, ?_⟩
  rcases hsame with rfl | ⟨-, hsame⟩
  · exact hstop
  · exact hsame.trans hstop

include hloosen

/-- Over the parts of the symbol, the run behind the backslash ends in the same state. -/
theorem together_parameters : Together γ (bound - 1) depth
    (inner { stopAtDot := true } { base with cursor := γ.whole (γ.backslash :: passed) errors })
    (inner { stopAtDot := true }
      { base with cursor := γ.parted (γ.backslash :: passed) errors }) := by
  obtain ⟨run, middle, hmiddle, hahead⟩ :=
    exists_parameters hdetach hfollows hbound hlimit passed errors hweight
  have hbeside : γ.loosen.Beside (bound - 1) 0 (γ.whole (γ.backslash :: passed) errors)
      (γ.parted (γ.backslash :: passed) errors) :=
    .ahead (.loose rfl) hweight
  have htogether := (hloosen 0 { stopAtDot := true }).together _ _
    (.intro { base with cursor := γ.whole (γ.backslash :: passed) errors } hbeside hlimit)
  rw [hmiddle] at htogether
  obtain ⟨last, hlast, rfl | ⟨hdetached, -⟩⟩ := htogether.at_parts hahead
  · rw [hmiddle, hlast]
    exact .ok run (.intro { base with cursor := last } (.same last) hlimit)
  · cases hdetached

omit hdetach hfollows hbound hlimit hweight hloosen

private theorem Gluing.Beside.at_backslash {cursor cursor' : Cursor} (htight : γ.loose = false)
    (h : γ.Beside bound depth cursor cursor')
    (hahead : cursor.ahead = γ.backslash :: (γ.parameters ++ γ.glued :: γ.rest)) :
    cursor' = cursor ∨ ∃ passed errors,
      (γ.whole (γ.backslash :: passed) errors).weight ≤ bound - 1 ∧
        cursor.advance = γ.whole (γ.backslash :: passed) errors ∧
        cursor'.advance = γ.parted (γ.backslash :: passed) errors := by
  cases h with
  | same => exact .inl rfl
  | @ahead passed front errors hguards hweight =>
    obtain rfl : front = γ.backslash :: γ.parameters :=
      List.append_cancel_right (hahead.trans (List.cons_append).symm)
    have hpos := Coupling.tokenWeight_pos γ.backslash
    have hadvance (ahead : List Token) (errors : DiagnosticMap) :
        (Cursor.mk passed (γ.backslash :: ahead) errors).advance =
          ⟨γ.backslash :: passed, ahead, errors⟩ := if_neg (by rw [γ.isLambda]; nofun)
    have hlength : (γ.backslash :: passed).length + γ.parameters.length =
        passed.length + (γ.backslash :: γ.parameters).length := by
      simp only [List.length_cons]
      omega
    refine .inr ⟨passed, errors, ?_, hadvance _ _, ?_⟩
    · rw [List.cons_append, Cursor.totalWeight] at hweight
      change Cursor.totalWeight (γ.parameters ++ γ.glued :: γ.rest) ≤ bound - 1
      omega
    · rw [Gluing.parted, hlength]
      exact hadvance _ _
  | @behind newer older ahead errors hended hweight =>
    subst hahead
    have hpos := Coupling.tokenWeight_pos γ.backslash
    rw [Cursor.totalWeight, Cursor.totalWeight_append, Cursor.totalWeight] at hweight
    omega
  | abreast hdetached => exact absurd (γ.isLoose hdetached) (by simp [htight])

include hinner hloosen hdetach hfollows hbound

theorem agreesAt_collectLambda (htoken : token.kind = .mark .backslash) (context : RunContext) :
    AgreesAt γ bound depth token (collectLambda inner context) depth := by
  let next (backslash : Token) (parameters : Run) : Parse Atom := do
    let _ ← expectMark .dot
    let body ← inner { context with stopAtDot := false }
    return .lambda parameters.items body (← spanFrom backslash.span.start)
  have hnext (backslash : Token) (parameters : Run) :
      Agrees γ (bound - 1) depth (next backslash parameters) depth := by
    have hdot : Agrees γ (bound - 1) depth (expectMark .dot) depth :=
      agrees_expectMark .dot (passes_mark rfl nofun)
    refine hdot.bind fun _ => (hinner depth _).bind fun body => ?_
    exact (agrees_spanFrom _).bind fun span => .pure _
  refine ⟨(@moving_advance .silent).lightens.bind fun backslash =>
    (hinner depth _).lightens.bind fun parameters => (hnext backslash parameters).lightens, ?_⟩
  intro state state' halong hfirst hsecond
  -- What is done behind the backslash, once the parameters are known to agree.
  have hbehind {middle middle' : ParseState}
      (h : Together γ (bound - 1) depth (inner { stopAtDot := true } middle)
        (inner { stopAtDot := true } middle')) :
      Together γ bound depth ((inner { stopAtDot := true } >>= next token) middle)
        ((inner { stopAtDot := true } >>= next token) middle') :=
    (h.bind (fun parameters => (hnext token parameters).lightens)
      fun parameters => (hnext token parameters).together).mono (Nat.sub_le bound 1)
  change Together γ bound depth
    ((inner { stopAtDot := true } >>= next state.cursor.current)
      { state with cursor := state.cursor.advance })
    ((inner { stopAtDot := true } >>= next state'.cursor.current)
      { state' with cursor := state'.cursor.advance })
  rw [hfirst, hsecond]
  refine hbehind ?_
  by_cases hlambda : γ.loose = true ∨
      state.cursor.ahead ≠ γ.backslash :: (γ.parameters ++ γ.glued :: γ.rest)
  · exact (hinner depth _).together _ _ (alongside_advance
      (.plain (htoken ▸ rfl)) halong hfirst hsecond hlambda)
  · obtain ⟨htight, hahead⟩ := not_or.mp hlambda
    cases halong with
    | intro hbeside hlimit =>
      rcases hbeside.at_backslash (Bool.eq_false_iff.mpr htight) (not_not.mp hahead) with
        rfl | ⟨passed, errors, hweight, hwhole, hparted⟩
      · exact (hinner depth _).together _ _ (.intro _ (.same _) hlimit)
      · rw [hwhole]
        dsimp only
        rw [hparted]
        exact together_parameters hloosen hdetach hfollows hbound hlimit passed errors hweight

end Lambda

/-! ## Identifiers -/

/-- What follows is looked at only behind a colon, and then it is the type that comes next. -/
theorem collectIdentifier_eq (context : RunContext) : collectIdentifier context = (do
    let token ← advance
    let plain := Atom.identifier (.ofToken token) token.span
    if (← currentKind) = .mark .colon then
      let follower ← peek 1
      if (token.kind = .variableName && !token.isQualified && !context.stopAtColon) &&
          follower.kind.isIdentifier then
        let _ ← advance
        if (← currentKind).isIdentifier then
          let typeToken ← advance
          return .typed (.ofToken token) (.ofToken typeToken) (token.span.through typeToken.span)
        else return plain
      else return plain
    else return plain) := by
  refine congrArg (advance >>= ·) (funext fun token => funext fun state => ?_)
  generalize htypable : (decide (token.kind = .variableName) && !token.isQualified &&
    !context.stopAtColon) = typable
  change (if (typable && decide (state.cursor.current.kind = .mark .colon) &&
      (state.cursor.peek 1).kind.isIdentifier) = true then _ else _ : Parse Atom) state =
    (if state.cursor.current.kind = .mark .colon then peek 1 >>= fun follower =>
      if (typable && follower.kind.isIdentifier) = true then _ else _ else _ : Parse Atom) state
  by_cases hcolon : state.cursor.current.kind = .mark .colon
  · rw [if_pos hcolon, decide_eq_true hcolon, Bool.and_true]
    change _ = (if (typable && (state.cursor.peek 1).kind.isIdentifier) = true then
      advance >>= fun _ => currentKind >>= fun found => if found.isIdentifier = true then _ else _
      else _ : Parse Atom) state
    by_cases htyped : (typable && (state.cursor.peek 1).kind.isIdentifier) = true
    · rw [if_pos htyped, if_pos htyped]
      exact advance_looked (by rw [hcolon]; nofun) (Bool.and_eq_true_iff.mp htyped).2 _ _
    · rw [if_neg htyped, if_neg htyped]
  · rw [if_neg hcolon, decide_eq_false hcolon, Bool.and_false, Bool.false_and, if_neg nofun]

theorem agreesAt_collectIdentifier (htoken : token.kind.isIdentifier) (context : RunContext) :
    AgreesAt γ bound depth token (collectIdentifier context) depth := by
  rw [collectIdentifier_eq]
  refine .passing (passes_of_isIdentifier htoken) fun name => ?_
  have htype (plain : Atom) : Agrees γ (bound - 1) depth (do
      if (← currentKind).isIdentifier then
        let typeToken ← advance
        return .typed (.ofToken name) (.ofToken typeToken) (name.span.through typeToken.span)
      else return plain) depth := by
    refine .currentKind (fun token => .ite (fun hidentifier => ?_) fun _ =>
      (Agrees.pure plain).at_token token) (confronts_pure plain)
    exact (AgreesAt.advance (passes_of_isIdentifier hidentifier)).bind fun _ => .pure _
  refine Agrees.peekBehind ?_ ?_ (passes_mark rfl ?_) (fun colon follower hcolon => ?_) ?_ (.pure _)
  · nofun
  · nofun
  · nofun
  · refine .ite (fun _ => ?_) fun _ => (Agrees.pure _).at_token colon
    exact (AgreesAt.advance_mark hcolon rfl nofun).bind fun _ => htype _
  · rw [γ.kind, γ.dot_kind]
    rfl

/-! ## Items -/

theorem confronts_operatorItems (context : RunContext) {other : Parse (Option (List RunItem))}
    (hother : context.stopAtDot → other = pure none) :
    Confronts γ bound (if context.stopAtDot && beginsWithDot γ.glued then do
        split 1
        return none
      else return some [.operator (← operator)]) other depth := by
  cases hdot : context.stopAtDot with
  | true =>
    rw [γ.beginsWithDot, Bool.and_self, if_pos rfl, hother hdot]
    exact confronts_split (.pure none)
  | false =>
    rw [Bool.false_and, if_neg nofun]
    exact confronts_operator (fun op => .pure _) other

section Items

variable {inner : RunContext → Parse Run}
  (hinner : ∀ depth context, Agrees γ (bound - 1) depth (inner context) depth)
  (hloosen : ∀ depth context, Agrees γ.loosen (bound - 1) depth (inner context) depth)
  (hdetach : ∀ depth context, Agrees γ.detach (bound - 1) depth (inner context) depth)
  (hfollows : FollowsWithin (bound - 1) inner CollectsAny) (hbound : bound - 1 ≤ γ.limit)

include hinner hloosen hdetach hfollows hbound

theorem agrees_nextItems (context : RunContext) (started : Bool) :
    Agrees γ bound depth (nextItems? inner context started) depth := by
  refine .current (fun token => ?_) ?_
  · generalize hkind : token.kind = kind
    split
    · exact (agreesAt_collectIdentifier (hkind ▸ rfl) context).bind fun _ => .pure _
    · exact (agreesAt_collectIdentifier (hkind ▸ rfl) context).bind fun _ => .pure _
    · refine (AgreesAt.advance_word hkind).bind fun _ => (agrees_identifier _).bind fun name => ?_
      exact (agrees_spanFrom _).bind fun span => .pure _
    · refine (AgreesAt.advance ⟨.plain (hkind ▸ rfl), hkind ▸ nofun⟩).bind fun _ => ?_
      exact (Agrees.ofExcept _).bind fun literal => .pure _
    · exact (AgreesAt.advance ⟨.plain (hkind ▸ rfl), hkind ▸ nofun⟩).bind fun _ => .pure _
    · exact (agreesAt_collectContainer hinner (hkind ▸ .inl rfl)).bind fun _ => .pure _
    · exact (agreesAt_collectContainer hinner (hkind ▸ .inr (.inl rfl))).bind fun _ => .pure _
    · exact (agreesAt_collectContainer hinner (hkind ▸ .inr (.inr rfl))).bind fun _ => .pure _
    · exact (agreesAt_collectLambda hinner hloosen hdetach hfollows hbound hkind context).bind
        fun _ => .pure _
    · refine .ite (fun _ => (Agrees.pure none).at_token token) fun _ => ?_
      exact (agreesAt_collectConditional hinner hkind context).bind fun _ => .pure _
    · exact (agrees_fail _).at_token token
    · have hnone : AgreesAt γ bound depth token (pure none : Parse (Option (List RunItem))) depth :=
        (Agrees.pure none).at_token token
      refine .ite (fun _ => hnone) fun _ => .ite (fun _ => hnone) fun _ => .ite (fun hdot => ?_)
        fun _ => .ite (fun hstart => ?_) fun _ => hnone
      · exact (AgreesAt.split (Bool.and_eq_true_iff.mp hdot).2).bind fun _ => .pure none
      · exact (agreesAt_operator (hkind ▸ hstart)).bind fun op => .pure _
  · rw [γ.kind, γ.dot_kind]
    simp only [reduceCtorEq, decide_false, Bool.and_false, Bool.false_eq_true, if_false]
    exact confronts_operatorItems context fun hdot => by simp [hdot]

theorem agrees_collectItems (context : RunContext) (rounds : Nat) (found : List RunItem) :
    Agrees γ bound depth (collectItems inner context rounds found) depth := by
  induction rounds generalizing found with
  | zero => exact agrees_exhaust _
  | succ rounds ih =>
    refine (agrees_nextItems hinner hloosen hdetach hfollows hbound context _).bind fun answer => ?_
    cases answer with
    | some items => exact ih (items.reverse ++ found)
    | none => exact .pure _

end Items

/-! ## Runs -/

private theorem followsWithin_collectRun {rounds : Nat} (h : bound ≤ rounds) :
    FollowsWithin bound (collectRun rounds) CollectsAny := fun context cursor hended hweight =>
  follows_collectRun (Nat.le_trans hweight h) context cursor hended (Nat.le_refl _)

theorem agrees_collectRun {rounds : Nat} (hrounds : bound ≤ rounds) (hlimit : bound ≤ γ.limit)
    (context : RunContext) : Agrees γ bound depth (collectRun rounds context) depth := by
  -- Each run inside has less ahead, so that the rounds suffice for whatever nesting can be reached.
  induction rounds generalizing γ bound depth context with
  | zero => exact agrees_position.bind fun start => agrees_exhaust _
  | succ rounds ih =>
    have hless : bound - 1 ≤ rounds := by omega
    have hbound : bound - 1 ≤ γ.limit := by omega
    refine agrees_position.bind fun start => .get (fun state => ?_) fun _ _ => rfl
    refine (agrees_collectItems (fun _ => ih hless hbound) (fun _ => ih hless hbound)
      (fun _ => ih hless hbound) (followsWithin_collectRun hless) hbound context _ []).bind
      fun items => .pure _

theorem Parse.agrees_run (hlimit : bound ≤ γ.limit) (context : RunContext) :
    Agrees γ bound depth (run context) depth where
  lightens := (@moving_run .silent context).lightens
  together state state' halong := by
    have hsteps := fun rounds (h : rounds = γ.limit) =>
      (agrees_collectRun (h ▸ hlimit) hlimit context).together state state' halong
    cases halong with
    | intro hbeside hstate => exact hsteps state.limit hstate

end Equational

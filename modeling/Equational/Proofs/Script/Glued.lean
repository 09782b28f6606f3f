import Equational.Proofs.Run.Sealed
import Equational.Proofs.Run.Whole
import Equational.Proofs.Script.Abreast
import Equational.Proofs.Statement.Conditional
import Equational.Proofs.Statement.Glued

/-!
# The glued dot of a lambda

Two readings of token streams that differ in a symbol that is glued to the dot of a lambda: one over
the symbol, the other one over its parts, with the kept diagnostics behind it one index further on.
After each statement the readings have come to the same, until the symbol is split or skipped; and
then they go on with the same.
-/

namespace Equational

open Cursor Parse Grammar

/-! ## Readings alongside each other -/

namespace Gluing

variable {γ : Gluing} {bound : Nat} (htight : γ.loose = false)

include htight

theorem Beside.values_eq {cursor cursor' : Cursor} (h : γ.Beside bound 0 cursor cursor') :
    cursor'.errors.values = cursor.errors.values := by
  cases h with
  | same => rfl
  | ahead | behind => exact DiagnosticMap.values_openGap _ _
  | abreast hdetached => exact absurd (γ.isLoose hdetached) (by simp [htight])

structure InStep (γ : Gluing) (bound : Nat) (first second : Progress) : Prop where
  body_eq : second.body = first.body
  states : γ.Alongside bound 0 first.state second.state

namespace InStep

variable {first second : Progress}

theorem step (hlimit : bound ≤ γ.limit) (h : γ.InStep bound first second) :
    γ.InStep bound first.step second.step := by
  obtain ⟨hbody, hstates⟩ := h
  have htable := hstates.fields_eq.1
  have htogether := (agrees_statement htight hlimit).together _ _ hstates
  generalize hresult : statement first.state = result at htogether
  generalize hresult' : statement second.state = result' at htogether
  cases htogether with
  | @ok parsed state _ hfinal =>
    cases parsed with
    | statement statement =>
      rw [first.step_of_statement hresult, second.step_of_statement hresult', hbody]
      refine ⟨rfl, ?_⟩
      cases hfinal with
      | intro h hstate =>
        exact .intro { state with followsEquation := statement.isEquation } h hstate
    | clause clause =>
      rw [first.step_of_clause hresult, second.step_of_clause hresult', hbody]
      exact ⟨rfl, hfinal⟩
  | @error diagnostic state _ hfinal =>
    rw [first.step_of_error hresult, second.step_of_error hresult', hbody, htable]
    refine ⟨rfl, ?_⟩
    cases hfinal with
    | intro h hstate =>
      exact .intro { state with
        cursor := state.cursor.skipStatement
        table := first.state.table
        reported := diagnostic :: state.reported
        followsEquation := false } (h.skipStatement htight) hstate
  | kept hloose => simp [htight] at hloose
  | lost hloose => simp [htight] at hloose

theorem current_eq (h : γ.InStep bound first second) :
    second.state.cursor.current = first.state.cursor.current :=
  h.states.beside.current_eq htight

private theorem isOver_eq (h : γ.InStep bound first second) (mode : ParseMode) :
    second.isOver mode = first.isOver mode := by
  have hcurrent := h.current_eq htight
  simp only [Progress.isOver, ParseState.hasTokens, hcurrent, h.states.fields_eq.2.1]

theorem run (hlimit : bound ≤ γ.limit) (h : γ.InStep bound first second) (mode : ParseMode)
    (rounds : Nat) : γ.InStep bound (first.run mode rounds) (second.run mode rounds) := by
  induction rounds generalizing first second with
  | zero => exact h
  | succ rounds ih =>
    rw [Progress.run, Progress.run, h.isOver_eq htight]
    split
    · exact h
    · exact ih (h.step htight hlimit)

private theorem finalDiagnostics_eq (h : γ.InStep bound first second) (mode : ParseMode) :
    finalDiagnostics mode second.state = finalDiagnostics mode first.state := by
  have hvalues := h.states.beside.values_eq htight
  simp only [finalDiagnostics, ParseState.diagnostics, h.states.fields_eq.2.1, hvalues]

end InStep

theorem parsedScript_eq {tokens tokens' : List Token} {errors errors' : DiagnosticMap}
    (hlimit : bound ≤ γ.limit)
    (h : γ.Alongside bound 0 (.ofTokens tokens errors) (.ofTokens tokens' errors'))
    (options : ParseOptions) :
    ParsedScript.ofTokens tokens' errors' options =
      ParsedScript.ofTokens tokens errors options := by
  have hstart : γ.InStep bound ⟨.ofTokens tokens errors, []⟩ ⟨.ofTokens tokens' errors', []⟩ :=
    ⟨rfl, h⟩
  have hrounds := h.fields_eq.2.2
  have htokens : (ParseState.ofTokens tokens' errors').hasTokens =
      (ParseState.ofTokens tokens errors).hasTokens := by
    rw [ParseState.hasTokens, ParseState.hasTokens]
    exact congrArg (fun token : Token => token.kind != .endOfInput) (hstart.current_eq htight)
  have hend {first second : Progress} (hsteps : γ.InStep bound first second) (cancelled : Bool) :
      ParsedScript.mk ⟨second.body.reverse, ⟨0, second.state.cursor.current.span.start⟩⟩
        (finalDiagnostics options.mode second.state) second.state.table cancelled =
      ParsedScript.mk ⟨first.body.reverse, ⟨0, first.state.cursor.current.span.start⟩⟩
        (finalDiagnostics options.mode first.state) first.state.table cancelled := by
    rw [hsteps.current_eq htight, hsteps.finalDiagnostics_eq htight, hsteps.body_eq,
      hsteps.states.fields_eq.1]
  simp only [ParsedScript.ofTokens, htokens, hrounds]
  cases options.cancelled && (ParseState.ofTokens tokens errors).hasTokens with
  | true => exact hend hstart true
  | false => exact hend (hstart.run htight hlimit options.mode _) false

end Gluing

/-! ## Lambda dots -/

/-- The tokens between the backslash of a lambda and the symbol are read as its parameters: items
lead from the one to the other. -/
def EndsParameters (backslash : Token) (parameters : List Token) (glued : Token)
    (after : List Token) : Prop :=
  let start : Cursor := ⟨[backslash], Cursor.withEnd (parameters ++ glued :: after), .empty⟩
  ∃ passed errors, Leads (Collects start.weight) { stopAtDot := true } false start
    ⟨passed, Cursor.withEnd (glued :: after), errors⟩

theorem Cursor.withEnd_append (front : List Token) {tokens : List Token} (h : tokens ≠ []) :
    withEnd (front ++ tokens) = front ++ withEnd tokens := by
  obtain ⟨init, last, rfl⟩ := List.eq_nil_or_concat tokens |>.resolve_left h
  rw [List.concat_eq_append, ← List.append_assoc, withEnd, withEnd, List.getLast?_concat,
    List.getLast?_concat]
  dsimp only
  split
  · exact List.append_assoc _ _ _
  · rw [List.append_assoc, List.append_assoc, List.append_assoc]

theorem exists_withEnd (glued : Token) (hkind : glued.kind = .operatorSymbol) (text : List Char)
    (after : List Token) :
    ∃ rest, withEnd (glued :: after) = glued :: rest ∧
      withEnd (lambdaDot glued :: behindDot glued text :: after) =
        lambdaDot glued :: behindDot glued text :: rest := by
  rcases after with _ | ⟨token, after⟩
  · have hglued : glued.kind ≠ .endOfInput := by
      rw [hkind]
      nofun
    have hbehind : (behindDot glued text).kind ≠ .endOfInput := kind_operatorPart text _
    exact ⟨_, if_neg hglued, if_neg hbehind⟩
  · exact ⟨_, withEnd_append [glued] (List.cons_ne_nil _ _),
      withEnd_append [lambdaDot glued, behindDot glued text] (List.cons_ne_nil _ _)⟩

private theorem sealed_parameters {parameters rest : List Token} {backslash glued : Token}
    {text : List Char} {run : Run} {passed : List Token} {errors : DiagnosticMap}
    (hkind : glued.kind = .operatorSymbol) (hsymbol : ∀ c ∈ text, Token.isOperatorChar c)
    (hspelled : ∀ token ∈ parameters ++ [glued], token.IsSpelled)
    (h : CollectsAny { stopAtDot := true } ⟨[backslash], parameters ++ glued :: rest, .empty⟩ run
      ⟨passed, lambdaDot glued :: behindDot glued text :: rest, errors⟩) :
    Sealed (parameters.map Token.kind) := by
  obtain ⟨taken, hpassage, hsealed⟩ := Collects.exists_sealed h
  have hweight : totalWeight rest <
      Cursor.weight ⟨passed, lambdaDot glued :: behindDot glued text :: rest, errors⟩ := by
    have hpos := Coupling.tokenWeight_pos (lambdaDot glued)
    simp only [Cursor.weight, totalWeight]
    omega
  obtain ⟨left, hleft, hlandmarks⟩ :=
    hpassage.landmarks_eq (List.append_cons parameters glued rest) hspelled hweight
  obtain rfl : [lambdaDot glued, behindDot glued text] = left := List.append_cancel_right hleft
  have hglued : glued.kind.isPlain := by
    rw [hkind]
    rfl
  have hdot : (lambdaDot glued).kind.isPlain := rfl
  have hbehind : (behindDot glued text).kind.isPlain := isPlain_ofOperatorText hsymbol
  rw [List.map_append, landmarks, List.filter_append] at hlandmarks
  simp only [landmarks, List.map_cons, List.map_nil, List.filter_cons, List.filter_nil, hglued,
    hdot, hbehind, Bool.not_true, Bool.false_eq_true, if_false, List.append_nil] at hlandmarks
  rw [← sealed_landmarks] at hsealed ⊢
  rwa [landmarks, hlandmarks]

/-- The symbol at the end of the parameters, with all that is known about what is around it. -/
theorem exists_gluing {parameters after : List Token} {backslash glued : Token} {text : List Char}
    (hlambda : backslash.kind = .mark .backslash) (hkind : glued.kind = .operatorSymbol)
    (hplain : glued.moduleName = none) (hvalue : glued.value.toList = '.' :: text)
    (htext : text ≠ []) (hspelled : ∀ token ∈ parameters ++ [glued], token.IsSpelled)
    (hends : EndsParameters backslash parameters glued after) (limit : Nat) :
    ∃ γ : Gluing, γ.loose = false ∧ γ.backslash = backslash ∧ γ.parameters = parameters ∧
      γ.glued = glued ∧ γ.text = text ∧ γ.limit = limit ∧
      withEnd (glued :: after) = glued :: γ.rest ∧
      withEnd (lambdaDot glued :: behindDot glued text :: after) = γ.dot :: γ.tail :: γ.rest := by
  obtain ⟨rest, hglued, hbehind⟩ := exists_withEnd glued hkind text after
  have hwith : withEnd (parameters ++ glued :: after) = parameters ++ glued :: rest := by
    rw [withEnd_append parameters (List.cons_ne_nil _ _), hglued]
  obtain ⟨passed, errors, hleads⟩ := hends
  rw [hwith, hglued] at hleads
  have hended : Cursor.IsEnded ⟨[backslash], parameters ++ glued :: rest, .empty⟩ :=
    hwith ▸ isEnded_ofTokens (parameters ++ glued :: after) .empty
  have hrest : ∃ front last, rest = front ++ [last] ∧ last.kind = .endOfInput := by
    have hsymbol : glued.kind ≠ .endOfInput := by
      rw [hkind]
      nofun
    have hwhole : Cursor.IsEnded ⟨[], glued :: rest, .empty⟩ :=
      hglued ▸ isEnded_ofTokens (glued :: after) .empty
    exact (Takes.intro [] rest hsymbol).isEnded hwhole
  have hdot : beginsWithDot glued := beginsWithDot_of_value hvalue hkind hplain
  obtain ⟨run, hrun⟩ := hleads.exists_collectsAny hended hdot rfl
  rw [split_dot hvalue htext] at hrun
  obtain ⟨hparameters, hsymbol⟩ := List.forall_mem_append.mp hspelled
  have htextSpelled : ∀ c ∈ text, Token.isOperatorChar c := by
    have hchars := List.forall_mem_singleton.mp hsymbol hkind
    rw [hvalue] at hchars
    exact (List.forall_mem_cons.mp hchars).2
  exact ⟨{
    backslash, parameters, glued, text, rest, limit
    loose := false
    detached := false
    isLoose := nofun
    isLambda := hlambda
    kind := hkind
    plain := hplain
    value := hvalue
    nonempty := htext
    symbol := htextSpelled
    spelled := hparameters
    isSealed := sealed_parameters hkind htextSpelled hspelled hrun
    ended := hrest
    ends := ⟨run, _, hrun, rfl⟩ }, rfl, rfl, rfl, rfl, rfl, rfl, hglued, hbehind⟩

private theorem Gluing.alongside_start {γ : Gluing} (before : List Token) {after : List Token}
    (errors : DiagnosticMap) (hglued : withEnd (γ.glued :: after) = γ.glued :: γ.rest)
    (hparts : withEnd (γ.dot :: γ.tail :: after) = γ.dot :: γ.tail :: γ.rest) :
    let front := before ++ γ.backslash :: γ.parameters
    let start := ParseState.ofTokens (front ++ γ.glued :: after) errors
    start.limit = γ.limit → γ.Alongside γ.limit 0 start
      (.ofTokens (front ++ γ.dot :: γ.tail :: after) (errors.openGap front.length)) := by
  intro front start hlimit
  have hwhole : withEnd (front ++ γ.glued :: after) = front ++ γ.glued :: γ.rest := by
    rw [withEnd_append front (List.cons_ne_nil _ _), hglued]
  have hparted : withEnd (front ++ γ.dot :: γ.tail :: after) =
      front ++ γ.dot :: γ.tail :: γ.rest := by
    rw [withEnd_append front (List.cons_ne_nil _ _), hparts]
  have hweight : totalWeight (front ++ γ.dot :: γ.tail :: γ.rest) =
      totalWeight (front ++ γ.glued :: γ.rest) := by
    have hsymbol := γ.tokenWeight_eq
    simp only [totalWeight_append, totalWeight]
    omega
  have hsecond : ParseState.ofTokens (front ++ γ.dot :: γ.tail :: after)
      (errors.openGap front.length) = { start with cursor :=
        ⟨[], front ++ γ.dot :: γ.tail :: γ.rest, errors.openGap front.length⟩ } := by
    simp only [start, ParseState.ofTokens, Cursor.ofTokens, Cursor.weight, hwhole, hparted, hweight]
  have hcursor : start.cursor = ⟨[], front ++ γ.glued :: γ.rest, errors⟩ :=
    congrArg (Cursor.mk [] · errors) hwhole
  have hbound : totalWeight (front ++ γ.glued :: γ.rest) ≤ γ.limit := by
    rw [← hlimit, ← hwhole]
    exact Nat.le_succ _
  have hbeside : γ.Beside γ.limit 0 ⟨[], front ++ γ.glued :: γ.rest, errors⟩
      ⟨[], front ++ γ.dot :: γ.tail :: γ.rest, errors.openGap ([].length + front.length)⟩ :=
    .ahead (.lambda before) hbound
  rw [List.length_nil, Nat.zero_add] at hbeside
  rw [hsecond]
  exact .intro start (hcursor ▸ hbeside) hlimit

theorem isSpelled_of_ofSource {source : String} {lexed : Lexed}
    (h : Lexed.ofSource source = .ok lexed) : ∀ token ∈ lexed.tokens, token.IsSpelled := by
  obtain ⟨slots, hslots⟩ := Lexed.exists_slots h
  intro token hmem
  rw [hslots.tokens, tokensOf] at hmem
  obtain ⟨slot, hslot, rfl⟩ := List.mem_map.mp hmem
  exact (hslots.isLexed slot hslot).symbol

theorem endsParameters_name {backslash name glued : Token} (hname : name.kind.isIdentifier)
    (hkind : glued.kind = .operatorSymbol) (after : List Token) :
    EndsParameters backslash [name] glued after := by
  obtain ⟨rest, hrest, -⟩ := exists_withEnd glued hkind [] after
  have hwith : withEnd ([name] ++ glued :: after) = name :: glued :: rest :=
    (withEnd_append [name] (List.cons_ne_nil _ _)).trans (congrArg (name :: ·) hrest)
  have htakes : Cursor.Takes ⟨[backslash], name :: glued :: rest, .empty⟩ name
      ⟨[name, backslash], glued :: rest, .empty⟩ := by
    refine .intro _ _ fun hend => ?_
    rw [hend] at hname
    cases hname
  have hnamed : Named { stopAtDot := true } ⟨[backslash], name :: glued :: rest, .empty⟩
      (.identifier (.ofToken name) name.span) ⟨[name, backslash], glued :: rest, .empty⟩ := by
    refine .plain htakes ?_
    rintro ⟨-, hcolon, -⟩
    exact nomatch hkind.symm.trans hcolon
  have hanswer (Inner : RunContext → Cursor → Run → Cursor → Prop) :
      Answer Inner { stopAtDot := true } false ⟨[backslash], name :: glued :: rest, .empty⟩
        (some [.atom (.identifier (.ofToken name) name.span)])
        ⟨[name, backslash], glued :: rest, .empty⟩ := by
    refine answer_of_next Inner _ false (.named hname hnamed) (halts_of_not_operator _ ?_)
    change name.kind.isOperatorStart = false
    generalize name.kind = kind at hname
    cases kind <;> first | rfl | cases hname
  unfold EndsParameters
  rw [hwith, hrest]
  exact ⟨[name, backslash], .empty, .next (hanswer _) (.refl true _)⟩

/-- Two lambdas, one in the other: both dots are glued, the second one to an operator that begins
with a dot itself.  Behind them a number is malformed. -/
def nestedLambdas : String := "x = \\y.-\\z..-z; x = 08;"

def endsSecondParameters (lexed : Lexed) : Bool :=
  match lexed.tokens with
  | _ :: _ :: _ :: _ :: _ :: backslash :: name :: glued :: _ =>
    backslash.kind = .mark .backslash && name.kind.isIdentifier &&
      glued.kind = .operatorSymbol && glued.moduleName.isNone &&
      glued.value.toList = ['.', '.', '-'] && lexed.errors.entries.length = 1
  | _ => false

end Equational

import Equational.Proofs.Parse.Glued

/-!
# Steps alongside each other

A step is run twice: over tokens with a symbol that is glued to the dot of a lambda, and over the
same tokens with the parts of the symbol in its place.  As long as the symbol is guarded, both runs
come to the same value or the same diagnostic, and to states that differ as before.
-/

namespace Equational

open Cursor

/-! ## Pairs of states -/

namespace Gluing

variable (γ : Gluing)

/-- The states of two runs, which differ in their cursors. -/
inductive Alongside (bound depth : Nat) : ParseState → ParseState → Prop where
  | intro (state : ParseState) {cursor' : Cursor} (h : γ.Beside bound depth state.cursor cursor')
    (hlimit : state.limit = γ.limit) : Alongside bound depth state { state with cursor := cursor' }

inductive InFront (bound : Nat) : ParseState → ParseState → Prop where
  | intro (base : ParseState) (passed : List Token) (errors : DiagnosticMap)
    (hweight : totalWeight (γ.glued :: γ.rest) ≤ bound) (hlimit : base.limit = γ.limit) :
    InFront bound { base with cursor := ⟨passed, γ.glued :: γ.rest, errors⟩ }
      { base with cursor := ⟨passed, γ.dot :: γ.tail :: γ.rest, errors.openGap passed.length⟩ }

variable {γ} {bound bound' depth depth' : Nat} {state state' : ParseState}

theorem Alongside.mono (h : γ.Alongside bound depth state state') (hbound : bound ≤ bound')
    (hdepth : depth' ≤ depth) : γ.Alongside bound' depth' state state' := by
  cases h with
  | intro h hlimit => exact .intro _ (h.mono hbound hdepth) hlimit

theorem Alongside.beside (h : γ.Alongside bound depth state state') :
    γ.Beside bound depth state.cursor state'.cursor := by
  cases h with
  | intro h => exact h

theorem Alongside.fields_eq (h : γ.Alongside bound depth state state') :
    state'.table = state.table ∧ state'.reported = state.reported ∧
      state'.limit = state.limit := by
  cases h
  exact ⟨rfl, rfl, rfl⟩

theorem InFront.alongside (hloose : γ.loose = true) (h : γ.InFront bound state state') :
    γ.Alongside bound depth state state' := by
  cases h with
  | intro base passed errors hweight hlimit =>
    exact .intro { base with cursor := ⟨passed, γ.glued :: γ.rest, errors⟩ }
      (@Beside.ahead γ _ _ passed [] errors (.loose hloose) hweight) hlimit

theorem Alongside.current_cases (h : γ.Alongside bound depth state state') :
    state'.cursor.current = state.cursor.current ∨
      γ.loose = true ∧ γ.InFront bound state state' := by
  cases h with
  | intro h hlimit =>
    rcases h.current_cases with heq | ⟨hloose, hweight, passed, errors, hfirst, rfl⟩
    · exact .inl heq
    · obtain ⟨_, table, reported, follows, limit, exhausted⟩ := state
      cases hfirst
      exact .inr ⟨hloose, .intro ⟨_, table, reported, follows, limit, exhausted⟩ passed errors
        hweight hlimit⟩

end Gluing

/-! ## Cursors -/

theorem Cursor.current_advance {cursor : Cursor} (h : cursor.current.kind ≠ .endOfInput) :
    cursor.advance.current = cursor.peek 1 := by
  obtain ⟨passed, ahead, errors⟩ := cursor
  cases ahead with
  | nil => cases passed <;> rfl
  | cons token rest =>
    replace h : token.kind ≠ .endOfInput := h
    rw [(Takes.intro passed rest h).advance_eq]
    cases rest <;> rfl

theorem Move.weight_le {noise : Noise} {state next : ParseState} (h : Move noise state next) :
    next.cursor.weight ≤ state.cursor.weight := by
  cases h with
  | advance =>
    change state.cursor.advance.weight ≤ _
    unfold Cursor.advance
    split
    · rename_i token rest hahead
      split
      · exact Nat.le_refl _
      · rw [weight, weight, hahead, totalWeight]
        exact Nat.le_add_left _ _
    · exact Nat.le_refl _
  | split => exact weight_split_le _ 1
  | unexpected _ expected =>
    obtain ⟨errors, hcursor⟩ := state.cursor.exists_errors_of_unexpected expected
    dsimp only
    rw [hcursor]
    exact Nat.le_refl _
  | exhaust | report => exact Nat.le_refl _

theorem Moves.weight_le {noise : Noise} {state next : ParseState} (h : Moves noise state next) :
    next.cursor.weight ≤ state.cursor.weight := by
  induction h with
  | refl => exact Nat.le_refl _
  | tail _ hmove ih => exact Nat.le_trans hmove.weight_le ih

/-! ## Steps that agree -/

namespace Parse

variable {α β : Type} {γ : Gluing} {bound before middle after depth : Nat}

/-- How both runs of a step end.  In loose circumstances the first one may fail or get past the
symbol, and then nothing is said about the second one. -/
inductive Together (γ : Gluing) (bound depth : Nat) :
    EStateM.Result Diagnostic ParseState α → EStateM.Result Diagnostic ParseState α → Prop where
  | ok (value : α) {state state' : ParseState} (h : γ.Alongside bound depth state state') :
    Together γ bound depth (.ok value state) (.ok value state')
  | error (diagnostic : Diagnostic) {state state' : ParseState}
    (h : γ.Alongside bound 0 state state') :
    Together γ bound depth (.error diagnostic state) (.error diagnostic state')
  | kept {value : α} {state : ParseState} {other : EStateM.Result Diagnostic ParseState α}
    (hloose : γ.loose = true) (h : state.cursor.weight ≤ totalWeight γ.rest) :
    Together γ bound depth (.ok value state) other
  | lost {diagnostic : Diagnostic} {state : ParseState}
    {other : EStateM.Result Diagnostic ParseState α} (hloose : γ.loose = true) :
    Together γ bound depth (.error diagnostic state) other

def Lightens (step : Parse α) : Prop :=
  ∀ state value final, step state = .ok value final → final.cursor.weight ≤ state.cursor.weight

/-- From states with so many brackets open to states with so many. -/
structure Agrees (γ : Gluing) (bound before : Nat) (step : Parse α) (after : Nat) : Prop where
  lightens : Lightens step
  together : ∀ state state', γ.Alongside bound before state state' →
    Together γ bound after (step state) (step state')

structure AgreesAt (γ : Gluing) (bound before : Nat) (token : Token) (step : Parse α)
    (after : Nat) : Prop where
  lightens : Lightens step
  together : ∀ state state', γ.Alongside bound before state state' →
    state.cursor.current = token → state'.cursor.current = token →
    Together γ bound after (step state) (step state')

/-- What two steps do in front of the symbol and in front of its parts. -/
def Confronts (γ : Gluing) (bound : Nat) (step step' : Parse α) (after : Nat) : Prop :=
  γ.loose = true → ∀ state state', γ.InFront bound state state' →
    Together γ bound after (step state) (step' state')

theorem Lightens.pure (value : α) : Lightens (pure value) := by
  intro state _ _ hstep
  cases hstep
  exact Nat.le_refl _

theorem Lightens.bind {step : Parse α} {next : α → Parse β} (h : Lightens step)
    (hnext : ∀ value, Lightens (next value)) : Lightens (step >>= next) := by
  intro state value final hstep
  obtain ⟨first, middle, hfirst, hrest⟩ := bind_eq_ok_iff.mp hstep
  exact Nat.le_trans (hnext first middle value final hrest) (h state first middle hfirst)

theorem Together.mono {first second : EStateM.Result Diagnostic ParseState α} {bound' : Nat}
    (h : Together γ bound depth first second) (hbound : bound ≤ bound') :
    Together γ bound' depth first second := by
  cases h with
  | ok value h => exact .ok value (h.mono hbound (Nat.le_refl _))
  | error diagnostic h => exact .error diagnostic (h.mono hbound (Nat.le_refl _))
  | kept hloose h => exact .kept hloose h
  | lost hloose => exact .lost hloose

theorem Together.bind {step step' : Parse α} {next next' : α → Parse β}
    {state state' : ParseState} (h : Together γ bound middle (step state) (step' state'))
    (hlightens : ∀ value, Lightens (next value))
    (hnext : ∀ value state state', γ.Alongside bound middle state state' →
      Together γ bound after (next value state) (next' value state')) :
    Together γ bound after ((step >>= next) state) ((step' >>= next') state') := by
  change Together γ bound after (EStateM.bind step next state) (EStateM.bind step' next' state')
  unfold EStateM.bind
  generalize step state = result at h
  generalize step' state' = result' at h
  cases h with
  | ok value h => exact hnext value _ _ h
  | error diagnostic h => exact .error diagnostic h
  | @kept value middle _ hloose hweight =>
    dsimp only
    cases hstep : next value middle with
    | ok result final =>
      exact .kept hloose (Nat.le_trans (hlightens value _ _ _ hstep) hweight)
    | error diagnostic final => exact .lost hloose
  | lost hloose => exact .lost hloose

namespace Agrees

variable {step : Parse α}

theorem at_token (h : Agrees γ bound before step after) (token : Token) :
    AgreesAt γ bound before token step after :=
  ⟨h.lightens, fun state state' halong _ _ => h.together state state' halong⟩

theorem confronts (h : Agrees γ bound before step after) : Confronts γ bound step step after :=
  fun hloose state state' hfront => h.together state state' (hfront.alongside hloose)

theorem pure (value : α) : Agrees γ bound depth (pure value) depth where
  lightens := .pure value
  together _ _ halong := .ok value halong

theorem throw (diagnostic : Diagnostic) :
    Agrees γ bound before (throw diagnostic : Parse α) after where
  lightens _ _ _ hstep := by cases hstep
  together _ _ halong := .error diagnostic (halong.mono (Nat.le_refl _) (Nat.zero_le _))

theorem bind {next : α → Parse β} (h : Agrees γ bound before step middle)
    (hnext : ∀ value, Agrees γ bound middle (next value) after) :
    Agrees γ bound before (step >>= next) after where
  lightens := h.lightens.bind fun value => (hnext value).lightens
  together state state' halong :=
    (h.together state state' halong).bind (fun value => (hnext value).lightens)
      fun value => (hnext value).together

theorem map (f : α → β) (h : Agrees γ bound before step after) :
    Agrees γ bound before (f <$> step) after := by
  rw [map_eq_pure_bind]
  exact h.bind fun _ => .pure _

theorem ite {condition : Prop} [Decidable condition] {second : Parse α}
    (h : Agrees γ bound before step after) (h' : Agrees γ bound before second after) :
    Agrees γ bound before (if condition then step else second) after := by
  split
  · exact h
  · exact h'

theorem choice {condition : Prop} [Decidable condition] {second : Parse α} {next : α → Parse β}
    (h : Agrees γ bound before step middle) (h' : Agrees γ bound before second middle)
    (hnext : ∀ value, Agrees γ bound middle (next value) after) :
    Agrees γ bound before (if condition then step >>= next else second >>= next) after :=
  .ite (h.bind hnext) (h'.bind hnext)

theorem ofExcept (outcome : Except Diagnostic α) :
    Agrees γ bound depth (MonadExcept.ofExcept outcome : Parse α) depth := by
  cases outcome with
  | ok value => exact .pure value
  | error diagnostic => exact .throw diagnostic

theorem get {next : ParseState → Parse α} (h : ∀ state, Agrees γ bound before (next state) after)
    (hsame : ∀ state cursor, next { state with cursor } = next state) :
    Agrees γ bound before (MonadState.get >>= next) after where
  lightens state := (h state).lightens state
  together state state' halong := by
    have hsteps := (h state).together state state' halong
    cases halong with
    | @intro cursor h _ =>
      change Together γ bound after (next state state) (next { state with cursor } _)
      rwa [hsame state cursor]

end Agrees

namespace AgreesAt

variable {step : Parse α} {token : Token}

theorem bind {next : α → Parse β} (h : AgreesAt γ bound before token step middle)
    (hnext : ∀ value, Agrees γ bound middle (next value) after) :
    AgreesAt γ bound before token (step >>= next) after where
  lightens := h.lightens.bind fun value => (hnext value).lightens
  together state state' halong hfirst hsecond :=
    (h.together state state' halong hfirst hsecond).bind (fun value => (hnext value).lightens)
      fun value => (hnext value).together

theorem ite {condition : Prop} [Decidable condition] {second : Parse α}
    (h : condition → AgreesAt γ bound before token step after)
    (h' : ¬condition → AgreesAt γ bound before token second after) :
    AgreesAt γ bound before token (if condition then step else second) after := by
  split
  · exact h ‹_›
  · exact h' ‹_›

end AgreesAt

/-! ## In front of the symbol -/

theorem confronts_pure (value : α) : Confronts γ bound (pure value) (pure value) after :=
  (Agrees.pure value).confronts

theorem confronts_throw (diagnostic : Diagnostic) (other : Parse α) :
    Confronts γ bound (throw diagnostic) other after := fun hloose _ _ _ => .lost hloose

theorem confronts_fail (expected : String) (other : Parse α) :
    Confronts γ bound (fail expected) other after := fun hloose _ _ _ => .lost hloose

theorem confronts_of_tight (htight : γ.loose = false) (step other : Parse α) :
    Confronts γ bound step other after := fun hloose => by simp [htight] at hloose

/-! ## Looking -/

namespace Agrees

theorem current {next : Token → Parse α}
    (h : ∀ token, AgreesAt γ bound before token (next token) after)
    (hfront : Confronts γ bound (next γ.glued) (next γ.dot) after) :
    Agrees γ bound before (Parse.current >>= next) after where
  lightens state := (h state.cursor.current).lightens state
  together state state' halong := by
    change Together γ bound after (next state.cursor.current state)
      (next state'.cursor.current state')
    rcases halong.current_cases with heq | ⟨hloose, hinFront⟩
    · rw [heq]
      exact (h _).together state state' halong rfl heq
    · have hsteps := hfront hloose state state' hinFront
      cases hinFront
      exact hsteps

theorem currentKind {next : TokenKind → Parse α}
    (h : ∀ token, AgreesAt γ bound before token (next token.kind) after)
    (hfront : Confronts γ bound (next .operatorSymbol) (next (.mark .dot)) after) :
    Agrees γ bound before (Parse.currentKind >>= next) after :=
  current h (by rwa [γ.kind, γ.dot_kind])

variable {kind : TokenKind} {first second : Parse α}

theorem kindIs (hsymbol : TokenKind.operatorSymbol ≠ kind) (hdot : .mark .dot ≠ kind)
    (h : ∀ token, token.kind = kind → AgreesAt γ bound before token first after)
    (h' : Agrees γ bound before second after) :
    Agrees γ bound before
      (Parse.currentKind >>= fun found => if found = kind then first else second) after := by
  refine currentKind (fun token => .ite (h token) fun _ => h'.at_token token) ?_
  rw [if_neg hsymbol, if_neg hdot]
  exact h'.confronts

theorem peekBehind (hsymbol : TokenKind.operatorSymbol ≠ kind) (hdot : .mark .dot ≠ kind)
    (hpasses : γ.Passes before kind middle) {next : Token → Parse α}
    (h : ∀ token follower, token.kind = kind → AgreesAt γ bound before token (next follower) after)
    (hsame : next γ.glued = next γ.dot) (h' : Agrees γ bound before second after) :
    Agrees γ bound before (Parse.currentKind >>= fun found =>
      if found = kind then Parse.peek 1 >>= next else second) after := by
  refine kindIs hsymbol hdot (fun token htoken => ⟨fun state => ?_, ?_⟩) h'
  · exact (h token _ htoken).lightens state
  intro state state' halong hfirst hsecond
  have hpeek : next (state'.cursor.peek 1) = next (state.cursor.peek 1) := by
    cases halong with
    | intro hbeside _ =>
      rcases hbeside.peek_cases (hsecond.trans hfirst.symm)
        (by rwa [hfirst, htoken]) with heq | ⟨-, hglued, hdot⟩
      · exact congrArg next heq
      · exact (congrArg next hdot).trans ((congrArg next hglued).trans hsame).symm
  change Together γ bound after (next (state.cursor.peek 1) state)
    (next (state'.cursor.peek 1) state')
  rw [hpeek]
  exact (h token _ htoken).together state state' halong hfirst hsecond

end Agrees

theorem agrees_position : Agrees γ bound depth position depth :=
  .current (fun token => (Agrees.pure _).at_token token) (confronts_pure _)

theorem agrees_spanFrom (start : Nat) : Agrees γ bound depth (spanFrom start) depth where
  lightens _ _ _ hstep := by
    cases hstep
    exact Nat.le_refl _
  together state state' halong := by
    have hstop : state'.cursor.previousEnd = state.cursor.previousEnd := by
      cases halong with
      | intro h _ => exact h.previousEnd_eq
    change Together γ bound depth (.ok (⟨start, state.cursor.previousEnd⟩ : Span) state)
      (.ok (⟨start, state'.cursor.previousEnd⟩ : Span) state')
    rw [hstop]
    exact .ok _ halong

/-! ## Moving -/

theorem Moving.lightens {noise : Noise} {step : Parse α} (h : Moving noise step) :
    Lightens step := by
  intro state value final hstep
  have hmoves := h state
  unfold finalState at hmoves
  rw [hstep] at hmoves
  exact hmoves.weight_le

theorem alongside_advance {token : Token} (hcrosses : Crosses before token.kind after)
    {state state' : ParseState} (h : γ.Alongside bound before state state')
    (hfirst : state.cursor.current = token) (hsecond : state'.cursor.current = token)
    (hlambda : γ.loose = true ∨
      state.cursor.ahead ≠ γ.backslash :: (γ.parameters ++ γ.glued :: γ.rest)) :
    γ.Alongside (bound - 1) after { state with cursor := state.cursor.advance }
      { state' with cursor := state'.cursor.advance } := by
  cases h with
  | intro h hlimit =>
    exact .intro { state with cursor := state.cursor.advance }
      (h.advance (hsecond.trans hfirst.symm) (by rwa [hfirst]) hlambda) hlimit

private theorem not_in_front_of_lambda {token : Token} (hpasses : γ.Passes before token.kind after)
    {cursor : Cursor} (hcurrent : cursor.current = token) :
    γ.loose = true ∨ cursor.ahead ≠ γ.backslash :: (γ.parameters ++ γ.glued :: γ.rest) := by
  by_cases hkind : token.kind = .mark .backslash
  · exact .inl (hpasses.not_lambda hkind)
  · refine .inr fun hahead => hkind ?_
    have hbackslash : cursor.current = γ.backslash := by
      obtain ⟨passed, ahead, errors⟩ := cursor
      cases hahead
      rfl
    rw [← hcurrent, hbackslash]
    exact γ.isLambda

namespace AgreesAt

variable {token : Token}

theorem passing (hpasses : γ.Passes before token.kind middle) {next : Token → Parse α}
    (h : ∀ other, Agrees γ (bound - 1) middle (next other) after) :
    AgreesAt γ bound before token (advance >>= next) after where
  lightens := (@moving_advance .silent).lightens.bind fun other => (h other).lightens
  together state state' halong hfirst hsecond := by
    have hadvanced := alongside_advance hpasses.crosses halong hfirst hsecond
      (not_in_front_of_lambda hpasses hfirst)
    change Together γ bound after (next state.cursor.current _) (next state'.cursor.current _)
    rw [hfirst, hsecond]
    exact ((h token).together _ _ hadvanced).mono (Nat.sub_le bound 1)

theorem advance (hpasses : γ.Passes before token.kind after) :
    AgreesAt γ bound before token advance after := by
  rw [← bind_pure Parse.advance]
  exact .passing hpasses fun _ => .pure _

theorem split (hdot : beginsWithDot token) : AgreesAt γ bound depth token (split 1) depth where
  lightens _ _ _ hstep := by
    cases hstep
    exact weight_split_le _ 1
  together state state' halong hfirst hsecond := by
    cases halong with
    | intro h hlimit =>
      exact .ok () (.intro { state with cursor := state.cursor.split 1 }
        (h.split (hsecond.trans hfirst.symm) (by rwa [hfirst])) hlimit)

end AgreesAt

theorem confronts_passing {next : Token → Parse α} (h : ∀ token, Lightens (next token))
    (other : Parse α) : Confronts γ bound (advance >>= next) other after := by
  intro hloose state state' hfront
  cases hfront with
  | intro base passed errors =>
    have hglued : γ.glued.kind ≠ .endOfInput := by
      rw [γ.kind]
      nofun
    change Together γ bound after (next γ.glued { base with cursor := Cursor.advance _ }) _
    rw [(Takes.intro passed γ.rest hglued).advance_eq]
    generalize hresult : next γ.glued _ = result
    cases result with
    | ok value final => exact .kept hloose (h _ _ _ _ hresult)
    | error diagnostic final => exact .lost hloose

/-- In front of the dot the symbol is split. -/
theorem confronts_split {next : Parse α} (h : Agrees γ bound depth next after) :
    Confronts γ bound (split 1 >>= fun _ => next) next after := by
  intro hloose state state' hfront
  cases hfront with
  | intro base passed errors hweight hlimit =>
    change Together γ bound after (next { base with cursor := Cursor.split _ 1 }) _
    rw [γ.split_glued]
    exact h.together _ _ (.intro { base with cursor := Cursor.mk _ _ _ } (.same _) hlimit)

theorem agrees_report (diagnostic : Diagnostic) :
    Agrees γ bound depth (report diagnostic) depth where
  lightens _ _ _ hstep := by
    cases hstep
    exact Nat.le_refl _
  together state _ halong := by
    cases halong with
    | intro h hlimit =>
      exact .ok () (.intro { state with reported := diagnostic :: state.reported } h hlimit)

theorem agrees_exhaust (value : α) : Agrees γ bound depth (exhaust value) depth where
  lightens _ _ _ hstep := by
    cases hstep
    exact Nat.le_refl _
  together state _ halong := by
    cases halong with
    | intro h hlimit => exact .ok value (.intro { state with exhausted := true } h hlimit)

theorem agrees_fail (expected : String) :
    Agrees γ bound before (fail expected : Parse α) after where
  lightens _ _ _ hstep := by cases hstep
  together state state' halong := by
    cases hloose : γ.loose with
    | true => exact .lost hloose
    | false =>
      cases halong with
      | @intro cursor h hlimit =>
        obtain ⟨hdiagnostic, hbeside⟩ := h.unexpected hloose expected
        change Together γ bound after (.error (state.cursor.unexpected expected).1 _)
          (.error (cursor.unexpected expected).1 _)
        rw [hdiagnostic]
        exact .error _ (.intro { state with cursor := (state.cursor.unexpected expected).2 }
          (hbeside.mono (Nat.le_refl _) (Nat.zero_le _)) hlimit)

/-! ## Looking ahead -/

theorem advance_looked {state : ParseState} (hend : state.cursor.current.kind ≠ .endOfInput)
    {condition : TokenKind → Prop} [DecidablePred condition]
    (hnext : condition (state.cursor.peek 1).kind) (step other : Parse α) :
    (Parse.advance >>= fun _ => step) state = (Parse.advance >>= fun _ =>
      Parse.currentKind >>= fun found => if condition found then step else other) state := by
  change step { state with cursor := state.cursor.advance } =
    (if condition state.cursor.advance.current.kind then step else other)
      { state with cursor := state.cursor.advance }
  rw [Cursor.current_advance hend, if_pos hnext]

/-! ## Tokens of a kind -/

theorem mark_dot_ne {mark : Punctuation} (h : .dot ≠ mark) : TokenKind.mark .dot ≠ .mark mark :=
  fun heq => h (TokenKind.mark.inj heq)

theorem passes_word (word : Keyword) : γ.Passes depth (.word word) depth := ⟨.plain rfl, nofun⟩

theorem passes_opening {kind : TokenKind}
    (h : kind = .mark .openParen ∨ kind = .mark .openBracket ∨ kind = .mark .openCurly) :
    γ.Passes depth kind (depth + 1) := by
  refine ⟨.opening h, ?_⟩
  rcases h with rfl | rfl | rfl <;> nofun

theorem passes_closingMark (bracket : Bracket) :
    γ.Passes (depth + 1) (.mark bracket.closing) depth :=
  ⟨.closing bracket, by cases bracket <;> nofun⟩

theorem passes_semicolon : γ.Passes depth (.mark .semicolon) depth := ⟨.semicolon, nofun⟩

theorem passes_mark {mark : Punctuation} (hplain : (TokenKind.mark mark).isPlain)
    (hlambda : mark ≠ .backslash) : γ.Passes depth (.mark mark) depth :=
  ⟨.plain hplain, fun heq => absurd (TokenKind.mark.inj heq) hlambda⟩

theorem passes_of_isIdentifier {kind : TokenKind} (h : kind.isIdentifier) :
    γ.Passes depth kind depth := by
  refine ⟨.plain (TokenKind.isPlain_of_isIdentifier h), ?_⟩
  rintro rfl
  cases h

theorem passes_of_isOperatorStart {kind : TokenKind} (h : kind.isOperatorStart) :
    γ.Passes depth kind depth := by
  refine ⟨.plain (TokenKind.isPlain_of_isOperatorStart h), ?_⟩
  rintro rfl
  cases h

theorem passes_of_separator {kind : TokenKind} {separator : Separator}
    (h : Separator.ofKind? kind = some separator) : γ.Passes depth kind depth := by
  unfold Separator.ofKind? at h
  split at h
  · exact passes_mark rfl nofun
  · exact passes_semicolon
  · cases h

namespace AgreesAt

variable {token : Token}

theorem advance_word {word : Keyword} (htoken : token.kind = .word word) :
    AgreesAt γ bound depth token Parse.advance depth := .advance (htoken ▸ passes_word word)

theorem advance_mark {mark : Punctuation} (htoken : token.kind = .mark mark)
    (hplain : (TokenKind.mark mark).isPlain) (hlambda : mark ≠ .backslash) :
    AgreesAt γ bound depth token Parse.advance depth :=
  .advance (htoken ▸ passes_mark hplain hlambda)

end AgreesAt

theorem AgreesAt.accepting {token : Token} {kind : TokenKind} {next : Bool → Parse α}
    (hlightens : Lightens (accept kind >>= next))
    (h : token.kind = kind →
      AgreesAt γ bound before token (Parse.advance >>= fun _ => next true) after)
    (h' : token.kind ≠ kind → AgreesAt γ bound before token (next false) after) :
    AgreesAt γ bound before token (accept kind >>= next) after := by
  refine ⟨hlightens, fun state state' halong hfirst hsecond => ?_⟩
  rw [Follows.accept_bind]
  change Together γ bound after
    ((if state.cursor.current.kind = kind then _ else _ : Parse α) state)
    ((if state'.cursor.current.kind = kind then _ else _ : Parse α) state')
  rw [hfirst, hsecond]
  split
  · exact (h ‹_›).together state state' halong hfirst hsecond
  · exact (h' ‹_›).together state state' halong hfirst hsecond

section Kinds

variable {kind : TokenKind} (hsymbol : TokenKind.operatorSymbol ≠ kind)

include hsymbol

theorem agrees_expect (hpasses : γ.Passes before kind after) :
    Agrees γ bound before (expect kind) after := by
  refine .currentKind (fun token => .ite (fun htoken => .advance (htoken ▸ hpasses)) fun _ =>
    (agrees_fail _).at_token token) ?_
  rw [if_neg hsymbol]
  exact confronts_fail _ _

variable (hdot : .mark .dot ≠ kind)

include hdot

theorem Agrees.accepting (hpasses : γ.Passes before kind middle) {next : Bool → Parse α}
    (h : Agrees γ bound middle (next true) after) (h' : Agrees γ bound before (next false) after) :
    Agrees γ bound before (accept kind >>= next) after := by
  rw [Follows.accept_bind]
  refine .kindIs hsymbol hdot (fun token htoken => ?_) h'
  exact (AgreesAt.advance (htoken ▸ hpasses)).bind fun _ => h

theorem agrees_accept (hpasses : γ.Passes depth kind depth) :
    Agrees γ bound depth (accept kind) depth := by
  rw [← bind_pure (accept kind)]
  exact .accepting hsymbol hdot hpasses (.pure true) (.pure false)

end Kinds

theorem Agrees.acceptingMark {mark : Punctuation} (hdot : .dot ≠ mark)
    (hpasses : γ.Passes before (.mark mark) middle) {next : Bool → Parse α}
    (h : Agrees γ bound middle (next true) after) (h' : Agrees γ bound before (next false) after) :
    Agrees γ bound before (acceptMark mark >>= next) after := by
  refine .accepting ?_ (mark_dot_ne hdot) hpasses h h'
  nofun

theorem agrees_acceptWord (word : Keyword) :
    Agrees γ bound depth (accept (.word word)) depth :=
  agrees_accept nofun nofun (passes_word word)

theorem agrees_expectWord (word : Keyword) :
    Agrees γ bound depth (expect (.word word)) depth :=
  agrees_expect nofun (passes_word word)

theorem agrees_acceptMark (mark : Punctuation) (hdot : .dot ≠ mark)
    (hpasses : γ.Passes depth (.mark mark) depth) :
    Agrees γ bound depth (acceptMark mark) depth :=
  agrees_accept nofun (mark_dot_ne hdot) hpasses

theorem agrees_expectMark (mark : Punctuation) (hpasses : γ.Passes before (.mark mark) after) :
    Agrees γ bound before (expectMark mark) after :=
  agrees_expect nofun hpasses

/-! ## Loops -/

theorem agrees_many {item? : Parse (Option α)} (h : Agrees γ bound depth item? depth)
    (rounds : Nat) (found : List α) : Agrees γ bound depth (many item? rounds found) depth := by
  induction rounds generalizing found with
  | zero => exact agrees_exhaust _
  | succ rounds ih =>
    refine h.bind fun answer => ?_
    cases answer with
    | some item => exact ih (item :: found)
    | none => exact .pure _

theorem agrees_separated (separator : Punctuation) (hdot : .dot ≠ separator)
    (hpasses : γ.Passes depth (.mark separator) depth) {item : Parse α}
    (h : Agrees γ bound depth item depth) :
    Agrees γ bound depth (separated separator item) depth := by
  have hnext : Agrees γ bound depth (another separator item) depth :=
    (agrees_acceptMark separator hdot hpasses).bind fun _ =>
      .ite (h.bind fun _ => .pure _) (.pure none)
  exact h.bind fun first => .get (fun state => agrees_many hnext state.limit [first]) fun _ _ => rfl

/-! ## Names -/

theorem agrees_identifier (expected : String) :
    Agrees γ bound depth (identifier expected) depth := by
  refine .currentKind (fun token => .ite (fun htoken => ?_) fun _ =>
    (agrees_fail expected).at_token token) (confronts_fail expected _)
  exact (AgreesAt.advance (passes_of_isIdentifier htoken)).bind fun _ => .pure _

theorem isIdentifier_of_isPlainIdentifier {token : Token} (h : token.isPlainIdentifier) :
    token.kind.isIdentifier := by
  rw [Token.isPlainIdentifier, Bool.and_eq_true] at h
  exact h.1

private theorem isPlainIdentifier_glued : γ.glued.isPlainIdentifier = false := by
  rw [Token.isPlainIdentifier, γ.kind]
  rfl

theorem agrees_plainName (expected : String) :
    Agrees γ bound depth (plainName expected) depth := by
  refine .current (fun token => .ite (fun htoken => ?_) fun _ =>
    (agrees_fail expected).at_token token) ?_
  · have hkind := isIdentifier_of_isPlainIdentifier htoken
    exact (AgreesAt.advance (passes_of_isIdentifier hkind)).bind fun _ => .pure _
  · rw [isPlainIdentifier_glued]
    exact confronts_fail expected _

end Parse

end Equational

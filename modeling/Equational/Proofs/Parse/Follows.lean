import Equational.Proofs.Parse.Splitting
import Equational.Run.Collect

/-!
# Parsing steps as relations between cursors

A step that succeeds without declaring or reporting anything does no more than move the cursor.
What it gives, and where it leaves the cursor, is described by a relation; descriptions of steps are
put together as the steps are.  Each step passes some tokens, and may split an operator that begins
with the dot of a lambda.
-/

namespace Equational

namespace Cursor

/-! ## Cursors in front of an end -/

/-- What is ahead ends with the end of the input. -/
def IsEnded (cursor : Cursor) : Prop :=
  ∃ front last, cursor.ahead = front ++ [last] ∧ last.kind = .endOfInput

theorem IsEnded.exists_cons {cursor : Cursor} (h : cursor.IsEnded) :
    ∃ passed token rest errors, cursor = ⟨passed, token :: rest, errors⟩ := by
  obtain ⟨front, last, hahead, -⟩ := h
  obtain ⟨passed, ahead, errors⟩ := cursor
  cases front with
  | nil => exact ⟨passed, last, [], errors, congrArg (Cursor.mk passed · errors) hahead⟩
  | cons token front =>
    exact ⟨passed, token, front ++ [last], errors, congrArg (Cursor.mk passed · errors) hahead⟩

theorem IsEnded.weight_pos {cursor : Cursor} (h : cursor.IsEnded) : 0 < cursor.weight := by
  obtain ⟨passed, token, rest, errors, rfl⟩ := h.exists_cons
  simp only [weight, totalWeight, tokenWeight]
  omega

/-- The token of a cursor and the cursor behind it. -/
inductive Takes : Cursor → Token → Cursor → Prop where
  | intro (passed : List Token) {token : Token} (rest : List Token) {errors : DiagnosticMap}
    (h : token.kind ≠ .endOfInput) :
    Takes ⟨passed, token :: rest, errors⟩ token ⟨token :: passed, rest, errors⟩

theorem IsEnded.takes {cursor : Cursor} (h : cursor.IsEnded)
    (hkind : cursor.current.kind ≠ .endOfInput) :
    cursor.Takes cursor.current cursor.advance := by
  obtain ⟨passed, token, rest, errors, rfl⟩ := h.exists_cons
  change token.kind ≠ .endOfInput at hkind
  simp only [advance, if_neg hkind]
  exact .intro passed rest hkind

namespace Takes

variable {cursor after : Cursor} {token : Token}

theorem current_eq (h : cursor.Takes token after) : cursor.current = token := by
  cases h
  rfl

theorem advance_eq (h : cursor.Takes token after) : cursor.advance = after := by
  cases h with
  | intro passed rest hkind => exact if_neg hkind

theorem unique {other : Token} {middle : Cursor} (h : cursor.Takes token after)
    (h' : cursor.Takes other middle) : other = token ∧ middle = after :=
  ⟨h'.current_eq.symm.trans h.current_eq, h'.advance_eq.symm.trans h.advance_eq⟩

theorem previousEnd_eq (h : cursor.Takes token after) : after.previousEnd = token.span.stop := by
  cases h
  rfl

theorem isEnded (h : cursor.Takes token after) (hended : cursor.IsEnded) : after.IsEnded := by
  obtain ⟨front, last, hahead, hlast⟩ := hended
  cases h with
  | intro passed rest hkind =>
    cases front with
    | nil =>
      obtain ⟨rfl, -⟩ := List.cons.inj hahead
      exact absurd hlast hkind
    | cons first front => exact ⟨front, last, (List.cons.inj hahead).2, hlast⟩

theorem weight_lt (h : cursor.Takes token after) : after.weight < cursor.weight := by
  cases h
  simp only [weight, totalWeight, tokenWeight]
  omega

theorem peek_eq (h : cursor.Takes token after) (hended : cursor.IsEnded) :
    cursor.peek 1 = after.current := by
  have hafter := h.isEnded hended
  cases h with
  | intro passed rest _ =>
    obtain ⟨_, next, others, _, hrest⟩ := hafter.exists_cons
    obtain ⟨-, rfl, -⟩ := Cursor.mk.inj hrest
    rfl

end Takes

/-! ## Skipping -/

theorem skipStatement_induction {motive : Cursor → Prop} {cursor : Cursor}
    (htakes : ∀ {cursor after : Cursor} {token : Token}, cursor.Takes token after →
      motive cursor → motive after) (h : motive cursor) : motive cursor.skipStatement := by
  have hgo (passed ahead : List Token) (h : motive ⟨passed, ahead, cursor.errors⟩) :
      motive (skipStatement.go cursor.errors passed ahead) := by
    induction ahead generalizing passed with
    | nil => exact h
    | cons token rest ih =>
      unfold skipStatement.go
      split
      · exact h
      · rename_i hend
        have hafter := htakes (.intro passed rest hend) h
        split
        · exact hafter
        · exact ih _ hafter
  exact hgo cursor.passed cursor.ahead h

theorem Takes.skipStatement_eq {cursor after : Cursor} {token : Token}
    (h : cursor.Takes token after) :
    cursor.skipStatement = after ∨ cursor.skipStatement = after.skipStatement := by
  cases h with
  | @intro passed token rest errors hend =>
    change skipStatement.go errors passed (token :: rest) = _ ∨
      skipStatement.go errors passed (token :: rest) = _
    unfold skipStatement.go
    rw [if_neg hend]
    split
    · exact .inl rfl
    · exact .inr rfl

/-! ## Splitting the current token -/

theorem split_cases (cursor : Cursor) (bytes : Nat) :
    cursor.split bytes = cursor ∨
      ∃ passed token rest errors head tail, cursor = ⟨passed, token :: rest, errors⟩ ∧
        cutText? bytes token.value.toList = some (head, tail) ∧
        cursor.split bytes =
          ⟨passed, frontToken token bytes head :: backToken token bytes tail :: rest,
            errors.openGap passed.length⟩ := by
  obtain ⟨passed, ahead, errors⟩ := cursor
  cases ahead with
  | nil => exact .inl rfl
  | cons token rest =>
    cases hcut : cutText? bytes token.value.toList with
    | none => exact .inl (split_of_not_cut hcut)
    | some parts =>
      obtain ⟨head, tail⟩ := parts
      exact .inr ⟨passed, token, rest, errors, head, tail, rfl, hcut, split_of_cut hcut⟩

theorem weight_split_le (cursor : Cursor) (bytes : Nat) :
    (cursor.split bytes).weight ≤ cursor.weight := by
  rcases cursor.split_cases bytes with h | ⟨passed, token, rest, errors, head, tail, rfl, hcut, h⟩
  · exact Nat.le_of_eq (congrArg weight h)
  · rw [h]
    have hparts := tokenWeight_parts hcut
    simp only [weight, totalWeight]
    omega

theorem IsEnded.split {cursor : Cursor} (h : cursor.IsEnded)
    (hkind : cursor.current.kind ≠ .endOfInput) (bytes : Nat) : (cursor.split bytes).IsEnded := by
  rcases cursor.split_cases bytes with
    hsplit | ⟨passed, token, rest, errors, head, tail, rfl, hcut, hsplit⟩ <;> rw [hsplit]
  · exact h
  · obtain ⟨front, last, hrest, hlast⟩ := (Takes.intro passed rest hkind).isEnded h
    refine ⟨frontToken token bytes head :: backToken token bytes tail :: front, last, ?_, hlast⟩
    rw [show rest = front ++ [last] from hrest]
    rfl

/-! ## Passages -/

/-- A cursor passes some tokens, up to where another one stands. -/
inductive Passage : Cursor → List Token → Cursor → Prop where
  | refl (cursor : Cursor) : Passage cursor [] cursor
  | take {cursor middle after : Cursor} {token : Token} {taken : List Token}
    (htakes : cursor.Takes token middle) (hrest : Passage middle taken after) :
    Passage cursor (token :: taken) after
  | split {cursor after : Cursor} {taken : List Token} (hdot : beginsWithDot cursor.current)
    (hrest : Passage (cursor.split 1) taken after) : Passage cursor taken after

theorem kind_of_beginsWithDot {token : Token} (h : beginsWithDot token) :
    token.kind = .operatorSymbol ∧ token.moduleName = none ∧
      token.value.toList.head? = some '.' := by
  simp only [beginsWithDot, Token.isQualified, Bool.and_eq_true, decide_eq_true_eq,
    Bool.not_eq_true', Option.isSome_eq_false_iff, Option.isNone_iff_eq_none] at h
  exact ⟨h.1.1, h.1.2, h.2⟩

namespace Passage

variable {cursor middle after : Cursor} {token : Token} {taken more : List Token}

theorem single (h : cursor.Takes token after) : Passage cursor [token] after := .take h (.refl _)

theorem trans (h : Passage cursor taken middle) (h' : Passage middle more after) :
    Passage cursor (taken ++ more) after := by
  induction h with
  | refl => exact h'
  | take htakes _ ih => exact .take htakes (ih h')
  | split hdot _ ih => exact .split hdot (ih h')

theorem isEnded (h : Passage cursor taken after) (hended : cursor.IsEnded) : after.IsEnded := by
  induction h with
  | refl => exact hended
  | take htakes _ ih => exact ih (htakes.isEnded hended)
  | split hdot _ ih => exact ih (hended.split (by simp [(kind_of_beginsWithDot hdot).1]) 1)

theorem weight_le (h : Passage cursor taken after) :
    after.weight + taken.length ≤ cursor.weight := by
  induction h with
  | refl => exact Nat.le_refl _
  | take htakes _ ih =>
    have hlt := htakes.weight_lt
    rw [List.length_cons]
    omega
  | split _ _ ih => exact Nat.le_trans ih (weight_split_le _ 1)

theorem passed_eq (h : Passage cursor taken after) :
    after.passed = taken.reverse ++ cursor.passed := by
  induction h with
  | refl => rfl
  | take htakes _ ih =>
    rw [ih]
    cases htakes
    simp
  | @split cursor after taken _ _ ih =>
    have hsplit : (cursor.split 1).passed = cursor.passed := by
      rcases cursor.split_cases 1 with h | ⟨_, _, _, _, _, _, rfl, _, h⟩ <;> rw [h]
    rw [ih, hsplit]

end Passage

end Cursor

/-! ## Descriptions of steps -/

namespace Parse

variable {α β : Type}

/-- From this cursor on, the step succeeds just as the relation says. -/
structure Follows (cursor : Cursor) (step : Parse α) (G : α → Cursor → Prop) : Prop where
  ok_iff : ∀ state : ParseState, state.cursor = cursor → cursor.weight ≤ state.limit →
    ∀ value final, step state = .ok value final ↔
      ∃ after, G value after ∧ final = { state with cursor := after }
  passes : ∀ value after, G value after → ∃ taken, cursor.Passage taken after

namespace Follows

variable {cursor : Cursor} {step : Parse α} {G G' : α → Cursor → Prop}

theorem congr (h : Follows cursor step G) (hG : ∀ value after, G value after ↔ G' value after) :
    Follows cursor step G' := by
  obtain rfl : G = G' := funext fun value => funext fun after => propext (hG value after)
  exact h

theorem pure (value : α) :
    Follows cursor (pure value) fun other after => other = value ∧ after = cursor where
  ok_iff state hstate _ other final := by
    subst hstate
    constructor
    · rintro ⟨⟩
      exact ⟨state.cursor, ⟨rfl, rfl⟩, rfl⟩
    · rintro ⟨_, ⟨rfl, rfl⟩, rfl⟩
      rfl
  passes _ _ h := by
    obtain ⟨-, rfl⟩ := h
    exact ⟨[], .refl _⟩

theorem of_error (h : ∀ state, ∃ diagnostic final, step state = .error diagnostic final) :
    Follows cursor step fun _ _ => False where
  ok_iff state _ _ value final := by
    obtain ⟨diagnostic, last, hstep⟩ := h state
    simp [hstep]
  passes _ _ h := h.elim

theorem fail (expected : String) : Follows cursor
    (Parse.fail expected : Parse α) fun _ _ => False :=
  of_error fun state => ⟨_, { state with cursor := (state.cursor.unexpected expected).2 }, rfl⟩

theorem bind {next : α → Parse β} {N : α → Cursor → β → Cursor → Prop} (h : Follows cursor step G)
    (hnext : ∀ value middle taken, G value middle → cursor.Passage taken middle →
      Follows middle (next value) (N value middle)) :
    Follows cursor (step >>= next) fun result after =>
      ∃ value middle, G value middle ∧ N value middle result after where
  ok_iff state hstate hlimit result final := by
    rw [bind_eq_ok_iff]
    constructor
    · rintro ⟨value, _, hstep, hresult⟩
      obtain ⟨middle, hvalue, rfl⟩ := (h.ok_iff state hstate hlimit _ _).mp hstep
      obtain ⟨taken, hpassage⟩ := h.passes _ _ hvalue
      have hweight := hpassage.weight_le
      obtain ⟨after, hafter, rfl⟩ := ((hnext _ _ _ hvalue hpassage).ok_iff _ rfl
        (by dsimp only; omega) _ _).mp hresult
      exact ⟨after, ⟨value, middle, hvalue, hafter⟩, rfl⟩
    · rintro ⟨after, ⟨value, middle, hvalue, hafter⟩, rfl⟩
      obtain ⟨taken, hpassage⟩ := h.passes _ _ hvalue
      have hweight := hpassage.weight_le
      refine ⟨value, _, (h.ok_iff state hstate hlimit _ _).mpr ⟨middle, hvalue, rfl⟩, ?_⟩
      exact ((hnext _ _ _ hvalue hpassage).ok_iff _ rfl (by dsimp only; omega) _ _).mpr
        ⟨after, hafter, rfl⟩
  passes result after := by
    rintro ⟨value, middle, hvalue, hresult⟩
    obtain ⟨taken, hpassage⟩ := h.passes _ _ hvalue
    obtain ⟨more, hmore⟩ := (hnext _ _ _ hvalue hpassage).passes _ _ hresult
    exact ⟨taken ++ more, hpassage.trans hmore⟩

theorem look {look : Parse β} (f : Cursor → β) {next : β → Parse α}
    (hlook : ∀ state, look state = .ok (f state.cursor) state)
    (hnext : Follows cursor (next (f cursor)) G) : Follows cursor (look >>= next) G where
  ok_iff state hstate hlimit value final := by
    rw [← hnext.ok_iff state hstate hlimit, bind_eq_ok_iff]
    subst hstate
    constructor
    · rintro ⟨first, middle, hfirst, hvalue⟩
      rw [hlook] at hfirst
      cases hfirst
      exact hvalue
    · exact fun hvalue => ⟨_, _, hlook state, hvalue⟩
  passes := hnext.passes

theorem current {next : Token → Parse α} (hnext : Follows cursor (next cursor.current) G) :
    Follows cursor (Parse.current >>= next) G := look Cursor.current (fun _ => rfl) hnext

theorem currentKind {next : TokenKind → Parse α}
    (hnext : Follows cursor (next cursor.current.kind) G) :
    Follows cursor (Parse.currentKind >>= next) G :=
  look (fun cursor => cursor.current.kind) (fun _ => rfl) hnext

theorem position {next : Nat → Parse α}
    (hnext : Follows cursor (next cursor.current.span.start) G) :
    Follows cursor (Parse.position >>= next) G :=
  look (fun cursor => cursor.current.span.start) (fun _ => rfl) hnext

theorem spanFrom {start : Nat} {next : Span → Parse α}
    (hnext : Follows cursor (next ⟨start, cursor.previousEnd⟩) G) :
    Follows cursor (Parse.spanFrom start >>= next) G :=
  look (fun cursor => ⟨start, cursor.previousEnd⟩) (fun _ => rfl) hnext

theorem get {next : ParseState → Parse α}
    (hnext : ∀ state : ParseState, cursor.weight ≤ state.limit → Follows cursor (next state) G) :
    Follows cursor (MonadState.get >>= next) G where
  ok_iff state hstate hlimit value final :=
    (hnext state hlimit).ok_iff state hstate hlimit value final
  passes := (hnext ⟨cursor, .initial, [], false, cursor.weight, false⟩ (Nat.le_refl _)).passes

theorem ofExcept {outcome : Except Diagnostic α} {next : α → Parse β} {N : α → β → Cursor → Prop}
    (hnext : ∀ value, Follows cursor (next value) (N value)) :
    Follows cursor (MonadExcept.ofExcept outcome >>= next) fun result after =>
      ∃ value, outcome = .ok value ∧ N value result after := by
  cases outcome with
  | ok value =>
    refine (hnext value).congr fun result after => ?_
    constructor
    · exact fun hresult => ⟨value, rfl, hresult⟩
    · rintro ⟨_, ⟨⟩, hresult⟩
      exact hresult
  | error diagnostic =>
    refine (of_error fun state => ⟨diagnostic, state, rfl⟩).congr fun result after => ?_
    simp

/-! ## Passing tokens -/

theorem accept_bind (kind : TokenKind) (next : Bool → Parse α) :
    Parse.accept kind >>= next = Parse.currentKind >>= fun found =>
      if found = kind then Parse.advance >>= fun _ => next true else next false := by
  simp only [Parse.accept, bind_assoc]
  congr 1
  funext found
  split <;> simp only [bind_assoc, pure_bind]

section Tokens

variable {token : Token} {middle : Cursor} (htakes : cursor.Takes token middle)

include htakes

theorem advance {next : Token → Parse α} (hnext : Follows middle (next token) G) :
    Follows cursor (Parse.advance >>= next) G where
  ok_iff state hstate hlimit value final := by
    have hlimit := Nat.le_trans (Nat.le_of_lt htakes.weight_lt) hlimit
    have hstep : Parse.advance state = .ok token { state with cursor := middle } := by
      rw [← htakes.current_eq, ← htakes.advance_eq, ← hstate]
      rfl
    rw [bind_eq_ok_iff, hstep]
    constructor
    · rintro ⟨_, _, ⟨⟩, hvalue⟩
      exact (hnext.ok_iff { state with cursor := middle } rfl hlimit _ _).mp hvalue
    · intro hvalue
      exact ⟨_, _, rfl, (hnext.ok_iff { state with cursor := middle } rfl hlimit _ _).mpr hvalue⟩
  passes value after hvalue := by
    obtain ⟨taken, hpassage⟩ := hnext.passes value after hvalue
    exact ⟨token :: taken, .take htakes hpassage⟩

theorem accept {kind : TokenKind} (hkind : token.kind = kind) {next : Bool → Parse α}
    (hnext : Follows middle (next true) G) : Follows cursor (Parse.accept kind >>= next) G := by
  rw [accept_bind]
  refine currentKind ?_
  rw [if_pos (by rw [htakes.current_eq, hkind])]
  exact advance htakes hnext

end Tokens

theorem reject {kind : TokenKind} (hkind : cursor.current.kind ≠ kind) {next : Bool → Parse α}
    (hnext : Follows cursor (next false) G) : Follows cursor (Parse.accept kind >>= next) G := by
  rw [accept_bind]
  refine currentKind ?_
  rw [if_neg hkind]
  exact hnext

theorem expect (hended : cursor.IsEnded) {kind : TokenKind} (hend : kind ≠ .endOfInput)
    {next : Token → Parse α} {N : Token → Cursor → α → Cursor → Prop}
    (hnext : ∀ token middle, cursor.Takes token middle →
      Follows middle (next token) (N token middle)) :
    Follows cursor (Parse.expect kind >>= next) fun value after =>
      ∃ token middle, cursor.Takes token middle ∧ token.kind = kind ∧
        N token middle value after := by
  have hstep : Parse.expect kind >>= next = Parse.currentKind >>= fun found =>
      if found = kind then Parse.advance >>= next else Parse.fail kind.label >>= next := by
    simp only [Parse.expect, expectOr, bind_assoc]
    congr 1
    funext found
    split <;> rfl
  rw [hstep]
  refine currentKind ?_
  by_cases hkind : cursor.current.kind = kind
  · rw [if_pos hkind]
    have htakes := hended.takes (hkind ▸ hend)
    refine (advance htakes (hnext _ _ htakes)).congr fun value after => ?_
    constructor
    · exact fun hvalue => ⟨_, _, htakes, hkind, hvalue⟩
    · rintro ⟨token, middle, hother, -, hvalue⟩
      rwa [hother.current_eq, hother.advance_eq]
  · rw [if_neg hkind]
    refine ((fail _).bind (N := fun _ _ _ _ => False) fun _ _ _ h => h.elim).congr
      fun value after => ⟨by simp, ?_⟩
    rintro ⟨token, middle, htakes, htoken, -⟩
    exact absurd (htakes.current_eq ▸ htoken) hkind

theorem expectMark (hended : cursor.IsEnded) {mark : Punctuation} {next : Token → Parse α}
    {N : Token → Cursor → α → Cursor → Prop}
    (hnext : ∀ token middle, cursor.Takes token middle →
      Follows middle (next token) (N token middle)) :
    Follows cursor (Parse.expectMark mark >>= next) fun value after =>
      ∃ token middle, cursor.Takes token middle ∧ token.kind = .mark mark ∧
        N token middle value after :=
  have hend : TokenKind.mark mark ≠ .endOfInput := nofun
  expect hended hend hnext

theorem expectWord (hended : cursor.IsEnded) {word : Keyword} {next : Token → Parse α}
    {N : Token → Cursor → α → Cursor → Prop}
    (hnext : ∀ token middle, cursor.Takes token middle →
      Follows middle (next token) (N token middle)) :
    Follows cursor (Parse.expect (.word word) >>= next) fun value after =>
      ∃ token middle, cursor.Takes token middle ∧ token.kind = .word word ∧
        N token middle value after :=
  have hend : TokenKind.word word ≠ .endOfInput := nofun
  expect hended hend hnext

theorem split (hdot : beginsWithDot cursor.current) :
    Follows cursor (Parse.split 1) fun _ after => after = cursor.split 1 where
  ok_iff state hstate _ value final := by
    subst hstate
    constructor
    · rintro ⟨⟩
      exact ⟨_, rfl, rfl⟩
    · rintro ⟨_, rfl, rfl⟩
      rfl
  passes value after h := by
    subst h
    exact ⟨[], .split hdot (.refl _)⟩

end Follows

/-- A step that follows a relation and passes at least one token. -/
structure Advances (cursor : Cursor) (step : Parse α) (G : α → Cursor → Prop) : Prop extends
    Follows cursor step G where
  weight_lt : ∀ value after, G value after → after.weight < cursor.weight

theorem Advances.intro {cursor middle : Cursor} {token : Token} {next : Token → Parse α}
    {G : α → Cursor → Prop} (htakes : cursor.Takes token middle)
    (hnext : Follows middle (next token) G) : Advances cursor (Parse.advance >>= next) G where
  toFollows := .advance htakes hnext
  weight_lt value after hvalue := by
    obtain ⟨taken, hpassage⟩ := hnext.passes value after hvalue
    have hle := hpassage.weight_le
    have hlt := htakes.weight_lt
    omega

end Parse

end Equational

import Equational.Proofs.Run.Grammar

/-!
# Collecting follows the grammar

The steps that collect the parts of a run succeed just as the grammar says, as long as the step for
inner runs does so behind the first token of a part.  That step in turn does so wherever the nesting
it allows is as deep as what is ahead can be.
-/

namespace Equational

open Parse Grammar

variable {cursor : Cursor}

/-! ## Operators and identifiers -/

def joinOperator (token : Token) : Parse OperatorUse :=
  let plain : OperatorUse := ⟨⟨token.value, token.moduleName⟩, token.span⟩
  match joined? token.kind with
  | some (follower, symbol) => do
    if (← currentKind) = .word follower then
      let second ← advance
      return ⟨⟨symbol, none⟩, token.span.through second.span⟩
    else return plain
  | none => return plain

theorem operator_eq : Parse.operator = Parse.advance >>= joinOperator := rfl

theorem follows_joinOperator {token : Token} {middle : Cursor} (htoken : cursor.Takes token middle)
    (hended : middle.IsEnded) :
    Follows middle (joinOperator token) (Grammar.Operator cursor) := by
  have hpure (hplain : ∀ follower symbol, joined? token.kind = some (follower, symbol) →
      middle.current.kind ≠ .word follower) :
      Follows middle (pure ⟨⟨token.value, token.moduleName⟩, token.span⟩)
        (Grammar.Operator cursor) := by
    refine (Follows.pure _).congr fun op after => ?_
    constructor
    · rintro ⟨rfl, rfl⟩
      exact .plain htoken hplain
    · rintro (⟨hfirst, hjoined, hsecond, hkind⟩ | ⟨hfirst, -⟩)
      · obtain ⟨rfl, rfl⟩ := hfirst.unique htoken
        exact absurd (hsecond.current_eq ▸ hkind) (hplain _ _ hjoined)
      · obtain ⟨rfl, rfl⟩ := hfirst.unique htoken
        exact ⟨rfl, rfl⟩
  unfold joinOperator
  cases hjoined : joined? token.kind with
  | none => exact hpure fun _ _ h => by simp [hjoined] at h
  | some pair =>
    obtain ⟨follower, symbol⟩ := pair
    dsimp only
    refine .currentKind ?_
    by_cases hkind : middle.current.kind = .word follower
    · rw [if_pos hkind]
      have hsecond := hended.takes (by simp [hkind])
      refine .advance hsecond ((Follows.pure _).congr fun op after => ?_)
      constructor
      · rintro ⟨rfl, rfl⟩
        exact .joined htoken hjoined hsecond hkind
      · rintro (⟨hfirst, hother, hfollower, -⟩ | ⟨hfirst, hplain⟩)
        · obtain ⟨rfl, rfl⟩ := hfirst.unique htoken
          obtain ⟨rfl, rfl⟩ := hfollower.unique hsecond
          obtain ⟨rfl, rfl⟩ := Prod.mk.inj (Option.some.inj (hjoined.symm.trans hother))
          exact ⟨rfl, rfl⟩
        · obtain ⟨rfl, rfl⟩ := hfirst.unique htoken
          exact absurd hkind (hplain _ _ hjoined)
    · rw [if_neg hkind]
      refine hpure fun other symbol h => ?_
      obtain ⟨rfl, rfl⟩ := Prod.mk.inj (Option.some.inj (hjoined.symm.trans h))
      exact hkind

theorem advances_operator (hended : cursor.IsEnded) (hnext : cursor.current.kind ≠ .endOfInput) :
    Advances cursor Parse.operator (Grammar.Operator cursor) := by
  have htoken := hended.takes hnext
  rw [operator_eq]
  exact .intro htoken (follows_joinOperator htoken (htoken.isEnded hended))

theorem advances_collectIdentifier (hended : cursor.IsEnded)
    (hnext : cursor.current.kind ≠ .endOfInput) (context : RunContext) :
    Advances cursor (collectIdentifier context) (Named context cursor) := by
  have htoken := hended.takes hnext
  generalize cursor.current = token, cursor.advance = first at htoken
  have hfirst := htoken.isEnded hended
  refine .intro htoken (.currentKind (.look (fun cursor => cursor.peek 1) (fun _ => rfl) ?_))
  have hcondition : (typable context token && decide (first.current.kind = .mark .colon) &&
      (first.peek 1).kind.isIdentifier) = true ↔ typable context token ∧
        first.current.kind = .mark .colon ∧ (first.peek 1).kind.isIdentifier := by
    simp [and_assoc]
  change Follows first (if (typable context token && decide (first.current.kind = .mark .colon) &&
    (first.peek 1).kind.isIdentifier) = true then _ else _) _
  by_cases htyped : typable context token ∧ first.current.kind = .mark .colon ∧
      (first.peek 1).kind.isIdentifier
  · rw [if_pos (hcondition.mpr htyped)]
    obtain ⟨htypable, hkind, hidentifier⟩ := htyped
    have hcolon := hfirst.takes (by simp [hkind])
    rw [hcolon.peek_eq hfirst] at hidentifier
    have htype := (hcolon.isEnded hfirst).takes
      (fun hend => by rw [hend] at hidentifier; cases hidentifier)
    refine .advance hcolon (.advance htype ((Follows.pure _).congr fun atom after => ?_))
    constructor
    · rintro ⟨rfl, rfl⟩
      exact .typed htoken htypable hcolon hkind htype hidentifier
    · rintro (⟨htoken', -, hcolon', -, htype', -⟩ | ⟨htoken', hplain⟩)
      · obtain ⟨rfl, rfl⟩ := htoken'.unique htoken
        obtain ⟨rfl, rfl⟩ := hcolon'.unique hcolon
        obtain ⟨rfl, rfl⟩ := htype'.unique htype
        exact ⟨rfl, rfl⟩
      · obtain ⟨rfl, rfl⟩ := htoken'.unique htoken
        rw [hcolon.peek_eq hfirst] at hplain
        exact absurd ⟨htypable, hkind, hidentifier⟩ hplain
  · rw [if_neg (mt hcondition.mp htyped)]
    refine (Follows.pure _).congr fun atom after => ?_
    constructor
    · rintro ⟨rfl, rfl⟩
      exact .plain htoken htyped
    · rintro (⟨htoken', htypable, hcolon', hkind, htype', hidentifier⟩ | ⟨htoken', -⟩)
      · obtain ⟨rfl, rfl⟩ := htoken'.unique htoken
        refine absurd ⟨htypable, ?_, ?_⟩ htyped
        · rwa [hcolon'.current_eq]
        · rwa [hcolon'.peek_eq hfirst, htype'.current_eq]
      · obtain ⟨rfl, rfl⟩ := htoken'.unique htoken
        exact ⟨rfl, rfl⟩

theorem follows_identifier (hended : cursor.IsEnded) (expected : String) :
    Follows cursor (Parse.identifier expected) fun name after =>
      ∃ token, cursor.Takes token after ∧ token.kind.isIdentifier ∧ name = .ofToken token := by
  refine .currentKind ?_
  by_cases hkind : cursor.current.kind.isIdentifier
  · rw [if_pos hkind]
    have htoken := hended.takes (fun hend => by rw [hend] at hkind; cases hkind)
    refine .advance htoken ((Follows.pure _).congr fun name after => ?_)
    constructor
    · rintro ⟨rfl, rfl⟩
      exact ⟨_, htoken, hkind, rfl⟩
    · rintro ⟨token, htoken', -, rfl⟩
      obtain ⟨rfl, rfl⟩ := htoken'.unique htoken
      exact ⟨rfl, rfl⟩
  · rw [if_neg hkind]
    refine (Follows.fail expected).congr fun name after => ⟨False.elim, ?_⟩
    rintro ⟨token, htoken, hidentifier, -⟩
    exact hkind (htoken.current_eq ▸ hidentifier)

/-! ## Closing brackets -/

theorem follows_unclosed {α : Type} (bracket : Bracket) :
    Follows (α := α) cursor (do throw (← unclosed bracket)) fun _ _ => False := by
  unfold unclosed
  rw [bind_assoc]
  refine .current ?_
  split
  · exact .fail _
  · exact .fail _
  · exact .of_error fun state => ⟨_, state, rfl⟩

theorem follows_close (hended : cursor.IsEnded) (bracket : Bracket) :
    Follows cursor (close bracket) fun _ after =>
      ∃ closing, cursor.Takes closing after ∧ closing.kind = .mark bracket.closing := by
  by_cases hkind : cursor.current.kind = .mark bracket.closing
  · have hclosing := hended.takes (by simp [hkind])
    refine (Follows.accept hclosing hkind (.pure ())).congr fun _ after => ?_
    constructor
    · rintro ⟨-, rfl⟩
      exact ⟨_, hclosing, hkind⟩
    · rintro ⟨closing, hother, -⟩
      exact ⟨rfl, (hclosing.unique hother).2⟩
  · refine (Follows.reject hkind (follows_unclosed bracket)).congr fun _ after => ⟨False.elim, ?_⟩
    rintro ⟨closing, hclosing, hother⟩
    exact absurd (hclosing.current_eq ▸ hother) hkind

theorem ne_endOfInput_of_separator {kind : TokenKind} {separator : Separator}
    (h : Separator.ofKind? kind = some separator) : kind ≠ .endOfInput := by
  rintro rfl
  cases h

/-! ## Parts of a run -/

/-- In front of so much, the step for inner runs follows the relation for inner runs. -/
def FollowsWithin (bound : Nat) (inner : RunContext → Parse Run)
    (Inner : RunContext → Cursor → Run → Cursor → Prop) : Prop :=
  ∀ context cursor, cursor.IsEnded → cursor.weight ≤ bound →
    Follows cursor (inner context) (Inner context cursor)

theorem follows_operatorAnswer (hended : cursor.IsEnded) (context : RunContext) :
    Follows cursor
      (if context.stopAtAssignment && cursor.current.kind = .mark .assignment then return none
      else if context.stopAtDot && cursor.current.kind = .mark .dot then return none
      else if context.stopAtDot && beginsWithDot cursor.current then do
        split 1
        return none
      else if cursor.current.kind.isOperatorStart then do return some [.operator (← operator)]
      else return none)
      (OperatorAnswer context cursor) := by
  have hnone : Follows cursor (pure none : Parse (Option (List RunItem)))
      fun answer after => answer = none ∧ after = cursor := .pure none
  unfold OperatorAnswer
  split
  · exact hnone
  · split
    · exact hnone
    · split
      · rename_i hglued
        have hdot : beginsWithDot cursor.current := (Bool.and_eq_true_iff.mp hglued).2
        refine Follows.congr ((Follows.split hdot).bind fun _ _ _ _ _ => .pure none)
          fun answer after => ?_
        constructor
        · rintro ⟨_, _, rfl, rfl, rfl⟩
          exact ⟨rfl, rfl⟩
        · rintro ⟨rfl, rfl⟩
          exact ⟨(), _, rfl, rfl, rfl⟩
      · split
        · rename_i hoperator
          refine Follows.congr
            ((advances_operator hended ?_).toFollows.bind fun op after _ _ _ => .pure _)
            fun answer after => ?_
          · intro hend
            rw [hend] at hoperator
            cases hoperator
          · constructor
            · rintro ⟨op, middle, hop, rfl, rfl⟩
              exact ⟨op, hop, rfl⟩
            · rintro ⟨op, hop, rfl⟩
              exact ⟨op, after, hop, rfl, rfl⟩
        · exact hnone

theorem follows_conditionalEnd (hended : cursor.IsEnded) (opening : Token)
    (condition thenBranch : Run) :
    Follows cursor
      (do
        if (← currentKind) = .word .elseWord then
          let closing ← advance
          return [.conditional condition (some thenBranch) (opening.span.through closing.span)]
        else
          return .conditional condition none ⟨opening.span.start, thenBranch.span.start⟩ ::
            thenBranch.items)
      fun items after =>
        (∃ closing, cursor.Takes closing after ∧ closing.kind = .word .elseWord ∧ items =
          [.conditional condition (some thenBranch) (opening.span.through closing.span)]) ∨
        cursor.current.kind ≠ .word .elseWord ∧ after = cursor ∧ items =
          .conditional condition none ⟨opening.span.start, thenBranch.span.start⟩ ::
            thenBranch.items := by
  refine .currentKind ?_
  by_cases helse : cursor.current.kind = .word .elseWord
  · rw [if_pos helse]
    have hclosing := hended.takes (by simp [helse])
    refine .advance hclosing ((Follows.pure _).congr fun items after => ?_)
    constructor
    · rintro ⟨rfl, rfl⟩
      exact .inl ⟨_, hclosing, helse, rfl⟩
    · rintro (⟨closing, hother, -, rfl⟩ | ⟨hother, -⟩)
      · obtain ⟨rfl, rfl⟩ := hother.unique hclosing
        exact ⟨rfl, rfl⟩
      · exact absurd helse hother
  · rw [if_neg helse]
    refine (Follows.pure _).congr fun items after => ?_
    constructor
    · rintro ⟨rfl, rfl⟩
      exact .inr ⟨helse, rfl, rfl⟩
    · rintro (⟨closing, hother, hkind, -⟩ | ⟨-, rfl, rfl⟩)
      · exact absurd (hother.current_eq ▸ hkind) helse
      · exact ⟨rfl, rfl⟩

section Parts

variable {inner : RunContext → Parse Run} {Inner : RunContext → Cursor → Run → Cursor → Prop}
  {bound : Nat} (hinner : FollowsWithin bound inner Inner) (hended : cursor.IsEnded)

include hinner hended

theorem follows_collectEnumeration (hweight : cursor.weight ≤ bound)
    (hdots : cursor.current.kind = .mark .dotDot) (bracket : Bracket) (runs : List Run) :
    Follows cursor (collectEnumeration inner bracket runs)
      (Enumeration Inner bracket runs cursor) := by
  have htoken := hended.takes (by simp [hdots])
  have hmiddle := htoken.isEnded hended
  refine .advance htoken ?_
  by_cases hruns : runs.any Run.isEmpty
  · rw [if_pos hruns]
    refine (Follows.of_error fun state => ⟨_, state, rfl⟩).congr fun body after => ⟨False.elim, ?_⟩
    rintro (⟨-, hnone, -⟩ | ⟨-, hnone, -⟩) <;> simp [hruns] at hnone
  · rw [if_neg hruns]
    rw [Bool.not_eq_true] at hruns
    refine .currentKind ?_
    by_cases hclosing : cursor.advance.current.kind = .mark bracket.closing
    · rw [if_pos hclosing]
      refine (Follows.pure _).congr fun body after => ?_
      constructor
      · rintro ⟨rfl, rfl⟩
        exact .unbounded htoken hruns hclosing
      · rintro (⟨htoken', -, -⟩ | ⟨htoken', -, hopen, -⟩) <;>
          obtain ⟨rfl, rfl⟩ := htoken'.unique htoken
        · exact ⟨rfl, rfl⟩
        · exact absurd hclosing hopen
    · rw [if_neg hclosing]
      have hbound := hinner {} _ hmiddle (by have := htoken.weight_lt; omega)
      refine (hbound.bind fun run last taken _ _ => .pure _).congr fun body after => ?_
      constructor
      · rintro ⟨run, last, hrun, rfl, rfl⟩
        exact .bounded htoken hruns hclosing hrun
      · rintro (⟨htoken', -, hclosed⟩ | ⟨htoken', -, -, hrun⟩) <;>
          obtain ⟨rfl, rfl⟩ := htoken'.unique htoken
        · exact absurd hclosed hclosing
        · exact ⟨_, _, hrun, rfl, rfl⟩

theorem follows_collectGenerators (hweight : cursor.weight ≤ bound) {rounds : Nat}
    (hrounds : cursor.weight ≤ rounds) (separator : Option Separator) (found : List Run) :
    Follows cursor (collectGenerators inner rounds separator found) fun runs after =>
      ∃ more, Generators Inner separator cursor more after ∧ runs = found.reverse ++ more := by
  induction rounds generalizing cursor separator found with
  | zero =>
    have hpos := hended.weight_pos
    omega
  | succ rounds ih =>
    refine .current ?_
    cases hkind : Separator.ofKind? cursor.current.kind with
    | none =>
      refine (Follows.pure _).congr fun runs after => ?_
      constructor
      · rintro ⟨rfl, rfl⟩
        exact ⟨[], .done hkind, (List.append_nil _).symm⟩
      · rintro ⟨more, hmore, rfl⟩
        cases hmore with
        | done => exact ⟨List.append_nil _, rfl⟩
        | more htoken hnext => simp [htoken.current_eq, hnext] at hkind
    | some next =>
      dsimp only
      have hend := ne_endOfInput_of_separator hkind
      have htoken := hended.takes hend
      have hlt := htoken.weight_lt
      have hmixed_iff : separator.any (· != next) = true ↔ ¬∀ other ∈ separator, other = next := by
        cases separator <;> simp
      by_cases hmixed : separator.any (· != next)
      · rw [if_pos hmixed]
        refine (Follows.of_error fun state => ⟨_, state, rfl⟩).congr fun runs after =>
          ⟨False.elim, ?_⟩
        rintro ⟨more, hmore, -⟩
        cases hmore with
        | done hnone => simp [hkind] at hnone
        | more htoken' hnext hsame =>
          obtain ⟨rfl, rfl⟩ := htoken'.unique htoken
          obtain rfl := Option.some.inj (hkind.symm.trans hnext)
          exact hmixed_iff.mp hmixed hsame
      · rw [if_neg hmixed]
        have hfirst := htoken.isEnded hended
        refine .advance htoken (((hinner {} _ hfirst (by omega)).bind
          fun run second taken _ hpassage => ih (hpassage.isEnded hfirst) ?_ ?_ (some next)
            (run :: found)).congr fun runs after => ?_)
        · have hle := hpassage.weight_le
          omega
        · have hle := hpassage.weight_le
          omega
        · constructor
          · rintro ⟨run, second, hrun, more, hmore, rfl⟩
            have hsame := Decidable.not_not.mp (mt hmixed_iff.mpr hmixed)
            exact ⟨run :: more, .more htoken hkind hsame hrun hmore, by simp⟩
          · rintro ⟨more, hmore, rfl⟩
            cases hmore with
            | done hnone => simp [hkind] at hnone
            | more htoken' hnext hsame hrun hmore =>
              obtain ⟨rfl, rfl⟩ := htoken'.unique htoken
              obtain rfl := Option.some.inj (hkind.symm.trans hnext)
              exact ⟨_, _, hrun, _, hmore, by simp⟩

theorem follows_elementsEnd (hweight : cursor.weight ≤ bound)
    (hnone : Separator.ofKind? cursor.current.kind = none) (bracket : Bracket)
    (separator : Separator) (found : List Run) :
    Follows cursor
      (if cursor.current.kind = .mark .dotDot then collectEnumeration inner bracket found.reverse
      else if cursor.current.kind = .mark .pipe then do
        let _ ← advance
        return .elements found.reverse (some separator) false (some (← inner {}))
      else return .elements found.reverse (some separator) false none)
      (Elements Inner bracket separator found.reverse cursor) := by
  by_cases hdots : cursor.current.kind = .mark .dotDot
  · rw [if_pos hdots]
    refine (follows_collectEnumeration hinner hended hweight hdots bracket found.reverse).congr
      fun body after => ⟨.enumeration hdots, fun hbody => ?_⟩
    rcases hbody.of_no_separator hnone with ⟨-, h⟩ | ⟨hbar, -⟩ | ⟨hother, -⟩
    · exact h
    · rw [hdots] at hbar
      cases hbar
    · exact absurd hdots hother
  · rw [if_neg hdots]
    by_cases hbar : cursor.current.kind = .mark .pipe
    · rw [if_pos hbar]
      have htoken := hended.takes (by simp [hbar])
      have hlt := htoken.weight_lt
      refine .advance htoken (((hinner {} _ (htoken.isEnded hended) (by omega)).bind
        fun run last taken _ _ => .pure _).congr fun body after => ?_)
      constructor
      · rintro ⟨run, last, hrun, rfl, rfl⟩
        exact .tail htoken hbar hrun
      · intro hbody
        rcases hbody.of_no_separator hnone with
          ⟨hother, -⟩ | ⟨-, bar, middle, last, hother, hlast, rfl⟩ | ⟨-, hother, -⟩
        · exact absurd hother hdots
        · obtain ⟨rfl, rfl⟩ := hother.unique htoken
          exact ⟨_, _, hlast, rfl, rfl⟩
        · exact absurd hbar hother
    · rw [if_neg hbar]
      refine (Follows.pure _).congr fun body after => ?_
      constructor
      · rintro ⟨rfl, rfl⟩
        exact .done hnone hdots hbar
      · intro hbody
        rcases hbody.of_no_separator hnone with ⟨hother, -⟩ | ⟨hother, -⟩ | ⟨-, -, h⟩
        · exact absurd hother hdots
        · exact absurd hother hbar
        · exact h

theorem follows_collectElements (hweight : cursor.weight ≤ bound) {rounds : Nat}
    (hrounds : cursor.weight ≤ rounds) (bracket : Bracket) (separator : Separator)
    (found : List Run) :
    Follows cursor (collectElements inner bracket separator rounds found)
      (Elements Inner bracket separator found.reverse cursor) := by
  induction rounds generalizing cursor found with
  | zero =>
    have hpos := hended.weight_pos
    omega
  | succ rounds ih =>
    refine .current ?_
    cases hkind : Separator.ofKind? cursor.current.kind with
    | some next =>
      have htoken := hended.takes (ne_endOfInput_of_separator hkind)
      have hfirst := htoken.isEnded hended
      have hlt := htoken.weight_lt
      dsimp only
      by_cases hnext : next = separator
      · subst hnext
        rw [if_neg (Decidable.not_not.mpr rfl)]
        refine .advance htoken (.currentKind ?_)
        by_cases hclosing : cursor.advance.current.kind = .mark bracket.closing
        · rw [if_pos hclosing]
          refine (Follows.pure _).congr fun body after => ?_
          constructor
          · rintro ⟨rfl, rfl⟩
            exact .trailing htoken hkind hclosing
          · intro hbody
            rcases (hbody.of_separator htoken hkind).2 with ⟨hopen, -⟩ | ⟨-, rfl, rfl⟩
            · exact absurd hclosing hopen
            · exact ⟨rfl, rfl⟩
        · rw [if_neg hclosing]
          refine ((hinner {} _ hfirst (by omega)).bind fun run second taken _ hpassage =>
            ih (hpassage.isEnded hfirst) ?_ ?_ (run :: found)).congr fun body after => ?_
          · have hle := hpassage.weight_le
            omega
          · have hle := hpassage.weight_le
            omega
          · simp only [List.reverse_cons]
            constructor
            · rintro ⟨run, second, hrun, hbody⟩
              exact .more htoken hkind hclosing hrun hbody
            · intro hbody
              rcases (hbody.of_separator htoken hkind).2 with ⟨-, hmore⟩ | ⟨hclosed, -⟩
              · exact hmore
              · exact absurd hclosed hclosing
      · rw [if_pos hnext]
        refine (Follows.of_error fun state => ⟨_, state, rfl⟩).congr fun body after =>
          ⟨False.elim, fun hbody => hnext (hbody.of_separator htoken hkind).1⟩
    | none => exact follows_elementsEnd hinner hended hweight hkind bracket separator found

theorem follows_collectBody (hweight : cursor.weight ≤ bound) (bracket : Bracket) (first : Run) :
    Follows cursor (collectBody inner bracket first) (Body Inner bracket first cursor) := by
  have helements (state : ParseState) (hrounds : cursor.weight ≤ state.limit)
      (separator : Separator) :=
    follows_collectElements hinner hended hweight hrounds bracket separator [first]
  refine .get fun state hrounds => .currentKind ?_
  generalize hkind : cursor.current.kind = kind
  split
  all_goals
    unfold Body
    rw [hkind]
  · exact follows_collectEnumeration hinner hended hweight hkind bracket [first]
  · have htoken := hended.takes (by simp [hkind])
    have hlt := htoken.weight_lt
    have hmiddle := htoken.isEnded hended
    refine .advance htoken (Follows.congr ((hinner _ _ hmiddle (by omega)).bind
      fun generator last taken _ hpassage =>
        (follows_collectGenerators hinner (hpassage.isEnded hmiddle) ?_ ?_ none [generator]).bind
          fun generators after taken _ _ => .pure _) fun body after => ?_)
    · have hle := hpassage.weight_le
      omega
    · have hle := hpassage.weight_le
      omega
    · constructor
      · rintro ⟨generator, last, hgenerator, runs, middle, ⟨more, hmore, rfl⟩, rfl, rfl⟩
        exact ⟨_, _, _, _, _, htoken, hgenerator, hmore, rfl⟩
      · rintro ⟨colon, middle, generator, last, generators, hcolon, hgenerator, hmore, rfl⟩
        obtain ⟨rfl, rfl⟩ := hcolon.unique htoken
        exact ⟨_, _, hgenerator, _, _, ⟨_, hmore, rfl⟩, rfl, rfl⟩
  · exact helements state hrounds .comma
  · exact helements state hrounds .semicolon
  · have htoken := hended.takes (by simp [hkind])
    have hlt := htoken.weight_lt
    refine .advance htoken (Follows.congr ((hinner _ _ (htoken.isEnded hended) (by omega)).bind
      fun last after taken _ _ => .pure _) fun body after => ?_)
    constructor
    · rintro ⟨last, middle, hlast, rfl, rfl⟩
      exact ⟨_, _, _, htoken, hlast, rfl⟩
    · rintro ⟨bar, middle, last, hbar, hlast, rfl⟩
      obtain ⟨rfl, rfl⟩ := hbar.unique htoken
      exact ⟨_, _, hlast, rfl, rfl⟩
  · by_cases hclosing : kind = .mark bracket.closing
    · rw [if_pos hclosing]
      refine (Follows.pure _).congr fun body after => ?_
      split <;> first | contradiction | exact ⟨fun h => ⟨hclosing, h⟩, And.right⟩
    · rw [if_neg hclosing]
      refine (follows_unclosed bracket).congr fun body after => ?_
      split <;> first | contradiction | exact ⟨False.elim, fun h => hclosing h.1⟩

theorem advances_collectContainer (hweight : cursor.weight ≤ bound + 1)
    (hnext : cursor.current.kind ≠ .endOfInput) :
    Advances cursor (collectContainer inner) (Container Inner cursor) := by
  have htoken := hended.takes hnext
  generalize cursor.current = opening, cursor.advance = second at htoken
  have hsecond := htoken.isEnded hended
  have hlt := htoken.weight_lt
  refine .intro htoken ?_
  by_cases hclosing : second.current.kind = .mark (Bracket.ofOpening opening.kind).closing
  · have hclose := hsecond.takes (by simp [hclosing])
    refine .accept hclose hclosing (.spanFrom ((Follows.pure _).congr fun atom after => ?_))
    rw [hclose.previousEnd_eq]
    constructor
    · rintro ⟨rfl, rfl⟩
      exact .empty htoken hclose hclosing
    · rintro (⟨htoken', hclose', -⟩ | ⟨htoken', hopen, -⟩) <;>
        obtain ⟨rfl, rfl⟩ := htoken'.unique htoken
      · obtain ⟨rfl, rfl⟩ := hclose'.unique hclose
        exact ⟨rfl, rfl⟩
      · exact absurd hclosing hopen
  · refine .reject hclosing (Follows.congr ((hinner _ _ hsecond (by omega)).bind
      fun first third taken _ hpassage =>
        (follows_collectBody hinner (hpassage.isEnded hsecond) ?_ _ first).bind
          fun body fourth taken _ hpassage' =>
            (follows_close (hpassage'.isEnded (hpassage.isEnded hsecond)) _).bind
              fun _ last taken _ _ => .spanFrom (.pure _)) fun atom after => ?_)
    · have hle := hpassage.weight_le
      omega
    · constructor
      · rintro ⟨first, third, hfirst, body, fourth, hbody, -, last, ⟨closing, hclose, hkind⟩, rfl,
          rfl⟩
        rw [hclose.previousEnd_eq]
        exact .filled htoken hclosing hfirst hbody hclose hkind
      · rintro (⟨htoken', hclose, hkind⟩ | ⟨htoken', hopen, hfirst, hbody, hclose, hkind⟩) <;>
          obtain ⟨rfl, rfl⟩ := htoken'.unique htoken
        · exact absurd (hclose.current_eq ▸ hkind) hclosing
        · exact ⟨_, _, hfirst, _, _, hbody, (), _, ⟨_, hclose, hkind⟩,
            by rw [hclose.previousEnd_eq]; rfl, rfl⟩

theorem advances_collectLambda (hweight : cursor.weight ≤ bound + 1)
    (hnext : cursor.current.kind ≠ .endOfInput) (context : RunContext) :
    Advances cursor (collectLambda inner context) (Lambda Inner context cursor) := by
  have htoken := hended.takes hnext
  generalize cursor.current = backslash, cursor.advance = first at htoken
  have hfirst := htoken.isEnded hended
  have hlt := htoken.weight_lt
  refine .intro htoken ?_
  refine Follows.congr
    ((hinner _ _ hfirst (by omega)).bind fun parameters second taken _ hpassage =>
    .expectMark (hpassage.isEnded hfirst) fun dot third hdot =>
      (hinner _ _ (hdot.isEnded (hpassage.isEnded hfirst)) ?_).bind fun body last _ _ _ =>
        .spanFrom (.pure _)) fun atom after => ?_
  · have hle := hpassage.weight_le
    have hlt := hdot.weight_lt
    omega
  · constructor
    · rintro ⟨parameters, second, hparameters, dot, third, hdot, hkind, body, last, hbody, rfl, rfl⟩
      exact .intro htoken hparameters hdot hkind hbody
    · rintro ⟨htoken', hparameters, hdot, hkind, hbody⟩
      obtain ⟨rfl, rfl⟩ := htoken'.unique htoken
      exact ⟨_, _, hparameters, _, _, hdot, hkind, _, _, hbody, rfl, rfl⟩

theorem advances_collectConditional (hweight : cursor.weight ≤ bound + 1)
    (hnext : cursor.current.kind ≠ .endOfInput) (context : RunContext) :
    Advances cursor (collectConditional inner context) (Conditional Inner context cursor) := by
  have htoken := hended.takes hnext
  generalize cursor.current = opening, cursor.advance = first at htoken
  have hfirst := htoken.isEnded hended
  have hlt := htoken.weight_lt
  refine .intro htoken (Follows.congr ((hinner _ _ hfirst (by omega)).bind
    fun condition second taken _ hpassage =>
      .expectWord (hpassage.isEnded hfirst) fun joining third hjoining =>
        (hinner _ _ (hjoining.isEnded (hpassage.isEnded hfirst)) ?_).bind
          fun thenBranch fourth taken _ hpassage' =>
            follows_conditionalEnd (hpassage'.isEnded (hjoining.isEnded (hpassage.isEnded hfirst)))
              opening condition thenBranch)
    fun items after => ?_)
  · have hle := hpassage.weight_le
    have hlt := hjoining.weight_lt
    omega
  · constructor
    · rintro ⟨condition, second, hcondition, joining, third, hjoining, hthen, thenBranch, fourth,
        hbranch, ⟨closing, hclosing, helse, rfl⟩ | ⟨helse, rfl, rfl⟩⟩
      · exact .withElse htoken hcondition hjoining hthen hbranch hclosing helse
      · exact .withoutElse htoken hcondition hjoining hthen hbranch helse
    · rintro (⟨htoken', hcondition, hjoining, hthen, hbranch, hclosing, helse⟩ |
          ⟨htoken', hcondition, hjoining, hthen, hbranch, helse⟩) <;>
        obtain ⟨rfl, rfl⟩ := htoken'.unique htoken
      · exact ⟨_, _, hcondition, _, _, hjoining, hthen, _, _, hbranch,
          .inl ⟨_, hclosing, helse, rfl⟩⟩
      · exact ⟨_, _, hcondition, _, _, hjoining, hthen, _, _, hbranch, .inr ⟨helse, rfl, rfl⟩⟩

/-! ## Items -/

theorem follows_nextItems (hweight : cursor.weight ≤ bound + 1) (context : RunContext)
    (started : Bool) :
    Follows cursor (nextItems? inner context started) (Answer Inner context started cursor) := by
  have hnone : Follows cursor (pure none : Parse (Option (List RunItem)))
      fun answer after => answer = none ∧ after = cursor := .pure none
  have hatom {step : Parse Atom} {G : Atom → Cursor → Prop} (h : Follows cursor step G) :
      Follows cursor (do return some [RunItem.atom (← step)])
        fun answer after => ∃ atom, G atom after ∧ answer = some [.atom atom] := by
    refine Follows.congr (h.bind fun atom after _ _ _ => .pure _) fun answer after => ?_
    constructor
    · rintro ⟨atom, middle, hatom, rfl, rfl⟩
      exact ⟨atom, hatom, rfl⟩
    · rintro ⟨atom, hatom, rfl⟩
      exact ⟨atom, after, hatom, rfl, rfl⟩
  refine .current ?_
  generalize hkind : cursor.current.kind = kind
  split
  all_goals
    unfold Answer
    rw [hkind]
  · exact hatom (advances_collectIdentifier hended (by simp [hkind]) context).toFollows
  · exact hatom (advances_collectIdentifier hended (by simp [hkind]) context).toFollows
  · have htoken := hended.takes (by simp [hkind])
    refine .advance htoken (Follows.congr ((follows_identifier (htoken.isEnded hended) _).bind
      fun name after taken _ _ => .spanFrom (.pure _)) fun answer after => ?_)
    constructor
    · rintro ⟨_, middle, ⟨name, hname, hidentifier, rfl⟩, rfl, rfl⟩
      exact ⟨_, _, _, htoken, hname, hidentifier, by rw [hname.previousEnd_eq]; rfl⟩
    · rintro ⟨token, middle, name, htoken', hname, hidentifier, rfl⟩
      obtain ⟨rfl, rfl⟩ := htoken'.unique htoken
      exact ⟨_, _, ⟨_, hname, hidentifier, rfl⟩, by rw [hname.previousEnd_eq]; rfl, rfl⟩
  · have htoken := hended.takes (by simp [hkind])
    refine .advance htoken (Follows.congr (.ofExcept fun literal => .pure _) fun answer after => ?_)
    constructor
    · rintro ⟨literal, hliteral, rfl, rfl⟩
      exact ⟨_, _, htoken, hliteral, rfl⟩
    · rintro ⟨token, literal, htoken', hliteral, rfl⟩
      obtain ⟨rfl, rfl⟩ := htoken'.unique htoken
      exact ⟨_, hliteral, rfl, rfl⟩
  · have htoken := hended.takes (by simp [hkind])
    refine .advance htoken ((Follows.pure _).congr fun answer after => ?_)
    constructor
    · rintro ⟨rfl, rfl⟩
      exact ⟨_, htoken, rfl⟩
    · rintro ⟨token, htoken', rfl⟩
      obtain ⟨rfl, rfl⟩ := htoken'.unique htoken
      exact ⟨rfl, rfl⟩
  · exact hatom (advances_collectContainer hinner hended hweight (by simp [hkind])).toFollows
  · exact hatom (advances_collectContainer hinner hended hweight (by simp [hkind])).toFollows
  · exact hatom (advances_collectContainer hinner hended hweight (by simp [hkind])).toFollows
  · exact hatom (advances_collectLambda hinner hended hweight (by simp [hkind]) context).toFollows
  · by_cases hguard : (context.stopAtGuard && started) = true
    · simp only [if_pos hguard]
      exact hnone
    · simp only [if_neg hguard]
      refine Follows.congr ((advances_collectConditional hinner hended hweight (by simp [hkind])
        context).toFollows.bind fun items after _ _ _ => .pure _) fun answer after => ?_
      constructor
      · rintro ⟨items, middle, hitems, rfl, rfl⟩
        exact ⟨items, hitems, rfl⟩
      · rintro ⟨items, hitems, rfl⟩
        exact ⟨items, after, hitems, rfl, rfl⟩
  · exact .fail _
  · subst hkind
    refine (follows_operatorAnswer hended context).congr fun answer after => ?_
    split <;> first | contradiction | rfl

private theorem weight_lt_of_next (hweight : cursor.weight ≤ bound + 1) {context : RunContext}
    {started : Bool} {items : List RunItem} {after : Cursor}
    (h : Next Inner context started cursor items after) : after.weight < cursor.weight := by
  cases h with
  | named hkind h =>
    have hnext : cursor.current.kind ≠ .endOfInput := fun hend => by rw [hend] at hkind; cases hkind
    exact (advances_collectIdentifier hended hnext context).weight_lt _ _ h
  | declared htoken _ hname => exact Nat.lt_trans hname.weight_lt htoken.weight_lt
  | number htoken => exact htoken.weight_lt
  | string htoken => exact htoken.weight_lt
  | container hkind h =>
    have hnext : cursor.current.kind ≠ .endOfInput := fun hend => by rw [hend] at hkind; cases hkind
    exact (advances_collectContainer hinner hended hweight hnext).weight_lt _ _ h
  | lambda hkind h =>
    exact (advances_collectLambda hinner hended hweight (by simp [hkind]) context).weight_lt _ _ h
  | conditional hkind _ h =>
    exact (advances_collectConditional hinner hended hweight (by simp [hkind])
      context).weight_lt _ _ h
  | operator hkind h =>
    have hnext : cursor.current.kind ≠ .endOfInput := fun hend => by rw [hend] at hkind; cases hkind
    exact (advances_operator hended hnext).weight_lt _ _ h

theorem follows_collectItems (hweight : cursor.weight ≤ bound + 1) (context : RunContext)
    {rounds : Nat} (hrounds : cursor.weight ≤ rounds) (found : List RunItem) :
    Follows cursor (collectItems inner context rounds found) fun items after =>
      ∃ more, Items Inner context (!found.isEmpty) cursor more after ∧
        items = found.reverse ++ more := by
  induction rounds generalizing cursor found with
  | zero =>
    have hpos := hended.weight_pos
    omega
  | succ rounds ih =>
    refine Follows.congr ((follows_nextItems hinner hended hweight context _).bind
      (N := fun answer middle items after =>
        answer.elim (items = found.reverse ∧ after = middle) fun next =>
          ∃ more, Items Inner context true middle more after ∧
            items = found.reverse ++ (next ++ more))
      fun answer middle taken hanswer hpassage => ?_) fun items after => ?_
    · cases answer with
      | none => exact .pure _
      | some next =>
        have hitems := next_of_answer _ _ _ hanswer
        have hlt := weight_lt_of_next hinner hended hweight hitems
        have hne := hitems.ne_nil
        refine (ih (hpassage.isEnded hended) (by omega) (by omega) (next.reverse ++ found)).congr
          fun items after => ?_
        have hstarted : (!(next.reverse ++ found).isEmpty) = true := by simp [hne]
        rw [hstarted]
        simp only [Option.elim_some, List.reverse_append, List.reverse_reverse, List.append_assoc]
    · constructor
      · rintro ⟨answer, middle, hanswer, hitems⟩
        cases answer with
        | none =>
          obtain ⟨rfl, rfl⟩ := hitems
          exact ⟨[], .stop hanswer, (List.append_nil _).symm⟩
        | some next =>
          obtain ⟨more, hmore, rfl⟩ := hitems
          exact ⟨next ++ more, .next hanswer hmore, rfl⟩
      · rintro ⟨more, hmore, rfl⟩
        cases hmore with
        | stop hanswer => exact ⟨none, _, hanswer, List.append_nil _, rfl⟩
        | next hanswer hrest => exact ⟨some _, _, hanswer, _, hrest, rfl⟩

end Parts

/-! ## Runs -/

/-- The nesting that is allowed may be deeper than it has to be. -/
theorem follows_collectRun {depth rounds : Nat} (h : depth ≤ rounds) :
    FollowsWithin depth (collectRun rounds) (Collects depth) := by
  intro context cursor hended hweight
  -- Each run inside begins behind a token that has been passed, and so has less ahead.
  induction depth generalizing rounds context cursor with
  | zero =>
    have hpos := hended.weight_pos
    omega
  | succ depth ih =>
    obtain ⟨rounds, rfl⟩ : ∃ more, rounds = more + 1 := Nat.exists_eq_add_one.mpr (by omega)
    have hinner : FollowsWithin depth (collectRun rounds) (Collects depth) :=
      fun context cursor hended hweight => ih (by omega) context cursor hended hweight
    refine .position (.get fun state hlimit => Follows.congr
      ((follows_collectItems hinner hended hweight context hlimit []).bind
        fun items after _ _ _ => .pure _) fun run after => ?_)
    constructor
    · rintro ⟨_, middle, ⟨_, hitems, rfl⟩, rfl, rfl⟩
      exact ⟨_, hitems, rfl⟩
    · rintro ⟨items, hitems, rfl⟩
      exact ⟨_, _, ⟨items, hitems, rfl⟩, rfl, rfl⟩

theorem follows_run (context : RunContext) (hended : cursor.IsEnded) :
    Follows cursor (Parse.run context) (Collects cursor.weight context cursor) :=
  .get fun _ hlimit => follows_collectRun hlimit context cursor hended (Nat.le_refl _)

theorem run_of_collects {state : ParseState} (hended : state.cursor.IsEnded)
    (hlimit : state.cursor.weight ≤ state.limit) {context : RunContext} {run : Run} {after : Cursor}
    (h : Collects state.cursor.weight context state.cursor run after) :
    Parse.run context state = .ok run { state with cursor := after } :=
  ((follows_run context hended).ok_iff state rfl hlimit _ _).mpr ⟨after, h, rfl⟩

/-! ## Nesting that suffices -/

section Depth

variable {depth depth' : Nat} {context : RunContext} {after : Cursor}

theorem Grammar.Answer.atDepth {started : Bool} {answer : Option (List RunItem)}
    (hended : cursor.IsEnded) (hweight : cursor.weight ≤ depth + 1)
    (hweight' : cursor.weight ≤ depth' + 1)
    (h : Answer (Collects depth) context started cursor answer after) :
    Answer (Collects depth') context started cursor answer after := by
  let state : ParseState := ⟨cursor, .initial, [], false, cursor.weight, false⟩
  have hinner := follows_collectRun (Nat.le_max_left depth depth')
  have hinner' := follows_collectRun (Nat.le_max_right depth depth')
  have hstep := follows_nextItems hinner hended hweight context started
  have hstep' := follows_nextItems hinner' hended hweight' context started
  have hok := (hstep.ok_iff state rfl (Nat.le_refl _) _ _).mpr ⟨after, h, rfl⟩
  obtain ⟨_, h', hfinal⟩ := (hstep'.ok_iff state rfl (Nat.le_refl _) _ _).mp hok
  cases hfinal
  exact h'

theorem Grammar.Items.atDepth {started : Bool} {items : List RunItem} (hended : cursor.IsEnded)
    (hweight : cursor.weight ≤ depth + 1) (hweight' : cursor.weight ≤ depth' + 1)
    (h : Items (Collects depth) context started cursor items after) :
    Items (Collects depth') context started cursor items after := by
  -- What has been found so far tells the step whether the run has started.
  obtain ⟨found, rfl⟩ : ∃ found : List RunItem, started = !found.isEmpty := by
    cases started with
    | false => exact ⟨[], rfl⟩
    | true => exact ⟨[.conditional ⟨[], default⟩ none default], rfl⟩
  let state : ParseState := ⟨cursor, .initial, [], false, cursor.weight, false⟩
  have hinner := follows_collectRun (Nat.le_max_left depth depth')
  have hinner' := follows_collectRun (Nat.le_max_right depth depth')
  have hstep := follows_collectItems hinner hended hweight context (Nat.le_refl _) found
  have hstep' := follows_collectItems hinner' hended hweight' context (Nat.le_refl _) found
  have hok := (hstep.ok_iff state rfl (Nat.le_refl _) _ _).mpr ⟨after, ⟨items, h, rfl⟩, rfl⟩
  obtain ⟨_, ⟨more, hmore, heq⟩, hfinal⟩ := (hstep'.ok_iff state rfl (Nat.le_refl _) _ _).mp hok
  obtain rfl := List.append_cancel_left heq
  cases hfinal
  exact hmore

theorem Grammar.Collects.atDepth {run : Run} (hended : cursor.IsEnded)
    (hweight : cursor.weight ≤ depth) (hweight' : cursor.weight ≤ depth')
    (h : Collects depth context cursor run after) : Collects depth' context cursor run after := by
  have hpos := hended.weight_pos
  obtain ⟨depth, rfl⟩ : ∃ less, depth = less + 1 := Nat.exists_eq_add_one.mpr (by omega)
  obtain ⟨depth', rfl⟩ : ∃ less, depth' = less + 1 := Nat.exists_eq_add_one.mpr (by omega)
  obtain ⟨items, hitems, rfl⟩ := h
  exact ⟨items, hitems.atDepth hended hweight hweight', rfl⟩

end Depth

end Equational

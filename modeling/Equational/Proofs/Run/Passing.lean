import Equational.Proofs.Parse.Ensures
import Equational.Proofs.Parse.Offset
import Equational.Proofs.Run.Moving

/-!
# Steps that pass a token

Where a step succeeds that has to pass a token, the cursor stands behind the end of one that begins
no earlier than the step.  Whatever adds something to a run is such a step.
-/

namespace Equational

open Cursor

theorem Token.kind_ne_of_isPlainIdentifier {token : Token} (h : token.isPlainIdentifier) :
    token.kind ≠ .endOfInput := by
  intro hend
  rw [isPlainIdentifier, hend] at h
  cases h

namespace Parse

variable {α β : Type} {place : Nat → Nat} {start : Nat} {moved : Bool} {kind : TokenKind}

open ParseState (Stands)

theorem Moving.stays {step : Parse α} (h : Moving .silent step) :
    Yields (Stands place start moved) step fun _ => Stands place start moved :=
  h.ensures (fun _ _ hmoves hstands => hstands.moves hmoves) fun _ _ => trivial

/-- In front of a token of a given kind. -/
def Faces (place : Nat → Nat) (start : Nat) (kind : TokenKind) (state : ParseState) : Prop :=
  state.Stands place start false ∧ state.cursor.current.kind = kind

theorem yields_current {next : Token → Parse α} {after : α → ParseState → Prop}
    (h : ∀ token, Yields (Faces place start token.kind) (next token) after) :
    Yields (Stands place start false) (current >>= next) after :=
  fun state hstands => h _ state ⟨hstands, rfl⟩

/-! ## Tokens -/

theorem yields_passing (hkind : kind ≠ .endOfInput) {next : Token → Parse β}
    {after : β → ParseState → Prop}
    (h : ∀ token, Yields (Stands place start true) (next token) after) :
    Yields (Faces place start kind) (advance >>= next) after := by
  rintro state ⟨hstands, hcurrent⟩
  exact h _ _ (hstands.advance (hcurrent ▸ hkind))

theorem passes_expect (hkind : kind ≠ .endOfInput) :
    Yields (Stands place start false) (expect kind) fun _ => Stands place start true := by
  refine yields_kind fun found => .ite (fun hfound => ?_) fun _ => yields_fail _
  rintro state ⟨hstands, hcurrent⟩
  exact hstands.advance (by rwa [hcurrent, hfound])

theorem passes_expectMark (mark : Punctuation) :
    Yields (Stands place start false) (expectMark mark) fun _ => Stands place start true :=
  have hmark : TokenKind.mark mark ≠ .endOfInput := nofun
  passes_expect hmark

theorem yields_acceptMark (mark : Punctuation) :
    Yields (Faces place start kind) (acceptMark mark) fun accepted state =>
      if accepted then state.Stands place start true else Faces place start kind state := by
  refine yields_kind fun found => .ite (fun hfound => ?_) fun _ => .pure fun _ hstate => hstate.1
  have hmark : found ≠ .endOfInput := by rw [hfound]; nofun
  refine Ensures.imp (yields_passing hmark fun _ => ?_) (fun _ hstate => ⟨hstate.1.1, hstate.2⟩)
    fun _ _ => id
  exact .pure fun _ hstate => hstate

theorem passes_identifier (expected : String) :
    Yields (Stands place start false) (identifier expected) fun _ => Stands place start true := by
  refine yields_kind fun found => .ite (fun hfound => ?_) fun _ => yields_fail _
  refine yields_passing ?_ fun token => .pure fun _ hstate => hstate
  rintro rfl
  cases hfound

theorem passes_operator (hkind : kind ≠ .endOfInput) :
    Yields (Faces place start kind) operator fun _ => Stands place start true := by
  refine yields_passing hkind fun token => ?_
  dsimp only
  split
  · refine moving_currentKind.stays.bind fun found => Moving.stays (.ite ?_ (.pure _))
    exact moving_advance.bind fun second => .pure _
  · exact .pure fun _ hstate => hstate

theorem kind_ne_of_isOperatorStart (h : kind.isOperatorStart) : kind ≠ .endOfInput := by
  rintro rfl
  cases h

/-! ## Items of runs -/

theorem passes_collectIdentifier (hkind : kind ≠ .endOfInput) (context : RunContext) :
    Yields (Faces place start kind) (collectIdentifier context)
      fun _ => Stands place start true := by
  refine yields_passing hkind fun token => moving_currentKind.stays.bind fun found => ?_
  refine (moving_peek 1).stays.bind fun follower => Moving.stays (.ite ?_ (.pure _))
  exact moving_advance.bind fun _ => moving_advance.bind fun typeToken => .pure _

section Collecting

variable {inner : RunContext → Parse Run} (hinner : ∀ context, Moving .silent (inner context))

include hinner

theorem passes_collectContainer (hkind : kind ≠ .endOfInput) :
    Yields (Faces place start kind) (collectContainer inner)
      fun _ => Stands place start true := by
  refine yields_passing hkind fun opening => (moving_acceptMark _).stays.bind fun closed => ?_
  refine Moving.stays (.ite ?_ ?_)
  · exact (moving_spanFrom _).bind fun span => .pure _
  · refine (hinner _).bind fun first => (moving_collectBody hinner _ first).bind fun body => ?_
    exact (moving_close _).bind fun _ => (moving_spanFrom _).bind fun span => .pure _

theorem passes_collectLambda (hkind : kind ≠ .endOfInput) (context : RunContext) :
    Yields (Faces place start kind) (collectLambda inner context)
      fun _ => Stands place start true := by
  refine yields_passing hkind fun backslash => Moving.stays ?_
  refine (hinner _).bind fun parameters => (moving_expectMark .dot).bind fun _ => ?_
  exact (hinner _).bind fun body => (moving_spanFrom _).bind fun span => .pure _

theorem passes_collectConditional (hkind : kind ≠ .endOfInput) (context : RunContext) :
    Yields (Faces place start kind) (collectConditional inner context)
      fun _ => Stands place start true := by
  refine yields_passing hkind fun opening => Moving.stays ?_
  refine (hinner {}).bind fun condition => (moving_expect _).bind fun _ => ?_
  refine (hinner context).bind fun thenBranch => moving_currentKind.bind fun kind => ?_
  exact .ite (moving_advance.bind fun closing => .pure _) (.pure _)

theorem yields_nextItems (context : RunContext) (started : Bool) :
    Yields (Stands place start false) (nextItems? inner context started)
      fun answer state => answer.isSome → state.Stands place start true := by
  have hfound {α : Type} {kind : TokenKind} {step : Parse α} {f : α → List RunItem}
      (h : Yields (Faces place start kind) step fun _ => Stands place start true) :
      Yields (Faces place start kind) (step >>= fun value => pure (some (f value)))
        fun answer state => answer.isSome → state.Stands place start true :=
    h.bind fun _ => .pure fun _ hstate _ => hstate
  have hnone {before : ParseState → Prop} :
      Yields before (pure none) fun (answer : Option (List RunItem)) state =>
        answer.isSome → state.Stands place start true :=
    .pure fun _ _ hsome => absurd hsome Bool.false_ne_true
  refine yields_current fun token => ?_
  split <;> rename_i hkind
  · exact hfound (passes_collectIdentifier (by simp [hkind]) context)
  · exact hfound (passes_collectIdentifier (by simp [hkind]) context)
  · refine yields_passing (by simp [hkind]) fun _ => (moving_identifier _).stays.bind fun name => ?_
    exact (moving_spanFrom _).stays.bind fun span => .pure fun _ hstate _ => hstate
  · refine yields_passing (by simp [hkind]) fun _ =>
      (Moving.ofExcept _).stays.bind fun literal => ?_
    exact .pure fun _ hstate _ => hstate
  · exact yields_passing (by simp [hkind]) fun _ => .pure fun _ hstate _ => hstate
  · exact hfound (passes_collectContainer hinner (by simp [hkind]))
  · exact hfound (passes_collectContainer hinner (by simp [hkind]))
  · exact hfound (passes_collectContainer hinner (by simp [hkind]))
  · exact hfound (passes_collectLambda hinner (by simp [hkind]) context)
  · refine .ite (fun _ => hnone) fun _ => ?_
    exact (passes_collectConditional hinner (by simp [hkind]) context).bind fun _ =>
      .pure fun _ hstate _ => hstate
  · exact yields_fail _
  · refine .ite (fun _ => hnone) fun _ => .ite (fun _ => hnone) fun _ => ?_
    refine .ite (fun _ => ?_) fun _ => .ite (fun hstart => ?_) fun _ => hnone
    · have hsplit : Yields (Faces place start token.kind) (split 1) fun _ _ => True :=
        fun _ _ => trivial
      exact hsplit.bind fun _ => hnone
    · exact hfound (passes_operator (kind_ne_of_isOperatorStart hstart))

end Collecting

end Parse

end Equational

import Equational.Proofs.Parse.Moving

/-!
# Collecting runs declares nothing

Every step that collects a part of a run is made of moves, if the step for inner runs is; by
induction on the depth of nesting, so is the step that collects a whole run.
-/

namespace Equational

open Parse

variable {noise : Noise}

/-! ## Parts of a run -/

section Parts

variable {inner : RunContext → Parse Run} (hinner : ∀ context, Moving noise (inner context))

theorem moving_unclosed (bracket : Bracket) : Moving noise (unclosed bracket) := by
  refine moving_current.bind fun token => ?_
  split
  · exact moving_unexpected _
  · exact moving_unexpected _
  · exact .pure _

theorem moving_close (bracket : Bracket) : Moving noise (close bracket) := by
  refine (moving_acceptMark _).bind fun accepted => .ite (.pure _) ?_
  exact (moving_unclosed bracket).bind fun diagnostic => .throw diagnostic

include hinner

theorem moving_collectEnumeration (bracket : Bracket) (runs : List Run) :
    Moving noise (collectEnumeration inner bracket runs) := by
  refine moving_advance.bind fun dots => .ite (.throw _) ?_
  refine moving_currentKind.bind fun kind => .ite (.pure _) ?_
  exact (hinner {}).bind fun bound => .pure _

theorem moving_collectGenerators (rounds : Nat) (separator : Option Separator)
    (found : List Run) : Moving noise (collectGenerators inner rounds separator found) := by
  induction rounds generalizing separator found with
  | zero => exact moving_exhaust _
  | succ rounds ih =>
    refine moving_current.bind fun token => ?_
    split
    · exact .pure _
    · refine .ite (.throw _) ?_
      refine moving_advance.bind fun _ => ?_
      exact (hinner {}).bind fun run => ih _ (run :: found)

theorem moving_collectElements (bracket : Bracket) (separator : Separator) (rounds : Nat)
    (found : List Run) : Moving noise (collectElements inner bracket separator rounds found) := by
  induction rounds generalizing found with
  | zero => exact moving_exhaust _
  | succ rounds ih =>
    refine moving_current.bind fun token => ?_
    split
    · refine .ite (.throw _) ?_
      refine moving_advance.bind fun _ => ?_
      refine moving_currentKind.bind fun kind => .ite (.pure _) ?_
      exact (hinner {}).bind fun run => ih (run :: found)
    · refine .ite (moving_collectEnumeration hinner bracket _) (.ite ?_ (.pure _))
      refine moving_advance.bind fun _ => ?_
      exact (hinner {}).bind fun tail => .pure _

theorem moving_collectBody (bracket : Bracket) (first : Run) :
    Moving noise (collectBody inner bracket first) := by
  refine Moving.get.bind fun state => moving_currentKind.bind fun kind => ?_
  split
  · exact moving_collectEnumeration hinner bracket [first]
  · refine moving_advance.bind fun _ => (hinner {}).bind fun generator => ?_
    exact (moving_collectGenerators hinner _ none [generator]).bind fun _ => .pure _
  · exact moving_collectElements hinner bracket .comma _ [first]
  · exact moving_collectElements hinner bracket .semicolon _ [first]
  · refine moving_advance.bind fun _ => ?_
    exact (hinner {}).bind fun tail => .pure _
  · refine .ite (.pure _) ?_
    exact (moving_unclosed bracket).bind fun diagnostic => .throw diagnostic

theorem moving_collectContainer : Moving noise (collectContainer inner) := by
  refine moving_advance.bind fun opening => ?_
  refine (moving_acceptMark _).bind fun closed => .ite ?_ ?_
  · exact (moving_spanFrom _).bind fun span => .pure _
  · refine (hinner _).bind fun first => ?_
    refine (moving_collectBody hinner _ first).bind fun body => ?_
    refine (moving_close _).bind fun _ => ?_
    exact (moving_spanFrom _).bind fun span => .pure _

theorem moving_collectLambda (context : RunContext) :
    Moving noise (collectLambda inner context) := by
  refine moving_advance.bind fun backslash => ?_
  refine (hinner _).bind fun parameters => ?_
  refine (moving_expectMark .dot).bind fun _ => ?_
  refine (hinner _).bind fun body => ?_
  exact (moving_spanFrom _).bind fun span => .pure _

theorem moving_collectConditional (context : RunContext) :
    Moving noise (collectConditional inner context) := by
  refine moving_advance.bind fun opening => ?_
  refine (hinner {}).bind fun condition => ?_
  refine (moving_expect _).bind fun _ => ?_
  refine (hinner context).bind fun thenBranch => ?_
  refine moving_currentKind.bind fun kind => .ite ?_ (.pure _)
  exact moving_advance.bind fun closing => .pure _

end Parts

/-! ## Items -/

theorem moving_collectIdentifier (context : RunContext) :
    Moving noise (collectIdentifier context) := by
  refine moving_advance.bind fun token => ?_
  refine moving_currentKind.bind fun kind => ?_
  refine (moving_peek 1).bind fun follower => .ite ?_ (.pure _)
  refine moving_advance.bind fun _ => ?_
  exact moving_advance.bind fun typeToken => .pure _

section Items

variable {inner : RunContext → Parse Run} (hinner : ∀ context, Moving noise (inner context))

include hinner

theorem moving_nextItems (context : RunContext) (started : Bool) :
    Moving noise (nextItems? inner context started) := by
  refine .current fun state token htoken => ?_
  split
  · exact (moving_collectIdentifier context).bind (fun _ => .pure _) state
  · exact (moving_collectIdentifier context).bind (fun _ => .pure _) state
  · refine moving_advance.bind (fun _ => ?_) state
    refine (moving_identifier _).bind fun name => ?_
    exact (moving_spanFrom _).bind fun span => .pure _
  · refine moving_advance.bind (fun _ => ?_) state
    exact (Moving.ofExcept _).bind fun literal => .pure _
  · exact moving_advance.bind (fun _ => .pure _) state
  · exact (moving_collectContainer hinner).bind (fun _ => .pure _) state
  · exact (moving_collectContainer hinner).bind (fun _ => .pure _) state
  · exact (moving_collectContainer hinner).bind (fun _ => .pure _) state
  · exact (moving_collectLambda hinner context).bind (fun _ => .pure _) state
  · refine Moving.ite (.pure none) ?_ state
    exact (moving_collectConditional hinner context).bind fun _ => .pure _
  · exact moving_fail _ state
  · split
    · exact .refl
    · split
      · exact .refl
      · split
        · rename_i hdot
          rw [Bool.and_eq_true] at hdot
          exact .single (.split (htoken ▸ hdot.2))
        · exact Moving.ite (moving_operator.bind fun op => .pure _) (.pure none) state

theorem moving_collectItems (context : RunContext) (rounds : Nat) (found : List RunItem) :
    Moving noise (collectItems inner context rounds found) := by
  induction rounds generalizing found with
  | zero => exact moving_exhaust _
  | succ rounds ih =>
    refine (moving_nextItems hinner context _).bind fun answer => ?_
    cases answer with
    | some items => exact ih (items.reverse ++ found)
    | none => exact .pure _

end Items

/-! ## Runs -/

theorem moving_collectRun (depth : Nat) (context : RunContext) :
    Moving noise (collectRun depth context) := by
  induction depth generalizing context with
  | zero => exact moving_position.bind fun start => moving_exhaust _
  | succ depth ih =>
    refine moving_position.bind fun start => Moving.get.bind fun state => ?_
    exact (moving_collectItems ih context _ []).bind fun items => .pure _

theorem moving_run (context : RunContext) : Moving noise (Parse.run context) :=
  Moving.get.bind fun state => moving_collectRun state.limit context

end Equational

import Equational.Proofs.Run.LegibleItems
import Equational.Proofs.Run.ReadInside

/-!
# Full parentheses

What a run is resolved to can be written with all its parentheses, and is resolved to the same
expression then, wherever it stands.  Parentheses leave no choice to precedence, and every form that
an operator has in them is told apart from the others.
-/

namespace Equational

open Cursor Grammar

variable {table : OperatorTable} {source : List Token} {e : Expr} {faces : List Face}

theorem legible_of_run (htable : table.HasNoPostfix) {state final : ParseState}
    (hstate : state.Reachable) {context : RunContext} {run : Run}
    (hrun : Parse.run context state = .ok run final) (huntyped : run.isUntyped)
    (hresolve : run.resolve table = .ok e) : e.Legible table state.cursor.ahead := by
  have hsound := hstate.isSound
  obtain ⟨after, hcollects, -⟩ :=
    ((follows_run context hsound.isEnded).ok_iff state rfl hsound.weight_le run final).mp hrun
  have hbounded : state.cursor.Bounded state.cursor.ahead state.cursor.weight :=
    ⟨hsound.isEnded, Nat.le_refl _, hsound.isProper.comesFrom (List.nil_append _).symm⟩
  exact Run.legible_resolve htable (hcollects.legible htable hbounded) huntyped hresolve

/-- What writes an expression in parentheses is a run of a single atom. -/
theorem Parenthesized.exists_run (htable : table.HasNoPostfix)
    (h : Parenthesized table source .inside e faces) {tokens : List Token}
    (htokens : tokens.map Token.face = Bracket.paren.enclosed faces) (errors : DiagnosticMap)
    (context : RunContext) :
    ∃ atom span final e',
      Parse.run context (.ofTokens tokens errors) = .ok ⟨[.atom atom], span⟩ final ∧
      final.hasTokens = false ∧ (Run.mk [.atom atom] span).resolve table = .ok e' ∧
      Alike e e' := by
  have hreads : ReadsInside table e faces := h.reads htable
  exact readsAlone_of_takesOperand hreads.operand htokens errors

/-! ## Results -/

theorem parenthesized_round_trip {headers : List Header}
    (htable : OperatorTable.initial.declareAll headers = .ok table) {state final : ParseState}
    (hstate : state.Reachable) {context : RunContext} {run : Run}
    (hrun : Parse.run context state = .ok run final) (huntyped : run.isUntyped)
    (hresolve : run.resolve table = .ok e) :
    (∃ faces, Parenthesized table state.cursor.ahead .inside e faces) ∧
      ∀ faces, Parenthesized table state.cursor.ahead .inside e faces →
        ∀ tokens : List Token, tokens.map Token.face = Bracket.paren.enclosed faces →
        ∀ errors context, ∃ atom span final e',
          Parse.run context (.ofTokens tokens errors) = .ok ⟨[.atom atom], span⟩ final ∧
          final.hasTokens = false ∧ (Run.mk [.atom atom] span).resolve table = .ok e' ∧
          Alike e e' := by
  have htable := OperatorTable.hasNoPostfix_initial.declareAll htable
  refine ⟨legible_of_run htable hstate hrun huntyped hresolve, ?_⟩
  exact fun faces h tokens htokens errors context => h.exists_run htable htokens errors context

def resolvedText? (table : OperatorTable) (lexed : Lexed) : Option String :=
  match Parse.run {} (.ofTokens lexed.tokens lexed.errors) with
  | .error _ _ => none
  | .ok run _ => if run.isUntyped then (run.resolve table).toOption.map Expr.text else none

/-- Operators of two words and in words, a lambda whose parameters have a type, an operator by
itself, and one that waits for an operand. -/
def deepText : String :=
  "if a and then b then \\X:T y. not X div 2 else [(or else), f (- y) (x div) | var z]"

def deepTree : String :=
  "(if (and then a b) (lambda [X:T y] (div (pre not X) 2)) " ++
    "(list (op or else) (app (app f (pre - y)) (section x div _)) | (var z)))"

theorem deepText_round_trip :
    ∃ lexed run final e faces, Lexed.ofSource deepText = .ok lexed ∧
      Parse.run {} (.ofTokens lexed.tokens lexed.errors) = .ok run final ∧ run.isUntyped ∧
      run.resolve .initial = .ok e ∧
      e.text = deepTree ∧
      Parenthesized .initial (ParseState.ofTokens lexed.tokens lexed.errors).cursor.ahead .inside e
        faces ∧
      ∀ tokens : List Token, tokens.map Token.face = Bracket.paren.enclosed faces →
        ∀ errors context, ∃ atom span final e',
          Parse.run context (.ofTokens tokens errors) = .ok ⟨[.atom atom], span⟩ final ∧
          final.hasTokens = false ∧ (Run.mk [.atom atom] span).resolve .initial = .ok e' ∧
          Alike e e' := by
  obtain ⟨lexed, hlexed, htext⟩ := exists_of_map_eq_ok (f := resolvedText? .initial)
    (by decide +kernel : (Lexed.ofSource deepText).map _ = .ok (some deepTree))
  unfold resolvedText? at htext
  split at htext
  · cases htext
  · rename_i run final hrun
    split at htext
    · rename_i huntyped
      obtain ⟨e, hvalue, htext⟩ := Option.map_eq_some_iff.mp htext
      have hresolve : run.resolve .initial = .ok e := by
        cases hresult : run.resolve .initial <;> rw [hresult] at hvalue <;> cases hvalue
        rfl
      have htable : OperatorTable.initial.declareAll [] = .ok .initial := rfl
      obtain ⟨⟨faces, hfaces⟩, hback⟩ :=
        parenthesized_round_trip htable (.start hlexed) hrun huntyped hresolve
      exact ⟨lexed, run, final, e, faces, hlexed, hrun, huntyped, hresolve, htext, hfaces,
        hback faces hfaces⟩
    · cases htext

example :
    (Lexed.ofSource ("(if ((a) and then (b)) then \\X:T y. ((not (X)) div (2)) " ++
        "else [(or else), (((f) (-(y))) ((x) div)) | var z])")).map (resolvedText? .initial) =
      .ok (some deepTree) := by
  decide +kernel

end Equational

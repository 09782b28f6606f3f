import Equational.Proofs.Expr.Reading

/-!
# From items to expressions

The items of a run are arranged as an expression in which each operator has the items beside it as
its operands.  Where a lambda can only be the last item, no left operand has a lambda in it, and no
function that is written in front of its argument has one either; one in parentheses is an item of
its own.
-/

namespace Equational

/-! ## Lambdas among items -/

def RunItem.isLambda : RunItem → Bool
  | .atom (.lambda _ _ _) => true
  | _ => false

def Lambdaless (items : List RunItem) : Prop := ∀ item ∈ items, item.isLambda = false

/-- Only the last item may be a lambda. -/
def LambdaLast (items : List RunItem) : Prop := Lambdaless items.dropLast

namespace LambdaLast

variable {front back : List RunItem}

theorem nil : LambdaLast [] := nofun

theorem singleton (item : RunItem) : LambdaLast [item] := nofun

theorem front_lambdaless (h : LambdaLast (front ++ back)) (hne : back ≠ []) : Lambdaless front := by
  rw [LambdaLast, List.dropLast_append_of_ne_nil hne] at h
  exact fun item hitem => h item (List.mem_append_left _ hitem)

theorem right (h : LambdaLast (front ++ back)) : LambdaLast back := by
  by_cases hne : back = []
  · subst hne
    exact nil
  · rw [LambdaLast, List.dropLast_append_of_ne_nil hne] at h
    exact fun item hitem => h item (List.mem_append_right _ hitem)

theorem left (h : LambdaLast (front ++ back)) : LambdaLast front := by
  by_cases hne : back = []
  · subst hne
    rwa [List.append_nil] at h
  · exact fun item hitem => h.front_lambdaless hne item (List.dropLast_subset _ hitem)

theorem of_infix {stretch items : List RunItem} (h : LambdaLast items)
    (hstretch : stretch <:+: items) : LambdaLast stretch := by
  obtain ⟨front, back, rfl⟩ := hstretch
  exact h.left.right

theorem append (hfront : Lambdaless front) (hback : LambdaLast back) :
    LambdaLast (front ++ back) := by
  by_cases hne : back = []
  · subst hne
    rw [List.append_nil]
    exact fun item hitem => hfront item (List.dropLast_subset _ hitem)
  · rw [LambdaLast, List.dropLast_append_of_ne_nil hne]
    exact fun item hitem => (List.mem_append.mp hitem).elim (hfront item) (hback item)

end LambdaLast

/-! ## Arrangements -/

/-- How items are put together, as leaves and operators from left to right, to an expression.  No
lambda is among the items of a left operand, and none among those of a function. -/
inductive Arranged (table : OperatorTable) : List RunItem → Expr → Prop where
  | operand {item : RunItem} {e : Expr} (hitem : item.read table = .ok (.operand e)) :
    Arranged table [item] e
  | prefixed {item : RunItem} {items : List RunItem} {op : OperatorUse} {e : Expr}
    (hitem : item.read table = .ok (.operator op)) (h : Arranged table items e) :
    Arranged table (item :: items) (prefixNode op e)
  | conditional {item : RunItem} {items : List RunItem} {condition : Expr}
    {thenBranch : Option Expr} {span : Span} {e : Expr}
    (hitem : item.read table = .ok (.conditional condition thenBranch span))
    (h : Arranged table items e) :
    Arranged table (item :: items) (conditionalNode condition thenBranch span e)
  | binary {item : RunItem} {front behind : List RunItem} {op : OperatorUse} {left right : Expr}
    (hleft : Arranged table front left) (hfront : Lambdaless front)
    (hitem : item.read table = .ok (.operator op)) (hright : Arranged table behind right) :
    Arranged table (front ++ item :: behind) (binaryNode op left right)
  | application {front behind : List RunItem} {function argument : Expr}
    (hfunction : Arranged table front function) (hfront : Lambdaless front)
    (hargument : Arranged table behind argument) :
    Arranged table (front ++ behind)
      (.apply function argument (function.span.through argument.span))
  | trailing {item : RunItem} {front : List RunItem} {op : OperatorUse} {e : Expr}
    (h : Arranged table front e) (hfront : Lambdaless front)
    (hitem : item.read table = .ok (.operator op)) :
    Arranged table (front ++ [item]) (.unary op .behind e (e.span.through op.span))

/-! ## Items and parts -/

variable {table : OperatorTable}

inductive StandsFor (table : OperatorTable) : List RunItem → Part → Prop where
  | operand {item : RunItem} {e : Expr} (h : item.read table = .ok (.operand e)) :
    StandsFor table [item] (.operand e)
  | prefixed {item : RunItem} {op : OperatorUse} (h : item.read table = .ok (.operator op))
    (entry : OperatorEntry) : StandsFor table [item] (.leading (.prefixed op entry))
  | conditional {item : RunItem} {condition : Expr} {thenBranch : Option Expr} {span : Span}
    (h : item.read table = .ok (.conditional condition thenBranch span)) :
    StandsFor table [item] (.leading (.conditional condition thenBranch span))
  | binary {item : RunItem} {op : OperatorUse} (h : item.read table = .ok (.operator op))
    (entry : OperatorEntry) : StandsFor table [item] (.joining (.binary op entry))
  | application (span : Span) : StandsFor table [] (.joining (.application span))
  | trailing {item : RunItem} {op : OperatorUse} (h : item.read table = .ok (.operator op))
    (entry : OperatorEntry) : StandsFor table [item] (.trailing ⟨op, entry⟩)

inductive StandForAll (table : OperatorTable) : List RunItem → List Part → Prop where
  | nil : StandForAll table [] []
  | cons {items rest : List RunItem} {part : Part} {parts : List Part}
    (h : StandsFor table items part) (hrest : StandForAll table rest parts) :
    StandForAll table (items ++ rest) (part :: parts)

namespace StandForAll

variable {items rest : List RunItem} {first second parts : List Part}

theorem single {part : Part} (h : StandsFor table items part) : StandForAll table items [part] :=
  List.append_nil items ▸ .cons h .nil

theorem append (h : StandForAll table items first) (hrest : StandForAll table rest second) :
    StandForAll table (items ++ rest) (first ++ second) := by
  induction h with
  | nil => exact hrest
  | cons hpart _ ih =>
    rw [List.append_assoc]
    exact .cons hpart ih

theorem split (h : StandForAll table items (first ++ second)) :
    ∃ front back, items = front ++ back ∧ StandForAll table front first ∧
      StandForAll table back second := by
  induction first generalizing items with
  | nil => exact ⟨[], items, rfl, .nil, h⟩
  | cons part parts ih =>
    obtain _ | ⟨hpart, hrest⟩ := h
    obtain ⟨front, back, rfl, hfront, hback⟩ := ih hrest
    exact ⟨_, back, (List.append_assoc _ _ _).symm, .cons hpart hfront, hback⟩

theorem argumentParts (expectsOperand : Bool) (span : Span) :
    StandForAll table [] (argumentParts expectsOperand span) := by
  cases expectsOperand with
  | true => exact .nil
  | false => exact single (.application span)

private theorem of_step {item : RunItem} {step : Step} {expectsOperand isLast next : Bool}
    (hread : item.read table = .ok step)
    (h : step.parts? table expectsOperand isLast = some (parts, next)) :
    StandForAll table [item] parts := by
  cases step with
  | operand value =>
    cases h
    exact (argumentParts _ _).append (single (.operand hread))
  | conditional condition thenBranch span =>
    cases h
    exact (argumentParts _ _).append (single (.conditional hread))
  | operator op =>
    rw [Step.parts?] at h
    split at h
    · obtain ⟨entry, -, hparts⟩ := Option.map_eq_some_iff.mp h
      cases hparts
      exact single (.prefixed hread entry)
    · rcases followingParts?_cases h with
        ⟨entry, -, rfl, -⟩ | ⟨entry, -, rfl, -⟩ | ⟨entry, -, rfl, -⟩
      · exact single (.trailing hread entry)
      · exact single (.binary hread entry)
      · exact (single (.application op.span)).append (single (.prefixed hread entry))

theorem of_partsOf {steps : List Step} {expectsOperand : Bool}
    (hread : readItems table items = steps.map .ok)
    (h : partsOf? table expectsOperand steps = some parts) : StandForAll table items parts := by
  induction steps generalizing items parts expectsOperand with
  | nil =>
    rw [readItems_eq_map, List.map_nil, List.map_eq_nil_iff] at hread
    subst hread
    rw [partsOf?] at h
    split at h <;> cases h
    exact .nil
  | cons step rest ih =>
    cases items with
    | nil => cases hread
    | cons item others =>
      rw [readItems, List.map_cons, List.cons.injEq] at hread
      obtain ⟨first, next, behind, hfirst, hbehind, rfl⟩ := partsOf?_cons_eq_some_iff.mp h
      exact (of_step hread.1 hfirst).append (ih hread.2 hbehind)

theorem ne_nil {g : Grouping} (h : StandForAll table items g.parts) : items ≠ [] := by
  induction g generalizing items with
  | leaf value =>
    obtain _ | ⟨hpart, -⟩ := h
    cases hpart
    exact List.cons_ne_nil _ _
  | leading operator operand ih =>
    obtain _ | ⟨-, hrest⟩ := h
    exact List.append_ne_nil_of_right_ne_nil _ (ih hrest)
  | joining operator left right ihLeft _ =>
    obtain ⟨front, back, rfl, hfront, -⟩ := split h
    exact List.append_ne_nil_of_left_ne_nil (ihLeft hfront) _
  | trailing operator operand ih =>
    obtain ⟨front, back, rfl, hfront, -⟩ := split h
    exact List.append_ne_nil_of_left_ne_nil (ih hfront) _

/-! ## Groupings and arrangements -/

theorem arranged {g : Grouping} (h : StandForAll table items g.parts) (hlast : LambdaLast items) :
    Arranged table items g.expr := by
  induction g generalizing items with
  | leaf value =>
    obtain _ | ⟨⟨hitem⟩, ⟨⟩⟩ := h
    exact .operand hitem
  | leading operator operand ih =>
    obtain _ | ⟨hpart, hrest⟩ := h
    have hoperand := ih hrest hlast.right
    cases hpart with
    | prefixed hitem entry => exact .prefixed hitem hoperand
    | conditional hitem => exact .conditional hitem hoperand
  | joining operator left right ihLeft ihRight =>
    obtain ⟨front, back, rfl, hfront, hback⟩ := split h
    obtain _ | @⟨items, rest, _, _, hpart, hrest⟩ := hback
    have hne : items ++ rest ≠ [] := List.append_ne_nil_of_right_ne_nil _ hrest.ne_nil
    have hleft := ihLeft hfront hlast.left
    have hright := ihRight hrest hlast.right.right
    have hlambdaless := hlast.front_lambdaless hne
    cases hpart with
    | binary hitem entry => exact .binary hleft hlambdaless hitem hright
    | application span => exact .application hleft hlambdaless hright
  | trailing operator operand ih =>
    obtain ⟨front, back, rfl, hfront, hback⟩ := split h
    obtain _ | ⟨hpart, ⟨⟩⟩ := hback
    cases hpart with
    | trailing hitem entry =>
      have hlambdaless := hlast.front_lambdaless (List.cons_ne_nil _ _)
      exact .trailing (ih hfront hlast.left) hlambdaless hitem

end StandForAll

/-- A run in which only the last item may be a lambda has none in a left operand. -/
theorem Run.arranged_of_resolve {items : List RunItem} {span : Span} {e : Expr}
    (hlast : LambdaLast items) (h : (Run.mk items span).resolve table = .ok e) :
    Arranged table items e := by
  rw [Run.resolve] at h
  obtain ⟨steps, g, hread, hparts, rfl⟩ := grouping_of_assemble h
  exact (StandForAll.of_partsOf (mapM_eq_ok hread) hparts).arranged hlast

end Equational

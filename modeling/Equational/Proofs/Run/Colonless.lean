import Equational.Proofs.Expr.Group
import Equational.Proofs.Run.Onward

/-!
# Colons within reach

A colon that ends a run ends it only where the run itself would take the colon: at its own items, in
the bodies of its lambdas and in the branches of its conditionals.  Brackets, parameters and
conditions read in contexts of their own.  So a run without a type behind a colon there is collected
where a colon ends it as it is elsewhere, and any other run is cut off in front of a colon.
-/

namespace Equational

open Cursor

mutual

/-- Outside of brackets, parameters and conditions no variable has a type. -/
def Run.isColonless : Run → Bool
  | ⟨items, _⟩ => itemsColonless items

def itemsColonless : List RunItem → Bool
  | [] => true
  | item :: rest => item.isColonless && itemsColonless rest

def RunItem.isColonless : RunItem → Bool
  | .atom a => a.isColonless
  | .operator _ => true
  | .conditional _ branch _ => branchColonless branch

def branchColonless : Option Run → Bool
  | none => true
  | some run => run.isColonless

def Atom.isColonless : Atom → Bool
  | .typed _ _ _ => false
  | .lambda _ body _ => body.isColonless
  | .identifier _ _ | .declared _ _ | .number _ _ | .string _ _ | .container _ _ _
  | .operatorLiteral _ _ | .partialApply _ _ _ _ => true

end

theorem itemsColonless_append (first second : List RunItem) :
    itemsColonless (first ++ second) = (itemsColonless first && itemsColonless second) := by
  induction first with
  | nil => simp [itemsColonless]
  | cons item rest ih => simp [itemsColonless, ih, Bool.and_assoc]

theorem itemsColonless_atom (a : Atom) : itemsColonless [.atom a] = a.isColonless := by
  simp [itemsColonless, RunItem.isColonless]

theorem Run.isColonless_eq (run : Run) : run.isColonless = itemsColonless run.items := by
  obtain ⟨items, span⟩ := run
  rw [isColonless]
  rfl

theorem isColonless_closedContainer (bracket : Bracket) (body : ContainerBody) (span : Span) :
    (closedContainer bracket body span).isColonless = true := by
  rcases closedContainer_cases bracket body span with h | ⟨op, h⟩ | ⟨op, operand, hole, h⟩ <;>
    rw [h] <;> rfl

namespace Grammar

variable {depth : Nat} {context : RunContext} {started : Bool} {cursor after : Cursor}
  {items : List RunItem} {run : Run}

/-! ## No colon within reach -/

theorem Stop.withColon (h : Stop context started cursor after) :
    Stop context.withColon started cursor after := by
  cases h with
  | guard hkind hstop => exact .guard hkind hstop
  | assignment hkind hstop => exact .assignment hkind hstop
  | dot hkind hstop => exact .dot hkind hstop
  | glued hdot hstop => exact .glued hdot hstop
  | other hkind => exact .other hkind

theorem typable_withColon (token : Token) : typable context.withColon token = false := by
  simp [typable, RunContext.withColon]

theorem Named.withColon {atom : Atom} (hcolonless : atom.isColonless)
    (h : Named context cursor atom after) : Named context.withColon cursor atom after := by
  cases h with
  | typed => cases hcolonless
  | plain htoken => exact .plain htoken (by simp [typable_withColon])

section Parts

variable (hinner : ∀ {context cursor run after}, run.isColonless →
  Collects depth context cursor run after → Collects depth context.withColon cursor run after)

include hinner

theorem Conditional.withColon (hcolonless : itemsColonless items)
    (h : Conditional (Collects depth) context cursor items after) :
    Conditional (Collects depth) context.withColon cursor items after := by
  cases h with
  | withElse hopening hcondition hjoining hthen hbranch hclosing helse =>
    have hbranchColonless : Run.isColonless _ := ((Bool.and_eq_true _ _).mp hcolonless).1
    exact .withElse hopening hcondition hjoining hthen (hinner hbranchColonless hbranch) hclosing
      helse
  | withoutElse hopening hcondition hjoining hthen hbranch helse =>
    rw [itemsColonless, RunItem.isColonless, branchColonless, Bool.true_and,
      ← Run.isColonless_eq] at hcolonless
    exact .withoutElse hopening hcondition hjoining hthen (hinner hcolonless hbranch) helse

theorem Next.withColon (hcolonless : itemsColonless items)
    (h : Next (Collects depth) context started cursor items after) :
    Next (Collects depth) context.withColon started cursor items after := by
  refine h.recast ?_ ?_ ?_
  · rintro atom rfl hnamed
    exact hnamed.withColon (itemsColonless_atom atom ▸ hcolonless)
  · rintro parameters body span third rfl hbody
    rw [itemsColonless_atom] at hcolonless
    exact hinner hcolonless hbody
  · exact fun hguard hconditional => ⟨hguard, hconditional.withColon hinner hcolonless⟩

theorem Items.withColon (hcolonless : itemsColonless items)
    (h : Items (Collects depth) context started cursor items after) :
    Items (Collects depth) context.withColon started cursor items after := by
  induction h with
  | stop h => exact .stop (answer_of_stop _ _ _ (stop_of_answer _ _ _ h).withColon)
  | next h _ ih =>
    rw [itemsColonless_append, Bool.and_eq_true] at hcolonless
    have hnext := (next_of_answer _ _ _ h).withColon hinner hcolonless.1
    exact .next (answer_of_next _ _ _ hnext (halts_of_answer _ context _ h)) (ih hcolonless.2)

end Parts

theorem Collects.withColon (hcolonless : run.isColonless)
    (h : Collects depth context cursor run after) :
    Collects depth context.withColon cursor run after := by
  induction depth generalizing context cursor run after with
  | zero => exact h.elim
  | succ depth ih =>
    obtain ⟨items, hitems, rfl⟩ := h
    rw [Run.isColonless_eq] at hcolonless
    exact ⟨items, hitems.withColon ih hcolonless, rfl⟩

/-! ## A colon within reach -/

/-- In front of a colon, and of more, that is passed on the way to the other cursor. -/
inductive Cut : Cursor → Cursor → Prop where
  | intro {middle second after : Cursor} {colon : Token} (htakes : middle.Takes colon second)
    (hkind : colon.kind = .mark .colon) (hweight : after.weight < second.weight) : Cut middle after

namespace Cut

variable {middle after later : Cursor}

theorem kind_eq (h : Cut middle after) : middle.current.kind = .mark .colon := by
  cases h with
  | intro htakes hkind => rw [htakes.current_eq, hkind]

theorem of_le (h : Cut middle after) (hlater : later.weight ≤ after.weight) : Cut middle later := by
  cases h with
  | intro htakes hkind hweight => exact .intro htakes hkind (Nat.lt_of_le_of_lt hlater hweight)

theorem settled (h : Cut middle after) {rest : List Token}
    (hrest : totalWeight rest ≤ after.weight) : Settled rest middle := by
  cases h with
  | intro htakes _ hweight =>
    have hlt := Nat.lt_of_le_of_lt hrest hweight
    exact ⟨Nat.lt_trans hlt htakes.weight_lt, fun _ => htakes.advance_eq ▸ hlt⟩

end Cut

section Parts

variable (hinner : ∀ {context cursor run after}, run.isColonless = false →
  Collects depth context cursor run after →
  ∃ run' middle, Collects depth context.withColon cursor run' middle ∧ Cut middle after)

theorem Named.cut {atom : Atom} (hcolon : atom.isColonless = false)
    (h : Named context cursor atom after) :
    ∃ atom' middle, Named context.withColon cursor atom' middle ∧ Cut middle after := by
  cases h with
  | typed htoken _ hmark hkind htype =>
    exact ⟨_, _, .plain htoken (by simp [typable_withColon]), .intro hmark hkind htype.weight_lt⟩
  | plain => cases hcolon

include hinner

theorem Conditional.cut (hcolon : itemsColonless items = false)
    (h : Conditional (Collects depth) context cursor items after) :
    ∃ items' middle, Conditional (Collects depth) context.withColon cursor items' middle ∧
      Cut middle after := by
  have helse {middle : Cursor} (hcut : Cut middle after) :
      middle.current.kind ≠ .word .elseWord := by
    rw [hcut.kind_eq]
    nofun
  cases h with
  | withElse hopening hcondition hjoining hthen hbranch hclosing =>
    obtain ⟨branch', middle, hbranch', hcut⟩ :=
      hinner (by simpa [itemsColonless, RunItem.isColonless, branchColonless] using hcolon) hbranch
    have hcut' := hcut.of_le (Nat.le_of_lt hclosing.weight_lt)
    exact ⟨_, middle, .withoutElse hopening hcondition hjoining hthen hbranch' (helse hcut'), hcut'⟩
  | withoutElse hopening hcondition hjoining hthen hbranch =>
    rw [itemsColonless, RunItem.isColonless, branchColonless, Bool.true_and,
      ← Run.isColonless_eq] at hcolon
    obtain ⟨branch', middle, hbranch', hcut⟩ := hinner hcolon hbranch
    exact ⟨_, middle, .withoutElse hopening hcondition hjoining hthen hbranch' (helse hcut), hcut⟩

theorem Next.cut (hcolon : itemsColonless items = false)
    (h : Next (Collects depth) context started cursor items after) :
    ∃ items' middle, Next (Collects depth) context.withColon started cursor items' middle ∧
      Cut middle after := by
  cases h with
  | named hkind h =>
    rw [itemsColonless_atom] at hcolon
    obtain ⟨atom', middle, h', hcut⟩ := h.cut hcolon
    exact ⟨_, middle, .named hkind h', hcut⟩
  | container hkind h =>
    rw [itemsColonless_atom] at hcolon
    cases h with
    | empty => cases hcolon
    | filled => simp [isColonless_closedContainer] at hcolon
  | lambda hkind h =>
    rw [itemsColonless_atom] at hcolon
    cases h with
    | intro hbackslash hparameters hdot hmark hbody =>
      obtain ⟨body', middle, hbody', hcut⟩ := hinner hcolon hbody
      exact ⟨_, middle, .lambda hkind (.intro hbackslash hparameters hdot hmark hbody'), hcut⟩
  | conditional hkind hguard h =>
    obtain ⟨items', middle, h', hcut⟩ := h.cut hinner hcolon
    exact ⟨items', middle, .conditional hkind hguard h', hcut⟩
  | _ => cases hcolon

theorem Items.cut (hcolon : itemsColonless items = false)
    (h : Items (Collects depth) context started cursor items after) :
    ∃ items' middle, Items (Collects depth) context.withColon started cursor items' middle ∧
      Cut middle after := by
  induction h with
  | stop => cases hcolon
  | @next started cursor middle after items more h hmore ih =>
    have hnext := next_of_answer _ _ _ h
    have hhalts := halts_of_answer _ _ _ h
    -- The run is cut at the first colon, here or further on.
    cases hitems : itemsColonless items with
    | true =>
      rw [itemsColonless_append, hitems, Bool.true_and] at hcolon
      obtain ⟨more', last, hmore', hcut⟩ := ih hcolon
      have hnext' := hnext.withColon Collects.withColon hitems
      exact ⟨_, last, .next (answer_of_next _ _ _ hnext' hhalts) hmore', hcut⟩
    | false =>
      obtain ⟨items', last, hnext', hcut⟩ := hnext.cut hinner hitems
      have hstop : Stop context.withColon true last last := .other (by rw [hcut.kind_eq]; rfl)
      exact ⟨_, last, .next (answer_of_next _ _ _ hnext' hhalts)
        (.stop (answer_of_stop _ _ _ hstop)), hcut.of_le (hmore.writes Collects.writes).weight_le⟩

end Parts

theorem Collects.cut (hcolon : run.isColonless = false)
    (h : Collects depth context cursor run after) :
    ∃ run' middle, Collects depth context.withColon cursor run' middle ∧ Cut middle after := by
  induction depth generalizing context cursor run after with
  | zero => exact h.elim
  | succ depth ih =>
    obtain ⟨items, hitems, rfl⟩ := h
    rw [Run.isColonless_eq] at hcolon
    obtain ⟨items', middle, hitems', hcut⟩ := hitems.cut ih hcolon
    exact ⟨_, middle, ⟨items', hitems', rfl⟩, hcut⟩

end Grammar

end Equational

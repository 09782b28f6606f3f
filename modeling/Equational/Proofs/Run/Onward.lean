import Equational.Proofs.Grouping.Conditional
import Equational.Proofs.Run.Alike

/-!
# Runs with something else behind them

A run that has been collected up to the end of the input is collected as well with something else
behind it, and in a context that gives colons and conditionals another meaning, as long as there are
none outside of its brackets.  In front of a word it must be one that can be resolved, since an
operator at its end may be taken together with that word.  Other tokens that begin no item cut every
run off as the end of the input does.
-/

namespace Equational

open Cursor

/-! ## Flat runs -/

mutual

/-- Outside of brackets there is no conditional and no type behind a colon. -/
def Run.isFlat : Run → Bool
  | ⟨items, _⟩ => itemsFlat items

def itemsFlat : List RunItem → Bool
  | [] => true
  | item :: rest => item.isFlat && itemsFlat rest

def RunItem.isFlat : RunItem → Bool
  | .atom a => a.isFlat
  | .operator _ => true
  | .conditional _ _ _ => false

def Atom.isFlat : Atom → Bool
  | .typed _ _ _ => false
  | .lambda parameters body _ => itemsFlat parameters && body.isFlat
  | .identifier _ _ | .declared _ _ | .number _ _ | .string _ _ | .container _ _ _
  | .operatorLiteral _ _ | .partialApply _ _ _ _ => true

end

theorem itemsFlat_append (first second : List RunItem) :
    itemsFlat (first ++ second) = (itemsFlat first && itemsFlat second) := by
  induction first with
  | nil => simp [itemsFlat]
  | cons item rest ih => simp [itemsFlat, ih, Bool.and_assoc]

theorem Run.isFlat_eq (run : Run) : run.isFlat = itemsFlat run.items := by
  obtain ⟨items, span⟩ := run
  rw [isFlat]
  rfl

namespace Grammar

/-! ## Other contexts -/

/-- The same operators end a run, and in the first context nothing else does. -/
structure Relaxes (context other : RunContext) : Prop where
  colon : context.stopAtColon = false
  guard : context.stopAtGuard = false
  assignment : other.stopAtAssignment = context.stopAtAssignment
  dot : other.stopAtDot = context.stopAtDot

namespace Relaxes

theorem plain : Relaxes {} {} := ⟨rfl, rfl, rfl, rfl⟩

theorem bracketed : Relaxes {} (.withColon {}) := ⟨rfl, rfl, rfl, rfl⟩

theorem guarded : Relaxes {} .guarded := ⟨rfl, rfl, rfl, rfl⟩

end Relaxes

theorem Next.recast {context other : RunContext} {cursor after : Cursor} {depth : Nat}
    {started started' : Bool} {items : List RunItem}
    (h : Next (Collects depth) context started cursor items after)
    (hnamed : ∀ {atom : Atom}, items = [.atom atom] → Named context cursor atom after →
      Named other cursor atom after)
    (hlambda : ∀ {parameters : List RunItem} {body : Run} {span : Span} {third : Cursor},
      items = [.atom (.lambda parameters body span)] →
      Collects depth { context with stopAtDot := false } third body after →
      Collects depth { other with stopAtDot := false } third body after)
    (hconditional : ¬(context.stopAtGuard && started) = true →
      Conditional (Collects depth) context cursor items after →
      ¬(other.stopAtGuard && started') = true ∧
        Conditional (Collects depth) other cursor items after) :
    Next (Collects depth) other started' cursor items after := by
  cases h with
  | named hkind h => exact .named hkind (hnamed rfl h)
  | declared htoken hkind hname hidentifier => exact .declared htoken hkind hname hidentifier
  | number htoken hkind hliteral => exact .number htoken hkind hliteral
  | string htoken hkind => exact .string htoken hkind
  | container hkind h => exact .container hkind h
  | lambda hkind h =>
    cases h with
    | intro hbackslash hparameters hdot hmark hbody =>
      exact .lambda hkind (.intro hbackslash hparameters hdot hmark (hlambda rfl hbody))
  | conditional hkind hguard h =>
    obtain ⟨hguard', h'⟩ := hconditional hguard h
    exact .conditional hkind hguard' h'
  | operator hkind h => exact .operator hkind h

section Contexts

variable {context other : RunContext} (hrelaxes : Relaxes context other) {cursor after : Cursor}

include hrelaxes

theorem Relaxes.halts_eq (token : Token) : halts other token = halts context token := by
  simp only [halts, hrelaxes.assignment, hrelaxes.dot]

theorem Relaxes.inside :
    Relaxes { context with stopAtDot := false } { other with stopAtDot := false } :=
  ⟨hrelaxes.colon, hrelaxes.guard, hrelaxes.assignment, rfl⟩

theorem Stop.relaxed {started started' : Bool} (h : Stop context started cursor after) :
    Stop other started' cursor after := by
  cases h with
  | guard _ hstop => simp [hrelaxes.guard] at hstop
  | assignment hkind hstop => exact .assignment hkind (hrelaxes.assignment ▸ hstop)
  | dot hkind hstop => exact .dot hkind (hrelaxes.dot ▸ hstop)
  | glued hdot hstop => exact .glued hdot (hrelaxes.dot ▸ hstop)
  | other hkind => exact .other hkind

theorem Named.relaxed {atom : Atom} (hflat : atom.isFlat) (h : Named context cursor atom after) :
    Named other cursor atom after := by
  cases h with
  | typed => cases hflat
  | plain htoken hplain =>
    refine .plain htoken fun hother => hplain ⟨?_, hother.2⟩
    have htypable := hother.1
    simp only [typable, Bool.and_eq_true] at htypable ⊢
    exact ⟨htypable.1, by rw [hrelaxes.colon]; rfl⟩

section Parts

variable {depth : Nat}
  (hinner : ∀ {context other cursor run after}, Relaxes context other → run.isFlat →
    Collects depth context cursor run after → Collects depth other cursor run after)

include hinner

theorem Next.relaxed {started started' : Bool} {items : List RunItem} (hflat : itemsFlat items)
    (h : Next (Collects depth) context started cursor items after) :
    Next (Collects depth) other started' cursor items after := by
  refine h.recast ?_ ?_ ?_
  · rintro atom rfl hnamed
    exact hnamed.relaxed hrelaxes (by simpa [itemsFlat, RunItem.isFlat] using hflat)
  · rintro parameters body span third rfl hbody
    simp only [itemsFlat, RunItem.isFlat, Atom.isFlat, Bool.and_eq_true] at hflat
    exact hinner hrelaxes.inside hflat.1.2 hbody
  · intro _ hconditional
    cases hconditional <;> cases hflat

theorem Items.relaxed {started started' : Bool} {items : List RunItem} (hflat : itemsFlat items)
    (h : Items (Collects depth) context started cursor items after) :
    Items (Collects depth) other started' cursor items after := by
  induction h generalizing started' with
  | stop h =>
    exact .stop (answer_of_stop _ _ _ ((stop_of_answer _ _ _ h).relaxed hrelaxes))
  | next h hrest ih =>
    rw [itemsFlat_append, Bool.and_eq_true] at hflat
    have hnext : Next (Collects depth) other started' _ _ _ :=
      (next_of_answer _ _ _ h).relaxed hrelaxes hinner hflat.1
    have hhalts := (hrelaxes.halts_eq _).trans (halts_of_answer _ _ _ h)
    exact .next (answer_of_next _ _ _ hnext hhalts) (ih hflat.2)

end Parts

end Contexts

theorem Collects.relaxed {depth : Nat} {context other : RunContext} {cursor after : Cursor}
    {run : Run} (hrelaxes : Relaxes context other) (hflat : run.isFlat)
    (h : Collects depth context cursor run after) : Collects depth other cursor run after := by
  induction depth generalizing context other cursor run after with
  | zero => exact h.elim
  | succ depth ih =>
    obtain ⟨items, hitems, rfl⟩ := h
    rw [Run.isFlat_eq] at hflat
    exact ⟨items, hitems.relaxed hrelaxes ih hflat, rfl⟩

/-! ## Another token behind -/

section Onward

variable {last follower : Token} {behind : List Token}

theorem Stop.eq_of_end (hlast : last.kind = .endOfInput) {context : RunContext} {started : Bool}
    {cursor after : Cursor} (h : Stop context started cursor after)
    (hahead : after.ahead = [last]) : cursor = after := by
  have hcurrent {cursor : Cursor} (hahead : cursor.ahead = [last]) :
      cursor.current.kind = .endOfInput := by
    obtain ⟨passed, ahead, errors⟩ := cursor
    subst hahead
    exact hlast
  cases h with
  | glued hdot =>
    have hkind := (kind_of_beginsWithDot hdot).1
    rcases cursor.split_cases 1 with hsplit | ⟨_, _, _, _, _, _, rfl, _, hsplit⟩
    · exact hsplit.symm
    · rw [hsplit] at hahead
      cases hahead
  | _ => rfl

theorem current_of_ahead {cursor : Cursor} {token : Token} {rest : List Token}
    (h : cursor.ahead = token :: rest) : cursor.current = token := by
  obtain ⟨passed, ahead, errors⟩ := cursor
  subst h
  rfl

/-- A token of this kind neither begins an item nor gives a type to what is in front of it. -/
structure Closes (kind : TokenKind) : Prop where
  begins : beginsItem kind = false
  colon : kind ≠ .mark .colon

theorem Items.carried {depth : Nat} {context : RunContext} {started : Bool} {items : List RunItem}
    {cursor cursor' after : Cursor} (hlast : last.kind = .endOfInput)
    (hbegins : beginsItem follower.kind = false) {P : List RunItem → Prop}
    (hrest : ∀ {items more}, P (items ++ more) → P more) (hitems : P items)
    (hahead : after.ahead = [last])
    (hfacing : Facing [last] (follower :: behind) cursor cursor')
    (h : Items (Collects depth) context started cursor items after)
    (hnext : ∀ {started items cursor cursor'}, P items →
      Next (Collects depth) context started cursor items after →
      Facing [last] (follower :: behind) cursor cursor' →
      Carries [last] (follower :: behind) (Next (Collects depth) context started) items after
        cursor') :
    Carries [last] (follower :: behind) (Items (Collects depth) context started) items after
      cursor' := by
  induction h generalizing cursor' with
  | stop h =>
    obtain rfl := (stop_of_answer _ _ _ h).eq_of_end hlast hahead
    rw [← current_of_ahead (hfacing.ahead_of_end hahead)] at hbegins
    exact ⟨[], cursor', .stop (answer_of_stop _ _ _ (.other hbegins)), .refl _, hfacing⟩
  | @next started cursor middle after items more h hmore ih =>
    have hfirst := next_of_answer _ _ _ h
    have hend : totalWeight [last] = after.weight := (congrArg totalWeight hahead).symm
    have hmoreWeight := (hmore.writes Collects.writes).weight_le
    -- One more item tells that no colon follows the first ones.
    have hcarried : Carries [last] (follower :: behind) (Next (Collects depth) context started)
        items middle cursor' := by
      cases hmore with
      | stop hstop =>
        obtain rfl := (stop_of_answer _ _ _ hstop).eq_of_end hlast hahead
        exact hnext (List.append_nil items ▸ hitems) hfirst hfacing
      | next hsecond hothers =>
        have hbehind := next_of_answer _ _ _ hsecond
        have hbegins := beginsItem_of_next _ _ _ hbehind
        have hcolon : middle.current.kind ≠ .mark .colon := by
          intro hkind
          rw [hkind] at hbegins
          cases hbegins
        have hweight :=
          Nat.lt_of_le_of_lt (hothers.writes Collects.writes).weight_le hbehind.weight_lt
        exact hfirst.within (transfers _ _ depth) hfacing (.of_kind_ne (hend ▸ hweight) hcolon)
    obtain ⟨items', middle', hfirst', hlike, hmiddle⟩ := hcarried
    obtain ⟨more', after', hmore', hlikes, hafter⟩ := ih (hrest hitems) hahead hmiddle hnext
    have hhalts := halts_of_answer _ _ _ h
    have hweight := Nat.lt_of_le_of_lt hmoreWeight hfirst.weight_lt
    rw [← halts_of_face (hfacing.current (hend ▸ hweight))] at hhalts
    exact ⟨_, after', .next (answer_of_next _ _ _ hfirst' hhalts) hmore', hlike.append hlikes,
      hafter⟩

/-! ## A word behind -/

section Follower

variable {table : OperatorTable} (htable : table.HasNoPostfix) (hlast : last.kind = .endOfInput)
  (hcloses : Closes follower.kind)

def Continues (table : OperatorTable) (last follower : Token) (behind : List Token) (depth : Nat) :
    Prop :=
  ∀ {context cursor run after cursor' e}, Collects depth context cursor run after → run.isFlat →
    run.resolve table = .ok e → after.ahead = [last] →
    Facing [last] (follower :: behind) cursor cursor' →
    Carries [last] (follower :: behind) (Collects depth context) run after cursor'

section Last

variable {context : RunContext} {cursor cursor' after : Cursor}
  (hfacing : Facing [last] (follower :: behind) cursor cursor') (hahead : after.ahead = [last])

include hcloses hfacing hahead

theorem Named.onward {atom : Atom} (hflat : atom.isFlat) (h : Named context cursor atom after) :
    Carries [last] (follower :: behind) (Named context) atom after cursor' := by
  cases h with
  | typed => cases hflat
  | plain htoken =>
    have hweight := Nat.le_of_eq (congrArg totalWeight hahead).symm
    obtain ⟨token', after', htoken', hface, hafter⟩ := hfacing.takes htoken hweight
    have hcurrent := current_of_ahead (hafter.ahead_of_end hahead)
    refine ⟨_, after', .plain htoken' fun h => hcloses.colon (hcurrent ▸ h.2.1), ?_, hafter⟩
    rw [identifier_of_face hface]
    rfl

theorem Next.onward {depth : Nat} (hinner : Continues table last follower behind depth)
    {started : Bool} {items : List RunItem} (hflat : itemsFlat items)
    (hfinished : Finished table items)
    (h : Next (Collects depth) context started cursor items after) :
    Carries [last] (follower :: behind) (Next (Collects depth) context started) items after
      cursor' := by
  have hweight := Nat.le_of_eq (congrArg totalWeight hahead).symm
  have hatom {atom : Atom} (hitems : items = [.atom atom]) : atom.isFlat := by
    simpa [hitems, itemsFlat, RunItem.isFlat] using hflat
  refine h.carried (transfers _ _ depth) hfacing hweight ?_ ?_ ?_ ?_
  · exact fun hitems hnamed => hnamed.onward hcloses hfacing hahead (hatom hitems)
  · intro atom hitems _ hlambda
    refine hlambda.carried (transfers _ _ depth) hfacing hweight fun heq hbody hbehind => ?_
    subst hitems heq
    have hbodyFlat : Run.isFlat _ := ((Bool.and_eq_true _ _).mp (hatom rfl)).2
    obtain ⟨e, he⟩ := hfinished.exists_resolve_body
    exact hinner hbody hbodyFlat he hahead hbehind
  · intro hconditional
    cases hconditional <;> cases hflat
  · rintro op rfl -
    exact absurd rfl (hfinished.getLast_ne op)

end Last

include hlast hcloses

theorem Items.onward {depth : Nat} (hinner : Continues table last follower behind depth)
    {context : RunContext} {started : Bool} {items : List RunItem} {cursor cursor' after : Cursor}
    (hflat : itemsFlat items) (hfinished : Finished table items) (hahead : after.ahead = [last])
    (hfacing : Facing [last] (follower :: behind) cursor cursor')
    (h : Items (Collects depth) context started cursor items after) :
    Carries [last] (follower :: behind) (Items (Collects depth) context started) items after
      cursor' := by
  have hfinished' := And.intro hflat hfinished
  refine h.carried hlast hcloses.begins (P := fun items => itemsFlat items ∧ Finished table items)
    ?_ hfinished' hahead hfacing ?_
  · rintro items more ⟨hflat, hfinished⟩
    rw [itemsFlat_append, Bool.and_eq_true] at hflat
    exact ⟨hflat.2, hfinished.of_append⟩
  · rintro started items cursor cursor' ⟨hflat, hfinished⟩ hnext hfacing
    exact hnext.onward hcloses hfacing hahead hinner hflat hfinished

include htable

theorem continues (depth : Nat) : Continues table last follower behind depth := by
  induction depth with
  | zero => exact fun h => h.elim
  | succ depth ih =>
    rintro context cursor _ after cursor' e ⟨items, hitems, rfl⟩ hflat hresolve hahead hfacing
    rw [Run.isFlat_eq] at hflat
    obtain ⟨-, hfinished⟩ := Run.finished_of_resolve htable hresolve
    obtain ⟨items', after', hitems', hlike, hafter⟩ :=
      hitems.onward hlast hcloses ih hflat hfinished hahead hfacing
    exact ⟨_, after', ⟨items', hitems', rfl⟩, hlike.ofItems _ _, hafter⟩

end Follower

/-! ## No word behind -/

/-- A token of this kind begins no item, and belongs to nothing that is in front of it. -/
structure Severs (context : RunContext) (kind : TokenKind) : Prop where
  begins : beginsItem kind = false
  colon : kind = .mark .colon → context.stopAtColon = true
  word (word : Keyword) : kind ≠ .word word

theorem Severs.inside {context : RunContext} {kind : TokenKind} (h : Severs context kind) :
    Severs { context with stopAtDot := false } kind := ⟨h.begins, h.colon, h.word⟩

section Severed

variable (hlast : last.kind = .endOfInput) {context : RunContext}
  (hsevers : Severs context follower.kind)

def Severable (last follower : Token) (behind : List Token) (depth : Nat) : Prop :=
  ∀ {context cursor run after cursor'}, Severs context follower.kind →
    Collects depth context cursor run after → after.ahead = [last] →
    Facing [last] (follower :: behind) cursor cursor' →
    Carries [last] (follower :: behind) (Collects depth context) run after cursor'

include hsevers

theorem Next.severed {depth : Nat} (hinner : Severable last follower behind depth)
    {started : Bool} {items : List RunItem} {cursor cursor' after : Cursor}
    (hahead : after.ahead = [last])
    (hfacing : Facing [last] (follower :: behind) cursor cursor')
    (h : Next (Collects depth) context started cursor items after) :
    Carries [last] (follower :: behind) (Next (Collects depth) context started) items after
      cursor' := by
  have hweight := Nat.le_of_eq (congrArg totalWeight hahead).symm
  have hkind {after' : Cursor} (hafter : Facing [last] (follower :: behind) after after') :
      after'.current.kind = follower.kind :=
    congrArg Token.kind (current_of_ahead (hafter.ahead_of_end hahead))
  refine h.carried (transfers _ _ depth) hfacing hweight ?_ ?_ ?_ ?_
  · refine fun _ hnamed => hnamed.carried hfacing hweight fun hafter _ htyped => ?_
    have hcolon := hsevers.colon (hkind hafter ▸ htyped.2.1)
    simp [typable, hcolon] at htyped
  · exact fun _ _ hlambda => hlambda.carried (transfers _ _ depth) hfacing hweight
      fun _ hbody hbehind => hinner hsevers.inside hbody hahead hbehind
  · refine fun hconditional => hconditional.carried (transfers _ _ depth) hfacing hweight
      fun hbranch _ hbehind => ?_
    obtain ⟨branch', after', hbranch', hlike, hafter⟩ := hinner hsevers hbranch hahead hbehind
    exact ⟨branch', after', ⟨hbranch', hkind hafter ▸ hsevers.word _⟩, hlike, hafter⟩
  · exact fun _ hoperator => hoperator.carried hfacing hweight
      fun hafter _ => hkind hafter ▸ hsevers.word _

include hlast

theorem Items.severed {depth : Nat} (hinner : Severable last follower behind depth)
    {started : Bool} {items : List RunItem} {cursor cursor' after : Cursor}
    (hahead : after.ahead = [last])
    (hfacing : Facing [last] (follower :: behind) cursor cursor')
    (h : Items (Collects depth) context started cursor items after) :
    Carries [last] (follower :: behind) (Items (Collects depth) context started) items after
      cursor' :=
  h.carried hlast hsevers.begins (P := fun _ => True) (fun _ => trivial) trivial hahead hfacing
    fun _ hnext hfacing => hnext.severed hsevers hinner hahead hfacing

omit hsevers

theorem severable (depth : Nat) : Severable last follower behind depth := by
  induction depth with
  | zero => exact fun _ h => h.elim
  | succ depth ih =>
    rintro context cursor _ after cursor' hsevers ⟨items, hitems, rfl⟩ hahead hfacing
    obtain ⟨items', after', hitems', hlike, hafter⟩ :=
      hitems.severed hlast hsevers ih hahead hfacing
    exact ⟨_, after', ⟨items', hitems', rfl⟩, hlike.ofItems _ _, hafter⟩

end Severed

end Onward

end Grammar

end Equational

import Equational.Proofs.Expr.Placement
import Equational.Proofs.Run.Written

/-!
# Placement of collected runs

The tokens ahead of a cursor stand one behind another, and still do when one of them is split.  So a
run that is collected has its items in the order of the source, between the token that was passed
last in front of the run and the one that was passed last in it.
-/

namespace Equational

open Equational.Token

/-! ## Tokens in a row -/

/-- Only the end of the input is empty, an operator symbol has room for its value, and no position
is too large to be recorded. -/
structure Token.Lies (low : Nat) (token : Token) (high : Nat) : Prop where
  low_le : low ≤ token.span.start
  ordered : token.span.start ≤ token.span.stop
  nonempty : token.kind ≠ .endOfInput → token.span.start < token.span.stop
  room : token.kind = .operatorSymbol →
    token.span.start + token.value.utf8ByteSize ≤ token.span.stop
  recordable : token.span.stop < positionCount
  le_high : token.span.stop ≤ high

instance Token.spreads : Spreads Token.Lies where
  le h := Nat.le_trans h.low_le (Nat.le_trans h.ordered h.le_high)
  widen h hlow hhigh :=
    ⟨Nat.le_trans hlow h.low_le, h.ordered, h.nonempty, h.room, h.recordable,
      Nat.le_trans h.le_high hhigh⟩

namespace Cursor

variable {region : Span} {cursor middle after : Cursor} {token : Token}

def reach (region : Span) (cursor : Cursor) : Nat := max region.start cursor.previousEnd

/-- The tokens ahead stand one behind another, up to the end of the region. -/
def IsLaid (region : Span) (cursor : Cursor) : Prop :=
  Row Token.Lies (cursor.reach region) cursor.ahead region.stop

theorem previousEnd_of_reach (h : region.start < cursor.reach region) :
    cursor.previousEnd = cursor.reach region := by
  unfold reach at h ⊢
  omega

theorem Takes.placed (h : cursor.Takes token after) (hlaid : cursor.IsLaid region) :
    cursor.reach region ≤ token.span.start ∧ token.span.start < token.span.stop ∧
      token.span.stop = after.reach region ∧ after.IsLaid region := by
  cases h with
  | @intro passed _ rest errors hkind =>
    obtain _ | ⟨hfirst, hrest⟩ := hlaid
    have hlow := hfirst.low_le
    have hnonempty := hfirst.nonempty hkind
    have hreach : Cursor.reach region ⟨token :: passed, rest, errors⟩ = token.span.stop := by
      change max region.start token.span.stop = token.span.stop
      unfold reach at hlow
      omega
    refine ⟨hlow, hnonempty, hreach.symm, ?_⟩
    rw [IsLaid, hreach]
    exact hrest.widen hfirst.le_high (Nat.le_refl _)

/-! ## Splitting -/

theorem reach_split (region : Span) (cursor : Cursor) (bytes : Nat) :
    (cursor.split bytes).reach region = cursor.reach region := by
  rcases cursor.split_cases bytes with h | ⟨_, _, _, _, _, _, rfl, _, h⟩ <;> rw [h]
  rfl

theorem lies_operatorPart {low high start stop : Nat} {text : List Char}
    (hlow : low ≤ start) (hroom : start + byteLength text ≤ stop) (hne : text ≠ [])
    (hrecordable : stop < positionCount) (hhigh : stop ≤ high) :
    (operatorPart text ⟨start, stop⟩).Lies low high := by
  have hpos := byteLength_pos hne
  refine ⟨hlow, ?_, fun _ => ?_, fun _ => ?_, hrecordable, hhigh⟩
  · change start ≤ stop
    omega
  · change start < stop
    omega
  · change start + (String.ofList text).utf8ByteSize ≤ stop
    rw [utf8ByteSize_ofList]
    exact hroom

theorem IsLaid.split (h : cursor.IsLaid region) (hkind : cursor.current.kind = .operatorSymbol)
    (bytes : Nat) : (cursor.split bytes).IsLaid region := by
  rw [IsLaid, reach_split]
  rcases cursor.split_cases bytes with
    hsplit | ⟨passed, token, rest, errors, head, tail, rfl, hcut, hsplit⟩ <;> rw [hsplit]
  · exact h
  · obtain _ | ⟨hfirst, hrest⟩ := h
    obtain ⟨hbytes, hhead, htail⟩ := byteLength_of_cutText hcut
    have hroom := hfirst.room hkind
    rw [utf8ByteSize_of_cut hcut] at hroom
    have hmiddle : token.span.start + bytes < positionCount :=
      Nat.lt_of_le_of_lt (by omega) hfirst.recordable
    rw [frontToken, backToken, recorded_of_lt hmiddle]
    refine .cons (lies_operatorPart hfirst.low_le ?_ hhead hmiddle (Nat.le_refl _)) ?_
    · exact Nat.le_of_eq (congrArg _ hbytes)
    · refine .cons
        (lies_operatorPart (Nat.le_refl _) ?_ htail hfirst.recordable hfirst.le_high) hrest
      omega

/-! ## Laying -/

section Lays

variable {α : Type} {lies : Nat → α → Nat → Prop} {first second : List α}

/-- What is found on the tokens that are passed stands there one behind another. -/
def Lays (region : Span) (lies : Nat → α → Nat → Prop) (cursor : Cursor) (found : List α)
    (after : Cursor) : Prop :=
  cursor.IsLaid region →
    after.IsLaid region ∧ Row lies (cursor.reach region) found (after.reach region)

theorem Lays.nil (cursor : Cursor) : cursor.Lays region lies [] cursor :=
  fun hlaid => ⟨hlaid, .nil (Nat.le_refl _)⟩

theorem Lays.append [Spreads lies] (h : cursor.Lays region lies first middle)
    (h' : middle.Lays region lies second after) :
    cursor.Lays region lies (first ++ second) after := by
  intro hlaid
  obtain ⟨hmiddle, hfirst⟩ := h hlaid
  obtain ⟨hafter, hsecond⟩ := h' hmiddle
  exact ⟨hafter, hfirst.append hsecond⟩

theorem Lays.split (hdot : beginsWithDot cursor.current) :
    cursor.Lays region lies [] (cursor.split 1) := by
  intro hlaid
  refine ⟨hlaid.split (kind_of_beginsWithDot hdot).1 1, ?_⟩
  rw [reach_split]
  exact .nil (Nat.le_refl _)

theorem Takes.lays (h : cursor.Takes token after) : cursor.Lays region lies [] after := by
  intro hlaid
  obtain ⟨hlow, hnonempty, hstop, hafter⟩ := h.placed hlaid
  exact ⟨hafter, .nil (by omega)⟩

end Lays

end Cursor

/-! ## Operators and atoms without parts -/

namespace Grammar

variable {table : OperatorTable} {region : Span} {cursor after : Cursor}

theorem Operator.lays {op : OperatorUse} (h : Operator cursor op after) :
    cursor.Lays region (RunItem.Lies table) [.operator op] after := by
  intro hlaid
  cases h with
  | joined htoken _ hsecond _ =>
    obtain ⟨hlow, hnonempty, hstop, hmiddle⟩ := htoken.placed hlaid
    obtain ⟨hlow', hnonempty', hstop', hafter⟩ := hsecond.placed hmiddle
    refine ⟨hafter, .singleton (OperatorUse.lies hlow ?_ (Nat.le_of_eq hstop'))⟩
    dsimp only [Span.start_through, Span.stop_through]
    omega
  | plain htoken _ =>
    obtain ⟨hlow, hnonempty, hstop, hafter⟩ := htoken.placed hlaid
    exact ⟨hafter, .singleton (OperatorUse.lies hlow hnonempty (Nat.le_of_eq hstop))⟩

theorem lies_of_leaf {low high : Nat} {a : Atom} {e : Expr} (hlow : low ≤ a.span.start)
    (hnonempty : a.span.start < a.span.stop) (hhigh : a.span.stop ≤ high)
    (hresolve : a.resolve table = .ok e) (hspan : e.span = a.span) (hchildren : e.children = []) :
    a.Lies table low high := by
  refine ⟨hlow, hnonempty, hhigh, fun other hother => ?_⟩
  obtain rfl := Except.ok.inj (hresolve.symm.trans hother)
  rw [← hspan] at hnonempty ⊢
  exact Expr.lies_of_leaf (Nat.le_refl _) hnonempty (Nat.le_refl _) hchildren

theorem lays_leaf {a : Atom} {e : Expr} {token : Token} (htoken : cursor.Takes token after)
    (hatom : a.span = token.span) (hresolve : a.resolve table = .ok e) (hspan : e.span = a.span)
    (hchildren : e.children = []) : cursor.Lays region (RunItem.Lies table) [.atom a] after := by
  intro hlaid
  obtain ⟨hlow, hnonempty, hstop, hafter⟩ := htoken.placed hlaid
  rw [← hatom] at hlow hnonempty hstop
  exact ⟨hafter, .singleton (lies_of_leaf hlow hnonempty (Nat.le_of_eq hstop) hresolve hspan
    hchildren)⟩

theorem Named.lays {context : RunContext} {a : Atom} (h : Named context cursor a after) :
    cursor.Lays region (RunItem.Lies table) [.atom a] after := by
  cases h with
  | typed htoken _ hcolon _ htype _ =>
    intro hlaid
    obtain ⟨hlow, hnonempty, hstop, hfirst⟩ := htoken.placed hlaid
    obtain ⟨hlow', hnonempty', hstop', hsecond⟩ := hcolon.placed hfirst
    obtain ⟨hlow'', hnonempty'', hstop'', hafter⟩ := htype.placed hsecond
    refine ⟨hafter, .singleton (lies_of_leaf hlow ?_ (Nat.le_of_eq hstop'') rfl rfl rfl)⟩
    dsimp only [Atom.span, Span.start_through, Span.stop_through]
    omega
  | plain htoken _ => exact lays_leaf htoken rfl rfl rfl rfl

theorem Stop.lays {context : RunContext} {started : Bool} (h : Stop context started cursor after) :
    cursor.Lays region (RunItem.Lies table) [] after := by
  cases h with
  | glued hdot => exact .split hdot
  | _ => exact .nil cursor

section Parts

variable {Inner : RunContext → Cursor → Run → Cursor → Prop}
  (hinner : ∀ {context cursor run after}, Inner context cursor run after →
    cursor.Lays region (Run.Lies table) [run] after)

include hinner

variable {bracket : Bracket} {start : Cursor} {found : List Run} {body : ContainerBody}

/-! ## Containers -/

theorem Enumeration.lays (hfound : start.Lays region (Run.Lies table) found cursor)
    (h : Enumeration Inner bracket found cursor body after) :
    start.Lays region (Run.Lies table) body.runs after := by
  cases h with
  | unbounded hdots => exact hfound.append hdots.lays
  | bounded hdots _ _ hbound => exact hfound.append (hdots.lays.append (hinner hbound))

theorem Generators.lays {separator : Option Separator}
    (h : Generators Inner separator cursor found after) :
    cursor.Lays region (Run.Lies table) found after := by
  induction h with
  | done => exact .nil _
  | more htoken _ _ hrun _ ih => exact htoken.lays.append ((hinner hrun).append ih)

theorem Elements.lays {separator : Separator}
    (hfound : start.Lays region (Run.Lies table) found cursor)
    (h : Elements Inner bracket separator found cursor body after) :
    start.Lays region (Run.Lies table) body.runs after := by
  induction h with
  | more htoken _ _ hrun _ ih => exact ih (hfound.append (htoken.lays.append (hinner hrun)))
  | trailing htoken => exact hfound.append htoken.lays
  | enumeration _ hbody => exact hbody.lays hinner hfound
  | tail hbar _ hlast => exact hfound.append (hbar.lays.append (hinner hlast))
  | done => exact hfound.append (.nil _)

theorem Body.lays {first : Run} (hfirst : start.Lays region (Run.Lies table) [first] cursor)
    (h : Body Inner bracket first cursor body after) :
    start.Lays region (Run.Lies table) body.runs after := by
  unfold Body at h
  split at h
  · exact h.lays hinner hfirst
  · obtain ⟨colon, middle, generator, last, generators, hcolon, hgenerator, hgenerators, rfl⟩ := h
    have hrest := (hinner hgenerator).append (hgenerators.lays hinner)
    exact hfirst.append (hcolon.lays.append hrest)
  · exact h.lays hinner hfirst
  · exact h.lays hinner hfirst
  · obtain ⟨bar, middle, last, hbar, hlast, rfl⟩ := h
    exact hfirst.append (hbar.lays.append (hinner hlast))
  · obtain ⟨-, rfl, rfl⟩ := h
    exact hfirst

omit hinner in
theorem lays_closedContainer {second fourth : Cursor} {opening closing : Token}
    (hopening : cursor.Takes opening second)
    (hbody : second.Lays region (Run.Lies table) body.runs fourth)
    (hclosing : fourth.Takes closing after) :
    cursor.Lays region (RunItem.Lies table)
      [.atom (closedContainer bracket body (opening.span.through closing.span))] after := by
  intro hlaid
  obtain ⟨hlow, hnonempty, hstop, hsecond⟩ := hopening.placed hlaid
  obtain ⟨hfourth, hrow⟩ := hbody hsecond
  obtain ⟨hlow', hnonempty', hstop', hafter⟩ := hclosing.placed hfourth
  have hinside : Row (Run.Lies table) opening.span.start body.runs closing.span.stop :=
    hrow.widen (by omega) (by omega)
  have hle := hrow.le
  have hspan : (opening.span.through closing.span).start < closing.span.stop := by
    rw [Span.start_through]
    omega
  have hatom := @lies_closedContainer table bracket body _ hspan hinside
  exact ⟨hafter, .singleton ((RunItem.spreads table).widen (x := .atom _) hatom hlow
    (Nat.le_of_eq hstop'))⟩

theorem Container.lays {a : Atom} (h : Container Inner cursor a after) :
    cursor.Lays region (RunItem.Lies table) [.atom a] after := by
  cases h with
  | empty hopening hclosing =>
    rw [← closedContainer_empty]
    exact lays_closedContainer hopening (.nil _) hclosing
  | filled hopening _ hfirst hbody hclosing =>
    exact lays_closedContainer hopening (hbody.lays hinner (hinner hfirst)) hclosing

/-! ## Lambdas and conditionals -/

variable {context : RunContext}

theorem Lambda.lays {a : Atom} (h : Lambda Inner context cursor a after) :
    cursor.Lays region (RunItem.Lies table) [.atom a] after := by
  intro hlaid
  cases h with
  | @intro first second third _ backslash dot parameters body hbackslash hparameters hdot hkind
      hbody =>
    obtain ⟨hlow, hnonempty, hstop, hfirst⟩ := hbackslash.placed hlaid
    obtain ⟨hsecond, hparametersRow⟩ := hinner hparameters hfirst
    obtain ⟨hlow', hnonempty', hstop', hthird⟩ := hdot.placed hsecond
    obtain ⟨hafter, hbodyRow⟩ := hinner hbody hthird
    have hbefore := hparametersRow.le
    have hbehind := hbodyRow.le
    have hfloor : region.start ≤ cursor.reach region := Nat.le_max_left _ _
    have hprevious : after.previousEnd = after.reach region :=
      Cursor.previousEnd_of_reach (by omega)
    rw [hprevious]
    refine ⟨hafter, .singleton ⟨hlow, ?_, Nat.le_refl _, fun e hresolve => ?_⟩⟩
    · change backslash.span.start < after.reach region
      omega
    · change e.Lies backslash.span.start (after.reach region)
      cases hitems : parameters.items with
      | nil =>
        rw [hitems] at hresolve
        cases hresolve
      | cons item rest =>
        rw [hitems] at hresolve
        obtain ⟨values, hvalues, hrest⟩ := bind_eq_ok_iff.mp hresolve
        obtain ⟨inner, hinnerBody, hnode⟩ := bind_eq_ok_iff.mp hrest
        cases hnode
        rw [← hitems] at hvalues
        have hvaluesRow := lies_resolveParameters hparametersRow.of_singleton hvalues
        have hinnerLies := Run.lies_resolve hbodyRow.of_singleton hinnerBody
        have hbefore : Row Expr.Lies backslash.span.start values (third.reach region) :=
          hvaluesRow.widen (by omega) (by omega)
        have hrow := (hbefore.concat hinnerLies).expressions
        rw [List.map_append] at hrow
        refine Expr.lies_of_children (Nat.le_refl _) ?_ (Nat.le_refl _) hrow
        change backslash.span.start < after.reach region
        omega

theorem Conditional.lays {items : List RunItem} (h : Conditional Inner context cursor items after) :
    cursor.Lays region (RunItem.Lies table) items after := by
  intro hlaid
  cases h with
  | @withElse _ _ third _ _ opening _ _ condition _ hopening hcondition hjoining _ hbranch
      hclosing =>
    obtain ⟨hlow, hnonempty, hstop, hfirst⟩ := hopening.placed hlaid
    obtain ⟨hsecond, hconditionRow⟩ := hinner hcondition hfirst
    obtain ⟨hlow', hnonempty', hstop', hthird⟩ := hjoining.placed hsecond
    obtain ⟨hfourth, hbranchRow⟩ := hinner hbranch hthird
    obtain ⟨hlow'', hnonempty'', hstop'', hafter⟩ := hclosing.placed hfourth
    have htest : condition.Lies table opening.span.start (third.reach region) :=
      (Run.spreads table).widen hconditionRow.of_singleton (by omega) (by omega)
    exact ⟨hafter, .singleton (lies_conditional hlow htest
      (hbranchRow.widen (Nat.le_refl _) (by omega)))⟩
  | @withoutElse _ _ third _ opening _ condition _ hopening hcondition hjoining _ hbranch =>
    obtain ⟨hlow, hnonempty, hstop, hfirst⟩ := hopening.placed hlaid
    obtain ⟨hsecond, hconditionRow⟩ := hinner hcondition hfirst
    obtain ⟨hlow', hnonempty', hstop', hthird⟩ := hjoining.placed hsecond
    obtain ⟨hafter, hbranchRow⟩ := hinner hbranch hthird
    have htest : condition.Lies table opening.span.start (third.reach region) :=
      (Run.spreads table).widen hconditionRow.of_singleton (by omega) (by omega)
    exact ⟨hafter, .cons (lies_conditional hlow htest (.nil (Nat.le_refl _)))
      hbranchRow.of_singleton⟩

/-! ## Items -/

variable {started : Bool} {items : List RunItem}

theorem Next.lays (h : Next Inner context started cursor items after) :
    cursor.Lays region (RunItem.Lies table) items after := by
  cases h with
  | named _ h => exact h.lays
  | declared htoken _ hname _ =>
    intro hlaid
    obtain ⟨hlow, hnonempty, hstop, hmiddle⟩ := htoken.placed hlaid
    obtain ⟨hlow', hnonempty', hstop', hafter⟩ := hname.placed hmiddle
    refine ⟨hafter, .singleton (lies_of_leaf hlow ?_ (Nat.le_of_eq hstop') rfl rfl rfl)⟩
    dsimp only [Atom.span, Span.start_through, Span.stop_through]
    omega
  | number htoken => exact lays_leaf htoken rfl rfl rfl rfl
  | string htoken => exact lays_leaf htoken rfl rfl rfl rfl
  | container _ h => exact h.lays hinner
  | lambda _ h => exact h.lays hinner
  | conditional _ _ h => exact h.lays hinner
  | operator _ h => exact h.lays

theorem Items.lays (h : Items Inner context started cursor items after) :
    cursor.Lays region (RunItem.Lies table) items after := by
  induction h with
  | stop h => exact (stop_of_answer _ _ _ h).lays
  | next h _ ih => exact ((next_of_answer _ _ _ h).lays hinner).append ih

end Parts

/-! ## Runs -/

theorem Collects.lays {depth : Nat} {context : RunContext} {run : Run}
    (h : Collects depth context cursor run after) :
    cursor.Lays region (Run.Lies table) [run] after := by
  induction depth generalizing context cursor run after with
  | zero => exact h.elim
  | succ depth ih =>
    obtain ⟨items, hitems, rfl⟩ := h
    intro hlaid
    obtain ⟨hafter, hrow⟩ := hitems.lays ih hlaid
    exact ⟨hafter, .singleton hrow⟩

end Grammar

end Equational

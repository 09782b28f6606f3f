import Equational.Proofs.Relocation.Values
import Equational.Proofs.Run.Written

/-!
# Runs over like tokens

Like tokens say the same, wherever they stand.  A part of a run that lies within some tokens, so
that nothing behind them is looked at, is collected in the same way over like tokens, whatever is
behind those; the two parts are the same up to spans.
-/

namespace Equational

open Cursor

def Relocation.nowhere : Relocation := ⟨fun _ => 0, fun _ => 0⟩

/-- The same up to spans. -/
def Alike {α : Type} [Relocatable α] (first second : α) : Prop :=
  relocate .nowhere first = relocate .nowhere second

theorem Alike.refl {α : Type} [Relocatable α] (value : α) : Alike value value := rfl

/-! ## Like tokens -/

section Tokens

variable {token token' : Token} (h : token'.face = token.face)

include h

theorem kind_of_face : token'.kind = token.kind := congrArg Face.kind h

theorem identifier_of_face : Identifier.ofToken token' = Identifier.ofToken token := by
  obtain ⟨hkind, hvalue, hmodule⟩ := Face.mk.inj h
  simp only [Identifier.ofToken, Name.ofToken, hkind, hvalue, hmodule]

theorem beginsWithDot_of_face : beginsWithDot token' = beginsWithDot token := by
  obtain ⟨hkind, hvalue, hmodule⟩ := Face.mk.inj h
  simp only [beginsWithDot, Token.isQualified, hkind, hvalue, hmodule]

theorem literal_of_face {literal : NumberLiteral}
    (hliteral : NumberLiteral.ofToken token = .ok literal) :
    NumberLiteral.ofToken token' = .ok literal := by
  obtain ⟨-, hvalue, -⟩ := Face.mk.inj h
  unfold NumberLiteral.ofToken at hliteral ⊢
  rw [hvalue]
  split at hliteral
  · exact hliteral
  · cases hliteral

theorem halts_of_face (context : RunContext) :
    Grammar.halts context token' = Grammar.halts context token := by
  simp only [Grammar.halts, kind_of_face h, beginsWithDot_of_face h]

end Tokens

/-! ## Cursors in front of like tokens -/

/-- Like tokens are ahead, in front of what may differ. -/
def Facing (rest rest' : List Token) (cursor cursor' : Cursor) : Prop :=
  ∃ front front', cursor.ahead = front ++ rest ∧ cursor'.ahead = front' ++ rest' ∧
    List.Forall₂ (fun token token' => token'.face = token.face) front front'

namespace Facing

variable {rest rest' : List Token} {cursor cursor' after : Cursor} {token : Token}

theorem of_map_eq {front front' : List Token} (hahead : cursor.ahead = front ++ rest)
    (hahead' : cursor'.ahead = front' ++ rest')
    (hfaces : front'.map Token.face = front.map Token.face) : Facing rest rest' cursor cursor' := by
  have hequal : List.Forall₂ (· = ·) (front'.map Token.face) (front.map Token.face) := by
    rw [List.forall₂_eq_eq_eq]
    exact hfaces
  rw [List.forall₂_map_left_iff, List.forall₂_map_right_iff] at hequal
  exact ⟨front, front', hahead, hahead', hequal.flip⟩

theorem exists_cons (h : Facing rest rest' cursor cursor')
    (hweight : totalWeight rest < cursor.weight) :
    ∃ passed token front errors passed' token' front' errors',
      cursor = ⟨passed, token :: (front ++ rest), errors⟩ ∧
      cursor' = ⟨passed', token' :: (front' ++ rest'), errors'⟩ ∧ token'.face = token.face ∧
      List.Forall₂ (fun token token' => token'.face = token.face) front front' := by
  obtain ⟨front, front', hahead, hahead', hfaces⟩ := h
  obtain ⟨passed, ahead, errors⟩ := cursor
  obtain ⟨passed', ahead', errors'⟩ := cursor'
  obtain rfl : ahead = front ++ rest := hahead
  obtain rfl : ahead' = front' ++ rest' := hahead'
  cases hfaces with
  | nil => exact absurd hweight (Nat.lt_irrefl _)
  | cons hface hfaces =>
    exact ⟨passed, _, _, errors, passed', _, _, errors', rfl, rfl, hface, hfaces⟩

theorem current (h : Facing rest rest' cursor cursor')
    (hweight : totalWeight rest < cursor.weight) :
    cursor'.current.face = cursor.current.face := by
  obtain ⟨passed, token, front, errors, passed', token', front', errors', rfl, rfl, hface, -⟩ :=
    h.exists_cons hweight
  exact hface

theorem kind_eq (h : Facing rest rest' cursor cursor')
    (hweight : totalWeight rest < cursor.weight) : cursor'.current.kind = cursor.current.kind :=
  kind_of_face (h.current hweight)

theorem takes (h : Facing rest rest' cursor cursor') (htakes : cursor.Takes token after)
    (hweight : totalWeight rest ≤ after.weight) :
    ∃ token' after', cursor'.Takes token' after' ∧ token'.face = token.face ∧
      Facing rest rest' after after' := by
  obtain ⟨passed, token, front, errors, passed', token', front', errors', rfl, rfl, hface,
    hfaces⟩ :=
    h.exists_cons (Nat.lt_of_le_of_lt hweight htakes.weight_lt)
  cases htakes with
  | intro _ _ hkind =>
    have hkind' : token'.kind ≠ .endOfInput := by rwa [kind_of_face hface]
    exact ⟨token', _, .intro passed' _ hkind', hface, front, front', rfl, rfl, hfaces⟩

theorem peek_kind (h : Facing rest rest' cursor cursor')
    (hweight : totalWeight rest < cursor.weight) (hend : cursor.current.kind ≠ .endOfInput)
    (hnext : totalWeight rest < cursor.advance.weight) :
    (cursor'.peek 1).kind = (cursor.peek 1).kind := by
  obtain ⟨passed, token, front, errors, passed', token', front', errors', rfl, rfl, -, hfaces⟩ :=
    h.exists_cons hweight
  have hadvance : Cursor.advance ⟨passed, token :: (front ++ rest), errors⟩ =
      ⟨token :: passed, front ++ rest, errors⟩ := if_neg hend
  rw [hadvance] at hnext
  cases hfaces with
  | nil => exact absurd hnext (Nat.lt_irrefl _)
  | cons hface _ => exact kind_of_face hface

theorem split (h : Facing rest rest' cursor cursor')
    (hweight : totalWeight rest < cursor.weight) (bytes : Nat) :
    Facing rest rest' (cursor.split bytes) (cursor'.split bytes) := by
  obtain ⟨passed, token, front, errors, passed', token', front', errors', rfl, rfl, hface,
    hfaces⟩ :=
    h.exists_cons hweight
  obtain ⟨-, hvalue, -⟩ := Face.mk.inj hface
  cases hcut : cutText? bytes token.value.toList with
  | none =>
    simp only [Cursor.split, hvalue, hcut]
    exact ⟨token :: front, token' :: front', rfl, rfl, .cons hface hfaces⟩
  | some parts =>
    obtain ⟨head, tail⟩ := parts
    simp only [Cursor.split, hvalue, hcut]
    exact ⟨_ :: _ :: front, _ :: _ :: front', rfl, rfl, .cons rfl (.cons rfl hfaces)⟩

theorem ahead_of_end (h : Facing rest rest' cursor cursor') (hahead : cursor.ahead = rest) :
    cursor'.ahead = rest' := by
  obtain ⟨front, front', hfront, hfront', hfaces⟩ := h
  rw [hahead, List.self_eq_append_left] at hfront
  subst hfront
  cases hfaces
  exact hfront'

end Facing

/-! ## Ends within like tokens -/

def Settled (rest : List Token) (cursor : Cursor) : Prop :=
  totalWeight rest < cursor.weight ∧
    (cursor.current.kind = .mark .colon → totalWeight rest < cursor.advance.weight)

/-- From in front of like tokens there is the same way to a like value. -/
def Carries (rest rest' : List Token) {α : Type} [Relocatable α] (G : Cursor → α → Cursor → Prop)
    (value : α) (after cursor' : Cursor) : Prop :=
  ∃ value' after', G cursor' value' after' ∧ Alike value value' ∧ Facing rest rest' after after'

theorem Settled.of_kind_ne {rest : List Token} {cursor : Cursor}
    (hweight : totalWeight rest < cursor.weight) (hkind : cursor.current.kind ≠ .mark .colon) :
    Settled rest cursor := ⟨hweight, fun h => absurd h hkind⟩

theorem Settled.of_takes {rest : List Token} {cursor after : Cursor} {token : Token}
    {kind : TokenKind} (htakes : cursor.Takes token after) (hkind : token.kind = kind)
    (hcolon : kind ≠ .mark .colon) (hweight : totalWeight rest ≤ after.weight) :
    Settled rest cursor := by
  refine .of_kind_ne (Nat.lt_of_le_of_lt hweight htakes.weight_lt) ?_
  rwa [htakes.current_eq, hkind]

/-! ## Like values -/

namespace Alike

variable {α : Type} [Relocatable α]

theorem append {first first' second second' : List α} (h : Alike first first')
    (h' : Alike second second') : Alike (first ++ second) (first' ++ second') := by
  simp only [Alike, relocate_list, List.map_append] at h h' ⊢
  rw [h, h']

theorem singleton {first first' : α} (h : Alike first first') : Alike [first] [first'] :=
  congrArg (fun value => [value]) h

theorem cons {first first' : α} {more more' : List α} (h : Alike first first')
    (h' : Alike more more') : Alike (first :: more) (first' :: more') := (singleton h).append h'

theorem exists_cons {first : α} {more values : List α} (h : Alike (first :: more) values) :
    ∃ first' more', values = first' :: more' ∧ Alike first first' ∧ Alike more more' := by
  cases values with
  | nil => cases h
  | cons first' more' =>
    obtain ⟨hfirst, hmore⟩ := List.cons.inj h
    exact ⟨first', more', rfl, hfirst, hmore⟩

theorem some {first first' : α} (h : Alike first first') :
    Alike (Option.some first) (Option.some first') := congrArg Option.some h

theorem anyEmpty_eq {runs runs' : List Run} (h : Alike runs runs') :
    runs'.any Run.isEmpty = runs.any Run.isEmpty := by
  have hruns (runs : List Run) :
      (relocate .nowhere runs).any Run.isEmpty = runs.any Run.isEmpty := by
    simp only [relocate_list, List.any_map]
    congr 1
    funext run
    exact isEmpty_relocate_run .nowhere run
  rw [← hruns runs, h, hruns]

theorem items {first first' : Run} (h : Alike first first') : Alike first.items first'.items := by
  rw [Alike, ← items_relocate_run, h, items_relocate_run]

theorem run {first first' : Run} (h : Alike first.items first'.items) : Alike first first' := by
  obtain ⟨items, span⟩ := first
  obtain ⟨items', span'⟩ := first'
  change Run.mk (relocatedItems .nowhere items) _ = .mk (relocatedItems .nowhere items') _
  rw [relocatedItems_eq, relocatedItems_eq]
  exact congrArg (Run.mk · _) h

theorem ofItems {first first' : List RunItem} (h : Alike first first') (fallback fallback' : Span) :
    Alike (Run.ofItems first fallback) (Run.ofItems first' fallback') := by
  rw [Alike, relocate_ofItems, relocate_ofItems, h]
  rfl

theorem elements {runs runs' : List Run} {tail tail' : Option Run} (h : Alike runs runs')
    (h' : Alike tail tail') (separator : Option Separator) (trailing : Bool) :
    Alike (ContainerBody.elements runs separator trailing tail)
      (.elements runs' separator trailing tail') := by
  rw [Alike, relocate_elementsBody, relocate_elementsBody, h, h']

theorem enumeration {runs runs' : List Run} {bound bound' : Option Run} (h : Alike runs runs')
    (h' : Alike bound bound') :
    Alike (ContainerBody.enumeration runs bound) (.enumeration runs' bound') := by
  rw [Alike, relocate_enumerationBody, relocate_enumerationBody, h, h']

theorem comprehension {template template' : Run} {generators generators' : List Run}
    (h : Alike template template') (h' : Alike generators generators') :
    Alike (ContainerBody.comprehension template generators)
      (.comprehension template' generators') := by
  rw [Alike, relocate_comprehensionBody, relocate_comprehensionBody, h, h']

theorem closedContainer {body body' : ContainerBody} (h : Alike body body') (bracket : Bracket)
    (span span' : Span) :
    Alike (closedContainer bracket body span) (Equational.closedContainer bracket body' span') := by
  rw [Alike, relocate_closedContainer, relocate_closedContainer, h]
  rfl

theorem lambda {parameters parameters' : List RunItem} {body body' : Run}
    (h : Alike parameters parameters') (h' : Alike body body') (span span' : Span) :
    Alike (Atom.lambda parameters body span) (.lambda parameters' body' span') := by
  rw [Alike, relocate_lambdaAtom, relocate_lambdaAtom, h, h']
  rfl

theorem conditional {condition condition' : Run} {branch branch' : Option Run}
    (h : Alike condition condition') (h' : Alike branch branch') (span span' : Span) :
    Alike (RunItem.conditional condition branch span) (.conditional condition' branch' span') := by
  change RunItem.conditional (relocate .nowhere condition) (relocatedOption .nowhere branch) _ =
    .conditional (relocate .nowhere condition') (relocatedOption .nowhere branch') _
  rw [relocatedOption_eq, relocatedOption_eq, h, h']
  rfl

theorem atom {first first' : Atom} (h : Alike first first') :
    Alike [RunItem.atom first] [RunItem.atom first'] :=
  singleton (congrArg RunItem.atom h)

theorem operator {op op' : OperatorUse} (h : Alike op op') :
    Alike [RunItem.operator op] [RunItem.operator op'] :=
  singleton (congrArg RunItem.operator h)

end Alike

/-! ## Parts within like tokens -/

namespace Grammar

theorem typable_of_face (context : RunContext) {token token' : Token}
    (hface : token'.face = token.face) : typable context token' = typable context token := by
  obtain ⟨hkind, hvalue, hmodule⟩ := Face.mk.inj hface
  simp only [typable, Token.isQualified, hkind, hmodule]

section Within

variable {rest rest' : List Token} {cursor cursor' after : Cursor}
  (hfacing : Facing rest rest' cursor cursor')

include hfacing

theorem Operator.carried {op : OperatorUse} (hweight : totalWeight rest ≤ after.weight)
    (h : Operator cursor op after)
    (hplain : ∀ {after' : Cursor} {word : Keyword}, Facing rest rest' after after' →
      after.current.kind ≠ .word word → after'.current.kind ≠ .word word) :
    Carries rest rest' Operator op after cursor' := by
  cases h with
  | joined htoken hjoined hsecond hkind =>
    have hle := hsecond.weight_lt
    obtain ⟨token', middle', htoken', hface, hmiddle⟩ := hfacing.takes htoken (by omega)
    obtain ⟨second', after', hsecond', hface', hafter⟩ := hmiddle.takes hsecond hweight
    rw [← kind_of_face hface] at hjoined
    rw [← kind_of_face hface'] at hkind
    exact ⟨_, after', .joined htoken' hjoined hsecond' hkind, rfl, hafter⟩
  | plain htoken hbehind =>
    obtain ⟨token', after', htoken', hface, hafter⟩ := hfacing.takes htoken hweight
    obtain ⟨hkind, hvalue, hmodule⟩ := Face.mk.inj hface
    refine ⟨_, after', .plain htoken' fun follower symbol hjoined => ?_, ?_, hafter⟩
    · rw [hkind] at hjoined
      exact hplain hafter (hbehind follower symbol hjoined)
    · rw [hvalue, hmodule]
      rfl

theorem Operator.within {op : OperatorUse} (hweight : totalWeight rest < after.weight)
    (h : Operator cursor op after) : Carries rest rest' Operator op after cursor' := by
  refine h.carried hfacing (Nat.le_of_lt hweight) fun hafter hword => ?_
  rwa [hafter.kind_eq hweight]

theorem Named.carried {context : RunContext} {atom : Atom}
    (hweight : totalWeight rest ≤ after.weight) (h : Named context cursor atom after)
    (huntyped : ∀ {token : Token} {after' : Cursor}, Facing rest rest' after after' →
      ¬(typable context token ∧ after.current.kind = .mark .colon ∧
        (after.peek 1).kind.isIdentifier) →
      ¬(typable context token ∧ after'.current.kind = .mark .colon ∧
        (after'.peek 1).kind.isIdentifier)) :
    Carries rest rest' (Named context) atom after cursor' := by
  cases h with
  | typed htoken htyped hmark hkind htype hidentifier =>
    have hle := htype.weight_lt
    have hle' := hmark.weight_lt
    obtain ⟨token', first', htoken', hface, hfirst⟩ := hfacing.takes htoken (by omega)
    obtain ⟨colon', second', hmark', hmarkFace, hsecond⟩ := hfirst.takes hmark (by omega)
    obtain ⟨type', after', htype', htypeFace, hafter⟩ := hsecond.takes htype (by omega)
    rw [← typable_of_face context hface] at htyped
    rw [← kind_of_face hmarkFace] at hkind
    rw [← kind_of_face htypeFace] at hidentifier
    refine ⟨_, after', .typed htoken' htyped hmark' hkind htype' hidentifier, ?_, hafter⟩
    rw [identifier_of_face htypeFace]
    have hname := congrArg Identifier.name (identifier_of_face hface)
    simp only [Identifier.ofToken] at hname
    rw [hname]
    rfl
  | plain htoken hplain =>
    obtain ⟨token', after', htoken', hface, hafter⟩ := hfacing.takes htoken hweight
    rw [← typable_of_face context hface] at hplain
    refine ⟨_, after', .plain htoken' (huntyped hafter hplain), ?_, hafter⟩
    rw [identifier_of_face hface]
    rfl

theorem Named.within {context : RunContext} {atom : Atom} (hsettled : Settled rest after)
    (h : Named context cursor atom after) :
    Carries rest rest' (Named context) atom after cursor' := by
  obtain ⟨hweight, hcolon⟩ := hsettled
  refine h.carried hfacing (Nat.le_of_lt hweight) fun hafter hplain => ?_
  rw [hafter.kind_eq hweight]
  rintro ⟨htyped, hmark, hidentifier⟩
  -- The token behind the colon is among the like ones as well.
  have hend : after.current.kind ≠ .endOfInput := by simp [hmark]
  rw [hafter.peek_kind hweight hend (hcolon hmark)] at hidentifier
  exact hplain ⟨htyped, hmark, hidentifier⟩

end Within

/-! ## Weights of containers -/

variable {depth : Nat} {bracket : Bracket} {body : ContainerBody}

section Weights

variable {cursor after : Cursor}

theorem Enumeration.weight_lt {runs : List Run}
    (h : Enumeration (Collects depth) bracket runs cursor body after) :
    after.weight < cursor.weight := by
  cases h with
  | unbounded hdots => exact hdots.weight_lt
  | bounded hdots _ _ hbound => exact Nat.lt_of_le_of_lt hbound.writes.weight_le hdots.weight_lt

theorem Elements.weight_le {separator : Separator} {found : List Run}
    (h : Elements (Collects depth) bracket separator found cursor body after) :
    after.weight ≤ cursor.weight := by
  induction h with
  | more htoken _ _ hrun _ ih =>
    exact Nat.le_trans ih (Nat.le_trans hrun.writes.weight_le (Nat.le_of_lt htoken.weight_lt))
  | trailing htoken => exact Nat.le_of_lt htoken.weight_lt
  | enumeration _ hbody => exact Nat.le_of_lt hbody.weight_lt
  | tail hbar _ hlast => exact Nat.le_trans hlast.writes.weight_le (Nat.le_of_lt hbar.weight_lt)
  | done => exact Nat.le_refl _

theorem Generators.weight_le {separator : Option Separator} {runs : List Run}
    (h : Generators (Collects depth) separator cursor runs after) : after.weight ≤ cursor.weight :=
  (h.writes Collects.writes).weight_le

theorem Body.weight_le {first : Run} (h : Body (Collects depth) bracket first cursor body after) :
    after.weight ≤ cursor.weight := by
  unfold Body at h
  split at h
  · exact Nat.le_of_lt h.weight_lt
  · obtain ⟨colon, middle, generator, last, generators, hcolon, hgenerator, hgenerators, -⟩ := h
    exact Nat.le_trans hgenerators.weight_le
      (Nat.le_trans hgenerator.writes.weight_le (Nat.le_of_lt hcolon.weight_lt))
  · exact h.weight_le
  · exact h.weight_le
  · obtain ⟨bar, middle, last, hbar, hlast, -⟩ := h
    exact Nat.le_trans hlast.writes.weight_le (Nat.le_of_lt hbar.weight_lt)
  · obtain ⟨-, -, rfl⟩ := h
    exact Nat.le_refl _

theorem Next.weight_lt {context : RunContext} {started : Bool} {items : List RunItem}
    (h : Next (Collects depth) context started cursor items after) :
    after.weight < cursor.weight := by
  cases h with
  | named _ h =>
    cases h with
    | typed htoken _ hcolon _ htype _ =>
      exact Nat.lt_trans htype.weight_lt (Nat.lt_trans hcolon.weight_lt htoken.weight_lt)
    | plain htoken => exact htoken.weight_lt
  | declared htoken _ hname => exact Nat.lt_trans hname.weight_lt htoken.weight_lt
  | number htoken => exact htoken.weight_lt
  | string htoken => exact htoken.weight_lt
  | container _ h =>
    cases h with
    | empty hopening hclosing => exact Nat.lt_trans hclosing.weight_lt hopening.weight_lt
    | filled hopening _ hrun hbody hclosing =>
      exact Nat.lt_trans hclosing.weight_lt (Nat.lt_of_le_of_lt hbody.weight_le
        (Nat.lt_of_le_of_lt hrun.writes.weight_le hopening.weight_lt))
  | lambda _ h =>
    cases h with
    | intro hbackslash hparameters hdot _ hbody =>
      exact Nat.lt_of_le_of_lt hbody.writes.weight_le (Nat.lt_trans hdot.weight_lt
        (Nat.lt_of_le_of_lt hparameters.writes.weight_le hbackslash.weight_lt))
  | conditional _ _ h =>
    cases h with
    | withElse hopening hcondition hjoining _ hbranch hclosing =>
      exact Nat.lt_trans hclosing.weight_lt (Nat.lt_of_le_of_lt hbranch.writes.weight_le
        (Nat.lt_trans hjoining.weight_lt
          (Nat.lt_of_le_of_lt hcondition.writes.weight_le hopening.weight_lt)))
    | withoutElse hopening hcondition hjoining _ hbranch =>
      exact Nat.lt_of_le_of_lt hbranch.writes.weight_le (Nat.lt_trans hjoining.weight_lt
        (Nat.lt_of_le_of_lt hcondition.writes.weight_le hopening.weight_lt))
  | operator _ h =>
    cases h with
    | joined htoken _ hsecond => exact Nat.lt_trans hsecond.weight_lt htoken.weight_lt
    | plain htoken => exact htoken.weight_lt

end Weights

/-! ## Containers within like tokens -/

variable {rest rest' : List Token}

/-- Runs that nest less deep than this are carried over from like tokens to like tokens. -/
def Transfers (rest rest' : List Token) (depth : Nat) : Prop :=
  ∀ {context cursor run after cursor'}, Collects depth context cursor run after →
    Facing rest rest' cursor cursor' → Settled rest after →
    Carries rest rest' (Collects depth context) run after cursor'

section Containers

variable (hinner : Transfers rest rest' depth) {cursor cursor' after : Cursor}
  (hfacing : Facing rest rest' cursor cursor')

include hinner hfacing

theorem Enumeration.within {runs runs' : List Run} (hruns : Alike runs runs')
    (hsettled : Settled rest after)
    (h : Enumeration (Collects depth) bracket runs cursor body after) :
    Carries rest rest' (Enumeration (Collects depth) bracket runs') body after cursor' := by
  cases h with
  | unbounded hdots hnonempty hclosing =>
    obtain ⟨dots', after', hdots', -, hafter⟩ := hfacing.takes hdots (Nat.le_of_lt hsettled.1)
    rw [← hruns.anyEmpty_eq] at hnonempty
    rw [← hafter.kind_eq hsettled.1] at hclosing
    exact ⟨_, after', .unbounded hdots' hnonempty hclosing, hruns.enumeration (.refl _), hafter⟩
  | bounded hdots hnonempty hopen hbound =>
    have hweight := Nat.lt_of_lt_of_le hsettled.1 hbound.writes.weight_le
    obtain ⟨dots', middle', hdots', -, hmiddle⟩ := hfacing.takes hdots (Nat.le_of_lt hweight)
    obtain ⟨bound', after', hbound', hlike, hafter⟩ := hinner hbound hmiddle hsettled
    rw [← hruns.anyEmpty_eq] at hnonempty
    rw [← hmiddle.kind_eq hweight] at hopen
    exact ⟨_, after', .bounded hdots' hnonempty hopen hbound', hruns.enumeration hlike.some, hafter⟩

end Containers

theorem ne_colon_of_separator {kind : TokenKind} {separator : Separator}
    (h : Separator.ofKind? kind = some separator) : kind ≠ .mark .colon := by
  rintro rfl
  cases h

theorem closing_ne_colon (bracket : Bracket) : TokenKind.mark bracket.closing ≠ .mark .colon := by
  cases bracket <;> nofun

theorem Generators.settled {separator : Option Separator} {runs : List Run} {cursor after : Cursor}
    (hsettled : Settled rest after)
    (h : Generators (Collects depth) separator cursor runs after) : Settled rest cursor := by
  cases h with
  | done => exact hsettled
  | more htoken hnext _ hrun hrest =>
    have hweight :=
      Nat.lt_of_lt_of_le hsettled.1 (Nat.le_trans hrest.weight_le hrun.writes.weight_le)
    exact .of_takes htoken rfl (ne_colon_of_separator hnext) (Nat.le_of_lt hweight)

theorem Generators.within (hinner : Transfers rest rest' depth) {separator : Option Separator}
    {runs : List Run} {cursor cursor' after : Cursor} (hfacing : Facing rest rest' cursor cursor')
    (hsettled : Settled rest after)
    (h : Generators (Collects depth) separator cursor runs after) :
    Carries rest rest' (Generators (Collects depth) separator) runs after cursor' := by
  induction h generalizing cursor' with
  | done hnone =>
    rw [← hfacing.kind_eq hsettled.1] at hnone
    exact ⟨[], cursor', .done hnone, .refl _, hfacing⟩
  | more htoken hnext hsame hrun hrest ih =>
    have hsecond := hrest.settled hsettled
    have hweight := Nat.lt_of_lt_of_le hsecond.1 hrun.writes.weight_le
    obtain ⟨token', first', htoken', hface, hfirst⟩ := hfacing.takes htoken (Nat.le_of_lt hweight)
    obtain ⟨run', second', hrun', hlike, hmiddle⟩ := hinner hrun hfirst hsecond
    obtain ⟨runs', after', hrest', hlikes, hafter⟩ := ih hmiddle hsettled
    rw [← kind_of_face hface] at hnext
    exact ⟨run' :: runs', after', .more htoken' hnext hsame hrun' hrest', hlike.cons hlikes, hafter⟩

theorem Elements.settled {separator : Separator} {found : List Run} {cursor after : Cursor}
    (hsettled : Settled rest after)
    (h : Elements (Collects depth) bracket separator found cursor body after) :
    Settled rest cursor := by
  have hweight := Nat.lt_of_lt_of_le hsettled.1 h.weight_le
  cases h with
  | more htoken hnext =>
    exact .of_kind_ne hweight (htoken.current_eq ▸ ne_colon_of_separator hnext)
  | trailing htoken hnext =>
    exact .of_kind_ne hweight (htoken.current_eq ▸ ne_colon_of_separator hnext)
  | enumeration hdots => exact .of_kind_ne hweight (by simp [hdots])
  | tail hbar hkind => exact .of_kind_ne hweight (by simp [hbar.current_eq, hkind])
  | done => exact hsettled

theorem Elements.within (hinner : Transfers rest rest' depth) {separator : Separator}
    {found found' : List Run} {cursor cursor' after : Cursor} (hfound : Alike found found')
    (hfacing : Facing rest rest' cursor cursor') (hsettled : Settled rest after)
    (h : Elements (Collects depth) bracket separator found cursor body after) :
    Carries rest rest' (Elements (Collects depth) bracket separator found') body after cursor' := by
  induction h generalizing cursor' found' with
  | more htoken hnext hopen hrun hrest ih =>
    have hsecond := hrest.settled hsettled
    have hweight := Nat.lt_of_lt_of_le hsecond.1 hrun.writes.weight_le
    obtain ⟨token', first', htoken', hface, hfirst⟩ := hfacing.takes htoken (Nat.le_of_lt hweight)
    obtain ⟨run', second', hrun', hlike, hmiddle⟩ := hinner hrun hfirst hsecond
    obtain ⟨body', after', hrest', hlikes, hafter⟩ :=
      ih (hfound.append hlike.singleton) hmiddle hsettled
    rw [← kind_of_face hface] at hnext
    rw [← hfirst.kind_eq hweight] at hopen
    exact ⟨body', after', .more htoken' hnext hopen hrun' hrest', hlikes, hafter⟩
  | trailing htoken hnext hclosing =>
    obtain ⟨token', after', htoken', hface, hafter⟩ :=
      hfacing.takes htoken (Nat.le_of_lt hsettled.1)
    rw [← kind_of_face hface] at hnext
    rw [← hafter.kind_eq hsettled.1] at hclosing
    exact ⟨_, after', .trailing htoken' hnext hclosing, hfound.elements (.refl _) _ _, hafter⟩
  | enumeration hdots hbody =>
    have hweight := Nat.lt_trans hsettled.1 hbody.weight_lt
    obtain ⟨body', after', hbody', hlike, hafter⟩ := hbody.within hinner hfacing hfound hsettled
    rw [← hfacing.kind_eq hweight] at hdots
    exact ⟨body', after', .enumeration hdots hbody', hlike, hafter⟩
  | tail hbar hkind hlast =>
    have hweight := Nat.lt_of_lt_of_le hsettled.1 hlast.writes.weight_le
    obtain ⟨bar', middle', hbar', hface, hmiddle⟩ := hfacing.takes hbar (Nat.le_of_lt hweight)
    obtain ⟨last', after', hlast', hlike, hafter⟩ := hinner hlast hmiddle hsettled
    rw [← kind_of_face hface] at hkind
    exact ⟨_, after', .tail hbar' hkind hlast', hfound.elements hlike.some _ _, hafter⟩
  | done hnone hdots hbar =>
    rw [← hfacing.kind_eq hsettled.1] at hnone hdots hbar
    exact ⟨_, cursor', .done hnone hdots hbar, hfound.elements (.refl _) _ _, hfacing⟩

theorem Body.settled {first : Run} {cursor after : Cursor} (hsettled : Settled rest after)
    (h : Body (Collects depth) bracket first cursor body after) : Settled rest cursor := by
  refine ⟨Nat.lt_of_lt_of_le hsettled.1 h.weight_le, fun hkind => ?_⟩
  unfold Body at h
  rw [hkind] at h
  obtain ⟨colon, middle, generator, last, generators, hcolon, hgenerator, hgenerators, -⟩ := h
  rw [hcolon.advance_eq]
  exact Nat.lt_of_lt_of_le hsettled.1
    (Nat.le_trans hgenerators.weight_le hgenerator.writes.weight_le)

section Containers

variable (hinner : Transfers rest rest' depth) {cursor cursor' after : Cursor}
  (hfacing : Facing rest rest' cursor cursor')

include hinner hfacing

theorem Body.within {first first' : Run} (hfirst : Alike first first')
    (hsettled : Settled rest after)
    (h : Body (Collects depth) bracket first cursor body after) :
    Carries rest rest' (Body (Collects depth) bracket first') body after cursor' := by
  have hkind := hfacing.kind_eq (Nat.lt_of_lt_of_le hsettled.1 h.weight_le)
  unfold Carries Body
  rw [hkind]
  unfold Body at h
  split at h
  · exact h.within hinner hfacing hfirst.singleton hsettled
  · obtain ⟨colon, middle, generator, last, generators, hcolon, hgenerator, hgenerators, rfl⟩ := h
    have hlast := hgenerators.settled hsettled
    have hweight := Nat.lt_of_lt_of_le hlast.1 hgenerator.writes.weight_le
    obtain ⟨colon', middle', hcolon', -, hmiddle⟩ := hfacing.takes hcolon (Nat.le_of_lt hweight)
    obtain ⟨generator', last', hgenerator', hlike, hbehind⟩ := hinner hgenerator hmiddle hlast
    obtain ⟨generators', after', hgenerators', hlikes, hafter⟩ :=
      hgenerators.within hinner hbehind hsettled
    exact ⟨_, after', ⟨colon', middle', generator', last', generators', hcolon', hgenerator',
      hgenerators', rfl⟩, hfirst.comprehension (hlike.cons hlikes), hafter⟩
  · exact h.within hinner hfirst.singleton hfacing hsettled
  · exact h.within hinner hfirst.singleton hfacing hsettled
  · obtain ⟨bar, middle, last, hbar, hlast, rfl⟩ := h
    have hweight := Nat.lt_of_lt_of_le hsettled.1 hlast.writes.weight_le
    obtain ⟨bar', middle', hbar', -, hmiddle⟩ := hfacing.takes hbar (Nat.le_of_lt hweight)
    obtain ⟨last', after', hlast', hlike, hafter⟩ := hinner hlast hmiddle hsettled
    exact ⟨_, after', ⟨bar', middle', last', hbar', hlast', rfl⟩,
      hfirst.singleton.elements hlike.some _ _, hafter⟩
  · obtain ⟨hclosing, rfl, rfl⟩ := h
    exact ⟨_, cursor', ⟨hclosing, rfl, rfl⟩, hfirst.singleton.elements (.refl _) _ _, hfacing⟩

theorem Container.within {atom : Atom} (hweight : totalWeight rest ≤ after.weight)
    (h : Container (Collects depth) cursor atom after) :
    Carries rest rest' (Container (Collects depth)) atom after cursor' := by
  cases h with
  | empty hopening hclosing hkind =>
    have hlt := hclosing.weight_lt
    obtain ⟨opening', middle', hopening', hface, hmiddle⟩ := hfacing.takes hopening (by omega)
    obtain ⟨closing', after', hclosing', hface', hafter⟩ := hmiddle.takes hclosing hweight
    rw [← kind_of_face hface, ← kind_of_face hface'] at hkind
    refine ⟨_, after', .empty hopening' hclosing' hkind, ?_, hafter⟩
    rw [kind_of_face hface]
    rfl
  | filled hopening hopen hrun hbody hclosing hkind =>
    have hfourth : Settled rest _ := .of_takes hclosing hkind (closing_ne_colon _) hweight
    have hthird := hbody.settled hfourth
    have hsecond := Nat.lt_of_lt_of_le hthird.1 hrun.writes.weight_le
    obtain ⟨opening', second', hopening', hface, hbehind⟩ :=
      hfacing.takes hopening (Nat.le_of_lt hsecond)
    obtain ⟨run', third', hrun', hlike, hbehind'⟩ := hinner hrun hbehind hthird
    obtain ⟨body', fourth', hbody', hlikeBody, hbehind''⟩ :=
      hbody.within hinner hbehind' hlike hfourth
    obtain ⟨closing', after', hclosing', hface', hafter⟩ := hbehind''.takes hclosing hweight
    have hopeningKind := kind_of_face hface
    rw [← hbehind.kind_eq hsecond, ← hopeningKind] at hopen
    rw [← hopeningKind] at hbody'
    rw [← kind_of_face hface', ← hopeningKind] at hkind
    refine ⟨_, after', .filled hopening' hopen hrun' hbody' hclosing' hkind, ?_, hafter⟩
    rw [hopeningKind]
    exact hlikeBody.closedContainer _ _ _

/-! ## Lambdas and conditionals within like tokens -/

variable {context : RunContext}

theorem Lambda.carried {atom : Atom} (hweight : totalWeight rest ≤ after.weight)
    (h : Lambda (Collects depth) context cursor atom after)
    (hcarries : ∀ {parameters : List RunItem} {body : Run} {span : Span} {third third' : Cursor},
      atom = .lambda parameters body span →
      Collects depth { context with stopAtDot := false } third body after →
      Facing rest rest' third third' →
      Carries rest rest' (Collects depth { context with stopAtDot := false }) body after third') :
    Carries rest rest' (Lambda (Collects depth) context) atom after cursor' := by
  cases h with
  | intro hbackslash hparameters hdot hkind hbody =>
    have hthird := Nat.le_trans hweight hbody.writes.weight_le
    have hsecond : Settled rest _ := .of_takes hdot hkind nofun hthird
    have hfirst := Nat.lt_of_lt_of_le hsecond.1 hparameters.writes.weight_le
    obtain ⟨backslash', first', hbackslash', -, hbehind⟩ :=
      hfacing.takes hbackslash (Nat.le_of_lt hfirst)
    obtain ⟨parameters', second', hparameters', hlike, hbehind'⟩ :=
      hinner hparameters hbehind hsecond
    obtain ⟨dot', third', hdot', hface, hbehind''⟩ := hbehind'.takes hdot hthird
    obtain ⟨body', after', hbody', hlikeBody, hafter⟩ := hcarries rfl hbody hbehind''
    rw [← kind_of_face hface] at hkind
    exact ⟨_, after', .intro hbackslash' hparameters' hdot' hkind hbody',
      hlike.items.lambda hlikeBody _ _, hafter⟩

theorem Conditional.carried {items : List RunItem} (hweight : totalWeight rest ≤ after.weight)
    (h : Conditional (Collects depth) context cursor items after)
    (hcarries : ∀ {branch : Run} {third third' : Cursor},
      Collects depth context third branch after → after.current.kind ≠ .word .elseWord →
      Facing rest rest' third third' →
      Carries rest rest' (fun cursor branch after =>
        Collects depth context cursor branch after ∧ after.current.kind ≠ .word .elseWord)
        branch after third') :
    Carries rest rest' (Conditional (Collects depth) context) items after cursor' := by
  cases h with
  | withElse hopening hcondition hjoining hthen hbranch hclosing helse =>
    have hfourth : Settled rest _ := .of_takes hclosing helse nofun hweight
    have hthird := Nat.lt_of_lt_of_le hfourth.1 hbranch.writes.weight_le
    have hsecond : Settled rest _ := .of_takes hjoining hthen nofun (Nat.le_of_lt hthird)
    have hfirst := Nat.lt_of_lt_of_le hsecond.1 hcondition.writes.weight_le
    obtain ⟨opening', first', hopening', -, hbehind⟩ :=
      hfacing.takes hopening (Nat.le_of_lt hfirst)
    obtain ⟨condition', second', hcondition', hlike, hbehind⟩ := hinner hcondition hbehind hsecond
    obtain ⟨joining', third', hjoining', hface, hbehind⟩ :=
      hbehind.takes hjoining (Nat.le_of_lt hthird)
    obtain ⟨branch', fourth', hbranch', hlike', hbehind⟩ := hinner hbranch hbehind hfourth
    obtain ⟨closing', after', hclosing', hface', hafter⟩ := hbehind.takes hclosing hweight
    rw [← kind_of_face hface] at hthen
    rw [← kind_of_face hface'] at helse
    exact ⟨_, after', .withElse hopening' hcondition' hjoining' hthen hbranch' hclosing' helse,
      (hlike.conditional hlike'.some _ _).singleton, hafter⟩
  | withoutElse hopening hcondition hjoining hthen hbranch helse =>
    have hthird := Nat.le_trans hweight hbranch.writes.weight_le
    have hsecond : Settled rest _ := .of_takes hjoining hthen nofun hthird
    have hfirst := Nat.lt_of_lt_of_le hsecond.1 hcondition.writes.weight_le
    obtain ⟨opening', first', hopening', -, hbehind⟩ :=
      hfacing.takes hopening (Nat.le_of_lt hfirst)
    obtain ⟨condition', second', hcondition', hlike, hbehind⟩ := hinner hcondition hbehind hsecond
    obtain ⟨joining', third', hjoining', hface, hbehind⟩ := hbehind.takes hjoining hthird
    obtain ⟨branch', after', ⟨hbranch', helse'⟩, hlike', hafter⟩ := hcarries hbranch helse hbehind
    rw [← kind_of_face hface] at hthen
    exact ⟨_, after', .withoutElse hopening' hcondition' hjoining' hthen hbranch' helse',
      (hlike.conditional (.refl none) _ _).cons hlike'.items, hafter⟩

theorem Conditional.within {items : List RunItem} (hsettled : Settled rest after)
    (h : Conditional (Collects depth) context cursor items after) :
    Carries rest rest' (Conditional (Collects depth) context) items after cursor' := by
  refine h.carried hinner hfacing (Nat.le_of_lt hsettled.1) fun hbranch helse hbehind => ?_
  obtain ⟨branch', after', hbranch', hlike, hafter⟩ := hinner hbranch hbehind hsettled
  rw [← hafter.kind_eq hsettled.1] at helse
  exact ⟨branch', after', ⟨hbranch', helse⟩, hlike, hafter⟩

/-! ## Items within like tokens -/

variable {started : Bool} {items : List RunItem}

theorem Next.carried (hweight : totalWeight rest ≤ after.weight)
    (h : Next (Collects depth) context started cursor items after)
    (hnamed : ∀ {atom}, items = [.atom atom] → Named context cursor atom after →
      Carries rest rest' (Named context) atom after cursor')
    (hlambda : ∀ {atom}, items = [.atom atom] → cursor.current.kind = .mark .backslash →
      Lambda (Collects depth) context cursor atom after →
      Carries rest rest' (Lambda (Collects depth) context) atom after cursor')
    (hconditional : Conditional (Collects depth) context cursor items after →
      Carries rest rest' (Conditional (Collects depth) context) items after cursor')
    (hoperator : ∀ {op}, items = [.operator op] → Operator cursor op after →
      Carries rest rest' Operator op after cursor') :
    Carries rest rest' (Next (Collects depth) context started) items after cursor' := by
  have hcurrent := hfacing.kind_eq (Nat.lt_of_le_of_lt hweight h.weight_lt)
  cases h with
  | named hkind h =>
    obtain ⟨atom', after', h', hlike, hafter⟩ := hnamed rfl h
    exact ⟨_, after', .named (hcurrent ▸ hkind) h', hlike.atom, hafter⟩
  | declared htoken hkind hname hidentifier =>
    have hmiddle := Nat.lt_of_le_of_lt hweight hname.weight_lt
    obtain ⟨token', middle', htoken', hface, hbehind⟩ :=
      hfacing.takes htoken (Nat.le_of_lt hmiddle)
    obtain ⟨name', after', hname', hface', hafter⟩ := hbehind.takes hname hweight
    rw [← kind_of_face hface] at hkind
    rw [← kind_of_face hface'] at hidentifier
    refine ⟨_, after', .declared htoken' hkind hname' hidentifier, ?_, hafter⟩
    rw [identifier_of_face hface']
    rfl
  | number htoken hkind hliteral =>
    obtain ⟨token', after', htoken', hface, hafter⟩ := hfacing.takes htoken hweight
    rw [← kind_of_face hface] at hkind
    exact ⟨_, after', .number htoken' hkind (literal_of_face hface hliteral), rfl, hafter⟩
  | string htoken hkind =>
    obtain ⟨token', after', htoken', hface, hafter⟩ := hfacing.takes htoken hweight
    obtain ⟨hkind', hvalue, -⟩ := Face.mk.inj hface
    refine ⟨_, after', .string htoken' (hkind'.trans hkind), ?_, hafter⟩
    rw [hvalue]
    rfl
  | container hkind h =>
    obtain ⟨atom', after', h', hlike, hafter⟩ := h.within hinner hfacing hweight
    exact ⟨_, after', .container (hcurrent ▸ hkind) h', hlike.atom, hafter⟩
  | lambda hkind h =>
    obtain ⟨atom', after', h', hlike, hafter⟩ := hlambda rfl hkind h
    exact ⟨_, after', .lambda (hcurrent.trans hkind) h', hlike.atom, hafter⟩
  | conditional hkind hguard h =>
    obtain ⟨items', after', h', hlike, hafter⟩ := hconditional h
    exact ⟨_, after', .conditional (hcurrent.trans hkind) hguard h', hlike, hafter⟩
  | operator hkind h =>
    obtain ⟨op', after', h', hlike, hafter⟩ := hoperator rfl h
    exact ⟨_, after', .operator (hcurrent ▸ hkind) h', hlike.operator, hafter⟩

theorem Next.within (hsettled : Settled rest after)
    (h : Next (Collects depth) context started cursor items after) :
    Carries rest rest' (Next (Collects depth) context started) items after cursor' := by
  have hweight := Nat.le_of_lt hsettled.1
  refine h.carried hinner hfacing hweight ?_ ?_ ?_ ?_
  · exact fun _ hnamed => hnamed.within hfacing hsettled
  · exact fun _ _ hlambda => hlambda.carried hinner hfacing hweight fun _ hbody hbehind =>
      hinner hbody hbehind hsettled
  · exact fun hconditional => hconditional.within hinner hfacing hsettled
  · exact fun _ hoperator => hoperator.within hfacing hsettled.1

end Containers

section Items

variable {context : RunContext} {started : Bool} {items : List RunItem}
  {cursor cursor' after : Cursor}

theorem Stop.within (hfacing : Facing rest rest' cursor cursor') (hsettled : Settled rest after)
    (h : Stop context started cursor after) :
    ∃ after', Stop context started cursor' after' ∧ Facing rest rest' after after' := by
  cases h with
  | guard hkind hstop =>
    rw [← hfacing.kind_eq hsettled.1] at hkind
    exact ⟨cursor', .guard hkind hstop, hfacing⟩
  | assignment hkind hstop =>
    rw [← hfacing.kind_eq hsettled.1] at hkind
    exact ⟨cursor', .assignment hkind hstop, hfacing⟩
  | dot hkind hstop =>
    rw [← hfacing.kind_eq hsettled.1] at hkind
    exact ⟨cursor', .dot hkind hstop, hfacing⟩
  | glued hdot hstop =>
    have hweight := Nat.lt_of_lt_of_le hsettled.1 (weight_split_le cursor 1)
    rw [← beginsWithDot_of_face (hfacing.current hweight)] at hdot
    exact ⟨_, .glued hdot hstop, hfacing.split hweight 1⟩
  | other hkind =>
    rw [← hfacing.kind_eq hsettled.1] at hkind
    exact ⟨cursor', .other hkind, hfacing⟩

theorem Items.settled (hsettled : Settled rest after)
    (h : Items (Collects depth) context started cursor items after) : Settled rest cursor := by
  have hweight := Nat.lt_of_lt_of_le hsettled.1 (h.writes Collects.writes).weight_le
  cases h with
  | stop h =>
    cases stop_of_answer _ _ _ h with
    | glued hdot => exact .of_kind_ne hweight (by simp [(kind_of_beginsWithDot hdot).1])
    | _ => exact hsettled
  | next h =>
    refine .of_kind_ne hweight fun hkind => ?_
    have hbegins := beginsItem_of_next _ _ _ (next_of_answer _ _ _ h)
    rw [hkind] at hbegins
    cases hbegins

theorem Items.within (hinner : Transfers rest rest' depth)
    (hfacing : Facing rest rest' cursor cursor') (hsettled : Settled rest after)
    (h : Items (Collects depth) context started cursor items after) :
    Carries rest rest' (Items (Collects depth) context started) items after cursor' := by
  induction h generalizing cursor' with
  | stop h =>
    obtain ⟨after', hstop, hafter⟩ := (stop_of_answer _ _ _ h).within hfacing hsettled
    exact ⟨[], after', .stop (answer_of_stop _ _ _ hstop), .refl _, hafter⟩
  | next h hrest ih =>
    have hmiddle := hrest.settled hsettled
    have hnext := next_of_answer _ _ _ h
    have hweight := Nat.lt_of_lt_of_le hmiddle.1 (hnext.writes Collects.writes).weight_le
    obtain ⟨items', middle', hnext', hlike, hbehind⟩ := hnext.within hinner hfacing hmiddle
    obtain ⟨more', after', hrest', hlikes, hafter⟩ := ih hbehind hsettled
    have hhalts := halts_of_answer _ _ _ h
    rw [← halts_of_face (hfacing.current hweight)] at hhalts
    exact ⟨_, after', .next (answer_of_next _ _ _ hnext' hhalts) hrest', hlike.append hlikes,
      hafter⟩

end Items

/-- Within like tokens every run is carried over. -/
theorem transfers (rest rest' : List Token) (depth : Nat) : Transfers rest rest' depth := by
  induction depth with
  | zero => exact fun h => h.elim
  | succ depth ih =>
    rintro context cursor _ after cursor' ⟨items, hitems, rfl⟩ hfacing hsettled
    obtain ⟨items', after', hitems', hlike, hafter⟩ := hitems.within ih hfacing hsettled
    exact ⟨_, after', ⟨items', hitems', rfl⟩, hlike.ofItems _ _, hafter⟩

end Grammar

end Equational

import Equational.Proofs.Relocation.Resolution
import Equational.Proofs.Run.Whole

/-!
# Chains of conditionals

Phrases are collected whole and can be resolved.  Between the words of a conditional they are
collected as they are on their own, so that the conditional is one item, of which the else branch is
whatever comes behind.  If that begins with another conditional, there is a chain.
-/

namespace Equational

open Cursor Parse Grammar

/-! ## Phrases -/

/-- Tokens that are collected whole, as a run that can be resolved and is flat. -/
structure Phrase (table : OperatorTable) where
  tokens : List Token
  run : Run
  inside : ∀ token ∈ tokens, token.kind ≠ .endOfInput
  whole : ∃ final, Parse.run {} (.ofTokens tokens .empty) = .ok run final ∧ final.hasTokens = false
  flat : run.isFlat
  resolves : ∃ e, run.resolve table = .ok e

namespace Phrase

variable {table : OperatorTable} (phrase : Phrase table)

def faces : List Face := phrase.tokens.map Token.face

theorem isWhole : Whole phrase.tokens phrase.run := ⟨phrase.inside, phrase.whole⟩

section Within

variable (htable : table.HasNoPostfix) {context : RunContext} (hrelaxes : Relaxes {} context)
  {cursor : Cursor} {depth : Nat} {face : Face} {faces : List Face} {behind : List Token}
  (hfaces : cursor.Faces (phrase.faces ++ face :: faces) behind) (hcloses : Closes face.kind)

include htable hrelaxes hfaces hcloses

theorem items (started : Bool) (hended : cursor.IsEnded) (hweight : cursor.weight ≤ depth + 1) :
    ∃ items after, Items (Collects depth) context started cursor items after ∧
      Alike phrase.run.items items ∧ after.Faces (face :: faces) behind := by
  refine phrase.isWhole.items hfaces hended hweight ?_
  intro deep last follower more alone items final hlast hface hitems hrun hfinal hfacing
  have hflat := phrase.flat
  rw [Run.isFlat_eq, hrun] at hflat
  obtain ⟨e, he⟩ := phrase.resolves
  obtain ⟨-, hfinished⟩ := Run.finished_of_resolve htable he
  rw [hrun] at hfinished
  rw [← congrArg Face.kind hface] at hcloses
  have hrelaxed : Items (Collects deep) context started alone items final :=
    hitems.relaxed hrelaxes Collects.relaxed hflat
  exact hrelaxed.onward hlast hcloses (continues htable hlast hcloses _) hflat hfinished hfinal
    hfacing

theorem collects (hended : cursor.IsEnded) (hweight : cursor.weight ≤ depth) :
    ∃ run after, Collects depth context cursor run after ∧ Alike phrase.run run ∧
      after.Faces (face :: faces) behind := by
  have hpos := hended.weight_pos
  obtain ⟨depth, rfl⟩ : ∃ less, depth = less + 1 := Nat.exists_eq_add_one.mpr (by omega)
  obtain ⟨items, after, hitems, hlike, hafter⟩ :=
    phrase.items htable hrelaxes hfaces hcloses false hended hweight
  exact ⟨_, after, ⟨items, hitems, rfl⟩, .run hlike, hafter⟩

end Within

end Phrase

/-! ## Names -/

theorem collects_name {context : RunContext} {cursor after : Cursor} {token : Token}
    (hended : cursor.IsEnded) (htakes : cursor.Takes token after) (hkind : token.kind.isIdentifier)
    (hcolon : after.current.kind ≠ .mark .colon) (hstop : Stop context true after after) :
    Collects cursor.weight context cursor
      ⟨[.atom (.identifier (.ofToken token) token.span)], token.span⟩ after := by
  obtain ⟨depth, hdepth⟩ := Nat.exists_eq_add_one.mpr hended.weight_pos
  rw [← htakes.current_eq] at hkind
  have hnext : Next (Collects depth) context false cursor
      [.atom (.identifier (.ofToken token) token.span)] after :=
    .named hkind (.plain htakes fun h => hcolon h.2.1)
  have hhalts : halts context cursor.current = false := by
    refine halts_of_not_operator context ?_
    generalize cursor.current.kind = kind at hkind
    cases kind <;> first | rfl | cases hkind
  rw [hdepth]
  exact ⟨_, .next (answer_of_next _ _ _ hnext hhalts) (.stop (answer_of_stop _ _ _ hstop)), rfl⟩

theorem resolve_name {table : OperatorTable} {identifier : Identifier} {span : Span}
    (h : table.isDeclared ⟨identifier.name.text, identifier.moduleName⟩ = false) (runSpan : Span) :
    (Run.mk [.atom (.identifier identifier span)] runSpan).resolve table =
      .ok (.identifier identifier span) := by
  refine resolve_operand ?_ runSpan
  rw [RunItem.read, wordOperator?, h, Bool.and_false]
  rfl

def nameToken (value : String) : Token := ⟨.functionName, value, none, .point 0⟩

def Phrase.name {table : OperatorTable} (value : String)
    (h : table.isDeclared ⟨value, none⟩ = false) : Phrase table where
  tokens := [nameToken value]
  run := ⟨[.atom (.identifier (.ofToken (nameToken value)) (.point 0))], .point 0⟩
  inside token htoken := by
    rw [List.mem_singleton.mp htoken]
    nofun
  whole := by
    have htakes : (ParseState.ofTokens [nameToken value] .empty).cursor.Takes (nameToken value)
        ⟨[nameToken value], [.endOfInput 0], .empty⟩ := .intro [] _ nofun
    have hended : (ParseState.ofTokens [nameToken value] .empty).cursor.IsEnded :=
      ⟨[nameToken value], .endOfInput 0, rfl, rfl⟩
    have hcollects : Collects _ {} _ _ _ := collects_name hended htakes rfl nofun (.other rfl)
    exact ⟨_, run_of_collects hended (Nat.le_succ _) hcollects, rfl⟩
  flat := rfl
  resolves := ⟨_, resolve_name h _⟩

/-! ## Branches -/

structure Branch (table : OperatorTable) where
  condition : Phrase table
  value : Phrase table

namespace Branch

variable {table : OperatorTable} (branch : Branch table)

def faces : List Face :=
  .word .ifWord :: branch.condition.faces ++ .word .thenWord :: branch.value.faces ++
    [.word .elseWord]

def item : RunItem := .conditional branch.condition.run (some branch.value.run) default

variable (htable : table.HasNoPostfix) {context : RunContext} (hrelaxes : Relaxes {} context)
  {cursor : Cursor} (hended : cursor.IsEnded) {depth : Nat} (hweight : cursor.weight ≤ depth + 1)
  {faces : List Face} {behind : List Token} (hfaces : cursor.Faces (branch.faces ++ faces) behind)

include htable hrelaxes hended hweight hfaces

theorem conditional : ∃ item after, Conditional (Collects depth) context cursor [item] after ∧
    Alike branch.item item ∧ after.Faces faces behind := by
  simp only [Branch.faces, List.cons_append, List.append_assoc, List.nil_append] at hfaces
  obtain ⟨opening, first, hopening, -, hfirst⟩ := hfaces.takes nofun
  have hfirstEnded := hopening.isEnded hended
  have hfirstWeight := hopening.weight_lt
  have hfirstDepth : first.weight ≤ depth := by omega
  obtain ⟨condition, second, hcondition, hlike, hsecond⟩ :=
    branch.condition.collects htable .plain hfirst ⟨rfl, nofun⟩ hfirstEnded hfirstDepth
  obtain ⟨joining, third, hjoining, hthen, hthird⟩ := hsecond.takes nofun
  have hsecondEnded := hcondition.writes.isEnded hfirstEnded
  have hthirdWeight := Nat.lt_of_lt_of_le hjoining.weight_lt hcondition.writes.weight_le
  have hthirdDepth : third.weight ≤ depth := by omega
  obtain ⟨value, fourth, hvalue, hlike', hfourth⟩ :=
    branch.value.collects htable hrelaxes hthird ⟨rfl, nofun⟩ (hjoining.isEnded hsecondEnded)
      hthirdDepth
  obtain ⟨closing, after, hclosing, helse, hafter⟩ := hfourth.takes nofun
  exact ⟨_, after, .withElse hopening hcondition hjoining (congrArg Face.kind hthen) hvalue hclosing
    (congrArg Face.kind helse), hlike.conditional hlike'.some _ _, hafter⟩

end Branch

/-! ## Chains -/

section Chains

variable {table : OperatorTable}

def chainFaces (branches : List (Branch table)) (last : Phrase table) : List Face :=
  branches.flatMap Branch.faces ++ last.faces

def chainItems (branches : List (Branch table)) (last : Phrase table) : List RunItem :=
  branches.map Branch.item ++ last.run.items

/-- Items like these are collected, up to where these faces are ahead. -/
def Gathers (depth : Nat) (context : RunContext) (started : Bool) (cursor : Cursor)
    (items : List RunItem) (faces : List Face) (behind : List Token) : Prop :=
  ∃ items' after, Items (Collects depth) context started cursor items' after ∧
    Alike items items' ∧ after.Faces faces behind

theorem Gathers.collects {depth : Nat} {context : RunContext} {cursor : Cursor}
    {items : List RunItem} {faces : List Face} {behind : List Token}
    (h : Gathers depth context false cursor items faces behind) :
    ∃ run after, Collects (depth + 1) context cursor run after ∧ Alike items run.items ∧
      after.Faces faces behind := by
  obtain ⟨items', after, hitems, hlike, hafter⟩ := h
  exact ⟨_, after, ⟨items', hitems, rfl⟩, hlike, hafter⟩

variable (htable : table.HasNoPostfix) {depth : Nat} {context : RunContext} {started : Bool}
  {behind : List Token} {face : Face} {faces : List Face}

include htable

theorem Branch.gathers (branch : Branch table) (hrelaxes : Relaxes {} context) {cursor : Cursor}
    (hended : cursor.IsEnded) (hweight : cursor.weight ≤ depth + 1) {first : List Face}
    (hfaces : cursor.Faces (branch.faces ++ first) behind)
    (hguard : (context.stopAtGuard && started) = false) {items : List RunItem}
    (hrest : ∀ middle : Cursor, middle.IsEnded → middle.weight ≤ depth + 1 →
      middle.Faces first behind → Gathers depth context true middle items faces behind) :
    Gathers depth context started cursor (branch.item :: items) faces behind := by
  obtain ⟨item, middle, hconditional, hlike, hmiddle⟩ :=
    branch.conditional htable hrelaxes hended hweight hfaces
  have hkind : cursor.current.kind = .word .ifWord := congrArg Face.kind hfaces.current_eq
  have hnext : Next (Collects depth) context started cursor [item] middle :=
    .conditional hkind (by simp [hguard]) hconditional
  have hhalts : halts context cursor.current = false :=
    halts_of_not_operator context (by rw [hkind]; rfl)
  have hmiddleEnded := (hnext.writes Collects.writes).isEnded hended
  have hmiddleWeight := hnext.weight_lt
  obtain ⟨more, after, hmore, hlikes, hafter⟩ := hrest middle hmiddleEnded (by omega) hmiddle
  exact ⟨item :: more, after, .next (answer_of_next _ _ _ hnext hhalts) hmore, hlike.cons hlikes,
    hafter⟩

/-- Where a conditional is no guard, the whole chain is collected. -/
theorem gathers_chain (branches : List (Branch table)) (last : Phrase table)
    (hrelaxes : Relaxes {} context) {cursor : Cursor} (hended : cursor.IsEnded)
    (hweight : cursor.weight ≤ depth + 1)
    (hfaces : cursor.Faces (chainFaces branches last ++ face :: faces) behind)
    (hcloses : Closes face.kind) (hguard : context.stopAtGuard = false) :
    Gathers depth context started cursor (chainItems branches last) (face :: faces) behind := by
  induction branches generalizing started cursor with
  | nil => exact last.items htable hrelaxes hfaces hcloses started hended hweight
  | cons branch rest ih =>
    simp only [chainFaces, List.flatMap_cons, List.append_assoc] at hfaces ih
    refine branch.gathers htable hrelaxes hended hweight hfaces (by simp [hguard]) ?_
    exact fun middle hended hweight hmiddle => ih hended hweight hmiddle

/-- In parentheses a conditional is no guard, whatever the parentheses are in. -/
theorem collects_group (context : RunContext) (first : Branch table) (more : List (Branch table))
    (last : Phrase table) {cursor : Cursor} (hended : cursor.IsEnded)
    (hweight : cursor.weight ≤ depth + 1)
    (hfaces : cursor.Faces (.mark .openParen :: (chainFaces (first :: more) last ++
      .mark .closeParen :: face :: faces)) behind)
    (hcloses : Closes face.kind) :
    ∃ run span runSpan after, Collects (depth + 1) context cursor
        ⟨[.atom (closedContainer .paren (.elements [run] none false none) span)], runSpan⟩ after ∧
      Alike (chainItems (first :: more) last) run.items ∧ after.Faces (face :: faces) behind := by
  have hkind : cursor.current.kind = .mark .openParen := congrArg Face.kind hfaces.current_eq
  obtain ⟨opening, second, hopening, hface, hsecond⟩ := hfaces.takes nofun
  have hopeningKind : opening.kind = .mark .openParen := congrArg Face.kind hface
  have hsecondEnded := hopening.isEnded hended
  have hsecondWeight := hopening.weight_lt
  have hopen : second.current.kind ≠ .mark Bracket.paren.closing := by
    have hbegins : second.current.face = Face.word .ifWord := hsecond.current_eq
    rw [show second.current.kind = .word .ifWord from congrArg Face.kind hbegins]
    nofun
  have hpos := hsecondEnded.weight_pos
  obtain ⟨less, rfl⟩ : ∃ less, depth = less + 1 := Nat.exists_eq_add_one.mpr (by omega)
  have hless : second.weight ≤ less + 1 := by omega
  have hgathers : Gathers less (.withColon {}) false second _ _ behind :=
    gathers_chain htable (first :: more) last .bracketed hsecondEnded hless hsecond ⟨rfl, nofun⟩ rfl
  obtain ⟨items, third, hitems, hlike, hthird⟩ := hgathers
  have hthirdKind : third.current.kind = .mark .closeParen := congrArg Face.kind hthird.current_eq
  obtain ⟨closing, after, hclosing, hclosingFace, hafter⟩ := hthird.takes nofun
  have hclosingKind : closing.kind = .mark Bracket.paren.closing := congrArg Face.kind hclosingFace
  let run := Run.ofItems items (.point second.current.span.start)
  have hbody : Body (Collects (less + 1)) .paren run third (.elements [run] none false none)
      third := by
    unfold Body
    rw [hthirdKind]
    exact ⟨rfl, rfl, rfl⟩
  have hcontainer : Container (Collects (less + 1)) cursor
      (closedContainer .paren (.elements [run] none false none) (opening.span.through closing.span))
      after := by
    have hbracket : Bracket.ofOpening opening.kind = .paren := by rw [hopeningKind]; rfl
    rw [← hbracket] at hopen hclosingKind hbody ⊢
    exact .filled hopening hopen ⟨items, hitems, rfl⟩ hbody hclosing hclosingKind
  have hnext : Next (Collects (less + 1)) context false cursor _ after :=
    .container (by rw [hkind]; rfl) hcontainer
  have hhalts : halts context cursor.current = false :=
    halts_of_not_operator context (by rw [hkind]; rfl)
  have hbegins : beginsItem after.current.kind = false := by
    rw [show after.current.kind = face.kind from congrArg Face.kind hafter.current_eq]
    exact hcloses.begins
  have hstop : Stop context true after after := .other hbegins
  have hitems := Items.next (answer_of_next _ _ _ hnext hhalts) (.stop (answer_of_stop _ _ _ hstop))
  exact ⟨run, _, _, after, ⟨_, hitems, rfl⟩, hlike, hafter⟩

omit htable

/-! ## Chains that are resolved -/

theorem Relocated.exists_alike {α : Type} [Relocatable α] {value : α}
    {outcome image : Except Diagnostic α}
    (h : Relocated .nowhere (relocate .nowhere) (.ok value) image)
    (h' : Relocated .nowhere (relocate .nowhere) outcome image) :
    ∃ value', outcome = .ok value' ∧ Alike value value' := by
  rw [h.eq_ok] at h'
  obtain ⟨value', hvalue', himage⟩ := h'.exists_ok
  exact ⟨value', hvalue', himage.symm⟩

theorem Alike.resolve {first second : Run} (h : Alike first second) {e : Expr}
    (he : first.resolve table = .ok e) : ∃ e', second.resolve table = .ok e' ∧ Alike e e' := by
  have hfirst := Run.relocated_resolve .nowhere table first
  have hsecond := Run.relocated_resolve .nowhere table second
  rw [he, show relocate .nowhere first = relocate .nowhere second from h] at hfirst
  exact hfirst.exists_alike hsecond

theorem Alike.read {first second : RunItem} (h : Alike first second) {step : Step}
    (hread : first.read table = .ok step) :
    ∃ step', second.read table = .ok step' ∧ Alike step step' := by
  have hfirst := RunItem.relocated_read .nowhere table first
  have hsecond := RunItem.relocated_read .nowhere table second
  rw [hread, show relocate .nowhere first = relocate .nowhere second from h] at hfirst
  exact hfirst.exists_alike hsecond

theorem Alike.resolveParameters {first second : List RunItem} (h : Alike first second)
    {parameters : List Expr} (hresolve : resolveParameters table first = .ok parameters) :
    ∃ parameters', Equational.resolveParameters table second = .ok parameters' ∧
      Alike parameters parameters' := by
  have hfirst := relocated_resolveParameters .nowhere table first
  have hsecond := relocated_resolveParameters .nowhere table second
  rw [relocatedItems_eq] at hfirst hsecond
  rw [hresolve, show relocate .nowhere first = relocate .nowhere second from h] at hfirst
  exact hfirst.exists_alike hsecond

theorem Branch.exists_read (branch : Branch table) : ∃ condition thenBranch,
    branch.item.read table = .ok (.conditional condition thenBranch default) := by
  obtain ⟨condition, hcondition⟩ := branch.condition.resolves
  obtain ⟨value, hvalue⟩ := branch.value.resolves
  refine ⟨condition, some value, ?_⟩
  rw [Branch.item, RunItem.read, hcondition, resolveOption, hvalue]
  rfl

theorem Branch.exists_resolve_lone (branch : Branch table) {run : Run}
    (h : Alike [branch.item] run.items) :
    ∃ span, run.resolve table = .error ⟨.missingOperand "if" .right, span⟩ := by
  obtain ⟨items, runSpan⟩ := run
  obtain ⟨item, rest, rfl, hitem, hrest⟩ := Alike.exists_cons h
  obtain rfl := List.map_eq_nil_iff.mp hrest.symm
  obtain ⟨_, _, hread⟩ := branch.exists_read
  obtain ⟨step, hstep, hlike⟩ := Alike.read hitem hread
  cases step with
  | conditional condition thenBranch span => exact ⟨span, resolve_lone hstep runSpan⟩
  | operand value => cases hlike
  | operator op => cases hlike

theorem exists_resolve_chain (branches : List (Branch table)) (last : Phrase table) (span : Span) :
    ∃ e, (Run.mk (chainItems branches last) span).resolve table = .ok e := by
  induction branches generalizing span with
  | nil =>
    obtain ⟨e, he⟩ := last.resolves
    have hlike : Alike last.run ⟨chainItems [] last, span⟩ := .run (.refl _)
    obtain ⟨e', he', -⟩ := hlike.resolve he
    exact ⟨e', he'⟩
  | cons branch rest ih =>
    obtain ⟨e, he⟩ := ih default
    obtain ⟨_, _, hread⟩ := branch.exists_read
    exact exists_resolve_cons hread he span

end Chains

end Equational

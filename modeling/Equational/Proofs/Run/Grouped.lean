import Equational.Proofs.Run.ReadInside

/-!
# Grouping

Tokens that are collected whole, with no operator at either end, are the same expression in any
number of parentheses, and an element like any other.  Parentheses collect their first run where a
colon ends it, so there must be no type within reach of that; otherwise the parentheses hold a
comprehension.
-/

namespace Equational

open Cursor Grammar

variable {table : OperatorTable} {tokens : List Token} {run : Run} {e : Expr}

/-! ## Runs that rest -/

/-- There are items, and no operator at either end. -/
structure Run.Rests (table : OperatorTable) (run : Run) : Prop where
  nonempty : run.items ≠ []
  first : ∀ first ∈ run.items.head?, first.Rests table
  last : ∀ last ∈ run.items.getLast?, last.Rests table

theorem isOperator_relocate (place : Relocation) (item : RunItem) :
    (relocate place item).isOperator = item.isOperator := by
  cases item <;> rfl

theorem Alike.rests {item item' : RunItem} (h : Alike item item') (hrests : item.Rests table) :
    item'.Rests table where
  symbol := by rw [← isOperator_relocate .nowhere item', ← h, isOperator_relocate, hrests.symbol]
  word := by
    have hword := wordOperator_relocate .nowhere table item
    rw [h, wordOperator_relocate, hrests.word] at hword
    exact Option.map_eq_none_iff.mp hword

theorem Alike.run_rests {run' : Run} (h : Alike run run') (hrests : run.Rests table) :
    run'.Rests table := by
  have hitems : run.items.map (relocate .nowhere) = run'.items.map (relocate .nowhere) := h.items
  refine ⟨fun hnil => hrests.nonempty ?_, fun first hfirst => ?_, fun last hlast => ?_⟩
  · rwa [hnil, List.map_nil, List.map_eq_nil_iff] at hitems
  · have hhead := congrArg List.head? hitems
    rw [List.head?_map, List.head?_map, Option.mem_def.mp hfirst] at hhead
    obtain ⟨first', hfirst', hlike⟩ := Option.map_eq_some_iff.mp hhead
    exact Alike.rests hlike (hrests.first first' hfirst')
  · have htail := congrArg List.getLast? hitems
    rw [List.getLast?_map, List.getLast?_map, Option.mem_def.mp hlast] at htail
    obtain ⟨last', hlast', hlike⟩ := Option.map_eq_some_iff.mp htail
    exact Alike.rests hlike (hrests.last last' hlast')

/-! ## Whole tokens in front of a mark -/

section Within

variable {stopAtColon : Bool} {depth : Nat} {cursor : Cursor} {mark : Punctuation}
  {more : List Face} {behind : List Token}

theorem Whole.collects (h : Whole tokens run) (hne : run.items ≠ [])
    (hcolonless : stopAtColon = true → run.isColonless) (hends : Ends stopAtColon (.mark mark))
    (hcursor : cursor.Offers (depth + 1) (tokens.map Token.face ++ .mark mark :: more) behind) :
    ∃ items after, Items (Collects depth) { stopAtColon } false cursor items after ∧
      items ≠ [] ∧ Alike run.items items ∧ after.Offers depth (.mark mark :: more) behind := by
  have hsevers : Severs { stopAtColon } (.mark mark) := ⟨hends.begins, hends.colon, nofun⟩
  obtain ⟨items, after, hitems, hlike, hafter⟩ :=
    h.items_severed hcursor.faces hsevers hcolonless hcursor.isEnded hcursor.weight_le
  have hitemsNe : items ≠ [] := by
    rintro rfl
    exact hne (List.map_eq_nil_iff.mp hlike)
  refine ⟨items, after, hitems, hitemsNe, hlike, ?_, ?_, hafter⟩
  · exact (hitems.writes Collects.writes).isEnded hcursor.isEnded
  · cases hitems with
    | stop => exact absurd rfl hitemsNe
    | next hanswer hrest =>
      have hnext := (next_of_answer _ _ _ hanswer).weight_lt
      have hle := (hrest.writes Collects.writes).weight_le
      have hweight := hcursor.weight_le
      omega

theorem Whole.readsAs (h : Whole tokens run) (hne : run.items ≠ [])
    (hcolonless : stopAtColon = true → run.isColonless) (hresolve : run.resolve table = .ok e) :
    ReadsAs table stopAtColon e (tokens.map Token.face) := by
  constructor
  intro depth cursor mark more behind hends hcursor
  obtain ⟨depth, rfl⟩ := hcursor.exists_succ
  obtain ⟨items, after, hitems, hitemsNe, hlike, hafter⟩ := h.collects hne hcolonless hends hcursor
  have hrun : Alike run (Run.ofItems items (.point cursor.current.span.start)) := .run hlike
  exact ⟨_, after, ⟨items, hitems, rfl⟩, ⟨hitemsNe, hrun.resolve hresolve⟩, hafter.succ⟩

theorem Whole.readsInside (h : Whole tokens run) (hrests : run.Rests table)
    (hcolonless : run.isColonless) (hresolve : run.resolve table = .ok e) :
    ReadsInside table e (tokens.map Token.face) := by
  constructor
  intro depth cursor more behind hcursor
  obtain ⟨items, after, hitems, hitemsNe, hlike, hafter⟩ :=
    h.collects hrests.nonempty (fun _ => hcolonless) (ends_closing .paren true) hcursor
  refine ⟨items, after, hitems, hitemsNe, fun runSpan span => ?_, hafter⟩
  have hrun : Alike run ⟨items, runSpan⟩ := .run hlike
  obtain ⟨hnonempty, hfirst, hlast⟩ := hrun.run_rests hrests
  obtain ⟨e', he', hlikeExpr⟩ := hrun.resolve hresolve
  refine ⟨e', ?_, hlikeExpr⟩
  rw [Run.resolve] at he'
  have hgroup : (Atom.parenthesized items runSpan span).resolve table =
      assemble table runSpan (readItems table items) :=
    resolve_parenthesized runSpan span hfirst hlast
  exact hgroup.trans he'

end Within

/-! ## Parentheses in parentheses -/

def grouped : Nat → List Face → List Face
  | 0, faces => faces
  | k + 1, faces => Bracket.paren.enclosed (grouped k faces)

theorem ReadsInside.grouped {faces : List Face} (h : ReadsInside table e faces) (k : Nat) :
    ReadsInside table e (grouped k faces) := by
  induction k with
  | zero => exact h
  | succ k ih => exact ih.group.alone

/-! ## Elements -/

/-- These elements, the last of them perhaps behind a bar, are written so between the brackets of
such a list, set or tuple. -/
inductive Listing (bracket : Bracket) : List (Expr × List Face) → Option (Expr × List Face) →
    Expr → List Face → Prop where
  | single {first : Expr × List Face} {last : Option (Expr × List Face)} {span : Span}
    (hbracket : last = none → bracket ≠ .paren) :
    Listing bracket [first] last (.collection bracket [first.1] none (last.map Prod.fst) span)
      (first.2 ++ optional [.mark .pipe] last)
  | several {first : Expr × List Face} {pieces : List (Expr × List Face)}
    {last : Option (Expr × List Face)} {separator : Separator} {span : Span} (hne : pieces ≠ []) :
    Listing bracket (first :: pieces) last
      (.collection bracket (first.1 :: pieces.map Prod.fst) (some separator) (last.map Prod.fst)
        span)
      (first.2 ++ (separated separator pieces ++ optional [.mark .pipe] last))
  | trailing {first : Expr × List Face} {pieces : List (Expr × List Face)} {separator : Separator}
    {span : Span} :
    Listing bracket (first :: pieces) none
      (.collection bracket (first.1 :: pieces.map Prod.fst) (some separator) none span)
      (first.2 ++ (separated separator pieces ++ [.mark separator.mark]))

/-- The faces of tokens that are collected whole, as a run that is resolved as this expression. -/
def IsElement (table : OperatorTable) (stopAtColon : Bool) (piece : Expr × List Face) : Prop :=
  ∃ tokens run, Whole tokens run ∧ run.items ≠ [] ∧ (stopAtColon = true → run.isColonless) ∧
    run.resolve table = .ok piece.1 ∧ tokens.map Token.face = piece.2

theorem IsElement.readsAs {stopAtColon : Bool} {piece : Expr × List Face}
    (h : IsElement table stopAtColon piece) : ReadsAs table stopAtColon piece.1 piece.2 := by
  obtain ⟨tokens, run, hwhole, hne, hcolonless, hresolve, hfaces⟩ := h
  rw [← hfaces]
  exact hwhole.readsAs hne hcolonless hresolve

theorem Listing.readsAlone {bracket : Bracket} {pieces : List (Expr × List Face)}
    {last : Option (Expr × List Face)} {faces : List Face} (h : Listing bracket pieces last e faces)
    (hfirst : ∀ first ∈ pieces.head?, ReadsAs table true first.1 first.2)
    (hpieces : ∀ piece ∈ pieces.tail, ReadsAs table false piece.1 piece.2)
    (hlast : ∀ piece ∈ last, ReadsAs table false piece.1 piece.2) {context : RunContext}
    (htokens : tokens.map Token.face = bracket.enclosed faces) :
    ReadsAlone table context tokens e := by
  refine readsAlone_of_takesOperand (fun hcursor => takesOperand_of_holds hcursor ?_) htokens
  intro second hsecond
  cases h with
  | single hbracket => exact holds_single (hfirst _ rfl) hlast hbracket hsecond
  | several hne => exact holds_several (hfirst _ rfl) hpieces hlast hne hsecond
  | trailing => exact holds_trailing (hfirst _ rfl) hpieces hsecond

/-! ## A type within reach -/

theorem Grammar.Collects.unique {depth : Nat} {context : RunContext} {cursor after after' : Cursor}
    {run' : Run} (hended : cursor.IsEnded) (hweight : cursor.weight ≤ depth)
    (h : Collects depth context cursor run after) (h' : Collects depth context cursor run' after') :
    run = run' ∧ after = after' := by
  let state : ParseState := ⟨cursor, .initial, [], false, cursor.weight, false⟩
  have hfollows := follows_collectRun (Nat.le_refl depth) context cursor hended hweight
  have hok := (hfollows.ok_iff state rfl (Nat.le_refl _) _ _).mpr ⟨after, h, rfl⟩
  have hok' := (hfollows.ok_iff state rfl (Nat.le_refl _) _ _).mpr ⟨after', h', rfl⟩
  obtain ⟨rfl, hstate⟩ := EStateM.Result.ok.inj (hok.symm.trans hok')
  exact ⟨rfl, congrArg ParseState.cursor hstate⟩

theorem not_stop_of_isOpening {context : RunContext} {started : Bool} {cursor after : Cursor}
    (hopening : isOpening cursor.current.kind) : ¬Stop context started cursor after := by
  rintro (⟨hkind, -⟩ | ⟨hkind, -⟩ | ⟨hkind, -⟩ | ⟨hdot, -⟩ | hkind)
  · rw [hkind] at hopening
    cases hopening
  · rw [hkind] at hopening
    cases hopening
  · rw [hkind] at hopening
    cases hopening
  · rw [(kind_of_beginsWithDot hdot).1] at hopening
    cases hopening
  · rw [kind_of_isOpening hopening] at hkind
    generalize Bracket.ofOpening cursor.current.kind = bracket at hkind
    cases bracket <;> cases hkind

private theorem closed_comprehension (bracket : Bracket) (template : Run) (generators : List Run)
    (span : Span) : closedContainer bracket (.comprehension template generators) span =
      .container bracket (.comprehension template generators) span := by
  cases bracket <;> rfl

private theorem Whole.comprehension_of_next (h : Whole tokens run)
    (hcolon : run.isColonless = false)
    {bracket : Bracket} {context : RunContext} {started : Bool} {depth : Nat}
    {cursor after : Cursor} {more : List Face} {behind : List Token} {items : List RunItem}
    (hcursor : cursor.Offers (depth + 1) (bracket.enclosed (tokens.map Token.face) ++ more) behind)
    (hnext : Next (Collects depth) context started cursor items after) :
    ∃ template generators span,
      items = [.atom (.container bracket (.comprehension template generators) span)] := by
  obtain ⟨atom, rfl, hcontainer⟩ : ∃ atom, items = [.atom atom] ∧
      Container (Collects depth) cursor atom after := by
    have hkind : cursor.current.kind = .mark bracket.opening := hcursor.kind_eq
    cases hnext with
    | container _ h => exact ⟨_, rfl, h⟩
    | named hother => rw [hkind] at hother; cases hother
    | declared htoken hother => rw [← htoken.current_eq, hkind] at hother; cases hother
    | number htoken hother => rw [← htoken.current_eq, hkind] at hother; cases hother
    | string htoken hother => rw [← htoken.current_eq, hkind] at hother; cases hother
    | lambda hother => rw [hkind] at hother; cases bracket <;> cases hother
    | conditional hother => rw [hkind] at hother; cases hother
    | operator hother => rw [hkind] at hother; cases bracket <;> cases hother
  simp only [Bracket.enclosed, List.cons_append, List.append_assoc, List.nil_append] at hcursor
  obtain ⟨opening, second, hopening, hopeningFace, hsecond⟩ := hcursor.takes (fun h => by cases h)
  have hbracket : Bracket.ofOpening opening.kind = bracket := by
    rw [show opening.kind = .mark bracket.opening from congrArg Face.kind hopeningFace]
    exact ofOpening_opening bracket
  obtain ⟨hbegins, template, middle, htemplate, hmiddle⟩ :=
    h.exists_cut hsecond.faces hcolon hsecond.isEnded hsecond.weight_le
  cases hcontainer with
  | empty hopening' hclosing hclosed =>
    obtain ⟨rfl, rfl⟩ := hopening'.unique hopening
    rw [hbracket, ← hclosing.current_eq] at hclosed
    exact absurd hclosed (ne_closing_of_begins hbegins bracket)
  | filled hopening' hopen hfirst hbody hclosing hclosed =>
    obtain ⟨rfl, rfl⟩ := hopening'.unique hopening
    obtain ⟨rfl, rfl⟩ := hfirst.unique hsecond.isEnded hsecond.weight_le htemplate
    unfold Body at hbody
    rw [hmiddle] at hbody
    obtain ⟨colon, third, generator, last, generators, -, -, -, rfl⟩ := hbody
    rw [hbracket]
    exact ⟨_, _, _, congrArg (fun atom => [RunItem.atom atom]) (closed_comprehension _ _ _ _)⟩

/-! ## Results -/

private theorem Whole.comprehension_of_run (h : Whole tokens run) (hcolon : run.isColonless = false)
    {bracket : Bracket} {tokens' : List Token}
    (htokens : tokens'.map Token.face = bracket.enclosed (tokens.map Token.face))
    {errors : DiagnosticMap} {context : RunContext} {run' : Run} {final : ParseState}
    (hrun : Parse.run context (.ofTokens tokens' errors) = .ok run' final) :
    ∃ template generators span rest, run'.items =
      .atom (.container bracket (.comprehension template generators) span) :: rest := by
  obtain ⟨last, depth, -, hdepth, hoffers⟩ := exists_offers_enclosed htokens errors
  have hfollows := follows_run context hoffers.isEnded
  obtain ⟨after, hcollects, -⟩ := (hfollows.ok_iff _ rfl (Nat.le_succ _) _ _).mp hrun
  rw [hdepth] at hcollects
  obtain ⟨items, hitems, rfl⟩ := hcollects
  cases hitems with
  | stop hanswer =>
    have hopening : isOpening (ParseState.ofTokens tokens' errors).cursor.current.kind := by
      rw [hoffers.kind_eq]
      exact isOpening_opening bracket
    exact absurd (stop_of_answer _ _ _ hanswer) (not_stop_of_isOpening hopening)
  | next hanswer hrest =>
    obtain ⟨template, generators, span, rfl⟩ :=
      h.comprehension_of_next hcolon hoffers (next_of_answer _ _ _ hanswer)
    exact ⟨template, generators, span, _, rfl⟩

theorem parentheses_transparent (hwhole : Whole tokens run) (hrests : run.Rests table)
    (hresolve : run.resolve table = .ok e) :
    (run.isColonless →
      (∀ k context tokens', tokens'.map Token.face = grouped (k + 1) (tokens.map Token.face) →
        ReadsAlone table context tokens' e) ∧
      ∀ k bracket before after last whole faces,
        Listing bracket (before ++ (e, grouped (k + 1) (tokens.map Token.face)) :: after) last whole
          faces →
        (∀ first ∈ before.head?, IsElement table true first) →
        (∀ other ∈ before ++ after ++ last.toList, IsElement table false other) →
        ∀ context tokens', tokens'.map Token.face = bracket.enclosed faces →
          ReadsAlone table context tokens' whole) ∧
    (run.isColonless = false → ∀ context tokens' errors run' final,
      tokens'.map Token.face = Bracket.paren.enclosed (tokens.map Token.face) →
      Parse.run context (.ofTokens tokens' errors) = .ok run' final →
      ∃ template generators span rest,
        run'.items = .atom (.container .paren (.comprehension template generators) span) ::
          rest) := by
  refine ⟨fun hcolonless => ⟨fun k context tokens' htokens => ?_, ?_⟩, ?_⟩
  · have hinside := (hwhole.readsInside hrests hcolonless hresolve).grouped k
    exact readsAlone_of_takesOperand hinside.operand htokens
  · intro k bracket before after last whole faces hlisting hfirst hothers context tokens' htokens
    have hgroup : ReadsBack table e (grouped (k + 1) (tokens.map Token.face)) :=
      ((hwhole.readsInside hrests hcolonless hresolve).grouped k).group
    refine hlisting.readsAlone ?_ (fun piece hpiece => ?_) (fun piece hpiece => ?_) htokens
    · cases before with
      | nil =>
        rintro _ ⟨⟩
        exact hgroup.readsAs
      | cons first before => exact fun _ hmem => (hfirst _ hmem).readsAs
    · rcases List.mem_append.mp (List.mem_of_mem_tail hpiece) with hbefore | hafter
      · exact (hothers piece (by simp [hbefore])).readsAs
      · rcases List.mem_cons.mp hafter with rfl | hafter
        · exact hgroup.readsAs
        · exact (hothers piece (by simp [hafter])).readsAs
    · exact (hothers piece (by simp [Option.mem_def.mp hpiece])).readsAs
  · exact fun hcolon context tokens' errors run' final htokens hrun =>
      hwhole.comprehension_of_run hcolon htokens hrun

def bareTokens (faces : List Face) : List Token :=
  faces.map fun face => ⟨face.kind, face.value, face.moduleName, .point 0⟩

def applicationFaces : List Face := [⟨.functionName, "f", none⟩, ⟨.functionName, "x", none⟩]

def typedFaces : List Face := [⟨.variableName, "X", none⟩, .mark .colon, ⟨.variableName, "T", none⟩]

def nameOf (text : String) (kind : TokenKind) : Identifier :=
  .ofToken ⟨kind, text, none, .point 0⟩

def applicationRun : Run :=
  ⟨[.atom (.identifier (nameOf "f" .functionName) (.point 0)),
    .atom (.identifier (nameOf "x" .functionName) (.point 0))], .point 0⟩

def applicationExpr : Expr :=
  .apply (.identifier (nameOf "f" .functionName) (.point 0))
    (.identifier (nameOf "x" .functionName) (.point 0)) (.point 0)

def typedRun : Run :=
  ⟨[.atom (.typed (nameOf "X" .variableName).name (nameOf "T" .variableName) (.point 0))], .point 0⟩

/-- `((f x))` and the second element of `[f x, ((f x))]` are `f x`, but `(X:T)` is a comprehension.
-/
theorem application_transparent :
    ReadsAlone .initial {} (bareTokens (grouped 2 applicationFaces)) applicationExpr ∧
    ReadsAlone .initial {} (bareTokens (Bracket.square.enclosed
        (applicationFaces ++ .mark .comma :: grouped 2 applicationFaces)))
      (.collection .square [applicationExpr, applicationExpr] (some .comma) none (.point 0)) ∧
    ∃ run' final template generators span rest,
      Parse.run {} (.ofTokens (bareTokens (Bracket.paren.enclosed typedFaces)) .empty) =
        .ok run' final ∧
      run'.items = .atom (.container .paren (.comprehension template generators) span) :: rest := by
  have hwhole : Whole (bareTokens applicationFaces) applicationRun := ⟨by decide, _, rfl, rfl⟩
  have hrests : applicationRun.Rests .initial := by
    refine ⟨nofun, ?_, ?_⟩ <;>
    · rintro _ ⟨⟩
      exact ⟨rfl, rfl⟩
  have hresolve : applicationRun.resolve .initial = .ok applicationExpr := rfl
  have helement (stopAtColon : Bool) :
      IsElement .initial stopAtColon (applicationExpr, applicationFaces) :=
    ⟨_, _, hwhole, nofun, fun _ => rfl, hresolve, rfl⟩
  have htyped : Whole (bareTokens typedFaces) typedRun := ⟨by decide, _, rfl, rfl⟩
  have htypedRests : typedRun.Rests .initial := by
    refine ⟨nofun, ?_, ?_⟩ <;>
    · rintro _ ⟨⟩
      exact ⟨rfl, rfl⟩
  obtain ⟨halone, hlisted⟩ := (parentheses_transparent hwhole hrests hresolve).1 rfl
  obtain ⟨template, generators, span, rest, hitems⟩ :=
    (parentheses_transparent htyped htypedRests rfl).2 rfl {}
      (bareTokens (Bracket.paren.enclosed typedFaces)) .empty _ _ rfl rfl
  refine ⟨halone 1 _ _ rfl, ?_, _, _, template, generators, span, rest, rfl, hitems⟩
  refine hlisted 1 .square [(applicationExpr, applicationFaces)] [] none _ _
    (.several (List.cons_ne_nil _ _)) ?_ ?_ _ _ rfl
  · rintro _ ⟨⟩
    exact helement true
  · intro other hother
    rw [List.mem_singleton.mp hother]
    exact helement false

end Equational

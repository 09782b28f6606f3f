import Equational.Proofs.Parse.Coupled
import Equational.Proofs.Run.Moving

/-!
# Collecting coupled runs

The steps that collect the parts of a run are coupled if the steps for inner runs are, for fewer
tokens; by induction on the depth of nesting, so are the steps that collect a whole run.

A container passes the bracket that closes it before anything behind it is read.  Between its
brackets a semicolon may be passed, as nowhere else in a run.
-/

namespace Equational

open Parse

variable {α : Type} [Relocatable α] {κ : Coupling} {stage : Stage}

/-! ## Closing brackets -/

omit [Relocatable α] in
theorem throw_unclosed_eq (bracket : Bracket) :
    (do throw (← unclosed bracket) : Parse α) = (do
      let token ← current
      match token.kind with
      | .endOfInput | .malformed => fail bracket.closing.spelling
      | _ => throw ⟨.mismatchedDelimiter bracket.closing.spelling token.qualifiedValue,
          token.span⟩) := by
  unfold unclosed
  rw [bind_assoc]
  refine congrArg (current >>= ·) (funext fun token => ?_)
  cases token.kind <;> rfl

theorem couples_unclosed (bracket : Bracket) (after : α → Stage) :
    Couples κ stage (do throw (← unclosed bracket)) (do throw (← unclosed bracket)) after := by
  rw [throw_unclosed_eq]
  refine couples_current.bind fun token => ?_
  dsimp only [kind_relocate]
  split
  · exact couples_fail _ _
  · exact couples_fail _ _
  · exact .throw ⟨.mismatchedDelimiter _ token.qualifiedValue, token.span⟩ nofun _

theorem couples_close {bracket : Bracket} {opened : List Bracket}
    (hopened : stage.opened = bracket :: opened) :
    Couples κ stage (close bracket) (close bracket) fun _ => stage.passTo opened := by
  refine .accepting (hopened ▸ Passes.closing opened bracket) ?_ (couples_unclosed bracket _)
  exact .pure (.refl _) fun _ => rfl

/-! ## Parts of a run -/

theorem any_isEmpty_relocate (place : Relocation) (runs : List Run) :
    (relocate place runs).any Run.isEmpty = runs.any Run.isEmpty := by
  rw [relocate_list, List.any_map]
  exact congrArg runs.any (funext fun run => isEmpty_relocate_run place run)

def Run.IsAligned (place : Relocation) (run : Run) : Prop := place.Aligns run.span.start

theorem span_closedContainer (bracket : Bracket) (body : ContainerBody) (span : Span) :
    (closedContainer bracket body span).span = span := by
  have hform (run : Run) {a : Atom} (h : operatorForm? run span = some a) : a.span = span := by
    unfold operatorForm? at h
    split at h
    · cases h
      rfl
    · cases h
      rfl
    · split at h <;> cases h
      rfl
  unfold closedContainer
  split
  · rename_i run
    cases hfound : operatorForm? run span with
    | none => rfl
    | some a => exact hform run hfound
  · rfl

section Parts

variable {inner inner' : RunContext → Parse Run} {bound : Nat}
  (hinner : ∀ context stage, stage.weight ≤ bound →
    Couples κ stage (inner context) (inner' context) fun run =>
      stage.loosen.assume (run.IsAligned κ.place))

include hinner

theorem couples_inner (context : RunContext) (h : stage.weight ≤ bound) :
    Couples κ stage (inner context) (inner' context) fun _ => stage.loosen :=
  (hinner context stage h).entails (.refl _) fun _ => .assumed (.refl _) _

theorem couples_collectEnumeration (hbound : stage.weight - 1 ≤ bound) (bracket : Bracket)
    (runs : List Run) :
    Couples κ (stage.look (.mark .dotDot)) (collectEnumeration inner bracket runs)
      (collectEnumeration inner' bracket (relocate κ.place runs)) fun _ => stage.pass.loosen := by
  refine Couples.bind (couples_advance rfl) fun dots => .ite ?_ (fun _ => ?_) fun _ => ?_
  · rw [any_isEmpty_relocate]
  · exact .throw ⟨.malformedEnumeration, dots.span⟩ nofun _
  · refine couples_currentKind.bind fun kind => .ite Iff.rfl (fun _ => ?_) fun _ => ?_
    · refine .pure ((Stage.Entails.refl stage.pass).looked kind).loosen fun _ => ?_
      exact (relocate_enumerationBody κ.place runs none).symm
    · refine (couples_inner hinner {} hbound).bind fun bound => ?_
      refine .pure (.refl _) fun _ => ?_
      exact (relocate_enumerationBody κ.place runs (some bound)).symm

theorem couples_collectGenerators (hopened : stage.opened ≠ []) (hbound : stage.weight - 1 ≤ bound)
    {first second : Nat} (hfirst : stage.weight ≤ first) (hsecond : stage.weight ≤ second)
    (separator : Option Separator) (found : List Run) :
    Couples κ stage (collectGenerators inner first separator found)
      (collectGenerators inner' second separator (relocate κ.place found))
      fun _ => stage.loosen := by
  have hdone (stage : Stage) (found : List Run) : Couples κ stage (Pure.pure found.reverse)
      (Pure.pure (relocate κ.place found).reverse) fun _ => stage.loosen :=
    .pure (.loosen (.refl _)) fun _ => (relocate_reverse _ _).symm
  refine couples_rounds (fun rounds given => collectGenerators inner rounds given.1 given.2)
    (fun rounds given => collectGenerators inner' rounds given.1 given.2)
    (fun given => (given.1, relocate κ.place given.2))
    (fun stage _ => stage.opened ≠ [] ∧ stage.weight - 1 ≤ bound)
    (fun stage _ => stage.loosen)
    (fun _ given _ => (moving_exhaust given.2.reverse).staysBarren fun _ _ => rfl) ?_
    (i := (separator, found)) ⟨hopened, hbound⟩ hfirst hsecond
  rintro stage ⟨separator, found⟩ first second ⟨hopened, hbound⟩ hrest
  refine couples_current.bind fun token => ?_
  dsimp only [kind_relocate]
  split
  · exact hdone (stage.look token.kind) found
  · rename_i next hnext
    refine .ite Iff.rfl (fun _ => .throw ⟨.mixedSeparators, token.span⟩ nofun _) fun _ => ?_
    refine (couples_advance_separator hnext hopened).bind fun _ => ?_
    refine (couples_inner hinner {} hbound).bind fun run => ?_
    refine (hrest stage.pass.loosen (some next, run :: found) ⟨hopened, ?_⟩ (Nat.le_refl _)).entails
      (.refl _) fun _ => (Stage.Entails.refl stage).passed.loosened
    exact Nat.le_trans (Nat.sub_le _ _) hbound

theorem couples_collectElements {bracket : Bracket} (hopened : stage.opened ≠ [])
    (hbound : stage.weight - 1 ≤ bound)
    {first second : Nat} (hfirst : stage.weight ≤ first) (hsecond : stage.weight ≤ second)
    (separator : Separator) (found : List Run) :
    Couples κ stage (collectElements inner bracket separator first found)
      (collectElements inner' bracket separator second (relocate κ.place found))
      fun _ => stage.loosen := by
  have hdone {stage later : Stage} (h : stage.Entails later) (found : List Run) (trailing : Bool)
      (tail : Option Run) : Couples κ stage
        (Pure.pure (ContainerBody.elements found.reverse (some separator) trailing tail))
        (Pure.pure (.elements (relocate κ.place found).reverse (some separator) trailing
          (relocate κ.place tail))) fun _ => later := by
    refine .pure h fun _ => ?_
    rw [relocate_elementsBody, relocate_reverse]
  have hpass (stage : Stage) : stage.pass.loosen.Entails stage.loosen :=
    (Stage.Entails.refl stage).passed.loosened
  refine couples_rounds (collectElements inner bracket separator)
    (collectElements inner' bracket separator) (relocate κ.place)
    (fun stage _ => stage.opened ≠ [] ∧ stage.weight - 1 ≤ bound)
    (fun stage _ => stage.loosen)
    (fun _ _ _ => (moving_exhaust _).staysBarren fun _ _ => rfl) ?_
    ⟨hopened, hbound⟩ hfirst hsecond
  rintro stage found first second ⟨hopened, hbound⟩ hrest
  refine couples_current.bind fun token => ?_
  dsimp only [kind_relocate]
  split
  · rename_i next hnext
    refine .ite Iff.rfl (fun _ => .throw ⟨.mixedSeparators, token.span⟩ nofun _) fun _ => ?_
    refine (couples_advance_separator hnext hopened).bind fun _ => ?_
    refine couples_currentKind.bind fun kind => .ite Iff.rfl (fun _ => ?_) fun _ => ?_
    · refine (hdone ?_ found true none)
      exact ((Stage.Entails.refl stage.pass.loosen).looked kind).trans (hpass stage)
    · refine (couples_inner hinner {} hbound).bind fun run => ?_
      refine (hrest stage.pass.loosen (run :: found) ⟨hopened, ?_⟩ (Nat.le_refl _)).entails
        (.refl _) fun _ => hpass stage
      exact Nat.le_trans (Nat.sub_le _ _) hbound
  · refine .ite Iff.rfl (fun hdots => ?_) fun _ => .ite Iff.rfl (fun hpipe => ?_) fun _ => ?_
    · rw [hdots, ← relocate_reverse]
      refine (couples_collectEnumeration hinner hbound bracket found.reverse).entails (.refl _)
        fun _ => hpass stage
    · rw [hpipe]
      refine Couples.bind (couples_advance rfl) fun _ => ?_
      refine (couples_inner hinner {} hbound).bind fun tail => ?_
      exact hdone (hpass stage) found false (some tail)
    · exact hdone ((Stage.Entails.refl stage).looked token.kind).loosen found false none

theorem couples_collectBody {bracket : Bracket} (hopened : stage.opened ≠ [])
    (hbound : stage.weight - 1 ≤ bound)
    (first : Run) :
    Couples κ stage (collectBody inner bracket first)
      (collectBody inner' bracket (relocate κ.place first)) fun _ => stage.loosen := by
  have hpass (stage : Stage) : stage.pass.loosen.Entails stage.loosen :=
    (Stage.Entails.refl stage).passed.loosened
  refine Couples.limited fun later state state' hlater hlimit hlimit' => ?_
  replace hbound := Nat.le_trans (Nat.sub_le_sub_right hlater.weight 1) hbound
  replace hopened := hlater.opened ▸ hopened
  suffices h : Couples κ later _ _ fun _ => later.loosen from
    h.entails (.refl _) fun _ => hlater.loosened
  refine couples_currentKind.bind fun kind => ?_
  dsimp only [relocate_placeless, id]
  split
  · exact (couples_collectEnumeration hinner hbound bracket [first]).entails (.refl _)
      fun _ => hpass later
  · refine Couples.bind (couples_advance rfl) fun _ => ?_
    refine (couples_inner hinner {} hbound).bind fun generator => ?_
    refine (couples_collectGenerators hinner ?_ ?_ ?_ ?_ none [generator]).bind fun found => ?_
    · exact hopened
    · exact Nat.le_trans (Nat.sub_le _ _) hbound
    · exact Nat.le_trans (Nat.sub_le _ _) hlimit
    · exact Nat.le_trans (Nat.sub_le _ _) hlimit'
    · exact .pure (hpass later) fun _ => (relocate_comprehensionBody κ.place first found).symm
  · refine couples_collectElements hinner ?_ ?_ ?_ ?_ .comma [first] <;> assumption
  · refine couples_collectElements hinner ?_ ?_ ?_ ?_ .semicolon [first] <;> assumption
  · refine Couples.bind (couples_advance rfl) fun _ => ?_
    refine (couples_inner hinner {} hbound).bind fun tail => ?_
    refine .pure (hpass later) fun _ => ?_
    exact (relocate_elementsBody κ.place [first] none false (some tail)).symm
  · refine .ite Iff.rfl (fun _ => ?_) fun _ => couples_unclosed bracket _
    refine .pure ((Stage.Entails.refl later).looked kind).loosen fun _ => ?_
    exact (relocate_elementsBody κ.place [first] none false none).symm

theorem couples_collectContainer (hbound : stage.weight - 1 ≤ bound) {kind : TokenKind}
    (hkind : kind = .mark .openParen ∨ kind = .mark .openBracket ∨ kind = .mark .openCurly) :
    Couples κ (stage.look kind) (collectContainer inner) (collectContainer inner') fun a =>
      stage.pass.loosen.assume (κ.place.Aligns a.span.start) := by
  refine (couples_advance_opening hkind).bind fun opening => ?_
  dsimp only [kind_relocate]
  generalize Bracket.ofOpening opening.kind = bracket
  refine .accepting (Passes.closing stage.opened bracket) ?_ ?_
  · refine (couples_spanFrom_start rfl opening.span.start).bind fun span => ?_
    refine .pure ?_ fun _ => rfl
    refine .assuming ?_ ?_
    · exact .loosely (Nat.sub_le _ _) rfl id fun h => h.1.1
    · rintro ⟨⟨-, haligned⟩, hspan⟩
      exact hspan ▸ haligned
  · refine (couples_inner hinner _ hbound).bind fun first => ?_
    refine (couples_collectBody hinner ?_ ?_ first).bind fun body => ?_
    · exact List.cons_ne_nil _ _
    · exact Nat.le_trans (Nat.sub_le _ _) hbound
    · refine (couples_close rfl).bind fun _ => ?_
      refine (couples_spanFrom_start rfl opening.span.start).bind fun span => ?_
      refine .pure ?_ fun _ => (relocate_closedContainer κ.place bracket body span).symm
      refine .assuming ?_ ?_
      · exact .loosely (Nat.sub_le _ _) rfl id fun h => h.1.1
      · rintro ⟨⟨-, haligned⟩, hspan⟩
        rw [span_closedContainer, hspan]
        exact haligned

theorem couples_collectLambda (hbound : stage.weight - 1 ≤ bound) (context : RunContext) :
    Couples κ (stage.look (.mark .backslash)) (collectLambda inner context)
      (collectLambda inner' context) fun a =>
        stage.pass.loosen.assume (κ.place.Aligns a.span.start) := by
  refine Couples.bind (couples_advance_aligned rfl) fun backslash => ?_
  refine (couples_inner hinner _ hbound).bind fun parameters => ?_
  refine Couples.bind (couples_expect (.plain _ rfl)) fun _ => ?_
  refine (couples_inner hinner _ ?_).bind fun body => ?_
  · exact Nat.le_trans (Nat.sub_le _ _) hbound
  · refine (couples_spanFrom_start rfl backslash.span.start).bind fun span => ?_
    refine .pure (.assuming ?_ ?_) fun _ => ?_
    · exact .loosely (Nat.sub_le _ _) rfl id fun h => h.1.1
    · rintro ⟨⟨-, haligned⟩, hspan⟩
      exact hspan ▸ haligned
    · rw [relocate_lambdaAtom, items_relocate_run]

def LeadAligned (place : Relocation) (items : List RunItem) : Prop :=
  ∀ first ∈ items.head?, place.Aligns first.span.start

theorem couples_collectConditional (hbound : stage.weight - 1 ≤ bound) (context : RunContext) :
    Couples κ (stage.look (.word .ifWord)) (collectConditional inner context)
      (collectConditional inner' context) fun items =>
        stage.pass.loosen.assume (LeadAligned κ.place items) := by
  refine Couples.bind (couples_advance_aligned rfl) fun opening => ?_
  refine (couples_inner hinner {} hbound).bind fun condition => ?_
  refine Couples.bind (couples_expect (.plain _ rfl)) fun _ => ?_
  refine (hinner context _ ?_).bind fun thenBranch => ?_
  · exact Nat.le_trans (Nat.sub_le _ _) hbound
  refine couples_currentKind.bind fun kind => .ite Iff.rfl ?_ fun _ => ?_
  · rintro rfl
    refine Couples.bind (couples_advance rfl) fun closing => ?_
    refine .pure (.assuming ?_ ?_) fun _ => rfl
    · exact .loosely (Nat.le_trans (Nat.sub_le _ _) (Nat.sub_le _ _)) rfl id fun h => h.1.1
    · rintro ⟨⟨-, haligned⟩, -⟩ first hfirst
      obtain rfl := Option.some.inj hfirst
      exact haligned
  · refine .pure (.assuming ?_ ?_) ?_
    · exact .loosely (Nat.sub_le _ _) rfl id fun h => h.1.1
    · rintro ⟨⟨-, haligned⟩, -⟩ first hfirst
      obtain rfl := Option.some.inj hfirst
      exact haligned
    · rintro ⟨-, haligned⟩
      rw [items_relocate_run, span_relocate_run]
      have hspan :
          (⟨κ.place.start opening.span.start, κ.place.start thenBranch.span.start⟩ : Span) =
          relocate κ.place ⟨opening.span.start, thenBranch.span.start⟩ :=
        congrArg (Span.mk _) haligned.symm
      exact congrArg (fun span => RunItem.conditional _ none span :: _) hspan

end Parts

/-! ## Items -/

theorem couples_collectIdentifier {kind : TokenKind} (hkind : kind.isIdentifier)
    (context : RunContext) :
    Couples κ (stage.look kind) (collectIdentifier context) (collectIdentifier context) fun a =>
      stage.pass.assume (κ.place.Aligns a.span.start) := by
  have hplain {kind : TokenKind} : kind.isIdentifier → kind.isPlain :=
    TokenKind.isPlain_of_isIdentifier
  refine (couples_advance_aligned (hplain hkind)).bind fun token => ?_
  refine couples_currentKind.bind fun found => ?_
  dsimp only [relocate_placeless, id, kind_relocate, isQualified_relocate]
  have hdone : Couples κ ((stage.pass.assume (κ.place.Aligns token.span.start)).look found)
      (Pure.pure (Atom.identifier (.ofToken token) token.span))
      (Pure.pure (Atom.identifier (.ofToken (relocate κ.place token))
        (relocate κ.place token).span))
      fun a => stage.pass.assume (κ.place.Aligns a.span.start) :=
    .pure (.looked (.refl _) found) fun _ => rfl
  by_cases hcolon : found = .mark .colon
  · obtain rfl := hcolon
    refine Couples.bind (couples_peek_next (.plain _ rfl)) fun next => .ite Iff.rfl ?_ ?_
    · intro htyped
      simp only [Bool.and_eq_true] at htyped
      refine Couples.bind (couples_advance_expected rfl) fun _ => ?_
      refine (couples_advance (hplain htyped.2)).bind fun typeToken => ?_
      refine .pure ?_ fun _ => rfl
      exact ⟨Nat.le_trans (Nat.sub_le _ _) (Nat.sub_le _ _), rfl, nofun, nofun, id, id, id⟩
    · exact fun _ => hdone.entails ⟨Nat.le_refl _, rfl, fun _ h _ => h, nofun, id, id, id⟩
        fun _ => .refl _
  · refine couples_peek_unused fun next next' => ?_
    simp only [hcolon, decide_false, Bool.and_false, Bool.false_and, Bool.false_eq_true, if_false]
    exact hdone

/-- Behind the items that the current token adds to a run, or where the run ends. -/
def itemsStage (place : Relocation) (stage : Stage) (answer : Option (List RunItem)) : Stage :=
  (if answer.isSome then stage.pass.loosen else stage.loosen).assume
    (∀ items ∈ answer, LeadAligned place items)

theorem entails_itemsStage {later : Stage} {item : RunItem}
    (hweight : later.weight ≤ stage.weight - 1)
    (hopened : later.opened = stage.opened) (hmoved : later.moved)
    (hassumes : later.assumes → stage.assumes ∧ κ.place.Aligns item.span.start) :
    later.Entails (itemsStage κ.place stage (some [item])) := by
  refine .assuming (?_ : later.Entails stage.pass.loosen) ?_
  · exact .loosely hweight hopened (fun _ => hmoved) fun h => (hassumes h).1
  · rintro h items hitems first hfirst
    obtain rfl := Option.some.inj hitems
    obtain rfl := Option.some.inj hfirst
    exact (hassumes h).2

theorem couples_noItems {later : Stage} (h : later.Entails stage.fresh) :
    Couples κ later (Pure.pure none : Parse (Option (List RunItem))) (Pure.pure none)
      (itemsStage κ.place stage) := by
  refine .pure (.assuming (h.loosen : later.Entails stage.loosen) ?_) fun _ => rfl
  exact fun _ => nofun

theorem couples_nextItems {inner inner' : RunContext → Parse Run} {bound : Nat}
    (hinner : ∀ context stage, stage.weight ≤ bound →
      Couples κ stage (inner context) (inner' context) fun run =>
        stage.loosen.assume (run.IsAligned κ.place))
    (hbound : stage.weight - 1 ≤ bound) (context : RunContext) (started : Bool) :
    Couples κ stage (nextItems? inner context started) (nextItems? inner' context started)
      (itemsStage κ.place stage) := by
  refine couples_current_aligned.bind fun token => ?_
  dsimp only [kind_relocate]
  have hlooked := (Stage.Entails.refl stage).assumed (κ.place.Aligns token.span.start)
  replace hbound : (stage.assume (κ.place.Aligns token.span.start)).weight - 1 ≤ bound := hbound
  have hidentifier (hkind : token.kind.isIdentifier) :
      Couples κ ((stage.assume (κ.place.Aligns token.span.start)).look token.kind)
        (do return some [RunItem.atom (← collectIdentifier context)])
        (do return some [RunItem.atom (← collectIdentifier context)])
        (itemsStage κ.place stage) := by
    refine (couples_collectIdentifier hkind context).bind fun a => .pure ?_ fun _ => rfl
    exact entails_itemsStage (Nat.le_refl _) rfl rfl fun h => ⟨h.1.1, h.2⟩
  have hcontainer (hkind : token.kind = .mark .openParen ∨ token.kind = .mark .openBracket ∨
      token.kind = .mark .openCurly) :
      Couples κ ((stage.assume (κ.place.Aligns token.span.start)).look token.kind)
        (do return some [RunItem.atom (← collectContainer inner)])
        (do return some [RunItem.atom (← collectContainer inner')])
        (itemsStage κ.place stage) := by
    refine (couples_collectContainer hinner hbound hkind).bind fun a => .pure ?_ fun _ => rfl
    exact entails_itemsStage (Nat.le_refl _) rfl rfl fun h => ⟨h.1.1, h.2⟩
  split
  · rename_i hkind
    exact hidentifier (by rw [hkind]; rfl)
  · rename_i hkind
    exact hidentifier (by rw [hkind]; rfl)
  · rename_i hkind
    rw [hkind]
    refine Couples.bind (couples_advance rfl) fun _ => ?_
    refine (couples_identifier _).bind fun name => ?_
    refine (couples_spanFrom_start rfl token.span.start).bind fun span => .pure ?_ fun _ => rfl
    refine entails_itemsStage (Nat.sub_le _ _) rfl rfl ?_
    rintro ⟨⟨hassumes, haligned⟩, hspan⟩
    exact ⟨hassumes, hspan ▸ haligned⟩
  · rename_i hkind
    rw [hkind]
    refine Couples.bind (couples_advance rfl) fun _ => ?_
    refine (Couples.ofExcept ?_).bind fun literal => .pure ?_ fun _ => rfl
    · exact relocated_ofToken κ.place token
    · exact entails_itemsStage (Nat.le_refl _) rfl rfl id
  · rename_i hkind
    rw [hkind]
    refine Couples.bind (couples_advance rfl) fun _ => .pure ?_ fun _ => rfl
    exact entails_itemsStage (Nat.le_refl _) rfl rfl id
  · rename_i hkind
    exact hcontainer (.inl hkind)
  · rename_i hkind
    exact hcontainer (.inr (.inl hkind))
  · rename_i hkind
    exact hcontainer (.inr (.inr hkind))
  · rename_i hkind
    rw [hkind]
    refine (couples_collectLambda hinner hbound context).bind fun a => .pure ?_ fun _ => rfl
    exact entails_itemsStage (Nat.le_refl _) rfl rfl fun h => ⟨h.1.1, h.2⟩
  · rename_i hkind
    rw [hkind]
    refine .ite Iff.rfl (fun _ => couples_noItems (hlooked.looked _)) fun _ => ?_
    refine (couples_collectConditional hinner hbound context).bind fun items => ?_
    refine .pure (.assuming (?_ : Stage.Entails _ stage.pass.loosen) ?_) fun _ => rfl
    · exact .loosely (Nat.le_refl _) rfl (fun _ => rfl) fun h => h.1.1
    · rintro h found hfound
      obtain rfl := Option.some.inj hfound
      exact h.2
  · exact couples_fail _ _
  · have hnone := couples_noItems (κ := κ) (hlooked.looked token.kind)
    refine .ite Iff.rfl (fun _ => hnone) fun _ => .ite Iff.rfl (fun _ => hnone) fun _ => ?_
    refine .ite Iff.rfl (fun hdot => ?_) fun _ => .ite Iff.rfl (fun hstart => ?_) fun _ => hnone
    · have hkind : token.kind = .operatorSymbol := by
        simp only [beginsWithDot, Bool.and_eq_true, decide_eq_true_eq] at hdot
        exact hdot.2.1.1
      rw [hkind]
      refine (couples_split 1).bind fun _ => couples_noItems hlooked.freshened
    · refine (couples_operator_aligned hstart).bind fun op => .pure ?_ fun _ => rfl
      exact entails_itemsStage (Nat.le_refl _) rfl rfl fun h => ⟨h.1.1, h.2⟩

private theorem leadAligned_append {place : Relocation} {earlier later : List RunItem}
    (h : LeadAligned place earlier) (h' : LeadAligned place later) :
    LeadAligned place (earlier ++ later) := by
  cases earlier with
  | nil => exact h'
  | cons first rest => exact h

theorem couples_collectItems {inner inner' : RunContext → Parse Run} {bound : Nat}
    (hinner : ∀ context stage, stage.weight ≤ bound →
      Couples κ stage (inner context) (inner' context) fun run =>
        stage.loosen.assume (run.IsAligned κ.place))
    (hbound : stage.weight - 1 ≤ bound) (context : RunContext)
    {first second : Nat} (hfirst : stage.weight ≤ first) (hsecond : stage.weight ≤ second) :
    Couples κ stage (collectItems inner context first []) (collectItems inner' context second [])
      fun items => stage.loosen.assume (LeadAligned κ.place items) := by
  have hdone {stage later : Stage} (h : later.Entails stage.loosen) (found : List RunItem)
      (hfound : later.assumes → LeadAligned κ.place found.reverse) :
      Couples κ later (Pure.pure found.reverse) (Pure.pure (relocate κ.place found).reverse)
        fun items => stage.loosen.assume (LeadAligned κ.place items) :=
    .pure (.assuming h hfound) fun _ => (relocate_reverse _ _).symm
  refine couples_rounds (collectItems inner context) (collectItems inner' context)
    (relocate κ.place)
    (fun stage found => stage.weight - 1 ≤ bound ∧
      (stage.assumes → LeadAligned κ.place found.reverse))
    (fun stage items => stage.loosen.assume (LeadAligned κ.place items))
    (fun _ found _ => (moving_exhaust found.reverse).staysBarren fun _ _ => rfl) ?_
    (i := []) ⟨hbound, fun _ => nofun⟩ hfirst hsecond
  rintro stage found first second ⟨hbound, hfound⟩ hrest
  have hstarted : (relocate κ.place found).isEmpty = found.isEmpty := List.isEmpty_map
  simp only [collectItems, itemsRound, hstarted]
  refine (couples_nextItems hinner hbound context _).bind fun answer => ?_
  cases answer with
  | none => exact hdone ((Stage.Entails.refl stage.loosen).assumed _) found fun h => hfound h.1
  | some items =>
    have himage : (relocate κ.place items).reverse ++ relocate κ.place found =
        relocate κ.place (items.reverse ++ found) := by simp
    change Couples κ _ (collectItems inner context first (items.reverse ++ found))
      (collectItems inner' context second
        ((relocate κ.place items).reverse ++ relocate κ.place found)) _
    rw [himage]
    refine (hrest (itemsStage κ.place stage (some items)) _ ⟨?_, ?_⟩ ?_).entails (.refl _)
      fun found => ?_
    · exact Nat.le_trans (Nat.sub_le _ _) hbound
    · rintro ⟨hassumes, hitems⟩
      rw [List.reverse_append, List.reverse_reverse]
      exact leadAligned_append (hfound hassumes) (hitems items rfl)
    · exact Nat.le_refl _
    · refine .assuming (?_ : Stage.Entails _ stage.loosen) And.right
      exact .loosely (Nat.sub_le _ _) rfl (fun _ => rfl) fun h => h.1.1

/-! ## Runs -/

private theorem isAligned_ofItems {place : Relocation} {items : List RunItem} {start : Nat}
    (hitems : LeadAligned place items) (hstart : place.Aligns start) :
    (Run.ofItems items (.point start)).IsAligned place := by
  unfold Run.IsAligned Run.ofItems itemsSpan
  cases items with
  | nil => exact hstart
  | cons first rest =>
    rw [List.getLast?_cons]
    exact hitems first rfl

theorem relocate_point {place : Relocation} {start : Nat} (h : place.Aligns start) :
    relocate place (Span.point start) = .point (place.start start) :=
  congrArg (Span.mk _) h

theorem couples_collectRun {first second : Nat} (hfirst : stage.weight ≤ first)
    (hsecond : stage.weight ≤ second) (context : RunContext) :
    Couples κ stage (collectRun first context) (collectRun second context) fun run =>
      stage.loosen.assume (run.IsAligned κ.place) := by
  induction first generalizing stage second context with
  | zero =>
    exact ((moving_collectRun 0 context).staysBarren fun _ _ => rfl).of_weightless
      (Nat.le_zero.mp hfirst)
  | succ first ih =>
    have hround (second : Nat) (hsecond : stage.weight ≤ second + 1) :
        Couples κ stage (collectRun (first + 1) context) (collectRun (second + 1) context)
          fun run => stage.loosen.assume (run.IsAligned κ.place) := by
      refine couples_position_aligned.bind fun start => ?_
      refine Couples.limited fun later state state' hlater hlimit hlimit' => ?_
      have hweight : later.weight ≤ stage.weight := hlater.weight
      have hinner (context : RunContext) (inside : Stage) (h : inside.weight ≤ later.weight - 1) :
          Couples κ inside (collectRun first context) (collectRun second context) fun run =>
            inside.loosen.assume (run.IsAligned κ.place) := by
        exact ih (by omega) (by omega) context
      refine (couples_collectItems hinner (Nat.le_refl _) context hlimit hlimit').bind
        fun items => ?_
      have hstart (h : later.assumes) : κ.place.Aligns start := (hlater.assumes h).2
      refine .pure (.assuming ?_ fun h => isAligned_ofItems h.2 (hstart h.1)) fun h => ?_
      · exact ((hlater.trans ((Stage.Entails.refl stage).assumed _)).loosened).assumed _
      · rw [relocate_ofItems, relocate_point (hstart h.1)]
        rfl
    cases second with
    | zero => exact (hround first hfirst).barren.of_weightless (Nat.le_zero.mp hsecond)
    | succ second => exact hround second hsecond

theorem Parse.couples_run (context : RunContext) :
    Couples κ stage (Parse.run context) (Parse.run context) fun run =>
      stage.loosen.assume (run.IsAligned κ.place) := by
  refine Couples.limited fun later state state' hlater hlimit hlimit' => ?_
  refine (couples_collectRun hlimit hlimit' context).entails (.refl _) fun run => ?_
  exact (hlater.assumed _).loosened.assuming And.right

end Equational

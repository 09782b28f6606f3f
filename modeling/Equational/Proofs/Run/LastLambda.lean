import Equational.Proofs.Expr.Arranged
import Equational.Proofs.Expr.Group
import Equational.Proofs.Expr.Placement
import Equational.Proofs.Script.Lossless

/-!
# Lambdas reach as far as they can

The body of a lambda is collected in the context of the run around it, but for the dot, and the
token that ends the body ends that run as well.  So nothing can follow a lambda without parentheses,
at any depth of a run, and in no expression is it a function or a left operand.
-/

namespace Equational

/-! ## Sequences of items -/

def Hole.items (op : OperatorUse) (operand : List RunItem) : Hole → List RunItem
  | left => .operator op :: operand
  | right => operand ++ [.operator op]

mutual

/-- The items of the run and those of the runs inside it, at any depth; parameters are a sequence of
their own, and so is an operator with the operand it has in parentheses. -/
def Run.sequences : Run → List (List RunItem)
  | ⟨items, _⟩ => items :: itemsSequences items

def itemsSequences : List RunItem → List (List RunItem)
  | [] => []
  | item :: rest => item.sequences ++ itemsSequences rest

def RunItem.sequences : RunItem → List (List RunItem)
  | .atom a => a.sequences
  | .operator _ => []
  | .conditional condition thenBranch _ => condition.sequences ++ optionSequences thenBranch

def Atom.sequences : Atom → List (List RunItem)
  | .container _ body _ => body.sequences
  | .partialApply op operand hole _ => hole.items op operand.items :: operand.sequences
  | .lambda parameters body _ => parameters :: itemsSequences parameters ++ body.sequences
  | .identifier _ _ | .declared _ _ | .typed _ _ _ | .number _ _ | .string _ _
  | .operatorLiteral _ _ => []

def ContainerBody.sequences : ContainerBody → List (List RunItem)
  | .empty => []
  | .elements runs _ _ tail => runsSequences runs ++ optionSequences tail
  | .enumeration runs bound => runsSequences runs ++ optionSequences bound
  | .comprehension template generators => template.sequences ++ runsSequences generators

def runsSequences : List Run → List (List RunItem)
  | [] => []
  | run :: rest => run.sequences ++ runsSequences rest

def optionSequences : Option Run → List (List RunItem)
  | none => []
  | some run => run.sequences

end

def AllLambdaLast (sequences : List (List RunItem)) : Prop := ∀ items ∈ sequences, LambdaLast items

namespace AllLambdaLast

variable {first second : List (List RunItem)}

theorem nil : AllLambdaLast [] := nofun

theorem cons {items : List RunItem} (hitems : LambdaLast items) (h : AllLambdaLast first) :
    AllLambdaLast (items :: first) := List.forall_mem_cons.mpr ⟨hitems, h⟩

theorem append (h : AllLambdaLast first) (h' : AllLambdaLast second) :
    AllLambdaLast (first ++ second) := List.forall_mem_append.mpr ⟨h, h'⟩

theorem of_runs {runs : List Run} (h : ∀ run ∈ runs, AllLambdaLast run.sequences) :
    AllLambdaLast (runsSequences runs) := by
  induction runs with
  | nil => exact nil
  | cons run rest ih =>
    obtain ⟨hrun, hrest⟩ := List.forall_mem_cons.mp h
    exact hrun.append (ih hrest)

theorem of_option {run : Option Run} (h : ∀ other ∈ run.toList, AllLambdaLast other.sequences) :
    AllLambdaLast (optionSequences run) := by
  cases run with
  | none => exact nil
  | some run => exact h run List.mem_cons_self

theorem of_body {body : ContainerBody} (h : ∀ run ∈ body.runs, AllLambdaLast run.sequences) :
    AllLambdaLast body.sequences := by
  cases body with
  | empty => exact nil
  | elements runs separator trailing tail =>
    obtain ⟨hruns, htail⟩ := List.forall_mem_append.mp h
    exact (of_runs hruns).append (of_option htail)
  | enumeration runs bound =>
    obtain ⟨hruns, hbound⟩ := List.forall_mem_append.mp h
    exact (of_runs hruns).append (of_option hbound)
  | comprehension template generators =>
    obtain ⟨htemplate, hgenerators⟩ := List.forall_mem_cons.mp h
    exact htemplate.append (of_runs hgenerators)

end AllLambdaLast

theorem itemsSequences_append (front back : List RunItem) :
    itemsSequences (front ++ back) = itemsSequences front ++ itemsSequences back := by
  induction front with
  | nil => rfl
  | cons item rest ih => simp [itemsSequences, ih]

/-! ## Brackets -/

theorem operatorForm?_items {run : Run} {span : Span} {a : Atom}
    (h : operatorForm? run span = some a) :
    (∃ op, a = .operatorLiteral op span) ∨
      ∃ (op : OperatorUse) (hole : Hole) (operand : Run), run.items = hole.items op operand.items ∧
        a = .partialApply op operand hole span := by
  unfold operatorForm? at h
  split at h
  · cases h
    exact .inl ⟨_, rfl⟩
  · rename_i op rest _ hitems
    cases h
    exact .inr ⟨op, .left, .ofItems rest span, hitems, rfl⟩
  · split at h
    · rename_i op hlast
      cases h
      obtain ⟨front, hitems⟩ := List.getLast?_eq_some_iff.mp hlast
      refine .inr ⟨op, .right, .ofItems run.items.dropLast span, ?_, rfl⟩
      rw [hitems, List.dropLast_concat]
      rfl
    · cases h

theorem itemsSequences_hole (hole : Hole) (op : OperatorUse) (operand : List RunItem) :
    itemsSequences (hole.items op operand) = itemsSequences operand := by
  cases hole with
  | left => rfl
  | right =>
    rw [Hole.items, itemsSequences_append]
    exact List.append_nil _

theorem LambdaLast.operand {hole : Hole} {op : OperatorUse} {operand : List RunItem}
    (h : LambdaLast (hole.items op operand)) : LambdaLast operand := by
  cases hole with
  | left => exact @right [.operator op] operand h
  | right => exact left h

theorem Run.sequences_eq (run : Run) : run.sequences = run.items :: itemsSequences run.items := by
  obtain ⟨items, span⟩ := run
  rw [sequences]
  rfl

theorem allLambdaLast_closedContainer {body : ContainerBody} (bracket : Bracket) (span : Span)
    (h : ∀ run ∈ body.runs, AllLambdaLast run.sequences) :
    AllLambdaLast (closedContainer bracket body span).sequences := by
  have hbody : AllLambdaLast (Atom.container bracket body span).sequences := .of_body h
  unfold closedContainer
  split
  · rename_i run
    cases hform : operatorForm? run span with
    | none => exact hbody
    | some a =>
      have hrun := h run List.mem_cons_self
      rw [run.sequences_eq] at hrun
      obtain ⟨hitems, hinside⟩ := List.forall_mem_cons.mp hrun
      rcases operatorForm?_items hform with ⟨op, rfl⟩ | ⟨op, hole, operand, heq, rfl⟩
      · exact .nil
      · rw [heq] at hitems hinside
        rw [itemsSequences_hole] at hinside
        rw [Option.getD_some, Atom.sequences, operand.sequences_eq]
        exact .cons hitems (.cons hitems.operand hinside)
  · exact hbody

/-! ## Where a run has ended -/

namespace Grammar

variable {Inner : RunContext → Cursor → Run → Cursor → Prop} {context : RunContext}
  {started : Bool} {cursor middle after : Cursor} {items : List RunItem}

/-- Behind the end of a run that has begun, that run would end again. -/
theorem Stop.again (h : Stop context started cursor after) :
    ∃ later, Stop context true after later := by
  cases h with
  | guard hkind hstop =>
    exact ⟨_, .guard hkind (by rw [Bool.and_true]; exact (Bool.and_eq_true _ _ ▸ hstop).1)⟩
  | assignment hkind hstop => exact ⟨_, .assignment hkind hstop⟩
  | dot hkind hstop => exact ⟨_, .dot hkind hstop⟩
  | glued hdot hstop =>
    rcases current_split_of_dot hdot with hkind | hstay
    · exact ⟨_, .dot hkind hstop⟩
    · rw [hstay]
      exact ⟨_, .glued hdot hstop⟩
  | other hkind => exact ⟨_, .other hkind⟩

/-- What ends a run in which a dot is an operator ends it where dots end runs as well. -/
theorem Stop.outside (h : Stop { context with stopAtDot := false } started cursor after) :
    Stop context started cursor after := by
  cases h with
  | guard hkind hstop => exact .guard hkind hstop
  | assignment hkind hstop => exact .assignment hkind hstop
  | dot _ hstop => cases hstop
  | glued _ hstop => cases hstop
  | other hkind => exact .other hkind

theorem Stop.not_answer (h : Stop context started cursor middle) :
    ¬ Answer Inner context started cursor (some items) after := by
  intro hanswer
  have hhalts := halts_of_answer _ _ _ hanswer
  cases h with
  | guard hkind hstop =>
    unfold Answer at hanswer
    rw [hkind] at hanswer
    dsimp only at hanswer
    rw [if_pos hstop] at hanswer
    cases hanswer.1
  | assignment hkind hstop => simp [halts, hkind, hstop] at hhalts
  | dot hkind hstop => simp [halts, hkind, hstop] at hhalts
  | glued hdot hstop => simp [halts, hdot, hstop] at hhalts
  | other hkind =>
    rw [beginsItem_of_next _ _ _ (next_of_answer _ _ _ hanswer)] at hkind
    cases hkind

/-! ## Runs in brackets -/

section Parts

variable {P : Run → Prop} {bracket : Bracket} {found : List Run} {body : ContainerBody}
  (hinner : ∀ {context cursor run after}, Inner context cursor run after → P run)

include hinner

theorem Enumeration.forall_runs (hfound : ∀ run ∈ found, P run)
    (h : Enumeration Inner bracket found cursor body after) : ∀ run ∈ body.runs, P run := by
  cases h with
  | unbounded => exact List.forall_mem_append.mpr ⟨hfound, List.forall_mem_nil _⟩
  | bounded _ _ _ hbound =>
    exact List.forall_mem_append.mpr ⟨hfound, List.forall_mem_singleton.mpr (hinner hbound)⟩

theorem Generators.forall_runs {separator : Option Separator}
    (h : Generators Inner separator cursor found after) : ∀ run ∈ found, P run := by
  induction h with
  | done => exact List.forall_mem_nil _
  | more _ _ _ hrun _ ih => exact List.forall_mem_cons.mpr ⟨hinner hrun, ih⟩

theorem Elements.forall_runs {separator : Separator} (hfound : ∀ run ∈ found, P run)
    (h : Elements Inner bracket separator found cursor body after) :
    ∀ run ∈ body.runs, P run := by
  induction h with
  | more _ _ _ hrun _ ih =>
    exact ih (List.forall_mem_append.mpr ⟨hfound, List.forall_mem_singleton.mpr (hinner hrun)⟩)
  | trailing => exact List.forall_mem_append.mpr ⟨hfound, List.forall_mem_nil _⟩
  | enumeration _ hbody => exact hbody.forall_runs hinner hfound
  | tail _ _ hlast =>
    exact List.forall_mem_append.mpr ⟨hfound, List.forall_mem_singleton.mpr (hinner hlast)⟩
  | done => exact List.forall_mem_append.mpr ⟨hfound, List.forall_mem_nil _⟩

theorem Body.forall_runs {first : Run} (hfirst : P first)
    (h : Body Inner bracket first cursor body after) : ∀ run ∈ body.runs, P run := by
  have hfound : ∀ run ∈ [first], P run := List.forall_mem_singleton.mpr hfirst
  unfold Body at h
  split at h
  · exact h.forall_runs hinner hfound
  · obtain ⟨colon, middle, generator, last, generators, -, hgenerator, hgenerators, rfl⟩ := h
    exact List.forall_mem_cons.mpr
      ⟨hfirst, List.forall_mem_cons.mpr ⟨hinner hgenerator, hgenerators.forall_runs hinner⟩⟩
  · exact h.forall_runs hinner hfound
  · exact h.forall_runs hinner hfound
  · obtain ⟨bar, middle, last, -, hlast, rfl⟩ := h
    exact List.forall_mem_cons.mpr ⟨hfirst, List.forall_mem_singleton.mpr (hinner hlast)⟩
  · obtain ⟨-, rfl, -⟩ := h
    exact hfound

theorem Container.exists_runs {a : Atom} (h : Container Inner cursor a after) :
    ∃ bracket body span, a = closedContainer bracket body span ∧ ∀ run ∈ body.runs, P run := by
  cases h with
  | empty => exact ⟨_, .empty, _, (closedContainer_empty _ _).symm, List.forall_mem_nil _⟩
  | filled _ _ hfirst hbody => exact ⟨_, _, _, rfl, hbody.forall_runs hinner (hinner hfirst)⟩

end Parts

/-! ## Lambdas in runs -/

section Runs

variable {depth : Nat}
  (hinner : ∀ {context cursor run after}, Collects depth context cursor run after →
    AllLambdaLast run.sequences)

include hinner

omit hinner in
theorem allLambdaLast_single {item : RunItem} (h : AllLambdaLast item.sequences) :
    AllLambdaLast ([item] :: itemsSequences [item]) :=
  .cons (.singleton item) (.append h .nil)

theorem Conditional.allLambdaLast (h : Conditional (Collects depth) context cursor items after) :
    AllLambdaLast (items :: itemsSequences items) ∧
      (Lambdaless items ∨ ∃ later, Stop context true after later) := by
  cases h with
  | withElse _ hcondition _ _ hbranch =>
    exact ⟨allLambdaLast_single (.append (hinner hcondition) (hinner hbranch)),
      .inl (List.forall_mem_singleton.mpr rfl)⟩
  | @withoutElse _ _ _ _ opening _ condition thenBranch _ hcondition _ _ hbranch _ =>
    have hsequences := hinner hbranch
    rw [Run.sequences_eq] at hsequences
    obtain ⟨hitems, hinside⟩ := List.forall_mem_cons.mp hsequences
    have hfront : Lambdaless
        [.conditional condition none ⟨opening.span.start, thenBranch.span.start⟩] :=
      List.forall_mem_singleton.mpr rfl
    refine ⟨.cons (.append hfront hitems) (.append (.append (hinner hcondition) .nil) hinside), ?_⟩
    by_cases hempty : thenBranch.isEmpty
    · have hnone : thenBranch.items = [] := List.isEmpty_iff.mp hempty
      rw [hnone]
      exact .inl hfront
    · -- the token behind the branch ended a run that had begun
      obtain ⟨last, hstop⟩ := hbranch.exists_stop
      exact .inr hstop.again

theorem Lambda.allLambdaLast {a : Atom} (h : Lambda (Collects depth) context cursor a after) :
    AllLambdaLast a.sequences ∧ ∃ later, Stop context true after later := by
  cases h with
  | intro _ hparameters _ _ hbody =>
    have hsequences := hinner hparameters
    rw [Run.sequences_eq] at hsequences
    obtain ⟨last, hstop⟩ := hbody.exists_stop
    exact ⟨hsequences.append (hinner hbody), hstop.outside.again⟩

/-- Items that are found together end with a lambda only where the run around them ends as well. -/
theorem Next.allLambdaLast (h : Next (Collects depth) context started cursor items after) :
    AllLambdaLast (items :: itemsSequences items) ∧
      (Lambdaless items ∨ ∃ later, Stop context true after later) := by
  cases h with
  | named _ h =>
    cases h <;> exact ⟨allLambdaLast_single .nil, .inl (List.forall_mem_singleton.mpr rfl)⟩
  | declared => exact ⟨allLambdaLast_single .nil, .inl (List.forall_mem_singleton.mpr rfl)⟩
  | number => exact ⟨allLambdaLast_single .nil, .inl (List.forall_mem_singleton.mpr rfl)⟩
  | string => exact ⟨allLambdaLast_single .nil, .inl (List.forall_mem_singleton.mpr rfl)⟩
  | operator => exact ⟨allLambdaLast_single .nil, .inl (List.forall_mem_singleton.mpr rfl)⟩
  | container _ h =>
    obtain ⟨bracket, body, span, rfl, hruns⟩ :=
      h.exists_runs (P := fun run => AllLambdaLast run.sequences) hinner
    refine ⟨allLambdaLast_single (allLambdaLast_closedContainer bracket span hruns), .inl ?_⟩
    rw [Lambdaless, List.forall_mem_singleton]
    rcases closedContainer_cases bracket body span with h | ⟨op, h⟩ | ⟨op, operand, hole, h⟩ <;>
      rw [h] <;> rfl
  | lambda _ h =>
    obtain ⟨hsequences, hstop⟩ := h.allLambdaLast hinner
    exact ⟨allLambdaLast_single hsequences, .inr hstop⟩
  | conditional _ _ h => exact h.allLambdaLast hinner

theorem Items.allLambdaLast (h : Items (Collects depth) context started cursor items after) :
    AllLambdaLast (items :: itemsSequences items) := by
  induction h with
  | stop => exact .cons .nil .nil
  | @next _ _ _ _ items more h hrest ih =>
    obtain ⟨hfirst, hends⟩ := (next_of_answer _ _ _ h).allLambdaLast hinner
    obtain ⟨hitems, hinside⟩ := List.forall_mem_cons.mp hfirst
    obtain ⟨hmore, hmoreInside⟩ := List.forall_mem_cons.mp ih
    rw [itemsSequences_append]
    refine .cons ?_ (.append hinside hmoreInside)
    rcases hends with hlambdaless | ⟨later, hstop⟩
    · exact .append hlambdaless hmore
    · cases hrest with
      | stop =>
        rw [List.append_nil]
        exact hitems
      | next h => exact absurd h hstop.not_answer

end Runs

theorem Collects.allLambdaLast {depth : Nat} {run : Run}
    (h : Collects depth context cursor run after) : AllLambdaLast run.sequences := by
  induction depth generalizing context cursor run after with
  | zero => exact h.elim
  | succ depth ih =>
    obtain ⟨items, hitems, rfl⟩ := h
    rw [Run.sequences_eq]
    exact hitems.allLambdaLast ih

end Grammar

/-! ## Runs of a text -/

/-- At every depth of a run nothing stands behind a lambda, so that what is resolved of it never has
one as a function or as a left operand. -/
theorem lambdas_reach_to_the_end {state final : ParseState} (hended : state.cursor.IsEnded)
    (hlimit : state.cursor.weight ≤ state.limit) {context : RunContext} {run : Run}
    (h : Parse.run context state = .ok run final) :
    ∀ items ∈ run.sequences, (∀ item ∈ items.dropLast, item.isLambda = false) ∧
      ∀ stretch, stretch <:+: items → ∀ table span e,
        (Run.mk stretch span).resolve table = .ok e → Arranged table stretch e := by
  obtain ⟨after, hcollects, -⟩ :=
    ((follows_run context hended).ok_iff state rfl hlimit run final).mp h
  intro items hitems
  have hlast : LambdaLast items := hcollects.allLambdaLast items hitems
  exact ⟨hlast, fun stretch hstretch table span e hresolve =>
    Run.arranged_of_resolve (hlast.of_infix hstretch) hresolve⟩

/-- Lambdas behind a condition, in a bound, in a section, as a body and in parentheses. -/
def lambdaText : String := "if a then \\x. x + \\y. [1 .. (\\z. z) y] (div \\w. w) 2; 3"

theorem lambdaText_reach :
    ∃ lexed run final, Lexed.ofSource lambdaText = .ok lexed ∧
      Parse.run {} (.ofTokens lexed.tokens lexed.errors) = .ok run final ∧
      run.sequences.length = 15 ∧
      ∀ items ∈ run.sequences, (∀ item ∈ items.dropLast, item.isLambda = false) ∧
        ∀ stretch, stretch <:+: items → ∀ table span e,
          (Run.mk stretch span).resolve table = .ok e → Arranged table stretch e := by
  obtain ⟨lexed, hlexed, houtcome⟩ := exists_of_map_eq_ok
    (f := fun lexed : Lexed =>
      match Parse.run {} (.ofTokens lexed.tokens lexed.errors) with
      | .ok run _ => some run.sequences.length
      | .error _ _ => none)
    (by decide +kernel : (Lexed.ofSource lambdaText).map _ = .ok (some 15))
  have hsound := isSound_start hlexed
  split at houtcome
  · rename_i run final hrun
    exact ⟨lexed, run, final, hlexed, hrun, Option.some.inj houtcome,
      lambdas_reach_to_the_end hsound.isEnded hsound.weight_le hrun⟩
  · cases houtcome

end Equational

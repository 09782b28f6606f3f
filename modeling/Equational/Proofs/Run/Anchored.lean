import Equational.Proofs.Expr.Anchored
import Equational.Proofs.Run.Placement

/-!
# Spans of collected runs

The tokens ahead of a cursor begin and end at anchors, and so do the parts into which one of them
may be split.  A run that is collected from them has its items in order, each on a span between
anchors, and whatever table it is resolved under, so have the diagnostics.
-/

namespace Equational

open Equational.Token

variable {anchors : Nat → Prop} {low middle high : Nat}

/-! ## Runs and items -/

section Runs

variable (anchors) (table : OperatorTable)

/-- The atom is in its place, and what it is resolved to is in the place of the atom. -/
structure Atom.Sits (low : Nat) (a : Atom) (high : Nat) : Prop where
  span : a.span.Sits anchors low high
  resolve : Points anchors (fun e => e.span.Sits anchors a.span.start a.span.stop) (a.resolve table)

def RunItem.Sits (low : Nat) (item : RunItem) (high : Nat) : Prop :=
  match item with
  | .atom a => a.Sits anchors table low high
  | .operator op => op.span.Sits anchors low high
  | .conditional condition thenBranch span => span.Opens anchors low high ∧
    Points anchors (fun _ => True) (condition.resolve table) ∧
    Points anchors (fun _ => True) (resolveOption table thenBranch)

structure Run.Sits (low : Nat) (run : Run) (high : Nat) : Prop where
  items : Row (RunItem.Sits anchors table) low run.items high
  span : run.span.IsAnchored anchors
  low_le : low ≤ run.span.start

variable {anchors table}

instance RunItem.sits_spreads : Spreads (RunItem.Sits anchors table) where
  le {_ _ item} h := by
    cases item with
    | atom a => exact Span.sits_spreads.le (Atom.Sits.span h)
    | operator op => exact Span.sits_spreads.le h
    | conditional condition thenBranch span => exact Span.opens_spreads.le h.1
  widen {_ _ _ _ item} h hlow hhigh := by
    cases item with
    | atom a =>
      exact ⟨Span.sits_spreads.widen (Atom.Sits.span h) hlow hhigh, Atom.Sits.resolve h⟩
    | operator op => exact Span.sits_spreads.widen h hlow hhigh
    | conditional condition thenBranch span =>
      exact ⟨Span.opens_spreads.widen h.1 hlow hhigh, h.2⟩

instance Run.sits_spreads : Spreads (Run.Sits anchors table) where
  le h := h.items.le
  widen h hlow hhigh := ⟨h.items.widen hlow hhigh, h.span, Nat.le_trans hlow h.low_le⟩

theorem RunItem.Sits.opens {item : RunItem} (h : item.Sits anchors table low high) :
    item.span.Opens anchors low high := by
  cases item with
  | atom a => exact (Atom.Sits.span h).opens
  | operator op => exact Span.Sits.opens h
  | conditional condition thenBranch span => exact h.1

theorem RunItem.Sits.read {item : RunItem} (h : item.Sits anchors table low high) :
    ReadingSits anchors low (item.read table) high := by
  refine ⟨RunItem.sits_spreads.le h, ?_⟩
  cases item with
  | operator op => exact h
  | conditional condition thenBranch span =>
    obtain ⟨hspan, hcondition, hbranch⟩ := h
    exact hcondition.bind fun _ _ => hbranch.bind fun _ _ => hspan
  | atom a =>
    obtain ⟨hspan, hresolve⟩ := h
    cases hword : wordOperator? table (.atom a) with
    | none =>
      rw [RunItem.read, hword]
      exact hresolve.bind fun e he => Span.sits_spreads.widen he hspan.low_le hspan.le_high
    | some op =>
      rw [read_of_wordOperator hword]
      change op.span.Sits anchors low high
      rwa [span_of_wordOperator hword]

theorem sits_readItems {items : List RunItem}
    (h : Row (RunItem.Sits anchors table) low items high) :
    Row (ReadingSits anchors) low (readItems table items) high := by
  induction h with
  | nil h => exact .nil h
  | cons hfirst _ ih => exact .cons hfirst.read ih

theorem isAnchored_itemsSpan {items : List RunItem} {fallback : Span}
    (h : Row (RunItem.Sits anchors table) low items high)
    (hfallback : fallback.IsAnchored anchors) :
    (itemsSpan items fallback).IsAnchored anchors ∧
      (low ≤ fallback.start → low ≤ (itemsSpan items fallback).start) := by
  cases items with
  | nil => exact ⟨hfallback, id⟩
  | cons first rest =>
    rcases List.eq_nil_or_concat (first :: rest) with hnil | ⟨front, last, hitems⟩
    · cases hnil
    · have hspan : itemsSpan (first :: rest) fallback = first.span.through last.span := by
        have hlast : (first :: rest).getLast? = some last := by
          rw [hitems, List.concat_eq_append, List.getLast?_concat]
        unfold itemsSpan
        rw [hlast]
        rfl
      have hfirst := (h.of_mem List.mem_cons_self).opens
      have hlast : first = last ∨ ∃ middle, first.span.start ≤ middle ∧
          last.span.Opens anchors middle high := by
        cases front with
        | nil =>
          cases hitems
          exact .inl rfl
        | cons second between =>
          rw [hitems, List.concat_eq_append] at h
          obtain ⟨rfl, -⟩ := List.cons.inj hitems
          obtain ⟨middle, hfront, hback⟩ := h.split
          have hopens := (hfront.of_mem List.mem_cons_self).opens
          exact .inr ⟨middle, hopens.le_high, hback.of_singleton.opens⟩
      rw [hspan]
      refine ⟨⟨hfirst.start, ?_, ?_⟩, fun _ => hfirst.low_le⟩
      · rcases hlast with rfl | ⟨middle, -, hopens⟩
        · exact hfirst.stop
        · exact hopens.stop
      · rcases hlast with rfl | ⟨middle, hmiddle, hopens⟩
        · exact hfirst.ordered
        · exact Nat.le_trans hmiddle (Nat.le_trans hopens.low_le hopens.ordered)

theorem sits_ofItems {items : List RunItem} {fallback : Span}
    (h : Row (RunItem.Sits anchors table) low items high) (hfallback : fallback.IsAnchored anchors)
    (hlow : low ≤ fallback.start) : (Run.ofItems items fallback).Sits anchors table low high :=
  have hspan := isAnchored_itemsSpan h hfallback
  ⟨h, hspan.1, hspan.2 hlow⟩

theorem Run.Sits.resolve {run : Run} (h : run.Sits anchors table low high) :
    Points anchors (fun e => e.span.Sits anchors low high) (run.resolve table) := by
  obtain ⟨items, span⟩ := run
  exact points_assemble h.span (sits_readItems h.items)

/-! ## Runs within runs -/

def Run.IsPointed (anchors : Nat → Prop) (table : OperatorTable) (run : Run) : Prop :=
  Points anchors (fun _ => True) (run.resolve table)

theorem Run.Sits.isPointed {run : Run} (h : run.Sits anchors table low high) :
    run.IsPointed anchors table := h.resolve.imp fun _ _ => trivial

theorem points_resolveAll {runs : List Run} (h : ∀ run ∈ runs, run.IsPointed anchors table) :
    Points anchors (fun _ => True) (resolveAll table runs) := by
  induction runs with
  | nil => trivial
  | cons first rest ih =>
    obtain ⟨hfirst, hrest⟩ := List.forall_mem_cons.mp h
    exact Points.bind hfirst fun _ _ => (ih hrest).bind fun _ _ => trivial

theorem points_resolveOption {run : Option Run}
    (h : ∀ inner ∈ run.toList, inner.IsPointed anchors table) :
    Points anchors (fun _ => True) (resolveOption table run) := by
  cases run with
  | none => trivial
  | some inner => exact Points.bind (h inner (List.mem_singleton.mpr rfl)) fun _ _ => trivial

theorem points_resolveParameters {items : List RunItem}
    (h : Row (RunItem.Sits anchors table) low items high) :
    Points anchors (fun _ => True) (resolveParameters table items) := by
  induction h with
  | nil => trivial
  | @cons _ _ _ item rest hfirst _ ih =>
    cases item with
    | operator op => exact Span.Sits.toIsAnchored hfirst
    | conditional condition thenBranch span => exact Span.Opens.toIsAnchored hfirst.1
    | atom a => exact (Atom.Sits.resolve hfirst).bind fun _ _ => ih.bind fun _ _ => trivial

end Runs

/-! ## Containers -/

section Containers

variable {table : OperatorTable} {span : Span} (hspan : span.IsAnchored anchors)

include hspan

theorem points_assembleGroup {items : List RunItem} {runSpan : Span}
    (hrun : runSpan.IsAnchored anchors)
    (h : Row (RunItem.Sits anchors table) span.start items span.stop) :
    Points anchors (fun e => e.span.Sits anchors span.start span.stop)
      (assembleGroup table items (readItems table items) runSpan span) := by
  have hreadings := sits_readItems h
  unfold assembleGroup
  split
  · rename_i op hfirst
    obtain ⟨item, hitem, hword⟩ := Option.bind_eq_some_iff.mp hfirst
    obtain ⟨rest, rfl⟩ := List.head?_eq_some_iff.mp hitem
    split
    · exact hspan.sits
    · obtain _ | ⟨-, hrest⟩ := h
      rw [readItems, read_of_wordOperator hword] at hreadings ⊢
      exact points_assembleSection hspan (Nat.le_refl _) (Nat.le_refl _)
        (isAnchored_itemsSpan hrest hspan).1 hreadings
  · rename_i op _ hlast
    obtain ⟨item, hitem, hword⟩ := Option.bind_eq_some_iff.mp hlast
    obtain ⟨front, rfl⟩ := List.getLast?_eq_some_iff.mp hitem
    obtain ⟨middle, hfront, -⟩ := h.split
    rw [readItems_append, readItems, readItems, read_of_wordOperator hword] at hreadings ⊢
    rw [List.dropLast_concat, List.dropLast_concat]
    exact points_assembleSection hspan (Nat.le_refl _) (Nat.le_refl _)
      (isAnchored_itemsSpan hfront hspan).1 hreadings
  · exact points_assemble hrun hreadings

theorem ContainerBody.points_resolve {bracket : Bracket} {body : ContainerBody}
    (h : ∀ run ∈ body.runs, run.IsPointed anchors table) :
    Points anchors (fun e => e.span.Sits anchors span.start span.stop)
      (body.resolve table bracket span) := by
  cases body with
  | empty => exact hspan.sits
  | elements runs separator trailing tail =>
    obtain ⟨hruns, htail⟩ := List.forall_mem_append.mp h
    exact (points_resolveAll hruns).bind fun _ _ =>
      (points_resolveOption htail).bind fun _ _ => hspan.sits
  | enumeration runs bound =>
    obtain ⟨hruns, hbound⟩ := List.forall_mem_append.mp h
    exact (points_resolveAll hruns).bind fun _ _ =>
      (points_resolveOption hbound).bind fun _ _ => hspan.sits
  | comprehension template generators =>
    obtain ⟨htemplate, hgenerators⟩ := List.forall_mem_cons.mp h
    exact Points.bind htemplate fun _ _ =>
      (points_resolveAll hgenerators).bind fun _ _ => hspan.sits

theorem Atom.sits_partialApply {op : OperatorUse} (hole : Hole) {operand : List RunItem}
    (h : Row (RunItem.Sits anchors table) span.start
      (match hole with | .left => .operator op :: operand | .right => operand ++ [.operator op])
      span.stop) :
    (Atom.partialApply op (.ofItems operand span) hole span).Sits anchors table span.start
      span.stop := by
  refine ⟨hspan.sits, ?_⟩
  have hreadings := sits_readItems h
  rw [Run.ofItems, Atom.resolve]
  cases hole with
  | left =>
    obtain _ | ⟨-, hoperand⟩ := h
    rw [readItems, RunItem.read] at hreadings
    exact points_assembleSection hspan (Nat.le_refl _) (Nat.le_refl _)
      (isAnchored_itemsSpan hoperand hspan).1 hreadings
  | right =>
    obtain ⟨middle, hoperand, -⟩ := h.split
    rw [readItems_append, readItems, readItems, RunItem.read] at hreadings
    exact points_assembleSection hspan (Nat.le_refl _) (Nat.le_refl _)
      (isAnchored_itemsSpan hoperand hspan).1 hreadings

private theorem sits_operatorForm {run : Run} {a : Atom}
    (h : Row (RunItem.Sits anchors table) span.start run.items span.stop)
    (hform : operatorForm? run span = some a) :
    a.Sits anchors table span.start span.stop := by
  unfold operatorForm? at hform
  split at hform
  · cases hform
    exact ⟨hspan.sits, hspan.sits⟩
  · rename_i op rest _ hitems
    cases hform
    rw [hitems] at h
    exact Atom.sits_partialApply hspan .left h
  · split at hform
    · rename_i op hlast
      cases hform
      obtain ⟨front, hitems⟩ := List.getLast?_eq_some_iff.mp hlast
      rw [hitems] at h ⊢
      rw [List.dropLast_concat]
      exact Atom.sits_partialApply hspan .right h
    · cases hform

theorem sits_closedContainer {bracket : Bracket} {body : ContainerBody}
    (h : Row (Run.Sits anchors table) span.start body.runs span.stop) :
    (closedContainer bracket body span).Sits anchors table span.start span.stop := by
  have hpointed : ∀ run ∈ body.runs, run.IsPointed anchors table := fun run hrun =>
    Run.Sits.isPointed (h.of_mem hrun)
  have hcontainer : (Atom.container bracket body span).Sits anchors table span.start span.stop := by
    refine ⟨hspan.sits, ?_⟩
    rcases Atom.resolve_container bracket body span with
      ⟨items, runSpan, rfl, hgroup⟩ | hbody
    · rw [hgroup]
      have hrun := h.of_singleton
      exact points_assembleGroup hspan hrun.span hrun.items
    · rw [hbody]
      exact ContainerBody.points_resolve hspan hpointed
  unfold closedContainer
  split
  · rename_i run
    cases hform : operatorForm? run span with
    | none => exact hcontainer
    | some a =>
      exact sits_operatorForm hspan h.of_singleton.items hform
  · exact hcontainer

end Containers

/-! ## Tokens -/

/-- Where a token begins and ends is an anchor, and so is where it may be split. -/
structure Token.IsAnchored (anchors : Nat → Prop) (token : Token) : Prop where
  span : token.span.IsAnchored anchors
  inside : token.kind = .operatorSymbol → token.moduleName = none → ∀ head tail,
    token.value.toList = head ++ tail → anchors (token.span.start + byteLength head)

namespace Cursor

variable {region : Span} {cursor second after : Cursor} {token : Token}

structure IsAnchored (anchors : Nat → Prop) (cursor : Cursor) : Prop where
  tokens : ∀ token ∈ cursor.tokens, token.IsAnchored anchors
  kept : ∀ diagnostic ∈ cursor.errors.values, diagnostic.span.IsAnchored anchors
  previousEnd : anchors cursor.previousEnd

structure IsSettled (anchors : Nat → Prop) (region : Span) (cursor : Cursor) : Prop where
  isEnded : cursor.IsEnded
  isLaid : cursor.IsLaid region
  isAnchored : cursor.IsAnchored anchors

theorem Takes.tokens_eq (h : cursor.Takes token after) : after.tokens = cursor.tokens := by
  cases h with
  | intro passed rest hkind => simp [Cursor.tokens]

theorem Takes.errors_eq (h : cursor.Takes token after) : after.errors = cursor.errors := by
  cases h
  rfl

theorem Takes.mem_tokens (h : cursor.Takes token after) : token ∈ cursor.tokens := by
  cases h with
  | intro passed rest hkind => simp [Cursor.tokens]

theorem Takes.settled (h : cursor.Takes token after) (hsettled : cursor.IsSettled anchors region) :
    token.span.Sits anchors (cursor.reach region) (after.reach region) ∧
      after.IsSettled anchors region := by
  obtain ⟨hlow, hnonempty, hstop, hlaid⟩ := h.placed hsettled.isLaid
  have htoken := (hsettled.isAnchored.tokens token h.mem_tokens).span
  refine ⟨⟨htoken, hlow, Nat.le_of_eq hstop⟩, h.isEnded hsettled.isEnded, hlaid, ?_, ?_, ?_⟩
  · rw [h.tokens_eq]
    exact hsettled.isAnchored.tokens
  · rw [h.errors_eq]
    exact hsettled.isAnchored.kept
  · rw [h.previousEnd_eq]
    exact htoken.stop

theorem IsSettled.current (h : cursor.IsSettled anchors region) :
    cursor.current.IsAnchored anchors ∧ cursor.reach region ≤ cursor.current.span.start := by
  obtain ⟨passed, token, rest, errors, rfl⟩ := h.isEnded.exists_cons
  obtain _ | ⟨hfirst, -⟩ := h.isLaid
  exact ⟨h.isAnchored.tokens token (by simp [Cursor.tokens]), hfirst.low_le⟩

theorem isAnchored_operatorPart {text : List Char} {span : Span} (hspan : span.IsAnchored anchors)
    (hinside : ∀ head tail, text = head ++ tail → anchors (span.start + byteLength head)) :
    (operatorPart text span).IsAnchored anchors := by
  refine ⟨hspan, fun _ _ head tail htext => hinside head tail ?_⟩
  rwa [operatorPart, String.toList_ofList] at htext

theorem IsAnchored.split (h : cursor.IsAnchored anchors) (hlaid : cursor.IsLaid region)
    (hdot : beginsWithDot cursor.current) : (cursor.split 1).IsAnchored anchors := by
  obtain ⟨hkind, hplain, -⟩ := kind_of_beginsWithDot hdot
  rcases cursor.split_cases 1 with
    hsplit | ⟨passed, token, rest, errors, head, tail, rfl, hcut, hsplit⟩ <;> rw [hsplit]
  · exact h
  · obtain ⟨hpassed, hahead⟩ := List.forall_mem_append.mp h.tokens
    obtain ⟨htoken, hrest⟩ := List.forall_mem_cons.mp hahead
    obtain _ | ⟨hlies, -⟩ := hlaid
    obtain ⟨hbytes, hhead, htail⟩ := byteLength_of_cutText hcut
    have htext := append_of_cutText hcut
    have hroom := hlies.room hkind
    rw [utf8ByteSize_of_cut hcut] at hroom
    have hcutAt : anchors (token.span.start + 1) := by
      have hinside := htoken.inside hkind hplain head tail htext.symm
      rwa [hbytes] at hinside
    have hmiddle : token.span.start + 1 < positionCount :=
      Nat.lt_of_le_of_lt (by omega) hlies.recordable
    rw [frontToken, backToken, recorded_of_lt hmiddle]
    have hfront :
        (operatorPart head ⟨token.span.start, token.span.start + 1⟩).IsAnchored anchors := by
      refine isAnchored_operatorPart ⟨htoken.span.start, hcutAt, Nat.le_succ _⟩ ?_
      intro front back hsplits
      refine htoken.inside hkind hplain front (back ++ tail) ?_
      rw [← htext, hsplits, List.append_assoc]
    have hback :
        (operatorPart tail ⟨token.span.start + 1, token.span.stop⟩).IsAnchored anchors := by
      refine isAnchored_operatorPart ⟨hcutAt, htoken.span.stop, by dsimp only; omega⟩ ?_
      intro front back hsplits
      have hinside := htoken.inside hkind hplain (head ++ front) back
        (by rw [← htext, hsplits, List.append_assoc])
      rwa [byteLength_append, hbytes, ← Nat.add_assoc] at hinside
    refine ⟨List.forall_mem_append.mpr ⟨hpassed, ?_⟩, ?_, h.previousEnd⟩
    · exact List.forall_mem_cons.mpr ⟨hfront, List.forall_mem_cons.mpr ⟨hback, hrest⟩⟩
    · rw [DiagnosticMap.values_openGap]
      exact h.kept

theorem IsSettled.split (h : cursor.IsSettled anchors region)
    (hdot : beginsWithDot cursor.current) : (cursor.split 1).IsSettled anchors region := by
  have hkind := (kind_of_beginsWithDot hdot).1
  exact ⟨h.isEnded.split (by rw [hkind]; nofun) 1, h.isLaid.split hkind 1,
    h.isAnchored.split h.isLaid hdot⟩

/-! ## Seats -/

section Seats

variable {α : Type} {sits : Nat → α → Nat → Prop} {first behind : List α}

/-- What is found on the tokens that are passed sits there, one behind another. -/
def Seats (anchors : Nat → Prop) (region : Span) (sits : Nat → α → Nat → Prop) (cursor : Cursor)
    (found : List α) (after : Cursor) : Prop :=
  cursor.IsSettled anchors region →
    after.IsSettled anchors region ∧ Row sits (cursor.reach region) found (after.reach region)

theorem Seats.nil (cursor : Cursor) : cursor.Seats anchors region sits [] cursor :=
  fun hsettled => ⟨hsettled, .nil (Nat.le_refl _)⟩

theorem Seats.append [Spreads sits] (h : cursor.Seats anchors region sits first second)
    (h' : second.Seats anchors region sits behind after) :
    cursor.Seats anchors region sits (first ++ behind) after := by
  intro hsettled
  obtain ⟨hsecond, hfirst⟩ := h hsettled
  obtain ⟨hafter, hbehind⟩ := h' hsecond
  exact ⟨hafter, hfirst.append hbehind⟩

theorem Seats.split (hdot : beginsWithDot cursor.current) :
    cursor.Seats anchors region sits [] (cursor.split 1) := by
  intro hsettled
  refine ⟨hsettled.split hdot, ?_⟩
  rw [reach_split]
  exact .nil (Nat.le_refl _)

theorem Takes.seats (h : cursor.Takes token after) :
    cursor.Seats anchors region sits [] after := by
  intro hsettled
  obtain ⟨htoken, hafter⟩ := h.settled hsettled
  exact ⟨hafter, .nil (Span.sits_spreads.le htoken)⟩

end Seats

end Cursor

/-! ## Operators and atoms without parts -/

namespace Grammar

variable {table : OperatorTable} {region : Span} {cursor after : Cursor}

theorem Operator.seats {op : OperatorUse} (h : Operator cursor op after) :
    cursor.Seats anchors region (RunItem.Sits anchors table) [.operator op] after := by
  intro hsettled
  cases h with
  | joined htoken _ hsecond _ =>
    obtain ⟨hfirst, hmiddle⟩ := htoken.settled hsettled
    obtain ⟨hlast, hafter⟩ := hsecond.settled hmiddle
    exact ⟨hafter, .singleton (hfirst.opens.through hlast)⟩
  | plain htoken _ =>
    obtain ⟨hspan, hafter⟩ := htoken.settled hsettled
    exact ⟨hafter, .singleton hspan⟩

theorem sits_leaf {a : Atom} {e : Expr} (hspan : a.span.Sits anchors low high)
    (hresolve : a.resolve table = .ok e) (he : e.span = a.span) :
    a.Sits anchors table low high := by
  refine ⟨hspan, ?_⟩
  rw [hresolve]
  change e.span.Sits anchors a.span.start a.span.stop
  rw [he]
  exact hspan.sits

theorem seats_leaf {a : Atom} {e : Expr} {token : Token} (htoken : cursor.Takes token after)
    (hatom : a.span = token.span) (hresolve : a.resolve table = .ok e) (he : e.span = a.span) :
    cursor.Seats anchors region (RunItem.Sits anchors table) [.atom a] after := by
  intro hsettled
  obtain ⟨hspan, hafter⟩ := htoken.settled hsettled
  rw [← hatom] at hspan
  exact ⟨hafter, .singleton (sits_leaf hspan hresolve he)⟩

theorem Named.seats {context : RunContext} {a : Atom} (h : Named context cursor a after) :
    cursor.Seats anchors region (RunItem.Sits anchors table) [.atom a] after := by
  cases h with
  | typed htoken _ hcolon _ htype _ =>
    intro hsettled
    obtain ⟨hname, hfirst⟩ := htoken.settled hsettled
    obtain ⟨hbetween, hsecond⟩ := hcolon.settled hfirst
    obtain ⟨hlast, hafter⟩ := htype.settled hsecond
    have hlast' := Span.sits_spreads.widen hlast (Span.sits_spreads.le hbetween) (Nat.le_refl _)
    exact ⟨hafter, .singleton (sits_leaf (hname.opens.through hlast') rfl rfl)⟩
  | plain htoken _ => exact seats_leaf htoken rfl rfl rfl

theorem Stop.seats {context : RunContext} {started : Bool} (h : Stop context started cursor after) :
    cursor.Seats anchors region (RunItem.Sits anchors table) [] after := by
  cases h with
  | glued hdot => exact .split hdot
  | _ => exact .nil cursor

section Parts

variable {Inner : RunContext → Cursor → Run → Cursor → Prop}
  (hinner : ∀ {context cursor run after}, Inner context cursor run after →
    cursor.Seats anchors region (Run.Sits anchors table) [run] after)

include hinner

variable {bracket : Bracket} {start : Cursor} {found : List Run} {body : ContainerBody}

/-! ## Collected containers -/

theorem Enumeration.seats
    (hfound : start.Seats anchors region (Run.Sits anchors table) found cursor)
    (h : Enumeration Inner bracket found cursor body after) :
    start.Seats anchors region (Run.Sits anchors table) body.runs after := by
  cases h with
  | unbounded hdots => exact hfound.append hdots.seats
  | bounded hdots _ _ hbound => exact hfound.append (hdots.seats.append (hinner hbound))

theorem Generators.seats {separator : Option Separator}
    (h : Generators Inner separator cursor found after) :
    cursor.Seats anchors region (Run.Sits anchors table) found after := by
  induction h with
  | done => exact .nil _
  | more htoken _ _ hrun _ ih => exact htoken.seats.append ((hinner hrun).append ih)

theorem Elements.seats {separator : Separator}
    (hfound : start.Seats anchors region (Run.Sits anchors table) found cursor)
    (h : Elements Inner bracket separator found cursor body after) :
    start.Seats anchors region (Run.Sits anchors table) body.runs after := by
  induction h with
  | more htoken _ _ hrun _ ih => exact ih (hfound.append (htoken.seats.append (hinner hrun)))
  | trailing htoken => exact hfound.append htoken.seats
  | enumeration _ hbody => exact hbody.seats hinner hfound
  | tail hbar _ hlast => exact hfound.append (hbar.seats.append (hinner hlast))
  | done => exact hfound.append (.nil _)

theorem Body.seats {first : Run}
    (hfirst : start.Seats anchors region (Run.Sits anchors table) [first] cursor)
    (h : Body Inner bracket first cursor body after) :
    start.Seats anchors region (Run.Sits anchors table) body.runs after := by
  unfold Body at h
  split at h
  · exact h.seats hinner hfirst
  · obtain ⟨colon, middle, generator, last, generators, hcolon, hgenerator, hgenerators, rfl⟩ := h
    have hrest := (hinner hgenerator).append (hgenerators.seats hinner)
    exact hfirst.append (hcolon.seats.append hrest)
  · exact h.seats hinner hfirst
  · exact h.seats hinner hfirst
  · obtain ⟨bar, middle, last, hbar, hlast, rfl⟩ := h
    exact hfirst.append (hbar.seats.append (hinner hlast))
  · obtain ⟨-, rfl, rfl⟩ := h
    exact hfirst

omit hinner in
theorem seats_closedContainer {second fourth : Cursor} {opening closing : Token}
    (hopening : cursor.Takes opening second)
    (hbody : second.Seats anchors region (Run.Sits anchors table) body.runs fourth)
    (hclosing : fourth.Takes closing after) :
    cursor.Seats anchors region (RunItem.Sits anchors table)
      [.atom (closedContainer bracket body (opening.span.through closing.span))] after := by
  intro hsettled
  obtain ⟨hfirst, hsecond⟩ := hopening.settled hsettled
  obtain ⟨hfourth, hrow⟩ := hbody hsecond
  obtain ⟨hlast, hafter⟩ := hclosing.settled hfourth
  have hspan : (opening.span.through closing.span).Sits anchors (cursor.reach region)
      (after.reach region) :=
    hfirst.opens.through (Span.sits_spreads.widen hlast hrow.le (Nat.le_refl _))
  have hinside : Row (Run.Sits anchors table) opening.span.start body.runs closing.span.stop :=
    hrow.widen (Nat.le_trans hfirst.ordered hfirst.le_high)
      (Nat.le_trans hlast.low_le hlast.ordered)
  have hatom := @sits_closedContainer _ _ _ hspan.toIsAnchored bracket body hinside
  exact ⟨hafter, .singleton (RunItem.sits_spreads.widen (x := .atom _) hatom hspan.low_le
    hspan.le_high)⟩

theorem Container.seats {a : Atom} (h : Container Inner cursor a after) :
    cursor.Seats anchors region (RunItem.Sits anchors table) [.atom a] after := by
  cases h with
  | empty hopening hclosing =>
    rw [← closedContainer_empty]
    exact seats_closedContainer hopening (.nil _) hclosing
  | filled hopening _ hfirst hbody hclosing =>
    exact seats_closedContainer hopening (hbody.seats hinner (hinner hfirst)) hclosing

/-! ## Collected lambdas and conditionals -/

variable {context : RunContext}

theorem Lambda.seats {a : Atom} (h : Lambda Inner context cursor a after) :
    cursor.Seats anchors region (RunItem.Sits anchors table) [.atom a] after := by
  intro hsettled
  cases h with
  | @intro first second third _ backslash dot parameters body hbackslash hparameters hdot hkind
      hbody =>
    obtain ⟨hopening, hfirst⟩ := hbackslash.settled hsettled
    obtain ⟨hsecond, hparametersRow⟩ := hinner hparameters hfirst
    obtain ⟨hbetween, hthird⟩ := hdot.settled hsecond
    obtain ⟨hafter, hbodyRow⟩ := hinner hbody hthird
    have hreach : after.previousEnd = after.reach region := by
      have hfloor : region.start ≤ cursor.reach region := Nat.le_max_left _ _
      obtain ⟨hlow, hnonempty, hstop, -⟩ := hbackslash.placed hsettled.isLaid
      have hbefore := hparametersRow.le
      have hdots := Span.sits_spreads.le hbetween
      have hbehind := hbodyRow.le
      exact Cursor.previousEnd_of_reach (by omega)
    have hspan : (Span.mk backslash.span.start after.previousEnd).Sits anchors (cursor.reach region)
        (after.reach region) := by
      refine ⟨⟨hopening.start, hafter.isAnchored.previousEnd, ?_⟩, hopening.low_le,
        Nat.le_of_eq hreach⟩
      rw [hreach]
      refine Nat.le_trans hopening.ordered (Nat.le_trans hopening.le_high ?_)
      have hbetweenLe := Span.sits_spreads.le hbetween
      exact Nat.le_trans hparametersRow.le (Nat.le_trans hbetweenLe hbodyRow.le)
    refine ⟨hafter, .singleton ⟨hspan, ?_⟩⟩
    have hitems := hparametersRow.of_singleton.items
    cases hparts : parameters.items with
    | nil =>
      rw [Atom.resolve]
      exact hspan.toIsAnchored
    | cons item rest =>
      rw [hparts] at hitems
      refine (points_resolveParameters hitems).bind fun _ _ => ?_
      exact Points.bind hbodyRow.of_singleton.isPointed fun _ _ => hspan.toIsAnchored.sits

theorem Conditional.seats {items : List RunItem}
    (h : Conditional Inner context cursor items after) :
    cursor.Seats anchors region (RunItem.Sits anchors table) items after := by
  intro hsettled
  cases h with
  | @withElse _ _ third _ _ opening _ _ condition _ hopening hcondition hjoining _ hbranch
      hclosing =>
    obtain ⟨hstart, hfirst⟩ := hopening.settled hsettled
    obtain ⟨hsecond, hconditionRow⟩ := hinner hcondition hfirst
    obtain ⟨hthen, hthird⟩ := hjoining.settled hsecond
    obtain ⟨hfourth, hbranchRow⟩ := hinner hbranch hthird
    obtain ⟨helse, hafter⟩ := hclosing.settled hfourth
    have hbetween := Nat.le_trans hconditionRow.le
      (Nat.le_trans (Span.sits_spreads.le hthen) hbranchRow.le)
    have hspan := hstart.opens.through (Span.sits_spreads.widen helse hbetween (Nat.le_refl _))
    have hbranchPoints := points_resolveOption fun inner hinner => by
      obtain rfl := Option.some.inj (Option.mem_toList.mp hinner)
      exact hbranchRow.of_singleton.isPointed
    exact ⟨hafter, .singleton ⟨hspan.opens, hconditionRow.of_singleton.isPointed, hbranchPoints⟩⟩
  | @withoutElse _ _ third _ opening _ condition thenBranch hopening hcondition hjoining _
      hbranch =>
    obtain ⟨hstart, hfirst⟩ := hopening.settled hsettled
    obtain ⟨hsecond, hconditionRow⟩ := hinner hcondition hfirst
    obtain ⟨hthen, hthird⟩ := hjoining.settled hsecond
    obtain ⟨hafter, hbranchRow⟩ := hinner hbranch hthird
    have hbranchSits := hbranchRow.of_singleton
    have hbetween := Nat.le_trans hconditionRow.le (Span.sits_spreads.le hthen)
    have hspan : (Span.mk opening.span.start thenBranch.span.start).Opens anchors
        (cursor.reach region) (third.reach region) := by
      refine ⟨⟨hstart.start, hbranchSits.span.start, ?_⟩, hstart.low_le, ?_⟩
      · exact Nat.le_trans hstart.opens.le_high (Nat.le_trans hbetween hbranchSits.low_le)
      · exact Nat.le_trans hstart.opens.le_high hbetween
    exact ⟨hafter, .cons ⟨hspan, hconditionRow.of_singleton.isPointed, trivial⟩ hbranchSits.items⟩

/-! ## Items -/

variable {started : Bool} {items : List RunItem}

theorem Next.seats (h : Next Inner context started cursor items after) :
    cursor.Seats anchors region (RunItem.Sits anchors table) items after := by
  cases h with
  | named _ h => exact h.seats
  | declared htoken _ hname _ =>
    intro hsettled
    obtain ⟨hfirst, hmiddle⟩ := htoken.settled hsettled
    obtain ⟨hlast, hafter⟩ := hname.settled hmiddle
    exact ⟨hafter, .singleton (sits_leaf (hfirst.opens.through hlast) rfl rfl)⟩
  | number htoken => exact seats_leaf htoken rfl rfl rfl
  | string htoken => exact seats_leaf htoken rfl rfl rfl
  | container _ h => exact h.seats hinner
  | lambda _ h => exact h.seats hinner
  | conditional _ _ h => exact h.seats hinner
  | operator _ h => exact h.seats

theorem Items.seats (h : Items Inner context started cursor items after) :
    cursor.Seats anchors region (RunItem.Sits anchors table) items after := by
  induction h with
  | stop h => exact (stop_of_answer _ _ _ h).seats
  | next h _ ih => exact ((next_of_answer _ _ _ h).seats hinner).append ih

end Parts

/-! ## Collected runs -/

theorem Collects.seats {depth : Nat} {context : RunContext} {run : Run}
    (h : Collects depth context cursor run after) :
    cursor.Seats anchors region (Run.Sits anchors table) [run] after := by
  induction depth generalizing context cursor run after with
  | zero => exact h.elim
  | succ depth ih =>
    obtain ⟨items, hitems, rfl⟩ := h
    intro hsettled
    obtain ⟨hafter, hrow⟩ := hitems.seats ih hsettled
    obtain ⟨hcurrent, hlow⟩ := hsettled.current
    have hpoint : (Span.point cursor.current.span.start).IsAnchored anchors :=
      ⟨hcurrent.span.start, hcurrent.span.start, Nat.le_refl _⟩
    exact ⟨hafter, .singleton (sits_ofItems hrow hpoint hlow)⟩

end Grammar

end Equational

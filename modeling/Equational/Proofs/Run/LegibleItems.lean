import Equational.Proofs.Run.Legible

/-!
# Collected items are legible

Every item that is collected from the tokens of a source is read as a legible step, whatever nests
in it.  An operator is spelled by the tokens that it was collected from, and so are atoms without
parts; the parameters of a lambda are found again where the lambda stands.
-/

namespace Equational

open Cursor Grammar

/-! ## Forms of containers -/

namespace Grammar

variable {Inner : RunContext → Cursor → Run → Cursor → Prop} {bracket : Bracket}
  {separator : Separator} {first : Run} {body : ContainerBody} {cursor after : Cursor}

theorem Enumeration.isFormed {more : List Run}
    (h : Enumeration Inner bracket (first :: more) cursor body after) : body.IsFormed := by
  cases h with
  | unbounded => exact .enumeration
  | bounded => exact .enumeration

theorem Elements.isFormed {found : List Run}
    (h : Elements Inner bracket separator found cursor body after)
    (hfound : ∃ first second more, found = first :: second :: more) : body.IsFormed := by
  induction h with
  | more _ _ _ _ _ ih =>
    obtain ⟨first, second, more, rfl⟩ := hfound
    exact ih ⟨first, second, _, rfl⟩
  | trailing =>
    obtain ⟨first, second, more, rfl⟩ := hfound
    exact .trailing
  | enumeration _ hbody =>
    obtain ⟨first, second, more, rfl⟩ := hfound
    exact hbody.isFormed
  | tail =>
    obtain ⟨first, second, more, rfl⟩ := hfound
    exact .several
  | done =>
    obtain ⟨first, second, more, rfl⟩ := hfound
    exact .several

theorem Elements.isFormed_of_separator {next : Separator}
    (h : Elements Inner bracket separator [first] cursor body after)
    (hnext : Separator.ofKind? cursor.current.kind = some next) : body.IsFormed := by
  cases h with
  | more _ _ _ _ hrest => exact hrest.isFormed ⟨first, _, [], rfl⟩
  | trailing => exact .trailing
  | enumeration _ hbody => exact hbody.isFormed
  | tail hbar hkind =>
    rw [hbar.current_eq, hkind] at hnext
    cases hnext
  | done hnone =>
    rw [hnone] at hnext
    cases hnext

theorem Body.isFormed (h : Body Inner bracket first cursor body after) : body.IsFormed := by
  unfold Body at h
  split at h
  · exact h.isFormed
  · obtain ⟨colon, middle, generator, last, generators, -, -, -, rfl⟩ := h
    exact .comprehension
  · rename_i hkind
    exact h.isFormed_of_separator (by rw [hkind]; rfl)
  · rename_i hkind
    exact h.isFormed_of_separator (by rw [hkind]; rfl)
  · obtain ⟨bar, middle, last, -, -, rfl⟩ := h
    exact .single
  · obtain ⟨-, rfl, -⟩ := h
    exact .single

end Grammar

/-! ## Places in a source -/

/-- In front of tokens of the source, which nest less deep than this. -/
structure Cursor.Bounded (source : List Token) (depth : Nat) (cursor : Cursor) : Prop where
  isEnded : cursor.IsEnded
  weight_le : cursor.weight ≤ depth
  comesFrom : cursor.ComesFrom source

namespace Cursor.Bounded

variable {source : List Token} {depth : Nat} {cursor after : Cursor}

theorem takes {token : Token} (h : cursor.Bounded source (depth + 1))
    (htakes : cursor.Takes token after) : after.Bounded source depth := by
  have hweight := h.weight_le
  have hlt := htakes.weight_lt
  exact ⟨htakes.isEnded h.isEnded, by omega, h.comesFrom.takes htakes⟩

theorem succ (h : cursor.Bounded source depth) : cursor.Bounded source (depth + 1) :=
  ⟨h.isEnded, Nat.le_succ_of_le h.weight_le, h.comesFrom⟩

theorem writes {glyphs : List Glyph} (h : cursor.Bounded source depth)
    (hwrites : cursor.Writes glyphs after) : after.Bounded source depth :=
  ⟨hwrites.isEnded h.isEnded, Nat.le_trans hwrites.weight_le h.weight_le,
    h.comesFrom.writes hwrites⟩

end Cursor.Bounded

namespace Grammar

variable {table : OperatorTable} {source : List Token} {cursor after : Cursor}

/-! ## Operators and atoms without parts -/

theorem Operator.legible {op : OperatorUse} (h : Operator cursor op after)
    (hkind : cursor.current.kind.isOperatorStart) :
    (RunItem.operator op).Legible table source := by
  have hop : op.Legible table := by
    cases h with
    | @joined _ _ token _ _ _ _ hjoined =>
      exact ⟨_, @Spells.joined _ token.face _ _ hjoined⟩
    | @plain _ token htoken =>
      rw [htoken.current_eq] at hkind
      exact ⟨_, @Spells.symbol _ token.face hkind⟩
  intro _ step hstep
  rw [RunItem.read] at hstep
  cases hstep
  exact hop

theorem legible_identifier {token : Token} {span : Span} (hkind : token.kind.isIdentifier) :
    (RunItem.atom (.identifier (.ofToken token) span)).Legible table source := by
  refine RunItem.legible_of_resolve (fun op hop => ?_) fun hplain _ e hresolve => ?_
  · simp only [wordOperator?, Bool.and_eq_true, Option.ite_none_right_eq_some] at hop
    obtain ⟨⟨hclass, hdeclared⟩, hop⟩ := hop
    obtain rfl := Option.some.inj hop
    have hfunction : token.kind = .functionName := by
      generalize htoken : token.kind = kind at hkind
      cases kind with
      | functionName => rfl
      | variableName => simp [Identifier.ofToken, Name.ofToken, htoken] at hclass
      | _ => cases hkind
    exact ⟨_, @Spells.word _ token.face hfunction hdeclared⟩
  · cases hresolve
    exact Expr.legible_of_anywhere (.identifier hkind hplain)

theorem Named.legible {context : RunContext} {a : Atom} (h : Named context cursor a after)
    (hkind : cursor.current.kind.isIdentifier) : (RunItem.atom a).Legible table source := by
  cases h with
  | typed => nofun
  | plain htoken =>
    rw [htoken.current_eq] at hkind
    exact legible_identifier hkind

theorem legible_leaf {a : Atom} {e : Expr} {faces : List Face}
    (hword : wordOperator? table (.atom a) = none) (hresolve : a.resolve table = .ok e)
    (h : Parenthesized table source .anywhere e faces) :
    (RunItem.atom a).Legible table source := by
  refine RunItem.legible_of_resolve (fun op hop => ?_) fun _ _ other hother => ?_
  · rw [hword] at hop
    cases hop
  · obtain rfl := Except.ok.inj (hresolve.symm.trans hother)
    exact Expr.legible_of_anywhere h

section Parts

variable {depth : Nat} (hinner : ∀ {context cursor run after}, cursor.Bounded source depth →
  Collects depth context cursor run after → run.Legible table source)

include hinner

variable {bracket : Bracket} {found : List Run} {body : ContainerBody}

/-! ## Containers -/

theorem Enumeration.legible (hcursor : cursor.Bounded source depth)
    (hfound : ∀ run ∈ found, run.Legible table source)
    (h : Enumeration (Collects depth) bracket found cursor body after) :
    ∀ run ∈ body.runs, run.Legible table source := by
  cases h with
  | unbounded => exact List.forall_mem_append.mpr ⟨hfound, by simp⟩
  | bounded hdots _ _ hbound =>
    exact List.forall_mem_append.mpr ⟨hfound,
      List.forall_mem_singleton.mpr (hinner (hcursor.succ.takes hdots) hbound)⟩

theorem Generators.legible {separator : Option Separator} (hcursor : cursor.Bounded source depth)
    (h : Generators (Collects depth) separator cursor found after) :
    ∀ run ∈ found, run.Legible table source := by
  induction h with
  | done => simp
  | more htoken _ _ hrun _ ih =>
    have hfirst := hcursor.succ.takes htoken
    exact List.forall_mem_cons.mpr ⟨hinner hfirst hrun, ih (hfirst.writes hrun.writes)⟩

theorem Elements.legible {separator : Separator} (hcursor : cursor.Bounded source depth)
    (hfound : ∀ run ∈ found, run.Legible table source)
    (h : Elements (Collects depth) bracket separator found cursor body after) :
    ∀ run ∈ body.runs, run.Legible table source := by
  induction h with
  | more htoken _ _ hrun _ ih =>
    have hfirst := hcursor.succ.takes htoken
    exact ih (hfirst.writes hrun.writes) (List.forall_mem_append.mpr
      ⟨hfound, List.forall_mem_singleton.mpr (hinner hfirst hrun)⟩)
  | trailing => exact List.forall_mem_append.mpr ⟨hfound, by simp⟩
  | enumeration _ hbody => exact hbody.legible hinner hcursor hfound
  | tail hbar _ hlast =>
    exact List.forall_mem_append.mpr ⟨hfound,
      List.forall_mem_singleton.mpr (hinner (hcursor.succ.takes hbar) hlast)⟩
  | done => exact List.forall_mem_append.mpr ⟨hfound, by simp⟩

theorem Body.legible {first : Run} (hcursor : cursor.Bounded source depth)
    (hfirst : first.Legible table source)
    (h : Body (Collects depth) bracket first cursor body after) :
    ∀ run ∈ body.runs, run.Legible table source := by
  have hfound := List.forall_mem_singleton.mpr hfirst
  unfold Body at h
  split at h
  · exact h.legible hinner hcursor hfound
  · obtain ⟨colon, middle, generator, last, generators, hcolon, hgenerator, hgenerators, rfl⟩ := h
    have hmiddle := hcursor.succ.takes hcolon
    exact List.forall_mem_cons.mpr ⟨hfirst, List.forall_mem_cons.mpr ⟨hinner hmiddle hgenerator,
      hgenerators.legible hinner (hmiddle.writes hgenerator.writes)⟩⟩
  · exact h.legible hinner hcursor hfound
  · exact h.legible hinner hcursor hfound
  · obtain ⟨bar, middle, last, hbar, hlast, rfl⟩ := h
    exact List.forall_mem_cons.mpr
      ⟨hfirst, List.forall_mem_singleton.mpr (hinner (hcursor.succ.takes hbar) hlast)⟩
  · obtain ⟨-, rfl, -⟩ := h
    exact hfound

variable (htable : table.HasNoPostfix)

include htable

theorem Container.legible {a : Atom} (hcursor : cursor.Bounded source (depth + 1))
    (h : Container (Collects depth) cursor a after) : (RunItem.atom a).Legible table source := by
  cases h with
  | empty hopening hclosing =>
    rw [← closedContainer_empty]
    exact legible_closedContainer htable .empty (by simp [ContainerBody.runs])
  | filled hopening _ hfirst hbody hclosing =>
    have hsecond := hcursor.takes hopening
    exact legible_closedContainer htable hbody.isFormed
      (hbody.legible hinner (hsecond.writes hfirst.writes) (hinner hsecond hfirst))

/-! ## Lambdas and conditionals -/

variable {context : RunContext}

theorem Lambda.legible {a : Atom} (hcursor : cursor.Bounded source (depth + 1))
    (hkind : cursor.current.kind = .mark .backslash)
    (h : Lambda (Collects depth) context cursor a after) :
    (RunItem.atom a).Legible table source := by
  have hlambda := h
  cases h with
  | @intro _ _ _ _ _ _ parameters body hbackslash hparameters hdot _ hbody =>
    have hthird := ((hcursor.takes hbackslash).writes hparameters.writes).succ.takes hdot
    have hbodyLegible := hinner hthird hbody
    refine RunItem.legible_of_resolve (fun op hop => ?_) fun _ huntyped e hresolve => ?_
    · cases hop
    · cases hitems : parameters.items with
      | nil =>
        rw [hitems] at hresolve
        cases hresolve
      | cons item rest =>
        rw [hitems] at hresolve hlambda
        obtain ⟨values, hvalues, hrest⟩ := bind_eq_ok_iff.mp hresolve
        obtain ⟨inner, hinnerBody, hnode⟩ := bind_eq_ok_iff.mp hrest
        cases hnode
        obtain ⟨front, hfront⟩ := hlambda.exists_parametersAt hkind hcursor.isEnded
          hcursor.weight_le hcursor.comesFrom (List.cons_ne_nil _ _) hvalues
        obtain ⟨faces, hfaces⟩ :=
          (Run.legible_resolve htable hbodyLegible huntyped hinnerBody).anywhere
        exact Expr.legible_of_anywhere (.lambda hfront hfaces)

theorem Conditional.legible {items : List RunItem} (hcursor : cursor.Bounded source (depth + 1))
    (h : Conditional (Collects depth) context cursor items after) :
    ∀ item ∈ items, item.Legible table source := by
  cases h with
  | withElse hopening hcondition hjoining _ hbranch =>
    have hfirst := hcursor.takes hopening
    have hthird := (hfirst.writes hcondition.writes).succ.takes hjoining
    refine List.forall_mem_singleton.mpr
      (RunItem.legible_conditional htable (hinner hfirst hcondition) ?_)
    rintro _ ⟨⟩
    exact hinner hthird hbranch
  | withoutElse hopening hcondition hjoining _ hbranch =>
    have hfirst := hcursor.takes hopening
    have hthird := (hfirst.writes hcondition.writes).succ.takes hjoining
    refine List.forall_mem_cons.mpr ⟨?_, hinner hthird hbranch⟩
    exact RunItem.legible_conditional htable (hinner hfirst hcondition) (by simp)

/-! ## Items -/

variable {started : Bool} {items : List RunItem}

theorem Next.legible (hcursor : cursor.Bounded source (depth + 1))
    (h : Next (Collects depth) context started cursor items after) :
    ∀ item ∈ items, item.Legible table source := by
  cases h with
  | named hkind h => exact List.forall_mem_singleton.mpr (h.legible hkind)
  | declared _ _ _ hidentifier =>
    exact List.forall_mem_singleton.mpr (legible_leaf rfl rfl (.declared hidentifier))
  | number _ hkind hliteral =>
    exact List.forall_mem_singleton.mpr (legible_leaf rfl rfl (.number hkind hliteral))
  | string _ hkind => exact List.forall_mem_singleton.mpr (legible_leaf rfl rfl (.string hkind))
  | container _ h => exact List.forall_mem_singleton.mpr (h.legible hinner htable hcursor)
  | lambda hkind h => exact List.forall_mem_singleton.mpr (h.legible hinner htable hcursor hkind)
  | conditional _ _ h => exact h.legible hinner htable hcursor
  | operator hkind h => exact List.forall_mem_singleton.mpr (h.legible hkind)

theorem Items.legible (hcursor : cursor.Bounded source (depth + 1))
    (h : Items (Collects depth) context started cursor items after) :
    ∀ item ∈ items, item.Legible table source := by
  induction h with
  | stop => simp
  | next h _ ih =>
    have hnext := next_of_answer _ _ _ h
    exact List.forall_mem_append.mpr ⟨hnext.legible hinner htable hcursor,
      ih (hcursor.writes (hnext.writes Collects.writes))⟩

end Parts

/-! ## Runs -/

theorem Collects.legible (htable : table.HasNoPostfix) {depth : Nat} {context : RunContext}
    {run : Run} (hcursor : cursor.Bounded source depth)
    (h : Collects depth context cursor run after) : run.Legible table source := by
  induction depth generalizing context cursor run after with
  | zero => exact h.elim
  | succ depth ih =>
    obtain ⟨items, hitems, rfl⟩ := h
    exact hitems.legible ih htable hcursor

end Grammar

end Equational

import Equational.Proofs.Parse.Sealed
import Equational.Proofs.Run.Brackets

/-!
# Runs are sealed

A run takes semicolons only inside the brackets that it opens and closes.  Splitting an operator
changes nothing about that, since its parts are no brackets and no semicolons either.
-/

namespace Equational

open Cursor Grammar

/-! ## Nested tokens -/

namespace Nested

variable {kinds : List TokenKind} {separators : List Separator} {pairs : List BracketPair}

private theorem unopened_append (h : Nested kinds separators pairs) (rest : List TokenKind) :
    unopened (kinds ++ rest) = unopened rest := by
  induction h generalizing rest with
  | nil => rfl
  | @other kind kinds _ _ hkind _ ih =>
    have hkind : unopened (kind :: (kinds ++ rest)) = unopened (kinds ++ rest) := by
      cases kind with
      | mark m => cases m <;> first | rfl | cases hkind
      | _ => rfl
    exact hkind.trans (ih rest)
  | @separator kind kinds _ _ _ hkind _ ih =>
    have hkind : unopened (kind :: (kinds ++ rest)) = unopened (kinds ++ rest) := by
      unfold Separator.ofKind? at hkind
      split at hkind <;> first | rfl | cases hkind
    exact hkind.trans (ih rest)
  | @pair bracket inside kinds _ _ _ _ _ _ ihInside ihRest =>
    have hopening (others : List TokenKind) :
        unopened (.mark bracket.opening :: others) = unopened others - 1 := by
      cases bracket <;> rfl
    have hclosing (others : List TokenKind) :
        unopened (.mark bracket.closing :: others) = unopened others + 1 := by
      cases bracket <;> rfl
    rw [List.cons_append, List.cons_append, hopening, List.append_assoc, ihInside,
      List.cons_append, hclosing, ihRest, Nat.add_sub_cancel]

/-- In front of sealed tokens too, if separators stand inside brackets only or some bracket is still
to be closed. -/
theorem sealed_append (h : Nested kinds separators pairs)
    (hend : ∀ kind ∈ kinds, kind ≠ .endOfInput) {rest : List TokenKind} (hrest : Sealed rest)
    (hinside : separators = [] ∨ 0 < unopened rest) : Sealed (kinds ++ rest) := by
  induction h generalizing rest with
  | nil => exact hrest
  | other hkind _ ih =>
    obtain ⟨hfirst, hothers⟩ := List.forall_mem_cons.mp hend
    refine ⟨hfirst, ?_, ih hothers hrest hinside⟩
    rintro rfl
    cases hkind
  | separator _ hnested ih =>
    obtain ⟨hfirst, hothers⟩ := List.forall_mem_cons.mp hend
    have hopen := hinside.resolve_left (List.cons_ne_nil _ _)
    exact ⟨hfirst, fun _ => hnested.unopened_append rest ▸ hopen, ih hothers hrest (.inr hopen)⟩
  | @pair bracket inside kinds _ _ _ _ _ _ ihInside ihRest =>
    rw [List.cons_append, List.forall_mem_cons, List.forall_mem_append,
      List.forall_mem_cons] at hend
    obtain ⟨hopening, hinner, hclosing, hothers⟩ := hend
    -- What is inside is sealed by the bracket that closes it.
    have hbehind : Sealed (.mark bracket.closing :: (kinds ++ rest)) :=
      ⟨hclosing, by cases bracket <;> nofun, ihRest hothers hrest hinside⟩
    have hclosed : 0 < unopened (.mark bracket.closing :: (kinds ++ rest)) := by
      cases bracket <;> exact Nat.succ_pos _
    rw [List.cons_append, List.cons_append, List.append_assoc, List.cons_append]
    exact ⟨hopening, by cases bracket <;> nofun, ihInside hinner hbehind (.inr hclosed)⟩

end Nested

/-! ## Passing sealed tokens -/

namespace Cursor.Passage

variable {cursor after : Cursor} {taken : List Token}

theorem ne_endOfInput (h : Passage cursor taken after) :
    ∀ token ∈ taken, token.kind ≠ .endOfInput := by
  induction h with
  | refl => nofun
  | take htakes _ ih =>
    cases htakes with
    | intro _ _ hkind => exact List.forall_mem_cons.mpr ⟨hkind, ih⟩
  | split _ _ ih => exact ih

private theorem landmarks_parts {token : Token} (h : token.IsSpelled)
    (hkind : token.kind = .operatorSymbol) {head back : List Char}
    (hcut : cutText? 1 token.value.toList = some (head, back)) (others : List Token) :
    landmarks ((frontToken token 1 head :: backToken token 1 back :: others).map Token.kind) =
      landmarks ((token :: others).map Token.kind) := by
  have hplain : token.kind.isPlain := by
    rw [hkind]
    rfl
  rw [List.map_cons, List.map_cons, List.map_cons, landmarks_cons_of_isPlain hplain,
    landmarks_cons_of_isPlain (h.isPlain_front hkind hcut),
    landmarks_cons_of_isPlain (h.isPlain_back hkind hcut)]

theorem landmarks_eq (h : Passage cursor taken after) {front rest : List Token}
    (hahead : cursor.ahead = front ++ rest) (hspelled : ∀ token ∈ front, token.IsSpelled)
    (hweight : totalWeight rest < after.weight) :
    ∃ left, after.ahead = left ++ rest ∧
      landmarks (front.map Token.kind) =
        landmarks (taken.map Token.kind) ++ landmarks (left.map Token.kind) := by
  -- What is ahead weighs more than the rest, so it begins with a token of the front.
  have hcons {cursor : Cursor} {front : List Token} (hahead : cursor.ahead = front ++ rest)
      (hle : after.weight ≤ cursor.weight) : ∃ token others, front = token :: others := by
    cases front with
    | nil =>
      change totalWeight after.ahead ≤ totalWeight cursor.ahead at hle
      rw [hahead, List.nil_append] at hle
      exact absurd hweight (Nat.not_lt.mpr hle)
    | cons token others => exact ⟨token, others, rfl⟩
  induction h generalizing front with
  | refl => exact ⟨front, hahead, rfl⟩
  | @take cursor middle after token taken htakes hpassage ih =>
    have hle := hpassage.weight_le
    have hlt := htakes.weight_lt
    obtain ⟨first, others, rfl⟩ := hcons hahead (by omega)
    cases htakes with
    | intro passed ahead _ =>
      obtain ⟨rfl, hothers⟩ := List.cons.inj hahead
      obtain ⟨left, hleft, hsame⟩ :=
        ih hothers (List.forall_mem_cons.mp hspelled).2 hweight hcons
      refine ⟨left, hleft, ?_⟩
      rw [List.map_cons, List.map_cons, landmarks, landmarks, List.filter_cons, List.filter_cons]
      split
      · exact congrArg (token.kind :: ·) hsame
      · exact hsame
  | @split cursor after taken hdot hpassage ih =>
    have hle := hpassage.weight_le
    have hsplit := weight_split_le cursor 1
    obtain ⟨token, others, rfl⟩ := hcons hahead (by omega)
    obtain ⟨passed, ahead, errors⟩ := cursor
    cases hahead
    have hkind := (kind_of_beginsWithDot hdot).1
    cases hcut : cutText? 1 token.value.toList with
    | none =>
      rw [split_of_not_cut hcut] at ih
      exact ih rfl hspelled hweight hcons
    | some parts =>
      obtain ⟨head, back⟩ := parts
      obtain ⟨htoken, hothers⟩ := List.forall_mem_cons.mp hspelled
      rw [split_of_cut hcut] at ih
      obtain ⟨left, hleft, hsame⟩ := @ih (_ :: _ :: others) rfl
        (List.forall_mem_cons.mpr ⟨htoken.front hkind hcut,
          List.forall_mem_cons.mpr ⟨htoken.back hkind hcut, hothers⟩⟩) hweight hcons
      exact ⟨left, hleft, (landmarks_parts htoken hkind hcut others).symm.trans hsame⟩

end Cursor.Passage

theorem Grammar.Collects.exists_sealed {depth : Nat} {context : RunContext} {cursor after : Cursor}
    {run : Run} (h : Collects depth context cursor run after) :
    ∃ taken, cursor.Passage taken after ∧ Sealed (taken.map Token.kind) := by
  obtain ⟨taken, hpassage, pairs, hnested, -⟩ := h.encloses
  refine ⟨taken, hpassage, ?_⟩
  have hend : ∀ kind ∈ taken.map Token.kind, kind ≠ .endOfInput := by
    intro kind hkind
    obtain ⟨token, hmem, rfl⟩ := List.mem_map.mp hkind
    exact hpassage.ne_endOfInput token hmem
  rw [← List.append_nil (taken.map Token.kind)]
  exact hnested.sealed_append hend trivial (.inl rfl)

/-! ## Runs that end at a glued dot -/

namespace Grammar

/-- Items of a run lead from one cursor to another. -/
inductive Leads (Inner : RunContext → Cursor → Run → Cursor → Prop) (context : RunContext) :
    Bool → Cursor → Cursor → Prop where
  | refl (started : Bool) (cursor : Cursor) : Leads Inner context started cursor cursor
  | next {started : Bool} {cursor middle after : Cursor} {items : List RunItem}
    (h : Answer Inner context started cursor (some items) middle)
    (hrest : Leads Inner context true middle after) : Leads Inner context started cursor after

variable {Inner : RunContext → Cursor → Run → Cursor → Prop} {context : RunContext}
  {cursor middle : Cursor}

private theorem Leads.exists_items {started : Bool} (h : Leads Inner context started cursor middle)
    (hdot : beginsWithDot middle.current) (hstop : context.stopAtDot = true) :
    ∃ items, Items Inner context started cursor items (middle.split 1) := by
  induction h with
  | refl => exact ⟨[], .stop (answer_of_stop Inner context _ (.glued hdot hstop))⟩
  | next h _ ih =>
    obtain ⟨items, hitems⟩ := ih hdot
    exact ⟨_, .next h hitems⟩

/-- Where items lead to a symbol with a glued dot, the run ends in front of its parts. -/
theorem Leads.exists_collectsAny (hended : cursor.IsEnded)
    (h : Leads (Collects cursor.weight) context false cursor middle)
    (hdot : beginsWithDot middle.current) (hstop : context.stopAtDot = true) :
    ∃ run, CollectsAny context cursor run (middle.split 1) := by
  obtain ⟨items, hitems⟩ := h.exists_items hdot hstop
  have hcollects : Collects (cursor.weight + 1) context cursor _ (middle.split 1) :=
    ⟨items, hitems, rfl⟩
  exact ⟨_, hcollects.atDepth hended (Nat.le_succ _) (Nat.le_refl _)⟩

end Grammar

end Equational

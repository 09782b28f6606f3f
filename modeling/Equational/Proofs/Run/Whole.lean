import Equational.Proofs.Run.Colonless
import Equational.Proofs.Run.Follows

/-!
# Tokens that are collected whole

Tokens by themselves are collected up to the end of the input.  Where the same tokens stand in front
of others, they are collected in the same way up to those, if the end of the run does not depend on
what is behind it.
-/

namespace Equational

open Cursor Parse Grammar

/-! ## Faces ahead -/

def Cursor.Faces (cursor : Cursor) (faces : List Face) (behind : List Token) : Prop :=
  ∃ front, cursor.ahead = front ++ behind ∧ front.map Token.face = faces

namespace Cursor.Faces

variable {cursor : Cursor} {face : Face} {faces : List Face} {behind : List Token}

theorem current_eq (h : cursor.Faces (face :: faces) behind) : cursor.current.face = face := by
  obtain ⟨front, hahead, hfaces⟩ := h
  obtain ⟨token, more, rfl, hface, -⟩ := List.map_eq_cons_iff.mp hfaces
  rw [current_of_ahead hahead, hface]

theorem takes (h : cursor.Faces (face :: faces) behind) (hkind : face.kind ≠ .endOfInput) :
    ∃ token after, cursor.Takes token after ∧ token.face = face ∧ after.Faces faces behind := by
  obtain ⟨front, hahead, hfaces⟩ := h
  obtain ⟨token, more, rfl, rfl, hmore⟩ := List.map_eq_cons_iff.mp hfaces
  obtain ⟨passed, ahead, errors⟩ := cursor
  obtain rfl : ahead = token :: (more ++ behind) := hahead
  exact ⟨token, _, .intro passed _ hkind, rfl, more, rfl, hmore⟩

end Cursor.Faces

/-! ## Tokens in front of the end -/

theorem exists_withEnd_eq {tokens : List Token}
    (h : ∀ token ∈ tokens.getLast?, token.kind ≠ .endOfInput) :
    ∃ last, last.kind = .endOfInput ∧ withEnd tokens = tokens ++ [last] := by
  unfold withEnd
  cases hlast : tokens.getLast? with
  | none =>
    rw [List.getLast?_eq_none_iff.mp hlast]
    exact ⟨_, rfl, rfl⟩
  | some token =>
    simp only [if_neg (h token hlast)]
    exact ⟨_, rfl, rfl⟩

theorem kind_operatorPart (text : List Char) (span : Span) :
    (operatorPart text span).kind ≠ .endOfInput := by
  unfold operatorPart TokenKind.ofOperatorText
  dsimp only
  split <;> nofun

def Cursor.EndsAt (cursor : Cursor) (last : Token) : Prop :=
  ∃ front, cursor.ahead = front ++ [last] ∧ ∀ token ∈ front, token.kind ≠ .endOfInput

private theorem Cursor.Passage.endsAt {cursor after : Cursor} {taken : List Token} {last : Token}
    (hlast : last.kind = .endOfInput) (h : cursor.Passage taken after)
    (hends : cursor.EndsAt last) : after.EndsAt last := by
  induction h with
  | refl => exact hends
  | take htakes _ ih =>
    obtain ⟨front, hahead, hfront⟩ := hends
    refine ih ?_
    cases htakes with
    | intro passed rest hkind =>
      cases front with
      | nil =>
        obtain ⟨rfl, -⟩ := List.cons.inj hahead
        exact absurd hlast hkind
      | cons first front =>
        exact ⟨front, (List.cons.inj hahead).2, (List.forall_mem_cons.mp hfront).2⟩
  | @split cursor _ _ hdot _ ih =>
    refine ih ?_
    rcases cursor.split_cases 1 with
      hsplit | ⟨passed, token, rest, errors, head, tail, rfl, hcut, hsplit⟩ <;> rw [hsplit]
    · exact hends
    · obtain ⟨front, hahead, hfront⟩ := hends
      cases front with
      | nil =>
        obtain ⟨rfl, -⟩ := List.cons.inj hahead
        have hkind := (kind_of_beginsWithDot hdot).1
        exact absurd (hlast.symm.trans hkind) nofun
      | cons first front =>
        refine ⟨_ :: _ :: front, congrArg (_ :: _ :: ·) (List.cons.inj hahead).2, ?_⟩
        refine List.forall_mem_cons.mpr ⟨kind_operatorPart _ _, ?_⟩
        exact List.forall_mem_cons.mpr ⟨kind_operatorPart _ _, (List.forall_mem_cons.mp hfront).2⟩

/-! ## Whole runs -/

/-- The tokens are collected whole, as this run. -/
structure Whole (tokens : List Token) (run : Run) : Prop where
  inside : ∀ token ∈ tokens, token.kind ≠ .endOfInput
  whole : ∃ final, Parse.run {} (.ofTokens tokens .empty) = .ok run final ∧ final.hasTokens = false

namespace Whole

variable {tokens : List Token} {run : Run}

private theorem exists_collects (h : Whole tokens run) :
    ∃ last cursor after, last.kind = .endOfInput ∧
    cursor.ahead = tokens ++ [last] ∧ Collects cursor.weight {} cursor run after ∧
    after.ahead = [last] := by
  obtain ⟨final, hrun, hfinal⟩ := h.whole
  obtain ⟨last, hlast, hwith⟩ := exists_withEnd_eq fun token htoken =>
    h.inside token (List.mem_of_getLast? htoken)
  have hstart : (ParseState.ofTokens tokens .empty).cursor = ⟨[], tokens ++ [last], .empty⟩ :=
    congrArg (Cursor.mk [] · .empty) hwith
  have hended : Cursor.IsEnded ⟨[], tokens ++ [last], .empty⟩ := ⟨_, last, rfl, hlast⟩
  have hfollows := follows_run {} hended
  obtain ⟨after, hcollects, rfl⟩ := (hfollows.ok_iff _ hstart (hstart ▸ Nat.le_succ _) _ _).mp hrun
  obtain ⟨taken, hpassage⟩ := hfollows.passes _ _ hcollects
  obtain ⟨front, hahead, hfront⟩ := hpassage.endsAt hlast ⟨_, rfl, h.inside⟩
  refine ⟨last, _, after, hlast, rfl, hcollects, ?_⟩
  cases front with
  | nil => exact hahead
  | cons token front =>
    have hcurrent : after.current = token := current_of_ahead hahead
    simp only [ParseState.hasTokens, hcurrent, bne_eq_false_iff_eq] at hfinal
    exact absurd hfinal (hfront token List.mem_cons_self)

section Within

variable (h : Whole tokens run) {context : RunContext} {started : Bool} {cursor : Cursor}
  {depth : Nat} {face : Face} {faces : List Face} {behind : List Token}
  (hfaces : cursor.Faces (tokens.map Token.face ++ face :: faces) behind)

include h hfaces

theorem exists_facing : ∃ last follower more alone final, last.kind = .endOfInput ∧
    follower.face = face ∧ alone.IsEnded ∧ Collects alone.weight {} alone run final ∧
    final.ahead = [last] ∧ Facing [last] (follower :: more) alone cursor ∧
    ∀ after, Facing [last] (follower :: more) final after → after.Faces (face :: faces) behind := by
  obtain ⟨front, hahead, hfront⟩ := hfaces
  obtain ⟨first, second, rfl, hfirst, hsecond⟩ := List.map_eq_append_iff.mp hfront
  obtain ⟨follower, more, rfl, hface, hmore⟩ := List.map_eq_cons_iff.mp hsecond
  obtain ⟨last, alone, final, hlast, htokens, hcollects, hfinal⟩ := h.exists_collects
  have hfacing : Facing [last] (follower :: (more ++ behind)) alone cursor := by
    refine .of_map_eq htokens ?_ hfirst
    rw [hahead, List.append_assoc]
    rfl
  exact ⟨last, follower, _, alone, final, hlast, hface, ⟨_, last, htokens, hlast⟩, hcollects,
    hfinal, hfacing, fun after hafter => ⟨follower :: more, hafter.ahead_of_end hfinal, hsecond⟩⟩

theorem items (hended : cursor.IsEnded) (hweight : cursor.weight ≤ depth + 1)
    (hcarries : ∀ {deep last follower more alone items final}, last.kind = .endOfInput →
      follower.face = face → Items (Collects deep) {} false alone items final → run.items = items →
      final.ahead = [last] → Facing [last] (follower :: more) alone cursor →
      Carries [last] (follower :: more) (Items (Collects deep) context started) items final
        cursor) :
    ∃ items after, Items (Collects depth) context started cursor items after ∧
      Alike run.items items ∧ after.Faces (face :: faces) behind := by
  obtain ⟨last, follower, more, alone, final, hlast, hface, haloneEnded, hcollects, hfinal, hfacing,
    hbehind⟩ := h.exists_facing hfaces
  -- The nesting has to suffice for both places.
  have hdeep := Nat.le_max_left alone.weight depth
  have hdepth := Nat.le_max_right alone.weight depth
  obtain ⟨items, hitems, hrun⟩ :=
    hcollects.atDepth haloneEnded (Nat.le_refl _) (Nat.le_succ_of_le hdeep)
  have hitemsRun : run.items = items := by rw [hrun]; rfl
  obtain ⟨items', after, hitems', hlike, hafter⟩ :=
    hcarries hlast hface hitems hitemsRun hfinal hfacing
  exact ⟨items', after, hitems'.atDepth hended (by omega) hweight, hitemsRun ▸ hlike,
    hbehind after hafter⟩

/-- In front of what is no word the items are collected as they are by themselves; if a colon would
end them, there has to be none within reach. -/
theorem items_severed {stopAtColon : Bool} (hsevers : Severs { stopAtColon } face.kind)
    (hcolonless : stopAtColon = true → run.isColonless) (hended : cursor.IsEnded)
    (hweight : cursor.weight ≤ depth + 1) :
    ∃ items after, Items (Collects depth) { stopAtColon } false cursor items after ∧
      Alike run.items items ∧ after.Faces (face :: faces) behind := by
  refine h.items hfaces hended hweight ?_
  intro deep last follower more alone items final hlast hface hitems hrun hfinal hfacing
  rw [← congrArg Face.kind hface] at hsevers
  have hmoved : Items (Collects deep) { stopAtColon } false alone items final := by
    cases stopAtColon with
    | false => exact hitems
    | true =>
      rw [Run.isColonless_eq, hrun] at hcolonless
      exact hitems.withColon Collects.withColon (hcolonless rfl)
  exact hmoved.severed hlast hsevers (severable hlast _) hfinal hfacing

/-- Where a colon ends the items and one is within reach, they end in front of a colon. -/
theorem exists_cut (hcolon : run.isColonless = false) (hended : cursor.IsEnded)
    (hweight : cursor.weight ≤ depth) : beginsItem cursor.current.kind = true ∧
      ∃ template middle, Collects depth (.withColon {}) cursor template middle ∧
        middle.current.kind = .mark .colon := by
  obtain ⟨last, follower, more, alone, final, hlast, hface, haloneEnded, hcollects, hfinal, hfacing,
    hbehind⟩ := h.exists_facing hfaces
  have hdeep := Nat.le_max_left alone.weight depth
  have hdepth := Nat.le_max_right alone.weight depth
  obtain ⟨template, middle, htemplate, hcut⟩ :=
    (hcollects.atDepth haloneEnded (Nat.le_refl _) hdeep).cut hcolon
  have hsettled : Settled [last] middle :=
    hcut.settled (Nat.le_of_eq (congrArg totalWeight hfinal).symm)
  obtain ⟨template', middle', htemplate', -, hfacing'⟩ := transfers _ _ _ htemplate hfacing hsettled
  refine ⟨?_, template', middle', htemplate'.atDepth hended (by omega) hweight, ?_⟩
  · have hnonempty : run.items ≠ [] := by
      intro hnil
      rw [Run.isColonless_eq, hnil] at hcolon
      cases hcolon
    rw [hfacing.kind_eq (Nat.lt_of_lt_of_le hsettled.1 htemplate.writes.weight_le)]
    exact hcollects.begins hnonempty
  · rw [hfacing'.kind_eq hsettled.1, hcut.kind_eq]

end Within

end Whole

end Equational

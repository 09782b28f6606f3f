import Equational.Proofs.Parse.Sealed
import Equational.Proofs.Parse.Skipping
import Equational.Proofs.Run.Brackets

/-!
# Glued dots

The dot of a lambda may be glued to the operator that the body begins with.  Two cursors go over
tokens with such a symbol, and over the same tokens with its two parts in its place and the kept
diagnostics behind it one index further on.

In front of the lambda, and in the brackets between its parameters, both cursors see the same and do
the same.  Behind the parameters the symbol is split, and there is no difference any more.  If it is
passed at all before that, then because the statement is skipped, together with its two parts.
-/

namespace Equational

open Cursor

/-! ## Diagnostics behind a gap -/

namespace DiagnosticMap

theorem keyBehind_inj {gap first second : Nat} :
    keyBehind gap first = keyBehind gap second ↔ first = second := by
  grind [keyBehind]

theorem find_openGap (errors : DiagnosticMap) (gap index : Nat) :
    (errors.openGap gap).find? (keyBehind gap index) = errors.find? index := by
  obtain ⟨entries, hordered⟩ := errors
  change (entries.map fun entry => (keyBehind gap entry.1, entry.2)).lookup (keyBehind gap index) =
    entries.lookup index
  clear hordered
  induction entries with
  | nil => rfl
  | cons entry rest ih =>
    have hkey : (keyBehind gap index == keyBehind gap entry.1) = (index == entry.1) := by
      rw [Bool.eq_iff_iff, beq_iff_eq, beq_iff_eq, keyBehind_inj]
    rw [List.map_cons, List.lookup_cons, List.lookup_cons, hkey, ih]

theorem erase_openGap (errors : DiagnosticMap) (gap index : Nat) :
    (errors.openGap gap).erase (keyBehind gap index) = (errors.erase index).openGap gap := by
  refine DiagnosticMap.ext ?_
  change (errors.entries.map _).filter _ = (errors.entries.filter _).map _
  rw [List.filter_map]
  refine congrArg (List.map _) (List.filter_congr fun entry _ => ?_)
  simp [keyBehind_inj]

theorem openGap_comm (errors : DiagnosticMap) {first second : Nat} (h : first < second) :
    (errors.openGap second).openGap first = (errors.openGap first).openGap (second + 1) := by
  refine DiagnosticMap.ext ?_
  change (errors.entries.map _).map _ = (errors.entries.map _).map _
  rw [List.map_map, List.map_map]
  refine List.map_congr_left fun entry _ => ?_
  grind [keyBehind]

end DiagnosticMap

theorem Cursor.IsEnded.ahead_eq_cons {passed ahead : List Token} {errors : DiagnosticMap}
    (h : IsEnded ⟨passed, ahead, errors⟩) : ∃ token rest, ahead = token :: rest := by
  obtain ⟨_, token, rest, _, heq⟩ := h.exists_cons
  exact ⟨token, rest, congrArg Cursor.ahead heq⟩

theorem Cursor.unexpected_openGap {passed ahead passed' ahead' : List Token}
    {errors : DiagnosticMap} {gap : Nat}
    (hindex : passed'.length = DiagnosticMap.keyBehind gap passed.length)
    (hcurrent : (Cursor.mk passed' ahead' (errors.openGap gap)).current =
      (Cursor.mk passed ahead errors).current) (expected : String) :
    ∃ diagnostic errors',
      (Cursor.mk passed ahead errors).unexpected expected = (diagnostic, ⟨passed, ahead, errors'⟩) ∧
      (Cursor.mk passed' ahead' (errors.openGap gap)).unexpected expected =
        (diagnostic, ⟨passed', ahead', errors'.openGap gap⟩) := by
  have hfind := errors.find_openGap gap passed.length
  have herase := errors.erase_openGap gap passed.length
  rw [← hindex] at hfind herase
  unfold unexpected
  rw [hcurrent]
  generalize (Cursor.mk passed ahead errors).current = token
  dsimp only [index]
  rw [hfind, herase]
  split
  · cases errors.find? passed.length with
    | some diagnostic => exact ⟨_, _, rfl, rfl⟩
    | none => exact ⟨_, _, rfl, rfl⟩
  · exact ⟨_, _, rfl, rfl⟩
  · exact ⟨_, _, rfl, rfl⟩

/-! ## Symbols with a glued dot -/

/-- The dot that a symbol begins with, as a token by itself. -/
def lambdaDot (token : Token) : Token :=
  ⟨.mark .dot, ".", none, ⟨token.span.start, recorded (token.span.start + 1)⟩⟩

/-- What follows the dot that a symbol begins with, as a token by itself. -/
def behindDot (token : Token) (text : List Char) : Token :=
  ⟨.ofOperatorText (.ofList text), .ofList text, none,
    ⟨recorded (token.span.start + 1), token.span.stop⟩⟩

section Dot

variable {token : Token} {text : List Char} (hvalue : token.value.toList = '.' :: text)

include hvalue

theorem cutText_dot (htext : text ≠ []) : cutText? 1 token.value.toList = some (['.'], text) := by
  have hsize : Char.utf8Size '.' = 1 := rfl
  simp [hvalue, cutText?, hsize, htext]

theorem split_dot (htext : text ≠ []) (passed ahead : List Token) (errors : DiagnosticMap) :
    Cursor.split ⟨passed, token :: ahead, errors⟩ 1 =
      ⟨passed, lambdaDot token :: behindDot token text :: ahead, errors.openGap passed.length⟩ := by
  have hkind : TokenKind.ofOperatorText (String.ofList ['.']) = .mark .dot := by decide
  have hfront : frontToken token 1 ['.'] = lambdaDot token := by
    change Token.mk (.ofOperatorText (String.ofList ['.'])) _ _ _ = _
    rw [hkind]
    rfl
  rw [split_of_cut (cutText_dot hvalue htext), hfront]
  rfl

theorem beginsWithDot_of_value (hkind : token.kind = .operatorSymbol)
    (hplain : token.moduleName = none) : beginsWithDot token = true := by
  simp [beginsWithDot, hkind, Token.isQualified, hplain, hvalue]

theorem tokenWeight_dot (htext : text ≠ []) :
    tokenWeight (lambdaDot token) + tokenWeight (behindDot token text) = tokenWeight token := by
  have hparts := tokenWeight_parts (cutText_dot hvalue htext)
  exact hparts

end Dot

/-- A symbol that is glued to the dot in front of it, behind the parameters of a lambda. -/
structure Gluing where
  backslash : Token
  parameters : List Token
  glued : Token
  text : List Char
  /-- What follows the symbol. -/
  rest : List Token
  /-- What the rounds of a loop are limited to. -/
  limit : Nat
  /-- Nothing is said about what stands in front of the symbol.  Where the first of two runs passes
  it then or fails, nothing is said about the second one. -/
  loose : Bool
  /-- Nothing is said about what has been passed, nor about the diagnostics that are kept. -/
  detached : Bool
  isLoose : detached = true → loose = true
  isLambda : backslash.kind = .mark .backslash
  kind : glued.kind = .operatorSymbol
  plain : glued.moduleName = none
  value : glued.value.toList = '.' :: text
  nonempty : text ≠ []
  symbol : ∀ c ∈ text, Token.isOperatorChar c
  spelled : ∀ token ∈ parameters, token.IsSpelled
  isSealed : Sealed (parameters.map Token.kind)
  ended : ∃ front last, rest = front ++ [last] ∧ last.kind = .endOfInput
  /-- The run behind the backslash ends where the symbol is split. -/
  ends : ∃ run stop, CollectsAny { stopAtDot := true }
    ⟨[backslash], parameters ++ glued :: rest, .empty⟩ run stop ∧
      stop.ahead = lambdaDot glued :: behindDot glued text :: rest

namespace Gluing

def dot (γ : Gluing) : Token := lambdaDot γ.glued

def tail (γ : Gluing) : Token := behindDot γ.glued γ.text

def loosen (γ : Gluing) : Gluing :=
    { γ with loose := true, detached := false, isLoose := fun _ => rfl }

def detach (γ : Gluing) : Gluing := { γ with loose := true, detached := true, isLoose := id }

variable (γ : Gluing)

theorem dot_kind : γ.dot.kind = .mark .dot := rfl

theorem dot_kind_ne_glued : γ.dot.kind ≠ γ.glued.kind := by
  rw [γ.dot_kind, γ.kind]
  nofun

theorem glued_isPlain : γ.glued.kind.isPlain := by
  rw [γ.kind]
  rfl

theorem dot_isPlain : γ.dot.kind.isPlain := rfl

theorem tail_isPlain : γ.tail.kind.isPlain := isPlain_ofOperatorText γ.symbol

theorem beginsWithDot : beginsWithDot γ.glued = true :=
  beginsWithDot_of_value γ.value γ.kind γ.plain

theorem tokenWeight_eq : tokenWeight γ.dot + tokenWeight γ.tail = tokenWeight γ.glued :=
  tokenWeight_dot γ.value γ.nonempty

theorem tail_ne_glued : γ.tail ≠ γ.glued := by
  intro heq
  have hvalue : γ.text = '.' :: γ.text := by
    rw [← γ.value, ← heq]
    exact (String.toList_ofList).symm
  simp at hvalue

theorem split_glued (passed ahead : List Token) (errors : DiagnosticMap) :
    Cursor.split ⟨passed, γ.glued :: ahead, errors⟩ 1 =
      ⟨passed, γ.dot :: γ.tail :: ahead, errors.openGap passed.length⟩ :=
  split_dot γ.value γ.nonempty passed ahead errors

/-! ## What stands in front of the symbol -/

/-- Passing such a token does not lead from the backslash to its parameters. -/
structure Passes (before : Nat) (kind : TokenKind) (after : Nat) : Prop where
  crosses : Crosses before kind after
  not_lambda : kind = .mark .backslash → γ.loose = true

/-- With so many brackets open, no statement gets as far as the symbol but through the lambda. -/
inductive Guards (depth : Nat) : List Token → Prop where
  | loose {front : List Token} (h : γ.loose = true) : Guards depth front
  | lambda (front : List Token) : Guards depth (front ++ γ.backslash :: γ.parameters)
  | bracket {front : List Token} (hclosed : depth < unopened (front.map Token.kind))
    (hsealed : Sealed (front.map Token.kind)) (hspelled : ∀ token ∈ front, token.IsSpelled) :
    Guards depth front

namespace Guards

variable {γ} {depth depth' : Nat} {token : Token} {front : List Token}

theorem lower (h : γ.Guards depth front) (hle : depth' ≤ depth) : γ.Guards depth' front := by
  cases h with
  | loose h => exact .loose h
  | lambda front => exact .lambda front
  | bracket hclosed hsealed hspelled =>
    exact .bracket (Nat.lt_of_le_of_lt hle hclosed) hsealed hspelled

theorem tail_cases (h : γ.Guards depth (token :: front))
    (hcrosses : Crosses depth token.kind depth') :
    γ.Guards depth' front ∨ token = γ.backslash ∧ front = γ.parameters := by
  generalize hall : token :: front = all at h
  cases h with
  | loose h => exact .inl (.loose h)
  | lambda others =>
    cases others with
    | nil => exact .inr (List.cons.inj hall)
    | cons first others =>
      obtain ⟨-, rfl⟩ := List.cons.inj hall
      exact .inl (.lambda others)
  | bracket hclosed hsealed hspelled =>
    subst hall
    exact .inl (.bracket (hcrosses.lt_unopened hclosed) hsealed.2.2
      (List.forall_mem_cons.mp hspelled).2)

theorem tail (h : γ.Guards depth (token :: front)) (hpasses : γ.Passes depth token.kind depth') :
    γ.Guards depth' front := by
  rcases h.tail_cases hpasses.crosses with htail | ⟨rfl, -⟩
  · exact htail
  · exact .loose (hpasses.not_lambda γ.isLambda)

theorem parts (h : γ.Guards depth (token :: front)) (hkind : token.kind = .operatorSymbol)
    {bytes : Nat} {head back : List Char}
    (hcut : cutText? bytes token.value.toList = some (head, back)) :
    γ.Guards depth (frontToken token bytes head :: backToken token bytes back :: front) := by
  generalize hall : token :: front = all at h
  cases h with
  | loose h => exact .loose h
  | lambda others =>
    cases others with
    | nil =>
      obtain ⟨rfl, -⟩ := List.cons.inj hall
      have hlambda := γ.isLambda
      rw [hkind] at hlambda
      cases hlambda
    | cons first others =>
      obtain ⟨-, rfl⟩ := List.cons.inj hall
      exact .lambda (_ :: _ :: others)
  | bracket hclosed hsealed hspelled =>
    subst hall
    obtain ⟨htoken, hfront⟩ := List.forall_mem_cons.mp hspelled
    have hplain : token.kind.isPlain := by
      rw [hkind]
      rfl
    have hhead := htoken.isPlain_front hkind hcut
    have hback := htoken.isPlain_back hkind hcut
    rw [List.map_cons] at hclosed hsealed
    rw [unopened_of_isPlain hplain] at hclosed
    rw [sealed_cons_of_isPlain hplain] at hsealed
    refine .bracket ?_ ?_ (List.forall_mem_cons.mpr ⟨htoken.front hkind hcut,
      List.forall_mem_cons.mpr ⟨htoken.back hkind hcut, hfront⟩⟩)
    · rwa [List.map_cons, List.map_cons, unopened_of_isPlain hhead, unopened_of_isPlain hback]
    · rwa [List.map_cons, List.map_cons, sealed_cons_of_isPlain hhead,
        sealed_cons_of_isPlain hback]

variable (htight : γ.loose = false)

include htight

theorem ne_nil (h : γ.Guards depth front) : front ≠ [] := by
  cases h with
  | loose h => simp [htight] at h
  | lambda front => simp
  | bracket hclosed =>
    rintro rfl
    exact absurd hclosed (Nat.not_lt_zero _)

private theorem behind {mark : Token} {others : List Token}
    (h : γ.Guards depth (front ++ mark :: others)) (hkind : mark.kind ≠ .mark .backslash) :
    (∃ older, others = older ++ γ.backslash :: γ.parameters) ∨
      ∃ more, Sealed ((more ++ mark :: others).map Token.kind) ∧
        ∀ token ∈ more ++ mark :: others, token.IsSpelled := by
  have hlambda {rest : List Token} (heq : mark :: others = γ.backslash :: rest) : False := by
    rw [(List.cons.inj heq).1] at hkind
    exact hkind γ.isLambda
  generalize hall : front ++ mark :: others = all at h
  cases h with
  | loose h => simp [htight] at h
  | lambda older =>
    rcases List.append_eq_append_iff.mp hall with ⟨more, hfront, hothers⟩ | ⟨more, rfl, hmore⟩
    · cases more with
      | nil => exact (hlambda hothers).elim
      | cons first more => exact .inl ⟨more, (List.cons.inj hothers).2⟩
    · cases more with
      | nil => exact (hlambda hmore.symm).elim
      | cons first more =>
        have hparameters : γ.parameters = more ++ mark :: others := (List.cons.inj hmore).2
        exact .inr ⟨more, hparameters ▸ γ.isSealed, hparameters ▸ γ.spelled⟩
  | bracket _ hsealed hspelled =>
    subst hall
    exact .inr ⟨front, hsealed, hspelled⟩

theorem behind_semicolon {semicolon : Token} {others : List Token}
    (h : γ.Guards depth (front ++ semicolon :: others))
    (hkind : semicolon.kind = .mark .semicolon) : γ.Guards 0 others := by
  rcases h.behind htight (by rw [hkind]; nofun) with ⟨older, rfl⟩ | ⟨more, hsealed, hspelled⟩
  · exact .lambda older
  · rw [List.map_append, List.map_cons, hkind] at hsealed
    obtain ⟨hclosed, hbehind⟩ := hsealed.behind_semicolon
    exact .bracket hclosed hbehind fun token hmem => hspelled token (by simp [hmem])

theorem at_end {last : Token} {others : List Token} (h : γ.Guards depth (front ++ last :: others))
    (hkind : last.kind = .endOfInput) : γ.Guards 0 (last :: others) := by
  rcases h.behind htight (by rw [hkind]; nofun) with ⟨older, rfl⟩ | ⟨more, hsealed, -⟩
  · exact .lambda (last :: older)
  · exact absurd hkind (hsealed.ne_endOfInput _ (List.mem_map_of_mem (by simp)))

end Guards

/-! ## Pairs of cursors -/

/-- The cursors of two runs. -/
inductive Beside (bound depth : Nat) : Cursor → Cursor → Prop where
  | same (cursor : Cursor) : Beside bound depth cursor cursor
  /-- The symbol is ahead. -/
  | ahead {passed front : List Token} {errors : DiagnosticMap} (hguards : γ.Guards depth front)
    (hweight : totalWeight (front ++ γ.glued :: γ.rest) ≤ bound) :
    Beside bound depth ⟨passed, front ++ γ.glued :: γ.rest, errors⟩
      ⟨passed, front ++ γ.dot :: γ.tail :: γ.rest, errors.openGap (passed.length + front.length)⟩
  /-- The symbol has been skipped. -/
  | behind {newer older ahead : List Token} {errors : DiagnosticMap}
    (hended : IsEnded ⟨newer ++ γ.glued :: older, ahead, errors⟩)
    (hweight : totalWeight ahead ≤ totalWeight γ.rest) :
    Beside bound depth ⟨newer ++ γ.glued :: older, ahead, errors⟩
      ⟨newer ++ γ.tail :: γ.dot :: older, ahead, errors.openGap older.length⟩
  /-- The same tokens are ahead. -/
  | abreast {cursor cursor' : Cursor} (hdetached : γ.detached = true) (hended : cursor.IsEnded)
    (hahead : cursor'.ahead = cursor.ahead) (hstop : cursor'.previousEnd = cursor.previousEnd) :
    Beside bound depth cursor cursor'

namespace Beside

variable {γ} {bound bound' depth depth' : Nat} {cursor cursor' : Cursor}

theorem mono (h : γ.Beside bound depth cursor cursor') (hbound : bound ≤ bound')
    (hdepth : depth' ≤ depth) : γ.Beside bound' depth' cursor cursor' := by
  cases h with
  | same => exact .same _
  | ahead hguards hweight => exact .ahead (hguards.lower hdepth) (Nat.le_trans hweight hbound)
  | behind hended hweight => exact .behind hended hweight
  | abreast hdetached hended hahead hstop => exact .abreast hdetached hended hahead hstop

theorem previousEnd_eq (h : γ.Beside bound depth cursor cursor') :
    cursor'.previousEnd = cursor.previousEnd := by
  cases h with
  | same => rfl
  | ahead => rfl
  | @behind newer => cases newer <;> rfl
  | abreast _ _ _ hstop => exact hstop

/-- Both cursors see the same, unless they stand in front of the symbol. -/
theorem current_cases (h : γ.Beside bound depth cursor cursor') :
    cursor'.current = cursor.current ∨ γ.loose = true ∧ totalWeight (γ.glued :: γ.rest) ≤ bound ∧
      ∃ passed errors, cursor = ⟨passed, γ.glued :: γ.rest, errors⟩ ∧
        cursor' = ⟨passed, γ.dot :: γ.tail :: γ.rest, errors.openGap passed.length⟩ := by
  cases h with
  | same => exact .inl rfl
  | @ahead passed front errors hguards hweight =>
    cases front with
    | nil =>
      cases hloose : γ.loose with
      | true => exact .inr ⟨rfl, hweight, passed, errors, rfl, rfl⟩
      | false => exact absurd rfl (hguards.ne_nil hloose)
    | cons token front => exact .inl rfl
  | behind hended =>
    obtain ⟨token, rest, rfl⟩ := hended.ahead_eq_cons
    exact .inl rfl
  | abreast _ hended hahead =>
    obtain ⟨passed, token, rest, errors, rfl⟩ := hended.exists_cons
    obtain ⟨passed', ahead', errors'⟩ := cursor'
    cases hahead
    exact .inl rfl

theorem current_eq (htight : γ.loose = false) (h : γ.Beside bound depth cursor cursor') :
    cursor'.current = cursor.current := by
  rcases h.current_cases with heq | ⟨hloose, -⟩
  · exact heq
  · simp [htight] at hloose

/-! ### Moving -/

theorem advance (h : γ.Beside bound depth cursor cursor')
    (hcurrent : cursor'.current = cursor.current)
    (hcrosses : Crosses depth cursor.current.kind depth')
    (hlambda : γ.loose = true ∨
      cursor.ahead ≠ γ.backslash :: (γ.parameters ++ γ.glued :: γ.rest)) :
    γ.Beside (bound - 1) depth' cursor.advance cursor'.advance := by
  have hend := hcrosses.ne_endOfInput
  cases h with
  | same => exact .same _
  | @ahead passed front errors hguards hweight =>
    cases front with
    | nil => exact absurd (congrArg Token.kind hcurrent) γ.dot_kind_ne_glued
    | cons token front =>
      replace hend : token.kind ≠ .endOfInput := hend
      have hpos := Coupling.tokenWeight_pos token
      rw [List.cons_append, totalWeight] at hweight
      have hlength : passed.length + (token :: front).length =
          (token :: passed).length + front.length := by
        simp only [List.length_cons]
        omega
      rw [List.cons_append, List.cons_append, (Takes.intro _ _ hend).advance_eq,
        (Takes.intro _ _ hend).advance_eq, hlength]
      refine .ahead ?_ (by omega)
      rcases hguards.tail_cases hcrosses with htail | ⟨rfl, rfl⟩
      · exact htail
      · exact .loose (hlambda.resolve_right fun hne => hne rfl)
  | @behind newer older ahead errors hended hweight =>
    obtain ⟨token, rest, rfl⟩ := hended.ahead_eq_cons
    replace hend : token.kind ≠ .endOfInput := hend
    rw [(Takes.intro _ _ hend).advance_eq, (Takes.intro _ _ hend).advance_eq]
    rw [totalWeight] at hweight
    exact @Beside.behind γ _ _ (token :: newer) older rest errors
      ((Takes.intro _ rest hend).isEnded hended) (by omega)
  | abreast hdetached hended hahead =>
    obtain ⟨passed, token, rest, errors, rfl⟩ := hended.exists_cons
    obtain ⟨passed', ahead', errors'⟩ := cursor'
    cases hahead
    replace hend : token.kind ≠ .endOfInput := hend
    rw [(Takes.intro _ _ hend).advance_eq, (Takes.intro _ _ hend).advance_eq]
    exact .abreast hdetached ((Takes.intro passed rest hend).isEnded hended) rfl rfl

theorem split (h : γ.Beside bound depth cursor cursor')
    (hcurrent : cursor'.current = cursor.current) (hdot : Equational.beginsWithDot cursor.current) :
    γ.Beside bound depth (cursor.split 1) (cursor'.split 1) := by
  have hkind := (kind_of_beginsWithDot hdot).1
  cases h with
  | same => exact .same _
  | @ahead passed front errors hguards hweight =>
    cases front with
    | nil => exact absurd (congrArg Token.kind hcurrent) γ.dot_kind_ne_glued
    | cons token front =>
      rw [List.cons_append, List.cons_append]
      cases hcut : cutText? 1 token.value.toList with
      | none =>
        rw [split_of_not_cut hcut, split_of_not_cut hcut]
        exact .ahead hguards hweight
      | some parts =>
        obtain ⟨head, back⟩ := parts
        have hparts := tokenWeight_parts hcut
        rw [split_of_cut hcut, split_of_cut hcut,
          DiagnosticMap.openGap_comm _ (by rw [List.length_cons]; omega)]
        refine @Beside.ahead γ _ _ passed (_ :: _ :: front) _ (hguards.parts hkind hcut) ?_
        simp only [List.cons_append, totalWeight] at hweight ⊢
        omega
  | @behind newer older ahead errors hended hweight =>
    obtain ⟨token, rest, rfl⟩ := hended.ahead_eq_cons
    cases hcut : cutText? 1 token.value.toList with
    | none =>
      rw [split_of_not_cut hcut, split_of_not_cut hcut]
      exact .behind hended hweight
    | some parts =>
      obtain ⟨head, back⟩ := parts
      have hrest := hended.split (by simp [hkind]) 1
      have hparts := tokenWeight_parts hcut
      have hlength : (newer ++ γ.tail :: γ.dot :: older).length =
          (newer ++ γ.glued :: older).length + 1 := by
        simp only [List.length_append, List.length_cons]
        omega
      rw [split_of_cut hcut] at hrest
      rw [split_of_cut hcut, split_of_cut hcut, hlength,
        ← DiagnosticMap.openGap_comm _ (by simp only [List.length_append, List.length_cons]; omega)]
      refine .behind hrest ?_
      simp only [totalWeight] at hweight ⊢
      omega
  | abreast hdetached hended hahead hstop =>
    obtain ⟨passed, token, rest, errors, rfl⟩ := hended.exists_cons
    obtain ⟨passed', ahead', errors'⟩ := cursor'
    cases hahead
    have hsplit := hended.split (by simp [hkind]) 1
    cases hcut : cutText? 1 token.value.toList with
    | none =>
      rw [split_of_not_cut hcut, split_of_not_cut hcut]
      exact .abreast hdetached hended rfl hstop
    | some parts =>
      obtain ⟨head, back⟩ := parts
      rw [split_of_cut hcut] at hsplit
      rw [split_of_cut hcut, split_of_cut hcut]
      exact .abreast hdetached hsplit rfl hstop

theorem unexpected (htight : γ.loose = false) (h : γ.Beside bound depth cursor cursor')
    (expected : String) :
    (cursor'.unexpected expected).1 = (cursor.unexpected expected).1 ∧
      γ.Beside bound depth (cursor.unexpected expected).2 (cursor'.unexpected expected).2 := by
  have hcurrent := h.current_eq htight
  cases h with
  | same => exact ⟨rfl, .same _⟩
  | @ahead passed front errors hguards hweight =>
    have hpos := List.length_pos_of_ne_nil (hguards.ne_nil htight)
    obtain ⟨diagnostic, errors', hfirst, hsecond⟩ :=
      unexpected_openGap (by rw [DiagnosticMap.keyBehind, if_neg (by omega)]) hcurrent expected
    rw [hfirst, hsecond]
    exact ⟨rfl, .ahead hguards hweight⟩
  | @behind newer older ahead errors hended hweight =>
    have hlength : (newer ++ γ.tail :: γ.dot :: older).length =
        DiagnosticMap.keyBehind older.length (newer ++ γ.glued :: older).length := by
      simp only [DiagnosticMap.keyBehind, List.length_append, List.length_cons]
      rw [if_pos (by omega)]
      omega
    obtain ⟨diagnostic, errors', hfirst, hsecond⟩ := unexpected_openGap hlength hcurrent expected
    rw [hfirst, hsecond]
    exact ⟨rfl, .behind hended hweight⟩
  | abreast hdetached => exact absurd (γ.isLoose hdetached) (by simp [htight])

/-! ### Looking behind the current token -/

theorem peek_cases (h : γ.Beside bound depth cursor cursor')
    (hcurrent : cursor'.current = cursor.current)
    (hpasses : γ.Passes depth cursor.current.kind depth') :
    cursor'.peek 1 = cursor.peek 1 ∨
      γ.loose = true ∧ cursor.peek 1 = γ.glued ∧ cursor'.peek 1 = γ.dot := by
  have hend := hpasses.crosses.ne_endOfInput
  cases h with
  | same => exact .inl rfl
  | @ahead passed front errors hguards hweight =>
    cases front with
    | nil => exact absurd (congrArg Token.kind hcurrent) γ.dot_kind_ne_glued
    | cons token front =>
      cases front with
      | nil =>
        cases hloose : γ.loose with
        | true => exact .inr ⟨rfl, rfl, rfl⟩
        | false => exact absurd rfl ((hguards.tail hpasses).ne_nil hloose)
      | cons next front => exact .inl rfl
  | @behind newer older ahead errors hended =>
    obtain ⟨token, rest, rfl⟩ := hended.ahead_eq_cons
    obtain ⟨next, rest, rfl⟩ := ((Takes.intro _ rest hend).isEnded hended).ahead_eq_cons
    exact .inl rfl
  | abreast _ hended hahead =>
    obtain ⟨passed, token, rest, errors, rfl⟩ := hended.exists_cons
    obtain ⟨passed', ahead', errors'⟩ := cursor'
    cases hahead
    obtain ⟨next, rest, rfl⟩ := ((Takes.intro _ rest hend).isEnded hended).ahead_eq_cons
    exact .inl rfl

/-! ### Skipping -/

private theorem skips_symbols {front symbols skipped others : List Token}
    (hfront : ∀ token ∈ front, token.kind ≠ .endOfInput ∧ token.kind ≠ .mark .semicolon)
    (hsymbols : ∀ token ∈ symbols, token.kind.isPlain)
    (hskips : Skips (skipped.map Token.kind) (others.map Token.kind)) :
    Skips ((front ++ (symbols ++ skipped)).map Token.kind) (others.map Token.kind) := by
  rw [List.map_append, List.map_append]
  refine (hskips.widen fun kind hkind => ?_).widen fun kind hkind => ?_
  · obtain ⟨token, hmem, rfl⟩ := List.mem_map.mp hkind
    have htoken := hsymbols token hmem
    constructor <;> rintro heq <;> rw [heq] at htoken <;> cases htoken
  · obtain ⟨token, hmem, rfl⟩ := List.mem_map.mp hkind
    exact hfront token hmem

theorem skipStatement (htight : γ.loose = false) (h : γ.Beside bound depth cursor cursor') :
    γ.Beside bound 0 cursor.skipStatement cursor'.skipStatement := by
  cases h with
  | same => exact .same _
  | @ahead passed front errors hguards hweight =>
    rcases exists_stop Token.kind front with hpass | ⟨skipped, others, rfl, hskips, hstops⟩
    · -- The symbol is skipped, up to where both skip.
      obtain ⟨skipped, others, hrest, hskips⟩ := exists_skips Token.kind γ.rest
      have hglued := skips_symbols hpass (List.forall_mem_singleton.mpr γ.glued_isPlain) hskips
      have hparts := skips_symbols hpass (List.forall_mem_cons.mpr
        ⟨γ.dot_isPlain, List.forall_mem_singleton.mpr γ.tail_isPlain⟩) hskips
      have hfirst := skipStatement_eq hglued passed errors
      have hsecond := skipStatement_eq hparts passed
        (errors.openGap (passed.length + front.length))
      have hlength : passed.length + front.length = (front.reverse ++ passed).length := by
        simp [Nat.add_comm]
      have hended : Cursor.IsEnded (Cursor.skipStatement
          ⟨passed, front ++ γ.glued :: γ.rest, errors⟩) := by
        obtain ⟨older, last, hends, hlast⟩ := γ.ended
        exact skipStatement_induction (fun htakes h => htakes.isEnded h)
          ⟨front ++ γ.glued :: older, last, by simp [hends], hlast⟩
      simp only [List.append_assoc, List.cons_append, List.nil_append, ← hrest,
        List.reverse_append, List.reverse_cons] at hfirst hsecond
      rw [hfirst] at hended
      rw [hfirst, hsecond, hlength]
      refine .behind hended ?_
      rw [hrest, totalWeight_append]
      exact Nat.le_add_left _ _
    · have hskip (behind : List Token) (errors : DiagnosticMap) :
          Cursor.skipStatement ⟨passed, skipped ++ others ++ behind, errors⟩ =
            ⟨skipped.reverse ++ passed, others ++ behind, errors⟩ := by
        have hbehind := hskips (behind.map Token.kind)
        rw [← List.map_append] at hbehind
        rw [List.append_assoc, skipStatement_eq hbehind]
      have hlength : passed.length + (skipped ++ others).length =
          (skipped.reverse ++ passed).length + others.length := by
        simp only [List.length_append, List.length_reverse]
        omega
      rw [hskip, hskip, hlength]
      refine .ahead ?_ ?_
      · rcases hstops with ⟨older, last, rfl, hlast⟩ | ⟨last, more, rfl, hlast⟩
        · exact Guards.behind_semicolon htight (by simpa using hguards) hlast
        · exact hguards.at_end htight hlast
      · rw [List.append_assoc, totalWeight_append] at hweight
        omega
  | @behind newer older ahead errors hended hweight =>
    obtain ⟨skipped, others, rfl, hskips⟩ := exists_skips Token.kind ahead
    have hskipped := skipStatement_induction (motive := IsEnded)
      (fun htakes h => htakes.isEnded h) hended
    rw [skipStatement_eq hskips, ← List.append_assoc] at hskipped
    rw [skipStatement_eq hskips, skipStatement_eq hskips, ← List.append_assoc, ← List.append_assoc]
    rw [totalWeight_append] at hweight
    exact .behind hskipped (by omega)
  | abreast hdetached => exact absurd (γ.isLoose hdetached) (by simp [htight])

end Beside

end Gluing

end Equational

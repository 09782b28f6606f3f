import Equational.Proofs.Parse.Splitting

/-!
# Sealed tokens

Between the backslash of a lambda and the dot behind its parameters a semicolon stands only inside
brackets.  A statement that is begun behind it does not get as far as the dot: it would have to pass
a closing bracket that it has not opened.
-/

namespace Equational

open Cursor Token

/-! ## Brackets that are not opened -/

/-- How many brackets are closed that are not opened in front of that. -/
def unopened : List TokenKind → Nat
  | [] => 0
  | .mark .openParen :: rest | .mark .openBracket :: rest | .mark .openCurly :: rest =>
    unopened rest - 1
  | .mark .closeParen :: rest | .mark .closeBracket :: rest | .mark .closeCurly :: rest =>
    unopened rest + 1
  | _ :: rest => unopened rest

theorem unopened_of_isPlain {kind : TokenKind} (h : kind.isPlain) (rest : List TokenKind) :
    unopened (kind :: rest) = unopened rest := by
  cases kind with
  | mark mark => cases mark <;> first | rfl | cases h
  | _ => rfl

inductive Crosses : Nat → TokenKind → Nat → Prop where
  | plain {depth : Nat} {kind : TokenKind} (h : kind.isPlain) : Crosses depth kind depth
  | semicolon {depth : Nat} : Crosses depth (.mark .semicolon) depth
  | opening {depth : Nat} {kind : TokenKind}
    (h : kind = .mark .openParen ∨ kind = .mark .openBracket ∨ kind = .mark .openCurly) :
    Crosses depth kind (depth + 1)
  | closing {depth : Nat} (bracket : Bracket) : Crosses (depth + 1) (.mark bracket.closing) depth

namespace Crosses

variable {depth depth' : Nat} {kind : TokenKind} {rest : List TokenKind}

theorem ne_endOfInput (h : Crosses depth kind depth') : kind ≠ .endOfInput := by
  cases h with
  | plain h =>
    rintro rfl
    cases h
  | semicolon => nofun
  | opening h => rcases h with rfl | rfl | rfl <;> nofun
  | closing bracket => cases bracket <;> nofun

theorem lt_unopened (h : Crosses depth kind depth') (hlt : depth < unopened (kind :: rest)) :
    depth' < unopened rest := by
  cases h with
  | plain h => rwa [unopened_of_isPlain h] at hlt
  | semicolon => exact hlt
  | opening h =>
    have hopened : unopened (kind :: rest) = unopened rest - 1 := by
      rcases h with rfl | rfl | rfl <;> rfl
    omega
  | closing bracket =>
    have hclosed : unopened (.mark bracket.closing :: rest) = unopened rest + 1 := by
      cases bracket <;> rfl
    omega

end Crosses

/-! ## Semicolons between brackets -/

/-- The input does not end here, and some bracket is still to be closed behind each semicolon. -/
def Sealed : List TokenKind → Prop
  | [] => True
  | kind :: rest =>
    kind ≠ .endOfInput ∧ (kind = .mark .semicolon → 0 < unopened rest) ∧ Sealed rest

namespace Sealed

variable {kind : TokenKind} {front rest : List TokenKind}

theorem suffix (h : Sealed (front ++ rest)) : Sealed rest := by
  induction front with
  | nil => exact h
  | cons kind front ih => exact ih h.2.2

theorem behind_semicolon (h : Sealed (front ++ .mark .semicolon :: rest)) :
    0 < unopened rest ∧ Sealed rest := by
  have hsuffix := h.suffix
  exact ⟨hsuffix.2.1 rfl, hsuffix.2.2⟩

theorem ne_endOfInput (h : Sealed front) : ∀ kind ∈ front, kind ≠ .endOfInput := by
  induction front with
  | nil => nofun
  | cons kind front ih => exact List.forall_mem_cons.mpr ⟨h.1, ih h.2.2⟩

end Sealed

theorem sealed_cons_of_isPlain {kind : TokenKind} (h : kind.isPlain) {rest : List TokenKind} :
    Sealed (kind :: rest) ↔ Sealed rest := by
  refine ⟨fun hsealed => hsealed.2.2, fun hsealed => ⟨?_, ?_, hsealed⟩⟩
  · rintro rfl
    cases h
  · rintro rfl
    cases h

/-! ## Plain tokens left out -/

def landmarks (kinds : List TokenKind) : List TokenKind := kinds.filter (!·.isPlain)

theorem landmarks_cons_of_isPlain {kind : TokenKind} (h : kind.isPlain) (rest : List TokenKind) :
    landmarks (kind :: rest) = landmarks rest :=
  List.filter_cons_of_neg (by simp [h])

theorem landmarks_cons_of_not_isPlain {kind : TokenKind} (h : ¬kind.isPlain)
    (rest : List TokenKind) : landmarks (kind :: rest) = kind :: landmarks rest :=
  List.filter_cons_of_pos (by simp [h])

private theorem unopened_landmarks (kinds : List TokenKind) :
    unopened (landmarks kinds) = unopened kinds := by
  induction kinds with
  | nil => rfl
  | cons kind rest ih =>
    by_cases hplain : kind.isPlain
    · rw [landmarks_cons_of_isPlain hplain, unopened_of_isPlain hplain, ih]
    · rw [landmarks_cons_of_not_isPlain hplain]
      unfold unopened
      split <;> simp_all

theorem sealed_landmarks (kinds : List TokenKind) : Sealed (landmarks kinds) ↔ Sealed kinds := by
  induction kinds with
  | nil => rfl
  | cons kind rest ih =>
    by_cases hplain : kind.isPlain
    · rw [landmarks_cons_of_isPlain hplain, sealed_cons_of_isPlain hplain, ih]
    · rw [landmarks_cons_of_not_isPlain hplain, Sealed, Sealed, unopened_landmarks, ih]

/-! ## Parts of operators -/

/-- An operator symbol is spelled by operator characters. -/
def Token.IsSpelled (token : Token) : Prop :=
  token.kind = .operatorSymbol → ∀ c ∈ token.value.toList, isOperatorChar c

namespace Token.IsSpelled

variable {token : Token} {bytes : Nat} {head tail : List Char} (h : token.IsSpelled)
  (hkind : token.kind = .operatorSymbol)
  (hcut : cutText? bytes token.value.toList = some (head, tail))

include h hkind hcut

private theorem parts : (∀ c ∈ head, isOperatorChar c) ∧ ∀ c ∈ tail, isOperatorChar c := by
  have hvalue := h hkind
  rw [← append_of_cutText hcut] at hvalue
  exact List.forall_mem_append.mp hvalue

theorem isPlain_front : (frontToken token bytes head).kind.isPlain :=
  isPlain_ofOperatorText (h.parts hkind hcut).1

theorem isPlain_back : (backToken token bytes tail).kind.isPlain :=
  isPlain_ofOperatorText (h.parts hkind hcut).2

theorem front : (frontToken token bytes head).IsSpelled := fun _ => by
  simpa [frontToken, operatorPart] using (h.parts hkind hcut).1

theorem back : (backToken token bytes tail).IsSpelled := fun _ => by
  simpa [backToken, operatorPart] using (h.parts hkind hcut).2

end Token.IsSpelled

end Equational

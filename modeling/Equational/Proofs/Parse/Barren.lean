import Equational.Proofs.Parse.Moving

/-!
# Barren states

A state is barren if no semicolon is ahead of it and none can come from splitting a token.  Moves
keep it so: whatever a parsing step does from there, it cannot pass a semicolon.
-/

namespace Equational

open Cursor

/-! ## Barren tokens -/

/-- Neither a semicolon nor a token of which a part could be one. -/
def Token.IsBarren (token : Token) : Prop :=
  token.kind ≠ .mark .semicolon ∧ ';' ∉ token.value.toList

theorem parts_of_cutText {bytes : Nat} {text head tail : List Char}
    (h : cutText? bytes text = some (head, tail)) :
    head ++ tail = text ∧ byteLength head = bytes ∧ head ≠ [] ∧ tail ≠ [] := by
  induction text generalizing bytes head with
  | nil => cases bytes <;> cases h
  | cons c rest ih =>
    cases bytes with
    | zero => cases h
    | succ bytes =>
      simp only [cutText?] at h
      split at h
      · rename_i hsize
        split at h
        · cases h
        · rename_i hne
          cases h
          exact ⟨rfl, by simpa using hsize, List.cons_ne_nil _ _, by simpa using hne⟩
      · split at h
        · rename_i hsize
          obtain ⟨⟨front, back⟩, hcut, hparts⟩ := Option.map_eq_some_iff.mp h
          cases hparts
          obtain ⟨happend, hlength, -, hback⟩ := ih hcut
          refine ⟨by rw [List.cons_append, happend], ?_, List.cons_ne_nil _ _, hback⟩
          rw [byteLength_cons, hlength]
          omega
        · cases h

theorem append_of_cutText {bytes : Nat} {text head tail : List Char}
    (h : cutText? bytes text = some (head, tail)) : head ++ tail = text := (parts_of_cutText h).1

theorem isBarren_operatorPart {text : List Char} (h : ';' ∉ text) (span : Span) :
    (operatorPart text span).IsBarren := by
  refine ⟨?_, by simpa [operatorPart] using h⟩
  simp only [operatorPart, TokenKind.ofOperatorText]
  split
  · rename_i mark hmark
    intro hkind
    obtain rfl := TokenKind.mark.inj hkind
    have hspelling := List.find?_some hmark
    simp only [Punctuation.spelling, Punctuation.words, beq_iff_eq] at hspelling
    have htext : text = [';'] := (String.ofList_inj.mp hspelling).symm
    simp [htext] at h
  · nofun

/-! ## Barren states -/

namespace Cursor

/-- Without any tokens ahead the token passed last is the current one. -/
structure IsBarren (cursor : Cursor) : Prop where
  ahead : ∀ token ∈ cursor.ahead, token.IsBarren
  passed : cursor.ahead = [] → ∀ token ∈ cursor.passed.head?, token.kind ≠ .mark .semicolon

variable {cursor : Cursor}

theorem IsBarren.kind_ne (h : cursor.IsBarren) : cursor.current.kind ≠ .mark .semicolon := by
  obtain ⟨passed, ahead, errors⟩ := cursor
  cases ahead with
  | nil =>
    cases passed with
    | nil => nofun
    | cons token rest => exact h.passed rfl token rfl
  | cons token rest => exact (h.ahead token List.mem_cons_self).1

theorem IsBarren.advance (h : cursor.IsBarren) : cursor.advance.IsBarren := by
  obtain ⟨passed, ahead, errors⟩ := cursor
  cases ahead with
  | nil => exact h
  | cons token rest =>
    unfold Cursor.advance
    dsimp only
    split
    · exact h
    · obtain ⟨htoken, hrest⟩ := List.forall_mem_cons.mp h.ahead
      refine ⟨hrest, fun _ last hlast => ?_⟩
      obtain rfl := Option.some.inj hlast
      exact htoken.1

theorem IsBarren.split (h : cursor.IsBarren) (bytes : Nat) : (cursor.split bytes).IsBarren := by
  obtain ⟨passed, ahead, errors⟩ := cursor
  cases ahead with
  | nil => exact h
  | cons token rest =>
    unfold Cursor.split
    dsimp only
    split
    · rename_i head tail hcut
      obtain ⟨htoken, hrest⟩ := List.forall_mem_cons.mp h.ahead
      have hvalue := htoken.2
      rw [← append_of_cutText hcut, List.mem_append, not_or] at hvalue
      refine ⟨List.forall_mem_cons.mpr ⟨isBarren_operatorPart hvalue.1 _, ?_⟩, nofun⟩
      exact List.forall_mem_cons.mpr ⟨isBarren_operatorPart hvalue.2 _, hrest⟩
    · exact h

theorem IsBarren.unexpected (h : cursor.IsBarren) (expected : String) :
    (cursor.unexpected expected).2.IsBarren := by
  obtain ⟨errors, hresult⟩ := cursor.exists_errors_of_unexpected expected
  rw [hresult]
  exact ⟨h.ahead, h.passed⟩

end Cursor

def ParseState.IsBarren (state : ParseState) : Prop := state.cursor.IsBarren

variable {noise : Noise}

theorem Move.isBarren {state next : ParseState} (h : Move noise state next)
    (hbarren : state.IsBarren) : next.IsBarren := by
  cases h with
  | advance => exact Cursor.IsBarren.advance hbarren
  | split _ => exact Cursor.IsBarren.split hbarren 1
  | unexpected _ expected => exact Cursor.IsBarren.unexpected hbarren expected
  | exhaust _ => exact hbarren
  | report _ _ => exact hbarren

theorem Moves.isBarren {state next : ParseState} (h : Moves noise state next)
    (hbarren : state.IsBarren) : next.IsBarren := by
  induction h with
  | refl => exact hbarren
  | tail _ hmove ih => exact hmove.isBarren ih

namespace Parse

variable {α : Type}

theorem Moving.isBarren {step : Parse α} {state final : ParseState} {value : α}
    (h : Moving noise step) (hstep : step state = .ok value final) (hbarren : state.IsBarren) :
    final.IsBarren := by
  have hmoves := h state
  simp only [finalState, hstep] at hmoves
  exact hmoves.isBarren hbarren

end Parse

end Equational

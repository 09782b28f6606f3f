import Equational.Proofs.Run.Written

/-!
# Sound cursors

In the tokens of a text a cursor stands in front of the end of the input, all its tokens are proper,
and no more can be ahead than the limit of rounds allows for.  No move of the cursor changes that.
-/

namespace Equational

namespace Cursor

/-- What is the case of every cursor in the tokens of a text. -/
structure IsSound (cursor : Cursor) (limit : Nat) : Prop where
  isEnded : cursor.IsEnded
  isProper : cursor.IsProper
  weight_le : cursor.weight ≤ limit

namespace IsSound

variable {cursor after : Cursor} {limit : Nat}

theorem takes {token : Token} (h : cursor.IsSound limit) (htakes : cursor.Takes token after) :
    after.IsSound limit where
  isEnded := htakes.isEnded h.isEnded
  isProper := (htakes.isProper h.isProper).2
  weight_le := Nat.le_trans (Nat.le_of_lt htakes.weight_lt) h.weight_le

theorem advance_cases (h : cursor.IsSound limit) :
    cursor.advance = cursor ∨ cursor.Takes cursor.current cursor.advance := by
  by_cases hend : cursor.current.kind = .endOfInput
  · obtain ⟨passed, token, rest, errors, rfl⟩ := h.isEnded.exists_cons
    exact .inl (if_pos hend)
  · exact .inr (h.isEnded.takes hend)

theorem advance (h : cursor.IsSound limit) : cursor.advance.IsSound limit := by
  rcases h.advance_cases with hstay | htakes
  · rwa [hstay]
  · exact h.takes htakes

theorem split (h : cursor.IsSound limit) (hdot : beginsWithDot cursor.current) :
    (cursor.split 1).IsSound limit := by
  have hkind := (kind_of_beginsWithDot hdot).1
  refine ⟨h.isEnded.split (by rw [hkind]; nofun) 1, h.isProper.split hkind 1, ?_⟩
  exact Nat.le_trans (weight_split_le cursor 1) h.weight_le

theorem unexpected (h : cursor.IsSound limit) (expected : String) :
    (cursor.unexpected expected).2.IsSound limit := by
  obtain ⟨errors, hresult⟩ := cursor.exists_errors_of_unexpected expected
  rw [hresult]
  exact ⟨h.isEnded, h.isProper, h.weight_le⟩

theorem skipStatement (h : cursor.IsSound limit) : cursor.skipStatement.IsSound limit :=
  skipStatement_induction (motive := (·.IsSound limit)) (fun htakes h => h.takes htakes) h

end IsSound

end Cursor

end Equational

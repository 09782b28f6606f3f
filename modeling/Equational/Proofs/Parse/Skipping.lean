import Equational.Proofs.Slot

/-!
# Skipping a statement

What is skipped reaches up to the next semicolon, or to the end of the input.  Only the kinds of the
tokens matter, so that tokens with the same kinds are skipped alike, whatever stands around them.
-/

namespace Equational

/-! ## Weights -/

theorem Cursor.totalWeight_append (first second : List Token) :
    totalWeight (first ++ second) = totalWeight first + totalWeight second := by
  induction first with
  | nil => exact (Nat.zero_add _).symm
  | cons token rest ih =>
    rw [List.cons_append, totalWeight, totalWeight, ih, Nat.add_assoc]

/-! ## What is skipped -/

/-- Tokens of these kinds are skipped, and then those of the other kinds are ahead. -/
inductive Skips : List TokenKind → List TokenKind → Prop where
  | ended {rest : List TokenKind} (h : ∀ kind ∈ rest.head?, kind = .endOfInput) : Skips [] rest
  | semicolon (rest : List TokenKind) : Skips [.mark .semicolon] rest
  | pass {kind : TokenKind} {skipped rest : List TokenKind} (hend : kind ≠ .endOfInput)
      (hsemicolon : kind ≠ .mark .semicolon) (h : Skips skipped rest) :
    Skips (kind :: skipped) rest

theorem exists_skips {α : Type} (kind : α → TokenKind) (ahead : List α) :
    ∃ skipped rest, ahead = skipped ++ rest ∧ Skips (skipped.map kind) (rest.map kind) := by
  induction ahead with
  | nil => exact ⟨[], [], rfl, .ended nofun⟩
  | cons first rest ih =>
    by_cases hend : kind first = .endOfInput
    · refine ⟨[], first :: rest, rfl, .ended fun found hfound => ?_⟩
      rwa [← Option.some.inj hfound]
    by_cases hsemicolon : kind first = .mark .semicolon
    · exact ⟨[first], rest, rfl, by simpa [hsemicolon] using .semicolon _⟩
    · obtain ⟨skipped, others, rfl, h⟩ := ih
      exact ⟨first :: skipped, others, rfl, .pass hend hsemicolon h⟩

namespace Skips

variable {skipped rest : List TokenKind}

theorem inside (h : Skips skipped rest) : ∀ kind ∈ skipped, kind ≠ .endOfInput := by
  induction h with
  | ended => nofun
  | semicolon => exact List.forall_mem_singleton.mpr nofun
  | pass hend _ _ ih => exact List.forall_mem_cons.mpr ⟨hend, ih⟩

theorem stopped (h : Skips skipped rest) :
    skipped.getLast? = some (.mark .semicolon) ∨ ∀ kind ∈ rest.head?, kind = .endOfInput := by
  induction h with
  | ended h => exact .inr h
  | semicolon => exact .inl rfl
  | pass _ _ _ ih =>
    refine ih.imp_left fun hlast => ?_
    rw [List.getLast?_cons, hlast]
    rfl

section Kinds

variable {α : Type} {kind : α → TokenKind} {skipped rest : List α}
  (h : Skips (skipped.map kind) (rest.map kind))

include h

theorem eq_concat_or_head :
    (∃ front last, skipped = front ++ [last] ∧ kind last = .mark .semicolon) ∨
      ∀ first ∈ rest.head?, kind first = .endOfInput := by
  rcases h.stopped with hlast | hhead
  · rw [List.getLast?_map] at hlast
    obtain ⟨last, hlast, hkind⟩ := Option.map_eq_some_iff.mp hlast
    obtain ⟨front, rfl⟩ := List.getLast?_eq_some_iff.mp hlast
    exact .inl ⟨front, last, rfl, hkind⟩
  · refine .inr fun first hfirst => hhead _ ?_
    rw [List.head?_map, hfirst]
    rfl

theorem ne_nil_or_head : skipped ≠ [] ∨ ∀ first ∈ rest.head?, kind first = .endOfInput := by
  rcases h.eq_concat_or_head with ⟨front, last, rfl, -⟩ | hhead
  · exact .inl (List.concat_ne_nil last front)
  · exact .inr hhead

end Kinds

theorem widen (h : Skips skipped rest) {kinds : List TokenKind}
    (hpass : ∀ kind ∈ kinds, kind ≠ .endOfInput ∧ kind ≠ .mark .semicolon) :
    Skips (kinds ++ skipped) rest := by
  induction kinds with
  | nil => exact h
  | cons kind kinds ih =>
    obtain ⟨⟨hend, hsemicolon⟩, hpass⟩ := List.forall_mem_cons.mp hpass
    exact .pass hend hsemicolon (ih hpass)

theorem append (h : Skips skipped rest)
    (hstops : skipped.getLast? = some (.mark .semicolon) ∨ rest ≠ []) (behind : List TokenKind) :
    Skips skipped (rest ++ behind) := by
  induction h with
  | @ended rest h =>
    obtain ⟨first, others, rfl⟩ := List.exists_cons_of_ne_nil (hstops.resolve_left nofun)
    exact .ended h
  | semicolon => exact .semicolon _
  | @pass kind skipped rest hend hsemicolon _ ih =>
    refine .pass hend hsemicolon (ih (hstops.imp_left fun hlast => ?_))
    cases skipped with
    | nil => exact absurd (Option.some.inj hlast) hsemicolon
    | cons first others => rwa [List.getLast?_cons_cons] at hlast

end Skips

theorem exists_stop {α : Type} (kind : α → TokenKind) (front : List α) :
    (∀ token ∈ front, kind token ≠ .endOfInput ∧ kind token ≠ .mark .semicolon) ∨
      ∃ skipped others, front = skipped ++ others ∧
        (∀ behind, Skips (skipped.map kind) (others.map kind ++ behind)) ∧
        ((∃ older last, skipped = older ++ [last] ∧ kind last = .mark .semicolon) ∨
          ∃ last more, others = last :: more ∧ kind last = .endOfInput) := by
  induction front with
  | nil => exact .inl nofun
  | cons first front ih =>
    by_cases hend : kind first = .endOfInput
    · refine .inr ⟨[], first :: front, rfl, fun behind => .ended ?_, .inr ⟨first, front, rfl, hend⟩⟩
      rintro _ ⟨⟩
      exact hend
    by_cases hsemicolon : kind first = .mark .semicolon
    · refine .inr ⟨[first], front, rfl, fun behind => ?_, .inl ⟨[], first, rfl, hsemicolon⟩⟩
      simpa [hsemicolon] using .semicolon _
    rcases ih with hpass | ⟨skipped, others, rfl, hskips, hstops⟩
    · exact .inl (List.forall_mem_cons.mpr ⟨⟨hend, hsemicolon⟩, hpass⟩)
    · refine .inr ⟨first :: skipped, others, rfl, fun behind => .pass hend hsemicolon
        (hskips behind), hstops.imp_left ?_⟩
      rintro ⟨older, last, rfl, hlast⟩
      exact ⟨first :: older, last, rfl, hlast⟩

theorem Cursor.skipStatement_eq {skipped rest : List Token}
    (h : Skips (skipped.map Token.kind) (rest.map Token.kind)) (passed : List Token)
    (errors : DiagnosticMap) :
    skipStatement ⟨passed, skipped ++ rest, errors⟩ =
      ⟨skipped.reverse ++ passed, rest, errors⟩ := by
  change skipStatement.go errors passed (skipped ++ rest) = _
  induction skipped generalizing passed with
  | nil =>
    cases rest with
    | nil => rfl
    | cons first others =>
      cases h with
      | ended h => exact if_pos (h _ rfl)
  | cons first skipped ih =>
    generalize hkinds : (first :: skipped).map Token.kind = kinds at h
    cases h with
    | ended => cases hkinds
    | semicolon =>
      obtain ⟨hkind, hskipped⟩ := List.cons.inj hkinds
      obtain rfl := List.map_eq_nil_iff.mp hskipped
      rw [List.cons_append, List.nil_append, skipStatement.go, if_neg (by simp [hkind]),
        if_pos hkind]
      rfl
    | pass hend hsemicolon h =>
      obtain ⟨rfl, rfl⟩ := List.cons.inj hkinds
      rw [List.cons_append, skipStatement.go, if_neg hend, if_neg hsemicolon, ih h _,
        List.reverse_cons, List.append_assoc]
      rfl

private theorem Cursor.skipStatement_ofSlots {skipped rest : List Slot}
    (h : Skips (skipped.map (·.kind)) (rest.map (·.kind))) (passed : List Slot) :
    (ofSlots passed (skipped ++ rest)).skipStatement =
      ofSlots (skipped.reverse ++ passed) rest := by
  have hkinds : Skips ((tokensOf skipped).map Token.kind) ((tokensOf rest).map Token.kind) := by
    simpa [tokensOf, Function.comp_def] using h
  have hskip := skipStatement_eq hkinds (tokensOf passed)
    (.ofSlots (passed.reverse ++ (skipped ++ rest)))
  rw [← tokensOf_append] at hskip
  refine hskip.trans ?_
  simp [ofSlots, tokensOf]

/-- Skipping that stops among some slots does not depend on what stands around them. -/
theorem Cursor.skipStatement_of_skips {skipped rest : List Slot}
    (h : Skips (skipped.map (·.kind)) (rest.map (·.kind)))
    (hstops : (skipped.map (·.kind)).getLast? = some (.mark .semicolon) ∨ rest.map (·.kind) ≠ [])
    (passed before behind : List Slot) :
    (ofSlots (passed ++ before) (skipped ++ rest ++ behind)).skipStatement =
      ofSlots (skipped.reverse ++ passed ++ before) (rest ++ behind) := by
  have hmore := h.append hstops (behind.map (·.kind))
  rw [← List.map_append] at hmore
  rw [List.append_assoc, List.append_assoc, skipStatement_ofSlots hmore]

end Equational

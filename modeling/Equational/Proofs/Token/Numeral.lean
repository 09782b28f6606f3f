import Equational.Proofs.Token.Lexeme

/-!
# The longest number

The forms of numbers, said without reading them: hexadecimal, or decimal digits with an optional
fraction and an optional exponent.  What is read at the front of a text is the longest number that
stands there, and a number is all that is read in front of a digit.
-/

namespace Equational.Token

open Equational.Unicode

/-! ## Forms -/

theorem exists_digitChar {c : Char} (h : c.isDigit) : ∃ digit < 10, c = digit.digitChar := by
  have hchars : ∀ number : Fin 128, (Char.ofNat number).isDigit →
      ∃ digit, digit < 10 ∧ Char.ofNat number = digit.digitChar := by
    decide
  have hbound : c.toNat ≤ 57 := by
    simp only [Char.isDigit, Bool.and_eq_true, decide_eq_true_eq] at h
    exact h.2
  have hchar := hchars ⟨c.toNat, by omega⟩
  rw [Char.ofNat_toNat] at hchar
  exact hchar h

structure IsDigits (text : List Char) : Prop where
  nonempty : text ≠ []
  isDigit : ∀ c ∈ text, c.isDigit

inductive IsFraction : List Char → Prop where
  | none : IsFraction []
  | some {digits : List Char} (hdigits : IsDigits digits) : IsFraction ('.' :: digits)

inductive IsExponent : List Char → Prop where
  | none : IsExponent []
  | some {mark : Char} {sign digits : List Char} (hmark : mark = 'e' ∨ mark = 'E')
    (hsign : sign = [] ∨ sign = ['-']) (hdigits : IsDigits digits) :
    IsExponent (mark :: (sign ++ digits))

inductive IsNumeral : List Char → Prop where
  | hexadecimal {mark : Char} {digits : List Char} (hmark : mark = 'x' ∨ mark = 'X')
    (hdigits : ∀ c ∈ digits, ∃ value, IsHexDigitFor value c) : IsNumeral ('0' :: mark :: digits)
  | decimal {whole fraction exponent : List Char} (hwhole : IsDigits whole)
    (hfraction : IsFraction fraction) (hexponent : IsExponent exponent) :
    IsNumeral (whole ++ fraction ++ exponent)

/-- A number at the front of a text that is not the front of a longer one there. -/
structure IsLongestNumeral (numeral rest : List Char) : Prop where
  isNumeral : IsNumeral numeral
  longest : ∀ longer, IsNumeral longer → longer <+: numeral ++ rest →
    longer.length ≤ numeral.length

theorem isHexMark_iff {c : Char} : isHexMark c ↔ c = 'x' ∨ c = 'X' := by
  simp [isHexMark]

theorem isExponentMark_iff {c : Char} : isExponentMark c ↔ c = 'e' ∨ c = 'E' := by
  simp [isExponentMark]

/-! ## What is read is a number -/

theorem isDigits_takeWhile {text : List Char} (h : text.takeWhile Char.isDigit ≠ []) :
    IsDigits (text.takeWhile Char.isDigit) :=
  ⟨h, List.all_eq_true.mp List.all_takeWhile⟩

private theorem isFraction_fractionText (text : List Char) : IsFraction (fractionText text) := by
  unfold fractionText
  split
  · split
    · exact .none
    · rename_i hne
      exact .some (isDigits_takeWhile hne)
  · exact .none

private theorem isExponent_exponentText (text : List Char) : IsExponent (exponentText text) := by
  unfold exponentText
  split
  · split
    · rename_i mark rest hmark
      extract_lets sign
      have hsign : sign = [] ∨ sign = ['-'] := by
        unfold sign
        split
        · exact .inr rfl
        · exact .inl rfl
      split
      · exact .none
      · rename_i hne
        exact .some (isExponentMark_iff.mp hmark) hsign (isDigits_takeWhile hne)
    · exact .none
  · exact .none

theorem isNumeral_decimalText {text : List Char} (h : decimalText text ≠ []) :
    IsNumeral (decimalText text) := by
  unfold decimalText at h ⊢
  split
  · rename_i hnone
    simp [hnone] at h
  · rename_i hne
    exact .decimal (isDigits_takeWhile hne) (isFraction_fractionText _) (isExponent_exponentText _)

theorem isNumeral_numeralText {text : List Char} (h : numeralText text ≠ []) :
    IsNumeral (numeralText text) := by
  unfold numeralText at h ⊢
  split
  · split
    · rename_i hmark
      refine .hexadecimal (isHexMark_iff.mp hmark) fun c hmem => isHexDigit_iff.mp ?_
      exact List.all_eq_true.mp List.all_takeWhile c hmem
    · rename_i hmark
      simp only [hmark] at h
      exact isNumeral_decimalText h
  · rename_i hother
    simp only at h
    exact isNumeral_decimalText h

/-! ## No longer number stands there -/

section Longest

variable {whole fraction exponent : List Char}

theorem fractionText_append {digits : List Char} (h : IsDigits digits) (rest : List Char) :
    fractionText ('.' :: digits ++ rest) = '.' :: (digits ++ rest.takeWhile Char.isDigit) := by
  have htake : (digits ++ rest).takeWhile Char.isDigit = digits ++ rest.takeWhile Char.isDigit :=
    List.takeWhile_append_of_pos h.isDigit
  rw [List.cons_append, fractionText, htake]
  split
  · rename_i hnone
    exact absurd (List.append_eq_nil_iff.mp hnone).1 h.nonempty
  · rfl

theorem exponentText_append (h : IsExponent exponent) (hne : exponent ≠ []) (rest : List Char) :
    exponentText (exponent ++ rest) = exponent ++ rest.takeWhile Char.isDigit := by
  cases h with
  | none => exact absurd rfl hne
  | @some mark sign digits hmark hsign hdigits =>
    have htake : (digits ++ rest).takeWhile Char.isDigit = digits ++ rest.takeWhile Char.isDigit :=
      List.takeWhile_append_of_pos hdigits.isDigit
    obtain ⟨first, others, rfl⟩ := List.exists_cons_of_ne_nil hdigits.nonempty
    have hfirst : first ≠ '-' := by
      rintro rfl
      exact absurd (hdigits.isDigit '-' List.mem_cons_self) (by decide)
    rw [List.cons_append, List.cons_append] at htake
    rcases hsign with rfl | rfl
    · simp [exponentText, isExponentMark_iff.mpr hmark, hfirst, htake]
    · simp [exponentText, isExponentMark_iff.mpr hmark, htake]

theorem decimalText_append (hwhole : IsDigits whole) {rest : List Char}
    (hrest : rest.takeWhile Char.isDigit = []) :
    decimalText (whole ++ rest) =
      whole ++ fractionText rest ++ exponentText (rest.drop (fractionText rest).length) := by
  have htake : (whole ++ rest).takeWhile Char.isDigit = whole := by
    rw [List.takeWhile_append_of_pos hwhole.isDigit, hrest, List.append_nil]
  have hdrop (count : Nat) : (whole ++ rest).drop (whole.length + count) = rest.drop count := by
    rw [← List.drop_drop, List.drop_left]
  unfold decimalText
  rw [htake]
  split
  · exact absurd rfl hwhole.nonempty
  · simp only [List.drop_left, hdrop]

theorem takeWhile_isDigit_of_exponent (h : IsExponent exponent) (hne : exponent ≠ [])
    (rest : List Char) : (exponent ++ rest).takeWhile Char.isDigit = [] := by
  cases h with
  | none => exact absurd rfl hne
  | some hmark => rcases hmark with rfl | rfl <;> rfl

private theorem fractionText_of_exponent (h : IsExponent exponent) (hne : exponent ≠ [])
    (rest : List Char) : fractionText (exponent ++ rest) = [] := by
  cases h with
  | none => exact absurd rfl hne
  | some hmark => rcases hmark with rfl | rfl <;> rfl

private theorem isPrefix_decimalText (hwhole : IsDigits whole) (hfraction : IsFraction fraction)
    (hexponent : IsExponent exponent) (rest : List Char) :
    whole ++ fraction ++ exponent <+: decimalText (whole ++ fraction ++ exponent ++ rest) := by
  have hsplit : whole ++ fraction ++ exponent ++ rest = whole ++ (fraction ++ (exponent ++ rest)) :=
    by simp
  rw [hsplit]
  cases hfraction with
  | none =>
    by_cases hne : exponent = []
    · subst hne
      simp only [List.append_nil, List.nil_append]
      have htake : whole <+: (whole ++ rest).takeWhile Char.isDigit := by
        rw [List.takeWhile_append_of_pos hwhole.isDigit]
        exact List.prefix_append _ _
      unfold decimalText
      split
      · rename_i hnone
        rw [hnone] at htake
        exact absurd (List.prefix_nil.mp htake) hwhole.nonempty
      · exact htake.trans (by simp)
    · rw [List.nil_append,
        decimalText_append hwhole (takeWhile_isDigit_of_exponent hexponent hne _),
        fractionText_of_exponent hexponent hne, List.length_nil, List.drop_zero,
        exponentText_append hexponent hne]
      simp
  | @some digits hdigits =>
    rw [decimalText_append hwhole rfl, fractionText_append hdigits]
    by_cases hne : exponent = []
    · subst hne
      simp
    · rw [takeWhile_isDigit_of_exponent hexponent hne, List.append_nil, List.drop_left,
        exponentText_append hexponent hne]
      simp

end Longest

theorem not_isHexMark_of_decimal {whole fraction exponent : List Char} (hwhole : IsDigits whole)
    (hfraction : IsFraction fraction) (hexponent : IsExponent exponent) :
    ∀ c ∈ whole ++ fraction ++ exponent, isHexMark c = false := by
  have hdigits {digits : List Char} (h : IsDigits digits) : ∀ c ∈ digits, isHexMark c = false := by
    intro c hmem
    refine Bool.eq_false_iff.mpr fun hmark => ?_
    have hdigit := h.isDigit c hmem
    rcases isHexMark_iff.mp hmark with rfl | rfl <;> exact absurd hdigit (by decide)
  refine List.forall_mem_append.mpr ⟨List.forall_mem_append.mpr ⟨hdigits hwhole, ?_⟩, ?_⟩
  · cases hfraction with
    | none => nofun
    | some h => exact List.forall_mem_cons.mpr ⟨rfl, hdigits h⟩
  · cases hexponent with
    | none => nofun
    | some hmark hsign h =>
      refine List.forall_mem_cons.mpr ⟨?_, List.forall_mem_append.mpr ⟨?_, hdigits h⟩⟩
      · rcases hmark with rfl | rfl <;> rfl
      · rcases hsign with rfl | rfl
        · nofun
        · exact List.forall_mem_singleton.mpr rfl

/-- Every number at the front of a text stands at the front of what is read. -/
theorem isPrefix_numeralText {numeral : List Char} (h : IsNumeral numeral) (rest : List Char) :
    numeral <+: numeralText (numeral ++ rest) := by
  cases h with
  | @hexadecimal mark digits hmark hdigits =>
    have htake : (digits ++ rest).takeWhile isHexDigit = digits ++ rest.takeWhile isHexDigit :=
      List.takeWhile_append_of_pos fun c hmem => isHexDigit_iff.mpr (hdigits c hmem)
    simp only [List.cons_append, numeralText, if_pos (isHexMark_iff.mpr hmark), htake]
    simp
  | @decimal whole fraction exponent hwhole hfraction hexponent =>
    have hdecimal := isPrefix_decimalText hwhole hfraction hexponent rest
    have hmarks := not_isHexMark_of_decimal hwhole hfraction hexponent
    obtain ⟨first, others, hnumeral⟩ : ∃ first others,
        whole ++ fraction ++ exponent = first :: others := by
      obtain ⟨first, others, rfl⟩ := List.exists_cons_of_ne_nil hwhole.nonempty
      exact ⟨first, _, rfl⟩
    rw [hnumeral] at hdecimal hmarks ⊢
    unfold numeralText
    split
    · rename_i mark more hmore
      split
      · -- only the zero itself can be a decimal number in front of a hexadecimal mark
        rename_i hmark
        obtain ⟨rfl, hothers⟩ := List.cons.inj hmore
        cases others with
        | nil => simp
        | cons c others =>
          obtain ⟨rfl, -⟩ := List.cons.inj hothers
          rw [hmarks c (by simp)] at hmark
          cases hmark
      · rwa [← hmore]
    · exact hdecimal

theorem numeralText_eq {numeral rest : List Char} (h : IsLongestNumeral numeral rest) :
    numeralText (numeral ++ rest) = numeral := by
  have hfront := isPrefix_numeralText h.isNumeral rest
  have hne : numeralText (numeral ++ rest) ≠ [] := by
    intro hnone
    rw [hnone] at hfront
    have hempty := List.prefix_nil.mp hfront
    have hnumeral := h.isNumeral
    rw [hempty] at hnumeral
    generalize htext : ([] : List Char) = text at hnumeral
    cases hnumeral with
    | hexadecimal => cases htext
    | decimal hwhole => simp [hwhole.nonempty] at htext
  have hlength := h.longest _ (isNumeral_numeralText hne) (numeralText_isPrefix _)
  exact (hfront.eq_of_length_le hlength).symm

theorem isLongestNumeral_of_numeralText {numeral rest : List Char} (hne : numeral ≠ [])
    (h : numeralText (numeral ++ rest) = numeral) : IsLongestNumeral numeral rest where
  isNumeral := by
    have hnumeral := isNumeral_numeralText (h.symm ▸ hne)
    rwa [h] at hnumeral
  longest longer hlonger hfront := by
    obtain ⟨behind, hbehind⟩ := hfront
    have hread := isPrefix_numeralText hlonger behind
    rw [hbehind, h] at hread
    exact hread.length_le

end Equational.Token

import Equational.Number.Literal
import Equational.Proofs.Token.Numeral
import Mathlib.Data.List.Forall2
import Mathlib.Data.Nat.Digits.Defs

/-!
# Values of numbers

What a number means, said without reading it: its digits in its radix, the most significant first.
The value that is read of an integer is just that, as long as it stays below the limit; a decimal
with a fraction or an exponent always has a value.
-/

namespace Equational

open Equational.Token

/-! ## Digits -/

/-- The value of some digits, the most significant first, each of them below the radix. -/
def IsPositional (radix : Nat) (digits : List Char) (value : Nat) : Prop :=
  ∃ values : List Nat,
    List.Forall₂ (fun c digit => IsHexDigitFor digit c ∧ digit < radix) digits values ∧
      value = Nat.ofDigits radix values.reverse

namespace NumberLiteral

private theorem ofDigits_reverse (radix : Nat) (values : List Nat) :
    Nat.ofDigits radix values.reverse =
      values.foldl (fun value digit => radix * value + digit) 0 := by
  rw [Nat.ofDigits_eq_foldr, List.foldr_reverse]
  congr 1
  funext value digit
  exact Nat.add_comm _ _

private theorem digitsFrom_eq_some_iff {radix start value : Nat} {digits : List Char} :
    digits.foldlM (fun value c => do
        let digit ← hexDigit? c
        if digit < radix then some (radix * value + digit) else none) start = some value ↔
      ∃ values : List Nat,
        List.Forall₂ (fun c digit => IsHexDigitFor digit c ∧ digit < radix) digits values ∧
          value = values.foldl (fun value digit => radix * value + digit) start := by
  induction digits generalizing start with
  | nil => simp [eq_comm]
  | cons c digits ih =>
    rw [List.foldlM_cons, Option.bind_eq_bind, Option.bind_eq_some_iff]
    constructor
    · rintro ⟨next, hnext, hrest⟩
      obtain ⟨digit, hdigit, hnext⟩ := Option.bind_eq_some_iff.mp hnext
      split at hnext <;> cases hnext
      rename_i hlt
      obtain ⟨values, hvalues, rfl⟩ := ih.mp hrest
      exact ⟨digit :: values, .cons ⟨isHexDigitFor_of_hexDigit hdigit, hlt⟩ hvalues, rfl⟩
    · rintro ⟨_, hvalues, rfl⟩
      cases hvalues with
      | @cons _ digit _ values hdigit hvalues =>
        refine ⟨radix * start + digit, ?_, ih.mpr ⟨values, hvalues, rfl⟩⟩
        simp [hdigit.1.hexDigit_eq, hdigit.2]

theorem digitsValue_eq_some_iff {radix value : Nat} {digits : List Char} :
    digitsValue? radix digits = some value ↔ IsPositional radix digits value := by
  simp only [IsPositional, ofDigits_reverse]
  exact digitsFrom_eq_some_iff

theorem exists_isPositional (radix : Nat) {digits : List Char}
    (h : ∀ c ∈ digits, ∃ digit, IsHexDigitFor digit c ∧ digit < radix) :
    ∃ value, IsPositional radix digits value := by
  suffices hvalues : ∃ values : List Nat,
      List.Forall₂ (fun c digit => IsHexDigitFor digit c ∧ digit < radix) digits values by
    obtain ⟨values, hvalues⟩ := hvalues
    exact ⟨_, values, hvalues, rfl⟩
  induction digits with
  | nil => exact ⟨[], .nil⟩
  | cons c digits ih =>
    obtain ⟨⟨digit, hdigit⟩, hrest⟩ := List.forall_mem_cons.mp h
    obtain ⟨values, hvalues⟩ := ih hrest
    exact ⟨digit :: values, .cons hdigit hvalues⟩

theorem exists_decimalDigit {c : Char} (h : c.isDigit) : ∃ digit < 10, IsHexDigitFor digit c := by
  obtain ⟨digit, hlt, rfl⟩ := exists_digitChar h
  exact ⟨digit, hlt, by omega, .inl rfl⟩

/-! ## Integers -/

inductive IntegerForm : Nat → List Char → List Char → Prop where
  | hexadecimal {mark : Char} {digits : List Char} (hmark : mark = 'x' ∨ mark = 'X') :
    IntegerForm 16 digits ('0' :: mark :: digits)
  | octal {digits : List Char} (hdigits : IsDigits digits) : IntegerForm 8 digits ('0' :: digits)
  | decimal {digits : List Char} (hdigits : IsDigits digits)
    (hplain : digits.head? = some '0' → digits = ['0']) : IntegerForm 10 digits digits

theorem not_digit_of_hexMark {mark : Char} (h : mark = 'x' ∨ mark = 'X') :
    mark.isDigit = false := by
  rcases h with rfl | rfl <;> rfl

theorem IntegerForm.unique {radix other : Nat} {digits others text : List Char}
    (h : IntegerForm radix digits text) (h' : IntegerForm other others text) :
    other = radix ∧ others = digits := by
  have hmarked {mark : Char} {rest : List Char} (hmark : mark = 'x' ∨ mark = 'X')
      (hdigits : ∀ c ∈ mark :: rest, c.isDigit) : False := by
    have hdigit := hdigits mark List.mem_cons_self
    rw [not_digit_of_hexMark hmark] at hdigit
    cases hdigit
  cases h with
  | hexadecimal hmark =>
    cases h' with
    | hexadecimal => exact ⟨rfl, rfl⟩
    | octal hdigits => exact (hmarked hmark hdigits.isDigit).elim
    | decimal hdigits =>
      exact (hmarked hmark (List.forall_mem_cons.mp hdigits.isDigit).2).elim
  | octal hdigits =>
    cases h' with
    | hexadecimal hmark => exact (hmarked hmark hdigits.isDigit).elim
    | octal => exact ⟨rfl, rfl⟩
    | decimal _ hplain => exact absurd (List.cons.inj (hplain rfl)).2 hdigits.nonempty
  | decimal hdigits hplain =>
    cases h' with
    | hexadecimal hmark => exact (hmarked hmark (List.forall_mem_cons.mp hdigits.isDigit).2).elim
    | octal hothers => exact absurd (List.cons.inj (hplain rfl)).2 hothers.nonempty
    | decimal => exact ⟨rfl, rfl⟩

private theorem integer_eq {radix value : Nat} {digits : List Char} (hne : digits ≠ [])
    (h : IsPositional radix digits value) :
    integer? radix digits = if value < integerLimit then some value else none := by
  have hplus : digits.head? ≠ some '+' := by
    intro hhead
    obtain ⟨rest, rfl⟩ := List.head?_eq_some_iff.mp hhead
    obtain ⟨values, hvalues, -⟩ := h
    cases hvalues with
    | cons hdigit =>
      have hnone : hexDigit? '+' = none := rfl
      cases hnone.symm.trans hdigit.1.hexDigit_eq
  have hempty : digits.isEmpty = false := by simp [hne]
  simp [integer?, hplus, hempty, digitsValue_eq_some_iff.mpr h]

theorem hasDecimalMark_of_digits {text : List Char} (h : ∀ c ∈ text, c.isDigit) :
    hasDecimalMark text = false := by
  refine List.any_eq_false.mpr fun c hmem hmark => ?_
  have hdigit := h c hmem
  rw [Bool.or_eq_true, beq_iff_eq, isExponentMark_iff] at hmark
  rcases hmark with rfl | rfl | rfl <;> exact absurd hdigit (by decide)

theorem valueOf_of_integerForm {radix value : Nat} {digits text : List Char}
    (h : IntegerForm radix digits text) (hne : digits ≠ [])
    (hvalue : IsPositional radix digits value) :
    valueOf? text = if value < integerLimit then some (radix, .integer value) else none := by
  have hresult : (integer? radix digits).map (fun value => (radix, NumberValue.integer value)) =
      if value < integerLimit then some (radix, .integer value) else none := by
    rw [integer_eq hne hvalue]
    split <;> rfl
  rw [← hresult]
  cases h with
  | hexadecimal hmark => simp only [valueOf?, if_pos (isHexMark_iff.mpr hmark)]
  | octal hdigits =>
    obtain ⟨c, rest, rfl⟩ := List.exists_cons_of_ne_nil hne
    have hmark : ¬isHexMark c := fun hmark => by
      have hdigit := hdigits.isDigit c List.mem_cons_self
      rw [not_digit_of_hexMark (isHexMark_iff.mp hmark)] at hdigit
      cases hdigit
    simp [valueOf?, hmark, hasDecimalMark_of_digits hdigits.isDigit]
  | decimal hdigits hplain =>
    unfold valueOf?
    split
    · cases hplain rfl
    · simp [hasDecimalMark_of_digits hdigits.isDigit]

/-! ## Decimals -/

theorem exists_digitsValue {digits : List Char} (h : ∀ c ∈ digits, c.isDigit) :
    ∃ value, digitsValue? 10 digits = some value := by
  obtain ⟨value, hvalue⟩ := exists_isPositional 10 fun c hmem =>
    have ⟨digit, hlt, hdigit⟩ := exists_decimalDigit (h c hmem)
    ⟨digit, hdigit, hlt⟩
  exact ⟨value, digitsValue_eq_some_iff.mpr hvalue⟩

theorem splitSign_of_digits {digits : List Char} (h : IsDigits digits) (rest : List Char) :
    splitSign (digits ++ rest) = (false, digits ++ rest) := by
  obtain ⟨c, others, rfl⟩ := List.exists_cons_of_ne_nil h.nonempty
  have hdigit := h.isDigit c List.mem_cons_self
  have hminus : c ≠ '-' := fun hc => by rw [hc] at hdigit; exact absurd hdigit (by decide)
  have hplus : c ≠ '+' := fun hc => by rw [hc] at hdigit; exact absurd hdigit (by decide)
  simp [splitSign, hminus, hplus]

private theorem exists_exponent {exponent : List Char} (h : IsExponent exponent) :
    ∃ value, exponent? exponent = some value := by
  cases h with
  | none => exact ⟨0, rfl⟩
  | @some mark sign digits hmark hsign hdigits =>
    obtain ⟨value, hvalue⟩ := exists_digitsValue hdigits.isDigit
    have hempty : digits.isEmpty = false := by simp [hdigits.nonempty]
    obtain ⟨negative, hsplit⟩ : ∃ negative, splitSign (sign ++ digits) = (negative, digits) := by
      rcases hsign with rfl | rfl
      · have hplain := splitSign_of_digits hdigits []
        rw [List.append_nil] at hplain
        exact ⟨false, hplain⟩
      · exact ⟨true, rfl⟩
    simp [exponent?, hsplit, isExponentMark_iff.mpr hmark, hempty, hvalue]

section Decimals

variable {whole fraction exponent : List Char} (hwhole : IsDigits whole)
  (hfraction : IsFraction fraction) (hexponent : IsExponent exponent)

include hwhole hfraction hexponent

private theorem exists_float : ∃ value, float? (whole ++ fraction ++ exponent) = some value := by
  obtain ⟨power, hpower⟩ := exists_exponent hexponent
  have hstop : exponent.takeWhile Char.isDigit = [] := by
    cases hexponent with
    | none => rfl
    | some hmark => rcases hmark with rfl | rfl <;> rfl
  have hempty : whole.isEmpty = false := by simp [hwhole.nonempty]
  have htake (rest : List Char) (hrest : rest.takeWhile Char.isDigit = []) :
      (whole ++ rest).takeWhile Char.isDigit = whole := by
    rw [List.takeWhile_append_of_pos hwhole.isDigit, hrest, List.append_nil]
  rw [List.append_assoc]
  cases hfraction with
  | none =>
    obtain ⟨digits, hdigits⟩ := exists_digitsValue hwhole.isDigit
    have hpoint : exponent.head? ≠ some '.' := by
      cases hexponent with
      | none => nofun
      | some hmark => rcases hmark with rfl | rfl <;> exact nofun
    simp [float?, splitSign_of_digits hwhole, htake _ hstop, hpoint, hempty, hpower, hdigits]
  | @some fraction hfraction =>
    obtain ⟨digits, hdigits⟩ :=
      exists_digitsValue (List.forall_mem_append.mpr ⟨hwhole.isDigit, hfraction.isDigit⟩)
    have hinner : (fraction ++ exponent).takeWhile Char.isDigit = fraction := by
      rw [List.takeWhile_append_of_pos hfraction.isDigit, hstop, List.append_nil]
    have hwholePart := htake ('.' :: (fraction ++ exponent)) rfl
    simp [float?, splitSign_of_digits hwhole, hwholePart, hinner, hempty, hpower, hdigits]

omit hwhole in
theorem exists_decimalMark (h : fraction ≠ [] ∨ exponent ≠ []) :
    ∃ c ∈ fraction ++ exponent, (c == '.' || isExponentMark c) ∧ c.isDigit = false := by
  cases hfraction with
  | some => exact ⟨'.', by simp, rfl, rfl⟩
  | none =>
    cases hexponent with
    | none => simp at h
    | @some mark _ _ hmark =>
      exact ⟨mark, by simp, by rcases hmark with rfl | rfl <;> exact ⟨rfl, rfl⟩⟩

theorem valueOf_of_decimal (h : fraction ≠ [] ∨ exponent ≠ []) :
    ∃ value, valueOf? (whole ++ fraction ++ exponent) = some (10, .float value) := by
  obtain ⟨value, hvalue⟩ := exists_float hwhole hfraction hexponent
  refine ⟨value, ?_⟩
  obtain ⟨c, hmem, hmark, -⟩ := exists_decimalMark hfraction hexponent h
  have hmarked : hasDecimalMark (whole ++ fraction ++ exponent) = true :=
    List.any_eq_true.mpr ⟨c, by simpa using Or.inr (List.mem_append.mp hmem), hmark⟩
  have hhex := not_isHexMark_of_decimal hwhole hfraction hexponent
  generalize whole ++ fraction ++ exponent = text at hvalue hmarked hhex
  unfold valueOf?
  split
  · rename_i mark rest
    have hrest : hasDecimalMark (mark :: rest) = true := hmarked
    simp [hhex mark (by simp), hrest, hvalue]
  · simp [hmarked, hvalue]

theorem not_integerForm_of_decimal (h : fraction ≠ [] ∨ exponent ≠ []) (radix : Nat)
    (digits : List Char) : ¬IntegerForm radix digits (whole ++ fraction ++ exponent) := by
  obtain ⟨c, hmem, -, hdigit⟩ := exists_decimalMark hfraction hexponent h
  have hmem : c ∈ whole ++ fraction ++ exponent := by
    simpa using Or.inr (List.mem_append.mp hmem)
  have hhex := not_isHexMark_of_decimal hwhole hfraction hexponent
  generalize whole ++ fraction ++ exponent = text at hmem hhex
  intro hform
  cases hform with
  | @hexadecimal mark _ hmark =>
    have hno := hhex mark (by simp)
    rw [isHexMark_iff.mpr hmark] at hno
    cases hno
  | octal hdigits =>
    rcases List.mem_cons.mp hmem with rfl | hmem
    · cases hdigit
    · rw [hdigits.isDigit c hmem] at hdigit
      cases hdigit
  | decimal hdigits =>
    rw [hdigits.isDigit c hmem] at hdigit
    cases hdigit

end Decimals

/-! ## Numbers without a value -/

/-- Hexadecimal without a digit, or an octal form with a digit that is too large. -/
inductive IsFaulty : List Char → Prop where
  | bareHexadecimal {mark : Char} (hmark : mark = 'x' ∨ mark = 'X') : IsFaulty ['0', mark]
  | octal {digits : List Char} (hdigits : IsDigits digits)
    (hlarge : ∃ c ∈ digits, c = '8' ∨ c = '9') : IsFaulty ('0' :: digits)

theorem isMalformedNumeral_iff {numeral : List Char} (h : IsNumeral numeral) :
    isMalformedNumeral numeral ↔ IsFaulty numeral := by
  have hlarge {digits : List Char} : (digits.any fun c => c == '8' || c == '9') ↔
      ∃ c ∈ digits, c = '8' ∨ c = '9' := by
    simp [List.any_eq_true]
  rw [isMalformedNumeral, Bool.or_eq_true]
  constructor
  · rintro (hbare | hfault)
    · obtain ⟨first, mark, rfl, hmark⟩ :
          ∃ first mark, numeral = [first, mark] ∧ isHexMark mark = true := by
        unfold isBareHex at hbare
        split at hbare
        · exact ⟨_, _, rfl, hbare⟩
        · cases hbare
      generalize htext : [first, mark] = text at h ⊢
      cases h with
      | hexadecimal =>
        cases htext
        exact .bareHexadecimal (isHexMark_iff.mp hmark)
      | decimal hwhole hfraction hexponent =>
        have hno := not_isHexMark_of_decimal hwhole hfraction hexponent mark (by simp [← htext])
        rw [hmark] at hno
        cases hno
    · obtain ⟨hform, hany⟩ := Bool.and_eq_true_iff.mp hfault
      unfold isOctalForm at hform
      split at hform
      · rename_i c rest
        refine .octal ⟨List.cons_ne_nil c rest, List.all_eq_true.mp hform⟩ (hlarge.mp ?_)
        simpa using hany
      · cases hform
  · rintro (@⟨mark, hmark⟩ | @⟨digits, hdigits, hany⟩)
    · exact .inl (isHexMark_iff.mpr hmark)
    · obtain ⟨c, rest, rfl⟩ := List.exists_cons_of_ne_nil hdigits.nonempty
      refine .inr (Bool.and_eq_true_iff.mpr ⟨List.all_eq_true.mpr hdigits.isDigit, ?_⟩)
      simpa using hlarge.mpr hany

private theorem exists_octalDigit {c : Char} (h : c.isDigit) (hsmall : ¬(c = '8' ∨ c = '9')) :
    ∃ digit, IsHexDigitFor digit c ∧ digit < 8 := by
  obtain ⟨digit, hlt, hdigit⟩ := exists_decimalDigit h
  refine ⟨digit, hdigit, ?_⟩
  have hlarge : ∀ digit : Fin 10, 8 ≤ digit.val →
      (digit.val.digitChar = '8' ∨ digit.val.digitChar = '9') ∧
        digit.val.digitChar.toUpper = digit.val.digitChar := by
    decide
  by_contra hle
  obtain ⟨hchar, hupper⟩ := hlarge ⟨digit, hlt⟩ (Nat.le_of_not_lt hle)
  refine hsmall ?_
  rcases hdigit.shape with hshape | hshape
  · rwa [hshape]
  · rwa [hshape, hupper]

/-- A number that is not faulty is an integer of some digits or has a double precision value. -/
theorem integer_or_float {text : List Char} (h : IsNumeral text) (hsound : ¬IsFaulty text) :
    (∃ radix digits value, IntegerForm radix digits text ∧ digits ≠ [] ∧
        IsPositional radix digits value) ∨
      (∃ value, valueOf? text = some (10, .float value)) ∧
        ∀ radix digits, ¬IntegerForm radix digits text := by
  cases h with
  | @hexadecimal mark digits hmark hdigits =>
    obtain ⟨value, hvalue⟩ := exists_isPositional 16 fun c hmem =>
      have ⟨digit, hdigit⟩ := hdigits c hmem
      ⟨digit, hdigit, hdigit.lt⟩
    refine .inl ⟨16, digits, value, .hexadecimal hmark, ?_, hvalue⟩
    rintro rfl
    exact hsound (.bareHexadecimal hmark)
  | @decimal whole fraction exponent hwhole hfraction hexponent =>
    by_cases hplain : fraction ≠ [] ∨ exponent ≠ []
    · exact .inr ⟨valueOf_of_decimal hwhole hfraction hexponent hplain,
        not_integerForm_of_decimal hwhole hfraction hexponent hplain⟩
    · obtain ⟨rfl, rfl⟩ : fraction = [] ∧ exponent = [] := by simpa using hplain
      simp only [List.append_nil] at hsound ⊢
      left
      by_cases hzero : whole.head? = some '0' ∧ whole ≠ ['0']
      · obtain ⟨digits, rfl⟩ := List.head?_eq_some_iff.mp hzero.1
        have hdigits : IsDigits digits :=
          ⟨fun hnone => hzero.2 (by rw [hnone]), fun c hmem => hwhole.isDigit c (.tail _ hmem)⟩
        obtain ⟨value, hvalue⟩ := exists_isPositional 8 fun c hmem =>
          exists_octalDigit (hdigits.isDigit c hmem)
            fun hlarge => hsound (.octal hdigits ⟨c, hmem, hlarge⟩)
        exact ⟨8, digits, value, .octal hdigits, hdigits.nonempty, hvalue⟩
      · obtain ⟨value, hvalue⟩ := exists_isPositional 10 fun c hmem =>
          have ⟨digit, hlt, hdigit⟩ := exists_decimalDigit (hwhole.isDigit c hmem)
          ⟨digit, hdigit, hlt⟩
        refine ⟨10, whole, value, .decimal hwhole fun hhead => ?_, hwhole.nonempty, hvalue⟩
        by_contra hne
        exact hzero ⟨hhead, hne⟩

end NumberLiteral

/-! ## Number tokens -/

open NumberLiteral in
/-- How the value of a number token is read: only an integer can be too large; any other one has the
radix of its form, and an integer has just the value of its digits. -/
structure Token.Decodes (token : Token) : Prop where
  isNumeral : IsNumeral token.value.toList
  fails_iff : (∃ diagnostic, ofToken token = .error diagnostic) ↔
    ∃ radix digits value, IntegerForm radix digits token.value.toList ∧
      IsPositional radix digits value ∧ 2 ^ 128 ≤ value
  radix : ∀ literal, ofToken token = .ok literal → literal.text = token.value ∧
    (literal.radix = 16 ↔ ∃ digits, IntegerForm 16 digits token.value.toList) ∧
    (literal.radix = 8 ↔ ∃ digits, IntegerForm 8 digits token.value.toList) ∧
    (literal.radix = 16 ∨ literal.radix = 8 ∨ literal.radix = 10)
  integer : ∀ literal, ofToken token = .ok literal →
    ∀ radix digits, IntegerForm radix digits token.value.toList →
      ∃ value, IsPositional radix digits value ∧ literal.value = .integer value
  float : ∀ literal, ofToken token = .ok literal →
    (∀ radix digits, ¬IntegerForm radix digits token.value.toList) →
      ∃ value, literal.value = .float value

namespace NumberLiteral

theorem ofToken_of_some {token : Token} {radix : Nat} {value : NumberValue}
    (h : valueOf? token.value.toList = some (radix, value)) :
    ofToken token = .ok ⟨token.value, radix, value⟩ := by
  simp [ofToken, ofText?, h]

theorem ofToken_of_none {token : Token} (h : valueOf? token.value.toList = none) :
    ofToken token = .error ⟨.unreadableNumber token.value, token.span⟩ := by
  simp [ofToken, ofText?, h]

theorem IntegerForm.radix_cases {radix : Nat} {digits text : List Char}
    (h : IntegerForm radix digits text) : radix = 16 ∨ radix = 8 ∨ radix = 10 := by
  cases h <;> simp

theorem IntegerForm.radix_eq_iff {radix other : Nat} {digits text : List Char}
    (h : IntegerForm radix digits text) :
    radix = other ↔ ∃ digits, IntegerForm other digits text := by
  constructor
  · rintro rfl
    exact ⟨digits, h⟩
  · rintro ⟨others, h'⟩
    exact (h.unique h').1.symm

private theorem isPositional_unique {radix value other : Nat} {digits : List Char}
    (h : IsPositional radix digits value) (h' : IsPositional radix digits other) :
    other = value :=
  Option.some.inj
    ((digitsValue_eq_some_iff.mpr h').symm.trans (digitsValue_eq_some_iff.mpr h))

theorem decodes_of_isNumeral {token : Token} (h : IsNumeral token.value.toList)
    (hsound : ¬IsFaulty token.value.toList) : token.Decodes := by
  rcases integer_or_float h hsound with ⟨radix, digits, value, hform, hne, hvalue⟩ |
      ⟨⟨value, hvalue⟩, hnone⟩
  · have hread := valueOf_of_integerForm hform hne hvalue
    by_cases hlt : value < integerLimit
    · have hok := ofToken_of_some (hread.trans (if_pos hlt))
      refine ⟨h, ⟨?_, ?_⟩, ?_, ?_, ?_⟩
      · rintro ⟨diagnostic, hfail⟩
        cases hok.symm.trans hfail
      · rintro ⟨other, others, large, hform', hlarge, hle⟩
        obtain ⟨rfl, rfl⟩ := hform.unique hform'
        obtain rfl := isPositional_unique hvalue hlarge
        exact absurd hlt (Nat.not_lt.mpr hle)
      · intro literal hliteral
        cases hok.symm.trans hliteral
        exact ⟨rfl, hform.radix_eq_iff, hform.radix_eq_iff, hform.radix_cases⟩
      · intro literal hliteral other others hform'
        cases hok.symm.trans hliteral
        obtain ⟨rfl, rfl⟩ := hform.unique hform'
        exact ⟨value, hvalue, rfl⟩
      · intro literal _ hnone
        exact absurd hform (hnone radix digits)
    · have hfail := ofToken_of_none (hread.trans (if_neg hlt))
      have habsurd {literal : NumberLiteral} (hliteral : ofToken token = .ok literal) : False := by
        cases hfail.symm.trans hliteral
      exact ⟨h, iff_of_true ⟨_, hfail⟩ ⟨radix, digits, value, hform, hvalue, Nat.not_lt.mp hlt⟩,
        fun _ hliteral => (habsurd hliteral).elim, fun _ hliteral => (habsurd hliteral).elim,
        fun _ hliteral => (habsurd hliteral).elim⟩
  · have hok := ofToken_of_some hvalue
    refine ⟨h, ⟨?_, ?_⟩, ?_, ?_, ?_⟩
    · rintro ⟨diagnostic, hfail⟩
      cases hok.symm.trans hfail
    · rintro ⟨radix, digits, -, hform, -⟩
      exact absurd hform (hnone radix digits)
    · intro literal hliteral
      cases hok.symm.trans hliteral
      exact ⟨rfl, iff_of_false nofun fun ⟨digits, hform⟩ => hnone 16 digits hform,
        iff_of_false nofun fun ⟨digits, hform⟩ => hnone 8 digits hform, .inr (.inr rfl)⟩
    · intro _ _ radix digits hform
      exact absurd hform (hnone radix digits)
    · intro literal hliteral _
      cases hok.symm.trans hliteral
      exact ⟨value, rfl⟩

end NumberLiteral

end Equational

import Equational.Proofs.Token.Lexeme

/-!
# Texts that part

Words and numbers end at the same place in two texts that agree up to a place where the first goes
on in one way and the second in another, as long as neither way can continue a word or a number.
-/

namespace Equational.Token

open Equational.Unicode

/-! ## Parting texts -/

/-- Two texts agree up to a place where each of them ends or goes on with a stop of its own. -/
inductive Parting (stops stops' : List Char) : List Char → List Char → Prop where
  | here {first second : List Char} (h : ∀ c ∈ first.head?, c ∈ stops)
      (h' : ∀ c ∈ second.head?, c ∈ stops') : Parting stops stops' first second
  | next (c : Char) {first second : List Char} (h : Parting stops stops' first second) :
      Parting stops stops' (c :: first) (c :: second)

namespace Parting

variable {α : Type} {stops stops' first second : List Char}

theorem append (front : List Char) (h : Parting stops stops' first second) :
    Parting stops stops' (front ++ first) (front ++ second) := by
  induction front with
  | nil => exact h
  | cons c front ih => exact ih.next c

theorem of_append {front : List Char}
    (h : Parting stops stops' (front ++ first) (front ++ second))
    (hfront : ∀ c ∈ front, c ∉ stops) : Parting stops stops' first second := by
  induction front with
  | nil => exact h
  | cons c front ih =>
    obtain ⟨hc, hrest⟩ := List.forall_mem_cons.mp hfront
    cases h with
    | here hstop _ => exact absurd (hstop c rfl) hc
    | next _ hnext => exact ih hnext hrest

theorem rel (h : Parting stops stops' first second) {R : α → α → Prop} {f : List Char → α}
    {nothing : α} (hnothing : R nothing nothing) (hnil : f [] = nothing)
    (hstops : ∀ c ∈ stops ++ stops', ∀ rest, f (c :: rest) = nothing)
    (hnext : ∀ c first second, Parting stops stops' first second → R (f first) (f second) →
      R (f (c :: first)) (f (c :: second))) : R (f first) (f second) := by
  have hhere {text ends : List Char} (hhead : ∀ c ∈ text.head?, c ∈ ends)
      (hends : ∀ c ∈ ends, c ∈ stops ++ stops') : f text = nothing := by
    cases text with
    | nil => exact hnil
    | cons c rest => exact hstops c (hends c (hhead c rfl)) rest
  induction h with
  | here hstop hstop' =>
    rw [hhere hstop fun c => List.mem_append_left stops',
      hhere hstop' fun c => List.mem_append_right stops]
    exact hnothing
  | next c h ih => exact hnext c _ _ h ih

theorem takeWhile_eq (h : Parting stops stops' first second) {p : Char → Bool}
    (hp : ∀ c ∈ stops ++ stops', p c = false) : first.takeWhile p = second.takeWhile p := by
  refine h.rel rfl rfl (fun c hc rest => ?_) fun c first second _ ih => ?_
  · exact List.takeWhile_cons_of_neg (by simp [hp c hc])
  · rw [List.takeWhile_cons, List.takeWhile_cons, ih]

theorem drop (h : Parting stops stops' first second) {front : List Char} (hfirst : front <+: first)
    (hsecond : front <+: second) (hfront : ∀ c ∈ front, c ∉ stops) :
    Parting stops stops' (first.drop front.length) (second.drop front.length) := by
  obtain ⟨rest, rfl⟩ := hfirst
  obtain ⟨rest', rfl⟩ := hsecond
  rw [List.drop_left, List.drop_left]
  exact h.of_append hfront

theorem isPrefix (h : Parting stops stops' first second) {front : List Char}
    (hfront : ∀ c ∈ front, c ∉ stops') (hsecond : front <+: second) : front <+: first := by
  induction front generalizing first second with
  | nil => exact List.nil_prefix
  | cons c front ih =>
    obtain ⟨hc, hrest⟩ := List.forall_mem_cons.mp hfront
    obtain ⟨after, rfl⟩ := hsecond
    cases h with
    | here _ hstop => exact absurd (hstop c rfl) hc
    | next _ hnext => exact (List.prefix_cons_inj c).mpr (ih hnext hrest (List.prefix_append _ _))

theorem takeWhile_eq_nil (h : Parting stops stops' first second) {p : Char → Bool}
    (hp : ∀ c ∈ stops', p c = false) (hfirst : first.takeWhile p = []) :
    second.takeWhile p = [] := by
  cases h with
  | next c h =>
    have hc : ¬p c := fun hc => by simp [List.takeWhile_cons_of_pos hc] at hfirst
    exact List.takeWhile_cons_of_neg hc
  | here _ hstop =>
    cases second with
    | nil => rfl
    | cons c rest => exact List.takeWhile_cons_of_neg (by simp [hp c (hstop c rfl)])

theorem drop_takeWhile (h : Parting stops stops' first second) {p : Char → Bool}
    (hp : ∀ c ∈ stops ++ stops', p c = false) :
    Parting stops stops' (first.drop (first.takeWhile p).length)
      (second.drop (first.takeWhile p).length) := by
  refine h.drop (List.takeWhile_prefix p) ?_ fun c hmem hstop => ?_
  · rw [h.takeWhile_eq hp]
    exact List.takeWhile_prefix p
  · have htrue := List.all_eq_true.mp List.all_takeWhile c hmem
    rw [hp c (List.mem_append_left _ hstop)] at htrue
    cases htrue

end Parting

/-! ## Words -/

/-- Where texts part, no word and no number goes on. -/
def wordBreaks : List Char := ['\n', ' ', '/']

theorem forall_mem_wordBreaks {p : Char → Prop} :
    (∀ c ∈ wordBreaks, p c) ↔ p '\n' ∧ p ' ' ∧ p '/' := by
  simp [wordBreaks]

theorem not_startsWord_of_break : ∀ c ∈ wordBreaks, startsWord c = false :=
  forall_mem_wordBreaks.mpr (by decide)

theorem not_continuesWord_of_break : ∀ c ∈ wordBreaks, continuesWord c = false :=
  forall_mem_wordBreaks.mpr (by decide)

theorem not_isUppercaseLetter_of_break : ∀ c ∈ wordBreaks, isUppercaseLetter c = false :=
  forall_mem_wordBreaks.mpr (by decide)

theorem not_isDigit_of_break : ∀ c ∈ wordBreaks, Char.isDigit c = false :=
  forall_mem_wordBreaks.mpr (by decide)

theorem not_isHexDigit_of_break : ∀ c ∈ wordBreaks, isHexDigit c = false :=
  forall_mem_wordBreaks.mpr (by decide)

theorem not_isExponentMark_of_break : ∀ c ∈ wordBreaks, isExponentMark c = false :=
  forall_mem_wordBreaks.mpr (by decide)

theorem not_isHexMark_of_break : ∀ c ∈ wordBreaks, isHexMark c = false :=
  forall_mem_wordBreaks.mpr (by decide)

def behind? (c : Char) : List Char → Option (List Char)
  | d :: rest => if d = c then some rest else none
  | [] => none

theorem modulePart_cons (c : Char) (rest : List Char) :
    modulePart? (c :: rest) =
      if isUppercaseLetter c then
        ((behind? ':' (rest.drop (rest.takeWhile continuesWord).length)).bind (behind? ':')).map
          fun after => (c :: rest.takeWhile continuesWord, after)
      else none := by
  simp only [modulePart?, List.length_cons, List.drop_succ_cons]
  congr 1
  rcases rest.drop (rest.takeWhile continuesWord).length with _ | ⟨a, _ | ⟨b, after⟩⟩
  · rfl
  · by_cases ha : a = ':' <;> simp [behind?, ha]
  · by_cases ha : a = ':' <;> by_cases hb : b = ':' <;> simp [behind?, ha, hb]

section Words

variable {stops stops' first second : List Char} (h : Parting stops stops' first second)
  (hstops : stops ++ stops' ⊆ wordBreaks)

include h hstops

theorem word_parting : word? first = word? second := by
  refine h.rel rfl rfl (fun c hc rest => ?_) fun c first second h _ => ?_
  · simp [word?, not_startsWord_of_break c (hstops hc)]
  · simp only [word?, h.takeWhile_eq fun d hd => not_continuesWord_of_break d (hstops hd)]

theorem plainWord_parting : plainWord? first = plainWord? second := by
  unfold plainWord?
  rw [word_parting h hstops]

theorem behind_parting {c : Char} (hc : c ∉ wordBreaks) :
    Option.Rel (Parting stops stops') (behind? c first) (behind? c second) := by
  refine h.rel .none rfl (fun d hd rest => if_neg ?_) fun d first second h _ => ?_
  · rintro rfl
    exact hc (hstops hd)
  · by_cases hd : d = c
    · simp only [behind?, if_pos hd]
      exact .some h
    · simp only [behind?, if_neg hd]
      exact .none

theorem modulePart_parting :
    Option.Rel (fun part part' => part.1 = part'.1 ∧ Parting stops stops' part.2 part'.2)
      (modulePart? first) (modulePart? second) := by
  refine h.rel .none rfl (fun c hc rest => ?_) fun c first second h _ => ?_
  · simp [modulePart_cons, not_isUppercaseLetter_of_break c (hstops hc)]
  · have hword (d : Char) (hd : d ∈ stops ++ stops') := not_continuesWord_of_break d (hstops hd)
    have hafter := h.drop_takeWhile hword
    rw [modulePart_cons, modulePart_cons, ← h.takeWhile_eq hword]
    split
    · -- A colon follows both names, or neither, and so does the next one.
      have hcolon := behind_parting hafter hstops (by decide : ':' ∉ wordBreaks)
      generalize behind? ':' (first.drop (first.takeWhile continuesWord).length) = rest at hcolon
      generalize behind? ':' (second.drop (first.takeWhile continuesWord).length) = rest' at hcolon
      cases hcolon with
      | none => exact .none
      | @some rest rest' hrest =>
        have hcolon := behind_parting hrest hstops (by decide : ':' ∉ wordBreaks)
        simp only [Option.bind_some]
        generalize behind? ':' rest = after at hcolon
        generalize behind? ':' rest' = after' at hcolon
        cases hcolon with
        | none => exact .none
        | some hafter => exact .some ⟨rfl, hafter⟩
    · exact .none

theorem qualifiedName_parting : qualifiedName? first = qualifiedName? second := by
  have hparts := modulePart_parting h hstops
  unfold qualifiedName?
  generalize modulePart? first = part at hparts
  generalize modulePart? second = part' at hparts
  cases hparts with
  | none => rfl
  | @some part part' hpart =>
    obtain ⟨home, after⟩ := part
    obtain ⟨home', after'⟩ := part'
    obtain ⟨rfl, hafter⟩ := hpart
    simp only [Option.bind_eq_bind, Option.bind_some, word_parting hafter hstops]

/-! ## Numbers -/

theorem fractionText_parting : fractionText first = fractionText second := by
  refine h.rel rfl rfl (fun c hc rest => ?_) fun c first second h _ => ?_
  · have hpoint : c ≠ '.' := by
      rintro rfl
      exact absurd (hstops hc) (by decide)
    simp [fractionText, hpoint]
  · have hdigits := h.takeWhile_eq fun d hd => not_isDigit_of_break d (hstops hd)
    by_cases hpoint : c = '.'
    · subst hpoint
      simp only [fractionText, hdigits]
    · simp [fractionText, hpoint]

private theorem exponentText_parting : exponentText first = exponentText second := by
  refine h.rel rfl rfl (fun c hc rest => ?_) fun mark first second h _ => ?_
  · simp [exponentText, not_isExponentMark_of_break c (hstops hc)]
  · have hdigit (d : Char) (hd : d ∈ stops ++ stops') := not_isDigit_of_break d (hstops hd)
    cases h with
    | here hstop hstop' =>
      -- Neither a sign nor a digit follows.
      have hdigits {text ends : List Char} (hhead : ∀ d ∈ text.head?, d ∈ ends)
          (hends : ∀ d ∈ ends, d ∈ stops ++ stops') : exponentText (mark :: text) = [] := by
        cases text with
        | nil => simp [exponentText]
        | cons d rest =>
          have hd := hstops (hends d (hhead d rfl))
          have hsign : d ≠ '-' := by
            rintro rfl
            exact absurd hd (by decide)
          simp [exponentText, hsign, not_isDigit_of_break d hd]
      rw [hdigits hstop fun d => List.mem_append_left stops',
        hdigits hstop' fun d => List.mem_append_right stops]
    | @next d first second h =>
      by_cases hsign : d = '-'
      · subst hsign
        simp [exponentText, h.takeWhile_eq hdigit]
      · simp [exponentText, hsign, List.takeWhile_cons, h.takeWhile_eq hdigit]

omit h hstops in
private theorem not_break_of_fractionText {text : List Char} :
    ∀ c ∈ fractionText text, c ∉ wordBreaks := by
  intro c hmem hbreak
  unfold fractionText at hmem
  split at hmem
  · split at hmem
    · cases hmem
    · rename_i rest _ digits hdigits
      rcases List.mem_cons.mp hmem with rfl | hmem
      · exact absurd hbreak (by decide)
      · have hdigit : Char.isDigit c := List.all_eq_true.mp List.all_takeWhile c hmem
        rw [not_isDigit_of_break c hbreak] at hdigit
        cases hdigit
  · cases hmem

theorem decimalText_parting : decimalText first = decimalText second := by
  have hdigit (c : Char) (hc : c ∈ stops ++ stops') := not_isDigit_of_break c (hstops hc)
  have hwhole := h.takeWhile_eq hdigit
  have hrest := h.drop_takeWhile hdigit
  unfold decimalText
  rw [← hwhole]
  split
  · rfl
  · have hfraction := fractionText_parting hrest hstops
    have hexponent := hrest.drop (fractionText_isPrefix _) (hfraction ▸ fractionText_isPrefix _)
      fun c hmem hstop => not_break_of_fractionText c hmem (hstops (List.mem_append_left _ hstop))
    simp only [List.drop_drop] at hexponent
    dsimp only
    rw [← hfraction, exponentText_parting hexponent hstops]

omit h hstops in
theorem numeralText_of_ne_zero {c : Char} (h : c ≠ '0') (rest : List Char) :
    numeralText (c :: rest) = decimalText (c :: rest) := by
  simp [numeralText, h]

def hexText (text : List Char) : List Char :=
  match text with
  | mark :: digits => if isHexMark mark then mark :: digits.takeWhile isHexDigit else []
  | [] => []

omit h hstops in
theorem numeralText_of_zero (rest : List Char) :
    numeralText ('0' :: rest) =
      if hexText rest = [] then decimalText ('0' :: rest) else '0' :: hexText rest := by
  cases rest with
  | nil => rfl
  | cons mark digits => by_cases hmark : isHexMark mark <;> simp [numeralText, hexText, hmark]

private theorem hexText_parting : hexText first = hexText second := by
  refine h.rel rfl rfl (fun c hc rest => if_neg ?_) fun mark first second h _ => ?_
  · simp [not_isHexMark_of_break c (hstops hc)]
  · simp only [hexText, h.takeWhile_eq fun d hd => not_isHexDigit_of_break d (hstops hd)]

private theorem numeralText_parting : numeralText first = numeralText second := by
  have hnil : numeralText [] = [] := rfl
  refine h.rel rfl hnil (fun c hc rest => ?_) fun c first second h _ => ?_
  · have hzero : c ≠ '0' := by
      rintro rfl
      exact absurd (hstops hc) (by decide)
    rw [numeralText_of_ne_zero hzero]
    simp [decimalText, not_isDigit_of_break c (hstops hc)]
  · have hdecimal := decimalText_parting (h.next c) hstops
    by_cases hzero : c = '0'
    · subst hzero
      rw [numeralText_of_zero, numeralText_of_zero, hexText_parting h hstops, hdecimal]
    · rw [numeralText_of_ne_zero hzero, numeralText_of_ne_zero hzero, hdecimal]

theorem number_parting : number? first = number? second := by
  unfold number?
  rw [numeralText_parting h hstops]

end Words

end Equational.Token

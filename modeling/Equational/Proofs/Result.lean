import Equational.Diagnostic

/-!
# Results

What a successful computation says about its steps, computations described by both of their
outcomes, and results that are expected to be the answer of a partial function.
-/

namespace Equational

variable {α β γ : Type}

/-! ## Successful steps -/

theorem bind_eq_ok_iff {ε : Type} {result : Except ε α} {next : α → Except ε β} {value : β} :
    (result >>= next) = .ok value ↔ ∃ first, result = .ok first ∧ next first = .ok value := by
  cases result with
  | error problem =>
    constructor
    · intro h
      cases h
    · rintro ⟨first, h, -⟩
      cases h
  | ok given =>
    constructor
    · intro h
      exact ⟨given, rfl, h⟩
    · rintro ⟨first, h, hnext⟩
      cases h
      exact hnext

theorem exists_of_map_eq_ok {ε α β : Type} {result : Except ε α} {f : α → β} {value : β}
    (h : result.map f = .ok value) : ∃ found, result = .ok found ∧ f found = value := by
  cases result with
  | error e => cases h
  | ok found => exact ⟨found, rfl, Except.ok.inj h⟩

theorem mapM_cons_eq_ok_iff {ε : Type} {first : Except ε α} {rest : List (Except ε α)}
    {values : List α} :
    (first :: rest).mapM id = .ok values ↔
      ∃ value others, first = .ok value ∧ rest.mapM id = .ok others ∧ values = value :: others := by
  simp only [List.mapM_cons, bind_eq_ok_iff, id]
  constructor
  · rintro ⟨value, hfirst, others, hrest, hvalues⟩
    cases hvalues
    exact ⟨value, others, hfirst, hrest, rfl⟩
  · rintro ⟨value, others, hfirst, hrest, rfl⟩
    exact ⟨value, hfirst, others, hrest, rfl⟩

theorem mapM_append_eq_ok_iff {ε : Type} {front back : List (Except ε α)} {values : List α} :
    (front ++ back).mapM id = .ok values ↔
      ∃ before behind, front.mapM id = .ok before ∧ back.mapM id = .ok behind ∧
        values = before ++ behind := by
  simp only [List.mapM_append, bind_eq_ok_iff]
  constructor
  · rintro ⟨before, hfront, behind, hback, hvalues⟩
    cases hvalues
    exact ⟨before, behind, hfront, hback, rfl⟩
  · rintro ⟨before, behind, hfront, hback, rfl⟩
    exact ⟨before, hfront, behind, hback, rfl⟩

/-! ## Both outcomes -/

/-- The value is as it should be, or the diagnostic is one of those there can be. -/
def EndsIn (objects : Diagnostic → Prop) (good : α → Prop) : Except Diagnostic α → Prop
  | .ok value => good value
  | .error diagnostic => objects diagnostic

namespace EndsIn

variable {objects : Diagnostic → Prop} {good : α → Prop} {result : Except Diagnostic α}

theorem bind {good' : β → Prop} {next : α → Except Diagnostic β} (h : EndsIn objects good result)
    (hnext : ∀ value, good value → EndsIn objects good' (next value)) :
    EndsIn objects good' (result >>= next) := by
  cases result with
  | ok value => exact hnext value h
  | error diagnostic => exact h

theorem of_ok {value : α} (h : EndsIn objects good result) (hok : result = .ok value) :
    good value := by
  rw [hok] at h
  exact h

theorem of_error {diagnostic : Diagnostic} (h : EndsIn objects good result)
    (herror : result = .error diagnostic) : objects diagnostic := by
  rw [herror] at h
  exact h

end EndsIn

/-! ## Expected results -/

/-- The expected value is given, and if none is expected, two operators are reported that do not
associate. -/
inductive Answers : Except Diagnostic α → Option α → Prop where
  | ok (value : α) : Answers (.ok value) (some value)
  | clash (left right : String) (span : Span) :
    Answers (.error ⟨.ambiguousChain left right, span⟩) none

namespace Answers

theorem bind {result : Except Diagnostic β} {expected : Option α} {f : α → β}
    {next : β → Except Diagnostic γ} {expectedNext : α → Option γ}
    (h : Answers result (expected.map f))
    (hnext : ∀ value, expected = some value → Answers (next (f value)) (expectedNext value)) :
    Answers (result >>= next) (expected.bind expectedNext) := by
  cases expected with
  | none =>
    cases h
    exact .clash _ _ _
  | some value =>
    cases h
    exact hnext value rfl

theorem eq_ok_iff {result : Except Diagnostic α} {expected : Option α} (h : Answers result expected)
    (value : α) : result = .ok value ↔ expected = some value := by
  cases h with
  | ok given => simp
  | clash left right span => simp

theorem clash_iff {result : Except Diagnostic α} {expected : Option α}
    (h : Answers result expected) :
    (∃ left right span, result = .error ⟨.ambiguousChain left right, span⟩) ↔ expected = none := by
  cases h with
  | ok given => simp
  | clash left right span => simp

end Answers

end Equational

import Equational.Proofs.Parse.Moving

/-!
# What parsing steps ensure

A step may need something of the state it begins in, and ensures something of the state it ends in,
whether that is with a value or with a diagnostic.  What steps ensure is put together as they are.
-/

namespace Equational

namespace Parse

variable {α β : Type}

/-- From every state in which the step may begin, it comes to a state that fits its value, or fails
in a state in which it may fail. -/
def Ensures (before : ParseState → Prop) (step : Parse α) (after : α → ParseState → Prop)
    (failed : ParseState → Prop) : Prop :=
  ∀ state, before state →
    match step state with
    | .ok value final => after value final
    | .error _ final => failed final

namespace Ensures

variable {before failed : ParseState → Prop} {after : α → ParseState → Prop} {step : Parse α}

theorem of_ok {state final : ParseState} {value : α} (h : Ensures before step after failed)
    (hbefore : before state) (hstep : step state = .ok value final) : after value final := by
  have hends := h state hbefore
  rwa [hstep] at hends

theorem pure {value : α} (h : ∀ state, before state → after value state) :
    Ensures before (pure value) after failed := h

theorem exhaust {value : α}
    (h : ∀ state, before state → after value { state with exhausted := true }) :
    Ensures before (Parse.exhaust value) after failed := h

theorem throw (diagnostic : Diagnostic) (h : ∀ state, before state → failed state) :
    Ensures before (throw diagnostic) after failed := h

theorem bind {next : α → Parse β} {last : β → ParseState → Prop}
    (h : Ensures before step after failed)
    (hnext : ∀ value, Ensures (after value) (next value) last failed) :
    Ensures before (step >>= next) last failed := by
  intro state hbefore
  have hfirst := h state hbefore
  cases hstep : step state with
  | ok value middle =>
    rw [hstep] at hfirst
    rw [bind_of_ok hstep]
    exact hnext value middle hfirst
  | error diagnostic middle =>
    rw [hstep] at hfirst
    rwa [bind_of_error hstep]

theorem ite {condition : Prop} [Decidable condition] {second : Parse α}
    (h : condition → Ensures before step after failed)
    (h' : ¬condition → Ensures before second after failed) :
    Ensures before (if condition then step else second) after failed := by
  split
  · exact h ‹_›
  · exact h' ‹_›

theorem choice {condition : Prop} [Decidable condition] {second : Parse α} {next : α → Parse β}
    {last : β → ParseState → Prop} (h : Ensures before step after failed)
    (h' : Ensures before second after failed)
    (hnext : ∀ value, Ensures (after value) (next value) last failed) :
    Ensures before (if condition then step >>= next else second >>= next) last failed :=
  .ite (fun _ => h.bind hnext) fun _ => h'.bind hnext

theorem imp {before' : ParseState → Prop} {after' : α → ParseState → Prop}
    (h : Ensures before step after failed) (hbefore : ∀ state, before' state → before state)
    (hafter : ∀ value state, after value state → after' value state) :
    Ensures before' step after' failed := by
  intro state hstate
  have hends := h state (hbefore state hstate)
  cases hstep : step state with
  | ok value final =>
    rw [hstep] at hends
    exact hafter value final hends
  | error diagnostic final =>
    rw [hstep] at hends
    exact hends

/-! ## Loops -/

theorem many (holds : List α → ParseState → Prop)
    (hexhaust : ∀ found state, holds found state → holds found { state with exhausted := true })
    {item? : Parse (Option α)}
    (h : ∀ found, Ensures (holds found) item? (fun answer => holds (found ++ answer.toList)) failed)
    (rounds : Nat) (found : List α) :
    Ensures (holds found.reverse) (many item? rounds found) holds failed := by
  induction rounds generalizing found with
  | zero => exact .exhaust (hexhaust found.reverse)
  | succ rounds ih =>
    refine (h found.reverse).bind fun answer => ?_
    cases answer with
    | some item =>
      have hmore := ih (item :: found)
      rwa [List.reverse_cons] at hmore
    | none => exact .pure fun state hfound => List.append_nil found.reverse ▸ hfound

theorem separated {before : ParseState → Prop} (holds : List α → ParseState → Prop)
    (hexhaust : ∀ found state, holds found state → holds found { state with exhausted := true })
    (separator : Punctuation) {item : Parse α}
    (hfirst : Ensures before item (fun value => holds [value]) failed)
    (hitem : ∀ found, Ensures (holds found) item (fun value => holds (found ++ [value])) failed)
    (hmark : ∀ found, Ensures (holds found) (acceptMark separator) (fun _ => holds found) failed) :
    Ensures before (separated separator item) holds failed := by
  have hnext (found : List α) : Ensures (holds found) (another separator item)
      (fun answer => holds (found ++ answer.toList)) failed := by
    refine (hmark found).bind fun accepted => .ite (fun _ => ?_) fun _ => ?_
    · exact (hitem found).bind fun value => .pure fun _ h => h
    · exact .pure fun state h => (List.append_nil found).symm ▸ h
  refine hfirst.bind fun first => ?_
  have hget : Ensures (holds [first]) get (fun _ => holds [first]) failed := fun _ h => h
  exact hget.bind fun state => many holds hexhaust hnext state.limit [first]

end Ensures

/-! ## Steps that may fail -/

/-- Nothing is said of a step that fails. -/
abbrev Yields (before : ParseState → Prop) (step : Parse α) (after : α → ParseState → Prop) :
    Prop :=
  Ensures before step after fun _ => True

section Yields

variable {before : ParseState → Prop} {after : α → ParseState → Prop}

theorem Ensures.yields {step : Parse α} {failed : ParseState → Prop}
    (h : Ensures before step after failed) : Yields before step after := by
  intro state hstate
  have hends := h state hstate
  cases hstep : step state with
  | ok value final =>
    rw [hstep] at hends
    exact hends
  | error diagnostic final => trivial

theorem thrown (diagnostic : Diagnostic) : Yields before (throw diagnostic) after :=
  .throw diagnostic fun _ _ => trivial

theorem yields_fail (expected : String) : Yields before (fail expected) after :=
  fun _ _ => trivial

theorem yields_kind {next : TokenKind → Parse α}
    (h : ∀ kind, Yields (fun state => before state ∧ state.cursor.current.kind = kind) (next kind)
      after) :
    Yields before (currentKind >>= next) after :=
  fun state hbefore => h _ state ⟨hbefore, rfl⟩

end Yields

/-! ## Moves -/

theorem Moving.ensures {noise : Noise} {step : Parse α} {holds failed : ParseState → Prop}
    (h : Moving noise step)
    (hkeeps : ∀ state next, Moves noise state next → holds state → holds next)
    (hfailed : ∀ state, holds state → failed state) :
    Ensures holds step (fun _ => holds) failed := by
  intro state hholds
  have hfinal := hkeeps _ _ (h state) hholds
  unfold finalState at hfinal
  cases hstep : step state with
  | ok value final =>
    rw [hstep] at hfinal
    exact hfinal
  | error diagnostic final =>
    rw [hstep] at hfinal
    exact hfailed final hfinal

end Parse

end Equational

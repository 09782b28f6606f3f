import Equational.Statement.Grammar

/-!
# Declaring as a function

A header either fails, and then it leaves the table as it was, or gives another table.
-/

namespace Equational

namespace OperatorTable

def declared (table : OperatorTable) :
    Header → Except Diagnostic (OperatorTable × Option OperatorEntry)
  | .symbol (.operator name) parameters (some precedence) knownAs span => do
    let level ← precedence.levelIn table span
    let fixity := headerFixity parameters level
    let first := table.insert ⟨name.text, level, fixity⟩
    let shadowed := table.lookup name.text fixity.role
    match knownAs with
    | some other => return (first.insert ⟨other, level, fixity⟩, shadowed)
    | none => return (first, shadowed)
  | _ => .ok (table, none)

theorem declare_eq (header : Header) (table : OperatorTable) :
    declare header table =
      match table.declared header with
      | .ok (declared, shadowed) => .ok shadowed declared
      | .error diagnostic => .error diagnostic table := by
  match header with
  | .binding name value span => rfl
  | .symbol (.identifier name) parameters precedence knownAs span => rfl
  | .symbol (.operator name) parameters none knownAs span => rfl
  | .symbol (.operator name) parameters (some precedence) knownAs span =>
    change EStateM.bind (MonadExcept.ofExcept (precedence.levelIn table span)) _ table = _
    rw [declared]
    cases precedence.levelIn table span with
    | error diagnostic => rfl
    | ok level => cases knownAs <;> rfl

theorem declare_eq_ok_iff {header : Header} {table declared : OperatorTable}
    {shadowed : Option OperatorEntry} :
    declare header table = .ok shadowed declared ↔
      table.declared header = .ok (declared, shadowed) := by
  rw [declare_eq]
  cases table.declared header with
  | ok result =>
    constructor
    · rintro ⟨⟩
      rfl
    · rintro ⟨⟩
      rfl
  | error diagnostic => exact ⟨nofun, nofun⟩

private theorem declare_eq_error_iff {header : Header} {table left : OperatorTable}
    {diagnostic : Diagnostic} :
    declare header table = .error diagnostic left ↔
      table.declared header = .error diagnostic ∧ left = table := by
  rw [declare_eq]
  cases table.declared header with
  | ok result => exact ⟨nofun, nofun⟩
  | error other =>
    constructor
    · rintro ⟨⟩
      exact ⟨rfl, rfl⟩
    · rintro ⟨⟨⟩, rfl⟩
      rfl

theorem eq_of_declare_error {header : Header} {table left : OperatorTable}
    {diagnostic : Diagnostic} (h : declare header table = .error diagnostic left) :
    left = table := (declare_eq_error_iff.mp h).2

end OperatorTable

theorem Parse.declare_eq (header : Header) (state : ParseState) :
    declare header state =
      match state.table.declared header with
      | .ok (table, _) => .ok () { state with table }
      | .error diagnostic => .error diagnostic state := by
  rw [declare, OperatorTable.declare_eq]
  cases state.table.declared header <;> rfl

end Equational

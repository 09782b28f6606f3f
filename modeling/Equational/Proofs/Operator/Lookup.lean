import Equational.Operator.Table

/-!
# Looking up operators

An entry that is found in a role has a fixity of that role.
-/

namespace Equational.OperatorTable

theorem role_of_lookup {table : OperatorTable} {symbol : String} {role : Role}
    {entry : OperatorEntry} (h : table.lookup symbol role = some entry) : entry.role = role := by
  have hanswers := List.find?_some h
  simp only [OperatorEntry.answers, Bool.and_eq_true, beq_iff_eq] at hanswers
  exact hanswers.2

theorem role_of_lookupName {table : OperatorTable} {name : OperatorName} {role : Role}
    {entry : OperatorEntry} (h : table.lookupName name role = some entry) : entry.role = role := by
  unfold lookupName at h
  split at h
  · rcases Option.or_eq_some_iff.mp h with h | ⟨-, h⟩
    · exact role_of_lookup h
    · exact role_of_lookup h
  · exact role_of_lookup h

theorem fixity_of_lookupName_postfix {table : OperatorTable} {name : OperatorName}
    {entry : OperatorEntry} (h : table.lookupName name .postfixOp = some entry) :
    entry.fixity = .postfixOp := by
  have hrole := role_of_lookupName h
  cases hfixity : entry.fixity <;> simp [OperatorEntry.role, hfixity, Fixity.role] at hrole ⊢

end Equational.OperatorTable

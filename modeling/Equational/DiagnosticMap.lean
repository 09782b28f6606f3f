import Equational.Diagnostic

/-!
# Diagnostics by token

Malformed text becomes a token, and its diagnostic is kept apart, under the index of that token.
The entries stand in the order of their keys.
-/

namespace Equational

@[ext] structure DiagnosticMap where
  entries : List (Nat × Diagnostic)
  ordered : entries.Pairwise fun first second => first.1 < second.1
  deriving DecidableEq, Repr

namespace DiagnosticMap

def empty : DiagnosticMap := ⟨[], .nil⟩

def find? (errors : DiagnosticMap) (index : Nat) : Option Diagnostic := errors.entries.lookup index

def values (errors : DiagnosticMap) : List Diagnostic := errors.entries.map Prod.snd

theorem mem_values_of_find {errors : DiagnosticMap} {index : Nat} {diagnostic : Diagnostic}
    (h : errors.find? index = some diagnostic) : diagnostic ∈ errors.values := by
  obtain ⟨front, rest, hentries, -⟩ := List.lookup_eq_some_iff.mp h
  rw [values, hentries]
  simp

/-! ## Inserting -/

def insertEntry (index : Nat) (diagnostic : Diagnostic) :
    List (Nat × Diagnostic) → List (Nat × Diagnostic)
  | [] => [(index, diagnostic)]
  | (key, kept) :: rest =>
    if index < key then (index, diagnostic) :: (key, kept) :: rest
    else if index = key then (index, diagnostic) :: rest
    else (key, kept) :: insertEntry index diagnostic rest

theorem mem_insertEntry {index : Nat} {diagnostic : Diagnostic} {entry : Nat × Diagnostic}
    {entries : List (Nat × Diagnostic)} (h : entry ∈ insertEntry index diagnostic entries) :
    entry = (index, diagnostic) ∨ entry ∈ entries := by
  induction entries with
  | nil => exact .inl (List.mem_singleton.mp h)
  | cons first rest ih => grind [insertEntry]

theorem pairwise_insertEntry (index : Nat) (diagnostic : Diagnostic)
    {entries : List (Nat × Diagnostic)}
    (h : entries.Pairwise fun first second => first.1 < second.1) :
    (insertEntry index diagnostic entries).Pairwise fun first second => first.1 < second.1 := by
  induction entries with
  | nil => exact List.pairwise_singleton _ _
  | cons first rest ih =>
    obtain ⟨key, kept⟩ := first
    obtain ⟨hbefore, hrest⟩ := List.pairwise_cons.mp h
    rw [insertEntry]
    split
    · rename_i hlt
      refine List.pairwise_cons.mpr ⟨List.forall_mem_cons.mpr ⟨hlt, fun entry hmem => ?_⟩, h⟩
      exact Nat.lt_trans hlt (hbefore entry hmem)
    · split
      · rename_i heq
        exact List.pairwise_cons.mpr ⟨heq ▸ hbefore, hrest⟩
      · refine List.pairwise_cons.mpr ⟨fun entry hmem => ?_, ih hrest⟩
        rcases mem_insertEntry hmem with rfl | hmem
        · dsimp only
          omega
        · exact hbefore entry hmem

def insert (errors : DiagnosticMap) (index : Nat) (diagnostic : Diagnostic) : DiagnosticMap :=
  ⟨insertEntry index diagnostic errors.entries, pairwise_insertEntry _ _ errors.ordered⟩

/-! ## Erasing -/

def erase (errors : DiagnosticMap) (index : Nat) : DiagnosticMap :=
  ⟨errors.entries.filter fun entry => entry.1 ≠ index, errors.ordered.filter _⟩

theorem values_erase_sublist (errors : DiagnosticMap) (index : Nat) :
    (errors.erase index).values.Sublist errors.values :=
  List.filter_sublist.map Prod.snd

/-! ## Making room -/

/-- The key of an entry where a token has come in behind that of the given index. -/
def keyBehind (index key : Nat) : Nat := if index < key then key + 1 else key

theorem keyBehind_lt {index first second : Nat} (h : first < second) :
    keyBehind index first < keyBehind index second := by
  grind [keyBehind]

def openGap (errors : DiagnosticMap) (index : Nat) : DiagnosticMap where
  entries := errors.entries.map fun entry => (keyBehind index entry.1, entry.2)
  ordered := List.pairwise_map.mpr (errors.ordered.imp keyBehind_lt)

@[simp] theorem values_openGap (errors : DiagnosticMap) (index : Nat) :
    (errors.openGap index).values = errors.values :=
  List.map_map

end DiagnosticMap

end Equational

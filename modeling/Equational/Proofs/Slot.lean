import Equational.Cursor

/-!
# Slots

A slot is a token together with what is owed for it: the diagnostic that is kept under its index.  A
list of slots stands for a list of tokens and a map of diagnostics.  Passing a token, splitting it
and taking its diagnostic change the slots in their place, and the map follows.
-/

namespace Equational

structure Slot extends Token where
  owed : Option Diagnostic

def Slot.endOfInput (size : Nat) : Slot := ⟨Token.endOfInput (recorded size), none⟩

def tokensOf (slots : List Slot) : List Token := slots.map Slot.toToken

@[simp] theorem tokensOf_cons (slot : Slot) (slots : List Slot) :
    tokensOf (slot :: slots) = slot.toToken :: tokensOf slots := rfl

@[simp] theorem tokensOf_append (first second : List Slot) :
    tokensOf (first ++ second) = tokensOf first ++ tokensOf second :=
  List.map_append

def owedBy (slots : List Slot) : List Diagnostic := slots.filterMap Slot.owed

theorem owedBy_append (first second : List Slot) :
    owedBy (first ++ second) = owedBy first ++ owedBy second :=
  List.filterMap_append

theorem owedBy_reverse (slots : List Slot) : owedBy slots.reverse = (owedBy slots).reverse :=
  List.filterMap_reverse

/-! ## Maps of slots -/

namespace DiagnosticMap

def entriesFrom : Nat → List Slot → List (Nat × Diagnostic)
  | _, [] => []
  | index, slot :: rest =>
    slot.owed.toList.map (index, ·) ++ entriesFrom (index + 1) rest

theorem entriesFrom_append (index : Nat) (front rest : List Slot) :
    entriesFrom index (front ++ rest) =
      entriesFrom index front ++ entriesFrom (index + front.length) rest := by
  induction front generalizing index with
  | nil => rfl
  | cons slot front ih =>
    rw [List.cons_append, entriesFrom, entriesFrom, ih, List.append_assoc, List.length_cons,
      Nat.add_right_comm, Nat.add_assoc]

theorem entriesFrom_add (index count : Nat) (slots : List Slot) :
    entriesFrom (index + count) slots =
      (entriesFrom index slots).map fun entry => (entry.1 + count, entry.2) := by
  induction slots generalizing index with
  | nil => rfl
  | cons slot rest ih =>
    rw [entriesFrom, entriesFrom, Nat.add_right_comm, ih, List.map_append, List.map_map]
    rfl

theorem mem_entriesFrom {index : Nat} {slots : List Slot} {entry : Nat × Diagnostic} :
    entry ∈ entriesFrom index slots ↔
      ∃ place slot, slots[place]? = some slot ∧ entry.1 = index + place ∧
        slot.owed = some entry.2 := by
  obtain ⟨key, diagnostic⟩ := entry
  induction slots generalizing index with
  | nil => simp [entriesFrom]
  | cons first rest ih =>
    simp only [entriesFrom, List.mem_append, ih, List.mem_map, Option.mem_toList, Prod.mk.injEq,
      exists_eq_right_right]
    constructor
    · rintro (⟨howed, rfl⟩ | ⟨place, slot, hslot, rfl, howed⟩)
      · exact ⟨0, first, rfl, rfl, howed⟩
      · exact ⟨place + 1, slot, hslot, by omega, howed⟩
    · rintro ⟨place, slot, hslot, rfl, howed⟩
      cases place with
      | zero =>
        obtain rfl := Option.some.inj hslot
        exact .inl ⟨howed, rfl⟩
      | succ place => exact .inr ⟨place, slot, hslot, by omega, howed⟩

theorem key_of_mem_entriesFrom {index : Nat} {slots : List Slot} {entry : Nat × Diagnostic}
    (h : entry ∈ entriesFrom index slots) :
    index ≤ entry.1 ∧ entry.1 < index + slots.length := by
  obtain ⟨place, slot, hslot, hkey, -⟩ := mem_entriesFrom.mp h
  have hplace := (List.getElem?_eq_some_iff.mp hslot).1
  omega

private theorem pairwise_entriesFrom (index : Nat) (slots : List Slot) :
    (entriesFrom index slots).Pairwise fun first second => first.1 < second.1 := by
  induction slots generalizing index with
  | nil => exact .nil
  | cons slot rest ih =>
    refine List.pairwise_append.mpr ⟨?_, ih (index + 1), fun first hfirst second hsecond => ?_⟩
    · cases slot.owed with
      | none => exact .nil
      | some diagnostic => exact List.pairwise_singleton _ _
    · obtain ⟨diagnostic, -, rfl⟩ := List.mem_map.mp hfirst
      exact (key_of_mem_entriesFrom hsecond).1

def ofSlots (slots : List Slot) : DiagnosticMap :=
  ⟨entriesFrom 0 slots, pairwise_entriesFrom 0 slots⟩

theorem entriesFrom_map_snd (index : Nat) (slots : List Slot) :
    (entriesFrom index slots).map Prod.snd = owedBy slots := by
  induction slots generalizing index with
  | nil => rfl
  | cons slot rest ih =>
    rw [entriesFrom, List.map_append, ih]
    cases howed : slot.owed <;> simp [owedBy, howed]

theorem entriesFrom_of_owedBy_eq_nil {slots : List Slot} (h : owedBy slots = []) (index : Nat) :
    entriesFrom index slots = [] :=
  List.map_eq_nil_iff.mp ((entriesFrom_map_snd index slots).trans h)

theorem values_ofSlots (slots : List Slot) : (ofSlots slots).values = owedBy slots :=
  entriesFrom_map_snd 0 slots

/-! ### Slots behind the others -/

theorem insertEntry_of_forall_lt {index : Nat} {diagnostic : Diagnostic}
    {entries : List (Nat × Diagnostic)} (h : ∀ entry ∈ entries, entry.1 < index) :
    insertEntry index diagnostic entries = entries ++ [(index, diagnostic)] := by
  induction entries with
  | nil => rfl
  | cons first rest ih =>
    obtain ⟨hfirst, hrest⟩ := List.forall_mem_cons.mp h
    rw [insertEntry, if_neg (by omega), if_neg (by omega), ih hrest, List.cons_append]

theorem ofSlots_concat (slots : List Slot) (slot : Slot) :
    ofSlots (slots ++ [slot]) =
      match slot.owed with
      | some diagnostic => (ofSlots slots).insert slots.length diagnostic
      | none => ofSlots slots := by
  refine DiagnosticMap.ext ?_
  have hsplit := entriesFrom_append 0 slots [slot]
  rw [Nat.zero_add] at hsplit
  cases howed : slot.owed with
  | none => simpa [ofSlots, entriesFrom, howed] using hsplit
  | some diagnostic =>
    refine hsplit.trans (Eq.symm ?_)
    refine (insertEntry_of_forall_lt fun entry hmem => ?_).trans ?_
    · simpa using (key_of_mem_entriesFrom hmem).2
    · simp [ofSlots, entriesFrom, howed]

/-! ### Slots between others -/

section Between

variable (before behind : List Slot) (slot : Slot)

theorem entries_ofSlots_between :
    (ofSlots (before ++ slot :: behind)).entries =
      entriesFrom 0 before ++ (slot.owed.toList.map (before.length, ·) ++
        entriesFrom (before.length + 1) behind) := by
  have hsplit := entriesFrom_append 0 before (slot :: behind)
  rwa [Nat.zero_add] at hsplit

theorem find_ofSlots : (ofSlots (before ++ slot :: behind)).find? before.length = slot.owed := by
  have hbefore : (entriesFrom 0 before).lookup before.length = none :=
    List.lookup_eq_none_iff.mpr fun entry hmem => by
      have hkey := (key_of_mem_entriesFrom hmem).2
      simp only [bne_iff_ne]
      omega
  have hbehind : (entriesFrom (before.length + 1) behind).lookup before.length = none :=
    List.lookup_eq_none_iff.mpr fun entry hmem => by
      have hkey := (key_of_mem_entriesFrom hmem).1
      simp only [bne_iff_ne]
      omega
  rw [find?, entries_ofSlots_between, List.lookup_append, hbefore, Option.none_or,
    List.lookup_append, hbehind, Option.or_none]
  cases slot.owed <;> simp

end Between

theorem find_of_getElem {slots : List Slot} {slot : Slot} {index : Nat}
    (h : slots[index]? = some slot) : (ofSlots slots).find? index = slot.owed := by
  obtain ⟨hlt, rfl⟩ := List.getElem?_eq_some_iff.mp h
  have hfind := find_ofSlots (slots.take index) (slots.drop (index + 1)) slots[index]
  rwa [List.getElem_cons_drop, List.take_append_drop, List.length_take_of_le (Nat.le_of_lt hlt)]
    at hfind

section Between

variable (before behind : List Slot) (slot : Slot)

theorem erase_ofSlots :
    (ofSlots (before ++ slot :: behind)).erase before.length =
      ofSlots (before ++ { slot with owed := none } :: behind) := by
  refine DiagnosticMap.ext ?_
  have hbefore : (entriesFrom 0 before).filter (fun entry => entry.1 ≠ before.length) =
      entriesFrom 0 before := List.filter_eq_self.mpr fun entry hmem => by
    have hkey := (key_of_mem_entriesFrom hmem).2
    simp only [decide_eq_true_eq]
    omega
  have hbehind : (entriesFrom (before.length + 1) behind).filter
      (fun entry => entry.1 ≠ before.length) = entriesFrom (before.length + 1) behind :=
    List.filter_eq_self.mpr fun entry hmem => by
      have hkey := (key_of_mem_entriesFrom hmem).1
      simp only [decide_eq_true_eq]
      omega
  have hslot : (slot.owed.toList.map (before.length, ·)).filter
      (fun entry => entry.1 ≠ before.length) = [] := by
    cases slot.owed <;> simp
  change (ofSlots _).entries.filter _ = _
  rw [entries_ofSlots_between, entries_ofSlots_between, List.filter_append, List.filter_append,
    hbefore, hbehind, hslot]
  rfl

theorem openGap_ofSlots (first second : Token) :
    (ofSlots (before ++ slot :: behind)).openGap before.length =
      ofSlots (before ++ ⟨first, slot.owed⟩ :: ⟨second, none⟩ :: behind) := by
  refine DiagnosticMap.ext ?_
  have hbefore : (entriesFrom 0 before).map
      (fun entry => (keyBehind before.length entry.1, entry.2)) = entriesFrom 0 before := by
    refine (List.map_congr_left fun entry hmem => ?_).trans (List.map_id _)
    have hkey := (key_of_mem_entriesFrom hmem).2
    rw [keyBehind, if_neg (by omega), id]
  have hbehind : (entriesFrom (before.length + 1) behind).map
      (fun entry => (keyBehind before.length entry.1, entry.2)) =
        entriesFrom (before.length + 2) behind := by
    rw [entriesFrom_add (before.length + 1) 1]
    refine List.map_congr_left fun entry hmem => ?_
    have hkey := (key_of_mem_entriesFrom hmem).1
    rw [keyBehind, if_pos (by omega)]
  have hslot : (slot.owed.toList.map (before.length, ·)).map
      (fun entry => (keyBehind before.length entry.1, entry.2)) =
        slot.owed.toList.map (before.length, ·) := by
    cases slot.owed <;> simp [keyBehind]
  change (ofSlots _).entries.map _ = _
  rw [entries_ofSlots_between, entries_ofSlots_between, List.map_append, List.map_append, hbefore,
    hbehind, hslot]
  rfl

end Between

end DiagnosticMap

/-! ## Cursors at slots -/

namespace Cursor

def ofSlots (passed ahead : List Slot) : Cursor :=
  ⟨tokensOf passed, tokensOf ahead, .ofSlots (passed.reverse ++ ahead)⟩

variable (passed rest : List Slot) (slot : Slot)

theorem index_ofSlots (ahead : List Slot) :
    (ofSlots passed ahead).index = passed.reverse.length := by
  simp [index, ofSlots, tokensOf]

private theorem ofSlots_pass :
    ofSlots (slot :: passed) rest =
      ⟨slot.toToken :: tokensOf passed, tokensOf rest,
        .ofSlots (passed.reverse ++ slot :: rest)⟩ := by
  simp [ofSlots, tokensOf]

theorem advance_ofSlots (h : slot.kind ≠ .endOfInput) :
    (ofSlots passed (slot :: rest)).advance = ofSlots (slot :: passed) rest := by
  rw [ofSlots_pass]
  exact if_neg h

def frontToken (token : Token) (bytes : Nat) (head : List Char) : Token :=
  operatorPart head ⟨token.span.start, recorded (token.span.start + bytes)⟩

def backToken (token : Token) (bytes : Nat) (tail : List Char) : Token :=
  operatorPart tail ⟨recorded (token.span.start + bytes), token.span.stop⟩

theorem split_of_cut {passed rest : List Token} {token : Token} {errors : DiagnosticMap}
    {bytes : Nat} {head tail : List Char}
    (h : cutText? bytes token.value.toList = some (head, tail)) :
    (⟨passed, token :: rest, errors⟩ : Cursor).split bytes =
      ⟨passed, frontToken token bytes head :: backToken token bytes tail :: rest,
        errors.openGap passed.length⟩ := by
  simp only [split, h]
  rfl

theorem split_of_not_cut {passed rest : List Token} {token : Token} {errors : DiagnosticMap}
    {bytes : Nat} (h : cutText? bytes token.value.toList = none) :
    (⟨passed, token :: rest, errors⟩ : Cursor).split bytes = ⟨passed, token :: rest, errors⟩ := by
  simp only [split, h]

/-- The first part keeps what is owed for the token. -/
def frontPart (slot : Slot) (bytes : Nat) (head : List Char) : Slot :=
  ⟨frontToken slot.toToken bytes head, slot.owed⟩

def backPart (slot : Slot) (bytes : Nat) (tail : List Char) : Slot :=
  ⟨backToken slot.toToken bytes tail, none⟩

theorem split_ofSlots {bytes : Nat} {head tail : List Char}
    (h : cutText? bytes slot.value.toList = some (head, tail)) :
    (ofSlots passed (slot :: rest)).split bytes =
      ofSlots passed (frontPart slot bytes head :: backPart slot bytes tail :: rest) := by
  have hindex := index_ofSlots passed (slot :: rest)
  have hgap := DiagnosticMap.openGap_ofSlots passed.reverse rest slot
    (frontPart slot bytes head).toToken (backPart slot bytes tail).toToken
  rw [← hindex] at hgap
  exact (split_of_cut h).trans (congrArg (Cursor.mk _ _) hgap)

theorem unexpected_ofSlots {diagnostic : Diagnostic} (hkind : slot.kind = .malformed)
    (howed : slot.owed = some diagnostic) (expected : String) :
    (ofSlots passed (slot :: rest)).unexpected expected =
      (diagnostic, ofSlots passed ({ slot with owed := none } :: rest)) := by
  have hcurrent : (ofSlots passed (slot :: rest)).current.kind = .malformed := hkind
  have hfind := DiagnosticMap.find_ofSlots passed.reverse rest slot
  have herase := DiagnosticMap.erase_ofSlots passed.reverse rest slot
  rw [howed] at hfind
  simp only [unexpected, hcurrent, index_ofSlots]
  change (match DiagnosticMap.find? (.ofSlots (passed.reverse ++ slot :: rest)) _ with
    | some diagnostic => _
    | none => _) = _
  rw [hfind]
  exact congrArg (fun errors => (diagnostic, (⟨_, _, errors⟩ : Cursor))) herase

end Cursor

end Equational

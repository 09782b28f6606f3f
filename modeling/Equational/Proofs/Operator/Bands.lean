import Equational.Proofs.Expr.Objection
import Equational.Proofs.Expr.Section
import Equational.Proofs.Grouping.Conditional
import Equational.Proofs.Script.Declared

/-!
# Operators and their levels

Whatever headers a source holds, a table has at most one entry for a symbol in a role, no postfix
operators, no level above the highest one, and infix operators that associate as their level does.
Two operators of a level then associate in the same way, and only those of the relational level do
not associate at all: they are the only ones that a run can be ambiguous about.
-/

namespace Equational

/-! ## Entries under their keys -/

def OperatorEntry.key (entry : OperatorEntry) : String × Role := (entry.symbol, entry.role)

namespace OperatorTable

variable {table : OperatorTable}

theorem answers_iff {entry : OperatorEntry} {symbol : String} {role : Role} :
    entry.answers symbol role ↔ entry.key = (symbol, role) := by
  simp [OperatorEntry.answers, OperatorEntry.key]

theorem keys_replaceIn (entry : OperatorEntry) (entries : List OperatorEntry) :
    (entry.replaceIn entries).map OperatorEntry.key =
      if entry.key ∈ entries.map OperatorEntry.key then entries.map OperatorEntry.key
      else entries.map OperatorEntry.key ++ [entry.key] := by
  induction entries with
  | nil => rfl
  | cons first rest ih =>
    unfold OperatorEntry.replaceIn
    by_cases hanswers : first.answers entry.symbol entry.role
    · have hkey : first.key = entry.key := answers_iff.mp hanswers
      rw [if_pos hanswers]
      simp [hkey]
    · have hkey : entry.key ≠ first.key := fun h => hanswers (answers_iff.mpr h.symm)
      rw [if_neg hanswers, List.map_cons, ih]
      by_cases hmem : entry.key ∈ rest.map OperatorEntry.key
      · simp only [List.map_cons, if_pos hmem, if_pos (List.mem_cons_of_mem _ hmem)]
      · have hnew : entry.key ∉ first.key :: rest.map OperatorEntry.key :=
          fun hcons => (List.mem_cons.mp hcons).elim hkey hmem
        simp only [List.map_cons, if_neg hmem, if_neg hnew, List.cons_append]

theorem lookup_eq_of_mem (hdistinct : (table.entries.map OperatorEntry.key).Nodup)
    {entry : OperatorEntry} (hentry : entry ∈ table.entries) :
    table.lookup entry.symbol entry.role = some entry := by
  obtain ⟨entries⟩ := table
  dsimp only [lookup] at hdistinct hentry ⊢
  induction entries with
  | nil => cases hentry
  | cons first rest ih =>
    rw [List.map_cons, List.nodup_cons] at hdistinct
    rcases List.mem_cons.mp hentry with rfl | hrest
    · exact List.find?_cons_of_pos (answers_iff.mpr rfl)
    · have hother : first.answers entry.symbol entry.role = false := by
        rw [Bool.eq_false_iff]
        intro hanswers
        have hkey : first.key = entry.key := answers_iff.mp hanswers
        exact hdistinct.1 (hkey ▸ List.mem_map_of_mem hrest)
      rw [List.find?_cons, hother]
      exact ih hdistinct.2 hrest

theorem mem_of_lookup {symbol : String} {role : Role} {entry : OperatorEntry}
    (h : table.lookup symbol role = some entry) :
    entry ∈ table.entries ∧ entry.symbol = symbol ∧ entry.role = role := by
  have hanswers := List.find?_some h
  have hkey := answers_iff.mp hanswers
  exact ⟨List.mem_of_find?_eq_some h, congrArg Prod.fst hkey, congrArg Prod.snd hkey⟩

end OperatorTable

/-! ## Banded tables -/

/-- There is such a level, and an infix operator associates as its level does. -/
structure OperatorEntry.IsBanded (entry : OperatorEntry) : Prop where
  precedence_le : entry.precedence ≤ maximalLevel
  not_postfix : entry.fixity ≠ .postfixOp
  levelled : entry.role = .infixOp → entry.fixity = levelFixity entry.precedence

structure OperatorTable.IsBanded (table : OperatorTable) : Prop where
  distinct : (table.entries.map OperatorEntry.key).Nodup
  banded : ∀ entry ∈ table.entries, entry.IsBanded

theorem levelFixity_cases (level : Nat) :
    levelFixity level = .infixRight ∨ (levelFixity level = .infixNone ∧ level = 5) ∨
      levelFixity level = .infixLeft := by
  unfold levelFixity
  split
  · exact .inl rfl
  · split
    · rename_i hlevel
      exact .inr (.inl ⟨rfl, hlevel⟩)
    · exact .inr (.inr rfl)

theorem isBanded_header (symbol : String) (parameters : List Parameter) {level : Nat}
    (hlevel : level ≤ maximalLevel) :
    OperatorEntry.IsBanded ⟨symbol, level, headerFixity parameters level⟩ := by
  refine ⟨hlevel, fun hpostfix => ?_, fun hinfix => ?_⟩
  · exact OperatorTable.role_headerFixity parameters level (congrArg Fixity.role hpostfix)
  · unfold OperatorEntry.role headerFixity at hinfix
    dsimp only [headerFixity]
    split at hinfix
    · cases hinfix
    · rename_i hseveral
      rw [if_neg hseveral]

namespace OperatorTable

theorem isBanded_initial : initial.IsBanded := by
  refine ⟨by decide +kernel, fun entry hentry => ?_⟩
  have hall : ∀ entry ∈ initial.entries, entry.precedence ≤ maximalLevel ∧
      entry.fixity ≠ .postfixOp ∧
      (entry.role = .infixOp → entry.fixity = levelFixity entry.precedence) := by
    decide +kernel
  exact ⟨(hall entry hentry).1, (hall entry hentry).2.1, (hall entry hentry).2.2⟩

namespace IsBanded

variable {table : OperatorTable}

theorem insert {entry : OperatorEntry} (h : table.IsBanded) (hentry : entry.IsBanded) :
    (table.insert entry).IsBanded := by
  refine ⟨?_, fun other hother => ?_⟩
  · rw [OperatorTable.insert, keys_replaceIn]
    split
    · exact h.distinct
    · rename_i hnew
      rw [List.nodup_append]
      refine ⟨h.distinct, by simp, fun key hkey other hother hsame => ?_⟩
      rw [List.mem_singleton.mp hother] at hsame
      exact hnew (hsame ▸ hkey)
  · rcases mem_replaceIn hother with rfl | hold
    · exact hentry
    · exact h.banded other hold

theorem declare {declared : OperatorTable} {header : Header} {shadowed : Option OperatorEntry}
    (h : table.IsBanded) (hdeclare : declare header table = .ok shadowed declared) :
    declared.IsBanded :=
  declare_induction (fun symbol parameters _ hle hbanded =>
    hbanded.insert (isBanded_header symbol parameters hle)) h hdeclare

theorem of_lookupName (h : table.IsBanded) {name : OperatorName} {role : Role}
    {entry : OperatorEntry} (hentry : table.lookupName name role = some entry) :
    entry.IsBanded := by
  unfold lookupName at hentry
  split at hentry
  · rcases Option.or_eq_some_iff.mp hentry with hfound | ⟨-, hfound⟩
    · exact h.banded entry (mem_of_lookup hfound).1
    · exact h.banded entry (mem_of_lookup hfound).1
  · exact h.banded entry (mem_of_lookup hentry).1

end IsBanded

/-- The tables that headers lead to, one after another; a header that fails changes nothing. -/
inductive Reachable : OperatorTable → Prop where
  | initial : Reachable initial
  | declare {table declared : OperatorTable} {header : Header} {shadowed : Option OperatorEntry}
    (h : Reachable table) (hdeclare : declare header table = .ok shadowed declared) :
    Reachable declared

namespace Reachable

variable {table : OperatorTable}

theorem isBanded (h : table.Reachable) : table.IsBanded := by
  induction h with
  | initial => exact isBanded_initial
  | declare h hdeclare ih => exact ih.declare hdeclare

theorem declareAll {declared : OperatorTable} {headers : List Header} (h : table.Reachable)
    (hdeclare : table.declareAll headers = .ok declared) : declared.Reachable :=
  declareAll_induction (fun h hdeclare => h.declare hdeclare) h hdeclare

end Reachable

end OperatorTable

/-! ## Clashing operators -/

/-- The operator is an infix operator of the relational level, which does not associate. -/
def OperatorTable.IsRelational (table : OperatorTable) (op : OperatorUse) : Prop :=
  ∃ entry, table.lookupName op.name .infixOp = some entry ∧ entry.precedence = 5 ∧
    entry.fixity = .infixNone

/-- Operators that associate as their levels do clash at the relational level only. -/
theorem eq_five_of_clash {level arriving : Nat}
    (h : verdict level (levelFixity level) arriving (levelFixity arriving) = .clash) :
    level = 5 ∧ arriving = 5 := by
  unfold verdict at h
  split at h
  · split at h <;> cases h
  · rename_i hsame
    obtain rfl := not_ne_iff.mp hsame
    rcases levelFixity_cases level with hfixity | ⟨-, hfive⟩ | hfixity
    · simp [hfixity] at h
    · exact ⟨hfive, hfive⟩
    · simp [hfixity] at h

theorem verdict_prefix_ne_clash (level arriving : Nat) (fixity : Fixity) :
    verdict level .prefixOp arriving fixity ≠ .clash := by
  unfold verdict
  split
  · split <;> nofun
  · cases fixity <;> nofun

section Clashes

variable {table : OperatorTable} {occurs : OperatorUse → Prop} {pending : Pending}

theorem Pending.Stands.fixity_eq (hbanded : table.IsBanded) (h : pending.Stands table occurs)
    (hjoins : pending.joins) : pending.fixity = levelFixity pending.precedence := by
  cases pending with
  | binary op entry =>
    exact (hbanded.of_lookupName h.2).levelled (OperatorTable.role_of_lookupName h.2)
  | application span => rfl
  | prefixed op entry => cases hjoins
  | conditional condition thenBranch span => cases hjoins

theorem Pending.Stands.fixity_eq_prefix (h : pending.Stands table occurs)
    (hjoins : pending.joins = false) : pending.fixity = .prefixOp := by
  cases pending with
  | prefixed op entry =>
    have hrole := OperatorTable.role_of_lookupName h.2
    change entry.fixity = .prefixOp
    cases hfixity : entry.fixity <;> simp [OperatorEntry.role, hfixity, Fixity.role] at hrole ⊢
  | conditional condition thenBranch span => rfl
  | binary op entry => cases hjoins
  | application span => cases hjoins

private theorem Arrival.Stands.exists_joining (hbanded : table.IsBanded) {arrival : Arrival}
    (h : arrival.Stands table occurs) : ∃ pending : Pending, pending.joins ∧
      pending.Stands table occurs ∧ pending.arrival = arrival := by
  cases h with
  | joining pending hjoins hstands => exact ⟨pending, hjoins, hstands, rfl⟩
  | behind op entry h hentry =>
    have hpostfix := OperatorTable.fixity_of_lookupName_postfix hentry
    have hentryBanded := hbanded.of_lookupName hentry
    exact absurd hpostfix hentryBanded.not_postfix

theorem Pending.Stands.exists_relational (hbanded : table.IsBanded)
    (h : pending.Stands table occurs) (hjoins : pending.joins) (hlevel : pending.precedence = 5) :
    ∃ op, occurs op ∧ table.IsRelational op ∧ pending.symbol = op.text ∧
      pending.span = op.span := by
  have hfixity := h.fixity_eq hbanded hjoins
  rw [hlevel] at hfixity
  cases pending with
  | binary op entry => exact ⟨op, h.1, ⟨entry, h.2, hlevel, hfixity⟩, rfl, rfl⟩
  | application span => cases hlevel
  | prefixed op entry => cases hjoins
  | conditional condition thenBranch span => cases hjoins

private theorem exists_relational_of_clash (hbanded : table.IsBanded) {top : Pending}
    {arrival : Arrival} (htop : top.Stands table occurs) (harrival : arrival.Stands table occurs)
    (h : verdict top.precedence top.fixity arrival.precedence arrival.fixity = .clash) :
    ∃ op other, occurs op ∧ occurs other ∧ table.IsRelational op ∧ table.IsRelational other ∧
      top.symbol = op.text ∧ arrival.symbol = other.text ∧ arrival.span = other.span := by
  obtain ⟨arriving, hjoins, hstands, rfl⟩ := harrival.exists_joining hbanded
  cases htopJoins : top.joins with
  | false =>
    rw [htop.fixity_eq_prefix htopJoins] at h
    exact absurd h (verdict_prefix_ne_clash _ _ _)
  | true =>
    have harriving : arriving.arrival.fixity = levelFixity arriving.arrival.precedence :=
      hstands.fixity_eq hbanded hjoins
    rw [htop.fixity_eq hbanded htopJoins, harriving] at h
    obtain ⟨htopLevel, hlevel⟩ := eq_five_of_clash h
    obtain ⟨op, hop, hrelational, hsymbol, -⟩ :=
      htop.exists_relational hbanded htopJoins htopLevel
    obtain ⟨other, hother, hrelational', hsymbol', hspan⟩ :=
      hstands.exists_relational hbanded hjoins hlevel
    exact ⟨op, other, hop, hother, hrelational, hrelational', hsymbol, hsymbol', hspan⟩

end Clashes

/-! ## Results -/

/-- The tables of a source are those behind some headers, wherever its reading stops.  In all such
tables a run, at any depth, is ambiguous about relational operators only. -/
theorem ambiguity_is_relational :
    (∀ (tokens : List Token) (errors : DiagnosticMap) (options : ParseOptions) (rounds : Nat),
      (ParsedScript.ofTokens tokens errors options).table.Reachable ∧
      (Progress.run options.mode rounds ⟨.ofTokens tokens errors, []⟩).state.table.Reachable) ∧
    ∀ table : OperatorTable, table.Reachable →
      (∀ entry ∈ table.entries, table.lookup entry.symbol entry.role = some entry ∧
        entry.precedence ≤ 13 ∧ entry.fixity ≠ .postfixOp ∧
        (entry.role = .infixOp → entry.fixity = levelFixity entry.precedence)) ∧
      (∀ symbol role entry, table.lookup symbol role = some entry →
        entry ∈ table.entries ∧ entry.symbol = symbol ∧ entry.role = role) ∧
      ∀ (run : Run) (left right : String) (span : Span),
        run.resolve table = .error ⟨.ambiguousChain left right, span⟩ →
        ∃ op other, .operator op ∈ run.yield table ∧ .operator other ∈ run.yield table ∧
          table.IsRelational op ∧ table.IsRelational other ∧
          left = op.text ∧ right = other.text ∧ span = other.span := by
  refine ⟨fun tokens errors options rounds => ?_,
    fun table h => ⟨fun entry hentry => ?_, ?_, ?_⟩⟩
  · have hstart := Progress.tableDeclared_start tokens errors
    have hrun (rounds : Nat) :=
      Progress.run_induction Progress.TableDeclared (fun _ => .step) hstart options.mode rounds
    refine ⟨?_, OperatorTable.Reachable.initial.declareAll (hrun rounds)⟩
    unfold ParsedScript.ofTokens
    dsimp only
    split
    · exact .initial
    · exact OperatorTable.Reachable.initial.declareAll (hrun _)
  · have hbanded := h.isBanded.banded entry hentry
    exact ⟨OperatorTable.lookup_eq_of_mem h.isBanded.distinct hentry, hbanded.precedence_le,
      hbanded.not_postfix, hbanded.levelled⟩
  · exact fun symbol role entry => OperatorTable.mem_of_lookup
  · intro run left right span herror
    cases Run.objection_of_error herror with
    | clash top arrival htop harrival hclash =>
      exact exists_relational_of_clash h.isBanded htop harrival hclash

def comparisonsRun : Run :=
  .ofItems [wordItem "f" 0, .atom (.parenthesized [wordItem "a" 3, symbolItem "<" 5, wordItem "b" 7,
    symbolItem "=" 9, wordItem "c" 11] ⟨3, 12⟩ ⟨2, 13⟩)] (.point 0)

theorem comparisonsRun_is_ambiguous :
    OperatorTable.initial.Reachable ∧
    comparisonsRun.resolve .initial = .error ⟨.ambiguousChain "<" "=", ⟨9, 10⟩⟩ ∧
    ∃ op other, OperatorTable.initial.IsRelational op ∧ OperatorTable.initial.IsRelational other ∧
      op.text = "<" ∧ other.text = "=" := by
  have h : comparisonsRun.resolve .initial = .error ⟨.ambiguousChain "<" "=", ⟨9, 10⟩⟩ := rfl
  obtain ⟨-, -, hambiguous⟩ := ambiguity_is_relational.2 .initial .initial
  obtain ⟨op, other, -, -, hop, hother, hleft, hright, -⟩ := hambiguous _ _ _ _ h
  exact ⟨.initial, h, op, other, hop, hother, hleft.symm, hright.symm⟩

end Equational

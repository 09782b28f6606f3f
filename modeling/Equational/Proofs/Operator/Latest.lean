import Equational.Proofs.Operator.Bands

/-!
# The latest declaration

What a table says about a symbol in a role comes from the latest header that made the symbol an
operator in that role, under its own spelling or as an alias, and is built in if there is none.
Whatever else headers declare, before or behind, makes no difference to it, except that a precedence
may be copied from an operator as it was declared at that point.
-/

namespace Equational

/-! ## Insertion -/

theorem OperatorEntry.answers_iff_eq {entry : OperatorEntry} {symbol : String} {role : Role} :
    entry.answers symbol role ↔ entry.symbol = symbol ∧ entry.role = role := by
  simp [answers]

theorem OperatorTable.lookup_insert (table : OperatorTable) (entry : OperatorEntry)
    (symbol : String) (role : Role) :
    (table.insert entry).lookup symbol role =
      if entry.answers symbol role then some entry else table.lookup symbol role := by
  obtain ⟨entries⟩ := table
  unfold insert lookup
  dsimp only
  induction entries with
  | nil =>
    unfold OperatorEntry.replaceIn
    cases h : entry.answers symbol role <;> simp [h]
  | cons first rest ih =>
    unfold OperatorEntry.replaceIn
    by_cases hsame : first.answers entry.symbol entry.role
    · have hkey := OperatorEntry.answers_iff_eq.mp hsame
      have hanswers : first.answers symbol role = entry.answers symbol role := by
        simp [OperatorEntry.answers, hkey]
      rw [if_pos hsame, List.find?_cons, List.find?_cons, hanswers]
      cases entry.answers symbol role <;> simp
    · rw [if_neg hsame, List.find?_cons, List.find?_cons, ih]
      cases hfirst : first.answers symbol role with
      | false => rfl
      | true =>
        have hentry : entry.answers symbol role = false := by
          refine Bool.eq_false_iff.mpr fun hentry => hsame ?_
          obtain ⟨rfl, rfl⟩ := OperatorEntry.answers_iff_eq.mp hentry
          exact hfirst
        simp [hentry]

/-! ## What a header makes -/

/-- The level that a precedence asks for: the one it gives, or that of the infix, else the prefix,
else the postfix operator that it names. -/
inductive PrecedenceSpec.Asks (table : OperatorTable) : PrecedenceSpec → Nat → Prop where
  | level (n : Nat) : Asks table (.level n) n
  | sameAsInfix {name : OperatorName} {entry : OperatorEntry}
    (h : table.lookupName name .infixOp = some entry) : Asks table (.sameAs name) entry.precedence
  | sameAsPrefix {name : OperatorName} {entry : OperatorEntry}
    (hnoInfix : table.lookupName name .infixOp = none)
    (h : table.lookupName name .prefixOp = some entry) : Asks table (.sameAs name) entry.precedence
  | sameAsPostfix {name : OperatorName} {entry : OperatorEntry}
    (hnoInfix : table.lookupName name .infixOp = none)
    (hnoPrefix : table.lookupName name .prefixOp = none)
    (h : table.lookupName name .postfixOp = some entry) : Asks table (.sameAs name) entry.precedence

theorem PrecedenceSpec.levelIn_eq_ok_iff {table : OperatorTable} {span : Span} {level : Nat}
    (precedence : PrecedenceSpec) :
    precedence.levelIn table span = .ok level ↔
      precedence.Asks table level ∧ level ≤ maximalLevel := by
  have hchecked (n : Nat) :
      levelIn.checked span n = .ok level ↔ n = level ∧ level ≤ maximalLevel := by
    unfold levelIn.checked
    split
    · rename_i hhigh
      refine ⟨nofun, ?_⟩
      rintro ⟨rfl, hle⟩
      exact absurd hle (Nat.not_le_of_lt hhigh)
    · rename_i hle
      constructor
      · rintro ⟨⟩
        exact ⟨rfl, Nat.le_of_not_lt hle⟩
      · rintro ⟨rfl, -⟩
        rfl
  cases precedence with
  | level n =>
    refine (hchecked n).trans (and_congr_left fun _ => ?_)
    constructor
    · rintro rfl
      exact .level n
    · rintro ⟨⟩
      rfl
  | sameAs name =>
    have hentry : (∃ entry, table.anyEntry name = some entry ∧ entry.precedence = level) ↔
        Asks table (.sameAs name) level := by
      simp only [OperatorTable.anyEntry, List.findSome?_cons, List.findSome?_nil]
      constructor
      · rintro ⟨entry, hfound, rfl⟩
        split at hfound
        · cases hfound
          exact .sameAsInfix ‹_›
        · split at hfound
          · cases hfound
            exact .sameAsPrefix ‹_› ‹_›
          · split at hfound
            · cases hfound
              exact .sameAsPostfix ‹_› ‹_› ‹_›
            · cases hfound
      · intro hasks
        cases hasks with
        | @sameAsInfix _ entry h => exact ⟨entry, by rw [h], rfl⟩
        | @sameAsPrefix _ entry hnoInfix h => exact ⟨entry, by rw [hnoInfix, h], rfl⟩
        | @sameAsPostfix _ entry hnoInfix hnoPrefix h =>
          exact ⟨entry, by rw [hnoInfix, hnoPrefix, h], rfl⟩
    rw [← hentry]
    unfold levelIn
    dsimp only
    cases hany : table.anyEntry name with
    | none => simp
    | some entry => simpa using hchecked entry.precedence

/-- Where the table is the given one, the header makes the symbol an operator in the role: it has a
precedence, the symbol is its name or its alias, and its parameters and its level give the role. -/
inductive Header.Makes (table : OperatorTable) (symbol : String) (role : Role) :
    Header → OperatorEntry → Prop where
  | intro {name : OperatorName} {parameters : List Parameter} {precedence : PrecedenceSpec}
    {knownAs : Option String} {span : Span} {level : Nat}
    (hsymbol : name.text = symbol ∨ knownAs = some symbol) (hlevel : precedence.Asks table level)
    (hle : level ≤ maximalLevel) (hrole : (headerFixity parameters level).role = role) :
    Makes table symbol role (.symbol (.operator name) parameters (some precedence) knownAs span)
      ⟨symbol, level, headerFixity parameters level⟩

/-! ## One header -/

def OperatorTable.behind (table : OperatorTable) (header : Header) : OperatorTable :=
  match declare header table with
  | .ok _ declared => declared
  | .error _ left => left

namespace OperatorTable

variable {table declared : OperatorTable} {header : Header} {symbol : String} {role : Role}
  {entry : OperatorEntry} {shadowed : Option OperatorEntry}

theorem declare_operator_eq_ok_iff {name : OperatorName} {parameters : List Parameter}
    {precedence : PrecedenceSpec} {knownAs : Option String} {span : Span} :
    declare (.symbol (.operator name) parameters (some precedence) knownAs span) table =
        .ok shadowed declared ↔
      ∃ level, precedence.Asks table level ∧ level ≤ maximalLevel ∧
        shadowed = table.lookup name.text (headerFixity parameters level).role ∧
        declared = knownAs.toList.foldl
          (fun table other => table.insert ⟨other, level, headerFixity parameters level⟩)
          (table.insert ⟨name.text, level, headerFixity parameters level⟩) := by
  simp only [declare_eq_ok_iff, OperatorTable.declared, bind_eq_ok_iff,
    precedence.levelIn_eq_ok_iff, and_assoc]
  refine exists_congr fun level => and_congr_right fun _ => and_congr_right fun _ => ?_
  cases knownAs with
  | none =>
    constructor
    · rintro ⟨⟩
      exact ⟨rfl, rfl⟩
    · rintro ⟨rfl, rfl⟩
      rfl
  | some other =>
    constructor
    · rintro ⟨⟩
      exact ⟨rfl, rfl⟩
    · rintro ⟨rfl, rfl⟩
      rfl

theorem behind_of_error {diagnostic : Diagnostic} {left : OperatorTable}
    (h : declare header table = .error diagnostic left) : table.behind header = table := by
  rw [behind, h]
  exact eq_of_declare_error h

theorem behind_of_ok (h : declare header table = .ok shadowed declared) :
    table.behind header = declared := by
  rw [behind, h]

theorem lookup_behind_operator {name : OperatorName} {parameters : List Parameter}
    {precedence : PrecedenceSpec} {knownAs : Option String} {span : Span} {level : Nat}
    (hasks : precedence.Asks table level) (hle : level ≤ maximalLevel) (symbol : String)
    (role : Role) :
    (table.behind (.symbol (.operator name) parameters (some precedence) knownAs span)).lookup
        symbol role =
      if (name.text = symbol ∨ knownAs = some symbol) ∧
          (headerFixity parameters level).role = role then
        some ⟨symbol, level, headerFixity parameters level⟩
      else table.lookup symbol role := by
  rw [behind_of_ok (declare_operator_eq_ok_iff.mpr ⟨level, hasks, hle, rfl, rfl⟩)]
  by_cases hrole : (headerFixity parameters level).role = role
  · by_cases hname : name.text = symbol
    · subst hname
      cases knownAs with
      | none => simp [lookup_insert, OperatorEntry.answers, OperatorEntry.role, hrole]
      | some other =>
        by_cases hother : other = name.text <;>
          simp [lookup_insert, OperatorEntry.answers, OperatorEntry.role, hrole, hother]
    · cases knownAs with
      | none => simp [lookup_insert, OperatorEntry.answers, hname]
      | some other =>
        by_cases hother : other = symbol <;>
          simp [lookup_insert, OperatorEntry.answers, OperatorEntry.role, hrole, hname, hother]
  · cases knownAs <;>
      simp [lookup_insert, OperatorEntry.answers, OperatorEntry.role, hrole]

theorem declare_cases (h : declare header table = .ok shadowed declared) :
    declared = table.behind header ∧
      ((∃ name parameters precedence knownAs span level,
        header = .symbol (.operator name) parameters (some precedence) knownAs span ∧
        precedence.Asks table level ∧ level ≤ maximalLevel ∧
        shadowed = table.lookup name.text (headerFixity parameters level).role) ∨
      (¬ ∃ name parameters precedence knownAs span,
        header = .symbol (.operator name) parameters (some precedence) knownAs span) ∧
        declared = table ∧ shadowed = none) := by
  refine ⟨(behind_of_ok h).symm, ?_⟩
  match header with
  | .symbol (.operator name) parameters (some precedence) knownAs span =>
    obtain ⟨level, hasks, hle, hshadowed, -⟩ := declare_operator_eq_ok_iff.mp h
    exact .inl ⟨name, parameters, precedence, knownAs, span, level, rfl, hasks, hle, hshadowed⟩
  | .symbol (.operator name) parameters none knownAs span =>
    cases h
    exact .inr ⟨by simp, rfl, rfl⟩
  | .symbol (.identifier i) parameters precedence knownAs span =>
    cases h
    exact .inr ⟨by simp, rfl, rfl⟩
  | .binding name value span =>
    cases h
    exact .inr ⟨by simp, rfl, rfl⟩

theorem lookup_behind_of_makes (h : header.Makes table symbol role entry) :
    (table.behind header).lookup symbol role = some entry := by
  obtain ⟨hsymbol, hasks, hle, hrole⟩ := h
  rw [lookup_behind_operator hasks hle, if_pos ⟨hsymbol, hrole⟩]

theorem lookup_behind_of_forall_not_makes
    (h : ∀ entry, ¬ header.Makes table symbol role entry) :
    (table.behind header).lookup symbol role = table.lookup symbol role := by
  cases hdeclare : declare header table with
  | error diagnostic left => rw [behind_of_error hdeclare]
  | ok shadowed declared =>
    obtain ⟨hbehind, hmade | ⟨-, hkept, -⟩⟩ := declare_cases hdeclare
    · obtain ⟨name, parameters, precedence, knownAs, span, level, rfl, hasks, hle, -⟩ := hmade
      rw [lookup_behind_operator hasks hle, if_neg]
      rintro ⟨hsymbol, hrole⟩
      exact h _ (.intro hsymbol hasks hle hrole)
    · rw [← hbehind, hkept]

/-- A header changes what is found for a symbol in a role only by making it an operator there. -/
theorem lookup_behind_eq_some_iff :
    (table.behind header).lookup symbol role = some entry ↔
      header.Makes table symbol role entry ∨
        (∀ other, ¬ header.Makes table symbol role other) ∧
          table.lookup symbol role = some entry := by
  constructor
  · intro h
    by_cases hmade : ∃ other, header.Makes table symbol role other
    · obtain ⟨other, hother⟩ := hmade
      rw [lookup_behind_of_makes hother] at h
      cases h
      exact .inl hother
    · have hnone := not_exists.mp hmade
      exact .inr ⟨hnone, (lookup_behind_of_forall_not_makes hnone).symm.trans h⟩
  · rintro (hmade | ⟨hnone, h⟩)
    · exact lookup_behind_of_makes hmade
    · exact (lookup_behind_of_forall_not_makes hnone).trans h

/-! ## Several headers -/

def behindAll (table : OperatorTable) (headers : List Header) : OperatorTable :=
  headers.foldl behind table

/-- No header, declared behind those in front of it, makes the symbol an operator in the role. -/
def Unmade (table : OperatorTable) (symbol : String) (role : Role) (headers : List Header) : Prop :=
  ∀ front header rest, headers = front ++ header :: rest →
    ∀ entry, ¬ header.Makes (table.behindAll front) symbol role entry

/-- The last header that makes the symbol an operator in the role makes this entry. -/
def Latest (table : OperatorTable) (symbol : String) (role : Role) (headers : List Header)
    (entry : OperatorEntry) : Prop :=
  ∃ front header rest, headers = front ++ header :: rest ∧
    header.Makes (table.behindAll front) symbol role entry ∧
    Unmade (table.behindAll (front ++ [header])) symbol role rest

private theorem unmade_cons {headers : List Header} :
    Unmade table symbol role (header :: headers) ↔
      (∀ entry, ¬ header.Makes table symbol role entry) ∧
        Unmade (table.behind header) symbol role headers := by
  constructor
  · intro h
    refine ⟨h [] header headers rfl, ?_⟩
    rintro front other rest rfl
    exact h (header :: front) other rest rfl
  · rintro ⟨hheader, hheaders⟩ front other rest heq
    rcases List.cons_eq_append_iff.mp heq with ⟨rfl, ⟨⟩⟩ | ⟨front, rfl, rfl⟩
    · exact hheader
    · exact hheaders front other rest rfl

private theorem latest_cons {headers : List Header} :
    Latest table symbol role (header :: headers) entry ↔
      Latest (table.behind header) symbol role headers entry ∨
        header.Makes table symbol role entry ∧
          Unmade (table.behind header) symbol role headers := by
  constructor
  · rintro ⟨front, other, rest, heq, hmakes, hunmade⟩
    rcases List.cons_eq_append_iff.mp heq with ⟨rfl, ⟨⟩⟩ | ⟨front, rfl, rfl⟩
    · exact .inr ⟨hmakes, hunmade⟩
    · exact .inl ⟨front, other, rest, rfl, hmakes, hunmade⟩
  · rintro (⟨front, other, rest, rfl, hmakes, hunmade⟩ | ⟨hmakes, hunmade⟩)
    · exact ⟨header :: front, other, rest, rfl, hmakes, hunmade⟩
    · exact ⟨[], header, headers, rfl, hmakes, hunmade⟩

/-- The last header that makes an operator of a symbol decides what is found for it; behind headers
that make none, it is what was found before them. -/
theorem lookup_behindAll_eq_some_iff (headers : List Header) :
    (table.behindAll headers).lookup symbol role = some entry ↔
      Latest table symbol role headers entry ∨
        Unmade table symbol role headers ∧ table.lookup symbol role = some entry := by
  induction headers generalizing table with
  | nil =>
    have hnone : ¬ Latest table symbol role [] entry := by
      rintro ⟨front, header, rest, heq, -⟩
      simp at heq
    have hunmade : Unmade table symbol role [] := by
      intro front header rest heq
      simp at heq
    change table.lookup symbol role = some entry ↔ _
    simp only [hnone, hunmade, false_or, true_and]
  | cons header headers ih =>
    change ((table.behind header).behindAll headers).lookup symbol role = some entry ↔ _
    rw [ih, lookup_behind_eq_some_iff, latest_cons, unmade_cons]
    tauto

theorem lookup_initial_eq_some_iff :
    initial.lookup symbol role = some entry ↔
      entry ∈ builtins ∧ entry.symbol = symbol ∧ entry.role = role := by
  have hentries : initial.entries = builtins := by decide +kernel
  have hdistinct := isBanded_initial.distinct
  constructor
  · intro h
    have hfound := mem_of_lookup h
    rwa [hentries] at hfound
  · rintro ⟨hmem, rfl, rfl⟩
    exact lookup_eq_of_mem hdistinct (hentries ▸ hmem)

end OperatorTable

/-! ## In place -/

theorem Parse.finalState_declare (header : Header) (state : ParseState) :
    (Parse.declare header).finalState state =
      { state with table := state.table.behind header } := by
  unfold Parse.declare finalState OperatorTable.behind
  dsimp only
  cases OperatorTable.declare header state.table <;> rfl

private theorem Parse.final_of_declare_error {header : Header} {state final : ParseState}
    {diagnostic : Diagnostic} (h : Parse.declare header state = .error diagnostic final) :
    final = state := by
  rw [declare_eq] at h
  cases hdeclared : state.table.declared header with
  | ok result =>
    rw [hdeclared] at h
    cases h
  | error other =>
    rw [hdeclared] at h
    cases h
    rfl

/-! ## The latest declaration -/

/-- What is found for a symbol in a role behind any headers is the entry of the last of them that
makes it an operator there, and built in if there is none.  A header that fails changes nothing; one
that declares an operator returns what its own name was before. -/
theorem latest_declaration_wins (headers : List Header) (symbol : String) (role : Role)
    (entry : OperatorEntry) (table : OperatorTable) (header : Header) :
    ((OperatorTable.initial.behindAll headers).lookup symbol role = some entry ↔
      OperatorTable.initial.Latest symbol role headers entry ∨
        OperatorTable.initial.Unmade symbol role headers ∧
          entry ∈ OperatorTable.builtins ∧ entry.symbol = symbol ∧ entry.role = role) ∧
    (∀ diagnostic left, OperatorTable.declare header table = .error diagnostic left →
      left = table) ∧
    (∀ state diagnostic final, Parse.declare header state = .error diagnostic final →
      final = state) ∧
    ∀ declared shadowed, OperatorTable.declare header table = .ok shadowed declared →
      declared = table.behind header ∧
        ((∃ name parameters precedence knownAs span level,
          header = .symbol (.operator name) parameters (some precedence) knownAs span ∧
          precedence.Asks table level ∧ level ≤ maximalLevel ∧
          shadowed = table.lookup name.text (headerFixity parameters level).role) ∨
        (¬ ∃ name parameters precedence knownAs span,
          header = .symbol (.operator name) parameters (some precedence) knownAs span) ∧
          declared = table ∧ shadowed = none) := by
  refine ⟨?_, fun diagnostic left h => OperatorTable.eq_of_declare_error h,
    fun state diagnostic final h => Parse.final_of_declare_error h,
    fun declared shadowed h => OperatorTable.declare_cases h⟩
  rw [OperatorTable.lookup_behindAll_eq_some_iff, OperatorTable.lookup_initial_eq_some_iff]

def plusHeader : Header :=
  .symbol (.operator ⟨"+", none⟩) [⟨⟨"X", .variableName⟩, false⟩, ⟨⟨"Y", .variableName⟩, false⟩]
    (some (.level 4)) (some "plus") ⟨0, 19⟩

def unaryPlusHeader : Header :=
  .symbol (.operator ⟨"+", none⟩) [⟨⟨"X", .variableName⟩, false⟩] (some (.sameAs ⟨"^", none⟩)) none
    ⟨20, 31⟩

def unknownLevelHeader : Header :=
  .symbol (.operator ⟨"plus", none⟩)
    [⟨⟨"X", .variableName⟩, false⟩, ⟨⟨"Y", .variableName⟩, false⟩]
    (some (.sameAs ⟨"$$", none⟩)) none ⟨32, 49⟩

/-- The alias stays what the first header made it, although two more headers follow. -/
theorem plusHeaders_latest :
    OperatorTable.initial.Latest "plus" .infixOp [plusHeader, unaryPlusHeader, unknownLevelHeader]
      ⟨"plus", 4, .infixRight⟩ ∧
    (∃ diagnostic left,
      OperatorTable.declare unknownLevelHeader .initial = .error diagnostic left ∧
        left = .initial) ∧
    (∃ diagnostic final,
      Parse.declare unknownLevelHeader (.ofTokens [] .empty) = .error diagnostic final ∧
        final = .ofTokens [] .empty) ∧
    ∃ declared shadowed, OperatorTable.declare plusHeader .initial = .ok shadowed declared ∧
      declared = OperatorTable.initial.behind plusHeader ∧
      shadowed = some ⟨"+", 6, .infixLeft⟩ := by
  have hfound : (OperatorTable.initial.behindAll
      [plusHeader, unaryPlusHeader, unknownLevelHeader]).lookup "plus" .infixOp =
        some ⟨"plus", 4, .infixRight⟩ := by
    decide +kernel
  have hfails : Parse.declare unknownLevelHeader (.ofTokens [] .empty) =
      .error ⟨.undeclaredOperator "$$", ⟨32, 49⟩⟩ (.ofTokens [] .empty) := by
    rfl
  have hleft : OperatorTable.declare unknownLevelHeader .initial =
      .error ⟨.undeclaredOperator "$$", ⟨32, 49⟩⟩ .initial := by
    rfl
  obtain ⟨hlatest, htable, hkept, -⟩ := latest_declaration_wins
    [plusHeader, unaryPlusHeader, unknownLevelHeader] "plus" .infixOp ⟨"plus", 4, .infixRight⟩
    .initial unknownLevelHeader
  obtain ⟨-, -, -, hdeclared⟩ := latest_declaration_wins [] "plus" .infixOp
    ⟨"plus", 4, .infixRight⟩ .initial plusHeader
  refine ⟨?_, ⟨_, _, hleft, htable _ _ hleft⟩, ⟨_, _, hfails, hkept _ _ _ hfails⟩,
    ⟨_, _, rfl, (hdeclared _ _ rfl).1, by decide +kernel⟩⟩
  rcases hlatest.mp hfound with hlast | ⟨-, hbuiltin, -⟩
  · exact hlast
  · exact absurd hbuiltin (by decide +kernel)

end Equational

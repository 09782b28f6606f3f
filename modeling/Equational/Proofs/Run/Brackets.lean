import Equational.Proofs.Parse.Shared
import Equational.Proofs.Run.LastLambda

/-!
# Brackets and separators

The tokens of a run are nested in brackets of matching kinds, and the separators directly inside a
pair of brackets are all of one kind.  A run tells its pairs of brackets, one by one, and a list of
elements tells how many separators stand in it.
-/

namespace Equational

/-! ## Nested brackets -/

namespace TokenKind

def isDelimiter : TokenKind → Bool
  | mark .openParen | mark .closeParen | mark .openBracket | mark .closeBracket
  | mark .openCurly | mark .closeCurly | mark .comma | mark .semicolon => true
  | _ => false

theorem not_isDelimiter_of_isIdentifier {kind : TokenKind} (h : kind.isIdentifier) :
    kind.isDelimiter = false := by
  cases kind <;> first | rfl | cases h

theorem not_isDelimiter_of_isOperatorStart {kind : TokenKind} (h : kind.isOperatorStart) :
    kind.isDelimiter = false := by
  cases kind with
  | mark m => cases m <;> first | rfl | cases h
  | _ => rfl

end TokenKind

/-- A pair of brackets, and the separators directly inside it. -/
structure BracketPair where
  bracket : Bracket
  separators : List Separator
  deriving DecidableEq, Repr

def IsUniform (separators : List Separator) : Prop :=
  ∃ separator, ∀ other ∈ separators, other = separator

/-- Tokens whose brackets are closed in the order in which they are opened, each by one of its kind:
the separators outside of all brackets, and the pairs of brackets in the order of their openings. -/
inductive Nested : List TokenKind → List Separator → List BracketPair → Prop where
  | nil : Nested [] [] []
  | other {kind : TokenKind} {kinds : List TokenKind} {separators : List Separator}
    {pairs : List BracketPair} (hkind : kind.isDelimiter = false)
    (hrest : Nested kinds separators pairs) : Nested (kind :: kinds) separators pairs
  | separator {kind : TokenKind} {kinds : List TokenKind} {separator : Separator}
    {separators : List Separator} {pairs : List BracketPair}
    (hkind : Separator.ofKind? kind = some separator) (hrest : Nested kinds separators pairs) :
    Nested (kind :: kinds) (separator :: separators) pairs
  | pair {bracket : Bracket} {inside kinds : List TokenKind} {inner separators : List Separator}
    {innerPairs pairs : List BracketPair} (hinside : Nested inside inner innerPairs)
    (hrest : Nested kinds separators pairs) :
    Nested (.mark bracket.opening :: inside ++ .mark bracket.closing :: kinds) separators
      (⟨bracket, inner⟩ :: innerPairs ++ pairs)

namespace Nested

theorem append {first second : List TokenKind} {separators others : List Separator}
    {pairs morePairs : List BracketPair} (h : Nested first separators pairs)
    (h' : Nested second others morePairs) :
    Nested (first ++ second) (separators ++ others) (pairs ++ morePairs) := by
  induction h with
  | nil => exact h'
  | other hkind _ ih => exact .other hkind ih
  | separator hkind _ ih => exact .separator hkind ih
  | @pair bracket _ _ _ _ _ _ hinside _ _ ih =>
    have hpair := @pair bracket _ _ _ _ _ _ hinside ih
    simpa using hpair

theorem nesting_append {kinds : List TokenKind} {separators : List Separator}
    {pairs : List BracketPair} (h : Nested kinds separators pairs) (opened : List Bracket)
    (rest : List TokenKind) : nesting? opened (kinds ++ rest) = nesting? opened rest := by
  induction h generalizing opened rest with
  | nil => rfl
  | @other kind kinds _ _ hkind _ ih =>
    have hstep : nestingStep opened kind = some opened := by
      cases kind with
      | mark m => cases m <;> first | rfl | cases hkind
      | _ => rfl
    rw [List.cons_append, nesting?, hstep, Option.bind_some, ih]
  | @separator kind kinds _ _ _ hkind _ ih =>
    have hstep : nestingStep opened kind = some opened := by
      unfold Separator.ofKind? at hkind
      split at hkind <;> first | rfl | cases hkind
    rw [List.cons_append, nesting?, hstep, Option.bind_some, ih]
  | @pair bracket inside kinds _ _ _ _ _ _ ihInside ihRest =>
    have hopen : nestingStep opened (.mark bracket.opening) = some (bracket :: opened) := by
      cases bracket <;> rfl
    have hclose : nestingStep (bracket :: opened) (.mark bracket.closing) = some opened := by
      cases bracket <;> rfl
    rw [List.cons_append, List.cons_append, nesting?, hopen, Option.bind_some, List.append_assoc,
      ihInside, List.cons_append, nesting?, hclose, Option.bind_some, ihRest]

end Nested

/-! ## Pairs of brackets that a run tells -/

/-- A pair of brackets and its body; around an operator there is no body. -/
structure Enclosure where
  bracket : Bracket
  body : Option ContainerBody

mutual

def Run.enclosures : Run → List Enclosure
  | ⟨items, _⟩ => itemsEnclosures items

def itemsEnclosures : List RunItem → List Enclosure
  | [] => []
  | item :: rest => item.enclosures ++ itemsEnclosures rest

def RunItem.enclosures : RunItem → List Enclosure
  | .atom a => a.enclosures
  | .operator _ => []
  | .conditional condition thenBranch _ => condition.enclosures ++ optionEnclosures thenBranch

def Atom.enclosures : Atom → List Enclosure
  | .container bracket body _ => ⟨bracket, some body⟩ :: body.enclosures
  | .operatorLiteral _ _ => [⟨.paren, none⟩]
  | .partialApply _ operand _ _ => ⟨.paren, none⟩ :: operand.enclosures
  | .lambda parameters body _ => itemsEnclosures parameters ++ body.enclosures
  | .identifier _ _ | .declared _ _ | .typed _ _ _ | .number _ _ | .string _ _ => []

def ContainerBody.enclosures : ContainerBody → List Enclosure
  | .empty => []
  | .elements runs _ _ tail => runsEnclosures runs ++ optionEnclosures tail
  | .enumeration runs bound => runsEnclosures runs ++ optionEnclosures bound
  | .comprehension template generators => template.enclosures ++ runsEnclosures generators

def runsEnclosures : List Run → List Enclosure
  | [] => []
  | run :: rest => run.enclosures ++ runsEnclosures rest

def optionEnclosures : Option Run → List Enclosure
  | none => []
  | some run => run.enclosures

end

theorem Run.enclosures_eq (run : Run) : run.enclosures = itemsEnclosures run.items := by
  cases run
  rw [enclosures, items]

theorem Run.enclosures_ofItems (items : List RunItem) (fallback : Span) :
    (Run.ofItems items fallback).enclosures = itemsEnclosures items := by
  rw [ofItems, enclosures]

theorem itemsEnclosures_append (first second : List RunItem) :
    itemsEnclosures (first ++ second) = itemsEnclosures first ++ itemsEnclosures second := by
  induction first with
  | nil => rfl
  | cons item rest ih => simp [itemsEnclosures, ih]

theorem itemsEnclosures_singleton (item : RunItem) : itemsEnclosures [item] = item.enclosures := by
  simp [itemsEnclosures]

theorem runsEnclosures_append (first second : List Run) :
    runsEnclosures (first ++ second) = runsEnclosures first ++ runsEnclosures second := by
  induction first with
  | nil => rfl
  | cons run rest ih => simp [runsEnclosures, ih]

theorem runsEnclosures_singleton (run : Run) : runsEnclosures [run] = run.enclosures := by
  simp [runsEnclosures]

def ContainerBody.Separated (separators : List Separator) : ContainerBody → Prop
  | .empty => separators = []
  | .elements runs separator trailing _ =>
    separators.length + 1 = runs.length + (if trailing then 1 else 0) ∧
      (separator = none ↔ separators = []) ∧ ∀ other ∈ separators, separator = some other
  | .enumeration runs _ => separators.length + 1 = runs.length
  | .comprehension _ generators => separators.length + 1 = generators.length

structure Enclosure.Fits (enclosure : Enclosure) (pair : BracketPair) : Prop where
  bracket : enclosure.bracket = pair.bracket
  operator : enclosure.body = none → pair.separators = []
  body : ∀ body ∈ enclosure.body, body.Separated pair.separators

private theorem operatorForm_enclosures {run : Run} {span : Span} {a : Atom}
    (h : operatorForm? run span = some a) : a.enclosures = ⟨.paren, none⟩ :: run.enclosures := by
  rw [run.enclosures_eq]
  unfold operatorForm? at h
  split at h
  · rename_i op hitems
    cases h
    rw [hitems, itemsEnclosures_singleton, Atom.enclosures, RunItem.enclosures]
  · rename_i op rest _ hitems
    cases h
    rw [hitems, Atom.enclosures, Run.enclosures_ofItems, itemsEnclosures, RunItem.enclosures,
      List.nil_append]
  · split at h
    · rename_i op hlast
      cases h
      obtain ⟨front, hitems⟩ := List.getLast?_eq_some_iff.mp hlast
      rw [hitems, Atom.enclosures, Run.enclosures_ofItems, List.dropLast_concat,
        itemsEnclosures_append, itemsEnclosures_singleton, RunItem.enclosures, List.append_nil]
    · cases h

/-- An operator in parentheses tells the same pair of brackets as a list of one element. -/
theorem closedContainer_enclosures (bracket : Bracket) (body : ContainerBody) (span : Span) :
    ∃ content, (closedContainer bracket body span).enclosures =
      ⟨bracket, content⟩ :: body.enclosures ∧
        ∀ separators, body.Separated separators →
          Enclosure.Fits ⟨bracket, content⟩ ⟨bracket, separators⟩ := by
  have hplain (body : ContainerBody) (separators : List Separator)
      (h : body.Separated separators) :
      Enclosure.Fits ⟨bracket, some body⟩ ⟨bracket, separators⟩ := by
    refine ⟨rfl, nofun, ?_⟩
    rintro _ ⟨⟩
    exact h
  unfold closedContainer
  split
  · rename_i run
    cases hform : operatorForm? run span with
    | none => exact ⟨some _, by rw [Option.getD_none, Atom.enclosures], hplain _⟩
    | some a =>
      refine ⟨none, ?_, fun separators h => ⟨rfl, fun _ => h.2.1.mp rfl, nofun⟩⟩
      rw [Option.getD_some, operatorForm_enclosures hform, ContainerBody.enclosures,
        runsEnclosures_singleton, optionEnclosures, List.append_nil]
  · exact ⟨some body, by rw [Atom.enclosures], hplain body⟩

/-! ## Passing nested tokens -/

/-- The tokens are nested in the brackets that are told, with such separators outside of them. -/
def Bracketed (tokens : List Token) (separators : List Separator) (enclosures : List Enclosure) :
    Prop :=
  ∃ pairs, Nested (tokens.map Token.kind) separators pairs ∧
    (∀ pair ∈ pairs, IsUniform pair.separators) ∧ List.Forall₂ Enclosure.Fits enclosures pairs

namespace Cursor

def Encloses (cursor : Cursor) (separators : List Separator) (enclosures : List Enclosure)
    (after : Cursor) : Prop :=
  ∃ taken, cursor.Passage taken after ∧ Bracketed taken separators enclosures

variable {cursor first middle last after : Cursor} {token opening closing : Token}
  {separators others : List Separator} {enclosures more : List Enclosure}

namespace Encloses

theorem nil (cursor : Cursor) : cursor.Encloses [] [] cursor :=
  ⟨[], .refl cursor, [], .nil, nofun, .nil⟩

theorem split (hdot : beginsWithDot cursor.current) : cursor.Encloses [] [] (cursor.split 1) :=
  ⟨[], .split hdot (.refl _), [], .nil, nofun, .nil⟩

theorem append (h : cursor.Encloses separators enclosures middle)
    (h' : middle.Encloses others more after) :
    cursor.Encloses (separators ++ others) (enclosures ++ more) after := by
  obtain ⟨taken, hpassage, pairs, hnested, huniform, hfits⟩ := h
  obtain ⟨taken', hpassage', pairs', hnested', huniform', hfits'⟩ := h'
  refine ⟨taken ++ taken', hpassage.trans hpassage', pairs ++ pairs', ?_, ?_, ?_⟩
  · rw [List.map_append]
    exact hnested.append hnested'
  · exact List.forall_mem_append.mpr ⟨huniform, huniform'⟩
  · exact List.rel_append hfits hfits'

end Encloses

namespace Takes

variable (htakes : cursor.Takes token after)

include htakes

theorem encloses_other (hkind : token.kind.isDelimiter = false) : cursor.Encloses [] [] after :=
  ⟨[token], .single htakes, [], .other hkind .nil, nofun, .nil⟩

theorem encloses_separator {separator : Separator}
    (hkind : Separator.ofKind? token.kind = some separator) :
    cursor.Encloses [separator] [] after :=
  ⟨[token], .single htakes, [], .separator hkind .nil, nofun, .nil⟩

end Takes

def Fills (cursor : Cursor) (body : ContainerBody) (after : Cursor) : Prop :=
  ∃ separators, cursor.Encloses separators body.enclosures after ∧ IsUniform separators ∧
    body.Separated separators

theorem Fills.enclosed {bracket : Bracket} {body : ContainerBody}
    (h : first.Fills body last) (hopening : cursor.Takes opening first)
    (hopen : opening.kind = .mark bracket.opening) (hclosing : last.Takes closing after)
    (hclose : closing.kind = .mark bracket.closing) (span : Span) :
    cursor.Encloses [] (closedContainer bracket body span).enclosures after := by
  obtain ⟨separators, ⟨taken, hpassage, pairs, hnested, hpairs, hfits⟩, huniform, hseparated⟩ := h
  obtain ⟨content, hcontent, hfit⟩ := closedContainer_enclosures bracket body span
  refine ⟨opening :: taken ++ [closing],
    (Passage.take hopening hpassage).trans (.single hclosing), ⟨bracket, separators⟩ :: pairs,
    ?_, ?_, ?_⟩
  · have hpair := @Nested.pair bracket _ _ _ _ _ _ hnested .nil
    simpa [hopen, hclose] using hpair
  · exact List.forall_mem_cons.mpr ⟨huniform, hpairs⟩
  · rw [hcontent]
    exact .cons (hfit separators hseparated) hfits

end Cursor

/-! ## Parts of runs -/

theorem IsUniform.nil : IsUniform [] := ⟨.comma, nofun⟩

theorem IsUniform.append {separators others : List Separator} {separator : Separator}
    (h : ∀ other ∈ separators, other = separator) (h' : ∀ other ∈ others, other = separator) :
    IsUniform (separators ++ others) := ⟨separator, List.forall_mem_append.mpr ⟨h, h'⟩⟩

namespace Grammar

theorem Operator.encloses {cursor after : Cursor} {op : OperatorUse}
    (h : Operator cursor op after) (hkind : cursor.current.kind.isOperatorStart) :
    cursor.Encloses [] [] after := by
  have hfirst {token : Token} {middle : Cursor} (htoken : cursor.Takes token middle) :
      cursor.Encloses [] [] middle :=
    htoken.encloses_other
      (TokenKind.not_isDelimiter_of_isOperatorStart (htoken.current_eq ▸ hkind))
  cases h with
  | joined htoken _ hsecond hword =>
    exact (hfirst htoken).append (hsecond.encloses_other (by rw [hword]; rfl))
  | plain htoken => exact hfirst htoken

theorem Named.encloses {context : RunContext} {cursor after : Cursor} {a : Atom}
    (h : Named context cursor a after) (hkind : cursor.current.kind.isIdentifier) :
    cursor.Encloses [] a.enclosures after := by
  have hfirst {token : Token} {middle : Cursor} (htoken : cursor.Takes token middle) :
      cursor.Encloses [] [] middle :=
    htoken.encloses_other
      (TokenKind.not_isDelimiter_of_isIdentifier (htoken.current_eq ▸ hkind))
  cases h with
  | typed htoken _ hcolon hmark htype hidentifier =>
    rw [Atom.enclosures]
    exact (hfirst htoken).append ((hcolon.encloses_other (by rw [hmark]; rfl)).append
      (htype.encloses_other (TokenKind.not_isDelimiter_of_isIdentifier hidentifier)))
  | plain htoken =>
    rw [Atom.enclosures]
    exact hfirst htoken

theorem Stop.encloses {context : RunContext} {started : Bool} {cursor after : Cursor}
    (h : Stop context started cursor after) : cursor.Encloses [] [] after := by
  cases h with
  | glued hdot => exact .split hdot
  | _ => exact .nil cursor

section Parts

variable {Inner : RunContext → Cursor → Run → Cursor → Prop}
  (hinner : ∀ {context cursor run after}, Inner context cursor run after →
    cursor.Encloses [] run.enclosures after)

include hinner

variable {bracket : Bracket} {start cursor after : Cursor} {body : ContainerBody}
  {separators : List Separator}

/-! ## Containers -/

theorem Enumeration.fills {runs : List Run}
    (hruns : start.Encloses separators (runsEnclosures runs) cursor)
    (huniform : IsUniform separators) (hcount : separators.length + 1 = runs.length)
    (hkind : cursor.current.kind = .mark .dotDot)
    (h : Enumeration Inner bracket runs cursor body after) : start.Fills body after := by
  cases h with
  | unbounded hdots =>
    refine ⟨separators, ?_, huniform, hcount⟩
    have hpassed := hruns.append (hdots.encloses_other (by rw [hdots.kind_eq hkind]; rfl))
    simpa [ContainerBody.enclosures, optionEnclosures] using hpassed
  | bounded hdots _ _ hbound =>
    refine ⟨separators, ?_, huniform, hcount⟩
    have hpassed := (hruns.append (hdots.encloses_other (by rw [hdots.kind_eq hkind]; rfl))).append
      (hinner hbound)
    simpa [ContainerBody.enclosures, optionEnclosures] using hpassed

theorem Generators.encloses {separator : Option Separator} {runs : List Run}
    (h : Generators Inner separator cursor runs after) :
    ∃ separators, cursor.Encloses separators (runsEnclosures runs) after ∧
      separators.length = runs.length ∧
      ∃ single, (∀ other ∈ separator, other = single) ∧ ∀ other ∈ separators, other = single := by
  induction h with
  | @done separator cursor =>
    refine ⟨[], .nil cursor, rfl, separator.getD .comma, ?_, nofun⟩
    rintro other hother
    rw [Option.mem_def.mp hother, Option.getD_some]
  | @more separator next _ _ _ _ _ _ _ htoken hnext hsame hrun _ ih =>
    obtain ⟨separators, hrest, hlength, single, hsingle, hall⟩ := ih
    obtain rfl := hsingle next rfl
    refine ⟨next :: separators, ?_, congrArg (· + 1) hlength, next, hsame,
      List.forall_mem_cons.mpr ⟨rfl, hall⟩⟩
    rw [runsEnclosures]
    exact ((htoken.encloses_separator hnext).append (hinner hrun)).append hrest

theorem Elements.fills {separator : Separator} {found : List Run}
    (hfound : start.Encloses separators (runsEnclosures found) cursor)
    (hsame : ∀ other ∈ separators, other = separator)
    (hcount : separators.length + 1 = found.length)
    (hsome : separators ≠ [] ∨ (Separator.ofKind? cursor.current.kind).isSome)
    (h : Elements Inner bracket separator found cursor body after) : start.Fills body after := by
  induction h generalizing separators with
  | more htoken hnext _ hrun _ ih =>
    refine ih ?_ (List.forall_mem_append.mpr ⟨hsame, List.forall_mem_singleton.mpr rfl⟩) ?_
      (.inl (by simp))
    · rw [runsEnclosures_append, runsEnclosures_singleton]
      exact hfound.append ((htoken.encloses_separator hnext).append (hinner hrun))
    · simp [hcount]
  | trailing htoken hnext =>
    refine ⟨separators ++ [separator], ?_, .append hsame (List.forall_mem_singleton.mpr rfl), ?_⟩
    · simpa [ContainerBody.enclosures, optionEnclosures] using
        hfound.append (htoken.encloses_separator hnext)
    · refine ⟨by simp [hcount], by simp, ?_⟩
      simpa [or_imp, forall_and, eq_comm] using hsame
  | enumeration hdots hbody => exact hbody.fills hinner hfound ⟨separator, hsame⟩ hcount hdots
  | tail hbar hkind hlast =>
    have hne : separators ≠ [] := by
      refine hsome.resolve_right ?_
      rw [hbar.current_eq, hkind]
      exact nofun
    refine ⟨separators, ?_, ⟨separator, hsame⟩, by simpa using hcount, by simp [hne],
      fun other hmem => by rw [hsame other hmem]⟩
    have hpassed := hfound.append
      ((hbar.encloses_other (by rw [hkind]; rfl)).append (hinner hlast))
    simpa [ContainerBody.enclosures, optionEnclosures] using hpassed
  | done hnone =>
    have hne : separators ≠ [] := by
      refine hsome.resolve_right ?_
      rw [hnone]
      exact nofun
    refine ⟨separators, ?_, ⟨separator, hsame⟩, by simpa using hcount, by simp [hne],
      fun other hmem => by rw [hsame other hmem]⟩
    simpa [ContainerBody.enclosures, optionEnclosures] using hfound

theorem Body.fills {first : Run} (hfirst : start.Encloses [] first.enclosures cursor)
    (h : Body Inner bracket first cursor body after) : start.Fills body after := by
  have hfound : start.Encloses [] (runsEnclosures [first]) cursor := by
    rwa [runsEnclosures_singleton]
  have helements {separator : Separator}
      (hkind : Separator.ofKind? cursor.current.kind = some separator)
      (h : Elements Inner bracket separator [first] cursor body after) : start.Fills body after :=
    h.fills hinner hfound nofun rfl (.inr (by rw [hkind]; rfl))
  unfold Body at h
  split at h
  · exact h.fills hinner hfound .nil rfl ‹_›
  · obtain ⟨colon, middle, generator, last, generators, hcolon, hgenerator, hgenerators, rfl⟩ := h
    obtain ⟨separators, hrest, hlength, single, -, hall⟩ := hgenerators.encloses hinner
    refine ⟨separators, ?_, ⟨single, hall⟩, congrArg (· + 1) hlength⟩
    rw [ContainerBody.enclosures, runsEnclosures]
    exact hfirst.append ((hcolon.encloses_other (by rw [hcolon.kind_eq ‹_›]; rfl)).append
      ((hinner hgenerator).append hrest))
  · exact helements (by rw [‹cursor.current.kind = _›]; rfl) h
  · exact helements (by rw [‹cursor.current.kind = _›]; rfl) h
  · obtain ⟨bar, middle, last, hbar, hlast, rfl⟩ := h
    refine ⟨[], ?_, .nil, rfl, by simp, nofun⟩
    have hpassed := hfound.append
      ((hbar.encloses_other (by rw [hbar.kind_eq ‹_›]; rfl)).append (hinner hlast))
    simpa [ContainerBody.enclosures, optionEnclosures] using hpassed
  · obtain ⟨-, rfl, rfl⟩ := h
    refine ⟨[], ?_, .nil, rfl, by simp, nofun⟩
    simpa [ContainerBody.enclosures, optionEnclosures] using hfound

/-- Whatever the first token is, it stands in front of a body and of the bracket that closes it. -/
theorem Container.exists_fills {a : Atom} (h : Container Inner cursor a after) :
    ∃ opening first body last closing span, cursor.Takes opening first ∧ first.Fills body last ∧
      last.Takes closing after ∧ closing.kind = .mark (Bracket.ofOpening opening.kind).closing ∧
      a = closedContainer (.ofOpening opening.kind) body span := by
  cases h with
  | @empty middle _ opening closing hopening hclosing hkind =>
    refine ⟨opening, middle, .empty, middle, closing, _, hopening, ⟨[], ?_, .nil, rfl⟩, hclosing,
      hkind, (closedContainer_empty _ _).symm⟩
    rw [ContainerBody.enclosures]
    exact .nil middle
  | filled hopening _ hfirst hbody hclosing hkind =>
    exact ⟨_, _, _, _, _, _, hopening, hbody.fills hinner (hinner hfirst), hclosing, hkind, rfl⟩

theorem Container.encloses {a : Atom} (hkind : isOpening cursor.current.kind)
    (h : Container Inner cursor a after) : cursor.Encloses [] a.enclosures after := by
  obtain ⟨opening, first, body, last, closing, span, hopening, hbody, hclosing, hclose, rfl⟩ :=
    h.exists_fills hinner
  have hopen := kind_of_isOpening hkind
  rw [hopening.current_eq] at hopen
  exact hbody.enclosed hopening hopen hclosing hclose span

/-! ## Lambdas and conditionals -/

variable {context : RunContext}

theorem Lambda.encloses {a : Atom} (hkind : cursor.current.kind = .mark .backslash)
    (h : Lambda Inner context cursor a after) : cursor.Encloses [] a.enclosures after := by
  cases h with
  | intro hbackslash hparameters hdot hmark hbody =>
    rw [Atom.enclosures, ← Run.enclosures_eq]
    exact ((hbackslash.encloses_other (by rw [hbackslash.kind_eq hkind]; rfl)).append
      (hinner hparameters)).append
        ((hdot.encloses_other (by rw [hmark]; rfl)).append (hinner hbody))

theorem Conditional.encloses {items : List RunItem} (hkind : cursor.current.kind = .word .ifWord)
    (h : Conditional Inner context cursor items after) :
    cursor.Encloses [] (itemsEnclosures items) after := by
  cases h with
  | withElse hopening hcondition hjoining hthen hbranch hclosing helse =>
    rw [itemsEnclosures_singleton, RunItem.enclosures, optionEnclosures]
    have hfront := (hopening.encloses_other (by rw [hopening.kind_eq hkind]; rfl)).append
      (hinner hcondition)
    have hback := (hjoining.encloses_other (by rw [hthen]; rfl)).append
      ((hinner hbranch).append (hclosing.encloses_other (by rw [helse]; rfl)))
    simpa using hfront.append hback
  | withoutElse hopening hcondition hjoining hthen hbranch =>
    rw [itemsEnclosures, RunItem.enclosures, optionEnclosures, List.append_nil,
      ← Run.enclosures_eq]
    exact ((hopening.encloses_other (by rw [hopening.kind_eq hkind]; rfl)).append
      (hinner hcondition)).append
        ((hjoining.encloses_other (by rw [hthen]; rfl)).append (hinner hbranch))

/-! ## Items -/

variable {started : Bool} {items : List RunItem}

theorem Next.encloses (h : Next Inner context started cursor items after) :
    cursor.Encloses [] (itemsEnclosures items) after := by
  cases h with
  | named hkind h =>
    rw [itemsEnclosures_singleton, RunItem.enclosures]
    exact h.encloses hkind
  | declared htoken hkind hname hidentifier =>
    rw [itemsEnclosures_singleton, RunItem.enclosures, Atom.enclosures]
    exact (htoken.encloses_other (by rw [hkind]; rfl)).append
      (hname.encloses_other (TokenKind.not_isDelimiter_of_isIdentifier hidentifier))
  | number htoken hkind =>
    rw [itemsEnclosures_singleton, RunItem.enclosures, Atom.enclosures]
    exact htoken.encloses_other (by rw [hkind]; rfl)
  | string htoken hkind =>
    rw [itemsEnclosures_singleton, RunItem.enclosures, Atom.enclosures]
    exact htoken.encloses_other (by rw [hkind]; rfl)
  | container hkind h =>
    rw [itemsEnclosures_singleton, RunItem.enclosures]
    exact h.encloses hinner hkind
  | lambda hkind h =>
    rw [itemsEnclosures_singleton, RunItem.enclosures]
    exact h.encloses hinner hkind
  | conditional hkind _ h => exact h.encloses hinner hkind
  | operator hkind h =>
    rw [itemsEnclosures_singleton, RunItem.enclosures]
    exact h.encloses hkind

theorem Items.encloses (h : Items Inner context started cursor items after) :
    cursor.Encloses [] (itemsEnclosures items) after := by
  induction h with
  | stop h =>
    rw [itemsEnclosures]
    exact (stop_of_answer _ _ _ h).encloses
  | next h _ ih =>
    rw [itemsEnclosures_append]
    exact ((next_of_answer _ _ _ h).encloses hinner).append ih

end Parts

theorem Collects.encloses {depth : Nat} {context : RunContext} {cursor after : Cursor} {run : Run}
    (h : Collects depth context cursor run after) : cursor.Encloses [] run.enclosures after := by
  induction depth generalizing context cursor run after with
  | zero => exact h.elim
  | succ depth ih =>
    obtain ⟨items, hitems, rfl⟩ := h
    rw [Run.enclosures_ofItems]
    exact hitems.encloses ih

end Grammar

/-! ## Containers at the end of the input -/

namespace Cursor

theorem Passage.eq_of_end {cursor after : Cursor} {taken : List Token}
    (h : cursor.Passage taken after) (hend : cursor.current.kind = .endOfInput) :
    after = cursor := by
  cases h with
  | refl => rfl
  | take htakes =>
    rw [htakes.current_eq] at hend
    cases htakes
    contradiction
  | split hdot =>
    rw [(kind_of_beginsWithDot hdot).1] at hend
    cases hend

private theorem advance_eq_self {cursor : Cursor} (hend : cursor.current.kind = .endOfInput) :
    cursor.advance = cursor := by
  obtain ⟨passed, ahead⟩ := cursor
  cases ahead with
  | nil => rfl
  | cons token rest => exact if_pos hend

end Cursor

namespace Parse

theorem Follows.advance_end {α : Type} {cursor : Cursor} {next : Token → Parse α}
    {G : α → Cursor → Prop} (hend : cursor.current.kind = .endOfInput)
    (hnext : Follows cursor (next cursor.current) G) :
    Follows cursor (Parse.advance >>= next) G where
  ok_iff state hstate hlimit value final := by
    have hstep : Parse.advance state = .ok state.cursor.current state := by
      have hself := Cursor.advance_eq_self (hstate ▸ hend)
      change EStateM.Result.ok _ { state with cursor := state.cursor.advance } = _
      rw [hself]
    rw [← hnext.ok_iff state hstate hlimit, bind_eq_ok_iff, hstep, hstate]
    constructor
    · rintro ⟨_, _, ⟨⟩, hvalue⟩
      exact hvalue
    · exact fun hvalue => ⟨_, _, rfl, hvalue⟩
  passes := hnext.passes

end Parse

open Parse Grammar

def CollectsAny (context : RunContext) (cursor : Cursor) : Run → Cursor → Prop :=
  Collects cursor.weight context cursor

theorem followsWithin_run (bound : Nat) : FollowsWithin bound Parse.run CollectsAny :=
  fun context _ hended _ => follows_run context hended

private theorem not_container_at_end {cursor : Cursor} (hended : cursor.IsEnded)
    (hend : cursor.current.kind = .endOfInput) :
    Follows cursor Parse.container fun _ _ => False := by
  have hclosing : cursor.current.kind ≠
      .mark (Bracket.ofOpening cursor.current.kind).closing := by
    rw [hend]
    exact nofun
  have hinner := followsWithin_run cursor.weight
  have hbody {bracket : Bracket} {first : Run} {body : ContainerBody} {after : Cursor} :
      ¬Body CollectsAny bracket first cursor body after := by
    unfold Body
    rw [hend]
    exact nofun
  refine .advance_end hend (.reject hclosing (Follows.congr
    ((hinner _ _ hended (Nat.le_refl _)).bind (N := fun _ _ _ _ => False)
      fun first middle taken _ hpassage => ?_) fun _ _ => by simp))
  obtain rfl := hpassage.eq_of_end hend
  exact ((follows_collectBody hinner hended (Nat.le_refl _) _ first).bind
    (N := fun _ _ _ _ => False) fun _ _ _ h _ => (hbody h).elim).congr fun _ _ => by simp

theorem exists_container {state final : ParseState} (hended : state.cursor.IsEnded)
    (hlimit : state.cursor.weight ≤ state.limit) {a : Atom}
    (h : Parse.container state = .ok a final) :
    Container CollectsAny state.cursor a final.cursor := by
  by_cases hend : state.cursor.current.kind = .endOfInput
  · obtain ⟨_, hnone, -⟩ :=
      ((not_container_at_end hended hend).ok_iff state rfl hlimit a final).mp h
    exact hnone.elim
  · have hadvances := advances_collectContainer (followsWithin_run state.cursor.weight) hended
      (Nat.le_succ _) hend
    obtain ⟨after, hcontainer, rfl⟩ :=
      (hadvances.toFollows.ok_iff state rfl hlimit a final).mp h
    exact hcontainer

/-! ## What is passed -/

/-- The tokens of a run and those of a container are nested in the pairs of brackets that it tells,
each with separators of one kind and as many as it tells.  A container that begins with no bracket
is closed by a curly one. -/
theorem brackets_match {state : ParseState} (hended : state.cursor.IsEnded)
    (hlimit : state.cursor.weight ≤ state.limit) :
    (∀ context run final, Parse.run context state = .ok run final →
      ∃ taken, final.cursor.passed = taken.reverse ++ state.cursor.passed ∧
        Bracketed taken [] run.enclosures) ∧
    (∀ a final, Parse.container state = .ok a final → isOpening state.cursor.current.kind →
      ∃ taken, final.cursor.passed = taken.reverse ++ state.cursor.passed ∧
        Bracketed taken [] a.enclosures) ∧
    ∀ a final, Parse.container state = .ok a final →
      let bracket := Bracket.ofOpening state.cursor.current.kind
      ∃ inside closing separators content enclosures,
        final.cursor.passed =
          (state.cursor.current :: inside ++ [closing]).reverse ++ state.cursor.passed ∧
        closing.kind = .mark bracket.closing ∧
        Bracketed inside separators enclosures ∧ IsUniform separators ∧
        a.enclosures = ⟨bracket, content⟩ :: enclosures ∧
        Enclosure.Fits ⟨bracket, content⟩ ⟨bracket, separators⟩ := by
  refine ⟨fun context run final h => ?_, fun a final h hkind => ?_, fun a final h => ?_⟩
  · obtain ⟨after, hcollects, rfl⟩ :=
      ((follows_run context hended).ok_iff state rfl hlimit run final).mp h
    obtain ⟨taken, hpassage, hbracketed⟩ := hcollects.encloses
    exact ⟨taken, hpassage.passed_eq, hbracketed⟩
  · obtain ⟨taken, hpassage, hbracketed⟩ :=
      (exists_container hended hlimit h).encloses Collects.encloses hkind
    exact ⟨taken, hpassage.passed_eq, hbracketed⟩
  · obtain ⟨opening, first, body, last, closing, span, hopening, hbody, hclosing, hclose, rfl⟩ :=
      (exists_container hended hlimit h).exists_fills Collects.encloses
    obtain ⟨separators, ⟨inside, hpassage, hbracketed⟩, huniform, hseparated⟩ := hbody
    obtain ⟨content, hcontent, hfits⟩ := closedContainer_enclosures (.ofOpening opening.kind) body
      span
    rw [hopening.current_eq]
    refine ⟨inside, closing, separators, content, body.enclosures, ?_, hclose, hbracketed, huniform,
      hcontent, hfits separators hseparated⟩
    exact ((Cursor.Passage.take hopening hpassage).trans (.single hclosing)).passed_eq

def bracketText : String :=
  "[1, 2,] (+) \x7b1; (2) .. 9\x7d [X : X = L, X > (- 1), f (a; b | c)] (div 2)"

theorem bracketText_match :
    ∃ lexed run a final rest, Lexed.ofSource bracketText = .ok lexed ∧
      Parse.run {} (.ofTokens lexed.tokens lexed.errors) = .ok run final ∧
      run.enclosures.length = 8 ∧ final.hasTokens = false ∧
      Parse.container (.ofTokens lexed.tokens lexed.errors) = .ok a rest ∧
      (∃ taken, final.cursor.passed = taken.reverse ∧ Bracketed taken [] run.enclosures) ∧
      ∃ taken, rest.cursor.passed = taken.reverse ∧ Bracketed taken [] a.enclosures := by
  obtain ⟨lexed, hlexed, houtcome⟩ := exists_of_map_eq_ok
    (f := fun lexed : Lexed =>
      let start := ParseState.ofTokens lexed.tokens lexed.errors
      match Parse.run {} start, Parse.container start with
      | .ok run final, .ok _ _ => some (run.enclosures.length, final.hasTokens,
        isOpening start.cursor.current.kind)
      | _, _ => none)
    (by decide +kernel : (Lexed.ofSource bracketText).map _ = .ok (some (8, false, true)))
  have hsound := isSound_start hlexed
  have hstart : (ParseState.ofTokens lexed.tokens lexed.errors).cursor.passed = [] := by
    have hcursor := cursor_start hlexed
    change (ParseState.ofTokens lexed.tokens lexed.errors).cursor = _ at hcursor
    rw [hcursor]
  dsimp only at houtcome
  split at houtcome
  · rename_i run final a rest hrun hcontainer
    obtain ⟨hcount, hends, hopening⟩ := by simpa using houtcome
    obtain ⟨hruns, hcontainers, -⟩ := brackets_match hsound.isEnded hsound.weight_le
    obtain ⟨taken, hpassed, hbracketed⟩ := hruns {} run final hrun
    obtain ⟨inside, hinside, henclosed⟩ := hcontainers a rest hcontainer hopening
    rw [hstart, List.append_nil] at hpassed hinside
    exact ⟨lexed, run, a, final, rest, hlexed, hrun, hcount, hends, hcontainer,
      ⟨taken, hpassed, hbracketed⟩, inside, hinside, henclosed⟩
  · cases houtcome

/-- A container that begins with a name is closed by a bracket that nothing has opened. -/
theorem unopened_container :
    ∃ lexed a final, Lexed.ofSource "x \x7d" = .ok lexed ∧
      Parse.container (.ofTokens lexed.tokens lexed.errors) = .ok a final ∧
      ¬∃ taken separators enclosures, final.cursor.passed = taken.reverse ∧
        Bracketed taken separators enclosures := by
  obtain ⟨lexed, hlexed, houtcome⟩ := exists_of_map_eq_ok
    (f := fun lexed : Lexed =>
      match Parse.container (.ofTokens lexed.tokens lexed.errors) with
      | .ok _ final => some (nesting? [] (final.cursor.passed.reverse.map Token.kind))
      | .error _ _ => none)
    (by decide +kernel : (Lexed.ofSource "x \x7d").map _ = .ok (some none))
  split at houtcome
  · rename_i a final hcontainer
    refine ⟨lexed, a, final, hlexed, hcontainer, ?_⟩
    rintro ⟨taken, separators, enclosures, hpassed, pairs, hnested, -⟩
    have hnesting := hnested.nesting_append [] []
    rw [hpassed, List.reverse_reverse] at houtcome
    rw [List.append_nil, Option.some.inj houtcome] at hnesting
    cases hnesting
  · cases houtcome

end Equational

import Equational.Proofs.Parse.Follows

/-!
# The grammar of runs

What each step that collects a part of a run takes and gives, as a relation between the cursors in
front of the part and behind it.  The relations have the relation for inner runs as a parameter, as
the steps have the step for inner runs.  A step succeeds just as its relation says.
-/

namespace Equational

open Parse

namespace Grammar

/-! ## Operators and identifiers -/

def joined? : TokenKind → Option (Keyword × String)
  | .word .andWord => some (.thenWord, "and then")
  | .word .orWord => some (.elseWord, "or else")
  | _ => none

inductive Operator : Cursor → OperatorUse → Cursor → Prop where
  | joined {cursor middle after : Cursor} {token second : Token} {follower : Keyword}
    {symbol : String} (htoken : cursor.Takes token middle)
    (hjoined : joined? token.kind = some (follower, symbol)) (hsecond : middle.Takes second after)
    (hkind : second.kind = .word follower) :
    Operator cursor ⟨⟨symbol, none⟩, token.span.through second.span⟩ after
  | plain {cursor after : Cursor} {token : Token} (htoken : cursor.Takes token after)
    (hplain : ∀ follower symbol, joined? token.kind = some (follower, symbol) →
      after.current.kind ≠ .word follower) :
    Operator cursor ⟨⟨token.value, token.moduleName⟩, token.span⟩ after

def typable (context : RunContext) (token : Token) : Bool :=
  token.kind = .variableName && !token.isQualified && !context.stopAtColon

inductive Named (context : RunContext) : Cursor → Atom → Cursor → Prop where
  | typed {cursor first second after : Cursor} {token colon typeToken : Token}
    (htoken : cursor.Takes token first) (htypable : typable context token)
    (hcolon : first.Takes colon second) (hkind : colon.kind = .mark .colon)
    (htype : second.Takes typeToken after) (hidentifier : typeToken.kind.isIdentifier) :
    Named context cursor
      (.typed (.ofToken token) (.ofToken typeToken) (token.span.through typeToken.span)) after
  | plain {cursor after : Cursor} {token : Token} (htoken : cursor.Takes token after)
    (hplain : ¬(typable context token ∧ after.current.kind = .mark .colon ∧
      (after.peek 1).kind.isIdentifier)) :
    Named context cursor (.identifier (.ofToken token) token.span) after

section Parts

variable (Inner : RunContext → Cursor → Run → Cursor → Prop)

/-! ## Containers -/

inductive Enumeration (bracket : Bracket) (runs : List Run) :
    Cursor → ContainerBody → Cursor → Prop where
  | unbounded {cursor after : Cursor} {dots : Token} (hdots : cursor.Takes dots after)
    (hruns : runs.any Run.isEmpty = false) (hclosing : after.current.kind = .mark bracket.closing) :
    Enumeration bracket runs cursor (.enumeration runs none) after
  | bounded {cursor middle after : Cursor} {dots : Token} {bound : Run}
    (hdots : cursor.Takes dots middle) (hruns : runs.any Run.isEmpty = false)
    (hopen : middle.current.kind ≠ .mark bracket.closing) (hbound : Inner {} middle bound after) :
    Enumeration bracket runs cursor (.enumeration runs (some bound)) after

inductive Generators : Option Separator → Cursor → List Run → Cursor → Prop where
  | done {separator : Option Separator} {cursor : Cursor}
    (hnone : Separator.ofKind? cursor.current.kind = none) : Generators separator cursor [] cursor
  | more {separator : Option Separator} {next : Separator} {cursor first second after : Cursor}
    {token : Token} {run : Run} {runs : List Run} (htoken : cursor.Takes token first)
    (hnext : Separator.ofKind? token.kind = some next) (hsame : ∀ other ∈ separator, other = next)
    (hrun : Inner {} first run second) (hrest : Generators (some next) second runs after) :
    Generators separator cursor (run :: runs) after

inductive Elements (bracket : Bracket) (separator : Separator) :
    List Run → Cursor → ContainerBody → Cursor → Prop where
  | more {found : List Run} {cursor first second after : Cursor} {token : Token} {run : Run}
    {body : ContainerBody} (htoken : cursor.Takes token first)
    (hnext : Separator.ofKind? token.kind = some separator)
    (hopen : first.current.kind ≠ .mark bracket.closing) (hrun : Inner {} first run second)
    (hrest : Elements bracket separator (found ++ [run]) second body after) :
    Elements bracket separator found cursor body after
  | trailing {found : List Run} {cursor after : Cursor} {token : Token}
    (htoken : cursor.Takes token after) (hnext : Separator.ofKind? token.kind = some separator)
    (hclosing : after.current.kind = .mark bracket.closing) :
    Elements bracket separator found cursor (.elements found (some separator) true none) after
  | enumeration {found : List Run} {cursor after : Cursor} {body : ContainerBody}
    (hdots : cursor.current.kind = .mark .dotDot)
    (hbody : Enumeration Inner bracket found cursor body after) :
    Elements bracket separator found cursor body after
  | tail {found : List Run} {cursor middle after : Cursor} {bar : Token} {last : Run}
    (hbar : cursor.Takes bar middle) (hkind : bar.kind = .mark .pipe)
    (hlast : Inner {} middle last after) :
    Elements bracket separator found cursor
      (.elements found (some separator) false (some last)) after
  | done {found : List Run} {cursor : Cursor} (hnone : Separator.ofKind? cursor.current.kind = none)
    (hdots : cursor.current.kind ≠ .mark .dotDot) (hbar : cursor.current.kind ≠ .mark .pipe) :
    Elements bracket separator found cursor (.elements found (some separator) false none) cursor

variable {Inner} in
theorem Elements.of_separator {bracket : Bracket} {separator next : Separator} {found : List Run}
    {cursor first after : Cursor} {token : Token} {body : ContainerBody}
    (h : Elements Inner bracket separator found cursor body after)
    (htoken : cursor.Takes token first) (hnext : Separator.ofKind? token.kind = some next) :
    next = separator ∧
      ((first.current.kind ≠ .mark bracket.closing ∧ ∃ run second, Inner {} first run second ∧
          Elements Inner bracket separator (found ++ [run]) second body after) ∨
        first.current.kind = .mark bracket.closing ∧
          body = .elements found (some separator) true none ∧ after = first) := by
  cases h with
  | more htoken' hnext' hopen hrun hrest =>
    obtain ⟨rfl, rfl⟩ := htoken'.unique htoken
    exact ⟨Option.some.inj (hnext.symm.trans hnext'), .inl ⟨hopen, _, _, hrun, hrest⟩⟩
  | trailing htoken' hnext' hclosing =>
    obtain ⟨rfl, rfl⟩ := htoken'.unique htoken
    exact ⟨Option.some.inj (hnext.symm.trans hnext'), .inr ⟨hclosing, rfl, rfl⟩⟩
  | enumeration hdots =>
    rw [← htoken.current_eq, hdots] at hnext
    cases hnext
  | tail hbar hkind =>
    obtain ⟨rfl, rfl⟩ := hbar.unique htoken
    rw [hkind] at hnext
    cases hnext
  | done hnone =>
    rw [htoken.current_eq, hnext] at hnone
    cases hnone

variable {Inner} in
theorem Elements.of_no_separator {bracket : Bracket} {separator : Separator} {found : List Run}
    {cursor after : Cursor} {body : ContainerBody}
    (h : Elements Inner bracket separator found cursor body after)
    (hnone : Separator.ofKind? cursor.current.kind = none) :
    (cursor.current.kind = .mark .dotDot ∧ Enumeration Inner bracket found cursor body after) ∨
      (cursor.current.kind = .mark .pipe ∧ ∃ bar middle last, cursor.Takes bar middle ∧
        Inner {} middle last after ∧
        body = .elements found (some separator) false (some last)) ∨
      (cursor.current.kind ≠ .mark .dotDot ∧ cursor.current.kind ≠ .mark .pipe ∧
        body = .elements found (some separator) false none ∧ after = cursor) := by
  cases h with
  | more htoken hnext | trailing htoken hnext =>
    rw [htoken.current_eq, hnext] at hnone
    cases hnone
  | enumeration hdots hbody => exact .inl ⟨hdots, hbody⟩
  | tail hbar hkind hlast => exact .inr (.inl ⟨hbar.current_eq ▸ hkind, _, _, _, hbar, hlast, rfl⟩)
  | done _ hdots hbar => exact .inr (.inr ⟨hdots, hbar, rfl, rfl⟩)

/-- What follows the first element of a container, by the token there. -/
def Body (bracket : Bracket) (first : Run) (cursor : Cursor) (body : ContainerBody)
    (after : Cursor) : Prop :=
  match cursor.current.kind with
  | .mark .dotDot => Enumeration Inner bracket [first] cursor body after
  | .mark .colon =>
    ∃ colon middle generator last generators, cursor.Takes colon middle ∧
      Inner {} middle generator last ∧ Generators Inner none last generators after ∧
      body = .comprehension first (generator :: generators)
  | .mark .comma => Elements Inner bracket .comma [first] cursor body after
  | .mark .semicolon => Elements Inner bracket .semicolon [first] cursor body after
  | .mark .pipe =>
    ∃ bar middle last, cursor.Takes bar middle ∧ Inner {} middle last after ∧
      body = .elements [first] none false (some last)
  | kind =>
    kind = .mark bracket.closing ∧ body = .elements [first] none false none ∧ after = cursor

inductive Container : Cursor → Atom → Cursor → Prop where
  | empty {cursor middle after : Cursor} {opening closing : Token}
    (hopening : cursor.Takes opening middle) (hclosing : middle.Takes closing after)
    (hkind : closing.kind = .mark (Bracket.ofOpening opening.kind).closing) :
    Container cursor
      (.container (.ofOpening opening.kind) .empty (opening.span.through closing.span))
      after
  | filled {cursor second third fourth after : Cursor} {opening closing : Token} {first : Run}
    {body : ContainerBody} (hopening : cursor.Takes opening second)
    (hopen : second.current.kind ≠ .mark (Bracket.ofOpening opening.kind).closing)
    (hfirst : Inner (.withColon {}) second first third)
    (hbody : Body Inner (.ofOpening opening.kind) first third body fourth)
    (hclosing : fourth.Takes closing after)
    (hkind : closing.kind = .mark (Bracket.ofOpening opening.kind).closing) :
    Container cursor
      (closedContainer (.ofOpening opening.kind) body (opening.span.through closing.span)) after

/-! ## Lambdas and conditionals -/

variable (context : RunContext)

inductive Lambda : Cursor → Atom → Cursor → Prop where
  | intro {cursor first second third after : Cursor} {backslash dot : Token} {parameters body : Run}
    (hbackslash : cursor.Takes backslash first)
    (hparameters : Inner { stopAtDot := true } first parameters second)
    (hdot : second.Takes dot third) (hkind : dot.kind = .mark .dot)
    (hbody : Inner { context with stopAtDot := false } third body after) :
    Lambda cursor (.lambda parameters.items body ⟨backslash.span.start, after.previousEnd⟩) after

inductive Conditional : Cursor → List RunItem → Cursor → Prop where
  | withElse {cursor first second third fourth after : Cursor} {opening joining closing : Token}
    {condition thenBranch : Run} (hopening : cursor.Takes opening first)
    (hcondition : Inner {} first condition second) (hjoining : second.Takes joining third)
    (hthen : joining.kind = .word .thenWord) (hbranch : Inner context third thenBranch fourth)
    (hclosing : fourth.Takes closing after) (helse : closing.kind = .word .elseWord) :
    Conditional cursor
      [.conditional condition (some thenBranch) (opening.span.through closing.span)] after
  | withoutElse {cursor first second third after : Cursor} {opening joining : Token}
    {condition thenBranch : Run} (hopening : cursor.Takes opening first)
    (hcondition : Inner {} first condition second) (hjoining : second.Takes joining third)
    (hthen : joining.kind = .word .thenWord) (hbranch : Inner context third thenBranch after)
    (helse : after.current.kind ≠ .word .elseWord) :
    Conditional cursor
      (.conditional condition none ⟨opening.span.start, thenBranch.span.start⟩ :: thenBranch.items)
      after

/-! ## Items -/

def isOpening : TokenKind → Bool
  | .mark .openParen | .mark .openBracket | .mark .openCurly => true
  | _ => false

def OperatorAnswer (cursor : Cursor) (answer : Option (List RunItem)) (after : Cursor) : Prop :=
  if context.stopAtAssignment && cursor.current.kind = .mark .assignment then
    answer = none ∧ after = cursor
  else if context.stopAtDot && cursor.current.kind = .mark .dot then answer = none ∧ after = cursor
  else if context.stopAtDot && beginsWithDot cursor.current then
    answer = none ∧ after = cursor.split 1
  else if cursor.current.kind.isOperatorStart then
    ∃ op, Operator cursor op after ∧ answer = some [.operator op]
  else answer = none ∧ after = cursor

variable (started : Bool)

/-- The items that begin with the token there, or none if the run ends in front of it, or in front
of the operator that it is glued to. -/
def Answer (cursor : Cursor) (answer : Option (List RunItem)) (after : Cursor) : Prop :=
  match cursor.current.kind with
  | .variableName | .functionName => ∃ atom, Named context cursor atom after ∧
      answer = some [.atom atom]
  | .word .varWord =>
    ∃ token middle name, cursor.Takes token middle ∧ middle.Takes name after ∧
      name.kind.isIdentifier ∧
      answer = some [.atom (.declared (.ofToken name) (token.span.through name.span))]
  | .number =>
    ∃ token literal, cursor.Takes token after ∧ NumberLiteral.ofToken token = .ok literal ∧
      answer = some [.atom (.number literal token.span)]
  | .string =>
    ∃ token, cursor.Takes token after ∧ answer = some [.atom (.string token.value token.span)]
  | .mark .openParen | .mark .openBracket | .mark .openCurly =>
    ∃ atom, Container Inner cursor atom after ∧ answer = some [.atom atom]
  | .mark .backslash => ∃ atom, Lambda Inner context cursor atom after ∧ answer = some [.atom atom]
  | .word .ifWord =>
    if context.stopAtGuard && started then answer = none ∧ after = cursor
    else ∃ items, Conditional Inner context cursor items after ∧ answer = some items
  | .malformed => False
  | _ => OperatorAnswer context cursor answer after

/-- The forms of items, with the kind of the first token of each. -/
inductive Next (cursor : Cursor) : List RunItem → Cursor → Prop where
  | named {atom : Atom} {after : Cursor} (hkind : cursor.current.kind.isIdentifier)
    (h : Named context cursor atom after) : Next cursor [.atom atom] after
  | declared {token name : Token} {middle after : Cursor} (htoken : cursor.Takes token middle)
    (hkind : token.kind = .word .varWord) (hname : middle.Takes name after)
    (hidentifier : name.kind.isIdentifier) :
    Next cursor [.atom (.declared (.ofToken name) (token.span.through name.span))] after
  | number {token : Token} {literal : NumberLiteral} {after : Cursor}
    (htoken : cursor.Takes token after) (hkind : token.kind = .number)
    (hliteral : NumberLiteral.ofToken token = .ok literal) :
    Next cursor [.atom (.number literal token.span)] after
  | string {token : Token} {after : Cursor} (htoken : cursor.Takes token after)
    (hkind : token.kind = .string) : Next cursor [.atom (.string token.value token.span)] after
  | container {atom : Atom} {after : Cursor} (hkind : isOpening cursor.current.kind)
    (h : Container Inner cursor atom after) : Next cursor [.atom atom] after
  | lambda {atom : Atom} {after : Cursor} (hkind : cursor.current.kind = .mark .backslash)
    (h : Lambda Inner context cursor atom after) : Next cursor [.atom atom] after
  | conditional {items : List RunItem} {after : Cursor}
    (hkind : cursor.current.kind = .word .ifWord)
    (hguard : ¬(context.stopAtGuard && started) = true)
    (h : Conditional Inner context cursor items after) : Next cursor items after
  | operator {op : OperatorUse} {after : Cursor} (hkind : cursor.current.kind.isOperatorStart)
    (h : Operator cursor op after) : Next cursor [.operator op] after

private theorem next_of_operatorAnswer {cursor after : Cursor} {items : List RunItem}
    (h : OperatorAnswer context cursor (some items) after) :
    Next Inner context started cursor items after := by
  unfold OperatorAnswer at h
  split at h
  · cases h.1
  · split at h
    · cases h.1
    · split at h
      · cases h.1
      · split at h
        · rename_i hkind
          obtain ⟨op, h, hitems⟩ := h
          obtain rfl := Option.some.inj hitems
          exact .operator hkind h
        · cases h.1

theorem next_of_answer {cursor after : Cursor} {items : List RunItem}
    (h : Answer Inner context started cursor (some items) after) :
    Next Inner context started cursor items after := by
  have hatom {atom : Atom} (hitem : Next Inner context started cursor [.atom atom] after)
      (hitems : some items = some [.atom atom]) :
      Next Inner context started cursor items after := by
    obtain rfl := Option.some.inj hitems
    exact hitem
  unfold Answer at h
  split at h
  · rename_i hkind
    obtain ⟨atom, h, hitems⟩ := h
    exact hatom (.named (by rw [hkind]; rfl) h) hitems
  · rename_i hkind
    obtain ⟨atom, h, hitems⟩ := h
    exact hatom (.named (by rw [hkind]; rfl) h) hitems
  · rename_i hkind
    obtain ⟨token, middle, name, htoken, hname, hidentifier, hitems⟩ := h
    exact hatom (.declared htoken (htoken.current_eq ▸ hkind) hname hidentifier) hitems
  · rename_i hkind
    obtain ⟨token, literal, htoken, hliteral, hitems⟩ := h
    exact hatom (.number htoken (htoken.current_eq ▸ hkind) hliteral) hitems
  · rename_i hkind
    obtain ⟨token, htoken, hitems⟩ := h
    exact hatom (.string htoken (htoken.current_eq ▸ hkind)) hitems
  · rename_i hkind
    obtain ⟨atom, h, hitems⟩ := h
    exact hatom (.container (by rw [hkind]; rfl) h) hitems
  · rename_i hkind
    obtain ⟨atom, h, hitems⟩ := h
    exact hatom (.container (by rw [hkind]; rfl) h) hitems
  · rename_i hkind
    obtain ⟨atom, h, hitems⟩ := h
    exact hatom (.container (by rw [hkind]; rfl) h) hitems
  · rename_i hkind
    obtain ⟨atom, h, hitems⟩ := h
    exact hatom (.lambda hkind h) hitems
  · rename_i hkind
    split at h
    · cases h.1
    · rename_i hguard
      obtain ⟨_, h, hitems⟩ := h
      obtain rfl := Option.some.inj hitems
      exact .conditional hkind hguard h
  · cases h
  · exact next_of_operatorAnswer Inner context started h

theorem Next.ne_nil {cursor after : Cursor} {items : List RunItem}
    (h : Next Inner context started cursor items after) : items ≠ [] := by
  cases h with
  | conditional _ _ h => cases h <;> exact List.cons_ne_nil _ _
  | _ => exact List.cons_ne_nil _ _

/-! ## Ends of runs -/

/-- The kinds of tokens that begin an item in some context, or stop the run with a diagnostic. -/
def beginsItem : TokenKind → Bool
  | .variableName | .functionName | .number | .string | .malformed => true
  | .word .varWord | .word .ifWord | .mark .backslash => true
  | kind => isOpening kind || kind.isOperatorStart

/-- The ways in which a run ends, without any diagnostic. -/
inductive Stop : Cursor → Cursor → Prop where
  | guard {cursor : Cursor} (hkind : cursor.current.kind = .word .ifWord)
    (hstop : (context.stopAtGuard && started) = true) : Stop cursor cursor
  | assignment {cursor : Cursor} (hkind : cursor.current.kind = .mark .assignment)
    (hstop : context.stopAtAssignment = true) : Stop cursor cursor
  | dot {cursor : Cursor} (hkind : cursor.current.kind = .mark .dot)
    (hstop : context.stopAtDot = true) : Stop cursor cursor
  | glued {cursor : Cursor} (hdot : beginsWithDot cursor.current)
    (hstop : context.stopAtDot = true) : Stop cursor (cursor.split 1)
  | other {cursor : Cursor} (hkind : beginsItem cursor.current.kind = false) : Stop cursor cursor

def halts (context : RunContext) (token : Token) : Bool :=
  context.stopAtAssignment && token.kind = .mark .assignment ||
    context.stopAtDot && (token.kind = .mark .dot || beginsWithDot token)

theorem answer_iff_operatorAnswer {cursor after : Cursor} {answer : Option (List RunItem)}
    (hkind : beginsItem cursor.current.kind = cursor.current.kind.isOperatorStart) :
    Answer Inner context started cursor answer after ↔
      OperatorAnswer context cursor answer after := by
  unfold Answer
  split
  case h_12 => exact .rfl
  all_goals
    rename_i h
    rw [h] at hkind
    cases hkind

theorem halts_of_not_operator {token : Token} (h : token.kind.isOperatorStart = false) :
    halts context token = false := by
  have hassignment : token.kind ≠ .mark .assignment := fun hkind => by simp [hkind] at h; cases h
  have hdot : token.kind ≠ .mark .dot := fun hkind => by simp [hkind] at h; cases h
  have hglued : beginsWithDot token = false := by
    refine Bool.eq_false_iff.mpr fun hdot => ?_
    rw [(Cursor.kind_of_beginsWithDot hdot).1] at h
    cases h
  simp [halts, hassignment, hdot, hglued]

theorem operatorAnswer_iff {cursor after : Cursor} {answer : Option (List RunItem)}
    (h : halts context cursor.current = false) :
    OperatorAnswer context cursor answer after ↔
      if cursor.current.kind.isOperatorStart then
        ∃ op, Operator cursor op after ∧ answer = some [.operator op]
      else answer = none ∧ after = cursor := by
  simp only [halts, Bool.or_eq_false_iff, Bool.and_or_distrib_left] at h
  unfold OperatorAnswer
  rw [if_neg (by simp [h.1]), if_neg (by simp [h.2.1]), if_neg (by simp [h.2.2])]

theorem beginsItem_of_isOperatorStart {kind : TokenKind} (h : kind.isOperatorStart) :
    beginsItem kind = true := by
  unfold beginsItem
  split <;> first | rfl | simp [h]

theorem beginsItem_of_next {cursor after : Cursor} {items : List RunItem}
    (h : Next Inner context started cursor items after) :
    beginsItem cursor.current.kind = true := by
  cases h with
  | named hkind =>
    generalize cursor.current.kind = kind at hkind
    cases kind <;> first | rfl | cases hkind
  | declared htoken hkind => rw [htoken.current_eq, hkind]; rfl
  | number htoken hkind => rw [htoken.current_eq, hkind]; rfl
  | string htoken hkind => rw [htoken.current_eq, hkind]; rfl
  | container hkind =>
    unfold isOpening at hkind
    split at hkind <;> first | cases hkind; done | simp [*]; rfl
  | lambda hkind => rw [hkind]; rfl
  | conditional hkind => rw [hkind]; rfl
  | operator hkind => exact beginsItem_of_isOperatorStart hkind

theorem answer_of_next {cursor after : Cursor} {items : List RunItem}
    (h : Next Inner context started cursor items after)
    (hhalts : halts context cursor.current = false) :
    Answer Inner context started cursor (some items) after := by
  cases h with
  | named hkind h =>
    unfold Answer
    generalize cursor.current.kind = kind at hkind
    cases kind <;> first | exact ⟨_, h, rfl⟩ | cases hkind
  | declared htoken hkind hname hidentifier =>
    unfold Answer
    rw [htoken.current_eq, hkind]
    exact ⟨_, _, _, htoken, hname, hidentifier, rfl⟩
  | number htoken hkind hliteral =>
    unfold Answer
    rw [htoken.current_eq, hkind]
    exact ⟨_, _, htoken, hliteral, rfl⟩
  | string htoken hkind =>
    unfold Answer
    rw [htoken.current_eq, hkind]
    exact ⟨_, htoken, rfl⟩
  | container hkind h =>
    unfold Answer
    unfold isOpening at hkind
    split at hkind
    case h_4 => cases hkind
    all_goals
      rename_i hopening
      rw [hopening]
      exact ⟨_, h, rfl⟩
  | lambda hkind h =>
    unfold Answer
    rw [hkind]
    exact ⟨_, h, rfl⟩
  | conditional hkind hguard h =>
    unfold Answer
    rw [hkind]
    exact (if_neg hguard).mpr ⟨_, h, rfl⟩
  | operator hkind h =>
    have hbegins := (beginsItem_of_isOperatorStart hkind).trans hkind.symm
    refine (answer_iff_operatorAnswer Inner context started hbegins).mpr ?_
    exact (operatorAnswer_iff context hhalts).mpr ((if_pos hkind).mpr ⟨_, h, rfl⟩)

theorem answer_of_stop {cursor after : Cursor} (h : Stop context started cursor after) :
    Answer Inner context started cursor none after := by
  cases h with
  | guard hkind hstop =>
    unfold Answer
    rw [hkind]
    exact (if_pos hstop).mpr ⟨rfl, rfl⟩
  | assignment hkind hstop =>
    refine (answer_iff_operatorAnswer Inner context started (by rw [hkind]; rfl)).mpr ?_
    unfold OperatorAnswer
    rw [if_pos (by simp [hkind, hstop])]
    exact ⟨rfl, rfl⟩
  | dot hkind hstop =>
    refine (answer_iff_operatorAnswer Inner context started (by rw [hkind]; rfl)).mpr ?_
    unfold OperatorAnswer
    rw [if_neg (by simp [hkind]), if_pos (by simp [hkind, hstop])]
    exact ⟨rfl, rfl⟩
  | glued hdot hstop =>
    have hkind := (Cursor.kind_of_beginsWithDot hdot).1
    refine (answer_iff_operatorAnswer Inner context started (by rw [hkind]; rfl)).mpr ?_
    unfold OperatorAnswer
    rw [if_neg (by simp [hkind]), if_neg (by simp [hkind]), if_pos (by simp [hdot, hstop])]
    exact ⟨rfl, rfl⟩
  | other hkind =>
    have hoperator : cursor.current.kind.isOperatorStart = false :=
      Bool.eq_false_iff.mpr fun h => by simp [beginsItem_of_isOperatorStart h] at hkind
    have hhalts := halts_of_not_operator context hoperator
    refine (answer_iff_operatorAnswer Inner context started (hkind.trans hoperator.symm)).mpr ?_
    refine (operatorAnswer_iff context hhalts).mpr ((if_neg ?_).mpr ⟨rfl, rfl⟩)
    simp [hoperator]

theorem halts_of_answer {cursor after : Cursor} {items : List RunItem}
    (h : Answer Inner context started cursor (some items) after) :
    halts context cursor.current = false := by
  by_cases hoperator : cursor.current.kind.isOperatorStart
  · have hbegins := (beginsItem_of_isOperatorStart hoperator).trans hoperator.symm
    replace h := (answer_iff_operatorAnswer Inner context started hbegins).mp h
    unfold OperatorAnswer at h
    split at h
    · cases h.1
    · split at h
      · cases h.1
      · split at h
        · cases h.1
        · simp_all [halts, Bool.and_or_distrib_left]
  · exact halts_of_not_operator context (by simpa using hoperator)

private theorem stop_of_operatorAnswer {cursor after : Cursor}
    (hother : beginsItem cursor.current.kind = cursor.current.kind.isOperatorStart)
    (h : OperatorAnswer context cursor none after) : Stop context started cursor after := by
  unfold OperatorAnswer at h
  split at h
  · rename_i hstop
    obtain ⟨-, rfl⟩ := h
    simp only [Bool.and_eq_true, decide_eq_true_eq] at hstop
    exact .assignment hstop.2 hstop.1
  · split at h
    · rename_i hstop
      obtain ⟨-, rfl⟩ := h
      simp only [Bool.and_eq_true, decide_eq_true_eq] at hstop
      exact .dot hstop.2 hstop.1
    · split at h
      · rename_i hstop
        obtain ⟨-, rfl⟩ := h
        rw [Bool.and_eq_true] at hstop
        exact .glued hstop.2 hstop.1
      · split at h
        · obtain ⟨op, -, hnone⟩ := h
          cases hnone
        · rename_i hoperator
          obtain ⟨-, rfl⟩ := h
          exact .other (by simpa [hother] using hoperator)

theorem stop_of_answer {cursor after : Cursor}
    (h : Answer Inner context started cursor none after) : Stop context started cursor after := by
  unfold Answer at h
  split at h
  case h_10 =>
    rename_i hkind
    split at h
    · rename_i hstop
      obtain ⟨-, rfl⟩ := h
      exact .guard hkind hstop
    · obtain ⟨items, -, hnone⟩ := h
      cases hnone
  case h_12 =>
    refine stop_of_operatorAnswer context started ?_ h
    have hopening : isOpening cursor.current.kind = false := by
      unfold isOpening
      split <;> first | contradiction | rfl
    unfold beginsItem
    split <;> first | contradiction | simp [hopening]
  all_goals simp at h

inductive Items : Bool → Cursor → List RunItem → Cursor → Prop where
  | stop {started : Bool} {cursor after : Cursor}
    (h : Answer Inner context started cursor none after) : Items started cursor [] after
  | next {started : Bool} {cursor middle after : Cursor} {items more : List RunItem}
    (h : Answer Inner context started cursor (some items) middle)
    (hrest : Items true middle more after) : Items started cursor (items ++ more) after

end Parts

/-! ## Runs -/

/-- The runs whose brackets, lambdas and conditionals nest less deep than this. -/
def Collects : Nat → RunContext → Cursor → Run → Cursor → Prop
  | 0, _, _, _, _ => False
  | depth + 1, context, cursor, run, after =>
    ∃ items, Items (Collects depth) context false cursor items after ∧
      run = .ofItems items (.point cursor.current.span.start)

theorem Collects.begins {depth : Nat} {context : RunContext} {cursor after : Cursor} {run : Run}
    (h : Collects depth context cursor run after) (hne : run.items ≠ []) :
    beginsItem cursor.current.kind = true := by
  cases depth with
  | zero => exact h.elim
  | succ depth =>
    obtain ⟨items, hitems, rfl⟩ := h
    cases hitems with
    | stop => exact absurd rfl hne
    | next h => exact beginsItem_of_next _ _ _ (next_of_answer _ _ _ h)

end Grammar

end Equational

import Equational.Proofs.Grouping.Resolution
import Equational.Proofs.Statement.Declared
import Equational.Proofs.Yield

/-!
# Conditionals in front of a run

Headers declare no postfix operators, so a run that resolves ends with an operand.  A conditional in
front of it is closed by the first operator of a lower level and waits for the end otherwise; it
does not clash with any operator, so the longer run resolves as well.  With nothing behind it, a
conditional lacks its last branch.
-/

namespace Equational

/-! ## Tables without postfix operators -/

namespace OperatorTable

def HasNoPostfix (table : OperatorTable) : Prop := ∀ entry ∈ table.entries, entry.role ≠ .postfixOp

theorem mem_replaceIn {entry other : OperatorEntry} {entries : List OperatorEntry}
    (h : other ∈ entry.replaceIn entries) : other = entry ∨ other ∈ entries := by
  induction entries with
  | nil => exact .inl (List.mem_singleton.mp h)
  | cons first rest ih =>
    unfold OperatorEntry.replaceIn at h
    split at h
    · exact (List.mem_cons.mp h).imp_right (List.mem_cons_of_mem _)
    · rcases List.mem_cons.mp h with rfl | h
      · exact .inr List.mem_cons_self
      · exact (ih h).imp_right (List.mem_cons_of_mem _)

namespace HasNoPostfix

variable {table : OperatorTable}

theorem insert {entry : OperatorEntry} (h : table.HasNoPostfix) (hrole : entry.role ≠ .postfixOp) :
    (table.insert entry).HasNoPostfix := by
  intro other hother
  rcases mem_replaceIn hother with rfl | hother
  · exact hrole
  · exact h other hother

theorem lookupName_eq_none (h : table.HasNoPostfix) (name : OperatorName) :
    table.lookupName name .postfixOp = none := by
  have hlookup (symbol : String) : table.lookup symbol .postfixOp = none := by
    refine List.find?_eq_none.mpr fun entry hentry hanswers => h entry hentry ?_
    simp only [OperatorEntry.answers, Bool.and_eq_true, beq_iff_eq] at hanswers
    exact hanswers.2
  unfold lookupName
  split
  · rw [hlookup, hlookup]
    rfl
  · exact hlookup _

end HasNoPostfix

theorem hasNoPostfix_initial : initial.HasNoPostfix := by
  unfold HasNoPostfix
  decide

theorem role_headerFixity (parameters : List Parameter) (level : Nat) :
    (headerFixity parameters level).role ≠ .postfixOp := by
  unfold headerFixity levelFixity
  split
  · decide
  · split
    · decide
    · split <;> decide

theorem HasNoPostfix.declareAll {table declared : OperatorTable} {headers : List Header}
    (h : table.HasNoPostfix) (hdeclare : table.declareAll headers = .ok declared) :
    declared.HasNoPostfix := by
  refine declareAll_induction (fun h hdeclare => ?_) h hdeclare
  refine declare_induction (fun symbol parameters level _ h => ?_) h hdeclare
  exact h.insert (role_headerFixity parameters level)

end OperatorTable

/-! ## Runs that end with an operand -/

section Finished

variable {table : OperatorTable}

/-- Every item can be read, and the last one is not an operator. -/
structure Finished (table : OperatorTable) (items : List RunItem) : Prop where
  exists_read : ∀ item ∈ items, ∃ step, item.read table = .ok step
  last_ne : ∀ item ∈ items.getLast?, ∀ op, item.read table ≠ .ok (.operator op)

namespace Finished

theorem head {item : RunItem} {rest : List RunItem} (h : Finished table (item :: rest)) :
    ∃ step, item.read table = .ok step := h.exists_read item List.mem_cons_self

theorem exists_resolve_body {parameters rest : List RunItem} {body : Run} {span : Span}
    (h : Finished table (.atom (.lambda parameters body span) :: rest)) :
    ∃ e, body.resolve table = .ok e := by
  obtain ⟨step, hread⟩ := h.head
  rw [RunItem.read] at hread
  obtain ⟨e, he, -⟩ := bind_eq_ok_iff.mp hread
  cases parameters with
  | nil =>
    rw [Atom.resolve] at he
    cases he
  | cons first others =>
    rw [Atom.resolve] at he
    obtain ⟨_, -, he⟩ := bind_eq_ok_iff.mp he
    obtain ⟨found, hfound, -⟩ := bind_eq_ok_iff.mp he
    exact ⟨found, hfound⟩

theorem of_append {front back : List RunItem} (h : Finished table (front ++ back)) :
    Finished table back where
  exists_read item hitem := h.exists_read item (List.mem_append_right front hitem)
  last_ne item hitem := h.last_ne item (by simp [List.getLast?_append, Option.mem_def.mp hitem])

theorem getLast_ne {items : List RunItem} (h : Finished table items) (op : OperatorUse) :
    items.getLast? ≠ some (.operator op) := fun hlast => h.last_ne _ hlast op (by rw [RunItem.read])

theorem wordOperator_getLast {items : List RunItem} (h : Finished table items) :
    items.getLast?.bind (wordOperator? table) = none := by
  refine Option.bind_eq_none_iff.mpr fun item hitem => Option.eq_none_iff_forall_not_mem.mpr ?_
  exact fun op hop => h.last_ne item hitem op (read_of_wordOperator hop)

end Finished

theorem Run.finished_of_resolve (hbehind : table.HasNoPostfix) {run : Run} {e : Expr}
    (h : run.resolve table = .ok e) : run.items ≠ [] ∧ Finished table run.items := by
  obtain ⟨parts, steps, hread, hparts⟩ := run.partsAre_of_resolve h
  have hreadings := mapM_eq_ok hread
  rw [readItems_eq_map] at hreadings
  refine ⟨?_, ?_, ?_⟩
  · rintro hnil
    rw [hnil] at hreadings
    obtain rfl := List.map_eq_nil_iff.mp hreadings.symm
    cases hparts
  · intro item hitem
    obtain ⟨step, -, hstep⟩ := List.mem_map.mp (hreadings ▸ List.mem_map_of_mem hitem)
    exact ⟨step, hstep.symm⟩
  · intro item hitem op
    exact run.getLast_read_ne h (hbehind.lookupName_eq_none op.name) item hitem

end Finished

/-! ## Conditionals that wait -/

def conditionalRank : Rank := ⟨Band.conditional.level, .prefixOp⟩

private theorem conditionalRank_against (arriving : Rank) :
    conditionalRank.against arriving ≠ .clash := by
  obtain ⟨precedence, fixity⟩ := arriving
  unfold Rank.against verdict
  split
  · split <;> nofun
  · cases fixity <;> nofun

inductive Deeper : List Frame → List Frame → Prop where
  | waiting {frames : List Frame} (h : ∀ frame ∈ frames, frame.rank = conditionalRank) :
    Deeper [] frames
  | cons {frame frame' : Frame} {frames frames' : List Frame} (hrank : frame'.rank = frame.rank)
    (h : Deeper frames frames') : Deeper (frame :: frames) (frame' :: frames')

private theorem settle_conditionals (arriving : Rank) {frames : List Frame}
    (h : ∀ frame ∈ frames, frame.rank = conditionalRank) (focus : Grouping) :
    ∃ settled operand, settle arriving frames focus = some (settled, operand) ∧
      ∀ frame ∈ settled, frame.rank = conditionalRank := by
  induction frames generalizing focus with
  | nil => exact ⟨[], focus, rfl, h⟩
  | cons frame rest ih =>
    obtain ⟨hframe, hrest⟩ := List.forall_mem_cons.mp h
    unfold settle
    rw [hframe]
    cases hverdict : conditionalRank.against arriving with
    | apply => exact ih hrest _
    | keep => exact ⟨_, _, rfl, h⟩
    | clash => exact absurd hverdict (conditionalRank_against arriving)

theorem Deeper.settle {arriving : Rank} {frames frames' settled : List Frame}
    {focus operand : Grouping} (h : Deeper frames frames')
    (hsettle : settle arriving frames focus = some (settled, operand)) (focus' : Grouping) :
    ∃ settled' operand', Equational.settle arriving frames' focus' = some (settled', operand') ∧
      Deeper settled settled' := by
  induction h generalizing focus focus' with
  | waiting hconditionals =>
    cases hsettle
    -- Below the frames that both have, only conditionals are popped.
    obtain ⟨settled', operand', hsettle', hwaiting⟩ :=
      settle_conditionals arriving hconditionals focus'
    exact ⟨settled', operand', hsettle', .waiting hwaiting⟩
  | cons hrank hrest ih =>
    unfold Equational.settle at hsettle ⊢
    rw [hrank]
    split at hsettle
    · exact ih hsettle _
    · cases hsettle
      exact ⟨_, _, rfl, .cons hrank hrest⟩
    · cases hsettle

/-- Some conditionals wait below what has been read. -/
inductive Unfinished.Below : Unfinished → Unfinished → Prop where
  | expecting {frames frames' : List Frame} (h : Deeper frames frames') :
    Below (.expecting frames) (.expecting frames')
  | holding {frames frames' : List Frame} (focus focus' : Grouping) (h : Deeper frames frames') :
    Below (.holding frames focus) (.holding frames' focus')

namespace Unfinished.Below

theorem take {held held' taken : Unfinished} {part : Part} (h : Below held held')
    (htake : held.take part = some taken) :
    ∃ taken', held'.take part = some taken' ∧ Below taken taken' := by
  cases h with
  | expecting h =>
    cases part with
    | operand value =>
      cases htake
      exact ⟨_, rfl, .holding _ _ h⟩
    | leading operator =>
      cases htake
      exact ⟨_, rfl, .expecting (.cons rfl h)⟩
    | joining operator => cases htake
    | trailing operator => cases htake
  | holding focus focus' h =>
    cases part with
    | operand value => cases htake
    | leading operator => cases htake
    | joining operator =>
      obtain ⟨⟨settled, left⟩, hsettle, htaken⟩ := Option.bind_eq_some_iff.mp htake
      cases htaken
      obtain ⟨settled', left', hsettle', hdeeper⟩ := h.settle hsettle focus'
      exact ⟨_, Option.bind_eq_some_iff.mpr ⟨_, hsettle', rfl⟩, .expecting (.cons rfl hdeeper)⟩
    | trailing operator =>
      obtain ⟨⟨settled, operand⟩, hsettle, htaken⟩ := Option.bind_eq_some_iff.mp htake
      cases htaken
      obtain ⟨settled', operand', hsettle', hdeeper⟩ := h.settle hsettle focus'
      exact ⟨_, Option.bind_eq_some_iff.mpr ⟨_, hsettle', rfl⟩, .holding _ _ hdeeper⟩

theorem takeAll {held held' taken : Unfinished} {parts : List Part} (h : Below held held')
    (htake : parts.foldlM Unfinished.take held = some taken) :
    ∃ taken', parts.foldlM Unfinished.take held' = some taken' ∧ Below taken taken' := by
  induction parts generalizing held held' with
  | nil =>
    cases htake
    exact ⟨held', rfl, h⟩
  | cons part rest ih =>
    obtain ⟨next, hnext, hrest⟩ := Option.bind_eq_some_iff.mp htake
    obtain ⟨next', hnext', hbelow⟩ := h.take hnext
    obtain ⟨taken', htaken', hend⟩ := ih hbelow hrest
    exact ⟨taken', Option.bind_eq_some_iff.mpr ⟨next', hnext', htaken'⟩, hend⟩

end Unfinished.Below

private theorem group?_conditional {parts : List Part} {g : Grouping} (h : group? parts = some g)
    (condition : Expr) (thenBranch : Option Expr) (span : Span) :
    ∃ g', group? (.leading (.conditional condition thenBranch span) :: parts) = some g' := by
  obtain ⟨final, hfinal, hwhole⟩ := Option.bind_eq_some_iff.mp h
  have hstart : Unfinished.Below (.expecting [])
      (.expecting [.leading (.conditional condition thenBranch span)]) :=
    .expecting (.waiting fun frame hframe => by rw [List.mem_singleton.mp hframe]; rfl)
  obtain ⟨final', hfinal', hbelow⟩ := hstart.takeAll hfinal
  cases hbelow with
  | expecting => cases hwhole
  | holding focus focus' => exact ⟨_, Option.bind_eq_some_iff.mpr ⟨_, hfinal', rfl⟩⟩

/-! ## Runs behind conditionals -/

section Resolving

variable {table : OperatorTable} {item : RunItem} {items : List RunItem} {condition : Expr}
  {thenBranch : Option Expr} {span : Span}

/-- What resolves also resolves behind a conditional. -/
theorem exists_resolve_cons (hread : item.read table = .ok (.conditional condition thenBranch span))
    {runSpan : Span} {e : Expr} (h : (Run.mk items runSpan).resolve table = .ok e)
    (runSpan' : Span) : ∃ e', (Run.mk (item :: items) runSpan').resolve table = .ok e' := by
  obtain ⟨parts, hare⟩ := Run.partsAre_of_resolve h
  obtain ⟨g, hgroup, -⟩ :=
    Option.map_eq_some_iff.mp (((Run.resolve_answers hare).eq_ok_iff e).mp h)
  obtain ⟨steps, hsteps, hparts⟩ := hare
  have hlonger : (Run.mk (item :: items) runSpan').PartsAre table
      (.leading (.conditional condition thenBranch span) :: parts) := by
    refine ⟨.conditional condition thenBranch span :: steps, ?_, ?_⟩
    · refine mapM_cons_eq_ok_iff.mpr ⟨_, steps, hread, ?_, rfl⟩
      exact hsteps
    · exact partsOf?_cons_eq_some_iff.mpr ⟨_, true, parts, rfl, hparts, rfl⟩
  obtain ⟨g', hgroup'⟩ := group?_conditional hgroup condition thenBranch span
  refine ⟨g'.expr, ((Run.resolve_answers hlonger).eq_ok_iff _).mpr ?_⟩
  rw [hgroup']
  rfl

theorem resolve_lone (hread : item.read table = .ok (.conditional condition thenBranch span))
    (runSpan : Span) :
    (Run.mk [item] runSpan).resolve table = .error ⟨.missingOperand "if" .right, span⟩ := by
  rw [Run.resolve, readItems, readItems, hread]
  rfl

theorem read_grouped {first : Run} {branch : Option Run} {firstSpan runSpan containerSpan : Span}
    (h : Finished table (.conditional first branch firstSpan :: items)) {e : Expr}
    (hresolve :
      (Run.mk (.conditional first branch firstSpan :: items) runSpan).resolve table = .ok e) :
    (RunItem.atom (closedContainer .paren
      (.elements [⟨.conditional first branch firstSpan :: items, runSpan⟩] none false none)
      containerSpan)).read table = .ok (.operand e) := by
  have hform : operatorForm? ⟨.conditional first branch firstSpan :: items, runSpan⟩ containerSpan =
      none := by
    unfold operatorForm?
    dsimp only [Run.items]
    split
    · exact absurd ‹_› (h.getLast_ne _)
    · rfl
  have hhead : (RunItem.conditional first branch firstSpan :: items).head?.bind
      (wordOperator? table) = none := rfl
  have hatom : (Atom.container .paren (.elements
      [⟨.conditional first branch firstSpan :: items, runSpan⟩] none false none)
        containerSpan).resolve table = .ok e := by
    rw [Atom.resolve, assembleGroup, hhead, h.wordOperator_getLast, ← hresolve, Run.resolve]
  rw [closedContainer, hform, Option.getD_none, RunItem.read, hatom]
  rfl

theorem resolve_operand {e : Expr} (hread : item.read table = .ok (.operand e)) (runSpan : Span) :
    (Run.mk [item] runSpan).resolve table = .ok e := by
  rw [Run.resolve, readItems, readItems, hread]
  rfl

end Resolving

end Equational

import Equational.Proofs.Parse.Ensures
import Equational.Proofs.Run.Placement
import Equational.Proofs.Run.Sound

/-!
# Placement while parsing

What has been read since some position stands between it and the token that was passed last.  A node
begins where the reading of it begins and ends with the token that was passed last, so everything
that is read in between lies within it.  Nothing is said of nodes with errors in them.
-/

namespace Equational

/-! ## Nodes that may hold errors -/

namespace Node

def IsFaultless (node : Node) : Prop := ∀ e ∈ node.positions, e.containsError = false

theorem IsFaultless.child {node child : Node} (h : node.IsFaultless)
    (hexpression : ∀ e, node ≠ .expression e) (hchild : child ∈ node.children) :
    child.IsFaultless := by
  intro e he
  refine h e ?_
  rw [positions_eq hexpression]
  exact List.mem_flatMap_of_mem hchild he

/-- Between two positions, and in place there unless there is an error in it. -/
structure Fits (low : Nat) (node : Node) (high : Nat) : Prop where
  le : low ≤ high
  lies : node.IsFaultless → node.Lies low high

instance fits_spreads : Spreads Fits where
  le h := h.le
  widen h hlow hhigh :=
    ⟨Nat.le_trans hlow (Nat.le_trans h.le hhigh), fun hfaultless =>
      spreads.widen (h.lies hfaultless) hlow hhigh⟩

/-- On its span between two positions, and in place there unless there is an error in it. -/
structure Stands (low : Nat) (node : Node) (high : Nat) : Prop where
  low_le : low ≤ node.span.start
  nonempty : node.span.start < node.span.stop
  le_high : node.span.stop ≤ high
  inPlace : node.IsFaultless → node.InPlace

instance stands_spreads : Spreads Stands where
  le h := Nat.le_trans h.low_le (Nat.le_trans (Nat.le_of_lt h.nonempty) h.le_high)
  widen h hlow hhigh :=
    ⟨Nat.le_trans hlow h.low_le, h.nonempty, Nat.le_trans h.le_high hhigh, h.inPlace⟩

theorem Stands.fits {low high : Nat} {node : Node} (h : node.Stands low high) :
    node.Fits low high :=
  ⟨stands_spreads.le h, fun hfaultless => ⟨h.low_le, h.inPlace hfaultless, h.le_high⟩⟩

theorem stands_around {node : Node} (hexpression : ∀ e, node ≠ .expression e)
    (hnonempty : node.span.start < node.span.stop)
    (h : ∀ child ∈ node.children, child.Fits node.span.start node.span.stop) :
    node.Stands node.span.start node.span.stop := by
  refine ⟨Nat.le_refl _, hnonempty, Nat.le_refl _, fun hfaultless => ?_⟩
  refine inPlace_of_within hexpression hnonempty fun child hchild => ?_
  exact (h child hchild).lies (hfaultless.child hexpression hchild)

end Node

/-! ## Moving over laid tokens -/

namespace Cursor

variable {region : Span} {cursor after : Cursor}

theorem IsLaid.unexpected (h : cursor.IsLaid region) (expected : String) :
    (cursor.unexpected expected).2.IsLaid region ∧
      (cursor.unexpected expected).2.reach region = cursor.reach region := by
  obtain ⟨errors, hresult⟩ := cursor.exists_errors_of_unexpected expected
  rw [hresult]
  exact ⟨h, rfl⟩

theorem IsLaid.skipStatement (h : cursor.IsLaid region) : cursor.skipStatement.IsLaid region := by
  refine skipStatement_induction (motive := (·.IsLaid region)) (fun htakes hlaid => ?_) h
  obtain ⟨-, -, -, hafter⟩ := htakes.placed hlaid
  exact hafter

end Cursor

/-- The cursor is that of a text, and its tokens are laid behind the start of the region. -/
structure ParseState.IsReady (region : Span) (state : ParseState) : Prop where
  sound : state.cursor.IsSound state.limit
  laid : state.cursor.IsLaid region

theorem Move.isReady {noise : Noise} {region : Span} {state next : ParseState}
    (h : Move noise state next) (hready : state.IsReady region) :
    next.IsReady region ∧ state.cursor.reach region ≤ next.cursor.reach region := by
  obtain ⟨hsound, hlaid⟩ := hready
  cases h with
  | advance =>
    refine ⟨⟨hsound.advance, ?_⟩, ?_⟩ <;> dsimp only <;>
      rcases hsound.advance_cases with hstay | htakes
    · rwa [hstay]
    · exact (htakes.placed hlaid).2.2.2
    · exact Nat.le_of_eq (congrArg (Cursor.reach region) hstay.symm)
    · obtain ⟨hlow, hnonempty, hstop, -⟩ := htakes.placed hlaid
      omega
  | split hdot =>
    refine ⟨⟨hsound.split hdot, hlaid.split (Cursor.kind_of_beginsWithDot hdot).1 1⟩, ?_⟩
    exact Nat.le_of_eq (Cursor.reach_split region _ 1).symm
  | unexpected _ expected =>
    obtain ⟨hafter, hreach⟩ := hlaid.unexpected expected
    exact ⟨⟨hsound.unexpected expected, hafter⟩, Nat.le_of_eq hreach.symm⟩
  | exhaust | report => exact ⟨⟨hsound, hlaid⟩, Nat.le_refl _⟩

theorem Moves.isReady {noise : Noise} {region : Span} {state next : ParseState}
    (h : Moves noise state next) (hready : state.IsReady region) :
    next.IsReady region ∧ state.cursor.reach region ≤ next.cursor.reach region := by
  induction h with
  | refl => exact ⟨hready, Nat.le_refl _⟩
  | tail _ hmove ih =>
    obtain ⟨hmiddle, hreach⟩ := ih
    obtain ⟨hnext, hreach'⟩ := hmove.isReady hmiddle
    exact ⟨hnext, Nat.le_trans hreach hreach'⟩

namespace Parse

variable {α β : Type} {region : Span} {size start : Nat} {moved : Bool} {nodes : List Node}

/-! ## What has been read since a position -/

/-- The nodes stand one behind another from the start of the region up to the token that was passed
last; whether one was passed is told too. -/
structure Placed (region : Span) (moved : Bool) (nodes : List Node) (state : ParseState) : Prop
    extends state.IsReady region where
  row : Row Node.Fits region.start nodes (state.cursor.reach region)
  passed : moved → region.start < state.cursor.reach region

namespace Placed

variable {state next : ParseState}

theorem moves {noise : Noise} (h : Placed region moved nodes state)
    (hmoves : Moves noise state next) : Placed region moved nodes next := by
  obtain ⟨hnext, hreach⟩ := hmoves.isReady h.toIsReady
  refine ⟨hnext, h.row.widen (Nat.le_refl _) hreach, fun hmoved => ?_⟩
  exact Nat.lt_of_lt_of_le (h.passed hmoved) hreach

theorem weaken (h : Placed region true nodes state) : Placed region moved nodes state :=
  ⟨h.toIsReady, h.row, fun _ => h.passed rfl⟩

theorem takes {middle : Cursor} {token : Token} (h : Placed region moved nodes state)
    (htakes : state.cursor.Takes token middle) :
    Placed region true nodes { state with cursor := middle } := by
  obtain ⟨hlow, hnonempty, hstop, hlaid⟩ := htakes.placed h.laid
  have hstart := h.row.le
  refine ⟨⟨h.sound.takes htakes, hlaid⟩, h.row.widen (Nat.le_refl _) ?_, fun _ => ?_⟩
  · dsimp only
    omega
  · dsimp only
    omega

theorem previousEnd (h : Placed region true nodes state) :
    state.cursor.previousEnd = state.cursor.reach region :=
  Cursor.previousEnd_of_reach (h.passed rfl)

end Placed

/-- The node begins at the position and ends with the token that was passed last. -/
structure Ends (size start : Nat) (node : Node) (state : ParseState) : Prop where
  ready : state.IsReady ⟨start, size⟩
  span : node.span = ⟨start, state.cursor.previousEnd⟩
  stands : node.Stands start state.cursor.previousEnd

section Nodes

variable {state : ParseState} {node : Node}

theorem Placed.ends (h : Placed ⟨start, size⟩ true nodes state)
    (hexpression : ∀ e, node ≠ .expression e)
    (hspan : node.span = ⟨start, state.cursor.previousEnd⟩)
    (hchildren : ∀ child ∈ node.children, child.Fits start state.cursor.previousEnd) :
    Ends size start node state := by
  have hpassed := h.passed rfl
  have hstands := Node.stands_around hexpression
    (by rw [hspan, h.previousEnd]; exact hpassed) (by rw [hspan]; exact hchildren)
  rw [hspan] at hstands
  exact ⟨h.toIsReady, hspan, hstands⟩

theorem Placed.fits (h : Placed ⟨start, size⟩ true nodes state) {child : Node}
    (hmem : child ∈ nodes) : child.Fits start state.cursor.previousEnd := by
  rw [h.previousEnd]
  exact h.row.of_mem hmem

theorem Ends.enclosed (h : Ends region.stop start node state)
    (houter : Row Node.Fits region.start nodes start) :
    Placed region true (nodes ++ [node]) state := by
  have hstart := houter.le
  have hnonempty := Node.stands_spreads.le h.stands
  have hnode := h.stands.nonempty
  have hhigh := h.stands.le_high
  have hlow := h.stands.low_le
  have hreach : state.cursor.reach region = state.cursor.previousEnd := by
    unfold Cursor.reach
    omega
  refine ⟨⟨h.ready.sound, ?_⟩, ?_, fun _ => ?_⟩
  · have hlaid := h.ready.laid
    unfold Cursor.IsLaid at hlaid ⊢
    exact hlaid.widen (by unfold Cursor.reach; dsimp only; omega) (Nat.le_refl _)
  · rw [hreach]
    exact houter.concat h.stands.fits
  · omega

end Nodes

/-! ## Steps -/

theorem Moving.yields {step : Parse α} (h : Moving .silent step) :
    Yields (Placed region moved nodes) step fun _ => Placed region moved nodes :=
  h.ensures (fun _ _ hmoves hplaced => hplaced.moves hmoves) fun _ _ => trivial

theorem andThen {step : Parse α} {next : α → Parse β} {after : β → ParseState → Prop}
    (hmoving : Moving .silent step)
    (hnext : ∀ value, Yields (Placed region moved nodes) (next value) after) :
    Yields (Placed region moved nodes) (step >>= next) after := hmoving.yields.bind hnext

theorem orThen {condition : Prop} [Decidable condition] {first second : Parse α}
    {next : α → Parse β} {after : β → ParseState → Prop} (hfirst : Moving .silent first)
    (hsecond : Moving .silent second)
    (hnext : ∀ value, Yields (Placed region moved nodes) (next value) after) :
    Yields (Placed region moved nodes)
      (if condition then first >>= next else second >>= next) after :=
  .ite (fun _ => andThen hfirst hnext) fun _ => andThen hsecond hnext

theorem yields_advance {kind : TokenKind} (hkind : kind ≠ .endOfInput) :
    Yields (fun state => Placed region moved nodes state ∧ state.cursor.current.kind = kind)
      advance fun _ => Placed region true nodes := by
  rintro state ⟨hplaced, hcurrent⟩
  exact hplaced.takes (hplaced.sound.isEnded.takes (hcurrent ▸ hkind))

theorem yields_expect {kind : TokenKind} (hkind : kind ≠ .endOfInput) :
    Yields (Placed region moved nodes) (expect kind) fun _ => Placed region true nodes := by
  refine yields_kind fun found => .ite (fun hfound => ?_) fun _ => ?_
  · exact yields_advance (hfound ▸ hkind)
  · exact yields_fail _

theorem yields_expectMark (mark : Punctuation) :
    Yields (Placed region moved nodes) (expectMark mark) fun _ => Placed region true nodes :=
  have hmark : TokenKind.mark mark ≠ .endOfInput := nofun
  yields_expect hmark

theorem yields_identifier (expected : String) :
    Yields (Placed region moved nodes) (identifier expected) fun _ => Placed region true nodes := by
  refine yields_kind fun found => .ite (fun hfound => ?_) fun _ => ?_
  · have hkind : found ≠ .endOfInput := by
      rintro rfl
      cases hfound
    exact (yields_advance hkind).bind fun token => .pure fun _ hstate => hstate
  · exact yields_fail _

theorem yields_separated (separator : Punctuation) {item : Parse α} {nodesOf : α → List Node}
    (hitem : ∀ moved nodes, Yields (Placed region moved nodes) item
      fun value => Placed region true (nodes ++ nodesOf value)) :
    Yields (Placed region moved nodes) (separated separator item)
      fun values => Placed region true (nodes ++ values.flatMap nodesOf) := by
  have hadd (moved : Bool) (found : List α) :
      Yields (Placed region moved (nodes ++ found.flatMap nodesOf)) item
        fun value => Placed region true (nodes ++ (found ++ [value]).flatMap nodesOf) :=
    (hitem moved _).imp (fun _ => id) fun value state hstate => by simpa using hstate
  have hfirst := hadd moved []
  rw [List.flatMap_nil, List.append_nil] at hfirst
  have hexhaust (state : ParseState) : Moves .silent state { state with exhausted := true } :=
    .single (.exhaust state)
  exact .separated (fun found => Placed region true (nodes ++ found.flatMap nodesOf))
    (fun found state hplaced => hplaced.moves (hexhaust state)) separator hfirst (hadd true)
    fun found => (moving_acceptMark separator).yields

theorem yields_separatedNodes (separator : Punctuation) {item : Parse α} {nodeOf : α → Node}
    (hitem : ∀ moved nodes, Yields (Placed region moved nodes) item
      fun value => Placed region true (nodes ++ [nodeOf value])) :
    Yields (Placed region moved nodes) (separated separator item)
      fun values => Placed region true (nodes ++ values.map nodeOf) := by
  simp only [List.map_eq_flatMap]
  exact yields_separated separator hitem

/-! ## Begins and ends of nodes -/

theorem Placed.begins {state : ParseState} (h : Placed region moved nodes state) :
    Row Node.Fits region.start nodes state.cursor.current.span.start ∧
      Placed ⟨state.cursor.current.span.start, region.stop⟩ false [] state := by
  obtain ⟨passed, token, rest, errors, hcursor⟩ := h.sound.isEnded.exists_cons
  have hlaid := h.laid
  rw [Cursor.IsLaid, hcursor] at hlaid
  obtain _ | ⟨hfirst, hrest⟩ := hlaid
  have hlow := hfirst.low_le
  have hcurrent : state.cursor.current = token := by rw [hcursor]; rfl
  rw [← hcursor] at hlow
  rw [hcurrent]
  have hreach : state.cursor.reach ⟨token.span.start, region.stop⟩ = token.span.start := by
    unfold Cursor.reach at hlow ⊢
    dsimp only
    omega
  refine ⟨h.row.widen (Nat.le_refl _) hlow, ⟨h.sound, ?_⟩, .nil ?_,
    fun hmoved => absurd hmoved Bool.false_ne_true⟩
  · obtain ⟨-, hordered, hnonempty, hroom, hrecordable, hhigh⟩ := hfirst
    rw [Cursor.IsLaid, hreach, hcursor]
    exact .cons ⟨Nat.le_refl _, hordered, hnonempty, hroom, hrecordable, hhigh⟩ hrest
  · exact Nat.le_of_eq hreach.symm

theorem yields_position {next : Nat → Parse β} {after : β → ParseState → Prop}
    (h : ∀ start, Row Node.Fits region.start nodes start →
      Yields (fun state => Placed ⟨start, region.stop⟩ false [] state ∧
        Placed region moved nodes state) (next start) after) :
    Yields (Placed region moved nodes) (position >>= next) after := by
  intro state hplaced
  obtain ⟨houter, hinner⟩ := hplaced.begins
  exact h _ houter state ⟨hinner, hplaced⟩

theorem yields_enclosed {step : Nat → Parse α} {nodeOf : α → Node}
    (h : ∀ start, Yields (Placed ⟨start, region.stop⟩ false []) (step start)
      fun value => Ends region.stop start (nodeOf value)) :
    Yields (Placed region moved nodes) (position >>= step)
      fun value => Placed region true (nodes ++ [nodeOf value]) :=
  yields_position fun start houter =>
    (h start).imp (fun _ hstate => hstate.1) fun _ _ hends => hends.enclosed houter

theorem yields_end {value : Span → α} {after : α → ParseState → Prop} (node : Span → Node)
    (hexpression : ∀ span e, node span ≠ .expression e) (hspan : ∀ span, (node span).span = span)
    (hchildren : ∀ span, ∀ child ∈ (node span).children, child ∈ nodes)
    (hafter : ∀ span state, Ends size start (node span) state → after (value span) state) :
    Yields (Placed ⟨start, size⟩ true nodes) (spanFrom start >>= fun span => pure (value span))
      after := by
  intro state hplaced
  refine hafter ⟨start, state.cursor.previousEnd⟩ state (hplaced.ends (hexpression _) (hspan _) ?_)
  exact fun child hchild => hplaced.fits (hchildren _ child hchild)

end Parse

end Equational

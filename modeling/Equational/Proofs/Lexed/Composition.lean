import Equational.Proofs.Lexed.Joined

/-!
# Reading line by line

What is read behind the end of a line does not depend on the text before it.  So two texts may be
read apart: the tokens, the trivia and the diagnostics of the second one follow those of the first,
only moved, and a fatal diagnostic of the second one is a fatal diagnostic of both.
-/

namespace Equational

open Equational.Token Equational.Unicode

/-! ## Behind the end of a line -/

theorem Reads.readFrom_append_lineEnd {offset : Nat} {text : List Char} {pieces : List Piece}
    (h : Reads offset text pieces) (slots : List Slot) (trivia : List Trivia) (more : List Char) :
    Lexed.readFrom 0 offset (.ofSlots slots trivia) (text ++ '\n' :: more) =
      Lexed.readFrom 0 (offset + byteLength text + 1)
        (.ofSlots (slots ++ slotsOf pieces) (trivia ++ triviaOf pieces)) more := by
  induction h generalizing slots trivia with
  | nil offset =>
    simp only [slotsOf, triviaOf, List.filterMap_nil, List.append_nil]
    exact Lexed.readFrom_blank rfl offset (.ofSlots slots trivia) more
  | @blank offset c rest pieces hblank _ ih =>
    rw [List.cons_append, Lexed.readFrom_blank hblank, ih, byteLength_cons, Nat.add_assoc offset]
  | @lexeme offset c behind rest lexeme pieces hblank hfirst hclosed htext _ ih =>
    have hlonger : Lexeme.first (c :: (behind ++ '\n' :: more)) = lexeme :=
      (Lexeme.first_append_lineEnd more hblank (hfirst ▸ hclosed)).trans hfirst
    have hsplit : c :: (behind ++ '\n' :: more) = lexeme.text ++ (rest ++ '\n' :: more) := by
      rw [← List.append_assoc, ← htext, List.cons_append]
    have hnonempty : lexeme.text ≠ [] :=
      hfirst ▸ (Lexeme.first_fronts (List.cons_ne_nil c behind)).nonempty
    have hadd := Lexed.Reading.add_ofSlots slots trivia ⟨offset, lexeme⟩
    subst hlonger
    rw [List.cons_append, Lexed.readFrom_closed hclosed hsplit hnonempty, hadd, ih, htext,
      byteLength_append, Nat.add_assoc offset, slotsOf_cons, triviaOf_cons, List.append_assoc,
      List.append_assoc]

namespace Lexed

theorem CutInto.ofChars_append_lineEnd {text : List Char} {pieces : List Piece}
    (h : CutInto text pieces) (more : List Char) :
    ofChars (text ++ '\n' :: more) =
      readFrom 0 (byteLength text + 1) (.ofSlots (slotsOf pieces) (triviaOf pieces)) more := by
  unfold ofChars
  rw [interpreterLine_append_lineEnd]
  cases h with
  | @interpreted line rest pieces hline hrest =>
    have hadd := Reading.add_ofSlots [] [] ⟨0, line⟩
    simp only [hline]
    rw [List.append_assoc, readFrom_covered _ _ _ _ _ rfl, Nat.zero_add]
    refine (congrArg (readFrom 0 _ · _) hadd).trans ?_
    rw [hrest.readFrom_append_lineEnd, byteLength_append, List.nil_append, ← slotsOf_cons,
      List.nil_append, ← triviaOf_cons]
  | plain hnone hall =>
    have hread := hall.readFrom_append_lineEnd [] [] more
    simp only [hnone]
    rwa [Nat.zero_add, List.nil_append, List.nil_append] at hread

/-! ## Elsewhere -/

theorem readFrom_error_shift {covered offset : Nat} {reading : Reading} {text : List Char}
    {fatal : Diagnostic} (h : readFrom covered offset reading text = .error fatal) (distance : Nat)
    (other : Reading) :
    readFrom covered (offset + distance) other text =
      .error (relocate (Relocation.shift distance) fatal) := by
  induction text generalizing covered offset reading other with
  | nil => cases covered <;> cases h
  | cons c rest ih =>
    cases covered with
    | succ covered =>
      rw [readFrom] at h ⊢
      rw [Nat.add_right_comm]
      exact ih h other
    | zero =>
      simp only [readFrom] at h ⊢
      split at h
      · rename_i cause width _
        obtain rfl := Except.error.inj h
        rw [Nat.add_right_comm offset distance width, ← relocate_shift_between]
        rfl
      · rw [Nat.add_right_comm]
        exact ih h _

theorem LaterSlots.exists_ofLaterText {distance : Nat} {text : String} {slots : List Slot}
    (h : LaterSlots distance text.toList slots) :
    ∃ lexed own, ofLaterText text = .ok lexed ∧
      lexed.IsOf (own ++ [.endOfInput (byteLength text.toList)]) ∧
      slots = relocate (Relocation.shift distance) own := by
  obtain ⟨pieces, hreads, rfl⟩ := h
  cases hlexed : ofLaterText text with
  | error fatal =>
    have hshift := readFrom_error_shift hlexed distance (.ofSlots [] [])
    rw [Nat.zero_add, readFrom_of_reads hreads] at hshift
    cases hshift
  | ok lexed =>
    obtain ⟨own, hlexed', hown⟩ := laterSlots_of_ofLaterText hlexed
    have hmoved : LaterSlots (0 + distance) text.toList (slotsOf pieces) := by
      rw [Nat.zero_add]
      exact ⟨pieces, hreads, rfl⟩
    exact ⟨lexed, own, rfl, hlexed', hown.shift hmoved⟩

end Lexed

/-! ## Moved trivia -/

instance : Relocatable Trivia where
  relocate place trivia := { trivia with span := relocate place trivia.span }

private theorem Piece.trivia_moved (piece : Piece) (distance : Nat) :
    (piece.moved distance).trivia? =
      piece.trivia?.map (relocate (Relocation.shift distance)) := by
  have hspan := recordedSpan_moved piece distance
  obtain ⟨offset, text, meaning⟩ := piece
  cases meaning <;> simp only [trivia?, hspan] <;> rfl

theorem triviaOf_moved (pieces : List Piece) (distance : Nat) :
    triviaOf (pieces.map (Piece.moved distance)) =
      relocate (Relocation.shift distance) (triviaOf pieces) := by
  rw [triviaOf, List.filterMap_map, relocate_list, triviaOf, List.map_filterMap]
  exact congrArg (List.filterMap · pieces) (funext fun piece => piece.trivia_moved distance)

/-! ## Moved diagnostics -/

theorem DiagnosticMap.entriesFrom_relocate (place : Relocation) (slots : List Slot)
    (index other : Nat) :
    entriesFrom (index + other) (relocate place slots) =
      (entriesFrom other slots).map fun (found, diagnostic) =>
        (index + found, relocate place diagnostic) := by
  induction slots generalizing other with
  | nil => rfl
  | cons slot rest ih =>
    have hrest := ih (other + 1)
    have howed : (relocate place slot).owed = slot.owed.map (relocate place) := rfl
    rw [relocate_list] at hrest
    cases hkept : slot.owed <;> simp [entriesFrom, howed, hkept, Nat.add_assoc, hrest]

/-! ## Two texts -/

namespace Lexed

def proper (lexed : Lexed) : List Token :=
  lexed.tokens.filter fun token => token.kind != .endOfInput

/-- A unit is made of two others, the second of which has been moved. -/
structure Composes (first second : Lexed) (distance : Nat) (joined : Lexed) : Prop where
  tokens : joined.tokens = first.proper ++ relocate (Relocation.shift distance) second.tokens
  trivia : joined.trivia = first.trivia ++ relocate (Relocation.shift distance) second.trivia
  errors : joined.errors.entries = first.errors.entries ++ second.errors.entries.map
    fun (index, diagnostic) =>
      (first.proper.length + index, relocate (Relocation.shift distance) diagnostic)

theorem IsOf.proper {lexed : Lexed} {slots : List Slot} {size : Nat}
    (h : lexed.IsOf (slots ++ [.endOfInput size]))
    (hinside : ∀ slot ∈ slots, slot.kind ≠ .endOfInput) :
    lexed.proper = tokensOf slots := by
  have hproper : (tokensOf slots).filter (fun token => token.kind != .endOfInput) =
      tokensOf slots := List.filter_eq_self.mpr fun token hmem => by
    obtain ⟨slot, hslot, rfl⟩ := List.mem_map.mp hmem
    simpa using hinside slot hslot
  rw [Lexed.proper, h.tokens, tokensOf_append, List.filter_append, hproper]
  exact List.append_nil _

theorem relocate_endOfInput (size distance : Nat) :
    Slot.endOfInput (size + distance) =
      relocate (Relocation.shift distance) (Slot.endOfInput size) := by
  have hsize : recorded (size + distance) = recorded (recorded size + distance) :=
    (recorded_recorded_add _ _).symm
  exact congrArg (fun offset => (⟨Token.endOfInput offset, none⟩ : Slot)) hsize

theorem CutInto.composes {source : List Char} {pieces : List Piece} (h : CutInto source pieces)
    (later : List Piece) (size distance : Nat) :
    (ofPieces pieces (byteLength source)).Composes (ofPieces later size) distance
      (ofPieces (pieces ++ later.map (Piece.moved distance)) (size + distance)) := by
  have hproper := (isOf_ofPieces pieces (byteLength source)).proper fun slot hmem =>
    (h.liesIn slot hmem).inside
  have hslots : slotsOf (pieces ++ later.map (Piece.moved distance)) ++
      [.endOfInput (size + distance)] = slotsOf pieces ++
        relocate (Relocation.shift distance) (slotsOf later ++ [.endOfInput size]) := by
    rw [relocate_append, ← slotsOf_moved, slotsOf, List.filterMap_append, List.append_assoc,
      relocate_endOfInput]
    rfl
  have htrivia : triviaOf (pieces ++ later.map (Piece.moved distance)) =
      triviaOf pieces ++ relocate (Relocation.shift distance) (triviaOf later) := by
    rw [triviaOf, List.filterMap_append, ← triviaOf, ← triviaOf, triviaOf_moved]
  refine ⟨?_, htrivia, ?_⟩
  · rw [hproper, ofPieces, hslots, tokensOf_append, tokensOf_relocate]
    rfl
  · -- The end of the first text owes nothing.
    have hfirst : (ofPieces pieces (byteLength source)).errors.entries =
        DiagnosticMap.entriesFrom 0 (slotsOf pieces) := by
      change DiagnosticMap.entriesFrom 0 (slotsOf pieces ++ [Slot.endOfInput _]) = _
      rw [DiagnosticMap.entriesFrom_append]
      exact List.append_nil _
    rw [hproper, hfirst, ofPieces, hslots]
    change DiagnosticMap.entriesFrom 0 _ = _ ++ (DiagnosticMap.entriesFrom 0 _).map _
    rw [DiagnosticMap.entriesFrom_append, Nat.zero_add, ← DiagnosticMap.entriesFrom_relocate,
      tokensOf, List.length_map]
    rfl

/-! ## Whole sources -/

private theorem ofSource_append_lineEnd {source more : String} {pieces : List Piece}
    (h : CutInto source.toList pieces) :
    ofSource (source ++ "\n" ++ more) =
      readFrom 0 (byteLength source.toList + 1) (.ofSlots (slotsOf pieces) (triviaOf pieces))
        more.toList := by
  have htext : (source ++ "\n" ++ more).toList = source.toList ++ '\n' :: more.toList := by simp
  rw [ofSource, htext, h.ofChars_append_lineEnd]

private theorem ofSource_of_plain {more : String} (h : ¬['#', '!'] <+: more.toList) :
    ofSource more = readFrom 0 0 {} more.toList := by
  rw [ofSource, ofChars, interpreterLine_eq_none_iff.mpr h]

theorem ofSource_joined {source more : String} {lexed : Lexed} (h : ofSource source = .ok lexed)
    (hmore : ¬['#', '!'] <+: more.toList) :
    let joined := ofSource (source ++ "\n" ++ more)
    let distance := byteLength source.toList + 1
    ((∃ both, joined = .ok both) ↔ ∃ later, ofSource more = .ok later) ∧
      (∀ later, ofSource more = .ok later →
        ∃ both, joined = .ok both ∧ lexed.Composes later distance both) ∧
      ∀ fatal, ofSource more = .error fatal →
        joined = .error (relocate (Relocation.shift distance) fatal) := by
  intro joined distance
  obtain ⟨pieces, hcut, rfl⟩ := exists_pieces h
  have hjoined : joined = _ := ofSource_append_lineEnd hcut
  rw [ofSource_of_plain hmore]
  have hsuccess (later : Lexed) (hlater : readFrom 0 0 {} more.toList = .ok later) :
      ∃ both, joined = .ok both ∧
        (ofPieces pieces (byteLength source.toList)).Composes later distance both := by
    obtain ⟨found, hreads⟩ := exists_reads hlater
    have hread := (readFrom_of_reads hreads [] []).symm.trans hlater
    rw [List.nil_append, List.nil_append, finish_ofSlots, Nat.zero_add] at hread
    obtain rfl := Except.ok.inj hread
    have hmoved := hreads.shift distance
    rw [Nat.zero_add] at hmoved
    have hboth := hjoined.trans (readFrom_of_reads hmoved _ _)
    rw [slotsOf, slotsOf, ← List.filterMap_append, ← slotsOf, triviaOf, triviaOf,
      ← List.filterMap_append, ← triviaOf, finish_ofSlots, Nat.add_comm] at hboth
    exact ⟨_, hboth, hcut.composes found _ _⟩
  have hfailure (fatal : Diagnostic) (hfatal : readFrom 0 0 {} more.toList = .error fatal) :
      joined = .error (relocate (Relocation.shift distance) fatal) := by
    have hshift :=
      readFrom_error_shift hfatal distance (.ofSlots (slotsOf pieces) (triviaOf pieces))
    rw [Nat.zero_add] at hshift
    exact hjoined.trans hshift
  refine ⟨⟨?_, ?_⟩, hsuccess, hfailure⟩
  · rintro ⟨both, hboth⟩
    cases hlater : readFrom 0 0 {} more.toList with
    | ok later => exact ⟨later, rfl⟩
    | error fatal => cases (hfailure fatal hlater).symm.trans hboth
  · rintro ⟨later, hlater⟩
    obtain ⟨both, hboth, -⟩ := hsuccess later hlater
    exact ⟨both, hboth⟩

def firstLines : String := "#!q\nx = \"\\q\"; // ="

def secondLines : String := "/*\n*/ é: 0x"

theorem firstLines_joined :
    ∃ first second both, ofSource firstLines = .ok first ∧ ofSource secondLines = .ok second ∧
      ofSource (firstLines ++ "\n" ++ secondLines) = .ok both ∧
      first.Composes second (byteLength firstLines.toList + 1) both := by
  have hfirst : ofSource firstLines = .ok _ := rfl
  have hsecond : ofSource secondLines = .ok _ := rfl
  have hplain : ¬['#', '!'] <+: secondLines.toList := by decide
  obtain ⟨both, hboth, hcomposes⟩ := (ofSource_joined hfirst hplain).2.1 _ hsecond
  exact ⟨_, _, both, hfirst, hsecond, hboth, hcomposes⟩

end Lexed

end Equational

import Equational.Lexed
import Equational.Proofs.Slot
import Equational.Proofs.Token.LineEnd

/-!
# The pieces of a text

A text that is read without a fatal diagnostic is cut into pieces: lexemes at their offsets, with
blanks between them.  Tokens and trivia are those of the pieces, in order.  The pieces of a text
stay what they are when more lines are added behind it.
-/

namespace Equational

open Equational.Token Equational.Unicode

/-! ## Pieces -/

/-- A lexeme where it stands. -/
structure Piece where
  offset : Nat
  lexeme : Lexeme
  deriving DecidableEq

namespace Piece

def span (piece : Piece) : Span := ⟨piece.offset, piece.offset + byteLength piece.lexeme.text⟩

def recordedSpan (piece : Piece) : Span := .between piece.span.start piece.span.stop

def moved (distance : Nat) (piece : Piece) : Piece := ⟨piece.offset + distance, piece.lexeme⟩

def slot? (piece : Piece) : Option Slot :=
  match piece.lexeme.meaning with
  | .blank | .trivia _ => none
  | .token kind value home =>
    some ⟨⟨kind, String.ofList value, home.map String.ofList, piece.recordedSpan⟩, none⟩
  | .malformed cause | .unclosed cause _ =>
    some ⟨⟨.malformed, String.ofList piece.lexeme.text, none, piece.recordedSpan⟩,
      some ⟨cause, piece.recordedSpan⟩⟩

def trivia? (piece : Piece) : Option Trivia :=
  match piece.lexeme.meaning with
  | .trivia kind => some ⟨kind, String.ofList piece.lexeme.text, piece.recordedSpan⟩
  | _ => none

theorem slot_cases {piece : Piece} {slot : Slot} (h : piece.slot? = some slot) :
    (∃ kind value home, piece.lexeme.meaning = .token kind value home ∧
      slot = ⟨⟨kind, String.ofList value, home.map String.ofList, piece.recordedSpan⟩, none⟩) ∨
    ∃ cause, (piece.lexeme.meaning = .malformed cause ∨
        ∃ width, piece.lexeme.meaning = .unclosed cause width) ∧
      slot = ⟨⟨.malformed, String.ofList piece.lexeme.text, none, piece.recordedSpan⟩,
        some ⟨cause, piece.recordedSpan⟩⟩ := by
  unfold slot? at h
  cases hmeaning : piece.lexeme.meaning <;> simp only [hmeaning] at h <;> cases h
  · exact .inl ⟨_, _, _, rfl, rfl⟩
  · exact .inr ⟨_, .inl rfl, rfl⟩
  · exact .inr ⟨_, .inr ⟨_, rfl⟩, rfl⟩

end Piece

def slotsOf (pieces : List Piece) : List Slot := pieces.filterMap Piece.slot?

def triviaOf (pieces : List Piece) : List Trivia := pieces.filterMap Piece.trivia?

theorem slotsOf_cons (piece : Piece) (pieces : List Piece) :
    slotsOf (piece :: pieces) = piece.slot?.toList ++ slotsOf pieces := by
  cases hslot : piece.slot? <;> simp [slotsOf, hslot]

theorem triviaOf_cons (piece : Piece) (pieces : List Piece) :
    triviaOf (piece :: pieces) = piece.trivia?.toList ++ triviaOf pieces := by
  cases htrivia : piece.trivia? <;> simp [triviaOf, htrivia]

/-- The blanks of a text, and its lexemes from an offset on, none of which is left open. -/
inductive Reads : Nat → List Char → List Piece → Prop where
  | nil (offset : Nat) : Reads offset [] []
  | blank {offset : Nat} {c : Char} {rest : List Char} {pieces : List Piece}
      (hblank : isWhiteSpace c = true) (hrest : Reads (offset + c.utf8Size) rest pieces) :
      Reads offset (c :: rest) pieces
  | lexeme {offset : Nat} {c : Char} {behind rest : List Char} {lexeme : Lexeme}
      {pieces : List Piece} (hblank : isWhiteSpace c = false)
      (hfirst : Lexeme.first (c :: behind) = lexeme) (hclosed : ¬lexeme.isOpen)
      (htext : c :: behind = lexeme.text ++ rest)
      (hrest : Reads (offset + byteLength lexeme.text) rest pieces) :
      Reads offset (c :: behind) (⟨offset, lexeme⟩ :: pieces)

namespace Reads

theorem unique {offset : Nat} {text : List Char} {pieces others : List Piece}
    (h : Reads offset text pieces) (h' : Reads offset text others) : pieces = others := by
  induction h generalizing others with
  | nil offset =>
    cases h'
    rfl
  | blank hblank _ ih =>
    cases h' with
    | blank _ hrest => exact ih hrest
    | lexeme hnot => simp [hblank] at hnot
  | lexeme hblank hfirst _ htext _ ih =>
    cases h' with
    | blank hnot => simp [hblank] at hnot
    | lexeme _ hfirst' _ htext' hrest =>
      obtain rfl := hfirst.symm.trans hfirst'
      obtain rfl := List.append_cancel_left (htext.symm.trans htext')
      rw [ih hrest]

variable {offset : Nat} {text more : List Char} {pieces all : List Piece}

theorem forall_meaning {P : Meaning → Prop} (hfirst : ∀ text, P (Lexeme.first text).meaning)
    (h : Reads offset text pieces) : ∀ piece ∈ pieces, P piece.lexeme.meaning := by
  induction h with
  | nil => nofun
  | blank _ _ ih => exact ih
  | @lexeme _ c behind _ lexeme _ _ hlexeme _ _ _ ih =>
    refine List.forall_mem_cons.mpr ⟨?_, ih⟩
    rw [← hlexeme]
    exact hfirst (c :: behind)

/-! ## More lines -/

theorem exists_later (h : Reads offset text pieces)
    (hall : Reads offset (text ++ '\n' :: more) all) :
    ∃ later, all = pieces ++ later ∧ Reads (offset + byteLength text + 1) more later := by
  induction h generalizing all with
  | nil offset =>
    cases hall with
    | blank _ hrest => exact ⟨all, rfl, hrest⟩
    | lexeme hnot => exact absurd hnot (by decide)
  | blank hblank _ ih =>
    cases hall with
    | blank _ hrest =>
      obtain ⟨later, rfl, hlater⟩ := ih hrest
      exact ⟨later, rfl, by simpa [Nat.add_assoc] using hlater⟩
    | lexeme hnot => simp [hblank] at hnot
  | @lexeme offset c behind rest lexeme pieces hblank hfirst hclosed htext _ ih =>
    cases hall with
    | blank hnot => simp [hblank] at hnot
    | lexeme _ hfirst' _ htext' hrest =>
      have hlonger := Lexeme.first_append_lineEnd more hblank (hfirst ▸ hclosed)
      obtain rfl := hfirst.symm.trans (hlonger.symm.trans hfirst')
      change (c :: behind) ++ '\n' :: more = _ at htext'
      rw [htext, List.append_assoc] at htext'
      obtain rfl := List.append_cancel_left htext'
      obtain ⟨later, rfl, hlater⟩ := ih hrest
      refine ⟨later, rfl, ?_⟩
      rw [htext]
      simpa [Nat.add_assoc] using hlater

theorem shift (h : Reads offset text pieces) (distance : Nat) :
    Reads (offset + distance) text (pieces.map (Piece.moved distance)) := by
  induction h with
  | nil offset => exact .nil _
  | blank hblank _ ih =>
    refine .blank hblank ?_
    rwa [Nat.add_right_comm]
  | lexeme hblank hfirst hclosed htext _ ih =>
    refine .lexeme hblank hfirst hclosed htext ?_
    rwa [Nat.add_right_comm]

end Reads

/-! ## Reading -/

namespace Lexed

theorem readFrom_covered (covered offset : Nat) (reading : Reading) (text after : List Char)
    (h : text.length = covered) :
    readFrom covered offset reading (text ++ after) =
      readFrom 0 (offset + byteLength text) reading after := by
  induction text generalizing covered offset with
  | nil =>
    obtain rfl := h
    rfl
  | cons c rest ih =>
    obtain rfl := h
    rw [List.length_cons, List.cons_append, readFrom, ih _ _ rfl, byteLength_cons, Nat.add_assoc]

theorem readFrom_closed {c : Char} {behind rest : List Char}
    (hclosed : ¬(Lexeme.first (c :: behind)).isOpen)
    (htext : c :: behind = (Lexeme.first (c :: behind)).text ++ rest)
    (hne : (Lexeme.first (c :: behind)).text ≠ []) (offset : Nat) (reading : Reading) :
    readFrom 0 offset reading (c :: behind) =
      readFrom 0 (offset + byteLength (Lexeme.first (c :: behind)).text)
        (reading.add offset (Lexeme.first (c :: behind))) rest := by
  have hstep : readFrom 0 offset reading (c :: behind) =
      readFrom ((Lexeme.first (c :: behind)).text.length - 1) (offset + c.utf8Size)
        (reading.add offset (Lexeme.first (c :: behind))) behind := by
    rw [readFrom]
    split
    · rename_i hmeaning
      simp [Lexeme.isOpen, hmeaning] at hclosed
    · rfl
  rw [hstep]
  generalize Lexeme.first (c :: behind) = lexeme at htext hne ⊢
  obtain ⟨text, meaning⟩ := lexeme
  cases text with
  | nil => exact absurd rfl hne
  | cons d inner =>
    obtain ⟨rfl, rfl⟩ := List.cons.inj htext
    rw [byteLength_cons, ← Nat.add_assoc]
    exact readFrom_covered _ _ _ inner rest rfl

theorem readFrom_open {c : Char} {behind : List Char} (h : (Lexeme.first (c :: behind)).isOpen)
    (offset : Nat) (reading : Reading) :
    ∃ diagnostic, readFrom 0 offset reading (c :: behind) = .error diagnostic := by
  unfold Lexeme.isOpen at h
  split at h
  · rename_i hmeaning
    simp only [readFrom, hmeaning]
    exact ⟨_, rfl⟩
  · cases h

private theorem first_of_isWhiteSpace {c : Char} (h : isWhiteSpace c = true) (rest : List Char) :
    Lexeme.first (c :: rest) = ⟨c :: rest.takeWhile isWhiteSpace, .blank⟩ := by
  simp [Lexeme.first, patterns, blank?, h]

theorem readFrom_blank {c : Char} (h : isWhiteSpace c = true) (offset : Nat) (reading : Reading)
    (rest : List Char) :
    readFrom 0 offset reading (c :: rest) = readFrom 0 (offset + c.utf8Size) reading rest := by
  have hrun {d : Char} (hd : isWhiteSpace d = true) (offset : Nat) (behind : List Char) :
      readFrom 0 offset reading (d :: behind) =
        readFrom 0 (offset + byteLength ((d :: behind).takeWhile isWhiteSpace)) reading
          (behind.dropWhile isWhiteSpace) := by
    have hfirst := first_of_isWhiteSpace hd behind
    have htext :
        d :: behind = (Lexeme.first (d :: behind)).text ++ behind.dropWhile isWhiteSpace := by
      simp [hfirst]
    rw [readFrom_closed _ htext, hfirst] <;> simp [hfirst, Lexeme.isOpen, Reading.add, hd]
  rw [hrun h]
  cases rest with
  | nil => simp [h]
  | cons d behind =>
    by_cases hd : isWhiteSpace d
    · rw [hrun hd, List.takeWhile_cons_of_pos h, List.dropWhile_cons_of_pos hd, byteLength_cons,
        Nat.add_assoc]
    · simp [h, hd]

def Reading.ofSlots (slots : List Slot) (trivia : List Trivia) : Reading :=
  ⟨(tokensOf slots).reverse, trivia.reverse, .ofSlots slots⟩

theorem Reading.add_ofSlots (slots : List Slot) (trivia : List Trivia) (piece : Piece) :
    (Reading.ofSlots slots trivia).add piece.offset piece.lexeme =
      .ofSlots (slots ++ piece.slot?.toList) (trivia ++ piece.trivia?.toList) := by
  obtain ⟨offset, text, meaning⟩ := piece
  cases meaning <;>
    simp [ofSlots, add, push, pushMalformed, Piece.slot?, Piece.trivia?, tokensOf,
      DiagnosticMap.ofSlots_concat, Piece.recordedSpan, Piece.span]

theorem readFrom_of_reads {offset : Nat} {text : List Char} {pieces : List Piece}
    (h : Reads offset text pieces) (slots : List Slot) (trivia : List Trivia) :
    readFrom 0 offset (.ofSlots slots trivia) text =
      .ok ((Reading.ofSlots (slots ++ slotsOf pieces) (trivia ++ triviaOf pieces)).finish
        (offset + byteLength text)) := by
  induction h generalizing slots trivia with
  | nil offset => simp [readFrom, slotsOf, triviaOf]
  | blank hblank _ ih => rw [readFrom_blank hblank, ih, byteLength_cons, Nat.add_assoc]
  | @lexeme offset c behind rest lexeme pieces hblank hfirst hclosed htext _ ih =>
    obtain rfl := hfirst
    have hfronts := Lexeme.first_fronts (List.cons_ne_nil c behind)
    have hlength := congrArg byteLength htext
    have hadd := Reading.add_ofSlots slots trivia ⟨offset, Lexeme.first (c :: behind)⟩
    rw [byteLength_append] at hlength
    rw [readFrom_closed hclosed htext hfronts.nonempty, hadd, ih, hlength, Nat.add_assoc,
      slotsOf_cons, triviaOf_cons, List.append_assoc, List.append_assoc]

theorem exists_reads {offset : Nat} {reading : Reading} {text : List Char} {lexed : Lexed}
    (h : readFrom 0 offset reading text = .ok lexed) : ∃ pieces, Reads offset text pieces := by
  match text with
  | [] => exact ⟨[], .nil offset⟩
  | c :: behind =>
    by_cases hblank : isWhiteSpace c
    · rw [readFrom_blank hblank] at h
      obtain ⟨pieces, hreads⟩ := exists_reads h
      exact ⟨pieces, .blank hblank hreads⟩
    · by_cases hopen : (Lexeme.first (c :: behind)).isOpen
      · obtain ⟨diagnostic, hfatal⟩ := readFrom_open hopen offset reading
        rw [hfatal] at h
        cases h
      · have hfronts := Lexeme.first_fronts (List.cons_ne_nil c behind)
        obtain ⟨rest, htext⟩ := hfronts.isPrefix
        rw [readFrom_closed hopen htext.symm hfronts.nonempty] at h
        -- The rest is shorter, since the lexeme is not empty.
        have hshorter : rest.length < (c :: behind).length := by
          rw [← htext, List.length_append]
          exact Nat.lt_add_of_pos_left (List.length_pos_iff.mpr hfronts.nonempty)
        obtain ⟨pieces, hreads⟩ := exists_reads h
        exact ⟨_, .lexeme (by simpa using hblank) rfl hopen htext.symm hreads⟩
termination_by text.length
decreasing_by
  · exact Nat.lt_add_one _
  · exact hshorter

/-! ## Whole texts -/

def ofLaterText (text : String) : Except Diagnostic Lexed := readFrom 0 0 {} text.toList

def ofPieces (pieces : List Piece) (size : Nat) : Lexed :=
  let slots := slotsOf pieces ++ [.endOfInput size]
  ⟨tokensOf slots, triviaOf pieces, .ofSlots slots⟩

theorem finish_ofSlots (pieces : List Piece) (size : Nat) :
    (Reading.ofSlots (slotsOf pieces) (triviaOf pieces)).finish size = ofPieces pieces size := by
  simp [Reading.ofSlots, Reading.finish, ofPieces, tokensOf, DiagnosticMap.ofSlots_concat,
    Slot.endOfInput]

/-- A whole unit; the line that names an interpreter is a piece of its own. -/
inductive CutInto : List Char → List Piece → Prop where
  | interpreted {line : Lexeme} {rest : List Char} {pieces : List Piece}
      (hline : interpreterLine? (line.text ++ rest) = some line)
      (hrest : Reads (byteLength line.text) rest pieces) :
      CutInto (line.text ++ rest) (⟨0, line⟩ :: pieces)
  | plain {source : List Char} {pieces : List Piece} (hnone : interpreterLine? source = none)
      (hall : Reads 0 source pieces) : CutInto source pieces

theorem interpreterLine_eq_some {source : List Char} {line : Lexeme}
    (h : interpreterLine? source = some line) :
    ∃ rest, source = line.text ++ rest ∧ line.text ≠ [] ∧
      line.meaning = .trivia .interpreterLine := by
  unfold interpreterLine? at h
  split at h
  · rename_i behind
    cases h
    obtain ⟨rest, hrest⟩ := restOfLine_isPrefix behind
    exact ⟨rest, by simp [hrest], by simp, rfl⟩
  · cases h

theorem CutInto.forall_meaning {P : Meaning → Prop} (hfirst : ∀ text, P (Lexeme.first text).meaning)
    (hline : P (.trivia .interpreterLine)) {source : List Char} {pieces : List Piece}
    (h : CutInto source pieces) : ∀ piece ∈ pieces, P piece.lexeme.meaning := by
  cases h with
  | interpreted hread hrest =>
    refine List.forall_mem_cons.mpr ⟨?_, hrest.forall_meaning hfirst⟩
    obtain ⟨-, -, -, hmeaning⟩ := interpreterLine_eq_some hread
    rwa [hmeaning]
  | plain _ hall => exact hall.forall_meaning hfirst

theorem interpreterLine_eq_none_iff {source : List Char} :
    interpreterLine? source = none ↔ ¬['#', '!'] <+: source := by
  unfold interpreterLine?
  split
  · rename_i rest
    exact ⟨nofun, fun h => absurd ⟨rest, rfl⟩ h⟩
  · rename_i hno
    refine ⟨fun _ => ?_, fun _ => rfl⟩
    rintro ⟨rest, hrest⟩
    exact hno rest hrest.symm

theorem ofChars_of_cutInto {source : List Char} {pieces : List Piece} (h : CutInto source pieces) :
    ofChars source = .ok (ofPieces pieces (byteLength source)) := by
  cases h with
  | @interpreted line rest pieces hline hrest =>
    have hadd := Reading.add_ofSlots [] [] ⟨0, line⟩
    simp only [ofChars, hline]
    rw [readFrom_covered _ _ _ _ _ rfl, Nat.zero_add]
    refine (congrArg (readFrom 0 _ · rest) hadd).trans ?_
    rw [readFrom_of_reads hrest, List.nil_append, ← slotsOf_cons, List.nil_append,
      ← triviaOf_cons, finish_ofSlots, byteLength_append]
  | plain hnone hall =>
    have hread := readFrom_of_reads hall [] []
    simp only [ofChars, hnone]
    rwa [List.nil_append, List.nil_append, finish_ofSlots, Nat.zero_add] at hread

theorem exists_cutInto {source : List Char} {lexed : Lexed} (h : ofChars source = .ok lexed) :
    ∃ pieces, CutInto source pieces := by
  unfold ofChars at h
  split at h
  · rename_i line hline
    obtain ⟨rest, rfl, -, -⟩ := interpreterLine_eq_some hline
    rw [readFrom_covered _ _ _ _ _ rfl, Nat.zero_add] at h
    obtain ⟨pieces, hreads⟩ := exists_reads h
    exact ⟨_, .interpreted hline hreads⟩
  · rename_i hnone
    obtain ⟨pieces, hreads⟩ := exists_reads h
    exact ⟨pieces, .plain hnone hreads⟩

theorem exists_pieces {source : String} {lexed : Lexed} (h : ofSource source = .ok lexed) :
    ∃ pieces, CutInto source.toList pieces ∧
      lexed = ofPieces pieces (byteLength source.toList) := by
  obtain ⟨pieces, hcut⟩ := exists_cutInto h
  exact ⟨pieces, hcut, Except.ok.inj (h.symm.trans (ofChars_of_cutInto hcut))⟩

theorem interpreterLine_append_lineEnd (text more : List Char) :
    interpreterLine? (text ++ '\n' :: more) = interpreterLine? text := by
  rcases text with _ | ⟨a, _ | ⟨b, rest⟩⟩
  · rfl
  · by_cases ha : a = '#' <;> simp [interpreterLine?, ha]
  · by_cases ha : a = '#' <;> by_cases hb : b = '!' <;>
      simp [interpreterLine?, ha, hb, restOfLine_append_lineEnd]

theorem CutInto.exists_later {text more : List Char} {pieces all : List Piece}
    (h : CutInto text pieces) (hall : CutInto (text ++ '\n' :: more) all) :
    ∃ later, all = pieces ++ later ∧ Reads (byteLength text + 1) more later := by
  have hline := interpreterLine_append_lineEnd text more
  generalize hlonger : text ++ '\n' :: more = longer at hall hline
  cases h with
  | @interpreted line rest pieces hfirst hrest =>
    rw [hfirst] at hline
    cases hall with
    | @interpreted line' rest' all' hfirst' hrest' =>
      obtain rfl := Option.some.inj (hline.symm.trans hfirst')
      rw [List.append_assoc] at hlonger
      obtain rfl := List.append_cancel_left hlonger
      obtain ⟨later, rfl, hlater⟩ := hrest.exists_later hrest'
      exact ⟨later, rfl, by simpa using hlater⟩
    | plain hnone _ => cases hline.symm.trans hnone
  | plain hnone hrest =>
    rw [hnone] at hline
    cases hall with
    | interpreted hfirst' _ => cases hline.symm.trans hfirst'
    | plain _ hall =>
      rw [← hlonger] at hall
      obtain ⟨later, rfl, hlater⟩ := hrest.exists_later hall
      exact ⟨later, rfl, by simpa using hlater⟩

end Lexed

end Equational

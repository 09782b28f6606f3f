import Equational.Proofs.Lexed.Tiling
import Equational.Proofs.Token.Comment

/-!
# Comments as blanks

A unit in which every byte of the trivia is a space has the tokens of the unit with its trivia,
unless a module name stands in front of a comment: behind the double colon the symbol in front of
the comment is empty, and there is no such symbol in front of a space.
-/

namespace Equational

open Equational.Token Equational.Unicode

/-! ## Texts without trivia -/

/-- A text from an offset on, with a space for every byte that one of the pieces covers. -/
def blankOut (trivia : List Piece) : Nat → List Char → List Char
  | _, [] => []
  | offset, c :: rest =>
    let covered := trivia.any fun piece => piece.span.start ≤ offset ∧ offset < piece.span.stop
    (if covered then List.replicate c.utf8Size ' ' else [c]) ++
      blankOut trivia (offset + c.utf8Size) rest

def Piece.isTrivia (piece : Piece) : Bool := piece.trivia?.isSome

/-- A source that is cut into pieces, with a space for every byte of its trivia. -/
def withoutTrivia (pieces : List Piece) (source : String) : String :=
  String.ofList (blankOut (pieces.filter Piece.isTrivia) 0 source.toList)

section BlankOut

variable {trivia : List Piece}

theorem blankOut_append (front rest : List Char) (offset : Nat) :
    blankOut trivia offset (front ++ rest) =
      blankOut trivia offset front ++ blankOut trivia (offset + byteLength front) rest := by
  induction front generalizing offset with
  | nil => rfl
  | cons c front ih =>
    rw [List.cons_append, blankOut, ih, blankOut, byteLength_cons, Nat.add_assoc, List.append_assoc]

private theorem byteLength_replicate (count : Nat) :
    byteLength (List.replicate count ' ') = count := by
  induction count with
  | zero => rfl
  | succ count ih =>
    rw [List.replicate_succ, byteLength_cons, ih, Nat.add_comm]
    rfl

theorem byteLength_blankOut (offset : Nat) (text : List Char) :
    byteLength (blankOut trivia offset text) = byteLength text := by
  induction text generalizing offset with
  | nil => rfl
  | cons c rest ih =>
    rw [blankOut, byteLength_append, ih, byteLength_cons]
    congr 1
    split
    · exact byteLength_replicate _
    · simp

theorem blankOut_of_clear {offset : Nat} {text : List Char}
    (h : ∀ piece ∈ trivia, piece.span.stop ≤ offset ∨ offset + byteLength text ≤ piece.span.start) :
    blankOut trivia offset text = text := by
  induction text generalizing offset with
  | nil => rfl
  | cons c rest ih =>
    have hsize := c.utf8Size_pos
    rw [byteLength_cons] at h
    rw [blankOut, ih fun piece hmem => by have := h piece hmem; omega, if_neg]
    · rfl
    · simp only [List.any_eq_true, decide_eq_true_eq, not_exists, not_and]
      intro piece hmem
      have := h piece hmem
      omega

theorem blankOut_of_covered {offset : Nat} {text : List Char} {piece : Piece}
    (hmem : piece ∈ trivia) (hstart : piece.span.start ≤ offset)
    (hstop : offset + byteLength text ≤ piece.span.stop) :
    blankOut trivia offset text = List.replicate (byteLength text) ' ' := by
  induction text generalizing offset with
  | nil => rfl
  | cons c rest ih =>
    have hsize := c.utf8Size_pos
    rw [byteLength_cons] at hstop
    rw [blankOut, ih (by omega) (by omega), if_pos, byteLength_cons,
      List.replicate_append_replicate]
    simp only [List.any_eq_true, decide_eq_true_eq]
    exact ⟨piece, hmem, hstart, by omega⟩

end BlankOut

/-! ## Pieces without trivia -/

namespace Piece

/-- The symbol behind the module part is empty. -/
def IsEmptySymbol (piece : Piece) : Prop :=
  ∃ home, piece.lexeme.meaning = .token .operatorSymbol [] home

theorem meaning_of_isTrivia {piece : Piece} (h : piece.isTrivia) :
    ∃ kind, piece.lexeme.meaning = .trivia kind := by
  unfold isTrivia trivia? at h
  split at h
  · exact ⟨_, ‹_›⟩
  · cases h

theorem isTrivia_of_meaning {piece : Piece} {kind : TriviaKind}
    (h : piece.lexeme.meaning = .trivia kind) : piece.isTrivia := by
  simp only [isTrivia, trivia?, h]
  rfl

def kept (pieces : List Piece) : List Piece := pieces.filter fun piece => !piece.isTrivia

theorem kept_of_isTrivia {piece : Piece} (h : piece.isTrivia) (pieces : List Piece) :
    kept (piece :: pieces) = kept pieces :=
  List.filter_cons_of_neg (by simp [h])

theorem kept_of_not_isTrivia {piece : Piece} (h : piece.isTrivia = false) (pieces : List Piece) :
    kept (piece :: pieces) = piece :: kept pieces :=
  List.filter_cons_of_pos (by simp [h])

theorem triviaOf_kept (pieces : List Piece) : triviaOf (kept pieces) = [] := by
  refine List.filterMap_eq_nil_iff.mpr fun piece hmem => ?_
  have hkept := (List.mem_filter.mp hmem).2
  simpa [isTrivia] using hkept

theorem slotsOf_kept (pieces : List Piece) : slotsOf (kept pieces) = slotsOf pieces := by
  induction pieces with
  | nil => rfl
  | cons piece pieces ih =>
    cases htrivia : piece.isTrivia with
    | false => rw [kept_of_not_isTrivia htrivia, slotsOf_cons, slotsOf_cons, ih]
    | true =>
      obtain ⟨found, hfound⟩ := Option.isSome_iff_exists.mp htrivia
      rw [kept_of_isTrivia htrivia, slotsOf_cons, (text_of_trivia hfound).2.2, ih]
      rfl

end Piece

structure Covering (trivia : List Piece) (offset : Nat) (pieces : List Piece) : Prop where
  mem : ∀ piece ∈ pieces, piece.isTrivia → piece ∈ trivia
  before : ∀ piece ∈ trivia, piece.span.stop ≤ offset ∨ piece ∈ pieces ∧ piece.isTrivia

namespace Covering

variable {trivia : List Piece} {offset later : Nat} {piece : Piece} {pieces : List Piece}

theorem mono (h : Covering trivia offset pieces) (hle : offset ≤ later) :
    Covering trivia later pieces where
  mem := h.mem
  before found hfound := (h.before found hfound).imp_left fun hstop => Nat.le_trans hstop hle

theorem tail (h : Covering trivia offset (piece :: pieces)) (hle : offset ≤ later)
    (hpiece : piece.isTrivia → piece.span.stop ≤ later) : Covering trivia later pieces where
  mem other hother := h.mem other (List.mem_cons_of_mem piece hother)
  before found hfound := by
    rcases h.before found hfound with hstop | ⟨hmem, htrivia⟩
    · exact .inl (Nat.le_trans hstop hle)
    · rcases List.mem_cons.mp hmem with rfl | hmem
      · exact .inl (hpiece htrivia)
      · exact .inr ⟨hmem, htrivia⟩

end Covering

namespace Reads

variable {trivia : List Piece} {offset : Nat} {text rest : List Char} {pieces : List Piece}

theorem spaces (count : Nat) (h : Reads (offset + count) rest pieces) :
    Reads offset (List.replicate count ' ' ++ rest) pieces := by
  induction count generalizing offset with
  | zero => exact h
  | succ count ih =>
    refine .blank (by decide) (ih ?_)
    rwa [Nat.add_assoc, Nat.add_comm _ count] 

theorem blankOut_front (h : Reads (offset + byteLength text) rest pieces)
    (hcovering : Covering trivia offset pieces) : blankOut trivia offset text = text := by
  refine blankOut_of_clear fun found hfound => ?_
  rcases hcovering.before found hfound with hstop | ⟨hmem, -⟩
  · exact .inl hstop
  · obtain ⟨before, -, -, hoffset⟩ := h.covers hmem
    exact .inr (by simp only [Piece.span]; omega)

/-- Without its trivia a text is read into the same tokens, and it parts from the text with them
only where a comment begins. -/
structure IsBlanked (trivia : List Piece) (offset : Nat) (text : List Char) (pieces : List Piece) :
    Prop where
  reads : Reads offset (blankOut trivia offset text) (Piece.kept pieces)
  blanks : Blanks text (blankOut trivia offset text)

variable {lexeme : Lexeme}

theorem IsBlanked.blank {c : Char} (h : IsBlanked trivia (offset + c.utf8Size) rest pieces)
    (hblank : isWhiteSpace c = true) (hfront : blankOut trivia offset [c] = [c]) :
    IsBlanked trivia offset (c :: rest) pieces := by
  have hno : ¬OpensComment ([c] ++ rest) := by
    intro hopens
    obtain ⟨after, hslash⟩ := hopens.exists_cons
    obtain ⟨rfl, -⟩ := List.cons.inj hslash
    exact absurd hblank (by decide)
  rw [← List.singleton_append]
  constructor <;> rw [blankOut_append, hfront]
  · exact .blank hblank (by simpa using h.reads)
  · simpa using h.blanks.append hno

theorem IsBlanked.comment (h : IsBlanked trivia (offset + byteLength lexeme.text) rest pieces)
    (htrivia : Piece.isTrivia ⟨offset, lexeme⟩) (hmem : ⟨offset, lexeme⟩ ∈ trivia)
    (hne : lexeme.text ≠ []) (hopens : OpensComment (lexeme.text ++ rest)) :
    IsBlanked trivia offset (lexeme.text ++ rest) (⟨offset, lexeme⟩ :: pieces) := by
  have hcovered : blankOut trivia offset lexeme.text =
      List.replicate (byteLength lexeme.text) ' ' :=
    blankOut_of_covered hmem (Nat.le_refl _) (Nat.le_refl _)
  constructor <;> rw [blankOut_append, hcovered]
  · rw [Piece.kept_of_isTrivia htrivia]
    exact h.reads.spaces _
  · obtain ⟨size, hsize⟩ : ∃ size, byteLength lexeme.text = size + 1 := by
      cases htext : lexeme.text with
      | nil => exact absurd htext hne
      | cons c inner =>
        exact Nat.exists_eq_add_one.mpr (Nat.add_pos_left c.utf8Size_pos _)
    rw [hsize, List.replicate_succ]
    exact .comment hopens _

theorem IsBlanked.kept (h : IsBlanked trivia (offset + byteLength lexeme.text) rest pieces)
    (htrivia : Piece.isTrivia ⟨offset, lexeme⟩ = false)
    (hsymbol : ¬Piece.IsEmptySymbol ⟨offset, lexeme⟩) {c : Char} {inner : List Char}
    (htext : lexeme.text = c :: inner) (hblank : isWhiteSpace c = false)
    (hfirst : Lexeme.first (lexeme.text ++ rest) = lexeme) (hclosed : ¬lexeme.isOpen)
    (hfront : blankOut trivia offset lexeme.text = lexeme.text) :
    IsBlanked trivia offset (lexeme.text ++ rest) (⟨offset, lexeme⟩ :: pieces) := by
  have hno : ¬OpensComment (lexeme.text ++ rest) := by
    intro hopens
    rcases first_of_opensComment hopens with ⟨kind, hkind⟩ | hopen
    · rw [hfirst] at hkind
      cases htrivia.symm.trans (Piece.isTrivia_of_meaning hkind)
    · exact hclosed (hfirst ▸ hopen)
  have hagain := h.blanks.first_eq htext hblank hclosed hno
    (fun home hmeaning => hsymbol ⟨home, hmeaning⟩) hfirst
  constructor <;> rw [blankOut_append, hfront]
  · rw [Piece.kept_of_not_isTrivia htrivia]
    have hreads := h.reads
    rw [htext] at hagain ⊢
    exact .lexeme hblank hagain hclosed (by rw [htext]; rfl) hreads
  · exact h.blanks.append hno

theorem isBlanked (h : Reads offset text pieces) (hcovering : Covering trivia offset pieces)
    (hsymbols : ∀ piece ∈ pieces, ¬piece.IsEmptySymbol) : IsBlanked trivia offset text pieces := by
  induction h with
  | nil offset => exact ⟨.nil offset, .nil⟩
  | @blank offset c rest pieces hblank hrest ih =>
    have hfront : blankOut trivia offset [c] = [c] :=
      blankOut_front (by simpa using hrest) hcovering
    exact (ih (hcovering.mono (Nat.le_add_right _ _)) hsymbols).blank hblank hfront
  | @lexeme offset c behind rest lexeme pieces hblank hfirst hclosed htext hrest ih =>
    obtain ⟨hsymbol, hsymbols⟩ := List.forall_mem_cons.mp hsymbols
    have hlater : Covering trivia (offset + byteLength lexeme.text) pieces :=
      hcovering.tail (Nat.le_add_right _ _) fun _ => Nat.le_refl _
    have hfronts := Lexeme.first_fronts (List.cons_ne_nil c behind)
    rw [hfirst] at hfronts
    obtain ⟨inner, hinner⟩ : ∃ inner, lexeme.text = c :: inner := by
      cases hlexeme : lexeme.text with
      | nil => exact absurd hlexeme hfronts.nonempty
      | cons d inner =>
        rw [hlexeme] at htext
        exact ⟨inner, by rw [(List.cons.inj htext).1]⟩
    rw [htext] at hfirst ⊢
    cases htrivia : Piece.isTrivia ⟨offset, lexeme⟩ with
    | true =>
      obtain ⟨kind, hkind⟩ := Piece.meaning_of_isTrivia htrivia
      have hfound := Lexeme.first_foundIn (lexeme.text ++ rest)
      rw [hfirst] at hfound
      exact (ih hlater hsymbols).comment htrivia (hcovering.mem _ List.mem_cons_self htrivia)
        hfronts.nonempty (opensComment_of_trivia hfound hkind)
    | false =>
      exact (ih hlater hsymbols).kept htrivia hsymbol hinner hblank hfirst hclosed
        (blankOut_front hrest (hcovering.tail (Nat.le_refl _) (by simp [htrivia])))

theorem exists_trivia_of_emptySymbol (h : Reads offset text pieces) {piece : Piece}
    (hmem : piece ∈ pieces) (hsymbol : piece.IsEmptySymbol) :
    ∃ other ∈ pieces, other.isTrivia := by
  induction h with
  | nil => cases hmem
  | blank _ _ ih => exact ih hmem
  | @lexeme offset c behind rest lexeme pieces _ hfirst _ htext hrest ih =>
    rcases List.mem_cons.mp hmem with rfl | hmem
    · obtain ⟨home, hmeaning⟩ := hsymbol
      subst hfirst
      have hopens := opensComment_of_emptySymbol (Lexeme.first_foundIn _) htext hmeaning
      obtain ⟨after, hslash⟩ := hopens.exists_cons
      cases hrest with
      | nil => cases hslash
      | blank hblank _ =>
        obtain ⟨rfl, -⟩ := List.cons.inj hslash
        exact absurd hblank (by decide)
      | @lexeme _ d behind' rest' comment pieces' _ hfirst' hclosed' _ _ =>
        rcases first_of_opensComment hopens with ⟨kind, hkind⟩ | hopen
        · rw [hfirst'] at hkind
          exact ⟨_, List.mem_cons_of_mem _ List.mem_cons_self, Piece.isTrivia_of_meaning hkind⟩
        · exact absurd (hfirst' ▸ hopen) hclosed'
    · obtain ⟨other, hother, hfound⟩ := ih hmem
      exact ⟨other, List.mem_cons_of_mem _ hother, hfound⟩

end Reads

/-! ## Units without trivia -/

namespace Piece

theorem isEmptySymbol_of_slot {piece : Piece} {slot : Slot} (h : piece.slot? = some slot)
    (hkind : slot.kind = .operatorSymbol) (hvalue : slot.value = "") : piece.IsEmptySymbol := by
  rcases slot_cases h with ⟨kind, value, home, hmeaning, rfl⟩ | ⟨cause, -, rfl⟩
  · obtain rfl : kind = .operatorSymbol := hkind
    obtain rfl : value = [] := by simpa using hvalue
    exact ⟨home, hmeaning⟩
  · cases hkind

theorem slot_of_isEmptySymbol {piece : Piece} (h : piece.IsEmptySymbol) :
    ∃ slot, piece.slot? = some slot ∧ slot.kind = .operatorSymbol ∧ slot.value = "" := by
  obtain ⟨home, hmeaning⟩ := h
  exact ⟨_, by simp only [slot?, hmeaning]; rfl, rfl, rfl⟩

end Piece

namespace Lexed

variable {source : List Char} {pieces : List Piece}

theorem CutInto.blanked (h : CutInto source pieces)
    (hsymbols : ∀ piece ∈ pieces, ¬piece.IsEmptySymbol) :
    CutInto (blankOut (pieces.filter Piece.isTrivia) 0 source) (Piece.kept pieces) := by
  have hcovering : Covering (pieces.filter Piece.isTrivia) 0 pieces :=
    ⟨fun piece hmem htrivia => List.mem_filter.mpr ⟨hmem, htrivia⟩,
      fun piece hmem => .inr (List.mem_filter.mp hmem)⟩
  generalize pieces.filter Piece.isTrivia = trivia at hcovering
  cases h with
  | @interpreted line rest pieces hline hrest =>
    obtain ⟨-, hsymbols⟩ := List.forall_mem_cons.mp hsymbols
    obtain ⟨-, -, hne, hmeaning⟩ := interpreterLine_eq_some hline
    have htrivia : Piece.isTrivia ⟨0, line⟩ := Piece.isTrivia_of_meaning hmeaning
    have hcovered : blankOut trivia 0 line.text = List.replicate (byteLength line.text) ' ' :=
      blankOut_of_covered (hcovering.mem _ List.mem_cons_self htrivia) (Nat.le_refl _)
        (Nat.le_refl _)
    have hrestCovering : Covering trivia (byteLength line.text) pieces :=
      hcovering.tail (Nat.zero_le _) fun _ => Nat.le_of_eq (Nat.zero_add _)
    have hreads := (hrest.isBlanked hrestCovering hsymbols).reads
    rw [Piece.kept_of_isTrivia htrivia, blankOut_append, hcovered]
    rw [Nat.zero_add]
    refine .plain (interpreterLine_eq_none_iff.mpr ?_)
      (Reads.spaces _ (by rwa [Nat.zero_add]))
    cases htext : line.text with
    | nil => exact absurd htext hne
    | cons c inner =>
      obtain ⟨size, hsize⟩ := Nat.exists_eq_add_one.mpr (Nat.add_pos_left c.utf8Size_pos _)
      rintro ⟨after, hafter⟩
      rw [byteLength_cons, hsize, List.replicate_succ] at hafter
      cases hafter
  | plain hnone hall =>
    obtain ⟨hreads, hblanks⟩ := hall.isBlanked hcovering hsymbols
    refine .plain ?_ hreads
    rw [interpreterLine_eq_none_iff] at hnone ⊢
    exact fun hline => hnone (hblanks.parting.isPrefix (by simp) hline)

theorem CutInto.exists_trivia_of_emptySymbol (h : CutInto source pieces) {piece : Piece}
    (hmem : piece ∈ pieces) (hsymbol : piece.IsEmptySymbol) : triviaOf pieces ≠ [] := by
  obtain ⟨other, hother, htrivia⟩ : ∃ other ∈ pieces, other.isTrivia := by
    cases h with
    | @interpreted line rest pieces hline _ =>
      obtain ⟨-, -, -, hmeaning⟩ := interpreterLine_eq_some hline
      exact ⟨_, List.mem_cons_self, Piece.isTrivia_of_meaning hmeaning⟩
    | plain _ hall => exact hall.exists_trivia_of_emptySymbol hmem hsymbol
  obtain ⟨found, hfound⟩ := Option.isSome_iff_exists.mp htrivia
  exact List.ne_nil_of_mem (List.mem_filterMap.mpr ⟨other, hother, hfound⟩)

private theorem exists_piece_of_mem {size : Nat} {token : Token}
    (hmem : token ∈ (ofPieces pieces size).tokens) (hkind : token.kind ≠ .endOfInput) :
    ∃ piece ∈ pieces, ∃ slot, piece.slot? = some slot ∧ slot.toToken = token := by
  obtain ⟨slot, hslot, rfl⟩ := List.mem_map.mp hmem
  rcases List.mem_append.mp hslot with hslot | hend
  · obtain ⟨piece, hpiece, hslot⟩ := List.mem_filterMap.mp hslot
    exact ⟨piece, hpiece, slot, hslot, rfl⟩
  · obtain rfl := List.mem_singleton.mp hend
    exact absurd rfl hkind

/-- Comments are transparent just where they leave no symbol empty. -/
theorem ofSource_withoutTrivia {source : String} {lexed : Lexed} (h : ofSource source = .ok lexed) :
    ∃ pieces, CutInto source.toList pieces ∧ lexed = ofPieces pieces (byteLength source.toList) ∧
      (ofSource (withoutTrivia pieces source) = .ok { lexed with trivia := [] } ↔
        ∀ token ∈ lexed.tokens, token.kind = .operatorSymbol → token.value ≠ "") := by
  obtain ⟨pieces, hcut, rfl⟩ := exists_pieces h
  refine ⟨pieces, hcut, rfl, fun hblanked token hmem hkind hvalue => ?_, fun hsymbols => ?_⟩
  · obtain ⟨others, hothers, hsame⟩ := exists_pieces hblanked
    have hmem' : token ∈ (ofPieces others _).tokens := congrArg Lexed.tokens hsame ▸ hmem
    obtain ⟨piece, hpiece, slot, hslot, rfl⟩ := exists_piece_of_mem hmem' (by simp [hkind])
    exact hothers.exists_trivia_of_emptySymbol hpiece
      (Piece.isEmptySymbol_of_slot hslot hkind hvalue) (congrArg Lexed.trivia hsame).symm
  · have hkept : ∀ piece ∈ pieces, ¬piece.IsEmptySymbol := by
      intro piece hpiece hsymbol
      obtain ⟨slot, hslot, hkind, hvalue⟩ := Piece.slot_of_isEmptySymbol hsymbol
      refine hsymbols slot.toToken (List.mem_map_of_mem (List.mem_append_left _ ?_)) hkind hvalue
      exact List.mem_filterMap.mpr ⟨piece, hpiece, hslot⟩
    rw [withoutTrivia, ofSource, String.toList_ofList, ofChars_of_cutInto (hcut.blanked hkept),
      byteLength_blankOut, ofPieces, ofPieces, Piece.slotsOf_kept, Piece.triviaOf_kept]

/-- An interpreter line, operators that end in front of comments, an at sign in front of one, and a
comment opener in a string. -/
def commentedSource : String := "#!é\nA::+/*é*/ x +//\n @// @\n\"//\" -> /**/ 08"

theorem commentedSource_blanked :
    ∃ lexed, ofSource commentedSource = .ok lexed ∧ lexed.trivia.length = 5 ∧
      lexed.tokens.length = 8 ∧
      ∃ pieces, CutInto commentedSource.toList pieces ∧
        lexed = ofPieces pieces (byteLength commentedSource.toList) ∧
        ofSource (withoutTrivia pieces commentedSource) = .ok { lexed with trivia := [] } := by
  obtain ⟨pieces, hcut, hlexed, hblanked⟩ :=
    ofSource_withoutTrivia (rfl : ofSource commentedSource = .ok _)
  exact ⟨_, rfl, rfl, rfl, pieces, hcut, hlexed, hblanked.mpr (by decide)⟩

end Lexed

end Equational

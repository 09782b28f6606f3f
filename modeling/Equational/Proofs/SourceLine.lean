import Equational.Proofs.Bytes
import Equational.SourceLine

/-!
# The line at an offset

The lines of a text are its pieces, cut behind each line end.  The line found for an offset is the
one behind as many line ends as there are among the bytes in front of that offset, which need not
be between two characters; what is left of the offset is the place in the line.
-/

namespace Equational

/-! ## Lines -/

/-- The pieces of a text, cut behind each line end. -/
inductive CutBehindLineEnds : List Char → List (List Char) → Prop where
  | nil : CutBehindLineEnds [] []
  | unfinished {line : List Char} (hne : line ≠ []) (hline : '\n' ∉ line) :
      CutBehindLineEnds line [line]
  | finished {line rest : List Char} {lines : List (List Char)} (hline : '\n' ∉ line)
      (hrest : CutBehindLineEnds rest lines) :
      CutBehindLineEnds (line ++ '\n' :: rest) ((line ++ ['\n']) :: lines)

theorem sourceLines_unfinished {line : List Char} (hne : line ≠ []) (hline : '\n' ∉ line) :
    sourceLines line = [line] := by
  induction line with
  | nil => exact absurd rfl hne
  | cons c rest ih =>
    simp only [List.mem_cons, not_or] at hline
    obtain ⟨hc, hrest⟩ := hline
    by_cases hnil : rest = []
    · simp [sourceLines, hnil, Ne.symm hc]
    · simp [sourceLines, ih hnil hrest, Ne.symm hc]

theorem sourceLines_finished {line : List Char} (hline : '\n' ∉ line) (rest : List Char) :
    sourceLines (line ++ '\n' :: rest) = (line ++ ['\n']) :: sourceLines rest := by
  induction line with
  | nil => simp [sourceLines]
  | cons c line ih =>
    simp only [List.mem_cons, not_or] at hline
    simp [sourceLines, ih hline.2, Ne.symm hline.1]

theorem cut_sourceLines (text : List Char) : CutBehindLineEnds text (sourceLines text) := by
  by_cases hmem : '\n' ∈ text
  · obtain ⟨line, rest, htext, hline⟩ := List.eq_append_cons_of_mem hmem
    have hshorter : rest.length < text.length := by
      simp [htext]
      omega
    rw [htext, sourceLines_finished hline]
    exact .finished hline (cut_sourceLines rest)
  · by_cases hnil : text = []
    · subst hnil
      exact .nil
    · rw [sourceLines_unfinished hnil hmem]
      exact .unfinished hnil hmem
termination_by text.length

namespace CutBehindLineEnds

variable {text : List Char} {lines : List (List Char)}

theorem eq_sourceLines (h : CutBehindLineEnds text lines) : lines = sourceLines text := by
  induction h with
  | nil => rfl
  | unfinished hne hline => rw [sourceLines_unfinished hne hline]
  | finished hline _ ih => rw [sourceLines_finished hline, ih]

end CutBehindLineEnds

/-! ## Line ends in front of an offset -/

theorem utf8Size_lineEnd : '\n'.utf8Size = 1 := rfl

def lineEndsWithin (bytes : Nat) (text : List Char) : Nat :=
  ((utf8Bytes text).take bytes).count lineEndByte

theorem lineEndsWithin_unfinished {line : List Char} (hline : '\n' ∉ line) (bytes : Nat) :
    lineEndsWithin bytes line = 0 :=
  List.count_eq_zero.mpr fun hmem => lineEndByte_not_mem hline (List.mem_of_mem_take hmem)

theorem lineEndsWithin_line {line : List Char} (hline : '\n' ∉ line) (rest : List Char)
    {bytes : Nat} (h : bytes ≤ byteLength line) : lineEndsWithin bytes (line ++ rest) = 0 := by
  unfold lineEndsWithin
  rw [utf8Bytes_append, List.take_append_of_le_length (by simpa using h)]
  exact lineEndsWithin_unfinished hline bytes

theorem lineEndsWithin_behind {line : List Char} (hline : '\n' ∉ line) (rest : List Char)
    (bytes : Nat) :
    lineEndsWithin (byteLength line + 1 + bytes) (line ++ '\n' :: rest) =
      lineEndsWithin bytes rest + 1 := by
  unfold lineEndsWithin
  have hbytes : utf8Bytes (line ++ '\n' :: rest) =
      (utf8Bytes line ++ [lineEndByte]) ++ utf8Bytes rest := by
    simp [utf8EncodeChar_lineEnd]
  have hlength : (utf8Bytes line ++ [lineEndByte]).length = byteLength line + 1 := by simp
  rw [hbytes, ← hlength, List.take_length_add_append, List.count_append, List.count_append,
    List.count_eq_zero_of_not_mem (lineEndByte_not_mem hline)]
  simp
  omega

/-! ## The line that is found -/

/-- At the end of the text, where a line end has closed the last line, or where there is no line. -/
def IsBehindLines (text : List Char) (place : Nat) : Prop :=
  text = [] ∨ place = byteLength text ∧ text.getLast? = some '\n'

theorem isBehindLines_behind {rest : List Char} {place : Nat} (h : place ≤ byteLength rest)
    (line : List Char) :
    IsBehindLines (line ++ '\n' :: rest) (byteLength line + 1 + place) ↔
      IsBehindLines rest place := by
  have hlast : (line ++ '\n' :: rest).getLast? = some '\n' ↔
      rest = [] ∨ rest.getLast? = some '\n' := by
    cases rest <;> simp [List.getLast?_append, List.getLast?_cons_cons]
  have hplace : byteLength line + 1 + place = byteLength (line ++ '\n' :: rest) ↔
      place = byteLength rest := by
    simp only [byteLength_append, byteLength_cons, utf8Size_lineEnd]
    omega
  have hempty : rest = [] → place = byteLength rest := by
    rintro rfl
    simpa using h
  simp only [IsBehindLines, hlast, hplace, List.append_eq_nil_iff, reduceCtorEq, and_false,
    false_or]
  tauto

namespace LinePosition

theorem among_unfinished (first place : Nat) {line : List Char} (hline : '\n' ∉ line) :
    among first place [line] = ⟨first, line, place⟩ := by
  have hlast : line.getLast? ≠ some '\n' := fun hlast => hline (List.mem_of_getLast? hlast)
  simp [among, hlast]

theorem among_within (first : Nat) {place : Nat} {line : List Char} (h : place < byteLength line)
    (lines : List (List Char)) : among first place (line :: lines) = ⟨first, line, place⟩ := by
  simp [among, h]

theorem among_behind (first place : Nat) (line : List Char) (lines : List (List Char)) :
    among first (byteLength line + 1 + place) ((line ++ ['\n']) :: lines) =
      among (first + 1) place lines := by
  have hbehind : ¬byteLength line + 1 + place < byteLength line + 1 := by omega
  simp [among, utf8Size_lineEnd, hbehind]

structure Holds (found : LinePosition) (first : Nat) (text : List Char)
    (lines : List (List Char)) (place : Nat) : Prop where
  number : found.number = first + lineEndsWithin place text
  inLine : ¬IsBehindLines text place → lines[lineEndsWithin place text]? = some found.text
  behind : IsBehindLines text place →
    found.text = [] ∧ lineEndsWithin place text = lines.length
  offset : byteLength (lines.take (lineEndsWithin place text)).flatten + found.offset = place

private theorem Holds.behind_line {found : LinePosition} {first place : Nat} {line rest : List Char}
    {lines : List (List Char)} (h : found.Holds (first + 1) rest lines place)
    (hline : '\n' ∉ line) (hplace : place ≤ byteLength rest) :
    found.Holds first (line ++ '\n' :: rest) ((line ++ ['\n']) :: lines)
      (byteLength line + 1 + place) := by
  have hcount := lineEndsWithin_behind hline rest place
  have hends := isBehindLines_behind hplace line
  constructor
  · rw [h.number, hcount]
    omega
  · rw [hcount, hends]
    exact h.inLine
  · rw [hcount, hends]
    simpa using h.behind
  · have hoffset := h.offset
    simp only [hcount, List.take_succ_cons, List.flatten_cons, byteLength_append, byteLength_cons,
      byteLength_nil, utf8Size_lineEnd]
    omega

end LinePosition

private theorem CutBehindLineEnds.holds_among {text : List Char} {lines : List (List Char)}
    (h : CutBehindLineEnds text lines) (first : Nat) {place : Nat}
    (hplace : place ≤ byteLength text) :
    (LinePosition.among first place lines).Holds first text lines place := by
  -- A place behind the first line is a place in what follows it.
  induction h generalizing first place with
  | nil =>
    have hzero : place = 0 := by simpa using hplace
    subst hzero
    constructor <;> simp [LinePosition.among, lineEndsWithin, IsBehindLines]
  | @unfinished line hne hline =>
    have hlast : line.getLast? ≠ some '\n' := fun hlast => hline (List.mem_of_getLast? hlast)
    rw [LinePosition.among_unfinished first place hline]
    constructor <;> simp [lineEndsWithin_unfinished hline, IsBehindLines, hne, hlast]
  | @finished line rest lines hline _ ih =>
    have hlength : byteLength (line ++ '\n' :: rest) = byteLength line + 1 + byteLength rest := by
      simp [utf8Size_lineEnd, Nat.add_assoc]
    by_cases hwithin : place < byteLength line + 1
    · have hnone := lineEndsWithin_line hline ('\n' :: rest) (Nat.lt_succ_iff.mp hwithin)
      have hfront : ¬IsBehindLines (line ++ '\n' :: rest) place := by
        simp [IsBehindLines, hlength]
        omega
      rw [LinePosition.among_within first (by simpa [utf8Size_lineEnd] using hwithin)]
      constructor <;> simp [hnone, hfront]
    · obtain ⟨later, rfl⟩ := Nat.exists_eq_add_of_le (Nat.not_lt.mp hwithin)
      rw [LinePosition.among_behind]
      exact (ih (first + 1) (by omega)).behind_line hline (by omega)

/-- The line that is found for a position is counted by the line ends among the bytes in front of
it, and it is the piece of the text with that number, unless the position is behind the last line
end. -/
theorem line_of_position (source : String) (position : Nat) :
    let place := min position source.utf8ByteSize
    let found := LinePosition.locate source.toList position
    ∃ lines, CutBehindLineEnds source.toList lines ∧
      (∀ others, CutBehindLineEnds source.toList others → others = lines) ∧
      found.number = (source.toUTF8.data.toList.take place).count lineEndByte + 1 ∧
      (if source = "" ∨ place = source.utf8ByteSize ∧ source.toList.getLast? = some '\n' then
        found.text = [] ∧ found.number = lines.length + 1
      else lines[found.number - 1]? = some found.text) ∧
      byteLength (lines.take (found.number - 1)).flatten + found.offset = place := by
  intro place found
  have hcut := cut_sourceLines source.toList
  have hplace : place ≤ byteLength source.toList := by
    rw [← utf8ByteSize_eq]
    exact Nat.min_le_right _ _
  have hholds : found.Holds 1 source.toList (sourceLines source.toList) place := by
    have hlocate : found = LinePosition.among 1 place (sourceLines source.toList) := by
      simp only [found, place, LinePosition.locate, utf8ByteSize_eq]
    rw [hlocate]
    exact hcut.holds_among 1 hplace
  have hcount : (source.toUTF8.data.toList.take place).count lineEndByte =
      lineEndsWithin place source.toList := by
    rw [← utf8Bytes_toList]
    rfl
  have hindex : found.number - 1 = lineEndsWithin place source.toList := by
    rw [hholds.number, Nat.add_sub_cancel_left]
  refine ⟨sourceLines source.toList, hcut, fun _ hother => hother.eq_sourceLines, ?_, ?_, ?_⟩
  · rw [hcount, hholds.number, Nat.add_comm]
  · have hends : (source = "" ∨ place = source.utf8ByteSize ∧ source.toList.getLast? = some '\n') ↔
        IsBehindLines source.toList place := by
      simp [IsBehindLines, utf8ByteSize_eq]
    split
    · rename_i hbehind
      obtain ⟨htext, hlast⟩ := hholds.behind (hends.mp hbehind)
      exact ⟨htext, by rw [hholds.number, hlast, Nat.add_comm]⟩
    · rename_i hin
      rw [hindex]
      exact hholds.inLine fun hbehind => hin (hends.mpr hbehind)
  · rw [hindex]
    exact hholds.offset

example : LinePosition.locate "a\né\n".toList 3 = ⟨2, ['é', '\n'], 1⟩ ∧
    LinePosition.locate "a\né\n".toList 9 = ⟨3, [], 0⟩ := by decide

end Equational

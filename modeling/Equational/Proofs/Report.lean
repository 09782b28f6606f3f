import Equational.Proofs.SourceLine
import Equational.Report
import Mathlib.Data.List.DropRight

/-!
# The caret of a report

A report ends with the number and the text of a source line and, under it, a caret.  If a diagnostic
begins at a character that is not blank, the caret stands below that character, whatever characters
stand in front of it.
-/

namespace Equational

open Equational.Unicode

/-! ## The line of a character -/

theorem LinePosition.among_earlier {earlier : List (List Char)}
    (h : ∀ line ∈ earlier, ∃ body, line = body ++ ['\n']) (first place : Nat)
    (lines : List (List Char)) :
    among first (byteLength earlier.flatten + place) (earlier ++ lines) =
      among (first + earlier.length) place lines := by
  induction earlier generalizing first with
  | nil => simp
  | cons line earlier ih =>
    obtain ⟨⟨body, rfl⟩, hearlier⟩ := List.forall_mem_cons.mp h
    have hplace : byteLength ((body ++ ['\n']) :: earlier).flatten + place =
        byteLength body + 1 + (byteLength earlier.flatten + place) := by
      simp [utf8Size_lineEnd, Nat.add_assoc]
    rw [hplace, List.cons_append, among_behind, ih hearlier, List.length_cons, Nat.add_assoc,
      Nat.add_comm 1]

theorem CutBehindLineEnds.exists_line {text : List Char} {lines : List (List Char)}
    (h : CutBehindLineEnds text lines) {before after : List Char} {c : Char}
    (htext : text = before ++ c :: after) (hc : c ≠ '\n') :
    ∃ earlier line later front back, lines = earlier ++ line :: later ∧
      (∀ other ∈ earlier, ∃ body, other = body ++ ['\n']) ∧ line = front ++ c :: back ∧
      before = earlier.flatten ++ front ∧ '\n' ∉ line.dropLast := by
  -- A character that ends no line is in the first line or behind it.
  induction h generalizing before with
  | nil => simp at htext
  | @unfinished line _ hline =>
    exact ⟨[], line, [], before, after, rfl, nofun, htext, rfl,
      fun hmem => hline (List.dropLast_subset line hmem)⟩
  | @finished line rest lines hline _ ih =>
    rcases List.append_eq_append_iff.mp htext with ⟨inner, rfl, hrest⟩ | ⟨inner, rfl, hrest⟩
    · cases inner with
      | nil => exact absurd (List.cons.inj hrest).1.symm hc
      | cons d inner =>
        obtain ⟨rfl, hlater⟩ := List.cons.inj hrest
        obtain ⟨earlier, found, later, front, back, rfl, hearlier, hfound, rfl, hinner⟩ := ih hlater
        refine ⟨(line ++ ['\n']) :: earlier, found, later, front, back, rfl, ?_, hfound, ?_, hinner⟩
        · exact List.forall_mem_cons.mpr ⟨⟨line, rfl⟩, hearlier⟩
        · simp
    · cases inner with
      | nil => exact absurd (List.cons.inj hrest).1 hc
      | cons d inner =>
        obtain ⟨rfl, -⟩ := List.cons.inj hrest
        refine ⟨[], before ++ c :: inner ++ ['\n'], lines, before, inner ++ ['\n'], rfl, nofun, ?_,
          rfl, ?_⟩
        · simp
        · rwa [List.dropLast_concat]

/-! ## Columns -/

theorem charactersWithin_front (front rest : List Char) :
    charactersWithin? (byteLength front) (front ++ rest) = some front.length := by
  induction front with
  | nil => simp [charactersWithin?]
  | cons c front ih =>
    have hpos : 0 < c.utf8Size + byteLength front := Nat.add_pos_left c.utf8Size_pos _
    obtain ⟨size, hsize⟩ := Nat.exists_eq_add_one.mpr hpos
    have hfits : c.utf8Size ≤ size + 1 := by omega
    have hrest : size + 1 - c.utf8Size = byteLength front := by omega
    simp [hsize, charactersWithin?, hfits, hrest, ih]

/-! ## The shown line -/

namespace Report

/-- A line is shown without its indentation and without the blanks at its end. -/
structure ShowsLine (line indent shown blanks : List Char) : Prop where
  whole : line = indent ++ shown ++ blanks
  indent : ∀ c ∈ indent, c = ' ' ∨ c = '\t'
  begins : ∀ c ∈ shown.head?, c ≠ ' ' ∧ c ≠ '\t'
  blanks : ∀ c ∈ blanks, isWhiteSpace c = true
  ends : ∀ c ∈ shown.getLast?, isWhiteSpace c = false

theorem isIndent_iff {c : Char} : isIndent c = true ↔ c = ' ' ∨ c = '\t' := by
  simp [isIndent]

theorem not_isIndent_iff {c : Char} : isIndent c = false ↔ c ≠ ' ' ∧ c ≠ '\t' := by
  simp [isIndent]

theorem not_isIndent_of_visible {c : Char} (h : isWhiteSpace c = false) : isIndent c = false := by
  rw [not_isIndent_iff]
  constructor <;> rintro rfl <;> exact absurd h (by decide)

private theorem trimRight_append {shown blanks : List Char}
    (hblanks : ∀ c ∈ blanks, isWhiteSpace c = true)
    (hends : ∀ c ∈ shown.getLast?, isWhiteSpace c = false) :
    trimRight (shown ++ blanks) = shown := by
  have hlast : shown.reverse.dropWhile isWhiteSpace = shown.reverse := by
    cases hreverse : shown.reverse with
    | nil => rfl
    | cons c inner =>
      have hc : shown.getLast? = some c := by simp [List.getLast?_eq_head?_reverse, hreverse]
      simp [hends c hc]
  rw [trimRight, List.reverse_append, List.dropWhile_append_of_pos (by simpa using hblanks), hlast,
    List.reverse_reverse]

namespace ShowsLine

variable {line indent shown blanks : List Char}

theorem indentation_eq (h : ShowsLine line indent shown blanks) (hne : shown ≠ []) :
    indentation line = indent := by
  obtain ⟨c, inner, rfl⟩ := List.exists_cons_of_ne_nil hne
  have hc : isIndent c = false := not_isIndent_iff.mpr (h.begins c rfl)
  have hindent : ∀ d ∈ indent, isIndent d = true := fun d hd => isIndent_iff.mpr (h.indent d hd)
  rw [indentation, h.whole, List.append_assoc, List.takeWhile_append_of_pos hindent]
  simp [hc]

theorem shownLine_eq (h : ShowsLine line indent shown blanks) (hne : shown ≠ []) :
    shownLine line = shown := by
  rw [shownLine, h.indentation_eq hne, h.whole, List.append_assoc, List.drop_left]
  exact trimRight_append h.blanks h.ends

theorem lineEnd_not_mem (h : ShowsLine line indent shown blanks) (hline : '\n' ∉ line.dropLast) :
    '\n' ∉ shown := by
  intro hmem
  obtain ⟨front, back, rfl⟩ := List.append_of_mem hmem
  by_cases hnil : back ++ blanks = []
  · -- The line end would be the last of what is shown.
    have hback : back = [] := (List.append_eq_nil_iff.mp hnil).1
    subst hback
    have hvisible := h.ends '\n' (by simp)
    exact absurd hvisible (by decide)
  · apply hline
    have hwhole : line = (indent ++ front ++ ['\n']) ++ (back ++ blanks) := by simp [h.whole]
    rw [hwhole, List.dropLast_append_of_ne_nil hnil]
    simp

end ShowsLine

theorem exists_showsLine (front back : List Char) {c : Char} (h : isWhiteSpace c = false) :
    ∃ indent visible behind blanks, front = indent ++ visible ∧
      ShowsLine (front ++ c :: back) indent (visible ++ c :: behind) blanks := by
  have hfront : front.takeWhile isIndent ++ front.dropWhile isIndent = front :=
    List.takeWhile_append_dropWhile
  have hback : back.rdropWhile isWhiteSpace ++ back.rtakeWhile isWhiteSpace = back :=
    List.rdropWhile_append_rtakeWhile
  refine ⟨_, _, back.rdropWhile isWhiteSpace, back.rtakeWhile isWhiteSpace, hfront.symm, ?_⟩
  constructor
  · rw [List.append_assoc, List.append_assoc, List.cons_append, hback, ← List.append_assoc, hfront]
  · exact fun d hd => isIndent_iff.mp (List.mem_takeWhile_imp hd)
  · intro d hd
    have hnot := List.head?_dropWhile_not isIndent front
    cases hvisible : front.dropWhile isIndent with
    | nil =>
      simp only [hvisible, List.nil_append, List.head?_cons, Option.mem_some_iff] at hd
      exact hd ▸ not_isIndent_iff.mp (not_isIndent_of_visible h)
    | cons e inner =>
      simp only [hvisible, List.cons_append, List.head?_cons, Option.mem_some_iff] at hd hnot
      exact hd ▸ not_isIndent_iff.mp hnot
  · exact fun d hd => List.mem_rtakeWhile_imp hd
  · intro d hd
    by_cases hnil : back.rdropWhile isWhiteSpace = []
    · simp only [hnil, List.getLast?_concat, Option.mem_some_iff] at hd
      exact hd ▸ h
    · have hlast := List.rdropWhile_last_not isWhiteSpace back hnil
      rw [List.getLast?_append_of_ne_nil _ (List.cons_ne_nil c _),
        List.getLast?_cons_of_ne_nil hnil, List.getLast?_eq_some_getLast hnil,
        Option.mem_some_iff] at hd
      rw [← hd]
      simpa using hlast

/-! ## The last two lines -/

/-- The report ends with the line of the character that stands behind a given front of the text, and
with a caret below that character: as many characters stand before the one as before the other. -/
def PointsAt (report : String) (source before : List Char) (c : Char) : Prop :=
  ∃ earlier line later indent visible behind blanks,
    CutBehindLineEnds source (earlier ++ line :: later) ∧
    before = earlier.flatten ++ indent ++ visible ∧
    ShowsLine line indent (visible ++ c :: behind) blanks ∧
    ∃ heading label pointer,
      report = heading ++ "\n" ++ (label ++ String.ofList (visible ++ c :: behind)) ++ "\n" ++
        (pointer ++ "^") ++ "\n" ∧
      label = toString (earlier.length + 1) ++ " | " ∧
      pointer.length = label.length + visible.length ∧
      '\n' ∉ (label ++ String.ofList (visible ++ c :: behind)).toList ∧
      '\n' ∉ pointer.toList ∧ '^' ∉ pointer.toList

theorem report_eq (diagnostic : Diagnostic) (source file : String) {position : LinePosition}
    (h : LinePosition.locate source.toList diagnostic.span.start = position) :
    ∃ heading, diagnostic.report source file = heading ++ "\n" ++
      (toString position.number ++ " | " ++ String.ofList (shownLine position.text)) ++ "\n" ++
        String.ofList (caretLine position) ++ "\n" := by
  refine ⟨heading diagnostic.cause ++ "\n" ++ ("  " ++ diagnostic.cause.message) ++ "\n" ++
    ("-> " ++ file) ++ "\n" ++ String.ofList (gutter position), ?_⟩
  simp [Diagnostic.report, lines, h, String.join, String.append_assoc]

def underline (number count : Nat) : String :=
  String.ofList (List.replicate ((toString number).length + 1) ' ' ++ ['|', ' '] ++
    List.replicate count '-')

theorem length_underline (number count : Nat) :
    (underline number count).length = (toString number ++ " | ").length + count := by
  have hbar : " | ".length = 3 := rfl
  simp only [underline, String.length_ofList, String.length_append, List.length_append,
    List.length_replicate, List.length_cons, List.length_nil, hbar]

theorem not_mem_underline {c : Char} (h : c ∉ [' ', '|', '-']) (number count : Nat) :
    c ∉ (underline number count).toList := by
  simp at h
  simp [underline, h]

private theorem caretLine_eq (number : Nat) {line front rest indent visible : List Char}
    (hline : line = front ++ rest) (hfront : front = indent ++ visible)
    (hindent : indentation line = indent) :
    String.ofList (caretLine ⟨number, line, byteLength front⟩) =
      underline number visible.length ++ "^" := by
  have hcolumn : LinePosition.column ⟨number, line, byteLength front⟩ = front.length := by
    simp [LinePosition.column, hline, charactersWithin_front]
  have hvisible : front.length - indent.length = visible.length := by
    simp [hfront]
  rw [caretLine, hcolumn, hindent, hvisible]
  apply String.toList_inj.mp
  simp [gutter, underline]

private theorem lineEnd_not_mem_number (number : Nat) : '\n' ∉ (toString number).toList := by
  intro hmem
  rw [Nat.toString_eq_repr, Nat.toList_repr] at hmem
  have hdigit := Nat.isDigit_of_mem_toDigits (by decide) (by decide) hmem
  exact absurd hdigit (by decide)

end Report

/-- Whatever stands in front of a character that is not blank, the report on a diagnostic that
begins there points at it. -/
theorem caret_below_character {diagnostic : Diagnostic} {source : String} {before after : List Char}
    {c : Char} (hsource : source.toList = before ++ c :: after)
    (hstart : diagnostic.span.start = byteLength before) (hvisible : isWhiteSpace c = false)
    (file : String) : Report.PointsAt (diagnostic.report source file) source.toList before c := by
  have hc : c ≠ '\n' := by
    rintro rfl
    exact absurd hvisible (by decide)
  have hcut := cut_sourceLines source.toList
  obtain ⟨earlier, line, later, front, back, hlines, hearlier, hline, hbefore, hends⟩ :=
    hcut.exists_line hsource hc
  obtain ⟨indent, visible, behind, blanks, hfront, hshows⟩ :=
    Report.exists_showsLine front back hvisible
  rw [← hline] at hshows
  have hlocate : LinePosition.locate source.toList diagnostic.span.start =
      ⟨earlier.length + 1, line, byteLength front⟩ := by
    have hplace : min diagnostic.span.start (byteLength source.toList) =
        byteLength earlier.flatten + byteLength front := by
      simp [hstart, hsource, hbefore]
    have hwithin : byteLength front < byteLength line := by
      have hsize := c.utf8Size_pos
      simp [hline]
      omega
    rw [LinePosition.locate, hplace, hlines, LinePosition.among_earlier hearlier,
      LinePosition.among_within _ hwithin, Nat.add_comm]
  obtain ⟨heading, hreport⟩ := Report.report_eq diagnostic source file hlocate
  have hshown := hshows.shownLine_eq (by simp)
  have hcaret := Report.caretLine_eq (earlier.length + 1) hline hfront
    (hshows.indentation_eq (by simp))
  rw [hshown, hcaret] at hreport
  refine ⟨earlier, line, later, indent, visible, behind, blanks, hlines ▸ hcut, ?_, hshows, heading,
    _, Report.underline (earlier.length + 1) visible.length, hreport, rfl, ?_, ?_, ?_, ?_⟩
  · rw [hbefore, hfront, List.append_assoc]
  · exact Report.length_underline _ _
  · have hnumber := Report.lineEnd_not_mem_number (earlier.length + 1)
    have hshownLine : '\n' ∉ (String.ofList (visible ++ c :: behind)).toList := by
      rw [String.toList_ofList]
      exact hshows.lineEnd_not_mem hends
    rw [String.toList_append, String.toList_append, List.mem_append, List.mem_append]
    rintro ((hmem | hmem) | hmem)
    · exact hnumber hmem
    · exact absurd hmem (by decide)
    · exact hshownLine hmem
  · exact Report.not_mem_underline (by decide) _ _
  · exact Report.not_mem_underline (by decide) _ _

def indentedSource : String := "é;\n\t ü = x $$ é; \n"

def undeclaredInLine : Diagnostic := ⟨.undeclaredOperator "$$", ⟨13, 15⟩⟩

theorem indentedSource_caret :
    indentedSource.toList = "é;\n\t ü = x ".toList ++ '$' :: "$ é; \n".toList ∧
      undeclaredInLine.span.start = byteLength "é;\n\t ü = x ".toList ∧
      Report.PointsAt (undeclaredInLine.report indentedSource "main.q") indentedSource.toList
        "é;\n\t ü = x ".toList '$' := by
  have hsource : indentedSource.toList = "é;\n\t ü = x ".toList ++ '$' :: "$ é; \n".toList := by
    decide
  have hstart : undeclaredInLine.span.start = byteLength "é;\n\t ü = x ".toList := by
    decide
  exact ⟨hsource, hstart, caret_below_character hsource hstart (by decide) "main.q"⟩

end Equational

import Equational.Proofs.Lexed.Pieces
import Mathlib.Data.List.Forall2

/-!
# Written string literals

A character of a string literal may stand for itself, unless it is a double quote, a backslash or a
line end, or it may be written as an escape: by its letter if it has one, or by the two hexadecimal
digits of its number if that has no more.  However the characters of a string are written, the
literal is read as that string.
-/

namespace Equational

open Equational.Token Equational.Unicode

namespace Token

/-! ## Ways to write a character -/

def letterEscapes : List (Char × Char) :=
  [('n', '\n'), ('t', '\t'), ('r', '\r'), ('\\', '\\'), ('"', '"'), ('\'', '\''), ('0', '\x00'),
    ('a', '\x07'), ('b', '\x08'), ('f', '\x0c'), ('v', '\x0b'), ('e', '\x1b')]

inductive CharWritten (c : Char) : List Char → Prop where
  | plain (hquote : c ≠ '"') (hescape : c ≠ '\\') (hline : c ≠ '\n') : CharWritten c [c]
  | letter {letter : Char} (h : (letter, c) ∈ letterEscapes) : CharWritten c ['\\', letter]
  | hexadecimal {high low : Nat} {first second : Char} (hfirst : IsHexDigitFor high first)
    (hsecond : IsHexDigitFor low second) (hvalue : c.toNat = 16 * high + low) :
    CharWritten c ['\\', 'x', first, second]

/-- The characters one behind the other, each in any way. -/
abbrev TextWritten (text : List Char) (parts : List (List Char)) : Prop :=
  List.Forall₂ CharWritten text parts

/-! ## Reading what is written -/

private theorem simpleEscape_of_mem {letter c : Char} (h : (letter, c) ∈ letterEscapes) :
    simpleEscape? letter = some c ∧ letter ≠ '\n' ∧ letter ≠ 'x' := by
  have hescapes : ∀ pair ∈ letterEscapes,
      simpleEscape? pair.1 = some pair.2 ∧ pair.1 ≠ '\n' ∧ pair.1 ≠ 'x' := by
    decide
  exact hescapes _ h

private theorem readLiteral_of_charWritten {c : Char} {part : List Char} (h : CharWritten c part)
    (reading : LiteralReading) (rest : List Char) :
    readLiteral reading (part ++ rest) = readLiteral (reading.take part.length c) rest := by
  cases h with
  | plain hquote hescape hline => exact readLiteral_plain hquote hline hescape reading rest
  | @letter letter h =>
    obtain ⟨hmeaning, hline, hhex⟩ := simpleEscape_of_mem h
    change readLiteral reading ('\\' :: letter :: rest) = _
    rw [readLiteral_escape hline hhex, hmeaning]
    rfl
  | @hexadecimal high low first second hfirst hsecond hvalue =>
    have hchar : Char.ofNat (16 * high + low) = c := by rw [← hvalue, Char.ofNat_toNat]
    change readLiteral reading ('\\' :: 'x' :: first :: second :: rest) = _
    simp only [readLiteral, hfirst.hexDigit_eq, hsecond.hexDigit_eq, hchar]
    rfl

theorem readLiteral_of_textWritten {text : List Char} {parts : List (List Char)}
    (h : TextWritten text parts) (reading : LiteralReading) (rest : List Char) :
    readLiteral reading (parts.flatten ++ '"' :: rest) =
      ⟨reading.decoded.reverse ++ text, reading.badEscape, .closed,
        reading.size + parts.flatten.length + 1⟩ := by
  induction h generalizing reading with
  | nil => simp [readLiteral, LiteralReading.skip, LiteralReading.finish]
  | @cons c part text parts hpart _ ih =>
    rw [List.flatten_cons, List.append_assoc, readLiteral_of_charWritten hpart, ih]
    simp [LiteralReading.take, Nat.add_assoc]

def quoted (parts : List (List Char)) : List Char := '"' :: parts.flatten ++ ['"']

private theorem first_of_quote (body : List Char) :
    Lexeme.first ('"' :: body) =
      literalLexeme ('"' :: body.take (Literal.ofBody body).size) (Literal.ofBody body) := by
  have hstring := string_of_quote body
  have hblank : isWhiteSpace '"' = false := by decide
  have hword : startsWord '"' = false := by decide
  have hmodule : isUppercaseLetter '"' = false := by decide
  have hnumber : number? ('"' :: body) = none := rfl
  simp [Lexeme.first, patterns, blank?, hblank, lineComment?, blockComment?, qualifiedName?,
    qualifiedOperator?, modulePart?, hmodule, plainWord?, word?, hword, hnumber, hstring]

private theorem first_of_quoted {text : List Char} {parts : List (List Char)}
    (h : TextWritten text parts) :
    Lexeme.first (quoted parts) = ⟨quoted parts, .token .string text none⟩ := by
  have hread := readLiteral_of_textWritten h {} []
  have hliteral : Literal.ofBody (parts.flatten ++ ['"']) =
      ⟨text, none, .closed, (parts.flatten ++ ['"']).length⟩ := by
    simpa [Literal.ofBody] using hread
  rw [quoted, List.cons_append, first_of_quote, hliteral, List.take_length]
  rfl

end Token

/-! ## Texts that are one literal -/

/-- A literal is read as the one token it is, over the whole text, and nothing is wrong with it. -/
theorem literals_decode_back {text : String} {parts : List (List Char)}
    (h : TextWritten text.toList parts) :
    ∃ lexed, Lexed.ofSource (String.ofList (quoted parts)) = .ok lexed ∧
      lexed.tokens = [⟨.string, text, none, .between 0 (byteLength (quoted parts))⟩,
        Token.endOfInput (recorded (byteLength (quoted parts)))] ∧
      lexed.trivia = [] ∧ lexed.errors = .empty := by
  have hfirst := first_of_quoted h
  have hblank : isWhiteSpace '"' = false := by decide
  have hreads : Reads 0 (quoted parts) [⟨0, ⟨quoted parts, .token .string text.toList none⟩⟩] :=
    .lexeme hblank hfirst nofun (List.append_nil _).symm (.nil _)
  have hcut : Lexed.CutInto (quoted parts) _ := .plain rfl hreads
  have hsource := congrArg Lexed.ofChars (String.toList_ofList (l := quoted parts))
  refine ⟨_, hsource.trans (Lexed.ofChars_of_cutInto hcut), ?_, rfl, rfl⟩
  simp [Lexed.ofPieces, slotsOf, tokensOf, Piece.slot?, Piece.recordedSpan, Piece.span,
    Slot.endOfInput]

/-- A hexadecimal escape in front of a digit, a backslash in front of the closing quote, and
characters of several bytes. -/
def escapedText : String := "A1\n\"ÿé\\"

def escapedParts : List (List Char) :=
  [['\\', 'x', '4', '1'], ['1'], ['\\', 'n'], ['\\', '"'], ['\\', 'x', 'F', 'f'], ['é'],
    ['\\', '\\']]

theorem escapedText_decodes :
    TextWritten escapedText.toList escapedParts ∧
      ∃ lexed, Lexed.ofSource "\"\\x411\\n\\\"\\xFfé\\\\\"" = .ok lexed ∧
        lexed.tokens = [⟨.string, escapedText, none, ⟨0, 19⟩⟩, Token.endOfInput 19] ∧
        lexed.trivia = [] ∧ lexed.errors = .empty := by
  have hone : IsHexDigitFor 1 '1' := ⟨by decide, .inl rfl⟩
  have hfour : IsHexDigitFor 4 '4' := ⟨by decide, .inl rfl⟩
  have hupper : IsHexDigitFor 15 'F' := ⟨by decide, .inr rfl⟩
  have hlower : IsHexDigitFor 15 'f' := ⟨by decide, .inl rfl⟩
  have hwritten : TextWritten escapedText.toList escapedParts := by
    refine .cons (.hexadecimal hfour hone rfl) ?_
    refine .cons (.plain (by decide) (by decide) (by decide)) ?_
    refine .cons (.letter (by decide)) (.cons (.letter (by decide)) ?_)
    refine .cons (.hexadecimal hupper hlower rfl) ?_
    refine .cons (.plain (by decide) (by decide) (by decide)) ?_
    exact .cons (.letter (by decide)) .nil
  have hsource : String.ofList (quoted escapedParts) = "\"\\x411\\n\\\"\\xFfé\\\\\"" := by
    decide +kernel
  have hlength : byteLength (quoted escapedParts) = 19 := by decide
  have hdecodes := literals_decode_back hwritten
  rw [hsource, hlength] at hdecodes
  exact ⟨hwritten, hdecodes⟩

end Equational

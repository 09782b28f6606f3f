import Equational.Span

/-!
# Lines of a source text

The line that holds a byte offset, with its number and the place of the offset in it.  Every line
but the last keeps the line end that closes it.
-/

namespace Equational

def sourceLines : List Char → List (List Char)
  | [] => []
  | c :: rest =>
    if c = '\n' then [c] :: sourceLines rest
    else
      match sourceLines rest with
      | [] => [[c]]
      | line :: more => (c :: line) :: more

structure LinePosition where
  /-- Counted from one. -/
  number : Nat
  text : List Char
  /-- Bytes from the start of the line. -/
  offset : Nat
  deriving DecidableEq, Repr

namespace LinePosition

/-- An offset behind an unfinished line still belongs to it; behind a line end a new, empty line
begins. -/
def among (number : Nat) (offset : Nat) : List (List Char) → LinePosition
  | [] => ⟨number, [], 0⟩
  | line :: more =>
    if offset < byteLength line then ⟨number, line, offset⟩
    else if line.getLast? ≠ some '\n' then ⟨number, line, offset⟩
    else among (number + 1) (offset - byteLength line) more

def locate (source : List Char) (offset : Nat) : LinePosition :=
  among 1 (min offset (byteLength source)) (sourceLines source)

end LinePosition

/-! ## Columns -/

def charactersWithin? : Nat → List Char → Option Nat
  | 0, _ => some 0
  | _ + 1, [] => none
  | bytes + 1, c :: rest =>
    if c.utf8Size ≤ bytes + 1 then
      (charactersWithin? (bytes + 1 - c.utf8Size) rest).map (· + 1)
    else none

/-- Characters in front of the offset, or bytes where the offset is inside a character. -/
def LinePosition.column (position : LinePosition) : Nat :=
  (charactersWithin? position.offset position.text).getD position.offset

end Equational

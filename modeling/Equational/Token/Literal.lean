import Equational.Diagnostic

/-!
# String literals

The text behind an opening quote is read up to the closing quote, the end of the line or the end of
the text, whichever comes first.  Escapes are decoded on the way; the first one that means nothing
is remembered.
-/

namespace Equational.Token

inductive LiteralEnd where
  | closed
  | atLineEnd
  | atTextEnd
  deriving DecidableEq, Repr

structure Literal where
  decoded : List Char
  /-- The first escape that has no meaning, without its backslash. -/
  badEscape : Option String
  ending : LiteralEnd
  /-- Characters behind the opening quote, with the closing quote but without a line end. -/
  size : Nat
  deriving DecidableEq, Repr

/-! ## Escapes -/

def simpleEscape? : Char → Option Char
  | 'n' => some '\n'
  | 't' => some '\t'
  | 'r' => some '\r'
  | '\\' => some '\\'
  | '"' => some '"'
  | '\'' => some '\''
  | '0' => some '\x00'
  | 'a' => some '\x07'
  | 'b' => some '\x08'
  | 'f' => some '\x0c'
  | 'v' => some '\x0b'
  | 'e' => some '\x1b'
  | _ => none

def hexDigit? (c : Char) : Option Nat :=
  if '0' ≤ c ∧ c ≤ '9' then some (c.toNat - '0'.toNat)
  else if 'a' ≤ c ∧ c ≤ 'f' then some (c.toNat - 'a'.toNat + 10)
  else if 'A' ≤ c ∧ c ≤ 'F' then some (c.toNat - 'A'.toNat + 10)
  else none

def isHexDigit (c : Char) : Bool := (hexDigit? c).isSome

/-! ## Reading -/

structure LiteralReading where
  decoded : List Char := []
  badEscape : Option String := none
  size : Nat := 0

namespace LiteralReading

def take (reading : LiteralReading) (count : Nat) (c : Char) : LiteralReading :=
  { reading with decoded := c :: reading.decoded, size := reading.size + count }

def skip (reading : LiteralReading) (count : Nat) : LiteralReading :=
  { reading with size := reading.size + count }

/-- Skips an escape without a meaning; only the first one is kept. -/
def reject (reading : LiteralReading) (count : Nat) (escape : List Char) : LiteralReading :=
  { reading with
    badEscape := reading.badEscape.or (some (String.ofList escape))
    size := reading.size + count }

def finish (reading : LiteralReading) (ending : LiteralEnd) : Literal :=
  ⟨reading.decoded.reverse, reading.badEscape, ending, reading.size⟩

end LiteralReading

/-- A backslash in front of the end of the line or of the text is dropped; `\x` needs two digits. -/
def readLiteral : LiteralReading → List Char → Literal
  | reading, [] => reading.finish .atTextEnd
  | reading, '"' :: _ => (reading.skip 1).finish .closed
  | reading, '\n' :: _ => reading.finish .atLineEnd
  | reading, ['\\'] => (reading.skip 1).finish .atTextEnd
  | reading, '\\' :: '\n' :: _ => (reading.skip 1).finish .atLineEnd
  | reading, '\\' :: 'x' :: high :: low :: rest =>
    match hexDigit? high, hexDigit? low with
    | some h, some l => readLiteral (reading.take 4 (Char.ofNat (16 * h + l))) rest
    | some _, none => readLiteral (reading.reject 3 ['x', high]) (low :: rest)
    | none, _ => readLiteral (reading.reject 2 ['x']) (high :: low :: rest)
  | reading, ['\\', 'x', high] =>
    if isHexDigit high then (reading.reject 3 ['x', high]).finish .atTextEnd
    else readLiteral (reading.reject 2 ['x']) [high]
  | reading, '\\' :: escape :: rest =>
    match simpleEscape? escape with
    | some meaning => readLiteral (reading.take 2 meaning) rest
    | none => readLiteral (reading.reject 2 [escape]) rest
  | reading, c :: rest => readLiteral (reading.take 1 c) rest

def Literal.ofBody (body : List Char) : Literal := readLiteral {} body

end Equational.Token

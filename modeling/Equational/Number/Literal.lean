import Equational.Number.Binary64
import Equational.Token
import Equational.Token.Numeral

/-!
# Number literals

The value of a number is read from its text: integers in radix 16, 8 or 10, which have to stay
below two to the power of 128, and decimals with a point or an exponent, which are rounded to
double precision.
-/

namespace Equational

open Equational.Token

inductive NumberValue where
  | integer (value : Nat)
  | float (value : Binary64)
  deriving DecidableEq, Repr

structure NumberLiteral where
  text : String
  radix : Nat
  value : NumberValue
  deriving DecidableEq, Repr

namespace NumberLiteral

/-! ## Integers -/

def integerLimit : Nat := Nat.pow 2 128

def digitsValue? (radix : Nat) (digits : List Char) : Option Nat :=
  digits.foldlM (fun value c => do
    let digit ← hexDigit? c
    if digit < radix then some (radix * value + digit) else none) 0

/-- At least one digit, with at most one plus sign in front. -/
def integer? (radix : Nat) (text : List Char) : Option Nat := do
  let digits := if text.head? = some '+' then text.drop 1 else text
  if digits.isEmpty then none
  else
    let value ← digitsValue? radix digits
    if value < integerLimit then some value else none

/-! ## Decimals -/

def splitSign : List Char → Bool × List Char
  | '-' :: rest => (true, rest)
  | '+' :: rest => (false, rest)
  | text => (false, text)

def exponent? : List Char → Option Int
  | [] => some 0
  | mark :: rest => do
    let (negative, digits) := splitSign rest
    if isExponentMark mark && !digits.isEmpty then
      let value ← digitsValue? 10 digits
      some (if negative then -(value : Int) else value)
    else none

/-- Digits on at least one side of the point, which may be absent, then the exponent. -/
def float? (text : List Char) : Option Binary64 := do
  let (negative, unsigned) := splitSign text
  let whole := unsigned.takeWhile Char.isDigit
  let afterWhole := unsigned.drop whole.length
  let pointed := afterWhole.head? = some '.'
  let fraction := if pointed then (afterWhole.drop 1).takeWhile Char.isDigit else []
  let afterFraction := if pointed then (afterWhole.drop 1).drop fraction.length else afterWhole
  if whole.isEmpty && fraction.isEmpty then none
  else
    let exponent ← exponent? afterFraction
    let digits ← digitsValue? 10 (whole ++ fraction)
    some (.ofDecimal negative digits (exponent - fraction.length))

/-! ## Literals -/

def hasDecimalMark (text : List Char) : Bool := text.any fun c => c == '.' || isExponentMark c

def valueOf? : List Char → Option (Nat × NumberValue)
  | '0' :: mark :: rest =>
    if isHexMark mark then (integer? 16 rest).map fun value => (16, .integer value)
    else if hasDecimalMark (mark :: rest) then
      (float? ('0' :: mark :: rest)).map fun value => (10, .float value)
    else (integer? 8 (mark :: rest)).map fun value => (8, .integer value)
  | text =>
    if hasDecimalMark text then (float? text).map fun value => (10, .float value)
    else (integer? 10 text).map fun value => (10, .integer value)

def ofText? (text : String) : Option NumberLiteral :=
  (valueOf? text.toList).map fun (radix, value) => ⟨text, radix, value⟩

def ofToken (token : Token) : Except Diagnostic NumberLiteral :=
  match ofText? token.value with
  | some literal => .ok literal
  | none => .error ⟨.unreadableNumber token.value, token.span⟩

end NumberLiteral

end Equational

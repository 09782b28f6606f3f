import Equational.Token.Literal

/-!
# The written form of numbers

A hexadecimal form is `0x` with any number of digits; every other form is a run of decimal digits
with an optional fraction and an optional exponent.  A digit has to follow the point, and also the
exponent mark or its minus sign, for them to belong to the number.
-/

namespace Equational.Token

def fractionText : List Char → List Char
  | '.' :: rest =>
    match rest.takeWhile Char.isDigit with
    | [] => []
    | digits => '.' :: digits
  | _ => []

def isExponentMark (c : Char) : Bool := c == 'e' || c == 'E'

def exponentText : List Char → List Char
  | mark :: rest =>
    if isExponentMark mark then
      let sign := match rest with
        | '-' :: _ => ['-']
        | _ => []
      match (rest.drop sign.length).takeWhile Char.isDigit with
      | [] => []
      | digits => mark :: (sign ++ digits)
    else []
  | [] => []

def decimalText (text : List Char) : List Char :=
  match text.takeWhile Char.isDigit with
  | [] => []
  | whole =>
    let fraction := fractionText (text.drop whole.length)
    whole ++ fraction ++ exponentText (text.drop (whole.length + fraction.length))

def isHexMark (c : Char) : Bool := c == 'x' || c == 'X'

def numeralText : List Char → List Char
  | '0' :: mark :: rest =>
    if isHexMark mark then '0' :: mark :: rest.takeWhile isHexDigit
    else decimalText ('0' :: mark :: rest)
  | text => decimalText text

/-! ## Forms without a value -/

def isBareHex : List Char → Bool
  | [_, mark] => isHexMark mark
  | _ => false

/-- Digits only, at least two, the first of them a zero. -/
def isOctalForm : List Char → Bool
  | '0' :: c :: rest => (c :: rest).all Char.isDigit
  | _ => false

def hasOctalFault (numeral : List Char) : Bool :=
  isOctalForm numeral && numeral.any fun c => c == '8' || c == '9'

def isMalformedNumeral (numeral : List Char) : Bool := isBareHex numeral || hasOctalFault numeral

end Equational.Token

import Equational.Unicode.DefaultIgnorable
import Equational.Unicode.GraphemeExtend
import Equational.Unicode.Letter
import Equational.Unicode.Printable

/-!
# Quoted text

Messages show a piece of text between double quotes, so that every character of it can be told:
the usual control characters, the quote and the backslash are written with a backslash, and
anything that would not show by itself as its code point in hexadecimal.
-/

namespace Equational.Text

open Equational.Unicode

def codePointEscape (c : Char) : List Char :=
  ['\\', 'u', '\x7b'] ++ Nat.toDigits 16 c.toNat ++ ['\x7d']

/-- Whether a character would join the one in front of it.  A letter keeps a shape of its own, even
one that continues a cluster, such as a halfwidth voicing mark. -/
def isCombining (c : Char) : Bool := isGraphemeExtend c && !isLetter c

def showsByItself (c : Char) : Bool := isPrintable c && !isDefaultIgnorable c && !isCombining c

def quotedChar (c : Char) : List Char :=
  if c = '\x00' then ['\\', '0']
  else if c = '\t' then ['\\', 't']
  else if c = '\r' then ['\\', 'r']
  else if c = '\n' then ['\\', 'n']
  else if c = '\\' then ['\\', '\\']
  else if c = '"' then ['\\', '"']
  else if showsByItself c then [c]
  else codePointEscape c

def quote (text : String) : String :=
  String.ofList (['"'] ++ text.toList.flatMap quotedChar ++ ['"'])

end Equational.Text

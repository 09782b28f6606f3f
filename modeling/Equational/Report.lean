import Equational.Diagnostic
import Equational.SourceLine
import Equational.Unicode.WhiteSpace

/-!
# Reports

A report names the cause of a diagnostic with its tip, quotes the message and the source line, and
points at the offending character with a caret under that line.
-/

namespace Equational

open Equational.Unicode

namespace Report

def isIndent (c : Char) : Bool := c == ' ' || c == '\t'

def indentation (line : List Char) : List Char := line.takeWhile isIndent

def trimRight (line : List Char) : List Char := (line.reverse.dropWhile isWhiteSpace).reverse

/-- The source line as it is shown: without its indentation and without blanks at its end. -/
def shownLine (line : List Char) : List Char := trimRight (line.drop (indentation line).length)

def gutter (position : LinePosition) : List Char :=
  List.replicate ((toString position.number).length + 1) ' ' ++ ['|']

def caretLine (position : LinePosition) : List Char :=
  let column := position.column - (indentation position.text).length
  gutter position ++ [' '] ++ List.replicate column '-' ++ ['^']

def heading (cause : Cause) : String :=
  match cause.tip with
  | some tip => "Error: " ++ cause.name ++ " (" ++ tip ++ ")"
  | none => "Error: " ++ cause.name

def lines (diagnostic : Diagnostic) (source : String) (file : String) : List String :=
  let position := LinePosition.locate source.toList diagnostic.span.start
  [heading diagnostic.cause,
    "  " ++ diagnostic.cause.message,
    "-> " ++ file,
    String.ofList (gutter position),
    toString position.number ++ " | " ++ String.ofList (shownLine position.text),
    String.ofList (caretLine position)]

end Report

def Diagnostic.report (diagnostic : Diagnostic) (source : String) (file : String) : String :=
  String.join ((Report.lines diagnostic source file).map (· ++ "\n"))

end Equational

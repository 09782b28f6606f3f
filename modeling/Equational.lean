import Equational.Token.Literal
import Equational.Token
import Equational.Unicode.Letter
import Equational.Unicode.Number
import Equational.Unicode.Punctuation
import Equational.Unicode.Symbol
import Equational.Unicode.Uppercase
import Equational.Unicode.WhiteSpace
import Equational.Lexed
import Equational.Expr
import Equational.Operator.Table
import Equational.Report
import Equational.Run
import Equational.Cursor
import Equational.Parse
import Equational.Run.Collect
import Equational.Expr.Resolve
import Equational.Operator.Declare
import Equational.Script
import Equational.Statement.Printer
import Equational.CommandLine
import Equational.Main
import Equational.Proofs.Grouping.Building
import Equational.Proofs.Grouping.Resolution
import Equational.Proofs.Grouping.Uniqueness
import Equational.Proofs.Yield
import Equational.Proofs.Expr.Section
import Equational.Proofs.Expr.Objection
import Equational.Proofs.Parse.Moving
import Equational.Proofs.Run.Moving
import Equational.Proofs.Statement.Moving
import Equational.Proofs.Script.Declared
import Equational.Proofs.Lexed.Joined
import Equational.Proofs.Parse.Coupled
import Equational.Proofs.Run.Coupled
import Equational.Proofs.Script.Abreast
import Equational.Proofs.Script.LaterText
import Equational.Proofs.Lexed.Blanked
import Equational.Proofs.Script.Standing
import Equational.Proofs.Script.Isolated
import Equational.Proofs.Script.Lossless
import Equational.Proofs.Statement.Conditional
import Equational.Proofs.Script.Faults
import Equational.Proofs.Script.FailFast
import Equational.Proofs.Script.Placement
import Equational.Proofs.Script.Anchored
import Equational.Proofs.Script.Termination
import Equational.Proofs.Script.RoundTrip
import Equational.Proofs.Operator.Bands
import Equational.Proofs.Expr.Word
import Equational.Proofs.Run.Grouped
import Equational.Proofs.Expr.Dependence
import Equational.Proofs.Run.LastLambda
import Equational.Proofs.Script.Clauses
import Equational.Proofs.Lexed.Literal
import Equational.Proofs.Lexed.Number
import Equational.Proofs.Run.Brackets
import Equational.Proofs.Script.Glued
import Equational.Proofs.Report
import Equational.Proofs.Lexed.Longest
import Equational.Proofs.Lexed.Strict

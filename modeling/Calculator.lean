import Calculator.Text.Basic
import Calculator.Text.Blank
import Calculator.Text.Lines
import Calculator.Text.Cluster.Ranges
import Calculator.Text.Cluster.Basic
import Calculator.Operator
import Calculator.Binary64.Basic
import Calculator.Binary64.Rounding
import Calculator.Binary64.Arithmetic
import Calculator.Binary64.Text
import Calculator.Decimal.Basic
import Calculator.Decimal.Shortest
import Calculator.Numeral
import Calculator.Bracket
import Calculator.Token.Basic
import Calculator.Token.Scan
import Calculator.Expr.Basic
import Calculator.Expr.Canonical
import Calculator.Expr.Latex
import Calculator.Parse.Error
import Calculator.Parse.Split
import Calculator.Parse.Build
import Calculator.Report
import Calculator.Command.Argument
import Calculator.Command.Options
import Calculator.Command.Run
import Calculator.Command.Editor
import Calculator.Main
import Calculator.Proofs.Bracket
import Calculator.Proofs.Literal
import Calculator.Proofs.Rounding
import Calculator.Proofs.NumberText
import Calculator.Proofs.Spelling
import Calculator.Proofs.Lexeme
import Calculator.Proofs.Derivation
import Calculator.Proofs.Limits
import Calculator.Proofs.Fragment
import Calculator.Proofs.Precedence
import Calculator.Proofs.Slice
import Calculator.Proofs.Defect
import Calculator.Proofs.Composition
import Calculator.Proofs.ShuntingYard
import Calculator.Proofs.Grammar
import Calculator.Proofs.CanonicalForm
import Calculator.Proofs.Inorder
import Calculator.Proofs.Spacing
import Calculator.Proofs.Respacing
import Calculator.Proofs.Formula
import Calculator.Proofs.UniqueReading
import Calculator.Proofs.Typesetting
import Calculator.Proofs.Quotation
import Calculator.Proofs.BatchReport
import Calculator.Proofs.Modes
import Calculator.Proofs.Scanner
import Calculator.Proofs.FewestBrackets
import Calculator.Proofs.SignedNumber
import Calculator.Proofs.NegativeNumbers
import Calculator.Proofs.UniqueForm
import Calculator.Proofs.Calls
import Calculator.Proofs.SplitPoint
import Calculator.Proofs.CorrectRounding
import Calculator.Proofs.LiteralValue

/-
Module: Calculator.Report
Layer: Program
Purpose: What is shown for one expression: its canonical form, its LaTeX form on request, and its
  value, on a line each; or a single line with the reason why the text is no expression.
Imports: Calculator.Expr.Canonical, Calculator.Expr.Latex, Calculator.Parse.Build
Trusted boundary: none
Main exports: Settings, Report.ofExpr, Report.ofResult, Report.ofText
-/
import Calculator.Expr.Canonical
import Calculator.Expr.Latex
import Calculator.Parse.Build

namespace Calculator

/-- How texts are read and shown. -/
structure Settings where
  limits : Limits := {}
  /-- Whether the LaTeX form is shown. -/
  latex : Bool := false
  deriving DecidableEq, Repr

namespace Report

/-- The lines for an expression. -/
def ofExpr (settings : Settings) (expr : Expr) : List Text :=
  if settings.latex then [expr.canonical, expr.latex, expr.value.toText]
  else [expr.canonical, expr.value.toText]

/-- The lines for what came of reading a text. -/
def ofResult (settings : Settings) : Except ParseError Expr → List Text
  | .ok expr => ofExpr settings expr
  | .error error => ["error: ".toList ++ error.message]

/-- The lines for a text. -/
def ofText (settings : Settings) (text : Text) : List Text :=
  ofResult settings (Parse.parse settings.limits text)

end Report

end Calculator

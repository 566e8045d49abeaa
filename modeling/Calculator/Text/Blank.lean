/-
Module: Calculator.Text.Blank
Layer: Text
Purpose: Which characters are blank, and the trimming of blanks from both ends of a text. Blank
  means the Unicode property White_Space: 25 code points, given here as a table of ranges.
Imports: Calculator.Text.Basic
Trusted boundary: the table of blanks, a human-reviewed spec
Main exports: Text.blankRanges, Text.isBlank, Text.trim
-/
import Calculator.Text.Basic

namespace Calculator.Text

/-- The code points with the property White_Space, as inclusive ranges in increasing order. -/
def blankRanges : List (Nat × Nat) :=
  [(0x0009, 0x000D), (0x0020, 0x0020), (0x0085, 0x0085), (0x00A0, 0x00A0), (0x1680, 0x1680),
   (0x2000, 0x200A), (0x2028, 0x2029), (0x202F, 0x202F), (0x205F, 0x205F), (0x3000, 0x3000)]

/-- A character is blank when its code point lies in one of the ranges. -/
def isBlank (c : Char) : Bool :=
  blankRanges.any fun range => range.1 ≤ c.toNat && c.toNat ≤ range.2

/-- A text without the blanks at its start. -/
def trimStart (text : Text) : Text := text.dropWhile isBlank

/-- A text without the blanks at its end. -/
def trimEnd (text : Text) : Text := (trimStart text.reverse).reverse

/-- A text without the blanks at either end. -/
def trim (text : Text) : Text := trimEnd (trimStart text)

end Calculator.Text

/-
Module: Calculator.Text.Basic
Layer: Text
Purpose: Texts as lists of characters, with the few operations that the other layers share: the
  length of a text in UTF-8 bytes (positions in error messages count bytes), the digits of a natural
  number, and the joining of words by single spaces.
Trusted boundary: none
Main exports: Text, Text.utf8Length, Text.ofNat, Text.unwords
-/
namespace Calculator

/-- A text is the list of its characters. Everything the calculator reads, stores and writes is a
    text; strings appear only where the program meets its surroundings. -/
abbrev Text := List Char

namespace Text

/-- The number of bytes of the UTF-8 encoding of a text. -/
def utf8Length : Text → Nat
  | [] => 0
  | c :: rest => c.utf8Size + utf8Length rest

@[simp] theorem utf8Length_nil : utf8Length [] = 0 := rfl

@[simp] theorem utf8Length_cons (c : Char) (rest : Text) :
    utf8Length (c :: rest) = c.utf8Size + utf8Length rest := rfl

@[simp] theorem utf8Length_append (s t : Text) :
    utf8Length (s ++ t) = utf8Length s + utf8Length t := by
  induction s with
  | nil => simp
  | cons c s ih => simp [ih, Nat.add_assoc]

/-- The decimal digits of a natural number, without leading zeros. -/
def ofNat (n : Nat) : Text := Nat.toDigits 10 n

/-- Words joined by one space each. -/
def unwords : List Text → Text
  | [] => []
  | [word] => word
  | word :: words => word ++ ' ' :: unwords words

end Text

end Calculator

import Calculator.Text.Printable
import Calculator.Text.Extender

/-!
# Quoted text

A text shown between double quotes, so that every character of it can be
told apart: quotes, backslashes and the common controls have short escapes,
any other character that would not show by itself is written by its code
point in lower-case hexadecimal, and the rest stand for themselves.
-/

namespace Calculator.Text

/-- The letter after the backslash, for the characters with a short escape. -/
def shortEscape? : Char → Option Char
  | '\x00' => some '0'
  | '\t' => some 't'
  | '\n' => some 'n'
  | '\r' => some 'r'
  | '"' => some '"'
  | '\\' => some '\\'
  | _ => none

/-- Whether a character may stand for itself between quotes. -/
def showsItself (c : Char) : Bool :=
  isPrintable c && !isExtender c

/-- A character as it is written between quotes. -/
def escapeChar (c : Char) : List Char :=
  match shortEscape? c with
  | some letter => ['\\', letter]
  | none =>
    if showsItself c then [c]
    else ['\\', 'u', '{'] ++ Nat.toDigits 16 c.toNat ++ ['}']

/-- The text between double quotes, every hidden character escaped. -/
def quoted (s : String) : String :=
  String.ofList ('"' :: s.toList.flatMap escapeChar ++ ['"'])

end Calculator.Text

/-
# JsonQuery.Text.Quoted -- a piece of input between quotes

Messages quote characters and strings.  The delimiter and the backslash get a
backslash, the five common control characters their short names, and every other
character that is not printable its code in hexadecimal.
-/
import JsonQuery.Text.Printable

namespace JsonQuery.Text

set_option autoImplicit false

/-- A character as it stands between two of the delimiters. -/
def quoteChar (delimiter c : Char) : List Char :=
  if c = delimiter ∨ c = '\\' then ['\\', c]
  else if c = '\x00' then ['\\', '0']
  else if c = '\t' then ['\\', 't']
  else if c = '\r' then ['\\', 'r']
  else if c = '\n' then ['\\', 'n']
  else if isPrintable c then [c]
  else ['\\', 'u', '\x7b'] ++ Nat.toDigits 16 c.toNat ++ ['\x7d']

/-- A text between two of the delimiters. -/
def quote (delimiter : Char) (text : List Char) : List Char :=
  delimiter :: text.flatMap (quoteChar delimiter) ++ [delimiter]

end JsonQuery.Text

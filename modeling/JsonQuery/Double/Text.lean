/-
# JsonQuery.Double.Text -- binary64 values as text

The written form of a value is its shortest decimal, always positional: never an
exponent, no point after a whole number, a minus sign also on negative zero.
The values that have no digits are `NaN`, `inf` and `-inf`.

Reading is more generous than writing: `Double.ofText?` takes a sign, an
exponent, a point with digits on one side only, and the names of the values
without digits in any letter case.
-/
import JsonQuery.Double.Decimal

namespace JsonQuery

set_option autoImplicit false

namespace Double

/-- The written form of a value, character by character. -/
def chars : Double → List Char
  | .nan => ['N', 'a', 'N']
  | .infinite false => ['i', 'n', 'f']
  | .infinite true => ['-', 'i', 'n', 'f']
  | .finite false magnitude => magnitude.shortest.positional
  | .finite true magnitude => '-' :: magnitude.shortest.positional

/-- The written form of a value. -/
def text (x : Double) : String := String.ofList x.chars

end Double

namespace Decimal

/-- The sign at the head of a text, negative or not, and the text after it.  A text
without a sign is positive. -/
def splitSign : List Char → Bool × List Char
  | '-' :: rest => (true, rest)
  | '+' :: rest => (false, rest)
  | text => (false, text)

/-- The exponent that a whole text spells: digits behind an optional sign. -/
def readExponent? (text : List Char) : Option Int :=
  let (negative, digits) := splitSign text
  if digits.isEmpty || !digits.all Char.isDigit then
    none
  else
    let n := Nat.ofDigitChars 10 digits 0
    some (if negative then -(n : Int) else n)

/-- The decimal without a sign that a whole text spells: digits with an optional
point, at least one digit in all, and an optional exponent. -/
def read? (text : List Char) : Option Decimal :=
  let (whole, rest) := text.span Char.isDigit
  let (fraction, rest) := match rest with
    | '.' :: rest => rest.span Char.isDigit
    | rest => ([], rest)
  if whole.isEmpty && fraction.isEmpty then
    none
  else
    match rest with
    | [] => some (.ofDigits whole fraction 0)
    | c :: rest =>
        if c = 'e' ∨ c = 'E' then
          (readExponent? rest).map fun exponent => .ofDigits whole fraction exponent
        else
          none

end Decimal

namespace Double

/-- The value that a text names, if it names one. -/
def ofText? (text : String) : Option Double :=
  let (negative, rest) := Decimal.splitSign text.toList
  match String.ofList (rest.map Char.toLower) with
  | "nan" => some .nan
  | "inf" | "infinity" => some (.infinite negative)
  | _ => (Decimal.read? rest).map (.ofDecimal negative)

end Double

end JsonQuery

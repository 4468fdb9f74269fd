/-
# JsonQuery.Json.Reader -- values from JSON text

`Json.parse?` reads every JSON text.  A number without a point or an exponent is an
integer if 64 bits hold it, with or without a sign, and `-0` is not; every other
number is the nearest double, and a number beyond the doubles is refused.

Of other texts it refuses most but not all: control characters may stand in strings
as they are, a surrogate may lack its partner, and numbers may have a plus sign,
leading zeros and a point at either end.

The nesting of a value is bounded by the length of its text, which is the fuel of
the recursion.
-/
import JsonQuery.Double.Text
import JsonQuery.Json
import JsonQuery.Text.Escape

namespace JsonQuery.Json

set_option autoImplicit false

def isSpace (c : Char) : Bool := c = ' ' || c = '\t' || c = '\r' || c = '\n'

def isNumberChar (c : Char) : Bool :=
  c.isDigit || c = '-' || c = '+' || c = '.' || c = 'e' || c = 'E'

/-- The number that a whole token spells. -/
def numberOf? (token : List Char) : Option Number :=
  let (negative, digits) := Decimal.splitSign token
  let double : Option Number := do
    let value := Double.ofDecimal negative (← Decimal.read? digits)
    if value.isFinite then some (.double value) else none
  if digits.all Char.isDigit && !digits.isEmpty then
    let n := Nat.ofDigitChars 10 digits 0
    if negative then
      if 0 < n ∧ Int64.minValue.toInt ≤ -n then some (.int (-n)) else double
    else
      if n < UInt64.size then some (.int n) else double
  else
    double

/-- Takes a word off the head of a text. -/
def dropWord? (word : List Char) (text : List Char) : Option (List Char) :=
  if word.isPrefixOf text then some (text.drop word.length) else none

def skipSpace (text : List Char) : List Char := text.dropWhile isSpace

/-- Reads a string from behind its opening quote. -/
def readString? (text : List Char) : Option (String × List Char) :=
  match Text.readContent '"' text with
  | .closed pieces _ rest => some (String.ofList (Text.decode pieces), rest)
  | _ => none

mutual

/-- Reads a value at the head of a text that does not begin with a space. -/
def readValue? : Nat → List Char → Option (Json × List Char)
  | 0, _ => none
  | fuel + 1, text =>
      match text with
      | '"' :: rest => (readString? rest).map fun (value, rest) => (.string value, rest)
      | '[' :: rest =>
          match skipSpace rest with
          | ']' :: rest => some (.array [], rest)
          | rest => (readElements? fuel rest).map fun (elements, rest) => (.array elements, rest)
      | '\x7b' :: rest =>
          match skipSpace rest with
          | '\x7d' :: rest => some (.object [], rest)
          | rest => (readMembers? fuel rest).map fun (members, rest) => (.object members, rest)
      | 'n' :: _ => (dropWord? ['n', 'u', 'l', 'l'] text).map fun rest => (.null, rest)
      | 't' :: _ => (dropWord? ['t', 'r', 'u', 'e'] text).map fun rest => (.boolean true, rest)
      | 'f' :: _ =>
          (dropWord? ['f', 'a', 'l', 's', 'e'] text).map fun rest => (.boolean false, rest)
      | _ =>
          (numberOf? (text.takeWhile isNumberChar)).map fun value =>
            (.number value, text.dropWhile isNumberChar)

/-- Reads the elements of an array and its closing bracket. -/
def readElements? : Nat → List Char → Option (List Json × List Char)
  | 0, _ => none
  | fuel + 1, text => do
      let (value, rest) ← readValue? fuel text
      match skipSpace rest with
      | ',' :: rest =>
          let (elements, rest) ← readElements? fuel (skipSpace rest)
          return (value :: elements, rest)
      | ']' :: rest => return ([value], rest)
      | _ => none

/-- Reads the members of an object and its closing brace. -/
def readMembers? : Nat → List Char → Option (List (String × Json) × List Char)
  | 0, _ => none
  | fuel + 1, text => do
      let '"' :: rest := text | none
      let (name, rest) ← readString? rest
      let ':' :: rest := skipSpace rest | none
      let (value, rest) ← readValue? fuel (skipSpace rest)
      match skipSpace rest with
      | ',' :: rest =>
          let (members, rest) ← readMembers? fuel (skipSpace rest)
          return ((name, value) :: members, rest)
      | '\x7d' :: rest => return ([(name, value)], rest)
      | _ => none

end

/-- The value of a JSON text, as it is written. -/
def parse? (text : String) : Option Json := do
  let (value, rest) ← readValue? (text.length + 1) (skipSpace text.toList)
  if (skipSpace rest).isEmpty then some value else none

end JsonQuery.Json

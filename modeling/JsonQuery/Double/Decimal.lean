/-
# JsonQuery.Double.Decimal -- decimal numbers and the values nearest to them

A `Decimal` is a whole number times a power of ten.  This module reads one off
its digits, rounds it to the nearest binary64 magnitude, and finds for a
magnitude the decimal with the fewest digits that rounds back to it.

* `Decimal.magnitude?` rounds correctly whatever the number of digits, and
  answers nothing where the format overflows;
* `Magnitude.shortest` searches the powers of ten downwards.  On each it tests
  the two multiples beside the magnitude; the first power with one that rounds
  back wins, of two such multiples the nearer, and of two equally near the upper.
  A magnitude that no power up to the seventeenth digit settles is written out
  in full by `Magnitude.exact`.
-/
import JsonQuery.Double

namespace JsonQuery

set_option autoImplicit false

/-- The number `coefficient * 10 ^ exponent`. -/
structure Decimal where
  coefficient : Nat
  exponent : Int
deriving DecidableEq

namespace Decimal

/-- The number written `whole.fraction` times a power of ten, from its digits. -/
def ofDigits (whole fraction : List Char) (exponent : Int) : Decimal :=
  ⟨Nat.ofDigitChars 10 (whole ++ fraction) 0, exponent - fraction.length⟩

/-- The magnitude nearest to a decimal, if the format reaches that far.

A coefficient times `10 ^ 309` lies beyond every magnitude.  A coefficient has
at most `coefficient.log2 / 3 + 1` digits, so the last test before the division
finds numbers below `10 ^ (-330)`, which round to zero. -/
def magnitude? (d : Decimal) : Option Magnitude :=
  if d.coefficient = 0 then
    some .zero
  else if 309 ≤ d.exponent then
    none
  else if d.exponent + ((d.coefficient.log2 / 3 + 1 : Nat) : Int) < -330 then
    some .zero
  else
    match d.exponent with
    | .ofNat k => Magnitude.nearest? (d.coefficient * Nat.pow 10 k * unitsPerOne) 1
    | .negSucc k => Magnitude.nearest? (d.coefficient * unitsPerOne) (Nat.pow 10 (k + 1))

/-- The digits of a decimal written without an exponent: zeros fill the places up
to the point on either side, and a whole number has no point. -/
def positional (d : Decimal) : List Char :=
  let digits := Nat.toDigits 10 d.coefficient
  match d.exponent with
  | .ofNat k => digits ++ List.replicate k '0'
  | .negSucc k =>
      let padded := List.replicate (k + 2 - digits.length) '0' ++ digits
      let whole := padded.length - (k + 1)
      padded.take whole ++ '.' :: padded.drop whole

end Decimal

/-- The value nearest to a signed decimal. -/
def Double.ofDecimal (negative : Bool) (d : Decimal) : Double :=
  .ofMagnitude negative d.magnitude?

namespace Magnitude

/-- The decimal equal to a magnitude: `2 ^ (-1074)` is `5 ^ 1074 * 10 ^ (-1074)`. -/
def exact (x : Magnitude) : Decimal := ⟨x.units * Nat.pow 5 1074, -1074⟩

/-- The exponent of the power of ten at or below a magnitude other than zero.
Scaled by `10 ^ 400` every such magnitude is above one, and the digits before
its point can be counted. -/
def leadingExponent (x : Magnitude) : Int :=
  ((Nat.toDigits 10 (x.units * Nat.pow 10 400 / unitsPerOne)).length : Int) - 401

/-- A magnitude divided by `10 ^ exponent`, as a quotient. -/
def scaled (x : Magnitude) (exponent : Int) : Nat × Nat :=
  match exponent with
  | .ofNat k => (x.units, unitsPerOne * Nat.pow 10 k)
  | .negSucc k => (x.units * Nat.pow 10 (k + 1), unitsPerOne)

/-- Of the multiples of `10 ^ exponent` next to `x` one that rounds back to `x`:
the nearer if both do, the upper if both are equally near. -/
def roundsBackOn? (x : Magnitude) (exponent : Int) : Option Decimal :=
  let (num, den) := x.scaled exponent
  let lower : Decimal := ⟨num / den, exponent⟩
  let upper : Decimal := ⟨num / den + 1, exponent⟩
  match decide (lower.magnitude? = some x), decide (upper.magnitude? = some x) with
  | true, true => some (if 2 * (num % den) < den then lower else upper)
  | true, false => some lower
  | false, true => some upper
  | false, false => none

/-- The decimal with the fewest digits that rounds back to a magnitude, and of
those the nearest.  The search starts one power of ten above the leading digit,
where only a single upper multiple can round back. -/
def shortest (x : Magnitude) : Decimal :=
  if x.units = 0 then
    ⟨0, 0⟩
  else
    let top := x.leadingExponent + 1
    ((List.range 18).findSome? fun (digits : Nat) => x.roundsBackOn? (top - digits)).getD x.exact

end Magnitude

end JsonQuery

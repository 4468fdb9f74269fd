/-
# JsonQuery.Double -- binary64 numbers as exact values

The numbers of expressions and the numbers that comparisons see are binary64
values.  This module gives them as exact values, so that equality, order and
integrality are facts about integers and nothing is left to a machine.

Every finite binary64 value is a whole number of *units* of `2 ^ (-1074)`, the
smallest positive value.  A `Magnitude` is such a count that the format can
hold: at most 53 significant bits, and below `2 ^ 1024`.  A `Double` adds the
sign (zero has two), the two infinities and the one value that is not a number.

* `Magnitude.nearest?` rounds a quotient to the nearest magnitude, ties to the
  even one, and answers nothing where the format overflows;
* `Double.rank` places every value but NaN on the integers, so that `==` and
  `<` on values are `=` and `<` on ranks, with `-0` and `0` at one place;
* `Double.toInt?` is the exact integer that a value denotes, if it denotes one.
-/

namespace JsonQuery

set_option autoImplicit false

/-! ## Rounding a quotient -/

/-- The integer nearest to `num / den`; of two equally near ones the even one. -/
def roundDiv (num den : Nat) : Nat :=
  let floor := num / den
  let twice := 2 * (num % den)
  if twice < den ∨ (twice = den ∧ floor % 2 = 0) then floor else floor + 1

theorem roundDiv_le (num den : Nat) : roundDiv num den ≤ num / den + 1 := by
  simp only [roundDiv]
  split <;> omega

/-! ## Magnitudes -/

/-- The units in the number one. -/
def unitsPerOne : Nat := Nat.pow 2 1074

/-- The units in `2 ^ 1024`, where the finite values end. -/
def unitLimit : Nat := Nat.pow 2 2098

/-- The absolute value of a finite binary64 number, counted in units of
`2 ^ (-1074)`. -/
structure Magnitude where
  units : Nat
  /-- The value lies below `2 ^ 1024`. -/
  bounded : units < unitLimit
  /-- The value has at most 53 significant bits. -/
  significant : ∃ m e, m < Nat.pow 2 53 ∧ units = m * Nat.pow 2 e
deriving DecidableEq

namespace Magnitude

theorem unitLimit_pos : 0 < unitLimit := by
  unfold unitLimit
  apply Nat.pow_pos
  decide

def zero : Magnitude := ⟨0, unitLimit_pos, 0, 0, Nat.two_pow_pos _, by simp⟩

instance : Inhabited Magnitude := ⟨zero⟩

/-- The distance between neighbouring magnitudes from `floor` units on, up to
the next power of two. -/
def spacing (floor : Nat) : Nat := Nat.pow 2 (floor.log2 - 52)

theorem div_spacing_lt (floor : Nat) : floor / spacing floor < Nat.pow 2 53 := by
  apply Nat.div_lt_of_lt_mul
  have below : floor < 2 ^ (floor.log2 + 1) := Nat.lt_log2_self
  refine Nat.lt_of_lt_of_le below ?_
  rw [spacing, Nat.pow_eq, Nat.pow_eq, ← Nat.pow_add]
  exact Nat.pow_le_pow_right (by decide) (by omega)

theorem significant_roundDiv (num den : Nat) :
    ∃ m e, m < Nat.pow 2 53 ∧
      roundDiv num (den * spacing (num / den)) * spacing (num / den) = m * Nat.pow 2 e := by
  have steps : roundDiv num (den * spacing (num / den)) ≤ Nat.pow 2 53 := by
    refine Nat.le_trans (roundDiv_le _ _) ?_
    rw [← Nat.div_div_eq_div_mul]
    exact div_spacing_lt (num / den)
  by_cases full : roundDiv num (den * spacing (num / den)) = Nat.pow 2 53
  · refine ⟨1, 53 + ((num / den).log2 - 52), by decide, ?_⟩
    rw [full, Nat.one_mul]
    exact (Nat.pow_add 2 53 _).symm
  · exact ⟨_, (num / den).log2 - 52, by omega, rfl⟩

/-- The magnitude nearest to `num / den` units, ties to the even one; nothing if
that is `2 ^ 1024` or more. -/
def nearest? (num den : Nat) : Option Magnitude :=
  let gap := spacing (num / den)
  let units := roundDiv num (den * gap) * gap
  if bounded : units < unitLimit then
    some ⟨units, bounded, significant_roundDiv num den⟩
  else none

/-- The magnitude nearest to an integer. -/
def ofNat? (n : Nat) : Option Magnitude := nearest? (n * unitsPerOne) 1

/-- The integer that a magnitude denotes, if it is one. -/
def toNat? (x : Magnitude) : Option Nat :=
  if x.units % unitsPerOne = 0 then some (x.units / unitsPerOne) else none

end Magnitude

/-! ## Signed values -/

/-- A binary64 value. -/
inductive Double where
  | nan
  | infinite (negative : Bool)
  | finite (negative : Bool) (magnitude : Magnitude)
deriving DecidableEq

namespace Double

instance : Inhabited Double := ⟨.finite false .zero⟩

/-- A magnitude with its sign; a magnitude beyond the format is infinite. -/
def ofMagnitude (negative : Bool) : Option Magnitude → Double
  | some magnitude => .finite negative magnitude
  | none => .infinite negative

/-- The value nearest to an integer. -/
def ofInt (n : Int) : Double := ofMagnitude (decide (n < 0)) (Magnitude.ofNat? n.natAbs)

def isNaN : Double → Bool
  | .nan => true
  | _ => false

def isFinite : Double → Bool
  | .finite _ _ => true
  | _ => false

/-- The place of a value among all values: a finite value counts its units, and
the infinities lie just beyond.  NaN has no place, and `0` stands in for it. -/
def rank : Double → Int
  | .nan => 0
  | .infinite true => -unitLimit
  | .infinite false => unitLimit
  | .finite true magnitude => -magnitude.units
  | .finite false magnitude => magnitude.units

/-- Numeric equality: NaN differs from everything, and `-0` equals `0`. -/
def equal (x y : Double) : Bool := !x.isNaN && !y.isNaN && x.rank == y.rank

/-- Numeric order: NaN is not below, above or beside anything. -/
def less (x y : Double) : Bool := !x.isNaN && !y.isNaN && x.rank < y.rank

/-- The exact integer that a value denotes, if it denotes one; `-0` denotes `0`. -/
def toInt? : Double → Option Int
  | .finite true magnitude => magnitude.toNat?.map fun n => -(n : Int)
  | .finite false magnitude => magnitude.toNat?.map fun n => (n : Int)
  | _ => none

end Double

end JsonQuery

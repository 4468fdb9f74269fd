/-
# JsonQuery.Proofs.Double.Nearest -- the value nearest to a decimal

Correct rounding is said without a computation.  Of all counts of units that have at most
53 significant bits, the nearest to a quotient is the one that no other is nearer than, and
of two that are equally near the even one (`Nearest`).  There is no other
(`Nearest.unique`).

Rounding goes by the steps of one power of two, on both sides of the quotient
(`Magnitude.spacing`).  No count with so few bits lies between two such steps
(`Significant.le_or_ge`), so the nearer of the two is the nearest of all
(`nearest_roundDiv`).  With it, the value of a decimal is the nearest one whatever the number
of its digits, also where it is found to be zero without a division, and it is infinite
exactly if the nearest count is not below `2 ^ 1024` (`Double.nearestTo_iff`).
-/
import JsonQuery.Proofs.Double.Exact
import Mathlib.Algebra.Group.Nat.Defs

namespace JsonQuery

set_option autoImplicit false

/-! ## The nearest count -/

/-- A count that has at most 53 significant bits. -/
def Significant (n : Nat) : Prop := ∃ m e, m < Nat.pow 2 53 ∧ n = m * Nat.pow 2 e

/-- How far two numbers are apart. -/
def apart (x y : Nat) : Nat := (x - y) + (y - x)

/-- Of the counts with at most 53 significant bits, `n` is the nearest to `num / den`.  Where
another is as near, `n` is the even one: a multiple of twice the step between them. -/
structure Nearest (num den n : Nat) : Prop where
  significant : Significant n
  nearest : ∀ other, Significant other → apart (n * den) num ≤ apart (other * den) num
  even : ∀ other, Significant other → other ≠ n →
    apart (other * den) num = apart (n * den) num → 2 * apart n other ∣ n

theorem apart_comm (x y : Nat) : apart x y = apart y x := Nat.add_comm ..

theorem Nearest.unique {num den x y : Nat} (one : Nearest num den x) (two : Nearest num den y) :
    x = y := by
  refine Decidable.byContradiction fun differ => ?_
  have same := Nat.le_antisymm (one.nearest y two.significant) (two.nearest x one.significant)
  have left := one.even y two.significant (Ne.symm differ) same.symm
  have right := two.even x one.significant differ same
  rw [apart_comm] at right
  have both : 2 * apart x y ∣ apart x y :=
    Nat.dvd_add (Nat.dvd_sub left right) (Nat.dvd_sub right left)
  have positive : 0 < apart x y := by
    unfold apart
    omega
  have bound := Nat.le_of_dvd positive both
  omega

theorem significant_zero : Significant 0 := ⟨0, 0, Nat.two_pow_pos 53, (Nat.zero_mul _).symm⟩

/-- A count is the nearest if every other is farther off, or as far and the count even. -/
theorem nearest_of_closer {num den n : Nat} (significant : Significant n)
    (closer : ∀ other, Significant other → other ≠ n →
      apart (n * den) num < apart (other * den) num ∨
        apart (n * den) num = apart (other * den) num ∧ 2 * apart n other ∣ n) :
    Nearest num den n := by
  refine ⟨significant, fun other significant' => ?_, fun other significant' differ same => ?_⟩
  · by_cases is : other = n
    · exact Nat.le_of_eq (by rw [is])
    · obtain farther | ⟨same, -⟩ := closer other significant' is
      · exact Nat.le_of_lt farther
      · exact Nat.le_of_eq same
  · obtain farther | ⟨-, even⟩ := closer other significant' differ
    · exact absurd same.symm (Nat.ne_of_lt farther)
    · exact even

/-- A quotient below one half is nearest to zero. -/
theorem nearest_zero {num den : Nat} (small : 2 * num < den) : Nearest num den 0 := by
  refine nearest_of_closer significant_zero fun other _ nonzero => .inl ?_
  have far : den ≤ other * den := Nat.le_mul_of_pos_left den (Nat.pos_of_ne_zero nonzero)
  simp only [apart, Nat.zero_mul]
  omega

/-! ## Steps -/

/-- With 53 bits in front of a step, or for the least of all steps, no count has a place
between two multiples of it. -/
theorem Significant.le_or_ge {n q k : Nat} (significant : Significant n)
    (full : k = 0 ∨ 2 ^ 52 ≤ q) : n ≤ q * 2 ^ k ∨ (q + 1) * 2 ^ k ≤ n := by
  obtain ⟨m, e, small, rfl⟩ := significant
  rw [Nat.pow_eq] at small ⊢
  by_cases coarse : k ≤ e
  · have multiple : m * 2 ^ e = m * 2 ^ (e - k) * 2 ^ k := by
      rw [Nat.mul_assoc, ← Nat.pow_add, Nat.sub_add_cancel coarse]
    rw [multiple]
    obtain above | below := Nat.lt_or_ge q (m * 2 ^ (e - k))
    · exact .inr (Nat.mul_le_mul_right _ above)
    · exact .inl (Nat.mul_le_mul_right _ below)
  · obtain rfl | full := full
    · omega
    · refine .inl ?_
      calc m * 2 ^ e
        _ ≤ 2 ^ 53 * 2 ^ e := Nat.mul_le_mul_right _ (Nat.le_of_lt small)
        _ = 2 ^ (53 + e) := (Nat.pow_add 2 53 e).symm
        _ ≤ 2 ^ (52 + k) := Nat.pow_le_pow_right (by decide) (by omega)
        _ = 2 ^ 52 * 2 ^ k := Nat.pow_add 2 52 k
        _ ≤ q * 2 ^ k := Nat.mul_le_mul_right _ full

section

variable {num den gap q : Nat} (pos : 0 < den)
  (between : ∀ other, Significant other → other ≤ q * gap ∨ (q + 1) * gap ≤ other)
include pos between

/-- The multiple of a step at or below a quotient is the nearest, if it is no farther than the
next one, and even if it is as far. -/
theorem nearest_lower (significant : Significant (q * gap)) {rest : Nat}
    (split : num = q * gap * den + rest)
    (near : 2 * rest < gap * den ∨ 2 * rest = gap * den ∧ q % 2 = 0) :
    Nearest num den (q * gap) := by
  have next : (q + 1) * gap * den = q * gap * den + gap * den := by
    rw [Nat.succ_mul, Nat.add_mul]
  refine nearest_of_closer significant fun other significant' differ => ?_
  simp only [apart]
  obtain below | above := between other significant'
  · have bound := Nat.mul_lt_mul_of_pos_right (Nat.lt_of_le_of_ne below differ) pos
    omega
  · have bound := Nat.mul_le_mul_right den above
    by_cases far : (q + 1) * gap * den < other * den
    · omega
    · obtain rfl := Nat.eq_of_mul_eq_mul_right pos (Nat.le_antisymm (Nat.le_of_not_lt far) bound)
      obtain nearer | ⟨middle, even⟩ := near
      · omega
      · refine .inr ⟨by omega, ?_⟩
        have step : q * gap - (q + 1) * gap + ((q + 1) * gap - q * gap) = gap := by
          rw [Nat.succ_mul]
          omega
        rw [step]
        exact Nat.mul_dvd_mul_right (Nat.dvd_of_mod_eq_zero even) gap

/-- And so is the multiple above it. -/
theorem nearest_upper (significant : Significant ((q + 1) * gap)) {rest : Nat}
    (split : num + rest = (q + 1) * gap * den)
    (near : 2 * rest < gap * den ∨ 2 * rest = gap * den ∧ (q + 1) % 2 = 0) :
    Nearest num den ((q + 1) * gap) := by
  have next : (q + 1) * gap * den = q * gap * den + gap * den := by
    rw [Nat.succ_mul, Nat.add_mul]
  refine nearest_of_closer significant fun other significant' differ => ?_
  simp only [apart]
  obtain below | above := between other significant'
  · have bound := Nat.mul_le_mul_right den below
    by_cases far : other * den < q * gap * den
    · omega
    · obtain rfl := Nat.eq_of_mul_eq_mul_right pos (Nat.le_antisymm bound (Nat.le_of_not_lt far))
      obtain nearer | ⟨middle, even⟩ := near
      · omega
      · refine .inr ⟨by omega, ?_⟩
        have step : (q + 1) * gap - q * gap + (q * gap - (q + 1) * gap) = gap := by
          rw [Nat.succ_mul]
          omega
        rw [step]
        exact Nat.mul_dvd_mul_right (Nat.dvd_of_mod_eq_zero even) gap
  · have bound := Nat.mul_lt_mul_of_pos_right (Nat.lt_of_le_of_ne above (Ne.symm differ)) pos
    omega

end

namespace Magnitude

/-- Up to the next power of two there are 53 bits in front of a step. -/
theorem two_pow_le_div_spacing (floor : Nat) :
    floor.log2 - 52 = 0 ∨ 2 ^ 52 ≤ floor / spacing floor := by
  by_cases bits : 52 < floor.log2
  · have nonzero : floor ≠ 0 := by
      rintro rfl
      simp at bits
    refine .inr ((Nat.le_div_iff_mul_le (Nat.two_pow_pos _)).2 ?_)
    rw [← Nat.pow_add, Nat.add_sub_cancel' (Nat.le_of_lt bits)]
    exact Nat.log2_self_le nonzero
  · exact .inl (by omega)

/-- Rounding a quotient in steps gives the nearest count. -/
theorem nearest_roundDiv (num : Nat) {den : Nat} (pos : 0 < den) :
    Nearest num den
      (roundDiv num (den * spacing (num / den)) * spacing (num / den)) := by
  have significant : Significant _ := significant_roundDiv num den
  have full := two_pow_le_div_spacing (num / den)
  rw [Nat.div_div_eq_div_mul] at full
  have between other (significant : Significant other) := significant.le_or_ge full
  generalize gap_eq : spacing (num / den) = gap at significant between ⊢
  rw [spacing, Nat.pow_eq] at gap_eq
  rw [gap_eq] at between
  have split := Nat.div_add_mod num (den * gap)
  have below : num % (den * gap) < den * gap :=
    Nat.mod_lt _ (Nat.mul_pos pos (gap_eq ▸ Nat.two_pow_pos _))
  unfold roundDiv at significant ⊢
  generalize num / (den * gap) = q at split between significant ⊢
  generalize num % (den * gap) = rest at split below significant ⊢
  have product : den * gap * q = q * gap * den := by ac_rfl
  have next : (q + 1) * gap * den = q * gap * den + den * gap := by
    rw [Nat.succ_mul, Nat.add_mul, Nat.mul_comm gap den]
  dsimp only at significant ⊢
  split at significant
  · rename_i near
    rw [if_pos near]
    have above : num = q * gap * den + rest := by omega
    refine nearest_lower pos between significant above ?_
    rwa [Nat.mul_comm gap den]
  · rename_i far
    rw [if_neg far]
    have below : num + (den * gap - rest) = (q + 1) * gap * den := by omega
    refine nearest_upper pos between significant below ?_
    rw [Nat.mul_comm gap den]
    omega

theorem nearest_of_nearest? {num den : Nat} (pos : 0 < den) {x : Magnitude}
    (is : nearest? num den = some x) : Nearest num den x.units := by
  have rounded := nearest_roundDiv num pos
  simp only [nearest?] at is
  split at is
  · cases is
    exact rounded
  · cases is

theorem beyond_of_nearest? {num den : Nat} (pos : 0 < den) (is : nearest? num den = none) :
    ∃ n, Nearest num den n ∧ unitLimit ≤ n := by
  have rounded := nearest_roundDiv num pos
  simp only [nearest?] at is
  split at is
  · cases is
  · exact ⟨_, rounded, by omega⟩

end Magnitude

/-! ## Values -/

/-- The units in the number one are this power of two. -/
def unitExponent : Nat := 1074

/-- The units in `2 ^ 1024` are this power of two. -/
def limitExponent : Nat := unitExponent + 1024

/-- A value is the one nearest to `num / den`, of a sign: it has as many units as are nearest
to that, or it is infinite, if these are `2 ^ 1024` or more. -/
inductive Double.NearestTo (negative : Bool) (num den : Nat) : Double → Prop
  | finite {x : Magnitude} (nearest : Nearest (num * 2 ^ unitExponent) den x.units) :
      NearestTo negative num den (.finite negative x)
  | infinite {n : Nat} (nearest : Nearest (num * 2 ^ unitExponent) den n)
      (beyond : 2 ^ limitExponent ≤ n) : NearestTo negative num den (.infinite negative)

theorem unitsPerOne_eq_two_pow : unitsPerOne = 2 ^ unitExponent := by
  rw [unitsPerOne_eq (n := unitExponent) rfl, Nat.pow_eq]

theorem unitLimit_eq_two_pow : unitLimit = 2 ^ limitExponent := by
  rw [unitLimit_eq (n := limitExponent) rfl, Nat.pow_eq]

namespace Double

variable {negative : Bool} {num den : Nat}

theorem NearestTo.unique {x y : Double} (one : x.NearestTo negative num den)
    (two : y.NearestTo negative num den) : x = y := by
  have inside (m : Magnitude) {n : Nat} (beyond : 2 ^ limitExponent ≤ n) : m.units ≠ n := by
    rw [← unitLimit_eq_two_pow] at beyond
    exact Nat.ne_of_lt (Nat.lt_of_lt_of_le m.bounded beyond)
  cases one with
  | @finite m nearest =>
    cases two with
    | finite nearest' => rw [Magnitude.eq_of_units (nearest.unique nearest')]
    | infinite nearest' beyond => exact absurd (nearest.unique nearest') (inside m beyond)
  | infinite nearest beyond =>
    cases two with
    | @finite m nearest' => exact absurd (nearest'.unique nearest) (inside m beyond)
    | infinite => rfl

/-- A quotient that is rounded has the nearest value. -/
theorem nearestTo_nearest? (negative : Bool) (num : Nat) {den : Nat} (pos : 0 < den) :
    (ofMagnitude negative (Magnitude.nearest? (num * unitsPerOne) den)).NearestTo
      negative num den := by
  cases is : Magnitude.nearest? (num * unitsPerOne) den with
  | some x =>
    have nearest := Magnitude.nearest_of_nearest? pos is
    rw [unitsPerOne_eq_two_pow] at nearest
    exact .finite nearest
  | none =>
    obtain ⟨n, nearest, beyond⟩ := Magnitude.beyond_of_nearest? pos is
    rw [unitsPerOne_eq_two_pow] at nearest
    rw [unitLimit_eq_two_pow] at beyond
    exact .infinite nearest beyond

end Double

namespace Decimal

/-! ## Decimals -/

theorem two_pow_le_ten_pow (n : Nat) : 2 ^ (33 * n) ≤ 10 ^ (10 * n) :=
  calc 2 ^ (33 * n)
    _ = (2 ^ 33) ^ n := Nat.pow_mul 2 33 n
    _ ≤ (10 ^ 10) ^ n := Nat.pow_le_pow_left (by decide) n
    _ = 10 ^ (10 * n) := (Nat.pow_mul 10 10 n).symm

/-- Three bits are less than a digit. -/
theorem lt_ten_pow_log2 (c : Nat) : c < 10 ^ (c.log2 / 3 + 1) :=
  calc c
    _ < 2 ^ (c.log2 + 1) := Nat.lt_log2_self
    _ ≤ 2 ^ (3 * (c.log2 / 3 + 1)) := Nat.pow_le_pow_right (by decide) (by omega)
    _ = (2 ^ 3) ^ (c.log2 / 3 + 1) := Nat.pow_mul 2 3 _
    _ ≤ 10 ^ (c.log2 / 3 + 1) := Nat.pow_le_pow_left (by decide) _

/-- A number with so many places that its first digit stands far behind the point is less
than half a unit. -/
theorem lt_of_places {c k bits n : Nat} (few : bits < 33 * n)
    (places : 10 * n + (c.log2 / 3 + 1) < k) : 2 * (c * 2 ^ bits) < 10 ^ k := by
  have units : 2 ^ (bits + 1) ≤ 10 ^ (10 * n) :=
    Nat.le_trans (Nat.pow_le_pow_right (by decide) few) (two_pow_le_ten_pow n)
  calc 2 * (c * 2 ^ bits)
    _ = c * 2 ^ (bits + 1) := by rw [Nat.pow_succ]; ac_rfl
    _ < 10 ^ (c.log2 / 3 + 1) * 10 ^ (10 * n) :=
      Nat.mul_lt_mul_of_lt_of_le (lt_ten_pow_log2 c) units (Nat.pow_pos (by decide))
    _ = 10 ^ (c.log2 / 3 + 1 + 10 * n) := (Nat.pow_add ..).symm
    _ ≤ 10 ^ k := Nat.pow_le_pow_right (by decide) (by omega)

end Decimal

namespace Double

variable {negative : Bool}

theorem nearestTo_zero {num den : Nat} (small : 2 * (num * 2 ^ unitExponent) < den) :
    (ofMagnitude negative (some .zero)).NearestTo negative num den :=
  .finite (nearest_zero small)

/-- The value of a decimal is the one nearest to it. -/
theorem nearestTo_ofDecimal (negative : Bool) (c k : Nat) :
    (ofDecimal negative ⟨c, -k⟩).NearestTo negative c (10 ^ k) := by
  have pos : 0 < 10 ^ k := Nat.pow_pos (by decide)
  unfold ofDecimal Decimal.magnitude?
  dsimp only
  split
  · rename_i zero
    rw [zero]
    exact nearestTo_zero (by rwa [Nat.zero_mul])
  rw [if_neg (by omega)]
  split
  · rename_i tiny
    exact nearestTo_zero (Decimal.lt_of_places (n := 33) (by decide) (by omega))
  · cases k with
    | zero =>
      have rounded := nearestTo_nearest? negative c pos
      simpa using rounded
    | succ k =>
      exact nearestTo_nearest? negative c pos

/-- The value that digits spell is the one nearest to the number that they are, and no
other is. -/
theorem nearestTo_iff {value : Double} {whole fraction : List Char} :
    value.NearestTo negative (Nat.ofDigitChars 10 (whole ++ fraction) 0) (10 ^ fraction.length) ↔
      value = ofDecimal negative (.ofDigits whole fraction 0) := by
  have spelled := nearestTo_ofDecimal negative (Nat.ofDigitChars 10 (whole ++ fraction) 0)
    fraction.length
  rw [← Int.zero_sub, ← Decimal.ofDigits] at spelled
  constructor
  · intro nearest
    exact nearest.unique spelled
  · rintro rfl
    exact spelled

end Double

end JsonQuery

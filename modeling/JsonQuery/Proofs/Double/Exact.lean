/-
# JsonQuery.Proofs.Double.Exact -- rounding what needs no rounding

A quotient that is a magnitude already is rounded to that magnitude
(`nearest?_units`).  So the full decimal of a magnitude reads back
(`magnitude?_exact`), and with it the decimal that `Magnitude.shortest` finds,
whichever power of ten settles the search (`magnitude?_shortest`).
-/
import JsonQuery.Double.Decimal

namespace JsonQuery

set_option autoImplicit false

theorem roundDiv_mul (n : Nat) {den : Nat} (pos : 0 < den) : roundDiv (n * den) den = n := by
  simp [roundDiv, Nat.mul_div_cancel n pos, pos]

/-! The exponents are named, as a power with such a literal would be computed. -/

theorem unitsPerOne_eq {n : Nat} (is : 1074 = n) : unitsPerOne = Nat.pow 2 n := by
  unfold unitsPerOne
  rw [is]

theorem unitLimit_eq {n : Nat} (is : 2098 = n) : unitLimit = Nat.pow 2 n := by
  unfold unitLimit
  rw [is]

namespace Magnitude

theorem eq_of_units {x y : Magnitude} (same : x.units = y.units) : x = y := by
  cases x
  cases y
  simp_all

theorem log2_mul_two_pow {m : Nat} (nonzero : m ≠ 0) (e : Nat) :
    (m * Nat.pow 2 e).log2 = m.log2 + e := by
  rw [Nat.pow_eq]
  have product : m * 2 ^ e ≠ 0 := Nat.mul_ne_zero nonzero (Nat.ne_of_gt (Nat.two_pow_pos e))
  obtain ⟨lower, upper⟩ := (Nat.log2_eq_iff nonzero).1 rfl
  refine (Nat.log2_eq_iff product).2 ⟨?_, ?_⟩
  · rw [Nat.pow_add]
    exact Nat.mul_le_mul_right _ lower
  · rw [Nat.add_right_comm, Nat.pow_add]
    exact Nat.mul_lt_mul_of_pos_right upper (Nat.two_pow_pos e)

/-- A magnitude is a whole number of the steps between its neighbours. -/
theorem spacing_dvd (x : Magnitude) : spacing x.units ∣ x.units := by
  obtain ⟨m, e, small, units⟩ := x.significant
  rw [units]
  by_cases zero : m = 0
  · simp [zero]
  · have bits : m.log2 < 53 := (Nat.log2_lt zero).2 small
    rw [spacing, log2_mul_two_pow zero]
    exact Nat.dvd_trans (Nat.pow_dvd_pow 2 (by omega)) (Nat.dvd_mul_left _ _)

/-- A quotient that is a magnitude is rounded to it. -/
theorem nearest?_units (x : Magnitude) {den : Nat} (pos : 0 < den) :
    nearest? (x.units * den) den = some x := by
  obtain ⟨q, units⟩ := x.spacing_dvd
  have gap : 0 < spacing x.units := Nat.two_pow_pos _
  generalize spacing_eq : spacing x.units = step at units gap
  have steps : x.units * den = q * (den * step) := by
    rw [units]
    ac_rfl
  have back : roundDiv (x.units * den) (den * step) * step = x.units := by
    rw [steps, roundDiv_mul q (Nat.mul_pos pos gap), Nat.mul_comm, ← units]
  simp only [nearest?, Nat.mul_div_cancel _ pos, spacing_eq, back, x.bounded, ↓reduceDIte]

theorem two_pow_le_five_pow (n : Nat) : Nat.pow 2 (16 * (n / 7)) ≤ Nat.pow 5 n := by
  rw [Nat.pow_eq, Nat.pow_eq]
  calc 2 ^ (16 * (n / 7)) = (2 ^ 16) ^ (n / 7) := Nat.pow_mul 2 16 _
    _ ≤ (5 ^ 7) ^ (n / 7) := Nat.pow_le_pow_left (by decide) _
    _ = 5 ^ (7 * (n / 7)) := (Nat.pow_mul 5 7 _).symm
    _ ≤ 5 ^ n := Nat.pow_le_pow_right (by decide) (Nat.mul_div_le n 7)

theorem five_pow_ne_zero (n : Nat) : Nat.pow 5 n ≠ 0 :=
  Nat.ne_of_gt (Nat.pow_pos (by decide))

theorem mul_five_pow_mul_two_pow (units n : Nat) :
    units * Nat.pow 5 n * Nat.pow 2 n = units * Nat.pow 10 n := by
  rw [Nat.mul_assoc]
  exact congrArg (units * ·) (Nat.mul_pow 5 2 n).symm

/-- A power of five has more than two bits for each factor, and so digits enough to be
rounded as a quotient. -/
theorem digits_mul_five_pow {units k n : Nat} (nonzero : units ≠ 0)
    (places : k < 331 + 16 * (n / 7) / 3) :
    k < 330 + (units * Nat.pow 5 n).log2 / 3 + 1 := by
  have bits : 16 * (n / 7) ≤ (units * Nat.pow 5 n).log2 := by
    rw [Nat.le_log2 (Nat.mul_ne_zero nonzero (five_pow_ne_zero n))]
    exact Nat.le_trans (two_pow_le_five_pow n)
      (Nat.le_mul_of_pos_left _ (Nat.pos_of_ne_zero nonzero))
  omega

theorem magnitude?_zero (exponent : Int) : (Decimal.mk 0 exponent).magnitude? = some zero := by
  simp only [Decimal.magnitude?, if_true]

/-- A decimal with digits enough is rounded as a quotient. -/
theorem magnitude?_of_digits {coefficient k : Nat} (nonzero : coefficient ≠ 0)
    (digits : k < 330 + coefficient.log2 / 3 + 1) :
    (Decimal.mk coefficient (.negSucc k)).magnitude? =
      nearest? (coefficient * unitsPerOne) (Nat.pow 10 (k + 1)) := by
  simp only [Decimal.magnitude?]
  rw [if_neg nonzero, if_neg (by omega), if_neg (by omega)]

/-- A magnitude in units of `2 ^ (-n)` is a decimal with `n` places, and that reads back. -/
theorem magnitude?_mul_five_pow (x : Magnitude) {k : Nat} (one : unitsPerOne = Nat.pow 2 (k + 1))
    (places : k < 331 + 16 * ((k + 1) / 7) / 3) :
    (Decimal.mk (x.units * Nat.pow 5 (k + 1)) (.negSucc k)).magnitude? = some x := by
  by_cases units : x.units = 0
  · rw [units, Nat.zero_mul, magnitude?_zero]
    exact congrArg some (eq_of_units units.symm)
  · have nonzero := Nat.mul_ne_zero units (five_pow_ne_zero (k + 1))
    rw [magnitude?_of_digits nonzero (digits_mul_five_pow units places), one,
      mul_five_pow_mul_two_pow]
    exact x.nearest?_units (Nat.pow_pos (by decide))

/-- The decimal equal to a magnitude reads back. -/
theorem magnitude?_exact (x : Magnitude) : x.exact.magnitude? = some x := by
  obtain ⟨k, places⟩ : ∃ k, 1074 = k + 1 := ⟨1073, rfl⟩
  have digits : k < 331 + 16 * ((k + 1) / 7) / 3 := by omega
  have exponent : (-1074 : Int) = .negSucc k := by omega
  rw [exact, exponent, places]
  exact x.magnitude?_mul_five_pow (unitsPerOne_eq places) digits

theorem magnitude?_of_roundsBackOn? {x : Magnitude} {exponent : Int} {d : Decimal}
    (found : x.roundsBackOn? exponent = some d) : d.magnitude? = some x := by
  simp only [roundsBackOn?] at found
  split at found
  · rename_i lower upper
    cases found
    split <;> simp_all
  · simp_all
  · simp_all
  · cases found

/-- The decimal with the fewest digits reads back. -/
theorem magnitude?_shortest (x : Magnitude) : x.shortest.magnitude? = some x := by
  unfold shortest
  split
  · rename_i zero
    rw [magnitude?_zero]
    exact congrArg some (eq_of_units zero.symm)
  · dsimp only
    cases found : (List.range 18).findSome? fun digits : Nat =>
        x.roundsBackOn? (x.leadingExponent + 1 - digits) with
    | none => simpa using x.magnitude?_exact
    | some d =>
      obtain ⟨digits, -, reads⟩ := List.exists_of_findSome?_eq_some found
      simpa using magnitude?_of_roundsBackOn? reads

/-! ## Whole numbers -/

theorem units_of_toNat? {x : Magnitude} {n : Nat} (whole : x.toNat? = some n) :
    x.units = n * unitsPerOne := by
  simp only [toNat?] at whole
  split at whole
  · rename_i exact
    cases whole
    exact (Nat.div_mul_cancel (Nat.dvd_of_mod_eq_zero exact)).symm
  · cases whole

/-- The digits of an integer that is a magnitude read back as that magnitude. -/
theorem magnitude?_of_toNat? {x : Magnitude} {n : Nat} (whole : x.toNat? = some n) :
    (Decimal.mk n 0).magnitude? = some x := by
  have units := units_of_toNat? whole
  by_cases nonzero : n = 0
  · rw [nonzero, magnitude?_zero]
    exact congrArg some (eq_of_units (by simp [units, nonzero, zero]))
  · have rounded := x.nearest?_units Nat.one_pos
    simp only [Decimal.magnitude?]
    rw [if_neg nonzero, if_neg (by decide), if_neg (by omega)]
    simpa [units] using rounded

theorem mul_two_pow_lt {n bits e limit : Nat} (small : n < Nat.pow 2 bits)
    (fits : bits + e ≤ limit) : n * Nat.pow 2 e < Nat.pow 2 limit := by
  rw [Nat.pow_eq] at small
  rw [Nat.pow_eq, Nat.pow_eq]
  calc n * 2 ^ e
    _ < 2 ^ bits * 2 ^ e := Nat.mul_lt_mul_of_pos_right small (Nat.two_pow_pos e)
    _ = 2 ^ (bits + e) := (Nat.pow_add 2 bits e).symm
    _ ≤ 2 ^ limit := Nat.pow_le_pow_right (by decide) fits

theorem exists_units_eq {m e : Nat} (small : m < Nat.pow 2 53)
    (bounded : m * Nat.pow 2 e < unitLimit) : ∃ x : Magnitude, x.units = m * Nat.pow 2 e :=
  ⟨⟨m * Nat.pow 2 e, bounded, m, e, small, rfl⟩, rfl⟩

/-- An integer of at most 53 bits needs no rounding. -/
theorem ofNat?_of_lt {n : Nat} (small : n < Nat.pow 2 53) :
    ∃ x, ofNat? n = some x ∧ x.toNat? = some n := by
  obtain ⟨e, one⟩ : ∃ e, 1074 = e := ⟨_, rfl⟩
  obtain ⟨limit, most⟩ : ∃ limit, 2098 = limit := ⟨_, rfl⟩
  have pos : 0 < unitsPerOne := unitsPerOne_eq one ▸ Nat.two_pow_pos e
  have bounded : n * Nat.pow 2 e < unitLimit :=
    unitLimit_eq most ▸ mul_two_pow_lt small (by omega)
  obtain ⟨x, units⟩ := exists_units_eq small bounded
  rw [← unitsPerOne_eq one] at units
  refine ⟨x, ?_, ?_⟩
  · have rounded := x.nearest?_units Nat.one_pos
    rwa [Nat.mul_one, units] at rounded
  · simp only [toNat?, units, Nat.mul_mod_left, if_true, Nat.mul_div_cancel n pos]

end Magnitude

namespace Double

theorem toInt?_finite (negative : Bool) (x : Magnitude) :
    (finite negative x).toInt? =
      x.toNat?.map fun n : Nat => if negative then -(n : Int) else n := by
  cases negative <;> simp only [toInt?] <;> cases x.toNat? <;> rfl

/-- The digits of an integer that a value denotes, read with its sign, denote it. -/
theorem toInt?_ofDecimal {x : Double} {n : Int} (denotes : x.toInt? = some n) :
    (ofDecimal (decide (n < 0)) ⟨n.natAbs, 0⟩).toInt? = some n := by
  have magnitude : ∃ y : Magnitude, y.toNat? = some n.natAbs := by
    match x with
    | .finite negative y =>
      rw [toInt?_finite, Option.map_eq_some_iff] at denotes
      obtain ⟨m, whole, rfl⟩ := denotes
      refine ⟨y, ?_⟩
      rw [whole]
      cases negative <;> simp
    | .nan | .infinite _ => cases denotes
  obtain ⟨y, whole⟩ := magnitude
  rw [ofDecimal, Magnitude.magnitude?_of_toNat? whole, ofMagnitude, toInt?_finite, whole]
  by_cases negative : n < 0
  · rw [decide_eq_true negative, Option.map_some, if_pos rfl]
    exact congrArg some (by omega)
  · rw [decide_eq_false negative, Option.map_some, if_neg Bool.false_ne_true]
    exact congrArg some (by omega)

/-- A natural number of at most 53 bits is the value of its double. -/
theorem toInt?_ofInt {n : Nat} (small : n < Nat.pow 2 53) : (ofInt n).toInt? = some (n : Int) := by
  obtain ⟨x, exact, whole⟩ := Magnitude.ofNat?_of_lt small
  have positive : ¬ ((n : Int) < 0) := by omega
  rw [ofInt, Int.natAbs_natCast, exact, ofMagnitude, toInt?_finite, whole,
    decide_eq_false positive]
  rfl

end Double

end JsonQuery

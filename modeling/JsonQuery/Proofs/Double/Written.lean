/-
# JsonQuery.Proofs.Double.Written -- the digits of a written value

A value that has digits is written as a sign, digits, and a point with more digits
behind it if there are any (`Spelled`).  The digits say which value it is: they are
those of a decimal that is rounded to it.

`spelled_positional` gives this for finite values, whose shortest decimal reads back,
and `spelled_toDigits` for integers.
-/
import JsonQuery.Double.Text
import JsonQuery.Proofs.Double.Exact

namespace JsonQuery

set_option autoImplicit false

/-- Digits, and a point before those behind it if there are any. -/
def pointed (whole fraction : List Char) : List Char :=
  whole ++ if fraction.isEmpty then [] else '.' :: fraction

/-- A text is digits with at most one point among them, and `d` is the decimal that
they spell. -/
structure Spelled (text : List Char) (d : Decimal) (whole fraction : List Char) : Prop where
  text_eq : text = pointed whole fraction
  whole_ne_nil : whole ≠ []
  whole_digits : ∀ c ∈ whole, c.isDigit
  fraction_digits : ∀ c ∈ fraction, c.isDigit
  value : Decimal.ofDigits whole fraction 0 = d

namespace Decimal

theorem isDigit_of_mem_replicate {c : Char} {n : Nat} (mem : c ∈ List.replicate n '0') :
    c.isDigit := by
  rw [(List.mem_replicate.1 mem).2]
  decide

theorem isDigit_of_mem_toDigits {c : Char} {n : Nat} (mem : c ∈ Nat.toDigits 10 n) :
    c.isDigit :=
  Nat.isDigit_of_mem_toDigits (by decide) (by decide) mem

theorem spelled_toDigits (n : Nat) : Spelled (Nat.toDigits 10 n) ⟨n, 0⟩ (Nat.toDigits 10 n) [] where
  text_eq := by simp [pointed]
  whole_ne_nil := Nat.toDigits_ne_nil
  whole_digits _ mem := isDigit_of_mem_toDigits mem
  fraction_digits _ mem := absurd mem List.not_mem_nil
  value := by simp [ofDigits, Nat.ofDigitChars_ten_toDigits]

/-- A decimal that is a whole number is written as that number. -/
theorem spelled_ofNat (c k : Nat) :
    Spelled (Decimal.mk c (.ofNat k)).positional ⟨c * Nat.pow 10 k, 0⟩
      (Nat.toDigits 10 c ++ List.replicate k '0') [] where
  text_eq := by simp [pointed, positional]
  whole_ne_nil := by simp [Nat.toDigits_ne_nil]
  whole_digits d mem := by
    rcases List.mem_append.1 mem with mem | mem
    · exact isDigit_of_mem_toDigits mem
    · exact isDigit_of_mem_replicate mem
  fraction_digits _ mem := absurd mem List.not_mem_nil
  value := by
    simp [ofDigits, Nat.ofDigitChars_append, Nat.ofDigitChars_ten_toDigits, Nat.mul_comm]

/-- The digits of a decimal with places behind the point, zeros before them. -/
def padded (c k : Nat) : List Char :=
  List.replicate (k + 2 - (Nat.toDigits 10 c).length) '0' ++ Nat.toDigits 10 c

theorem length_padded (c k : Nat) : k + 2 ≤ (padded c k).length := by
  simp only [padded, List.length_append, List.length_replicate]
  omega

theorem isDigit_of_mem_padded {d : Char} {c k : Nat} (mem : d ∈ padded c k) : d.isDigit := by
  rcases List.mem_append.1 mem with mem | mem
  · exact isDigit_of_mem_replicate mem
  · exact isDigit_of_mem_toDigits mem

theorem spelled_negSucc (c k : Nat) :
    Spelled (Decimal.mk c (.negSucc k)).positional ⟨c, .negSucc k⟩
      ((padded c k).take ((padded c k).length - (k + 1)))
      ((padded c k).drop ((padded c k).length - (k + 1))) where
  text_eq := by
    have long := length_padded c k
    have places : ((padded c k).drop ((padded c k).length - (k + 1))).isEmpty = false := by
      rw [List.isEmpty_eq_false_iff, ← List.length_pos_iff, List.length_drop]
      omega
    rw [pointed, places]
    rfl
  whole_ne_nil := by
    have long := length_padded c k
    rw [← List.length_pos_iff, List.length_take]
    omega
  whole_digits d mem := isDigit_of_mem_padded (List.mem_of_mem_take mem)
  fraction_digits d mem := isDigit_of_mem_padded (List.mem_of_mem_drop mem)
  value := by
    have long := length_padded c k
    have digits : Nat.ofDigitChars 10 (padded c k) 0 = c := by
      simp [padded, Nat.ofDigitChars_append, Nat.ofDigitChars_ten_toDigits]
    rw [ofDigits, List.take_append_drop, digits, List.length_drop]
    congr 1
    omega

/-- A decimal that is rounded to a magnitude is written with digits that are. -/
theorem spelled_positional {d : Decimal} {x : Magnitude} (rounds : d.magnitude? = some x) :
    ∃ e whole fraction, Spelled d.positional e whole fraction ∧ e.magnitude? = some x := by
  obtain ⟨c, exponent⟩ := d
  cases exponent with
  | negSucc k => exact ⟨_, _, _, spelled_negSucc c k, rounds⟩
  | ofNat k =>
    refine ⟨_, _, _, spelled_ofNat c k, ?_⟩
    by_cases zero : c = 0
    · rw [zero, Magnitude.magnitude?_zero] at rounds
      rw [zero, Nat.zero_mul, Magnitude.magnitude?_zero, rounds]
    · have product : c * Nat.pow 10 k ≠ 0 :=
        Nat.mul_ne_zero zero (Nat.ne_of_gt (Nat.pow_pos (by decide)))
      simp only [magnitude?, zero, if_false] at rounds
      split at rounds
      · cases rounds
      · rw [if_neg (by simp; omega)] at rounds
        simp only [magnitude?]
        rw [if_neg product, if_neg (by decide), if_neg (by omega)]
        simpa using rounds

end Decimal

end JsonQuery

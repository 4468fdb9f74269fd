/-
# JsonQuery.Proofs.Expr.Regular -- the trees that expressions spell

A tree is regular if nothing in it is beyond the reach of a text: no path begins
with a recursive step, every subscript has an element, every number is finite, and
every slice bound is an integer of 64 bits that some value denotes exactly.

Regularity does not tell apart trees that are equal as values
(`Expr.regular_of_same`), and a regular tree is equal to itself
(`Expr.same_self`): it has no NaN.
-/
import JsonQuery.Expr

namespace JsonQuery

set_option autoImplicit false

/-- An integer of 64 bits that some value denotes exactly. -/
structure IsBound (n : Int) : Prop where
  lower : Int64.minValue.toInt ≤ n
  upper : n ≤ Int64.maxValue.toInt
  exact : ∃ x : Double, x.toInt? = some n

mutual

def Expr.Regular : Expr → Prop
  | .number value => value.isFinite
  | .string _ => True
  | .boolean _ => True
  | .path p => p.Regular

def Path.Regular : Path → Prop
  | .start recursive segment => recursive = false ∧ segment.Regular
  | .step base _ segment => base.Regular ∧ segment.Regular

def Segment.Regular : Segment → Prop
  | .subscript elements => elements ≠ [] ∧ Element.RegularAll elements
  | _ => True

def Element.Regular : Element → Prop
  | .slice first last => (∀ n ∈ first, IsBound n) ∧ ∀ n ∈ last, IsBound n
  | .filter left _ right => left.Regular ∧ right.Regular
  | .existence p => p.Regular
  | .expr e => e.Regular

def Element.RegularAll : List Element → Prop
  | [] => True
  | element :: rest => element.Regular ∧ Element.RegularAll rest

end

/-! ## Numbers as values -/

namespace Double

theorem equal_self {x : Double} (finite : x.isFinite) : x.equal x := by
  cases x with
  | finite => simp [equal, isNaN]
  | nan | infinite => cases finite

/-- A value equal to a finite one is finite: the infinities lie beyond every
magnitude. -/
theorem isFinite_of_equal {x y : Double} (finite : x.isFinite) (same : x.equal y) :
    y.isFinite := by
  cases x with
  | nan | infinite => cases finite
  | finite negative magnitude =>
    cases y with
    | finite => rfl
    | nan => cases same
    | infinite side =>
      have bounded := magnitude.bounded
      simp only [equal, Bool.and_eq_true, beq_iff_eq] at same
      obtain ⟨-, ranks⟩ := same
      cases negative <;> cases side <;> simp only [rank] at ranks <;> omega

end Double

/-! ## Trees as values -/

mutual

theorem Expr.same_self : (e : Expr) → e.Regular → e.same e
  | .number _, regular => by
      simp only [Expr.Regular] at regular
      simpa [Expr.same] using Double.equal_self regular
  | .string _, _ => by simp [Expr.same]
  | .boolean _, _ => by simp [Expr.same]
  | .path p, regular => by
      simp only [Expr.Regular] at regular
      simpa [Expr.same] using p.same_self regular

theorem Path.same_self : (p : Path) → p.Regular → p.same p
  | .start _ segment, regular => by
      simp only [Path.Regular] at regular
      simpa [Path.same] using segment.same_self regular.2
  | .step base _ segment, regular => by
      simp only [Path.Regular] at regular
      simpa [Path.same] using ⟨base.same_self regular.1, segment.same_self regular.2⟩

theorem Segment.same_self : (s : Segment) → s.Regular → s.same s
  | .this, _ => by simp [Segment.same]
  | .field _, _ => by simp [Segment.same]
  | .wildcard, _ => by simp [Segment.same]
  | .subscript elements, regular => by
      simp only [Segment.Regular] at regular
      simpa [Segment.same] using Element.sameAll_self elements regular.2

theorem Element.same_self : (e : Element) → e.Regular → e.same e
  | .slice _ _, _ => by simp [Element.same]
  | .filter left _ right, regular => by
      simp only [Element.Regular] at regular
      simpa [Element.same] using ⟨left.same_self regular.1, right.same_self regular.2⟩
  | .existence p, regular => by
      simp only [Element.Regular] at regular
      simpa [Element.same] using p.same_self regular
  | .expr e, regular => by
      simp only [Element.Regular] at regular
      simpa [Element.same] using e.same_self regular

theorem Element.sameAll_self : (elements : List Element) → Element.RegularAll elements →
    Element.sameAll elements elements
  | [], _ => by simp [Element.sameAll]
  | element :: rest, regular => by
      simp only [Element.RegularAll] at regular
      simpa [Element.sameAll] using
        ⟨element.same_self regular.1, Element.sameAll_self rest regular.2⟩

end

mutual

theorem Expr.regular_of_same : (x y : Expr) → x.Regular → x.same y → y.Regular
  | .number _, y, regular, same => by
      cases y <;> simp only [Expr.same, Expr.Regular, Bool.false_eq_true] at same regular ⊢
      exact Double.isFinite_of_equal regular same
  | .string _, y, _, same => by
      cases y <;> simp only [Expr.same, Expr.Regular, Bool.false_eq_true] at same ⊢
  | .boolean _, y, _, same => by
      cases y <;> simp only [Expr.same, Expr.Regular, Bool.false_eq_true] at same ⊢
  | .path p, y, regular, same => by
      cases y <;> simp only [Expr.same, Expr.Regular, Bool.false_eq_true] at same regular ⊢
      exact p.regular_of_same _ regular same

theorem Path.regular_of_same : (x y : Path) → x.Regular → x.same y → y.Regular
  | .start _ s, y, regular, same => by
      cases y <;> simp only [Path.same, Path.Regular, Bool.and_eq_true, decide_eq_true_eq,
        Bool.false_eq_true] at same regular ⊢
      exact ⟨same.1 ▸ regular.1, s.regular_of_same _ regular.2 same.2⟩
  | .step b _ s, y, regular, same => by
      cases y <;> simp only [Path.same, Path.Regular, Bool.and_eq_true, decide_eq_true_eq,
        Bool.false_eq_true] at same regular ⊢
      exact ⟨b.regular_of_same _ regular.1 same.1.1, s.regular_of_same _ regular.2 same.2⟩

theorem Segment.regular_of_same : (x y : Segment) → x.Regular → x.same y → y.Regular
  | .this, y, _, same | .field _, y, _, same | .wildcard, y, _, same => by
      cases y <;> simp [Segment.same, Segment.Regular] at same ⊢
  | .subscript xs, y, regular, same => by
      cases y with
      | subscript ys =>
          simp only [Segment.same, Segment.Regular] at same regular ⊢
          refine ⟨?_, Element.regularAll_of_same xs ys regular.2 same⟩
          rintro rfl
          cases xs with
          | nil => exact regular.1 rfl
          | cons => simp [Element.sameAll] at same
      | _ => simp [Segment.same] at same

theorem Element.regular_of_same : (x y : Element) → x.Regular → x.same y → y.Regular
  | .slice _ _, y, regular, same => by
      cases y <;> simp only [Element.same, Bool.and_eq_true, decide_eq_true_eq,
        Bool.false_eq_true] at same
      obtain ⟨rfl, rfl⟩ := same
      exact regular
  | .filter l _ r, y, regular, same => by
      cases y <;> simp only [Element.same, Element.Regular, Bool.and_eq_true, decide_eq_true_eq,
        Bool.false_eq_true] at same regular ⊢
      exact ⟨l.regular_of_same _ regular.1 same.1.1, r.regular_of_same _ regular.2 same.2⟩
  | .existence p, y, regular, same => by
      cases y <;> simp only [Element.same, Element.Regular, Bool.false_eq_true] at same regular ⊢
      exact p.regular_of_same _ regular same
  | .expr e, y, regular, same => by
      cases y <;> simp only [Element.same, Element.Regular, Bool.false_eq_true] at same regular ⊢
      exact e.regular_of_same _ regular same

theorem Element.regularAll_of_same : (xs ys : List Element) → Element.RegularAll xs →
    Element.sameAll xs ys → Element.RegularAll ys
  | [], ys, _, same => by
      cases ys <;> simp [Element.sameAll, Element.RegularAll] at same ⊢
  | x :: xs, ys, regular, same => by
      cases ys <;> simp only [Element.sameAll, Element.RegularAll, Bool.and_eq_true,
        Bool.false_eq_true] at same regular ⊢
      exact ⟨x.regular_of_same _ regular.1 same.1,
        Element.regularAll_of_same xs _ regular.2 same.2⟩

end

end JsonQuery

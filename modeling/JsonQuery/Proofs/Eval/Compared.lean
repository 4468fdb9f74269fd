/-
# JsonQuery.Proofs.Eval.Compared -- what a comparison keeps

A comparison in a subscript, unless it is a key test, goes through the leaves of a node and
keeps those at which both operands have a first item and the comparison of the two holds.
So it is for the nodes of `Match.leaves` what a filter is for a list
(`Element.yields_filter`).

From there, `==` and `!=` divide the leaves at which both operands have an item, and a
comparison that is read from right to left (`Comparison.mirrored`) keeps the same leaves,
although it searches its operands in the other order (`keeps_mirrored`).
-/
import Mathlib.Data.List.Perm.Basic
import JsonQuery.Proofs.Eval.Placed
import JsonQuery.Proofs.Eval.Trusted

namespace JsonQuery

set_option autoImplicit false

/-! ## From right to left -/

/-- The operator between the same operands in the other order. -/
def Comparison.mirrored : Comparison → Comparison
  | .eq => .eq
  | .ne => .ne
  | .lt => .gt
  | .le => .ge
  | .gt => .lt
  | .ge => .le

theorem Double.equal_comm (x y : Double) : x.equal y = y.equal x := by
  rw [equal, equal, Bool.and_comm (!x.isNaN), BEq.comm (a := x.rank)]

theorem Scalar.equal_comm (x y : Scalar) : x.equal y = y.equal x := by
  cases x <;> cases y <;> simp only [equal, Double.equal_comm, eq_comm]

theorem Comparison.holds_mirrored (op : Comparison) (x y : Scalar) :
    op.mirrored.holds y x = op.holds x y := by
  cases op with
  | eq => exact Scalar.equal_comm y x
  | ne => exact congrArg not (Scalar.equal_comm y x)
  | lt | gt => cases x <;> cases y <;> rfl
  | le | ge =>
    cases x <;> cases y <;> simp only [mirrored, holds, Double.equal_comm]

theorem Comparison.keeps_mirrored (op : Comparison) (x y : Option Item) :
    op.mirrored.keeps y x = op.keeps x y := by
  cases x <;> cases y <;> simp only [keeps, holds_mirrored]

theorem keyTest?_mirrored (left right : Expr) (op : Comparison) :
    keyTest? right op.mirrored left = keyTest? left op right := by
  cases op <;> cases left <;> cases right <;> rfl

/-! ## Leaves -/

/-- The first item of an expression at a node: what a comparison sees of it. -/
def Expr.operand (e : Expr) (node : Node) : Option Item := (e.search node []).items.head?

/-- Whether both sides of a comparison have an item at a match. -/
def Expr.bothAt (left right : Expr) (leaf : Match) : Bool :=
  (left.operand leaf.node).isSome && (right.operand leaf.node).isSome

/-- Whether a comparison holds at a match. -/
def Comparison.holdsAt (op : Comparison) (left right : Expr) (leaf : Match) : Bool :=
  op.keeps (left.operand leaf.node) (right.operand leaf.node)

/-- Unless it is a key test, a comparison keeps the leaves at which it holds. -/
theorem items_filter {left right : Expr} {op : Comparison}
    (compared : keyTest? left op right = none) (found : Match) :
    ((Element.filter left op right).search found.node found.location).items =
      (found.leaves.filter (op.holdsAt left right)).map Match.item := by
  have walk : (Element.filter left op right).search found.node found.location =
      leaves (fun n l => keepIf (left.search n []) op (fun _ => right.search n []) n l)
        found.node.value found.node.site found.location := by
    unfold Element.search
    rw [compared]
  rw [walk, items_leaves]
  simp only [items_keepIf]
  exact flatMap_kept found.leaves (op.holdsAt left right)

/-- Where both sides have an item, either `==` holds or `!=`, and elsewhere neither. -/
theorem Comparison.holdsAt_eq (left right : Expr) (leaf : Match) :
    Comparison.eq.holdsAt left right leaf =
        (left.bothAt right leaf && Comparison.eq.holdsAt left right leaf) ∧
      Comparison.ne.holdsAt left right leaf =
        (left.bothAt right leaf && !Comparison.eq.holdsAt left right leaf) := by
  unfold holdsAt Expr.bothAt
  cases left.operand leaf.node with
  | none => exact ⟨rfl, rfl⟩
  | some x => cases right.operand leaf.node <;> exact ⟨rfl, rfl⟩

/-- The leaves at which both sides have an item are those that `==` keeps and those that
`!=` keeps. -/
theorem filter_eq_ne_perm (left right : Expr) (list : List Match) :
    (list.filter (Comparison.eq.holdsAt left right) ++
        list.filter (Comparison.ne.holdsAt left right)).Perm
      (list.filter (left.bothAt right)) := by
  have equal : list.filter (Comparison.eq.holdsAt left right) =
      (list.filter (left.bothAt right)).filter (Comparison.eq.holdsAt left right) := by
    rw [List.filter_filter]
    refine List.filter_congr fun leaf _ => ?_
    rw [Bool.and_comm]
    exact (Comparison.holdsAt_eq left right leaf).1
  have differ : list.filter (Comparison.ne.holdsAt left right) =
      (list.filter (left.bothAt right)).filter fun leaf =>
        !Comparison.eq.holdsAt left right leaf := by
    rw [List.filter_filter]
    refine List.filter_congr fun leaf _ => ?_
    rw [Bool.and_comm]
    exact (Comparison.holdsAt_eq left right leaf).2
  rw [equal, differ]
  exact List.filter_append_perm _ _

/-- A comparison that is no key test keeps, of the leaves of a node and in their order, those
at which both operands have a first item and the comparison of the two holds.  So it keeps
the same if it is read from right to left; and of the leaves at which both operands have an
item, `==` keeps some and `!=` the others. -/
theorem Element.yields_filter (left : Expr) (op : Comparison) (right : Expr)
    (compared : keyTest? left op right = none) {cache : KeyCache} {found : Match}
    (trusts : cache.TrustsBelow found.node) :
    (Element.filter left op right).yields cache found =
      (found.leaves.filter fun leaf =>
        op.keeps (left.operand leaf.node) (right.operand leaf.node)).map Match.item ∧
    (Element.filter right op.mirrored left).yields cache found =
      (Element.filter left op right).yields cache found ∧
    (keyTest? left .eq right = none →
      ∃ same differ : List Match,
        (Element.filter left .eq right).yields cache found = same.map Match.item ∧
        (Element.filter left .ne right).yields cache found = differ.map Match.item ∧
        same.Disjoint differ ∧
        (same ++ differ).Perm (found.leaves.filter fun leaf =>
          (left.operand leaf.node).isSome && (right.operand leaf.node).isSome)) := by
  have kept : ∀ {left op right}, keyTest? left op right = none →
      (Element.filter left op right).yields cache found =
        (found.leaves.filter (op.holdsAt left right)).map Match.item := by
    intro left op right compared
    rw [yields_of_within trusts (within_filter compared _ _), items_filter compared]
  refine ⟨kept compared, ?_, fun no_test => ?_⟩
  · have back : keyTest? right op.mirrored left = none :=
      (keyTest?_mirrored left right op).trans compared
    have same : op.mirrored.holdsAt right left = op.holdsAt left right := by
      funext leaf
      exact op.keeps_mirrored _ _
    rw [kept back, kept compared, same]
  · refine ⟨_, _, kept no_test, kept rfl, fun leaf equal differ => ?_,
      filter_eq_ne_perm left right found.leaves⟩
    have both := (Comparison.holdsAt_eq left right leaf).2
    rw [(List.mem_filter.1 equal).2, (List.mem_filter.1 differ).2] at both
    simp at both

/-- In an inner array `!=` keeps the element with two different members, from either side, and
not the one that lacks a member. -/
theorem Element.yields_filter_nested :
    let pair (v w : String) : Json := .object [("v", .string v), ("w", .string w)]
    let lone : Json := .object [("v", .string "x")]
    let found : Match := ⟨⟨.array [pair "x" "x", .array [lone, pair "x" "y"]], .root 0 0⟩, []⟩
    let name (s : String) : Expr := .path (.start false (.field s))
    let inner : Match := ⟨⟨pair "x" "y", ⟨0, 0, [1, 1]⟩⟩, [.index 1, .index 1]⟩
    (Element.filter (name "v") .ne (name "w")).yields .empty found = [inner.item] ∧
      (Element.filter (name "w") .ne (name "v")).yields .empty found = [inner.item] ∧
      ((Element.filter (name "v") .eq (name "w")).yields .empty found).length = 1 := by
  intro pair lone found name inner
  obtain ⟨kept, back, split⟩ :=
    yields_filter (name "v") .ne (name "w") rfl (trustsBelow_empty found.node)
  have differ : (Element.filter (name "v") .ne (name "w")).yields .empty found = [inner.item] :=
    kept.trans rfl
  refine ⟨differ, back.trans differ, ?_⟩
  obtain ⟨equal, others, is_equal, is_others, -, all⟩ := split rfl
  have both : (equal ++ others).length = 2 := all.length_eq.trans rfl
  have one : others.length = 1 := by
    rw [← List.length_map (f := Match.item), ← is_others, differ]
    rfl
  rw [List.length_append, one] at both
  rw [is_equal, List.length_map]
  exact Nat.succ.inj both

end JsonQuery

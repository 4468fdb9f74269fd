/-
# JsonQuery.Proofs.Eval.Trusted -- caches that lead no search in a node astray

A search from a node asks only arrays at the node or below it, and an identity tells one of
these arrays from another (`elements_of_reaches`).  So a cache that is trusted in all arrays
that a search may ask answers it as one without memory, and lookups keep it so
(`steady_trusts`); from such a cache a run produces the items of its search.

A comparison that is no key test asks neither the array that it goes through nor the arrays
in it that it opens, and an existence check does not ask the array whose elements it checks.
Both ask only arrays that stand below the node (`within_filter`, `within_existence`).  There
an empty cache is trusted, where keys are apart every cache is, and so is the cache of a
session at any time, since what it may have of former content is an index of a root.
-/
import JsonQuery.Proofs.Eval.Visited
import JsonQuery.Proofs.Eval.Within

namespace JsonQuery

set_option autoImplicit false

/-! ## What stands in a node -/

/-- A node is another, or stands below it. -/
def Node.Reaches (root node : Node) : Prop :=
  ∃ ordinals, root.below? ordinals = some node

/-- A node stands below another. -/
def Node.Above (root node : Node) : Prop :=
  ∃ ordinals, ordinals ≠ [] ∧ root.below? ordinals = some node

/-- An array as a node. -/
def ArrayNode.node (array : ArrayNode) : Node := ⟨.array array.elements, array.site⟩

theorem Node.reaches_self (node : Node) : node.Reaches node := ⟨[], node.below?_nil⟩

theorem Node.Above.reaches {root node : Node} (above : root.Above node) : root.Reaches node := by
  obtain ⟨ordinals, -, leads⟩ := above
  exact ⟨ordinals, leads⟩

theorem Node.above_child {root node : Node} {position : Nat} {value : Json}
    (reaches : root.Reaches node) (child : node.value.child? position = some value) :
    root.Above ⟨value, node.site.child position⟩ := by
  obtain ⟨ordinals, leads⟩ := reaches
  obtain ⟨value_at, site_at⟩ := below?_eq_some.1 leads
  refine ⟨ordinals ++ [position], by simp, below?_eq_some.2 ⟨?_, ?_⟩⟩
  · rw [Json.below?_child value_at, child]
  · simp [site_at, Site.below, Site.child]

theorem downward_reaches (root : Node) :
    Downward (fun array => root.Reaches array.node) fun node _ => root.Reaches node where
  array reaches is := by rwa [Node.eq_array is] at reaches
  element reaches stands := (Node.above_child reaches stands).reaches
  member reaches stands := (Node.above_child reaches (by simp [Json.child?, stands])).reaches

/-- A node that stands below another, or the other itself if it is no array. -/
def Node.Opens (root node : Node) : Prop :=
  root.Reaches node ∧ (node.array? ≠ none → root.Above node)

theorem Node.Above.opens {root node : Node} (above : root.Above node) : root.Opens node :=
  ⟨above.reaches, fun _ => above⟩

theorem downward_opens (root : Node) :
    Downward (fun array => root.Above array.node) fun node _ => root.Opens node where
  array opens is := by
    have above := opens.2 (by simp [is])
    rwa [Node.eq_array is] at above
  element opens stands := (Node.above_child opens.1 stands).opens
  member opens stands := (Node.above_child opens.1 (by simp [Json.child?, stands])).opens

/-- The identity of an array in a node tells what it holds. -/
theorem elements_of_reaches {root : Node} {one two : ArrayNode} (stands : root.Reaches one.node)
    (stands' : root.Reaches two.node) (same : one.identity = two.identity) :
    one.elements = two.elements := by
  obtain ⟨ordinals, leads⟩ := stands
  obtain ⟨ordinals', leads'⟩ := stands'
  obtain ⟨value_at, site_at⟩ := Node.below?_eq_some.1 leads
  obtain ⟨value_at', site_at'⟩ := Node.below?_eq_some.1 leads'
  dsimp only [ArrayNode.node] at value_at value_at' site_at site_at'
  have positions : root.site.ordinals ++ ordinals = root.site.ordinals ++ ordinals' := by
    have ends := congrArg Identity.ordinals same
    rwa [ArrayNode.identity, ArrayNode.identity, site_at, site_at'] at ends
  rw [List.append_cancel_left positions, value_at', Option.some.injEq, Json.array.injEq]
    at value_at
  exact value_at.symm

/-! ## Trust -/

/-- A cache that is trusted in some arrays of a node stays so when these are asked. -/
theorem steady_trusts {root : Node} {asks : ArrayNode → Prop}
    (inside : ∀ array, asks array → root.Reaches array.node) :
    Steady asks fun cache => ∀ array, asks array → cache.Trusts array where
  answer key trusts asked := KeyCache.lookup_found (trusts _ asked) key
  keep key trusts asked := fun other asked' => KeyCache.trusts_lookup (trusts other asked')
    (elements_of_reaches (inside _ asked) (inside other asked')) key

/-- From an empty cache a run for an expression produces the items of the search. -/
theorem Expr.produced_empty (expr : Expr) (node : Node) (location : Location) :
    (expr.search node location).produced .empty = (expr.search node location).items :=
  Search.produced_steady (steady_trusts fun _ asked => asked)
    (expr.within_search (downward_reaches node) node.reaches_self) fun array _ =>
      KeyCache.trusts_empty array

/-- No lookup in an array below a node is led astray by what a cache remembers. -/
def KeyCache.TrustsBelow (cache : KeyCache) (root : Node) : Prop :=
  ∀ array : ArrayNode, root.Above array.node → cache.Trusts array

theorem trustsBelow_empty (root : Node) : KeyCache.empty.TrustsBelow root :=
  fun array _ => KeyCache.trusts_empty array

theorem trustsBelow_of_apart (cache : KeyCache) {root : Node} (apart : root.value.Apart) :
    cache.TrustsBelow root := by
  rintro array ⟨ordinals, -, leads⟩ index -
  have inner : (Json.array array.elements).Apart :=
    Json.apart_below? apart (Node.below?_eq_some.1 leads).1
  rw [Json.Apart] at inner
  exact .inr inner.1

/-! ## Elements of subscripts -/

/-- What an element of a subscript yields at a node, with lookups answered through a cache. -/
def Element.yields (element : Element) (cache : KeyCache) (found : Match) : List Item :=
  (element.search found.node found.location).produced cache

/-- An element of a subscript that asks only arrays below the node yields the items of its
search, from a cache that is trusted there. -/
theorem Element.yields_of_within {element : Element} {cache : KeyCache} {found : Match}
    (trusts : cache.TrustsBelow found.node) {finds : Node → Location → Prop}
    (within : (element.search found.node found.location).Within
      (fun array => found.node.Above array.node) finds) :
    element.yields cache found = (element.search found.node found.location).items :=
  Search.produced_steady (steady_trusts fun _ above => above.reaches) within trusts

/-- The elements of an array stand below it. -/
theorem elements_opens (elements : List Json) (site : Site) (location : Location) :
    Downward.Elements (fun node _ => Node.Opens ⟨.array elements, site⟩ node) site location 0
      elements := by
  intro position element stands
  rw [Nat.zero_add]
  exact (Node.above_child (Node.reaches_self ⟨.array elements, site⟩) stands).opens

theorem Node.opens_self {node : Node} (no_array : node.array? = none) : node.Opens node :=
  ⟨node.reaches_self, fun is_array => absurd no_array is_array⟩

/-- A comparison asks only arrays below the node, unless it is a key test. -/
theorem Element.within_filter {left right : Expr} {op : Comparison}
    (compared : keyTest? left op right = none) (node : Node) (location : Location) :
    ((Element.filter left op right).search node location).Within
      (fun array => node.Above array.node) fun other _ => node.Opens other := by
  obtain ⟨value, site⟩ := node
  cases value with
  | array elements =>
    have down := downward_opens ⟨.array elements, site⟩
    unfold Element.search
    rw [compared]
    refine within_leavesOfElements (fun n l opens => ?_) down elements
      (elements_opens elements site location)
    exact within_keepIf (left.within_search down.somewhere ⟨l, opens⟩)
      (right.within_search down.somewhere ⟨l, opens⟩) op opens
  | _ => exact Element.within_search _ (downward_opens _) (Node.opens_self rfl)

/-- An existence check asks only arrays below the node. -/
theorem Element.within_existence (path : Path) (node : Node) (location : Location) :
    ((Element.existence path).search node location).Within
      (fun array => node.Above array.node) fun other _ => node.Opens other := by
  obtain ⟨value, site⟩ := node
  cases value with
  | array elements =>
    have down := downward_opens ⟨.array elements, site⟩
    unfold Element.search
    refine within_eachElement (fun n l opens => ?_) elements (elements_opens elements site location)
    exact within_keepIfFound (path.within_search down.somewhere ⟨l, opens⟩) opens
  | _ => exact Element.within_search _ (downward_opens _) (Node.opens_self rfl)

end JsonQuery

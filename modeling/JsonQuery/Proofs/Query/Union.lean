/-
# JsonQuery.Proofs.Query.Union -- the elements of a subscript are a union

A subscript applies its elements in turn to a node, and what they find is searched further by
the steps behind it.  A `Path.Gap` is a path without one subscript of its chain; what the
path finds when the gap is filled is, for each node that the subscript is applied to, what
its elements find there in turn, and for each of these what lies behind
(`hits_fill`).

So an element that is written once more, behind the others, finds at each node what was found
there before it, and nothing of that is reported; and in another order the elements find the
same, though maybe another node first (`Expr.queryAt_fill`).
-/
import JsonQuery.Proofs.Eval.Visited
import JsonQuery.Proofs.Query.Firsts
import JsonQuery.Proofs.Query.Stages

namespace JsonQuery

set_option autoImplicit false

/-! ## Hits -/

/-- The nodes that a search finds, each with its location. -/
def Search.hits (search : Search) : List Match := search.items.filterMap Item.match?

theorem hits_append (first : Search) (second : Unit → Search) :
    (first.append second).hits = first.hits ++ (second ()).hits := by
  rw [Search.hits, Search.items_append, List.filterMap_append]
  rfl

theorem hits_bind (search : Search) (visit : Node → Location → Search) :
    (search.bind visit).hits =
      search.hits.flatMap fun found => (visit found.node found.location).hits := by
  rw [Search.hits, Search.items_bind, filterMap_match?_visited]
  rfl

theorem hits_searchAll (elements : List Element) (node : Node) (location : Location) :
    (Element.searchAll elements node location).hits =
      elements.flatMap fun element => (element.search node location).hits := by
  induction elements with
  | nil => rfl
  | cons element rest ih => rw [Element.searchAll, hits_append, ih, List.flatMap_cons]

/-- The nodes that a step applies its segment to. -/
def Match.extent (recursive : Bool) (found : Match) : List Match :=
  if recursive then found.preorder else [found]

theorem hits_visit (recursive : Bool) (segment : Segment) (found : Match) :
    (segment.visit recursive found.node found.location).hits =
      (found.extent recursive).flatMap fun each => (segment.search each.node each.location).hits := by
  unfold Segment.visit Match.extent
  cases recursive with
  | true =>
    rw [if_pos rfl, if_pos rfl, Search.hits, items_descend, List.filterMap_flatMap]
    rfl
  | false => exact (List.flatMap_singleton ..).symm

/-! ## A path and one of its subscripts -/

/-- A path without one subscript of its chain. -/
inductive Path.Gap where
  /-- The first step lacks its subscript. -/
  | first (recursive : Bool)
  /-- The last step of a longer path lacks it. -/
  | last (base : Path) (recursive : Bool)
  /-- A step before the last lacks it. -/
  | before (gap : Gap) (recursive : Bool) (segment : Segment)

namespace Path.Gap

/-- The path with a subscript in the gap. -/
def fill : Gap → List Element → Path
  | .first recursive, elements => .start recursive (.subscript elements)
  | .last base recursive, elements => .step base recursive (.subscript elements)
  | .before gap recursive segment, elements => .step (gap.fill elements) recursive segment

/-- The nodes that the subscript is applied to. -/
def stems : Gap → Match → List Match
  | .first recursive, found => found.extent recursive
  | .last base recursive, found =>
      (base.search found.node found.location).hits.flatMap (Match.extent recursive)
  | .before gap _ _, found => gap.stems found

/-- What the steps behind the subscript find at one of its hits. -/
def behind : Gap → Match → List Match
  | .first _, hit | .last _ _, hit => [hit]
  | .before gap recursive segment, hit => (gap.behind hit).flatMap fun each =>
      (segment.visit recursive each.node each.location).hits

end Path.Gap

/-- What a path finds, by the nodes that one of its subscripts is applied to. -/
theorem hits_fill (gap : Path.Gap) (elements : List Element) (found : Match) :
    ((gap.fill elements).search found.node found.location).hits =
      (gap.stems found).flatMap fun stem =>
        (Element.searchAll elements stem.node stem.location).hits.flatMap gap.behind := by
  induction gap with
  | first recursive =>
    simp only [Path.Gap.fill, Path.search_start, hits_visit, Path.Gap.stems, Path.Gap.behind,
      List.flatMap_singleton', Segment.search]
  | last base recursive =>
    simp only [Path.Gap.fill, Path.search_step, hits_bind, hits_visit, Path.Gap.stems,
      Path.Gap.behind, List.flatMap_singleton', List.flatMap_assoc, Segment.search]
  | before gap recursive segment ih =>
    simp only [Path.Gap.fill, Path.search_step, hits_bind, ih, Path.Gap.stems, Path.Gap.behind,
      List.flatMap_assoc]

/-! ## Unions -/

/-- Matches at locations that were reached before add nothing. -/
theorem distinct_append_of_reached {one two : List Match}
    (reached : ∀ found ∈ two, Match.reaches one found.location) :
    Match.distinct (one ++ two) = Match.distinct one := by
  have nothing : ((Match.distinct two).filter fun found =>
      !Match.reaches one found.location) = [] := by
    rw [List.filter_eq_nil_iff]
    intro found mem
    simp [reached found (Match.mem_of_distinct found mem)]
  rw [Match.distinct_append, nothing, List.append_nil]

theorem Expr.queryAt_eq_distinct (path : Path) (document : Document) (base : Location) :
    (Expr.path path).queryAt document base =
      Match.distinct (path.search (.ofDocument 0 0 document) base).hits := by
  rw [queryAt_eq_reported, reported_eq_distinct]
  rfl

/-- A copy of an element at the end of a subscript, wherever it stands in the chain of a path,
changes nothing in the sequence of matches; and elements in another order leave the set of
locations that are reported as it is. -/
theorem Expr.queryAt_fill (gap : Path.Gap) (elements : List Element) (document : Document)
    (base : Location) :
    (∀ element ∈ elements,
      (Expr.path (gap.fill (elements ++ [element]))).queryAt document base =
        (Expr.path (gap.fill elements)).queryAt document base) ∧
    ∀ others : List Element, others.Perm elements → ∀ location,
      location ∈ ((Expr.path (gap.fill others)).queryAt document base).map Match.location ↔
        location ∈ ((Expr.path (gap.fill elements)).queryAt document base).map Match.location := by
  let root : Match := ⟨.ofDocument 0 0 document, base⟩
  have hits := fun elements => hits_fill gap elements root
  refine ⟨fun element mem => ?_, fun others perm location => ?_⟩
  · have once : ∀ stem : Match,
        Match.distinct ((Element.searchAll (elements ++ [element]) stem.node
          stem.location).hits.flatMap gap.behind) =
        Match.distinct ((Element.searchAll elements stem.node stem.location).hits.flatMap
          gap.behind) := by
      intro stem
      rw [hits_searchAll, List.flatMap_append, List.flatMap_append, ← hits_searchAll]
      refine distinct_append_of_reached fun found again => ?_
      obtain ⟨hit, is, there⟩ := List.mem_flatMap.1 again
      rw [List.flatMap_singleton] at is
      have before : hit ∈ (Element.searchAll elements stem.node stem.location).hits := by
        rw [hits_searchAll]
        exact List.mem_flatMap.2 ⟨element, mem, is⟩
      rw [Match.reaches_iff]
      exact List.mem_map_of_mem (List.mem_flatMap.2 ⟨hit, before, there⟩)
    rw [queryAt_eq_distinct, queryAt_eq_distinct, hits, hits, ← Match.distinct_flatMap_distinct,
      funext once, Match.distinct_flatMap_distinct]
  · have same : ∀ stem : Match,
        ((Element.searchAll others stem.node stem.location).hits.flatMap gap.behind).Perm
          ((Element.searchAll elements stem.node stem.location).hits.flatMap gap.behind) := by
      intro stem
      rw [hits_searchAll, hits_searchAll]
      exact (perm.flatMap_right _).flatMap_right _
    have all := (List.Perm.flatMap_left (gap.stems root) fun stem _ => same stem).map Match.location
    rw [queryAt_eq_distinct, queryAt_eq_distinct, hits, hits, ← Match.reaches_iff,
      ← Match.reaches_iff, Match.reaches_distinct, Match.reaches_distinct, Match.reaches_iff,
      Match.reaches_iff]
    exact all.mem_iff

/-- Two elements have one key, so a slice and a key test find two nodes at one location; the
first of them is reported, here the second element. -/
theorem Expr.queryAt_fill_doubled :
    let keyed (text : String) : Json := .object [("_key", .string "a"), ("v", .string text)]
    let document := Document.ofJson (.array [keyed "x", keyed "y"])
    let gap : Path.Gap := .before (.last .this true) false (.field "v")
    let second : Element := .slice (some 1) none
    let test : Element := .filter (.path (.start false (.field "_key"))) .eq (.string "a")
    let location : Location := [.key "a", .field "v"]
    (Expr.path (gap.fill [second, test, second])).queryAt document [] =
        [⟨⟨.string "y", ⟨0, 0, [1, 1]⟩⟩, location⟩] ∧
      location ∈
        ((Expr.path (gap.fill [test, second])).queryAt document []).map Match.location := by
  intro keyed document gap second test location
  obtain ⟨copied, moved⟩ := Expr.queryAt_fill gap [second, test] document []
  have found : (Expr.path (gap.fill [second, test])).queryAt document [] =
      [⟨⟨.string "y", ⟨0, 0, [1, 1]⟩⟩, location⟩] := rfl
  have thrice : [second, test, second] = [second, test] ++ [second] := rfl
  constructor
  · rw [thrice, copied second List.mem_cons_self, found]
  · rw [moved [test, second] (.swap second test []), found]
    exact List.mem_singleton_self location

end JsonQuery

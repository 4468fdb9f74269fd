/-
# JsonQuery.Proofs.Query.Stages -- a query in two stages

A path that goes on behind another (`Path.follow`) can be queried in two stages: first the
one, and then at each of its matches the other.  The first stage reports each location
once, and so does each query of the second; the whole path chooses only at the end.  That
comes to the same if keys are apart, so that a location tells the node: what the first
stage leaves out would have been searched twice.
-/
import JsonQuery.Proofs.Eval.Walks
import JsonQuery.Proofs.Query.Distinct
import JsonQuery.Proofs.Query.Leads

namespace JsonQuery

set_option autoImplicit false

/-- The matches of an expression at the node of a match, their locations behind its own,
from an empty cache. -/
def Match.query (found : Match) (expr : Expr) : List Match :=
  ((Cursor.start expr found.node found.location).collect none (.start .empty)).1

theorem filterMap_match?_visited (items : List Item) (visit : Node → Location → Search) :
    (items.flatMap (Search.visited visit)).filterMap Item.match? =
      (items.filterMap Item.match?).flatMap fun found =>
        (visit found.node found.location).items.filterMap Item.match? := by
  induction items with
  | nil => rfl
  | cons item rest ih =>
    rw [List.flatMap_cons, List.filterMap_append, ih]
    cases item with
    | node n location => rfl
    | literal => rfl

/-- Where keys are apart, querying in two stages is querying once: the matches of a path
that goes on behind another are those of what is behind at each match of the other, one
after the other, and of these the first at each location. -/
theorem Expr.queryAt_follow (path next : Path) (document : Document) (base : Location)
    (apart : document.root.Apart) :
    (Expr.path (path.follow next)).queryAt document base =
      Match.distinct (((Expr.path path).queryAt document base).flatMap fun found =>
        found.query (.path next)) := by
  let root := Node.ofDocument 0 0 document
  let sources := (path.search root base).items.filterMap Item.match?
  let part := fun found : Match =>
    (next.search found.node found.location).items.filterMap Item.match?
  have led : ∀ found ∈ sources, LedTo root base found.node found.location :=
    Search.finds_of_match
      (path.within_search (downward_ledTo root base) (ledTo_root document base))
  have held : ∀ found ∈ sources, Session.Holds [⟨document, 0⟩] found.node :=
    Search.finds_of_match
      (path.within_search (Session.downward [⟨document, 0⟩]) ⟨_, rfl, rfl, rfl⟩)
  have tells : ∀ one ∈ sources, ∀ two ∈ sources, one.location = two.location → one = two := by
    intro one mem two mem' same
    have node : one.node = two.node := (led one mem).unique apart (same ▸ led two mem')
    exact congr (congrArg Match.mk node) same
  have first : (Expr.path path).queryAt document base = Match.distinct sources := by
    rw [queryAt_eq_reported, reported_eq_distinct]
    rfl
  have second : ∀ found ∈ Match.distinct sources,
      found.query (.path next) = Match.distinct (part found) := by
    intro found mem
    have holds := held found (Match.mem_of_distinct found mem)
    rw [Match.query, Expr.collect_eq_reported _ holds, reported_eq_distinct]
    rfl
  calc (Expr.path (path.follow next)).queryAt document base
    _ = Match.distinct (sources.flatMap part) := by
        rw [queryAt_eq_reported, reported_eq_distinct, Expr.search, Path.search_follow,
          Search.items_bind, filterMap_match?_visited]
    _ = Match.distinct ((Match.distinct sources).flatMap part) :=
        (Match.distinct_flatMap tells part).symm
    _ = Match.distinct ((Match.distinct sources).flatMap fun found =>
          Match.distinct (part found)) := (Match.distinct_flatMap_distinct _ part).symm
    _ = Match.distinct (((Expr.path path).queryAt document base).flatMap fun found =>
          found.query (.path next)) := by
        rw [first, List.flatMap_def, List.flatMap_def, List.map_congr_left second]

/-- The number in the inner array is found from both arrays, and reported once. -/
theorem Expr.queryAt_follow_overlap :
    let one : Json := .number (.int 1)
    let two : Json := .number (.int 2)
    let document := Document.ofJson (.array [one, .array [two]])
    let everything : Path := .step .this true .this
    let below : Path := .step .this true .wildcard
    (Expr.path (everything.follow below)).queryAt document [] =
      [⟨⟨one, ⟨0, 0, [0]⟩⟩, [.index 0]⟩, ⟨⟨.array [two], ⟨0, 0, [1]⟩⟩, [.index 1]⟩,
        ⟨⟨two, ⟨0, 0, [1, 0]⟩⟩, [.index 1, .index 0]⟩] := by
  intro one two document everything below
  have apart : document.root.Apart :=
    ⟨.cons (by rintro _ (_ | ⟨_, ⟨⟩⟩) _; rfl) (.cons nofun .nil), trivial,
      ⟨.cons nofun .nil, trivial, trivial⟩, trivial⟩
  calc (Expr.path (everything.follow below)).queryAt document []
    _ = Match.distinct (((Expr.path everything).queryAt document []).flatMap fun found =>
          found.query (.path below)) := Expr.queryAt_follow everything below document [] apart
    _ = _ := rfl

end JsonQuery

/-
# JsonQuery.Proofs.Query.Descent -- a recursive step visits everything once

A recursive step applies its segment to a node and to everything below it, in pre-order
(`Match.preorder`).  So `@..@` finds the pre-order itself and `@..*` the parts of each node
in it, and these are all nodes but the first, though not in the same order
(`flatMap_parts_perm`).  Where keys are apart, no two of the nodes have one location, and
none is left out as reported before.

`Segment.descend_preorder` has all this in one statement.
-/
import Mathlib.Data.List.Perm.Basic
import JsonQuery.Proofs.Eval.Visited
import JsonQuery.Proofs.Eval.Walks
import JsonQuery.Proofs.Query.Distinct
import JsonQuery.Proofs.Query.Leads

namespace JsonQuery

set_option autoImplicit false

open scoped List

/-- The path `@..@`. -/
def Path.everything : Path := .step .this true .this

/-- The path `@..*`. -/
def Path.everyPart : Path := .step .this true .wildcard

theorem filterMap_match?_item (found : List Match) :
    (found.map Match.item).filterMap Item.match? = found := by
  rw [List.filterMap_map]
  exact List.filterMap_some

namespace Match

/-- The parts of all nodes in pre-order are all of them but the first. -/
theorem flatMap_parts_perm (found : Match) :
    (found.preorder.flatMap parts).Perm found.preorder.tail := by
  induction found using parts_induction with
  | step found ih =>
    rw [preorder_eq, List.flatMap_cons, List.flatMap_assoc, List.tail_cons]
    have deeper : (found.parts.flatMap fun part => part.preorder.flatMap parts).Perm
        (found.parts.flatMap fun part => part.preorder.tail) := List.Perm.flatMap_left _ ih
    have first : found.parts = found.parts.flatMap fun part => [part] :=
      (List.flatMap_singleton' found.parts).symm
    have whole : ∀ part : Match, [part] ++ part.preorder.tail = part.preorder := by
      intro part
      rw [preorder_eq]
      rfl
    calc found.parts ++ found.parts.flatMap fun part => part.preorder.flatMap parts
      _ ~ found.parts ++ found.parts.flatMap fun part => part.preorder.tail := deeper.append_left _
      _ = (found.parts.flatMap fun part => [part]) ++
            found.parts.flatMap fun part => part.preorder.tail := by rw [← first]
      _ ~ found.parts.flatMap fun part => [part] ++ part.preorder.tail :=
          List.flatMap_append_perm ..
      _ = found.parts.flatMap preorder := by simp only [whole]

/-- What goes down from a node holds of everything in pre-order. -/
theorem finds_of_mem_preorder {asks : ArrayNode → Prop} {finds : Node → Location → Prop}
    (down : Downward asks finds) {found each : Match} (holds : finds found.node found.location)
    (mem : each ∈ found.preorder) : finds each.node each.location := by
  have within := within_descend (fun _ _ => within_node) down found.node.value holds
  refine Search.meets_of_within within each.item ?_
  rw [items_descend]
  exact List.mem_flatMap.2 ⟨each, mem, List.mem_singleton_self each.item⟩

end Match

/-- The root of a document that stands alone, with a location. -/
def Document.at (document : Document) (base : Location) : Match :=
  ⟨.ofDocument 0 0 document, base⟩

theorem ledTo_of_mem_preorder {document : Document} {base : Location} {each : Match}
    (mem : each ∈ (document.at base).preorder) :
    LedTo (document.at base).node base each.node each.location := by
  have root : LedTo (document.at base).node base (document.at base).node base :=
    ledTo_root document base
  exact Match.finds_of_mem_preorder (downward_ledTo _ base) root mem

/-- Where keys are apart, no location comes twice in the pre-order of a document. -/
theorem nodup_preorder {document : Document} (apart : document.root.Apart) (base : Location) :
    ((document.at base).preorder.map Match.location).Nodup := by
  rw [List.Nodup, List.pairwise_map]
  refine (Match.pairwise_preorder _).imp_of_mem fun {one two} mem mem' less same => ?_
  have led := ledTo_of_mem_preorder mem'
  rw [← same] at led
  have node : one.node = two.node := (ledTo_of_mem_preorder mem).unique apart led
  rw [node] at less
  exact List.lt_irrefl _ less

/-- What a recursive step behind `@` finds. -/
theorem items_this_descend (segment : Segment) (found : Match) :
    ((Path.step .this true segment).search found.node found.location).items =
      found.preorder.flatMap fun each => (segment.search each.node each.location).items := by
  have start : (Path.step .this true segment).search found.node found.location =
      descend segment.search found.node.value found.node.site found.location := by
    rw [Path.search_step]
    exact Search.bind_node ..
  rw [start, items_descend]

theorem items_everything (found : Match) :
    (Path.everything.search found.node found.location).items =
      found.preorder.map Match.item := by
  rw [Path.everything, items_this_descend]
  exact List.map_eq_flatMap.symm

theorem items_everyPart (found : Match) :
    (Path.everyPart.search found.node found.location).items =
      (found.preorder.flatMap Match.parts).map Match.item := by
  rw [Path.everyPart, items_this_descend, List.map_flatMap]
  exact congrArg (List.flatMap · _) (funext items_children)

/-- A query reports what it finds if no location comes twice. -/
theorem Expr.queryAt_of_nodup {expr : Expr} {document : Document} {base : Location}
    {found : List Match} (items : (expr.search (document.at base).node base).items =
      found.map Match.item) (apart : (found.map Match.location).Nodup) :
    expr.queryAt document base = found := by
  rw [queryAt_eq_reported, reported_eq_distinct]
  refine Eq.trans ?_ (Match.distinct_eq_self apart)
  rw [← filterMap_match?_item found, ← items]
  rfl

/-- A recursive step finds what its segment finds at a node and at everything below it, in
pre-order, from every cache.  Pre-order has each node once, a node before those in it, and
these in the order of their positions; each stands at its true location.  So where keys are
apart, `@..@` reports the nodes of a document in pre-order, each once, and `@..*` reports
once each node but the root, the parts of one node together. -/
theorem Segment.descend_preorder (segment : Segment) (found : Match) :
    let descent := descend segment.search found.node.value found.node.site found.location
    descent.items = (found.preorder.flatMap fun each =>
      (segment.search each.node each.location).items) ∧
    (∀ cache, descent.produced cache = (Search.inTurn (found.preorder.map fun each =>
      segment.search each.node each.location)).produced cache) ∧
    (found.preorder.Pairwise fun one two =>
      one.node.site.ordinals < two.node.site.ordinals) ∧
    (∀ node, (∃ location, ⟨node, location⟩ ∈ found.preorder) ↔
      ∃ ordinals, found.node.below? ordinals = some node) ∧
    ∀ (document : Document) (base : Location), document.root.Apart →
      let root := document.at base
      (∀ each ∈ root.preorder,
        ∃ way, each.location = base ++ way ∧ Leads root.node way each.node) ∧
      (Expr.path .everything).queryAt document base = root.preorder ∧
      (Expr.path .everyPart).queryAt document base = root.preorder.flatMap Match.parts ∧
      ((Expr.path .everyPart).queryAt document base).Perm root.preorder.tail := by
  intro descent
  refine ⟨items_descend segment.search found, fun cache => ?_, found.pairwise_preorder, found.mem_preorder_iff,
    fun document base apart => ?_⟩
  · rw [← Search.produced_unfetched, unfetched_descend, Search.produced_unfetched]
    rfl
  · intro root
    have once := nodup_preorder apart base
    have but_one := root.flatMap_parts_perm
    have once_parts : ((root.preorder.flatMap Match.parts).map Match.location).Nodup :=
      (but_one.map Match.location).nodup_iff.2 (once.sublist ((List.tail_sublist _).map _))
    have everything : (Expr.path .everything).queryAt document base = root.preorder :=
      Expr.queryAt_of_nodup (items_everything root) once
    have everyPart : (Expr.path .everyPart).queryAt document base =
        root.preorder.flatMap Match.parts :=
      Expr.queryAt_of_nodup (items_everyPart root) once_parts
    refine ⟨fun each mem => (ledTo_of_mem_preorder mem).2, everything, everyPart, ?_⟩
    rw [everyPart]
    exact but_one

/-- The members in the keyed element come before the array behind it, and with `*` after it. -/
theorem Segment.descend_preorder_keyed :
    let one : Json := .number (.int 1)
    let keyed : Json := .object [("_key", .string "k")]
    let document := Document.ofJson (.object [("b", .array [keyed, .array [one]]), ("a", one)])
    ((Expr.path .everything).queryAt document []).map Match.location =
      [[], [.field "a"], [.field "b"], [.field "b", .key "k"],
        [.field "b", .key "k", .field "_key"], [.field "b", .index 1],
        [.field "b", .index 1, .index 0]] ∧
    ((Expr.path .everyPart).queryAt document []).map Match.location =
      [[.field "a"], [.field "b"], [.field "b", .key "k"], [.field "b", .index 1],
        [.field "b", .key "k", .field "_key"], [.field "b", .index 1, .index 0]] := by
  intro one keyed document
  have apart : document.root.Apart :=
    ⟨trivial, ⟨.cons (by rintro _ (_ | ⟨_, ⟨⟩⟩) ⟨⟩) (.cons nofun .nil), ⟨trivial, trivial⟩,
      ⟨.cons nofun .nil, trivial, trivial⟩, trivial⟩, trivial⟩
  obtain ⟨-, everything, everyPart, -⟩ :=
    (Segment.descend_preorder .wildcard (document.at [])).2.2.2.2 document [] apart
  rw [everything, everyPart]
  exact ⟨rfl, rfl⟩

end JsonQuery

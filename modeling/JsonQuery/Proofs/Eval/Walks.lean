/-
# JsonQuery.Proofs.Eval.Walks -- what two visits have in common, their walks have

Visits with the same items at every node that is found have the same items in all
(`Search.items_bind_congr`), and so do walks through a value with two such visits
(`items_eachElement_congr`, `items_descend_congr`, `items_leaves_congr`) and steps with two
such segments (`Segment.items_visit_congr`).

A step of a path is a bound search (`Path.search_step`), and a path that goes on behind
another is the one bound to the other (`Path.search_follow`).
-/
import JsonQuery.Proofs.Eval.Within

namespace JsonQuery

set_option autoImplicit false

/-! ## Bound searches -/

namespace Search

theorem bind_node (node : Node) (location : Location) (visit : Node → Location → Search) :
    (Search.node node location).bind visit = visit node location :=
  append_done (visit node location)

theorem bind_assoc (search : Search) (visit next : Node → Location → Search) :
    (search.bind visit).bind next = search.bind fun n l => (visit n l).bind next := by
  induction search with
  | done => rfl
  | found item rest ih =>
    cases item with
    | node n location => simp only [bind, bind_append, ih]
    | literal value => exact ih ()
  | fetch read rest ih => simp only [bind, ih]
  | lookup array key rest ih => simp only [bind, ih]

/-- Visits with the same items at every node that is found have the same items in all. -/
theorem items_bind_congr {asks : ArrayNode → Prop} {finds : Node → Location → Prop}
    {search : Search} (within : search.Within asks finds) {visit visit' : Node → Location → Search}
    (same : ∀ n l, finds n l → (visit' n l).items = (visit n l).items) :
    (search.bind visit').items = (search.bind visit).items := by
  rw [items_bind, items_bind, List.flatMap_def, List.flatMap_def]
  refine congrArg List.flatten (List.map_congr_left fun item mem => ?_)
  have meets := meets_of_within within item mem
  cases item with
  | node n l => exact same n l meets
  | literal => rfl

end Search

/-! ## Walks -/

theorem Search.sequential_items :
    Sequential Eq (fun _ => True) fun one two => one.items = two.items where
  done := rfl
  append first second := by rw [items_append, items_append, first, second]
  fetch _ next := next trivial

section

variable {asks : ArrayNode → Prop} {finds : Node → Location → Prop}
  (down : Downward asks finds) {visit visit' : Node → Location → Search}
  (same : ∀ n l, finds n l → (visit' n l).items = (visit n l).items)
  {location : Location}

include same in
theorem visitsRelated_items :
    VisitsRelated (Unmoved finds) (fun one two => one.items = two.items) visit' visit := by
  rintro n l _ _ ⟨found, rfl, rfl⟩
  exact same _ _ found

include down same

theorem items_eachElement_congr {array : ArrayNode}
    (found : finds ⟨.array array.elements, array.site⟩ location) :
    (eachElement visit' array location 0 array.elements).items =
      (eachElement visit array location 0 array.elements).items :=
  Search.sequential_items.eachElement (visitsRelated_items same) rfl (down.elements found).related

theorem items_descend_congr {value : Json} {site : Site} (found : finds ⟨value, site⟩ location) :
    (descend visit' value site location).items = (descend visit value site location).items :=
  Search.sequential_items.descend (visitsRelated_items same) (fun _ _ _ _ => down.opened) value
    ⟨found, rfl, rfl⟩

theorem items_leaves_congr {value : Json} {site : Site} (found : finds ⟨value, site⟩ location) :
    (leaves visit' value site location).items = (leaves visit value site location).items :=
  Search.sequential_items.leaves (visitsRelated_items same) (fun _ _ _ _ => down.opened) value
    ⟨found, rfl, rfl⟩

end

/-! ## Steps of a path -/

/-- Segments with the same items at every node that is found have them as a step. -/
theorem Segment.items_visit_congr {asks : ArrayNode → Prop} {finds : Node → Location → Prop}
    (down : Downward asks finds) {segment segment' : Segment}
    (same : ∀ n l, finds n l → (segment'.search n l).items = (segment.search n l).items)
    (recursive : Bool) {node : Node} {location : Location} (found : finds node location) :
    (segment'.visit recursive node location).items =
      (segment.visit recursive node location).items := by
  unfold visit
  split
  · exact items_descend_congr down same found
  · exact same node location found

/-- The path that goes on with the steps of another. -/
def Path.follow (path : Path) : Path → Path
  | .start recursive segment => .step path recursive segment
  | .step base recursive segment => .step (path.follow base) recursive segment

/-- What comes behind a path is applied to everything that the path finds. -/
theorem Path.search_follow (path : Path) : (next : Path) → (node : Node) → (location : Location) →
    (path.follow next).search node location = (path.search node location).bind next.search
  | .start recursive segment, node, location => by
      have first : (Path.start recursive segment).search = segment.visit recursive := by
        funext n l
        exact search_start recursive segment n l
      rw [follow, search_step, first]
  | .step base recursive segment, node, location => by
      have last : (Path.step base recursive segment).search =
          fun n l => (base.search n l).bind (segment.visit recursive) := by
        funext n l
        exact search_step base recursive segment n l
      rw [follow, search_step, search_follow path base, Search.bind_assoc, last]

end JsonQuery

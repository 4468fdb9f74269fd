/-
# JsonQuery.Proofs.Eval.Within -- where the search for an expression goes

A search goes down from its node, to elements and members, and nowhere else.  So a
property of nodes at locations that elements and members inherit (`Downward`) holds of
everything that is found, and of every array that is asked for a key
(`Expr.within_search`).  Operands are searched from the empty location, where the
property need not hold; there it holds at some location, which is as downward.
-/
import JsonQuery.Proofs.Eval.Congruence

namespace JsonQuery

set_option autoImplicit false

/-- A property that goes down to elements and members; `asks` are the arrays that have
it. -/
structure Downward (asks : ArrayNode → Prop) (finds : Node → Location → Prop) : Prop where
  array : ∀ {node : Node} {location : Location} {array : ArrayNode}, finds node location →
    node.array? = some array → asks array
  element : ∀ {elements : List Json} {site : Site} {location : Location} {position : Nat}
    {element : Json}, finds ⟨.array elements, site⟩ location →
    elements[position]? = some element →
      finds ⟨element, site.child position⟩ (location ++ [.ofElement position element])
  member : ∀ {members : List (String × Json)} {site : Site} {location : Location}
    {position : Nat} {name : String} {value : Json}, finds ⟨.object members, site⟩ location →
    members[position]? = some (name, value) →
      finds ⟨value, site.child position⟩ (location ++ [.field name])

/-- The property of a node at some location. -/
def Somewhere (finds : Node → Location → Prop) (node : Node) (_ : Location) : Prop :=
  ∃ location, finds node location

theorem Node.eq_array {node : Node} {array : ArrayNode} (is : node.array? = some array) :
    node = ⟨.array array.elements, array.site⟩ := by
  obtain ⟨value, site⟩ := node
  cases value <;> simp only [array?, reduceCtorEq] at is
  cases is
  rfl

/-- The relation of a node to itself, where it has a property. -/
def Unmoved (finds : Node → Location → Prop) (node : Node) (location : Location) (node' : Node)
    (location' : Location) : Prop :=
  finds node location ∧ node' = node ∧ location' = location

namespace Downward

variable {asks : ArrayNode → Prop} {finds : Node → Location → Prop}

theorem somewhere (down : Downward asks finds) : Downward asks (Somewhere finds) where
  array := fun ⟨_, found⟩ is => down.array found is
  element := fun ⟨_, found⟩ stands => ⟨_, down.element found stands⟩
  member := fun ⟨_, found⟩ stands => ⟨_, down.member found stands⟩

theorem opened (down : Downward asks finds) {known : Read → Prop} {node node' : Node}
    {location location' : Location} (same : Unmoved finds node location node' location') :
    OpenedAlike Eq known (Unmoved finds) node location node' location' := by
  obtain ⟨found, rfl, rfl⟩ := same
  refine OpenedAlike.of_value rfl _ ?_ ?_
  · rintro elements i element is stands
    exact ⟨down.element (is ▸ found) stands, rfl, rfl⟩
  · rintro members i name value is stands
    exact ⟨down.member (is ▸ found) stands, rfl, rfl⟩

/-- The elements of an array from a position on have the property. -/
def Elements (finds : Node → Location → Prop) (site : Site) (location : Location)
    (position : Nat) (elements : List Json) : Prop :=
  ∀ i element, elements[i]? = some element →
    finds ⟨element, site.child (position + i)⟩ (location ++ [.ofElement (position + i) element])

theorem elements (down : Downward asks finds) {all : List Json} {site : Site}
    {location : Location} (found : finds ⟨.array all, site⟩ location) :
    Elements finds site location 0 all := by
  intro i element stands
  rw [Nat.zero_add]
  exact down.element found stands

theorem Elements.related {known : Read → Prop} {site : Site} {location : Location}
    {position : Nat} {elements : List Json}
    (found : Elements finds site location position elements) :
    RelatedElements known (Unmoved finds) site site location location position elements elements :=
  .of_getElem? fun i element stands => ⟨found i element stands, rfl, rfl⟩

end Downward

/-! ## Walks -/

theorem Search.sequential_within {asks : ArrayNode → Prop} {finds : Node → Location → Prop} :
    Sequential Eq (fun _ => True) fun search _ => search.Within asks finds where
  done := trivial
  append one two := within_append one two
  fetch _ next := next trivial

section

variable {asks : ArrayNode → Prop} {finds finds' : Node → Location → Prop}
  {visit : Node → Location → Search}
  (visits : ∀ node location, finds node location → (visit node location).Within asks finds')
include visits

theorem visitsRelated_within :
    VisitsRelated (Unmoved finds) (fun search _ => search.Within asks finds') visit visit :=
  fun n l _ _ ⟨found, _⟩ => visits n l found

theorem within_eachElement {array : ArrayNode} {location : Location} (elements : List Json)
    {position : Nat} (found : Downward.Elements finds array.site location position elements) :
    (eachElement visit array location position elements).Within asks finds' :=
  Search.sequential_within.eachElement (visitsRelated_within visits) rfl found.related

variable (down : Downward asks finds)
include down

theorem within_descend (value : Json) {site : Site} {location : Location}
    (found : finds ⟨value, site⟩ location) :
    (descend visit value site location).Within asks finds' :=
  Search.sequential_within.descend (visitsRelated_within visits) (fun _ _ _ _ => down.opened) value
    ⟨found, rfl, rfl⟩

theorem within_leavesOfElements (elements : List Json) {site : Site} {location : Location}
    {position : Nat} (found : Downward.Elements finds site location position elements) :
    (leavesOfElements visit elements site location position).Within asks finds' :=
  Search.sequential_within.leavesOfElements (visitsRelated_within visits)
    (fun _ _ _ _ => down.opened) elements rfl found.related

end

/-! ## Expressions -/

section

variable {asks : ArrayNode → Prop} {finds : Node → Location → Prop} {node : Node}
  {location : Location}

theorem within_node (found : finds node location) :
    (Search.node node location).Within asks finds :=
  ⟨found, trivial⟩

theorem found_member? (down : Downward asks finds) (location : Location)
    (found : finds node location) {name : String} {member : Node}
    (is : node.member? name = some member) :
    finds member (location ++ [.field name]) := by
  obtain ⟨value, site⟩ := node
  unfold Node.member? at is
  split at is
  · rename_i members object
    cases object
    obtain ⟨⟨position, held⟩, held_at, rfl⟩ := Option.map_eq_some_iff.1 is
    exact down.member found (Json.getElem?_of_findMember held_at)
  · cases is

/-- A validated answer to a test of a key is an element. -/
theorem within_keyed (down : Downward asks finds) {elements : List Json} {site : Site}
    (key : String) (found : finds ⟨.array elements, site⟩ location) :
    (ArrayNode.keyed ⟨elements, site⟩ key location).Within asks finds := by
  refine ⟨down.array found rfl, fun answer hits => ?_⟩
  cases answer with
  | none => trivial
  | some hit =>
    obtain ⟨position, element⟩ := hit
    have hit := hits _ rfl
    have step : Step.ofElement position element = .key key := by
      rw [Step.ofElement, hit.carries]
    exact within_node (step ▸ down.element found hit.stands)

theorem within_keepIf {left right : Search} {finds' : Node → Location → Prop}
    (one : left.Within asks finds') (two : right.Within asks finds') (op : Comparison)
    (found : finds node location) :
    (keepIf left op (fun _ => right) node location).Within asks finds := by
  refine Search.within_first one fun item => ?_
  cases item with
  | none => trivial
  | some x =>
    refine Search.within_first two fun item => ?_
    cases item with
    | none => trivial
    | some y =>
      dsimp only
      split
      · exact within_node found
      · trivial

theorem within_keepIfFound {search : Search} {finds' : Node → Location → Prop}
    (within : search.Within asks finds') (found : finds node location) :
    (keepIfFound search node location).Within asks finds := by
  refine Search.within_first within fun item => ?_
  cases item with
  | none => trivial
  | some => exact within_node found

end

/-- Searches that ask and find what has a property, at nodes that have it. -/
def Congruence.within (asks : ArrayNode → Prop) :
    Congruence { finds : Node → Location → Prop // Downward asks finds } where
  nodes finds := Unmoved finds
  searches finds _ search _ := search.Within asks finds
  sites := Eq
  known _ := True
  operand finds := ⟨Somewhere finds, finds.2.somewhere⟩
  sequential _ _ := Search.sequential_within
  opened finds _ _ _ _ := finds.2.opened
  at_operand := fun ⟨found, same, _⟩ => ⟨⟨_, found⟩, same, rfl⟩
  node _ _ := visitsRelated_within fun _ _ => within_node
  literal plain := ⟨plain, trivial⟩
  bind within visits := Search.within_bind within fun n l found => visits n l n l ⟨found, rfl, rfl⟩
  keyed {finds} _ _ _ _ _ _ _ key := fun ⟨found, _⟩ => within_keyed finds.2 key found
  compared op left right := fun ⟨found, _⟩ => within_keepIf left right op found
  checked within := fun ⟨found, _⟩ => within_keepIfFound within found

section

variable {asks : ArrayNode → Prop} {finds : Node → Location → Prop} {node : Node}
  {location : Location}

/-- A search finds nodes that inherit the property of its own node, and asks arrays that
do. -/
theorem Expr.within_search (e : Expr) (down : Downward asks finds) (found : finds node location) :
    (e.search node location).Within asks finds :=
  (Congruence.within asks).expr e (i := ⟨finds, down⟩) node location node location
    ⟨found, rfl, rfl⟩

theorem Path.within_search (p : Path) (down : Downward asks finds) (found : finds node location) :
    (p.search node location).Within asks finds :=
  (Expr.path p).within_search down found

theorem Element.within_search (e : Element) (down : Downward asks finds)
    (found : finds node location) : (e.search node location).Within asks finds :=
  (Congruence.within asks).element e (i := ⟨finds, down⟩) (b := true)
    (fun strict => Bool.noConfusion strict) node location node location ⟨found, rfl, rfl⟩

end

end JsonQuery

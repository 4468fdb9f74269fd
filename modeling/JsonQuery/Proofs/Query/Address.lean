/-
# JsonQuery.Proofs.Query.Address -- a location is an expression

`Location.address` writes a location as a path from the current value: a field as a name, a
position as a number in a subscript, and a key as a test of `_key` for it.

A step of an address finds the one node that the step of the location goes to
(`Node.Goes.items_segment`).  A name finds the member, and a number the element at the
position: as long as arrays are shorter than `2 ^ 53` a position is a double, and as an
index that double means the position (`indexPosition?_ofInt`).  A key is looked up, and
where keys are apart there is only one element for it.  So along a whole location the
address finds the node that the location leads to and nothing else
(`Leads.items_address`).
-/
import JsonQuery.Proofs.Double.Exact
import JsonQuery.Proofs.Eval.Walks
import JsonQuery.Proofs.Query.Leads

namespace JsonQuery

set_option autoImplicit false

/-! ## The address -/

/-- The segment that takes a step of a location. -/
def Step.segment : Step → Segment
  | .field name => .field name
  | .index position => .subscript [.expr (.number (.ofInt position))]
  | .key k => .subscript [.filter (.path (.start false (.field keyField))) .eq (.string k)]

/-- The path from the current value that takes the steps of a location. -/
def Location.address (location : Location) : Path :=
  location.foldl (fun path step => .step path false step.segment) .this

theorem Location.address_concat (location : Location) (step : Step) :
    Location.address (location ++ [step]) = .step location.address false step.segment := by
  rw [address, List.foldl_append]
  rfl

/-- No array of a value is too long for its positions to be doubles. -/
def Json.Indexable (value : Json) : Prop :=
  value.EveryArray fun elements => elements.length < Nat.pow 2 53

/-! ## One step -/

theorem indexPosition?_ofInt {position length : Nat} (bound : position < length)
    (fits : length < Nat.pow 2 53) : indexPosition? (.ofInt position) length = some position := by
  have whole := Double.toInt?_ofInt (Nat.lt_trans bound fits)
  have positive : ¬ ((position : Int) < 0) := by omega
  have within : 0 ≤ (position : Int) ∧ (position : Int) < length := by omega
  simp only [indexPosition?, whole, Option.bind_eq_bind, Option.bind_some, if_neg positive,
    if_pos within, Int.toNat_natCast]

theorem Segment.search_single (element : Element) (node : Node) (location : Location) :
    (Segment.subscript [element]).search node location = element.search node location := by
  simp only [Segment.search, Element.searchAll, Search.append_done]

/-- One element is fetched, and found with its location. -/
theorem items_eachElement_at {array : ArrayNode} {position : Nat} {element : Json}
    (stands : array.elements[position]? = some element) (location : Location) :
    (eachElement .node array location position ((array.elements.drop position).take 1)).items =
      [.node (array.child position element) (location ++ [.ofElement position element])] := by
  obtain ⟨bound, rfl⟩ := List.getElem?_eq_some_iff.1 stands
  rw [List.drop_eq_getElem_cons bound]
  rfl

/-- A number in a subscript finds the element at the position that it means. -/
theorem items_index {node : Node} {array : ArrayNode} (held : node.array? = some array)
    {number : Double} {position : Nat} (means : indexPosition? number array.length = some position)
    {element : Json} (stands : array.elements[position]? = some element) (location : Location) :
    ((Element.expr (.number number)).search node location).items =
      [.node (array.child position element) (location ++ [.ofElement position element])] := by
  simp only [Element.search, held, means]
  exact items_eachElement_at stands location

/-- Where keys are apart, a test of a key finds the element that carries it. -/
theorem items_key {node : Node} {array : ArrayNode} (held : node.array? = some array)
    (apart : KeysApart array.elements) {key : String} {position : Nat} {element : Json}
    (hit : array.IsHit key (position, element)) (location : Location) :
    ((Element.filter (.path (.start false (.field keyField))) .eq (.string key)).search node
      location).items = [.node (array.child position element) (location ++ [.key key])] := by
  have only : array.first? key = some (position, element) :=
    ArrayNode.first?_of_only hit fun other is => ArrayNode.isHit_unique apart is hit
  have test : keyTest? (.path (.start false (.field keyField))) .eq (.string key) = some key := rfl
  simp only [Element.search, held, test, Search.items, only]
  rfl

/-- A step of a location, taken as a segment, finds the node that the step goes to. -/
theorem Node.Goes.items_segment {node next : Node} {step : Step} (goes : node.Goes step next)
    (apart : node.value.Apart) (indexable : node.value.Indexable) (location : Location) :
    (step.segment.search node location).items = [.node next (location ++ [step])] := by
  cases goes with
  | field is =>
    rw [Step.segment, Segment.search, is]
    rfl
  | @index position _ is bare =>
    obtain ⟨array, held, at_position⟩ := Option.bind_eq_some_iff.1 is
    obtain ⟨element, stands, rfl⟩ := Option.map_eq_some_iff.1 at_position
    rw [node.eq_array held, Json.Indexable, Json.EveryArray] at indexable
    have unkeyed : element.key? = none := bare
    have named : Step.ofElement position element = .index position := by
      rw [Step.ofElement, unkeyed]
    have bound : position < array.length := (List.getElem?_eq_some_iff.1 stands).1
    have means := indexPosition?_ofInt bound indexable.1
    rw [Step.segment, Segment.search_single, items_index held means stands, named]
  | @key position _ key is carries =>
    obtain ⟨array, held, at_position⟩ := Option.bind_eq_some_iff.1 is
    obtain ⟨element, stands, rfl⟩ := Option.map_eq_some_iff.1 at_position
    rw [node.eq_array held, Json.Apart] at apart
    rw [Step.segment, Segment.search_single, items_key held apart.1 ⟨stands, carries⟩]

/-! ## A location -/

theorem Node.Goes.indexable {node next : Node} {step : Step} (goes : node.Goes step next)
    (indexable : node.value.Indexable) : next.value.Indexable := by
  cases goes with
  | field is =>
    obtain ⟨position, child⟩ := child_of_member? is
    exact Json.everyArray_child indexable child
  | index is | key is =>
    obtain ⟨position, child⟩ := child_of_element? is
    exact Json.everyArray_child indexable child

theorem Leads.indexable {root node : Node} {location : Location} (leads : Leads root location node)
    (indexable : root.value.Indexable) : node.value.Indexable := by
  induction leads with
  | here => exact indexable
  | step _ goes ih => exact goes.indexable ih

/-- The address of a location finds the node that it leads to and nothing else. -/
theorem Leads.items_address {root node : Node} {location : Location}
    (leads : Leads root location node) (apart : root.value.Apart)
    (indexable : root.value.Indexable) :
    (location.address.search root []).items = [.node node location] := by
  induction leads with
  | here => rfl
  | @step location middle next step leads goes ih =>
    have last := goes.items_segment (leads.apart apart) (leads.indexable indexable) location
    rw [Location.address_concat, Path.search_step, Search.items_bind, ih]
    simp only [List.flatMap_cons, List.flatMap_nil, List.append_nil, Search.visited,
      Segment.visit, Bool.false_eq_true, if_false]
    exact last

/-- What goes down from a node holds, at some location, of everything below it. -/
theorem Downward.below? {asks : ArrayNode → Prop} {finds : Node → Location → Prop}
    (down : Downward asks finds) : (ordinals : List Nat) → {value part : Json} → {site : Site} →
    {location : Location} → finds ⟨value, site⟩ location → value.below? ordinals = some part →
      ∃ location, finds ⟨part, { site with ordinals := site.ordinals ++ ordinals }⟩ location
  | [], value, part, site, location, found, is => by
      cases is
      exact ⟨location, by simpa using found⟩
  | position :: rest, value, part, site, location, found, is => by
      rw [Json.below?_cons] at is
      obtain ⟨child, stands, is⟩ := Option.bind_eq_some_iff.1 is
      have behind : site.ordinals ++ position :: rest = (site.child position).ordinals ++ rest := by
        simp [Site.child]
      have below : ∃ location, finds ⟨child, site.child position⟩ location := by
        cases value with
        | array elements => exact ⟨_, down.element found stands⟩
        | object members =>
          obtain ⟨⟨name, _⟩, held, rfl⟩ := Option.map_eq_some_iff.1 stands
          exact ⟨_, down.member found held⟩
        | _ => cases stands
      obtain ⟨location, found⟩ := below
      rw [behind]
      exact down.below? rest found is

/-- Where keys are apart and arrays are shorter than `2 ^ 53`, every node has a location, and
whatever a location leads to is addressed by it: the path made of its steps reports that
node, at that location, and no other match. -/
theorem Expr.query_address (document : Document) (apart : document.root.Apart)
    (indexable : document.root.Indexable) :
    let root := Node.ofDocument 0 0 document
    (∀ ordinals value, document.root.below? ordinals = some value →
      ∃ location, Leads root location ⟨value, ⟨0, 0, ordinals⟩⟩) ∧
    ∀ location node, Leads root location node →
      (Expr.path location.address).query document = [⟨node, location⟩] := by
  intro root
  refine ⟨fun ordinals value is => ?_, fun location node leads => ?_⟩
  · obtain ⟨location, -, way, -, leads⟩ :=
      (downward_ledTo root []).below? ordinals (ledTo_root document []) is
    exact ⟨way, leads⟩
  · rw [query, queryAt_eq_reported, Expr.search, leads.items_address apart indexable,
      reported_node, Seen.has_none]
    rfl

/-- A number in an array in a keyed object in an array in an object. -/
theorem Expr.query_address_nested :
    let two : Json := .number (.int 2)
    let keyed : Json := .object [("_key", .string "k"), ("v", .array [.null, two])]
    let document := Document.ofJson (.object [("items", .array [keyed, two])])
    let location : Location := [.field "items", .key "k", .field "v", .index 1]
    (Expr.path location.address).query document = [⟨⟨two, ⟨0, 0, [0, 0, 1, 1]⟩⟩, location⟩] := by
  intro two keyed document location
  have apart : document.root.Apart :=
    ⟨⟨.cons (by rintro _ (_ | ⟨_, ⟨⟩⟩) ⟨⟩) (.cons nofun .nil),
      ⟨trivial, ⟨.cons (by rintro _ (_ | ⟨_, ⟨⟩⟩) _; rfl) (.cons nofun .nil), trivial, trivial,
        trivial⟩, trivial⟩, trivial, trivial⟩, trivial⟩
  have indexable : document.root.Indexable :=
    ⟨⟨by decide, ⟨trivial, ⟨by decide, trivial, trivial, trivial⟩, trivial⟩, trivial, trivial⟩,
      trivial⟩
  have leads : Leads (.ofDocument 0 0 document) location ⟨two, ⟨0, 0, [0, 0, 1, 1]⟩⟩ :=
    (((Leads.here.step (.field rfl)).step (.key (rfl : Node.element? _ 0 = some _) rfl)).step
      (.field rfl)).step (.index (rfl : Node.element? _ 1 = some _) rfl)
  exact (Expr.query_address document apart indexable).2 location _ leads

end JsonQuery

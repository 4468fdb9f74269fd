/-
# JsonQuery.Proofs.Query.Leads -- reported locations are true

A location `Leads` from a node to another step by step: a field to the member of that
name, a position to the element there, which must have no key, and a key to an element
that has it.  Where keys are apart a location leads to one node only
(`Leads.unique`).

Whatever an expression finds, the location reported for it is the base and behind it a
location that leads to just that node; and where keys are apart, an item is left out as
reported before only if that very node was (`Expr.located`).
-/
import JsonQuery.Proofs.Search.Produced
import JsonQuery.Proofs.Session.Sound

namespace JsonQuery

set_option autoImplicit false

/-! ## Following a location -/

/-- A step goes from a node to an element or member. -/
inductive Node.Goes (node : Node) : Step → Node → Prop
  | field {name : String} {member : Node} (is : node.member? name = some member) :
      node.Goes (.field name) member
  | index {position : Nat} {element : Node} (is : node.element? position = some element)
      (bare : element.value.key? = none) : node.Goes (.index position) element
  | key {position : Nat} {element : Node} {key : String}
      (is : node.element? position = some element) (carries : element.value.key? = some key) :
      node.Goes (.key key) element

namespace Node

theorem child_of_member? {node member : Node} {name : String}
    (is : node.member? name = some member) :
    ∃ position, node.value.child? position = some member.value := by
  unfold member? at is
  split at is
  · rename_i members object
    obtain ⟨⟨position, value⟩, found, rfl⟩ := Option.map_eq_some_iff.1 is
    refine ⟨position, ?_⟩
    simp [object, Json.child?, Json.getElem?_of_findMember found]
  · cases is

theorem array_of_element? {node element : Node} {position : Nat}
    (is : node.element? position = some element) :
    ∃ elements, node.value = .array elements ∧ elements[position]? = some element.value := by
  obtain ⟨array, stands, is⟩ := Option.bind_eq_some_iff.1 is
  obtain ⟨value, held, rfl⟩ := Option.map_eq_some_iff.1 is
  rw [eq_array stands]
  exact ⟨array.elements, rfl, held⟩

theorem child_of_element? {node element : Node} {position : Nat}
    (is : node.element? position = some element) :
    ∃ position, node.value.child? position = some element.value := by
  obtain ⟨elements, array, stands⟩ := array_of_element? is
  exact ⟨position, array ▸ stands⟩

/-- The step to an element names its key, or else its position. -/
theorem goes_element {elements : List Json} {site : Site} {position : Nat} {element : Json}
    (stands : elements[position]? = some element) :
    Goes ⟨.array elements, site⟩ (.ofElement position element) ⟨element, site.child position⟩ := by
  have is : element? ⟨.array elements, site⟩ position = some ⟨element, site.child position⟩ := by
    simp [element?, array?, stands, ArrayNode.child]
  unfold Step.ofElement
  split
  · rename_i key carries
    exact .key is carries
  · rename_i bare
    exact .index is bare

theorem goes_member {members : List (String × Json)} {site : Site} {position : Nat}
    {name : String} {value : Json} (sorted : Json.SortedNames members)
    (stands : members[position]? = some (name, value)) :
    Goes ⟨.object members, site⟩ (.field name) ⟨value, site.child position⟩ := by
  refine .field ?_
  simp [member?, Json.findMember_of_getElem? sorted stands]

theorem Goes.apart {node next : Node} {step : Step} (goes : node.Goes step next)
    (apart : node.value.Apart) : next.value.Apart := by
  cases goes with
  | field is =>
    obtain ⟨position, child⟩ := child_of_member? is
    exact Json.apart_child apart child
  | index is | key is =>
    obtain ⟨position, child⟩ := child_of_element? is
    exact Json.apart_child apart child

/-- Where keys are apart, a step goes to one node only. -/
theorem Goes.unique {node one two : Node} {step : Step} (apart : node.value.Apart)
    (goes : node.Goes step one) (goes' : node.Goes step two) : one = two := by
  cases goes with
  | field is =>
    cases goes' with
    | field is' => exact Option.some.inj (is.symm.trans is')
  | index is =>
    cases goes' with
    | index is' => exact Option.some.inj (is.symm.trans is')
  | key is carries =>
    cases goes' with
    | key is' carries' =>
      obtain ⟨elements, array, stands⟩ := array_of_element? is
      obtain ⟨elements', array', stands'⟩ := array_of_element? is'
      rw [array, Json.array.injEq] at array'
      subst array'
      rw [array, Json.Apart] at apart
      have same := position_of_key apart.1 stands stands' carries carries'
      subst same
      exact Option.some.inj (is.symm.trans is')

end Node

/-- A location leads from a root to a node. -/
inductive Leads (root : Node) : Location → Node → Prop
  | here : Leads root [] root
  | step {location : Location} {node next : Node} {step : Step}
      (leads : Leads root location node) (goes : node.Goes step next) :
      Leads root (location ++ [step]) next

namespace Leads

variable {root : Node}

theorem apart {location : Location} {node : Node} (leads : Leads root location node)
    (apart : root.value.Apart) : node.value.Apart := by
  induction leads with
  | here => exact apart
  | step _ goes ih => exact goes.apart ih

/-- Where keys are apart, a location leads to one node only. -/
theorem unique (apart : root.value.Apart) {location : Location} {one two : Node}
    (leads : Leads root location one) (leads' : Leads root location two) : one = two := by
  induction leads generalizing two with
  | here =>
    generalize same : ([] : Location) = location at leads'
    cases leads' with
    | here => rfl
    | step => simp at same
  | @step location node next step leads goes ih =>
    generalize same : location ++ [step] = whole at leads'
    cases leads' with
    | here => simp at same
    | step leads' goes' =>
      obtain ⟨rfl, last⟩ := List.append_inj' same rfl
      cases last
      cases ih leads'
      exact Node.Goes.unique (leads.apart apart) goes goes'

end Leads

/-! ## Locations of matches -/

/-- A node at a location behind a base that leads to it. -/
def LedTo (root : Node) (base : Location) (node : Node) (location : Location) : Prop :=
  node.value.Normal ∧ ∃ way, location = base ++ way ∧ Leads root way node

theorem downward_ledTo (root : Node) (base : Location) :
    Downward (fun _ => True) (LedTo root base) where
  array _ _ := trivial
  element := by
    rintro elements site location position element ⟨normal, way, rfl, leads⟩ stands
    exact ⟨Json.normal_child normal stands, _, List.append_assoc ..,
      leads.step (Node.goes_element stands)⟩
  member := by
    rintro members site location position name value ⟨normal, way, rfl, leads⟩ stands
    have child : (Json.object members).child? position = some value := by
      simp [Json.child?, stands]
    rw [Json.Normal] at normal
    refine ⟨Json.normalMembers_iff.1 normal.2 _ (List.mem_of_getElem? stands), _,
      List.append_assoc .., leads.step (Node.goes_member normal.1 stands)⟩

theorem ledTo_root (document : Document) (base : Location) :
    LedTo (.ofDocument 0 0 document) base (.ofDocument 0 0 document) base :=
  ⟨document.normal, [], (List.append_nil base).symm, .here⟩

/-- Where keys are apart, only one node is led to at a location. -/
theorem LedTo.unique {root : Node} (apart : root.value.Apart) {base location : Location}
    {one two : Node} (led : LedTo root base one location) (led' : LedTo root base two location) :
    one = two := by
  obtain ⟨-, way, eq, leads⟩ := led
  obtain ⟨-, way', eq', leads'⟩ := led'
  have same_way : way = way' := List.append_cancel_left (eq.symm.trans eq')
  subst same_way
  exact Leads.unique apart leads leads'

/-- Every match stands at the base and behind it a location that leads to its node, whatever
the cache and the limit.  Where keys are apart a location leads to one node only, and an
item is suppressed only if the very same node has been reported. -/
theorem Expr.located (expr : Expr) (document : Document) (base : Location) :
    let root := Node.ofDocument 0 0 document
    (∀ limit run, ∀ found ∈ ((expr.cursor document base).collect limit run).1,
      ∃ way, found.location = base ++ way ∧ Leads root way found.node) ∧
    expr.queryAt document base = reported .none (expr.search root base).items ∧
    (document.root.Apart →
      (∀ location one two, Leads root location one → Leads root location two → one = two) ∧
      ∀ before node location after,
        (expr.search root base).items = before ++ .node node location :: after →
          Suppressed before (.node node location) →
            ⟨node, location⟩ ∈ reported .none before) := by
  intro root
  have within : (expr.search root base).Within (fun _ => True) (LedTo root base) :=
    expr.within_search (downward_ledTo root base)
      ⟨document.normal, [], (List.append_nil base).symm, .here⟩
  have led := Search.meets_of_within within
  refine ⟨fun limit run found mem => ?_, expr.queryAt_eq_reported document base, fun apart =>
    ⟨fun location one two => Leads.unique apart, fun before node location after split gone => ?_⟩⟩
  · exact (Search.collect_within within limit .none run found mem).2
  · obtain ⟨earlier, mem, rfl⟩ := (suppressed_iff before node location).1 gone
    have reached : LedTo root base node earlier.location :=
      led (.node node earlier.location) (by simp [split])
    have reached' : LedTo root base earlier.node earlier.location :=
      led (.node earlier.node earlier.location) (by simp [split, mem_of_reported mem])
    obtain ⟨-, way, eq, leads⟩ := reached
    obtain ⟨-, way', eq', leads'⟩ := reached'
    have same_way : way = way' := List.append_cancel_left (eq.symm.trans eq')
    subst same_way
    rw [Leads.unique apart leads leads']
    exact mem

/-- A wildcard that is written twice finds the keyed element twice. -/
theorem Expr.located_twice :
    let keyed : Json := .object [("_key", .string "a")]
    let node : Node := ⟨keyed, ⟨0, 0, [0]⟩⟩
    let bare : Node := ⟨.number (.int 1), ⟨0, 0, [1]⟩⟩
    ⟨node, [.key "a"]⟩ ∈
      reported .none [.node node [.key "a"], .node bare [.index 1]] := by
  intro keyed node bare
  have apart : (Document.ofJson (.array [keyed, .number (.int 1)])).root.Apart :=
    ⟨.cons (by rintro _ (_ | ⟨_, ⟨⟩⟩) ⟨⟩) (.cons nofun .nil), ⟨trivial, trivial⟩, trivial, trivial⟩
  exact ((Expr.located (.path (.start false (.subscript
    [.expr (.path (.start false .wildcard)), .expr (.path (.start false .wildcard))])))
    (.ofJson (.array [keyed, .number (.int 1)])) []).2.2 apart).2 _ node _
      [.node bare [.index 1]] rfl rfl

end JsonQuery

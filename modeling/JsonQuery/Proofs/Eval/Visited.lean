/-
# JsonQuery.Proofs.Eval.Visited -- the nodes that a walk visits

A `Match` is a node with its location.  Its parts are the elements of an array or the
members of an object, in their order and each with its own location (`Match.parts`).  Of the
two ways to list what lies deeper,

* `Match.preorder` has a node before its parts, and after each part what is in it;
* `Match.leaves` has a node itself, unless it is an array, and of an array the leaves of its
  elements.

A walk through a value makes its visit at every node of such a list in turn, and besides it
only fetches (`unfetched_descend`, `unfetched_leaves`, `unfetched_eachElement`).

The pre-order of a node has everything that positions lead to from it, and nothing else
(`mem_preorder_iff`), in the lexicographic order of these positions (`pairwise_preorder`).
-/
import JsonQuery.Eval
import JsonQuery.Proofs.Json.Parts
import JsonQuery.Proofs.Search.InTurn

namespace JsonQuery

set_option autoImplicit false

/-! ## What lies below a node -/

/-- The place that positions lead to, one for each level. -/
def Site.below (site : Site) (ordinals : List Nat) : Site :=
  { site with ordinals := site.ordinals ++ ordinals }

/-- The node that positions lead to, one for each level. -/
def Node.below? (node : Node) (ordinals : List Nat) : Option Node :=
  (node.value.below? ordinals).map fun value => ⟨value, node.site.below ordinals⟩

theorem Node.below?_eq_some {root node : Node} {ordinals : List Nat} :
    root.below? ordinals = some node ↔
      root.value.below? ordinals = some node.value ∧ node.site = root.site.below ordinals := by
  rw [below?, Option.map_eq_some_iff]
  constructor
  · rintro ⟨value, leads, rfl⟩
    exact ⟨leads, rfl⟩
  · rintro ⟨leads, site⟩
    exact ⟨node.value, leads, by rw [← site]⟩

theorem Node.below?_nil (node : Node) : node.below? [] = some node := by
  obtain ⟨value, site⟩ := node
  simp [below?, Json.below?, Site.below]

theorem Node.below?_cons (node : Node) (position : Nat) (ordinals : List Nat) :
    node.below? (position :: ordinals) =
      (node.value.child? position).bind fun value =>
        below? ⟨value, node.site.child position⟩ ordinals := by
  have deeper : (node.site.child position).below ordinals =
      node.site.below (position :: ordinals) := by
    simp [Site.below, Site.child]
  rw [below?, Json.below?_cons, Option.map_bind]
  simp only [below?, deeper]
  rfl

namespace Match

/-- A match as an item. -/
def item (found : Match) : Item := .node found.node found.location

/-! ## Parts -/

/-- The elements of an array or the members of an object, in their order. -/
def parts (found : Match) : List Match :=
  match found.node.value with
  | .array elements => elements.zipIdx.map fun (element, i) =>
      ⟨⟨element, found.node.site.child i⟩, found.location ++ [.ofElement i element]⟩
  | .object members => members.zipIdx.map fun ((name, value), i) =>
      ⟨⟨value, found.node.site.child i⟩, found.location ++ [.field name]⟩
  | _ => []

/-- The part at a position is the child there. -/
theorem node_getElem?_parts (found : Match) (i : Nat) :
    found.parts[i]?.map Match.node =
      (found.node.value.child? i).map fun value => ⟨value, found.node.site.child i⟩ := by
  obtain ⟨⟨value, site⟩, location⟩ := found
  cases value with
  | array elements =>
    simp [parts, Json.child?, Function.comp_def]
  | object members =>
    simp [parts, Json.child?, Function.comp_def]
  | _ => rfl

theorem child_of_mem_parts {found part : Match} (mem : part ∈ found.parts) :
    ∃ i, found.node.value.child? i = some part.node.value ∧
      part.node.site = found.node.site.child i := by
  obtain ⟨i, stands⟩ := List.mem_iff_getElem?.1 mem
  have node := node_getElem?_parts found i
  rw [stands, Option.map_some, eq_comm, Option.map_eq_some_iff] at node
  obtain ⟨value, child, is⟩ := node
  exact ⟨i, by rw [child, ← is], by rw [← is]⟩

theorem sizeOf_child {value child : Json} {i : Nat} (is : value.child? i = some child) :
    sizeOf child < sizeOf value := by
  cases value with
  | array elements =>
    have less := List.sizeOf_lt_of_mem (List.mem_of_getElem? is)
    simp only [Json.array.sizeOf_spec]
    omega
  | object members =>
    obtain ⟨⟨name, _⟩, stands, rfl⟩ := Option.map_eq_some_iff.1 is
    have less := List.sizeOf_lt_of_mem (List.mem_of_getElem? stands)
    simp only [Prod.mk.sizeOf_spec] at less
    simp only [Json.object.sizeOf_spec]
    omega
  | _ => cases is

theorem sizeOf_part {found part : Match} (mem : part ∈ found.parts) :
    sizeOf part.node.value < sizeOf found.node.value := by
  obtain ⟨i, is, -⟩ := child_of_mem_parts mem
  exact sizeOf_child is

/-- Induction over a value: what holds of a node if it does of its parts holds of all. -/
theorem parts_induction {motive : Match → Prop}
    (step : ∀ found, (∀ part ∈ found.parts, motive part) → motive found) (found : Match) :
    motive found :=
  step found fun part _ => parts_induction step part
termination_by sizeOf found.node.value
decreasing_by exact sizeOf_part ‹_›

end Match

/-! ## Lists of nodes -/

mutual

/-- A value and everything below it, each value before what is in it. -/
def Json.preorder : (value : Json) → (site : Site) → (location : Location) → List Match
  | .array elements, site, location =>
      ⟨⟨.array elements, site⟩, location⟩ :: preorderOfElements elements site location 0
  | .object members, site, location =>
      ⟨⟨.object members, site⟩, location⟩ :: preorderOfMembers members site location 0
  | value, site, location => [⟨⟨value, site⟩, location⟩]

def Json.preorderOfElements :
    (elements : List Json) → (site : Site) → (location : Location) → (position : Nat) → List Match
  | [], _, _, _ => []
  | element :: rest, site, location, position =>
      element.preorder (site.child position) (location ++ [.ofElement position element]) ++
        preorderOfElements rest site location (position + 1)

def Json.preorderOfMembers :
    (members : List (String × Json)) → (site : Site) → (location : Location) →
      (position : Nat) → List Match
  | [], _, _, _ => []
  | (name, value) :: rest, site, location, position =>
      value.preorder (site.child position) (location ++ [.field name]) ++
        preorderOfMembers rest site location (position + 1)

end

mutual

/-- A value that is no array, or the leaves of the elements. -/
def Json.leaves : (value : Json) → (site : Site) → (location : Location) → List Match
  | .array elements, site, location => leavesOfElements elements site location 0
  | value, site, location => [⟨⟨value, site⟩, location⟩]

def Json.leavesOfElements :
    (elements : List Json) → (site : Site) → (location : Location) → (position : Nat) → List Match
  | [], _, _, _ => []
  | element :: rest, site, location, position =>
      element.leaves (site.child position) (location ++ [.ofElement position element]) ++
        leavesOfElements rest site location (position + 1)

end

namespace Match

/-- A node and everything below it in pre-order. -/
def preorder (found : Match) : List Match :=
  found.node.value.preorder found.node.site found.location

/-- A node that is no array, or the leaves of the elements, arrays among them opened in their
turn. -/
def leaves (found : Match) : List Match :=
  found.node.value.leaves found.node.site found.location

theorem preorderOfElements_eq (elements : List Json) (site : Site) (location : Location)
    (position : Nat) :
    Json.preorderOfElements elements site location position =
      (elements.zipIdx position).flatMap fun (element, i) =>
        element.preorder (site.child i) (location ++ [.ofElement i element]) := by
  induction elements generalizing position with
  | nil => rfl
  | cons element rest ih => rw [Json.preorderOfElements, ih, List.zipIdx_cons, List.flatMap_cons]

theorem preorderOfMembers_eq (members : List (String × Json)) (site : Site) (location : Location)
    (position : Nat) :
    Json.preorderOfMembers members site location position =
      (members.zipIdx position).flatMap fun ((name, value), i) =>
        value.preorder (site.child i) (location ++ [.field name]) := by
  induction members generalizing position with
  | nil => rfl
  | cons member rest ih => rw [Json.preorderOfMembers, ih, List.zipIdx_cons, List.flatMap_cons]

theorem leavesOfElements_eq (elements : List Json) (site : Site) (location : Location)
    (position : Nat) :
    Json.leavesOfElements elements site location position =
      (elements.zipIdx position).flatMap fun (element, i) =>
        element.leaves (site.child i) (location ++ [.ofElement i element]) := by
  induction elements generalizing position with
  | nil => rfl
  | cons element rest ih => rw [Json.leavesOfElements, ih, List.zipIdx_cons, List.flatMap_cons]

/-- A node comes before its parts, and after each part what is in it. -/
theorem preorder_eq (found : Match) : found.preorder = found :: found.parts.flatMap preorder := by
  obtain ⟨⟨value, site⟩, location⟩ := found
  cases value with
  | array elements =>
    simp only [preorder, Json.preorder, preorderOfElements_eq, parts, List.flatMap_map]
  | object members =>
    simp only [preorder, Json.preorder, preorderOfMembers_eq, parts, List.flatMap_map]
  | _ => rfl

/-- The leaves of an array are those of its elements, and other nodes are leaves. -/
theorem leaves_eq (found : Match) :
    found.leaves =
      match found.node.value with
      | .array _ => found.parts.flatMap leaves
      | _ => [found] := by
  obtain ⟨⟨value, site⟩, location⟩ := found
  cases value with
  | array elements =>
    simp only [leaves, Json.leaves, leavesOfElements_eq, parts, List.flatMap_map]
  | _ => rfl

/-! ## Order -/

/-- In pre-order stands what positions lead to from the node, and nothing else. -/
theorem mem_preorder_iff (found : Match) (node : Node) :
    (∃ location, ⟨node, location⟩ ∈ found.preorder) ↔
      ∃ ordinals, found.node.below? ordinals = some node := by
  constructor
  · rintro ⟨location, mem⟩
    induction found using parts_induction with
    | step found ih =>
      rw [preorder_eq] at mem
      rcases List.mem_cons.1 mem with rfl | mem
      · exact ⟨[], Node.below?_nil node⟩
      · obtain ⟨part, is, mem⟩ := List.mem_flatMap.1 mem
        obtain ⟨ordinals, leads⟩ := ih part is mem
        obtain ⟨i, child, site⟩ := child_of_mem_parts is
        refine ⟨i :: ordinals, ?_⟩
        rw [Node.below?_cons, child, Option.bind_some, ← site]
        exact leads
  · rintro ⟨ordinals, leads⟩
    induction ordinals generalizing found with
    | nil =>
      rw [Node.below?_nil, Option.some.injEq] at leads
      subst leads
      exact ⟨found.location, by rw [preorder_eq]; exact List.mem_cons_self⟩
    | cons i rest ih =>
      rw [Node.below?_cons] at leads
      obtain ⟨value, child, leads⟩ := Option.bind_eq_some_iff.1 leads
      have node_at := node_getElem?_parts found i
      rw [child, Option.map_some, Option.map_eq_some_iff] at node_at
      obtain ⟨part, stands, is⟩ := node_at
      obtain ⟨location, mem⟩ := ih part (is ▸ leads)
      refine ⟨location, ?_⟩
      rw [preorder_eq]
      exact List.mem_cons_of_mem _ (List.mem_flatMap.2 ⟨part, List.mem_of_getElem? stands, mem⟩)

/-- What stands in pre-order begins with the positions of the node. -/
theorem ordinals_of_mem_preorder {found each : Match} (mem : each ∈ found.preorder) :
    ∃ ordinals, each.node.site.ordinals = found.node.site.ordinals ++ ordinals := by
  obtain ⟨ordinals, leads⟩ := (mem_preorder_iff found each.node).1 ⟨each.location, mem⟩
  exact ⟨ordinals, by rw [(Node.below?_eq_some.1 leads).2, Site.below]⟩

/-- Pre-order is the lexicographic order of positions, and so no node stands in it twice. -/
theorem pairwise_preorder (found : Match) :
    found.preorder.Pairwise fun one two => one.node.site.ordinals < two.node.site.ordinals := by
  induction found using parts_induction with
  | step found ih =>
    -- What is in the part at a position has that position behind those of the node.
    have within : ∀ (i : Nat) (part each : Match), found.parts[i]? = some part →
        each ∈ part.preorder →
          ∃ ordinals, each.node.site.ordinals = found.node.site.ordinals ++ i :: ordinals := by
      intro i part each stands mem
      obtain ⟨ordinals, is⟩ := ordinals_of_mem_preorder mem
      have node := node_getElem?_parts found i
      rw [stands, Option.map_some, eq_comm, Option.map_eq_some_iff] at node
      obtain ⟨value, -, same⟩ := node
      refine ⟨ordinals, ?_⟩
      rw [is, ← same, Site.child, List.append_assoc]
      rfl
    rw [preorder_eq, List.pairwise_cons, List.pairwise_flatMap]
    refine ⟨fun each mem => ?_, ih, List.pairwise_iff_getElem.2 ?_⟩
    · obtain ⟨part, is, mem⟩ := List.mem_flatMap.1 mem
      obtain ⟨i, stands⟩ := List.mem_iff_getElem?.1 is
      obtain ⟨ordinals, deeper⟩ := within i part each stands mem
      have longer : found.node.site.ordinals ++ [] < found.node.site.ordinals ++ i :: ordinals :=
        List.append_left_lt (List.nil_lt_cons i ordinals)
      rwa [List.append_nil, ← deeper] at longer
    · intro i j bound bound' less one mem two mem'
      obtain ⟨ordinals, deeper⟩ := within i _ one (List.getElem?_eq_getElem bound) mem
      obtain ⟨ordinals', deeper'⟩ := within j _ two (List.getElem?_eq_getElem bound') mem'
      rw [deeper, deeper']
      exact List.append_left_lt (List.cons_lt_cons_iff.2 (.inl less))

end Match

/-! ## Walks -/

section

variable (visit : Node → Location → Search)

/-- The visit to a match. -/
def Match.visited (found : Match) : Search := visit found.node found.location

theorem unfetched_eachElement (array : ArrayNode) (location : Location) (position : Nat)
    (elements : List Json) :
    (eachElement visit array location position elements).unfetched =
      (Search.inTurn ((elements.zipIdx position).map fun (element, i) =>
        visit (array.child i element) (location ++ [.ofElement i element]))).unfetched := by
  induction elements generalizing position with
  | nil => rfl
  | cons element rest ih =>
    simp only [eachElement, Search.unfetched, Search.unfetched_append, List.zipIdx_cons,
      List.map_cons, Search.inTurn, ih]

/-- Descending into the elements of an array is one walk over them. -/
theorem descendElements_eq_eachElement (array : ArrayNode) (location : Location) (position : Nat)
    (elements : List Json) :
    descendElements visit elements array.site location position =
      eachElement (fun n l => descend visit n.value n.site l) array location position elements := by
  induction elements generalizing position with
  | nil => rfl
  | cons element rest ih =>
    rw [descendElements, ih]
    rfl

/-- Going to the leaves of the elements of an array is one walk over them. -/
theorem leavesOfElements_eq_eachElement (array : ArrayNode) (location : Location) (position : Nat)
    (elements : List Json) :
    leavesOfElements visit elements array.site location position =
      eachElement (fun n l => leaves visit n.value n.site l) array location position elements := by
  induction elements generalizing position with
  | nil => rfl
  | cons element rest ih =>
    rw [leavesOfElements, ih]
    rfl

theorem unfetched_descendMembers (members : List (String × Json)) (site : Site)
    (location : Location) (position : Nat) :
    (descendMembers visit members site location position).unfetched =
      (Search.inTurn ((members.zipIdx position).map fun ((name, value), i) =>
        descend visit value (site.child i) (location ++ [.field name]))).unfetched := by
  induction members generalizing position with
  | nil => rfl
  | cons member rest ih =>
    simp only [descendMembers, Search.unfetched_append, List.zipIdx_cons, List.map_cons,
      Search.inTurn, ih]

/-- A descent visits a node and then descends into each of its parts. -/
theorem unfetched_descend_parts (found : Match) :
    (descend visit found.node.value found.node.site found.location).unfetched =
      (Search.inTurn (found.visited visit :: found.parts.map fun part =>
        descend visit part.node.value part.node.site part.location)).unfetched := by
  obtain ⟨⟨value, site⟩, location⟩ := found
  cases value with
  | array elements =>
    rw [descend, Search.unfetched_append, descendElements_eq_eachElement visit ⟨elements, site⟩,
      unfetched_eachElement, Search.inTurn, Search.unfetched_append, Match.parts, List.map_map]
    rfl
  | object members =>
    rw [descend, Search.unfetched_append, unfetched_descendMembers, Search.inTurn,
      Search.unfetched_append, Match.parts, List.map_map]
    rfl
  | _ =>
    rw [Match.parts, List.map_nil, Search.inTurn, Search.inTurn, Search.append_done]
    rfl

/-- A descent visits a node and everything below it in pre-order. -/
theorem unfetched_descend (found : Match) :
    (descend visit found.node.value found.node.site found.location).unfetched =
      (Search.inTurn (found.preorder.map (Match.visited visit))).unfetched := by
  induction found using Match.parts_induction with
  | step found ih =>
    rw [unfetched_descend_parts, Match.preorder_eq, List.map_cons, List.map_flatMap,
      Search.inTurn, Search.inTurn, Search.unfetched_append, Search.unfetched_append,
      Search.inTurn_flatMap, Search.unfetched_inTurn_congr ih]

/-- The walk to the leaves of a node visits them in turn. -/
theorem unfetched_leaves (found : Match) :
    (leaves visit found.node.value found.node.site found.location).unfetched =
      (Search.inTurn (found.leaves.map (Match.visited visit))).unfetched := by
  induction found using Match.parts_induction with
  | step found ih =>
    rw [Match.leaves_eq]
    obtain ⟨⟨value, site⟩, location⟩ := found
    cases value with
    | array elements =>
      rw [List.map_flatMap, Search.inTurn_flatMap, ← Search.unfetched_inTurn_congr ih, leaves,
        leavesOfElements_eq_eachElement visit ⟨elements, site⟩, unfetched_eachElement, Match.parts,
        List.map_map]
      rfl
    | _ =>
      rw [List.map_singleton, Search.inTurn, Search.inTurn, Search.append_done]
      rfl

theorem items_eachElement_from (array : ArrayNode) (location : Location) (position : Nat)
    (elements : List Json) :
    (eachElement visit array location position elements).items =
      (elements.zipIdx position).flatMap fun (element, i) =>
        (visit (array.child i element) (location ++ [.ofElement i element])).items := by
  rw [← Search.items_unfetched, unfetched_eachElement, Search.items_unfetched,
    Search.items_inTurn, List.flatMap_map]

theorem items_eachElement (array : ArrayNode) (location : Location) :
    (eachElement visit array location 0 array.elements).items =
      (Match.parts ⟨⟨.array array.elements, array.site⟩, location⟩).flatMap fun each =>
        (visit each.node each.location).items := by
  rw [items_eachElement_from, Match.parts, List.flatMap_map]
  rfl

theorem items_descend (found : Match) :
    (descend visit found.node.value found.node.site found.location).items =
      found.preorder.flatMap fun each => (visit each.node each.location).items := by
  rw [← Search.items_unfetched, unfetched_descend, Search.items_unfetched,
    Search.items_inTurn, List.flatMap_map]
  rfl

theorem items_leaves (found : Match) :
    (leaves visit found.node.value found.node.site found.location).items =
      found.leaves.flatMap fun each => (visit each.node each.location).items := by
  rw [← Search.items_unfetched, unfetched_leaves, Search.items_unfetched,
    Search.items_inTurn, List.flatMap_map]
  rfl

end

/-- Of the visits that keep a node or find nothing, the nodes kept are left. -/
theorem flatMap_kept (list : List Match) (keep : Match → Bool) :
    (list.flatMap fun each => if keep each then [each.item] else []) =
      (list.filter keep).map Match.item := by
  induction list with
  | nil => rfl
  | cons each rest ih =>
    rw [List.flatMap_cons, List.filter_cons, ih]
    cases keep each <;> rfl

theorem items_eachMember (site : Site) (location : Location) (position : Nat)
    (members : List (String × Json)) :
    (eachMember site location position members).items =
      (members.zipIdx position).map fun ((name, value), i) =>
        .node ⟨value, site.child i⟩ (location ++ [.field name]) := by
  induction members generalizing position with
  | nil => rfl
  | cons member rest ih => rw [eachMember, Search.items, ih, List.zipIdx_cons, List.map_cons]

/-- A wildcard finds the parts. -/
theorem items_children (found : Match) :
    (children found.node found.location).items = found.parts.map Match.item := by
  obtain ⟨⟨value, site⟩, location⟩ := found
  cases value with
  | array elements =>
    rw [children, items_eachElement .node ⟨elements, site⟩]
    exact List.map_eq_flatMap.symm
  | object members =>
    rw [children, items_eachMember, Match.parts, List.map_map]
    rfl
  | _ => rfl

end JsonQuery

/-
# JsonQuery.Proofs.Eval.KeyTest -- a key that is looked up, and a key that is compared

A comparison of a bare `_key` with a string asks an array for the element with that key;
written `@._key`, the same comparison is made for every element.  `Expr.qualify` writes
it so everywhere in a tree.

The two find the same if no array stands in an array, where the comparison would be made
for the inner elements too, and if keys are apart, so that there is one element to be
found at most (`leaves_keyed`).  An induction over the tree carries this through every
operand, existence check and step (`Expr.items_qualify`), and so to the matches
(`Expr.queryAt_qualify`).
-/
import JsonQuery.Proofs.Eval.Placed
import JsonQuery.Proofs.Eval.Walks
import JsonQuery.Proofs.Session.Sound

namespace JsonQuery

set_option autoImplicit false

/-! ## The rewriting -/

/-- A bare `_key` as the path `@._key`; every other expression is left as it is. -/
def Expr.qualified (e : Expr) : Expr :=
  if e.isKeyField then .path (.step .this false (.field keyField)) else e

mutual

/-- The expression in which each operand of a comparison that is a bare `_key` is written
`@._key`, at any depth. -/
def Expr.qualify : Expr → Expr
  | .path p => .path p.qualify
  | e => e

def Path.qualify : Path → Path
  | .start recursive segment => .start recursive segment.qualify
  | .step base recursive segment => .step base.qualify recursive segment.qualify

def Segment.qualify : Segment → Segment
  | .subscript elements => .subscript (Element.qualifyAll elements)
  | segment => segment

def Element.qualify : Element → Element
  | .filter left op right => .filter left.qualify.qualified op right.qualify.qualified
  | .existence p => .existence p.qualify
  | .expr e => .expr e.qualify
  | .slice first last => .slice first last

def Element.qualifyAll : List Element → List Element
  | [] => []
  | element :: rest => element.qualify :: Element.qualifyAll rest

end

/-! ## Documents on which both agree -/

/-- Whether a value is an array. -/
def Json.isArray : Json → Bool
  | .array _ => true
  | _ => false

mutual

/-- No element of an array is an array. -/
def Json.Flat : Json → Prop
  | .array elements => (∀ element ∈ elements, element.isArray = false) ∧ FlatElements elements
  | .object members => FlatMembers members
  | _ => True

def Json.FlatElements : List Json → Prop
  | [] => True
  | value :: rest => value.Flat ∧ FlatElements rest

def Json.FlatMembers : List (String × Json) → Prop
  | [] => True
  | (_, value) :: rest => value.Flat ∧ FlatMembers rest

end

theorem Json.flatElements_iff {elements : List Json} :
    FlatElements elements ↔ ∀ element ∈ elements, element.Flat := by
  induction elements with
  | nil => simp [FlatElements]
  | cons element rest ih => simp [FlatElements, ih]

theorem Json.flatMembers_iff {members : List (String × Json)} :
    FlatMembers members ↔ ∀ member ∈ members, member.2.Flat := by
  induction members with
  | nil => simp [FlatMembers]
  | cons member rest ih => simp [FlatMembers, ih]

theorem Json.flat_child {value child : Json} {position : Nat} (flat : value.Flat)
    (is : value.child? position = some child) : child.Flat := by
  cases value with
  | array elements =>
    rw [Flat] at flat
    exact flatElements_iff.1 flat.2 child (List.mem_of_getElem? is)
  | object members =>
    rw [Flat] at flat
    obtain ⟨member, stands, rfl⟩ := Option.map_eq_some_iff.1 is
    exact flatMembers_iff.1 flat member (List.mem_of_getElem? stands)
  | _ => cases is

/-- A node in and below which no array stands in an array and keys are apart. -/
structure Node.Tidy (node : Node) (_ : Location) : Prop where
  flat : node.value.Flat
  apart : node.value.Apart

theorem downward_tidy : Downward (fun _ => True) Node.Tidy where
  array _ _ := trivial
  element tidy stands := ⟨Json.flat_child tidy.flat stands, Json.apart_child tidy.apart stands⟩
  member {members} _ _ position _ value tidy stands := by
    have child : (Json.object members).child? position = some value := by
      simp [Json.child?, stands]
    exact ⟨Json.flat_child tidy.flat child, Json.apart_child tidy.apart child⟩

/-! ## A bare key as an operand -/

theorem Expr.eq_of_isKeyField {e : Expr} (bare : e.isKeyField) :
    e = .path (.start false (.field keyField)) := by
  cases e with
  | path p =>
    cases p with
    | start recursive segment =>
      cases recursive with
      | true => cases bare
      | false =>
        cases segment with
        | field name => rw [of_decide_eq_true bare]
        | _ => cases bare
    | step => cases bare
  | _ => cases bare

/-- A qualified name is searched as the bare one. -/
theorem Expr.search_qualified (e : Expr) (node : Node) (location : Location) :
    e.qualified.search node location = e.search node location := by
  unfold qualified
  split
  · rename_i bare
    rw [Expr.eq_of_isKeyField bare]
    calc (Expr.path (.step .this false (.field keyField))).search node location
      _ = (Search.node node location).bind (Segment.visit false (.field keyField)) := rfl
      _ = Segment.visit false (.field keyField) node location := Search.bind_node ..
  · rfl

theorem Expr.isKeyField_qualified (e : Expr) : e.qualified.isKeyField = false := by
  unfold qualified
  split
  · rfl
  · rename_i other
    exact Bool.eq_false_iff.2 other

/-- A comparison tests a key if one side is a bare `_key` and the other the string. -/
theorem keyTest?_eq_some {left right : Expr} {op : Comparison} {key : String}
    (test : keyTest? left op right = some key) :
    op = .eq ∧ (left.isKeyField ∧ right = .string key ∨ left = .string key ∧ right.isKeyField) := by
  unfold keyTest? at test
  split at test
  · split at test
    · rename_i bare
      cases test
      exact ⟨rfl, .inl ⟨bare, rfl⟩⟩
    · cases test
  · split at test
    · rename_i bare
      cases test
      exact ⟨rfl, .inr ⟨rfl, bare⟩⟩
    · cases test
  · cases test

theorem keyTest?_qualified (left right : Expr) (op : Comparison) :
    keyTest? left.qualified op right.qualified = none := by
  cases test : keyTest? left.qualified op right.qualified with
  | none => rfl
  | some key =>
    obtain ⟨-, ⟨bare, -⟩ | ⟨-, bare⟩⟩ := keyTest?_eq_some test
    · rw [Expr.isKeyField_qualified] at bare
      cases bare
    · rw [Expr.isKeyField_qualified] at bare
      cases bare

theorem Node.value_member? (node : Node) (name : String) :
    (node.member? name).map Node.value = node.value.member? name := by
  obtain ⟨value, site⟩ := node
  cases value with
  | object members =>
    simp only [member?, Json.member?, Option.map_map]
    rfl
  | _ => rfl

/-- What a comparison sees of a value is a string only if the value is that string. -/
theorem Scalar.ofNode_eq_string {node : Node} {key : String} :
    Scalar.ofNode node = .string key ↔ node.value.string? = some key := by
  obtain ⟨value, site⟩ := node
  cases value <;> simp [Scalar.ofNode, Json.string?]

theorem Scalar.equal_string (x : Scalar) (key : String) :
    x.equal (.string key) = decide (x = .string key) ∧
      (Scalar.string key).equal x = decide (x = .string key) := by
  cases x <;> simp [Scalar.equal, eq_comm]

/-- The first item of a bare `_key` is the member. -/
theorem head?_items_keyField (node : Node) :
    ((Expr.path (.start false (.field keyField))).search node []).items.head?.map Item.scalar =
      (node.member? keyField).map Scalar.ofNode := by
  have search : (Expr.path (.start false (.field keyField))).search node [] =
      (Segment.field keyField).search node [] := rfl
  rw [search]
  unfold Segment.search
  cases node.member? keyField <;> rfl

theorem Comparison.keeps_eq_string (key : String) (x : Option Item) :
    Comparison.eq.keeps x (some (.literal (.string key))) =
      decide (x.map Item.scalar = some (.string key)) ∧
    Comparison.eq.keeps (some (.literal (.string key))) x =
      decide (x.map Item.scalar = some (.string key)) := by
  cases x with
  | none => exact ⟨rfl, rfl⟩
  | some item =>
    obtain ⟨one, two⟩ := Scalar.equal_string item.scalar key
    simp only [Comparison.keeps, Comparison.holds, Item.scalar, Option.map_some,
      Option.some.injEq]
    exact ⟨one, two⟩

/-- A test of a key, made as a comparison, keeps the nodes that carry the key. -/
theorem items_keepIf_keyTest {left right : Expr} {op : Comparison} {key : String}
    (test : keyTest? left op right = some key) (node : Node) (location : Location) :
    (keepIf (left.search node []) op (fun _ => right.search node []) node location).items =
      if node.value.key? = some key then [.node node location] else [] := by
  have member : (node.member? keyField).map Scalar.ofNode = some (.string key) ↔
      node.value.key? = some key := by
    rw [Json.key?, ← Node.value_member?]
    cases node.member? keyField with
    | none => simp
    | some held => simp [Scalar.ofNode_eq_string]
  have name := head?_items_keyField node
  have string : ((Expr.string key).search node []).items.head? =
      some (.literal (.string key)) := rfl
  obtain ⟨rfl, ⟨bare, rfl⟩ | ⟨rfl, bare⟩⟩ := keyTest?_eq_some test
  · rw [Expr.eq_of_isKeyField bare, items_keepIf, string, (Comparison.keeps_eq_string key _).1,
      name]
    simp only [decide_eq_true_eq, member]
  · rw [Expr.eq_of_isKeyField bare, items_keepIf, string, (Comparison.keeps_eq_string key _).2,
      name]
    simp only [decide_eq_true_eq, member]

/-! ## Arrays -/

/-- Where no element is an array, the leaves are the elements. -/
theorem leavesOfElements_flat (visit : Node → Location → Search) (array : ArrayNode)
    (location : Location) (elements : List Json) (position : Nat)
    (flat : ∀ element ∈ elements, element.isArray = false) :
    leavesOfElements visit elements array.site location position =
      eachElement visit array location position elements := by
  induction elements generalizing position with
  | nil => rfl
  | cons element rest ih =>
    obtain ⟨head, tail⟩ := List.forall_mem_cons.1 flat
    have leaf : ∀ site location,
        leaves visit element site location = visit ⟨element, site⟩ location := by
      intro site location
      cases element with
      | array => cases head
      | _ => rfl
    rw [leavesOfElements, eachElement, leaf, ih (position + 1) tail]
    rfl

/-- Where keys are apart, at most one element carries a key: it is the first. -/
theorem items_eachElement_keyed {visit : Node → Location → Search} {key : String}
    (keeps : ∀ n l, (visit n l).items = if n.value.key? = some key then [.node n l] else [])
    (array : ArrayNode) (location : Location) (elements : List Json) (position : Nat)
    (apart : KeysApart elements) :
    (eachElement visit array location position elements).items =
      ((elements.findIdx? fun element => element.key? = some key).bind fun i =>
        elements[i]?.map fun element =>
          Item.node (array.child (position + i) element) (location ++ [.key key])).toList := by
  induction elements generalizing position with
  | nil => rfl
  | cons element rest ih =>
    obtain ⟨other, behind⟩ := List.pairwise_cons.1 apart
    rw [eachElement, Search.items, Search.items_append, keeps, ih (position + 1) behind,
      List.findIdx?_cons]
    by_cases carries : element.key? = some key
    · -- The key is taken, so no element behind carries it.
      have none_behind : (rest.findIdx? fun element => element.key? = some key) = none := by
        rw [List.findIdx?_eq_none_iff]
        intro later mem
        rw [decide_eq_false_iff_not]
        intro same
        have clash := other later mem (carries.trans same.symm)
        rw [carries] at clash
        cases clash
      simp [ArrayNode.child, carries, none_behind, Step.ofElement]
    · have shift : ∀ i, position + 1 + i = position + (i + 1) := fun i => by omega
      simp only [ArrayNode.child, carries, if_false, List.nil_append, decide_false,
        Bool.false_eq_true, Option.bind_map, Function.comp_def, List.getElem?_cons_succ, shift]

/-- The elements of an array that a key test keeps are the one that a lookup finds. -/
theorem leaves_keyed {left right : Expr} {op : Comparison} {key : String}
    (test : keyTest? left op right = some key) {array : ArrayNode} {location : Location}
    (tidy : Node.Tidy ⟨.array array.elements, array.site⟩ location) :
    (leaves (fun n l => keepIf (left.search n []) op (fun _ => right.search n []) n l)
      (.array array.elements) array.site location).items =
      (Search.lookup array key fun
        | some (position, element) =>
            .node (array.child position element) (location ++ [.key key])
        | none => .done).items := by
  obtain ⟨flat, apart⟩ := tidy
  rw [Json.Flat] at flat
  rw [Json.Apart] at apart
  have first : ((array.elements.findIdx? fun element => element.key? = some key).bind fun i =>
      array.elements[i]?.map fun element =>
        Item.node (array.child (0 + i) element) (location ++ [.key key])) =
      (array.first? key).map fun hit =>
        Item.node (array.child hit.1 hit.2) (location ++ [.key key]) := by
    simp only [ArrayNode.first?, Option.map_bind, Option.map_map, Function.comp_def, Nat.zero_add]
  rw [leaves, leavesOfElements_flat _ array location array.elements 0 flat.1,
    items_eachElement_keyed (fun n l => items_keepIf_keyTest test n l) array location
      array.elements 0 apart.1, first, Search.items]
  cases array.first? key with
  | none => rfl
  | some hit => rfl

/-! ## Trees -/

mutual

/-- In a tidy node, a qualified tree has the items of the tree. -/
theorem Expr.items_qualify : (e : Expr) → {node : Node} → {location : Location} →
    node.Tidy location → (e.qualify.search node location).items = (e.search node location).items
  | .number _, _, _, _ | .string _, _, _, _ | .boolean _, _, _, _ => rfl
  | .path p, _, _, tidy => p.items_qualify tidy

theorem Path.items_qualify : (p : Path) → {node : Node} → {location : Location} →
    node.Tidy location → (p.qualify.search node location).items = (p.search node location).items
  | .start recursive segment, node, location, tidy => by
      rw [Path.qualify, Path.search_start, Path.search_start]
      exact Segment.items_visit_congr downward_tidy (fun _ _ => segment.items_qualify) recursive
        tidy
  | .step base recursive segment, node, location, tidy => by
      have within : (base.search node location).Within _ _ := base.within_search downward_tidy tidy
      rw [Path.qualify, Path.search_step, Path.search_step, Search.items_bind,
        base.items_qualify tidy, ← Search.items_bind]
      refine Search.items_bind_congr within fun n l tidy => ?_
      exact Segment.items_visit_congr downward_tidy (fun _ _ => segment.items_qualify) recursive
        tidy

theorem Segment.items_qualify : (s : Segment) → {node : Node} → {location : Location} →
    node.Tidy location → (s.qualify.search node location).items = (s.search node location).items
  | .this, _, _, _ | .field _, _, _, _ | .wildcard, _, _, _ => rfl
  | .subscript elements, _, _, tidy => Element.items_qualifyAll elements tidy

theorem Element.items_qualify : (e : Element) → {node : Node} → {location : Location} →
    node.Tidy location → (e.qualify.search node location).items = (e.search node location).items
  | .slice _ _, _, _, _ => rfl
  | .filter left op right, node, location, tidy => by
      have operands : ∀ n l, Node.Tidy n l →
          (keepIf (left.qualify.qualified.search n []) op
            (fun _ => right.qualify.qualified.search n []) n l).items =
          (keepIf (left.search n []) op (fun _ => right.search n []) n l).items := by
        intro n l tidy
        have at_root : n.Tidy [] := ⟨tidy.flat, tidy.apart⟩
        rw [items_keepIf, items_keepIf, Expr.search_qualified, Expr.search_qualified,
          left.items_qualify at_root, right.items_qualify at_root]
      have compared := items_leaves_congr downward_tidy operands tidy
      unfold Element.qualify Element.search
      rw [keyTest?_qualified]
      cases test : keyTest? left op right with
      | none => exact compared
      | some key =>
        cases is : node.array? with
        | none => exact compared
        | some array =>
          rw [Node.eq_array is] at tidy compared ⊢
          exact compared.trans (leaves_keyed test tidy)
  | .existence p, node, location, tidy => by
      have operand : ∀ n l, Node.Tidy n l →
          (keepIfFound (p.qualify.search n []) n l).items =
            (keepIfFound (p.search n []) n l).items := by
        intro n l tidy
        have at_root : n.Tidy [] := ⟨tidy.flat, tidy.apart⟩
        rw [items_keepIfFound, items_keepIfFound, p.items_qualify at_root]
      unfold Element.qualify Element.search
      cases is : node.array? with
      | none => exact operand node location tidy
      | some array =>
        rw [Node.eq_array is] at tidy
        exact items_eachElement_congr downward_tidy operand tidy
  | .expr (.number _), _, _, _ | .expr (.string _), _, _, _ | .expr (.boolean _), _, _, _ => rfl
  | .expr (.path p), _, _, tidy => p.items_qualify tidy

theorem Element.items_qualifyAll : (elements : List Element) → {node : Node} →
    {location : Location} → node.Tidy location →
      (Element.searchAll (Element.qualifyAll elements) node location).items =
        (Element.searchAll elements node location).items
  | [], _, _, _ => rfl
  | element :: rest, _, _, tidy => by
      rw [Element.qualifyAll, Element.searchAll, Element.searchAll, Search.items_append,
        Search.items_append, element.items_qualify tidy, Element.items_qualifyAll rest tidy]

end

/-- In a document in which no array stands in an array and keys are apart, it makes no
difference to the matches whether keys are looked up or compared. -/
theorem Expr.queryAt_qualify (expr : Expr) (document : Document) (base : Location)
    (flat : document.root.Flat) (apart : document.root.Apart) :
    expr.qualify.queryAt document base = expr.queryAt document base := by
  have tidy : (Node.ofDocument 0 0 document).Tidy base := ⟨flat, apart⟩
  rw [queryAt_eq_reported, queryAt_eq_reported, expr.items_qualify tidy]

/-- The key `b` is looked up in the array, and compared in each of its elements. -/
theorem Expr.queryAt_qualify_found :
    let keyed (key : String) : Json := .object [("_key", .string key)]
    let name : Expr := .path (.start false (.field "_key"))
    let document := Document.ofJson (.array [keyed "a", keyed "b"])
    let found : Expr := .path (.start false (.subscript
      [.filter name .eq (.string "b"),
        .existence (.start false (.subscript [.filter (.string "b") .eq name]))]))
    found.qualify.queryAt document [] = [⟨⟨keyed "b", ⟨0, 0, [1]⟩⟩, [.key "b"]⟩] := by
  intro keyed name document found
  have differ : (keyed "a").key? ≠ (keyed "b").key? := by decide
  have apart : document.root.Apart :=
    ⟨.cons (by rintro _ (_ | ⟨_, ⟨⟩⟩) same; exact absurd same differ) (.cons nofun .nil),
      ⟨trivial, trivial⟩, ⟨trivial, trivial⟩, trivial⟩
  have flat : document.root.Flat :=
    ⟨by decide, ⟨trivial, trivial⟩, ⟨trivial, trivial⟩, trivial⟩
  calc found.qualify.queryAt document []
    _ = found.queryAt document [] := Expr.queryAt_qualify found document [] flat apart
    _ = [⟨⟨keyed "b", ⟨0, 0, [1]⟩⟩, [.key "b"]⟩] := rfl

end JsonQuery

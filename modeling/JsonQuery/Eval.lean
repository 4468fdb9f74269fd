/-
# JsonQuery.Eval -- the search that an expression means

`Expr.search` turns an expression, a node and its location into a search.  The
location is carried along for the items found and decides nothing; operands of
comparisons and existence checks are searched with the empty one.

The rules:

* a path applies each step to everything that the steps before it found, and a
  recursive step also to everything below, in pre-order (`descend`);
* a slice and an index take elements of an array and nothing else;
* a comparison keeps a value, or, of an array, the leaves for which it holds: arrays
  in it are opened to any depth (`leaves`).  A test of a bare `_key` for a string
  asks the key cache instead;
* an existence check keeps a value, or, of an array, some of its elements.
-/
import JsonQuery.Expr
import JsonQuery.Search

namespace JsonQuery

set_option autoImplicit false

/-! ## Positions in an array -/

/-- The position that a slice bound means: a negative one counts from the end, and
none lies outside the array. -/
def slicePosition (bound : Int) (length : Nat) : Nat :=
  min (if bound < 0 then bound + length else bound).toNat length

/-- The range of positions that a slice takes, its first and the one behind its
last. -/
def sliceRange (first last : Option Int) (length : Nat) : Nat × Nat :=
  ((first.map fun bound => slicePosition bound length).getD 0,
    (last.map fun bound => slicePosition bound length).getD length)

/-- The position that a number means as an index: a negative one counts from the
end, and one that is no position of the array means none. -/
def indexPosition? (value : Double) (length : Nat) : Option Nat := do
  let n ← value.toInt?
  let position := if n < 0 then n + length else n
  if 0 ≤ position ∧ position < length then some position.toNat else none

/-! ## Walks through a value -/

/-- Fetches elements of an array one after the other, from a position on, and visits
each. -/
def eachElement (visit : Node → Location → Search) (array : ArrayNode) (location : Location)
    (position : Nat) : List Json → Search
  | [] => .done
  | element :: rest =>
      .fetch ⟨array.identity, position⟩ fun _ =>
        (visit (array.child position element)
          (location ++ [.ofElement position element])).append fun _ =>
            eachElement visit array location (position + 1) rest

/-- The members of an object, from a position on. -/
def eachMember (site : Site) (location : Location) (position : Nat) :
    List (String × Json) → Search
  | [] => .done
  | (name, value) :: rest =>
      .found (.node ⟨value, site.child position⟩ (location ++ [.field name])) fun _ =>
        eachMember site location (position + 1) rest

/-- The elements of an array or the members of an object. -/
def children (node : Node) (location : Location) : Search :=
  match node.value with
  | .array elements => eachElement .node ⟨elements, node.site⟩ location 0 elements
  | .object members => eachMember node.site location 0 members
  | _ => .done

mutual

/-- Visits a value and then everything below it, in pre-order. -/
def descend (visit : Node → Location → Search) :
    (value : Json) → (site : Site) → (location : Location) → Search
  | .array elements, site, location =>
      (visit ⟨.array elements, site⟩ location).append fun _ =>
        descendElements visit elements site location 0
  | .object members, site, location =>
      (visit ⟨.object members, site⟩ location).append fun _ =>
        descendMembers visit members site location 0
  | value, site, location => visit ⟨value, site⟩ location

def descendElements (visit : Node → Location → Search) :
    (elements : List Json) → (site : Site) → (location : Location) → (position : Nat) → Search
  | [], _, _, _ => .done
  | element :: rest, site, location, position =>
      .fetch ⟨site.identity, position⟩ fun _ =>
        (descend visit element (site.child position)
          (location ++ [.ofElement position element])).append fun _ =>
            descendElements visit rest site location (position + 1)

def descendMembers (visit : Node → Location → Search) :
    (members : List (String × Json)) → (site : Site) → (location : Location) →
      (position : Nat) → Search
  | [], _, _, _ => .done
  | (name, value) :: rest, site, location, position =>
      (descend visit value (site.child position) (location ++ [.field name])).append fun _ =>
        descendMembers visit rest site location (position + 1)

end

mutual

/-- Visits a value, or, of an array, its elements, arrays among them opened in their
turn. -/
def leaves (visit : Node → Location → Search) :
    (value : Json) → (site : Site) → (location : Location) → Search
  | .array elements, site, location => leavesOfElements visit elements site location 0
  | value, site, location => visit ⟨value, site⟩ location

def leavesOfElements (visit : Node → Location → Search) :
    (elements : List Json) → (site : Site) → (location : Location) → (position : Nat) → Search
  | [], _, _, _ => .done
  | element :: rest, site, location, position =>
      .fetch ⟨site.identity, position⟩ fun _ =>
        (leaves visit element (site.child position)
          (location ++ [.ofElement position element])).append fun _ =>
            leavesOfElements visit rest site location (position + 1)

end

/-! ## Expressions -/

/-- Keeps a node if both operands have a first item and the comparison of the two
holds.  Without a left item the right operand is not searched. -/
def keepIf (left : Search) (op : Comparison) (right : Unit → Search) (node : Node)
    (location : Location) : Search :=
  left.first fun
    | none => .done
    | some x =>
        (right ()).first fun
          | none => .done
          | some y => if op.holds x.scalar y.scalar then .node node location else .done

/-- Keeps a node if a search has an item. -/
def keepIfFound (search : Search) (node : Node) (location : Location) : Search :=
  search.first fun
    | none => .done
    | some _ => .node node location

mutual

/-- The search for an expression, with a node as the current value. -/
def Expr.search : Expr → Node → Location → Search
  | .number value, _, _ => .item (.literal (.number value))
  | .string value, _, _ => .item (.literal (.string value))
  | .boolean value, _, _ => .item (.literal (.boolean value))
  | .path p, node, location => p.search node location

def Path.search : Path → Node → Location → Search
  | .start recursive segment, node, location =>
      if recursive then
        descend segment.search node.value node.site location
      else
        segment.search node location
  | .step base recursive segment, node, location =>
      (base.search node location).bind fun n l =>
        if recursive then descend segment.search n.value n.site l else segment.search n l

def Segment.search : Segment → Node → Location → Search
  | .this, node, location => .node node location
  | .field name, node, location =>
      match node.member? name with
      | some member => .node member (location ++ [.field name])
      | none => .done
  | .wildcard, node, location => children node location
  | .subscript elements, node, location => Element.searchAll elements node location

def Element.search : Element → Node → Location → Search
  | .slice first last, node, location =>
      match node.array? with
      | none => .done
      | some array =>
          let (start, stop) := sliceRange first last array.length
          eachElement .node array location start ((array.elements.take stop).drop start)
  | .filter left op right, node, location =>
      match keyTest? left op right, node.array? with
      | some key, some array =>
          .lookup array key fun
            | some (position, element) =>
                .node (array.child position element) (location ++ [.key key])
            | none => .done
      | _, _ =>
          leaves (fun n l => keepIf (left.search n []) op (fun _ => right.search n []) n l)
            node.value node.site location
  | .existence path, node, location =>
      match node.array? with
      | none => keepIfFound (path.search node []) node location
      | some array =>
          eachElement (fun n l => keepIfFound (path.search n []) n l) array location 0
            array.elements
  | .expr (.number value), node, location =>
      match node.array? with
      | none => .done
      | some array =>
          match indexPosition? value array.length with
          | none => .done
          | some position =>
              eachElement .node array location position
                ((array.elements.drop position).take 1)
  | .expr e, node, location => e.search node location

/-- The elements of a subscript in turn. -/
def Element.searchAll : List Element → Node → Location → Search
  | [], _, _ => .done
  | element :: rest, node, location =>
      (element.search node location).append fun _ => Element.searchAll rest node location

end

end JsonQuery

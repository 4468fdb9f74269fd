/-
# JsonQuery.Proofs.Eval.Alike -- an expression sees an element only by fetching it

The search for an expression at two nodes that agree on the elements fetched is alike
(`Expr.alike_search`): wherever it looks at an element, at its key or at anything below
it, it does so behind the fetch of that element.  Which positions a slice or an index
takes, and whether there is an array at all, can be told without a fetch.
-/
import JsonQuery.Proofs.Eval.Congruence
import JsonQuery.Proofs.Search.Alike

namespace JsonQuery

set_option autoImplicit false

variable {fetched : Read → Prop}

/-! ## Values that agree -/

/-- Nodes that are alike, at one location. -/
def AlikeAt (fetched : Read → Prop) (node : Node) (location : Location) (node' : Node)
    (location' : Location) : Prop :=
  node.Alike fetched node' ∧ location' = location

theorem Json.AgreesElements.related {elements others : List Json} {site : Site} {position : Nat}
    (agree : AgreesElements fetched elements others site position) (location : Location) :
    RelatedElements fetched (AlikeAt fetched) site site location location position elements
      others := by
  induction elements generalizing others position with
  | nil =>
    cases others with
    | nil => exact .nil
    | cons => cases agree
  | cons element rest ih =>
    cases others with
    | nil => cases agree
    | cons other others =>
      obtain ⟨first, behind⟩ := agree
      refine .cons (fun read => ⟨⟨rfl, first read⟩, ?_⟩) (ih behind)
      rw [Step.ofElement_agrees (first read)]

theorem Json.AgreesMembers.related {members others : List (String × Json)} {site : Site}
    {position : Nat} (agree : AgreesMembers fetched members others site position)
    (location : Location) :
    RelatedMembers (AlikeAt fetched) site site location location position members others := by
  induction members generalizing others position with
  | nil =>
    cases others with
    | nil => exact .nil
    | cons => cases agree
  | cons member rest ih =>
    obtain ⟨name, value⟩ := member
    cases others with
    | nil => cases agree
    | cons other others =>
      obtain ⟨name', value'⟩ := other
      obtain ⟨rfl, first, behind⟩ := agree
      exact .cons ⟨⟨rfl, first⟩, rfl⟩ (ih behind)

theorem AlikeAt.opened {node node' : Node} {location location' : Location}
    (alike : AlikeAt fetched node location node' location') :
    OpenedAlike Eq fetched (AlikeAt fetched) node location node' location' := by
  obtain ⟨value, site⟩ := node
  obtain ⟨value', site'⟩ := node'
  obtain ⟨⟨rfl, agree⟩, rfl⟩ := alike
  cases value with
  | array elements =>
    cases value' with
    | array others => exact .array rfl (Json.AgreesElements.related agree location')
    | _ => cases agree
  | object members =>
    cases value' with
    | object others => exact .object (Json.AgreesMembers.related agree location')
    | _ => cases agree
  | _ => cases value' <;> first | exact .plain trivial trivial | cases agree

/-! ## Searches -/

theorem alike_node {node node' : Node} (alike : node.Alike fetched node') (location : Location) :
    (Search.node node location).Alike fetched (.node node' location) :=
  .found (.node alike location) .done

theorem alike_keyed {array array' : ArrayNode} (alike : array.Alike fetched array') (key : String)
    (location : Location) :
    (array.keyed key location).Alike fetched (array'.keyed key location) := by
  refine .lookup alike fun answer answer' hits => ?_
  cases hits with
  | none => exact .done
  | @some hit hit' agree =>
    obtain ⟨position, element⟩ := hit
    obtain ⟨position', element'⟩ := hit'
    obtain rfl : position = position' := agree.position
    exact alike_node (alike.child agree.value) _

/-- What a comparison keeps depends on what it sees of its operands. -/
theorem alike_keepIf {left left' right right' : Search} (one : left.Alike fetched left')
    (op : Comparison) (two : right.Alike fetched right') {node node' : Node}
    (alike : node.Alike fetched node') (location : Location) :
    (keepIf left op (fun _ => right) node location).Alike fetched
      (keepIf left' op (fun _ => right') node' location) := by
  refine Search.alike_first one .done fun x x' first => ?_
  refine Search.alike_first two .done fun y y' second => ?_
  dsimp only
  rw [first.scalar, second.scalar]
  split
  · exact alike_node alike location
  · exact .done

theorem alike_keepIfFound {search search' : Search} (one : search.Alike fetched search')
    {node node' : Node} (alike : node.Alike fetched node') (location : Location) :
    (keepIfFound search node location).Alike fetched (keepIfFound search' node' location) :=
  Search.alike_first one .done fun _ _ _ => alike_node alike location

/-- Nodes at one location that agree, and searches that are alike. -/
def Congruence.alike (fetched : Read → Prop) : Congruence Unit where
  nodes _ := AlikeAt fetched
  searches _ _ := Search.Alike fetched
  sites := Eq
  known := fetched
  operand := id
  sequential _ _ := {
    done := .done
    append := fun first second => Search.alike_append first second
    fetch := by
      rintro site _ position next next' rfl same
      exact .fetch same }
  opened _ _ _ _ _ := AlikeAt.opened
  at_operand := fun ⟨alike, _⟩ => ⟨alike, rfl⟩
  node := by
    rintro _ _ n l n' _ ⟨alike, rfl⟩
    exact alike_node alike _
  literal _ := .found (.literal _) .done
  bind alike visits := Search.alike_bind alike fun n n' l nodes => visits n l n' l ⟨nodes, rfl⟩
  keyed := by
    rintro _ _ elements elements' site site' l _ key ⟨⟨same, agree⟩, rfl⟩
    have arrays : ArrayNode.Alike fetched ⟨elements, site⟩ ⟨elements', site'⟩ := ⟨same, agree⟩
    exact alike_keyed arrays key _
  compared := by
    rintro _ _ left left' right right' n n' l _ op one two ⟨alike, rfl⟩
    exact alike_keepIf one op two alike _
  checked := by
    rintro _ _ one two n n' l _ search ⟨alike, rfl⟩
    exact alike_keepIfFound search alike _

/-- At two nodes that agree on the elements fetched, an expression is searched alike. -/
theorem Expr.alike_search (e : Expr) (one two : Node) (location : Location)
    (alike : one.Alike fetched two) :
    (e.search one location).Alike fetched (e.search two location) := by
  have nodes : AlikeAt fetched one location two location := ⟨alike, rfl⟩
  exact (Congruence.alike fetched).expr e (i := ()) one location two location nodes

end JsonQuery

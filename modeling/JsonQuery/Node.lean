/-
# JsonQuery.Node -- values in their place

A query works on nodes: values together with the site where they stand.  Two nodes
are the same array, or the same object, if their identities agree; what they hold
does not matter.

A site counts children: the way to a value is the list of its position among the
elements or members at each level.  It also names the document and its revision.
A document keeps the identity of its root through all revisions, and every new
revision gives everything below the root a new one.
-/
import JsonQuery.Json

namespace JsonQuery

set_option autoImplicit false

/-- A place in a revision of a document. -/
structure Site where
  document : Nat
  revision : Nat
  /-- The position among the children at each level, from the root on. -/
  ordinals : List Nat
deriving DecidableEq, Inhabited

namespace Site

/-- The place of the root of a document. -/
def root (document revision : Nat) : Site := ⟨document, revision, []⟩

/-- The place of a child. -/
def child (site : Site) (position : Nat) : Site :=
  { site with ordinals := site.ordinals ++ [position] }

end Site

/-- What tells one array or object from another. -/
structure Identity where
  document : Nat
  revision : Nat
  ordinals : List Nat
deriving DecidableEq, Inhabited

/-- The identity of what stands at a site: a root has the same one in every
revision. -/
def Site.identity (site : Site) : Identity :=
  ⟨site.document, if site.ordinals.isEmpty then 0 else site.revision, site.ordinals⟩

namespace Identity

/-- An identity as a list of numbers. -/
def toList (identity : Identity) : List Nat :=
  identity.document :: identity.revision :: identity.ordinals

theorem toList_injective {x y : Identity} (same : x.toList = y.toList) : x = y := by
  cases x
  cases y
  simp_all [toList]

end Identity

/-- A value in its place. -/
structure Node where
  value : Json
  site : Site
deriving Inhabited

/-- An array in its place. -/
structure ArrayNode where
  elements : List Json
  site : Site
deriving Inhabited

namespace ArrayNode

def identity (array : ArrayNode) : Identity := array.site.identity

def length (array : ArrayNode) : Nat := array.elements.length

/-- The node of an element. -/
def child (array : ArrayNode) (position : Nat) (element : Json) : Node :=
  ⟨element, array.site.child position⟩

end ArrayNode

namespace Node

/-- The root of a document. -/
def ofDocument (document revision : Nat) (content : Document) : Node :=
  ⟨content.root, .root document revision⟩

def identity (node : Node) : Identity := node.site.identity

/-- The array that stands at a node. -/
def array? (node : Node) : Option ArrayNode :=
  match node.value with
  | .array elements => some ⟨elements, node.site⟩
  | _ => none

/-- The member of an object with a given name. -/
def member? (node : Node) (name : String) : Option Node :=
  match node.value with
  | .object members =>
      (Json.findMember members name).map fun (position, value) => ⟨value, node.site.child position⟩
  | _ => none

/-- The element of an array at a position. -/
def element? (node : Node) (position : Nat) : Option Node :=
  node.array?.bind fun array => array.elements[position]?.map (array.child position)

end Node

end JsonQuery

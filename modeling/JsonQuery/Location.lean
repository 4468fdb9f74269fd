/-
# JsonQuery.Location -- where a match stands

A location is a list of steps down from the root of a document.  An array element
that has a string `_key` is named by it and every other element by its position.

The JSON form of a location needs no tags: an integer is a position, a string a
member, and an object with a string `key` a keyed element.  Of such an object all
other members are ignored.
-/
import JsonQuery.Expr
import JsonQuery.Json

namespace JsonQuery

set_option autoImplicit false

/-- One step of a location. -/
inductive Step where
  | index (position : Nat)
  | field (name : String)
  | key (key : String)
deriving DecidableEq, Inhabited

/-- The way from the root of a document to a value in it. -/
abbrev Location := List Step

namespace Step

/-- The JSON form of a step. -/
def toJson : Step → Json
  | .index position => .number (.int position)
  | .field name => .string name
  | .key k => .object [("key", .string k)]

/-- The step with a given JSON form.  A position fits into 64 bits. -/
def ofJson? : Json → Option Step
  | .number (.int position) =>
      if 0 ≤ position ∧ position < UInt64.size then some (.index position.toNat) else none
  | .string name => some (.field name)
  | .object members => ((Json.object members).member? "key").bind fun value =>
      value.string?.map .key
  | _ => none

end Step

namespace Location

/-- The JSON form of a location. -/
def toJson (location : Location) : Json := .array (location.map Step.toJson)

/-- The location with a given JSON form. -/
def ofJson? : Json → Option Location
  | .array elements => elements.mapM Step.ofJson?
  | _ => none

end Location

/-- The string that names an array element. -/
def Json.key? (element : Json) : Option String :=
  (element.member? keyField).bind Json.string?

/-- The step from an array to its element at a position. -/
def Step.ofElement (position : Nat) (element : Json) : Step :=
  match element.key? with
  | some k => .key k
  | none => .index position

end JsonQuery

/-
# JsonQuery.Scalar -- what a comparison sees of a value

A comparison looks at values through scalars: null, booleans, numbers and strings
as they are, arrays and objects only as identities.  There is no coercion between
kinds.  Every two scalars are equal or different; order exists between numbers
alone.
-/
import JsonQuery.Comparison
import JsonQuery.Node

namespace JsonQuery

set_option autoImplicit false

/-- One side of a comparison. -/
inductive Scalar where
  | null
  | boolean (value : Bool)
  | number (value : Double)
  | string (value : String)
  | array (identity : Identity)
  | object (identity : Identity)
deriving DecidableEq, Inhabited

namespace Scalar

/-- What a comparison sees of a node.  A foreign value counts as null. -/
def ofNode (node : Node) : Scalar :=
  match node.value with
  | .null => .null
  | .boolean value => .boolean value
  | .number value => .number value.toDouble
  | .string value => .string value
  | .array _ => .array node.identity
  | .object _ => .object node.identity
  | .foreign _ => .null

/-- Equality within a kind; numbers are equal as numbers. -/
def equal : Scalar → Scalar → Bool
  | .null, .null => true
  | .boolean x, .boolean y => x = y
  | .number x, .number y => x.equal y
  | .string x, .string y => x = y
  | .array x, .array y => x = y
  | .object x, .object y => x = y
  | _, _ => false

end Scalar

/-- Whether a comparison of two scalars holds. -/
def Comparison.holds (op : Comparison) (left right : Scalar) : Bool :=
  match op, left, right with
  | .eq, x, y => x.equal y
  | .ne, x, y => !x.equal y
  | .lt, .number x, .number y => x.less y
  | .le, .number x, .number y => x.less y || x.equal y
  | .gt, .number x, .number y => y.less x
  | .ge, .number x, .number y => y.less x || x.equal y
  | _, _, _ => false

end JsonQuery

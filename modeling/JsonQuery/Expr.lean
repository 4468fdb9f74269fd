/-
# JsonQuery.Expr -- expressions, as trees

An expression is a literal or a path.  A path is a chain of steps that begins at
the current value; it grows at its end, so that a path is a shorter path with one
step more (`Path.step`).  A step applies its segment to what the shorter path
finds, a recursive step also to everything below.

The types admit more trees than expressions have texts: a first step that is
recursive, a subscript without elements, numbers that are not finite.  Such trees
have a meaning all the same.

* `Expr.same` compares trees as values: numbers by `Double.equal`, so a tree with
  a NaN differs from itself, and `0` is `-0`.
* `Path.isKeyField` recognises the bare name `_key`, which has a meaning of its own
  in a comparison with a string.
-/
import JsonQuery.Comparison
import JsonQuery.Double

namespace JsonQuery

set_option autoImplicit false

/-- The member that names an array element. -/
def keyField : String := "_key"

mutual

/-- An expression. -/
inductive Expr where
  | number (value : Double)
  | string (value : String)
  | boolean (value : Bool)
  | path (path : Path)

/-- A chain of steps from the current value. -/
inductive Path where
  /-- The first step of a path. -/
  | start (recursive : Bool) (segment : Segment)
  /-- A path with one step more. -/
  | step (base : Path) (recursive : Bool) (segment : Segment)

/-- What one step of a path does to a value. -/
inductive Segment where
  /-- Keeps the value itself. -/
  | this
  /-- Takes a member of an object. -/
  | field (name : String)
  /-- Takes every element of an array and every member of an object. -/
  | wildcard
  /-- Applies each element in turn. -/
  | subscript (elements : List Element)

/-- An element of a subscript. -/
inductive Element where
  /-- Takes a range of array elements. -/
  | slice (first last : Option Int)
  /-- Keeps the values for which a comparison holds. -/
  | filter (left : Expr) (op : Comparison) (right : Expr)
  /-- Keeps the values on which a path finds something. -/
  | existence (path : Path)
  /-- Takes the array element at a position, or what an expression finds. -/
  | expr (expr : Expr)

end

instance : Inhabited Expr := ⟨.boolean false⟩
instance : Inhabited Segment := ⟨.this⟩
instance : Inhabited Path := ⟨.start false .this⟩
instance : Inhabited Element := ⟨.slice none none⟩

/-! ## Equality of trees -/

mutual

def Expr.same : Expr → Expr → Bool
  | .number x, .number y => x.equal y
  | .string x, .string y => x = y
  | .boolean x, .boolean y => x = y
  | .path x, .path y => x.same y
  | _, _ => false

def Path.same : Path → Path → Bool
  | .start r s, .start r' s' => r = r' && s.same s'
  | .step b r s, .step b' r' s' => b.same b' && r = r' && s.same s'
  | _, _ => false

def Segment.same : Segment → Segment → Bool
  | .this, .this => true
  | .field x, .field y => x = y
  | .wildcard, .wildcard => true
  | .subscript xs, .subscript ys => Element.sameAll xs ys
  | _, _ => false

def Element.same : Element → Element → Bool
  | .slice f l, .slice f' l' => f = f' && l = l'
  | .filter l op r, .filter l' op' r' => l.same l' && op = op' && r.same r'
  | .existence x, .existence y => x.same y
  | .expr x, .expr y => x.same y
  | _, _ => false

def Element.sameAll : List Element → List Element → Bool
  | [], [] => true
  | x :: xs, y :: ys => x.same y && Element.sameAll xs ys
  | _, _ => false

end

/-! ## Shapes with a meaning of their own -/

/-- The path `@`. -/
def Path.this : Path := .start false .this

/-- Whether a path is the bare name `_key`. -/
def Path.isKeyField : Path → Bool
  | .start false (.field name) => name = keyField
  | _ => false

/-- Whether an expression is the bare name `_key`. -/
def Expr.isKeyField : Expr → Bool
  | .path p => p.isKeyField
  | _ => false

/-- The string that a comparison asks to be the `_key` of a value: it must test a
bare `_key` and a string for equality, in either order. -/
def keyTest? (left : Expr) (op : Comparison) (right : Expr) : Option String :=
  match op, left, right with
  | .eq, .path path, .string key => if path.isKeyField then some key else none
  | .eq, .string key, .path path => if path.isKeyField then some key else none
  | _, _, _ => none

end JsonQuery

/-
# JsonQuery.Expr.Stable -- trees that their canonical form spells

A tree is stable if reading its canonical form gives the same tree again, with the
same canonical form.  The trees that texts spell are.
-/
import JsonQuery.Expr.Canonical
import JsonQuery.Expr.Reader

namespace JsonQuery

set_option autoImplicit false

/-- Whether the canonical form of a tree spells the tree. -/
def Expr.isStable (expr : Expr) : Bool :=
  match Expr.parse expr.canonical with
  | .ok again => again.same expr && again.canonical = expr.canonical
  | .error _ => false

end JsonQuery

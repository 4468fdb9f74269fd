/-
# JsonQuery.Proofs.Eval.Behind -- a longer location decides nothing

A search that begins behind a base is the search that begins without it, with the base
put before each location found (`Expr.search_behind`): it fetches and looks up the same,
and keeps the same.  The operands of a comparison and the path of an existence check begin at
the empty location in either case, which is behind no base.
-/
import JsonQuery.Proofs.Eval.Congruence

namespace JsonQuery

set_option autoImplicit false

/-- An item with a base before its location. -/
def Item.behind (base : Location) : Item → Item
  | .node n location => .node n (base ++ location)
  | .literal value => .literal value

/-- A search with a base before each location that it finds. -/
def Search.behind (base : Location) : Search → Search
  | .done => .done
  | .found item next => .found (item.behind base) fun _ => (next ()).behind base
  | .fetch read next => .fetch read fun _ => (next ()).behind base
  | .lookup array key next => .lookup array key fun found => (next found).behind base

namespace Search

theorem behind_nil (search : Search) : search.behind [] = search := by
  induction search with
  | done => rfl
  | found item next ih => cases item <;> simp only [behind, Item.behind, List.nil_append, ih]
  | fetch read next ih | lookup array key next ih => simp only [behind, ih]

theorem behind_append (base : Location) (one : Search) (two : Unit → Search) :
    (one.append two).behind base = (one.behind base).append fun _ => (two ()).behind base := by
  induction one with
  | done => rfl
  | found item next ih | fetch read next ih | lookup array key next ih =>
    simp only [append, behind, ih]

theorem behind_bind {base : Location} {visit visit' : Node → Location → Search}
    (visits : ∀ n l, visit' n (base ++ l) = (visit n l).behind base) (search : Search) :
    (search.behind base).bind visit' = (search.bind visit).behind base := by
  induction search with
  | done => rfl
  | found item next ih =>
    cases item with
    | node n location => simp only [behind, Item.behind, bind, behind_append, visits, ih]
    | literal value => exact ih ()
  | fetch read next ih | lookup array key next ih => simp only [bind, behind, ih]

/-- What goes on behind the first item of a search goes on behind the base. -/
theorem behind_first {base : Location} {resume resume' : Option Item → Search}
    (resumes : ∀ item, resume' item = (resume item).behind base) (search : Search) :
    search.first resume' = (search.first resume).behind base := by
  induction search with
  | done => exact resumes none
  | found item next ih => exact resumes (some item)
  | fetch read next ih | lookup array key next ih => simp only [first, behind, ih]

end Search

theorem keepIf_behind (base : Location) (left : Search) (op : Comparison) (right : Search)
    (node : Node) (location : Location) :
    keepIf left op (fun _ => right) node (base ++ location) =
      (keepIf left op (fun _ => right) node location).behind base := by
  refine Search.behind_first (fun one => ?_) left
  cases one with
  | none => rfl
  | some x =>
    refine Search.behind_first (fun two => ?_) right
    cases two with
    | none => rfl
    | some y =>
      dsimp only
      split <;> rfl

theorem keepIfFound_behind (base : Location) (search : Search) (node : Node)
    (location : Location) :
    keepIfFound search node (base ++ location) =
      (keepIfFound search node location).behind base := by
  refine Search.behind_first (fun found => ?_) search
  cases found <;> rfl

/-- A node behind a base, and a search with a base before what it finds. -/
def Congruence.behind : Congruence Location where
  nodes base n l n' l' := n' = n ∧ l' = base ++ l
  searches base _ one two := two = one.behind base
  sites one two := two = one
  known _ := True
  operand _ := []
  sequential base _ := {
    done := rfl
    append := by
      rintro one _ two _ rfl rfl
      exact (Search.behind_append base one fun _ => two).symm
    fetch := by
      rintro site _ position next next' rfl same
      rw [Search.behind, ← same trivial] }
  opened := by
    rintro base ⟨value, site⟩ l _ _ ⟨rfl, rfl⟩
    refine OpenedAlike.of_value ?_ value ?_ ?_
    · rfl
    · exact fun _ _ _ _ _ => ⟨rfl, List.append_assoc ..⟩
    · exact fun _ _ _ _ _ _ => ⟨rfl, List.append_assoc ..⟩
  at_operand := fun ⟨same, _⟩ => ⟨same, rfl⟩
  node := by
    rintro base b n l _ _ ⟨rfl, rfl⟩
    rfl
  literal _ := rfl
  bind := by
    rintro base b one _ visit visit' rfl visits
    exact Search.behind_bind (fun n l => visits n l n _ ⟨rfl, rfl⟩) one
  keyed := by
    rintro base b elements _ site _ l _ key ⟨⟨⟩, rfl⟩
    simp only [ArrayNode.keyed, Search.behind, List.append_assoc]
    refine congrArg (Search.lookup _ key) (funext fun found => ?_)
    cases found <;> rfl
  compared := by
    rintro base b left _ right _ n _ l _ op rfl rfl ⟨rfl, rfl⟩
    rw [Search.behind_nil, Search.behind_nil]
    exact keepIf_behind base left op right _ l
  checked := by
    rintro base b search _ n _ l _ rfl ⟨rfl, rfl⟩
    rw [Search.behind_nil]
    exact keepIfFound_behind base search _ l

/-- Behind a base, the search for an expression is the one without it, put behind the base. -/
theorem Expr.search_behind (base : Location) (e : Expr) (node : Node) (location : Location) :
    e.search node (base ++ location) = (e.search node location).behind base :=
  Congruence.behind.expr e node location node _ ⟨rfl, rfl⟩

end JsonQuery

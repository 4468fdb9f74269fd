/-
# JsonQuery.Proofs.Query.Base -- the base of a query is a prefix and nothing more

With a base before every location, a location is new exactly if it is without the base
(`SeenBehind`).  So a query behind a base runs as the query without one: it fetches and
looks up the same, and reports the same nodes in the same order, with the base before
their locations (`Search.collect_behind`, `Expr.queryAt_behind`).
-/
import JsonQuery.Proofs.Eval.Behind
import JsonQuery.Proofs.Query.Reported

namespace JsonQuery

set_option autoImplicit false

/-- A match with a base before its location. -/
def Match.behind (base : Location) (found : Match) : Match := ⟨found.node, base ++ found.location⟩

/-- Behind a base those locations have been seen that have been seen without it. -/
def SeenBehind (base : Location) (seen seen' : Seen) : Prop :=
  ∀ location, seen'.has (base ++ location) = seen.has location

theorem seenBehind_none (base : Location) : SeenBehind base .none .none := fun location =>
  (Seen.has_none _).trans (Seen.has_none location).symm

/-- A location is new behind a base if it is new without it, and both remember it. -/
theorem SeenBehind.insert {base : Location} {seen seen' : Seen} (behind : SeenBehind base seen seen')
    (location : Location) :
    (seen'.insert (base ++ location)).1 = (seen.insert location).1 ∧
      SeenBehind base (seen.insert location).2 (seen'.insert (base ++ location)).2 := by
  constructor
  · rw [Seen.fst_insert, Seen.fst_insert, behind]
  · intro other
    rw [Seen.has_insert, Seen.has_insert, behind]
    simp only [List.append_cancel_left_eq]

/-- What is collected behind a base is what is collected without it, with the base before
each location, and the run is the same: the same elements are fetched and the cache is left
the same. -/
theorem Search.collect_behind {base : Location} (search : Search) (limit : Option Nat)
    {seen seen' : Seen} (behind : SeenBehind base seen seen') (run : Run) :
    (search.behind base).collect limit seen' run =
      ((search.collect limit seen run).1.map (.behind base),
        (search.collect limit seen run).2) := by
  induction search generalizing limit seen seen' run with
  | done => cases limit with
    | none => rfl
    | some n => cases n <;> rfl
  | found item next ih =>
    by_cases stop : limit = some 0
    · subst stop
      rfl
    cases item with
    | literal =>
      simp only [Search.behind, Item.behind, collect]
      exact ih () limit behind run
    | node node location =>
      obtain ⟨same, after⟩ := behind.insert location
      rcases inserted : seen.insert location with ⟨fresh, seen₁⟩
      rcases inserted' : seen'.insert (base ++ location) with ⟨fresh', seen₂⟩
      rw [inserted, inserted'] at same after
      cases same
      simp only [Search.behind, Item.behind, collect, inserted, inserted']
      cases fresh with
      | true => simp only [ih () (limit.map Nat.pred) after run, List.map_cons, Match.behind]
      | false => exact ih () limit after run
  | fetch read next ih =>
    by_cases stop : limit = some 0
    · subst stop
      rfl
    simp only [Search.behind, collect]
    exact ih () limit behind _
  | lookup array key next ih =>
    by_cases stop : limit = some 0
    · subst stop
      rfl
    simp only [Search.behind, collect]
    exact ih _ limit behind _

/-- A query at a base reports the nodes that it reports without one, in the same order, each
with the base before its location.  What it fetches, looks up and keeps does not depend on
the base: the search is the same but for the locations found, and from whatever cache, and
up to whatever number of matches, so is its run. -/
theorem Expr.queryAt_behind (expr : Expr) (document : Document) (base : Location) :
    expr.queryAt document base = (expr.query document).map (.behind base) ∧
      (∀ node, expr.search node base = (expr.search node []).behind base) ∧
      ∀ limit run,
        (expr.cursor document base).collect limit run =
          (((expr.cursor document []).collect limit run).1.map (.behind base),
            ((expr.cursor document []).collect limit run).2) := by
  have search : ∀ node, expr.search node base = (expr.search node []).behind base := by
    intro node
    simpa using expr.search_behind base node []
  have collected : ∀ limit run, (expr.cursor document base).collect limit run =
      (((expr.cursor document []).collect limit run).1.map (.behind base),
        ((expr.cursor document []).collect limit run).2) := by
    intro limit run
    rw [cursor, Cursor.start, search, Cursor.collect]
    exact Search.collect_behind _ limit (seenBehind_none base) run
  exact ⟨congrArg Prod.fst (collected none (.start .empty)), search, collected⟩

end JsonQuery

/-
# JsonQuery.Proofs.Search.InTurn -- searches one after the other

`Search.inTurn` is the search that makes several searches, each when the one before is over.
A walk through a value is of that kind, but for the elements that it fetches between its
visits.  `Search.unfetched` leaves the fetches of a search out.  Nothing that a run produces
tells the difference, neither where a key names the first element that carries it
(`items_unfetched`) nor from any cache (`produced_unfetched`).

From a steady cache a run produces the items of the search (`produced_steady`).
-/
import JsonQuery.Proofs.Search.Produced

namespace JsonQuery

set_option autoImplicit false

namespace Search

/-- Searches one after the other. -/
def inTurn : List Search → Search
  | [] => .done
  | search :: rest => search.append fun _ => inTurn rest

/-- A search without its fetches. -/
def unfetched : Search → Search
  | .done => .done
  | .found item next => .found item fun _ => (next ()).unfetched
  | .fetch _ next => (next ()).unfetched
  | .lookup array key next => .lookup array key fun found => (next found).unfetched

/-! ## Without fetches -/

theorem unfetched_append (first : Search) (second : Unit → Search) :
    (first.append second).unfetched = first.unfetched.append fun _ => (second ()).unfetched := by
  induction first with
  | done => rfl
  | found item next ih => simp only [append, unfetched, ih]
  | fetch read next ih => exact ih ()
  | lookup array key next ih => simp only [append, unfetched, ih]

theorem items_unfetched (search : Search) : search.unfetched.items = search.items := by
  induction search with
  | done => rfl
  | found item next ih => exact congrArg (item :: ·) (ih ())
  | fetch read next ih => exact ih ()
  | lookup array key next ih => exact ih _

theorem produced_unfetched (search : Search) (cache : KeyCache) :
    search.unfetched.produced cache = search.produced cache := by
  induction search generalizing cache with
  | done => rfl
  | found item next ih => exact congrArg (item :: ·) (ih () cache)
  | fetch read next ih => exact ih () cache
  | lookup array key next ih => exact ih _ _

/-! ## In turn -/

theorem inTurn_append (one two : List Search) :
    inTurn (one ++ two) = (inTurn one).append fun _ => inTurn two := by
  induction one with
  | nil => rfl
  | cons search rest ih => rw [List.cons_append, inTurn, inTurn, ih, append_assoc]

/-- Groups of searches in turn are all their searches in turn. -/
theorem inTurn_flatMap {α : Type} (list : List α) (group : α → List Search) :
    inTurn (list.flatMap group) = inTurn (list.map fun x => inTurn (group x)) := by
  induction list with
  | nil => rfl
  | cons x rest ih => rw [List.flatMap_cons, inTurn_append, ih, List.map_cons, inTurn]

/-- Searches that are the same but for their fetches are so in turn. -/
theorem unfetched_inTurn_congr {α : Type} {list : List α} {one two : α → Search}
    (same : ∀ x ∈ list, (one x).unfetched = (two x).unfetched) :
    (inTurn (list.map one)).unfetched = (inTurn (list.map two)).unfetched := by
  induction list with
  | nil => rfl
  | cons x rest ih =>
    obtain ⟨first, others⟩ := List.forall_mem_cons.1 same
    simp only [List.map_cons, inTurn, unfetched_append, first, ih others]

theorem items_inTurn (searches : List Search) : (inTurn searches).items = searches.flatMap items := by
  induction searches with
  | nil => rfl
  | cons search rest ih => rw [inTurn, items_append, ih, List.flatMap_cons]

end Search

/-! ## Through a cache -/

/-- From a steady cache, a run of a search produces its items. -/
theorem Search.produced_steady {asks : ArrayNode → Prop} {finds : Node → Location → Prop}
    {holds : KeyCache → Prop} (steady : Steady asks holds) {search : Search}
    (within : search.Within asks finds) {cache : KeyCache} (sound : holds cache) :
    search.produced cache = search.items := by
  induction search generalizing cache with
  | done => rfl
  | found item next ih => exact congrArg (item :: ·) (ih () within.2 sound)
  | fetch read next ih => exact ih () within sound
  | lookup array key next ih =>
    simp only [produced, items, steady.answer key sound within.1]
    exact ih _ within.of_first? (steady.keep key sound within.1)

end JsonQuery

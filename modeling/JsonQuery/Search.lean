/-
# JsonQuery.Search -- queries that are pulled

A query is run on demand: what it does before its next result, and what that result
is, is not settled until somebody asks.  A `Search` is such a run as a tree.  It is
over, or has an item and a rest of the run, or asks for one of the two things that are
done to a document: to fetch an array element, or to look up a key.  Nothing else of
a run can be seen from outside, so two searches with one tree are one query.

Searches are put together by `Search.append` (one after the other), `Search.bind`
(a search for every node found) and `Search.first` (a search that goes no further
than its first item).  `append_done`, `append_assoc` and `bind_append` are the laws
of a sequence.
-/
import JsonQuery.KeyCache
import JsonQuery.Scalar

namespace JsonQuery

set_option autoImplicit false

/-- A result: a node and its location, or a literal, which has no location. -/
inductive Item where
  | node (node : Node) (location : Location)
  | literal (value : Scalar)
deriving Inhabited

/-- What a comparison sees of an item. -/
def Item.scalar : Item → Scalar
  | .node n _ => .ofNode n
  | .literal value => value

/-- A query on its way. -/
inductive Search where
  | done
  | found (item : Item) (next : Unit → Search)
  | fetch (read : Read) (next : Unit → Search)
  | lookup (array : ArrayNode) (key : String) (next : Option (Nat × Json) → Search)

instance : Inhabited Search := ⟨.done⟩

namespace Search

/-- The search with one item. -/
def item (item : Item) : Search := .found item fun _ => .done

/-- The search for one node. -/
def node (node : Node) (location : Location) : Search := .item (.node node location)

/-- One search, and behind it another. -/
def append (first : Search) (second : Unit → Search) : Search :=
  match first with
  | .done => second ()
  | .found item next => .found item fun _ => (next ()).append second
  | .fetch read next => .fetch read fun _ => (next ()).append second
  | .lookup array key next => .lookup array key fun found => (next found).append second

/-- A search for every node that a search finds, each in its turn; literals find
nothing. -/
def bind (search : Search) (visit : Node → Location → Search) : Search :=
  match search with
  | .done => .done
  | .found (.node n location) next => (visit n location).append fun _ => (next ()).bind visit
  | .found (.literal _) next => (next ()).bind visit
  | .fetch read next => .fetch read fun _ => (next ()).bind visit
  | .lookup array key next => .lookup array key fun found => (next found).bind visit

/-- Goes on with the first item of a search, or with nothing if it has none.  What
the search would do behind its first item is not done. -/
def first (search : Search) (resume : Option Item → Search) : Search :=
  match search with
  | .done => resume none
  | .found item _ => resume (some item)
  | .fetch read next => .fetch read fun _ => (next ()).first resume
  | .lookup array key next => .lookup array key fun found => (next found).first resume

/-! ## Laws -/

@[simp] theorem append_done (search : Search) : (search.append fun _ => .done) = search := by
  induction search with
  | done => rfl
  | found item next ih => simp [append, ih]
  | fetch read next ih => simp [append, ih]
  | lookup array key next ih => simp [append, ih]

theorem append_assoc (one : Search) (two three : Unit → Search) :
    (one.append two).append three = one.append fun _ => (two ()).append three := by
  induction one with
  | done => rfl
  | found item next ih => simp [append, ih]
  | fetch read next ih => simp [append, ih]
  | lookup array key next ih => simp [append, ih]

theorem bind_append (one : Search) (two : Unit → Search) (visit : Node → Location → Search) :
    (one.append two).bind visit = (one.bind visit).append fun _ => (two ()).bind visit := by
  induction one with
  | done => rfl
  | found item next ih =>
    cases item with
    | node n location => simp [append, bind, ih, append_assoc]
    | literal value => simp [append, bind, ih]
  | fetch read next ih => simp [append, bind, ih]
  | lookup array key next ih => simp [append, bind, ih]

end Search

end JsonQuery

/-
# JsonQuery.Query -- the matches of an expression

A match is a node that a search finds, at a location that it has not reported yet.
Literals are no matches.

A `Cursor` is a query between two matches.  `Cursor.next` runs it up to the next
match and no further, so that an element is fetched only when a match is asked for
that depends on it; at the end the cursor stays at the end.  `Cursor.collect` takes
matches until the end or up to a limit.

A `Run` is what lies outside a cursor and changes while it runs: the key cache, which
any number of queries may share, and the fetches so far.
-/
import JsonQuery.Eval
import JsonQuery.Expr.Reader
import JsonQuery.LocationSet

namespace JsonQuery

set_option autoImplicit false

/-- A node that a query reports, and its location. -/
structure Match where
  node : Node
  location : Location
deriving Inhabited

/-- The value of a match. -/
def Match.value (found : Match) : Json := found.node.value

/-- The state around running queries. -/
structure Run where
  cache : KeyCache
  /-- The fetches so far, the last of them first. -/
  reads : List Read
deriving Inhabited

namespace Run

/-- Nothing fetched yet, with a given cache. -/
def start (cache : KeyCache) : Run := ⟨cache, []⟩

/-- Adds a fetch. -/
def fetch (run : Run) (read : Read) : Run := { run with reads := read :: run.reads }

/-- Looks a key up, and adds the fetches. -/
def lookup (run : Run) (array : ArrayNode) (key : String) : Option (Nat × Json) × Run :=
  let answer := run.cache.lookup array key
  (answer.found, ⟨answer.cache, answer.reads.reverse ++ run.reads⟩)

end Run

/-- A query between two matches: what is left of its search, and what it has
reported. -/
structure Cursor where
  search : Search
  seen : Seen
deriving Inhabited

/-- The next match, or none at the end, with the cursor and the state behind it. -/
structure Pulled where
  hit : Option Match
  cursor : Cursor
  run : Run
deriving Inhabited

/-- Runs a search up to its next item that is a match. -/
def Search.pull (search : Search) (seen : Seen) (run : Run) : Pulled :=
  match search with
  | .done => ⟨none, ⟨.done, seen⟩, run⟩
  | .found (.literal _) next => (next ()).pull seen run
  | .found (.node node location) next =>
      match seen.insert location with
      | (true, seen) => ⟨some ⟨node, location⟩, ⟨next (), seen⟩, run⟩
      | (false, seen) => (next ()).pull seen run
  | .fetch read next => (next ()).pull seen (run.fetch read)
  | .lookup array key next =>
      match run.lookup array key with
      | (answer, run) => (next answer).pull seen run

/-- The matches of a search, until its end or up to a limit. -/
def Search.collect (search : Search) (limit : Option Nat) (seen : Seen) (run : Run) :
    List Match × Run :=
  match limit, search with
  | some 0, _ => ([], run)
  | _, .done => ([], run)
  | limit, .found (.literal _) next => (next ()).collect limit seen run
  | limit, .found (.node node location) next =>
      match seen.insert location with
      | (true, seen) =>
          let (rest, run) := (next ()).collect (limit.map Nat.pred) seen run
          (⟨node, location⟩ :: rest, run)
      | (false, seen) => (next ()).collect limit seen run
  | limit, .fetch read next => (next ()).collect limit seen (run.fetch read)
  | limit, .lookup array key next =>
      match run.lookup array key with
      | (answer, run) => (next answer).collect limit seen run

namespace Cursor

/-- The query for an expression at a node, whose matches get locations behind
`base`.  Nothing has been fetched. -/
def start (expr : Expr) (node : Node) (base : Location) : Cursor :=
  ⟨expr.search node base, .none⟩

def next (cursor : Cursor) (run : Run) : Pulled := cursor.search.pull cursor.seen run

def collect (cursor : Cursor) (limit : Option Nat) (run : Run) : List Match × Run :=
  cursor.search.collect limit cursor.seen run

end Cursor

namespace Expr

/-- A query for an expression in a document that stands alone. -/
def cursor (expr : Expr) (document : Document) (base : Location) : Cursor :=
  .start expr (.ofDocument 0 0 document) base

/-- The matches of an expression in a document, their locations behind `base`. -/
def queryAt (expr : Expr) (document : Document) (base : Location) : List Match :=
  ((expr.cursor document base).collect none (.start .empty)).1

/-- The matches of an expression in a document. -/
def query (expr : Expr) (document : Document) : List Match := expr.queryAt document []

/-- The first match of an expression in a document. -/
def first? (expr : Expr) (document : Document) : Option Match :=
  ((expr.cursor document []).next (.start .empty)).hit

/-- Whether an expression matches anything in a document. -/
def hasMatch (expr : Expr) (document : Document) : Bool := (expr.first? document).isSome

end Expr

/-- The matches of the expression that a text spells. -/
def evaluate (document : Document) (text : String) (base : Location) :
    Except SyntaxError (List Match) :=
  (Expr.parse text).map fun expr => expr.queryAt document base

end JsonQuery

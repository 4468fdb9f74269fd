/-
# JsonQuery.Proofs.Search.Items -- the items of a search, without a cache

`Search.items` answers every lookup with the first element that carries the key, and
`reported` keeps of the items those that are matches.  `Search.Within` is what can be
said of a search from whatever lookups answer, as long as an answer is an element
with the key: which arrays it asks, and what it finds.

A `Steady` property of caches is one that lookups keep and from which they answer as
`Search.items` has it.  From such a cache, and with other queries between its pulls,
a search reports its items in order (`pull_steady`, `collect_steady`).
-/
import JsonQuery.Proofs.KeyCache.Lookup
import JsonQuery.Query

namespace JsonQuery

set_option autoImplicit false

/-! ## Items -/

/-- The items of a search, if a key names the first element that carries it. -/
def Search.items : Search → List Item
  | .done => []
  | .found item next => item :: (next ()).items
  | .fetch _ next => (next ()).items
  | .lookup array key next => (next (array.first? key)).items

/-- The items that are matches, some locations having been reported before. -/
def reported (seen : Seen) : List Item → List Match
  | [] => []
  | .literal _ :: rest => reported seen rest
  | .node node location :: rest =>
      match seen.insert location with
      | (true, seen) => ⟨node, location⟩ :: reported seen rest
      | (false, seen) => reported seen rest

/-- The matches that a cursor has not reported yet. -/
def Cursor.remaining (cursor : Cursor) : List Match := reported cursor.seen cursor.search.items

/-- The beginning of a list up to a limit. -/
def upTo {α : Type} (limit : Option Nat) (list : List α) : List α :=
  match limit with
  | some n => list.take n
  | none => list

theorem upTo_cons {α : Type} {limit : Option Nat} (open_ : limit ≠ some 0) (head : α)
    (tail : List α) : upTo limit (head :: tail) = head :: upTo (limit.map Nat.pred) tail := by
  cases limit with
  | none => rfl
  | some n =>
    cases n with
    | zero => exact absurd rfl open_
    | succ n => rfl

namespace Search

theorem items_append (first : Search) (second : Unit → Search) :
    (first.append second).items = first.items ++ (second ()).items := by
  induction first with
  | done => rfl
  | found item next ih => exact congrArg (item :: ·) (ih ())
  | fetch read next ih => exact ih ()
  | lookup array key next ih => exact ih _

/-- The items of a visit to an item; a literal is not visited. -/
def visited (visit : Node → Location → Search) : Item → List Item
  | .node n location => (visit n location).items
  | .literal _ => []

theorem items_bind (search : Search) (visit : Node → Location → Search) :
    (search.bind visit).items = search.items.flatMap (visited visit) := by
  induction search with
  | done => rfl
  | found item next ih =>
    cases item with
    | node n location => rw [bind, items_append, ih, items, List.flatMap_cons, visited]
    | literal value => rw [bind, ih, items, List.flatMap_cons, visited, List.nil_append]
  | fetch read next ih => exact ih ()
  | lookup array key next ih => exact ih _

theorem items_first (search : Search) (resume : Option Item → Search) :
    (search.first resume).items = (resume search.items.head?).items := by
  induction search with
  | done | found => rfl
  | fetch read next ih => exact ih ()
  | lookup array key next ih => exact ih _

end Search

/-! ## Whatever lookups answer -/

/-- A scalar that is no array and no object. -/
def Scalar.Plain : Scalar → Prop
  | .array _ => False
  | .object _ => False
  | _ => True

/-- A node has a property where it was found; a literal is plain. -/
def Item.Meets (finds : Node → Location → Prop) : Item → Prop
  | .node n location => finds n location
  | .literal value => value.Plain

namespace Search

/-- A search asks no arrays but those of `asks` and finds no nodes but those of
`finds`. -/
def Within (asks : ArrayNode → Prop) (finds : Node → Location → Prop) : Search → Prop
  | .done => True
  | .found item next => item.Meets finds ∧ (next ()).Within asks finds
  | .fetch _ next => (next ()).Within asks finds
  | .lookup array key next =>
      asks array ∧
        ∀ answer, (∀ hit ∈ answer, array.IsHit key hit) → (next answer).Within asks finds

variable {asks : ArrayNode → Prop} {finds : Node → Location → Prop}

theorem within_append {first : Search} {second : Unit → Search} (one : first.Within asks finds)
    (two : (second ()).Within asks finds) : (first.append second).Within asks finds := by
  induction first with
  | done => exact two
  | found item next ih => exact ⟨one.1, ih () one.2⟩
  | fetch read next ih => exact ih () one
  | lookup array key next ih => exact ⟨one.1, fun answer hits => ih answer (one.2 answer hits)⟩

theorem within_bind {search : Search} {visit : Node → Location → Search}
    {finds' : Node → Location → Prop} (within : search.Within asks finds)
    (visits : ∀ node location, finds node location → (visit node location).Within asks finds') :
    (search.bind visit).Within asks finds' := by
  induction search with
  | done => trivial
  | found item next ih =>
    cases item with
    | node n location => exact within_append (visits n location within.1) (ih () within.2)
    | literal => exact ih () within.2
  | fetch read next ih => exact ih () within
  | lookup array key next ih =>
    exact ⟨within.1, fun answer hits => ih answer (within.2 answer hits)⟩

theorem within_first {search : Search} {resume : Option Item → Search}
    {finds' : Node → Location → Prop} (within : search.Within asks finds)
    (resumes : ∀ item, (resume item).Within asks finds') :
    (search.first resume).Within asks finds' := by
  induction search with
  | done => exact resumes none
  | found item next ih => exact resumes (some item)
  | fetch read next ih => exact ih () within
  | lookup array key next ih =>
    exact ⟨within.1, fun answer hits => ih answer (within.2 answer hits)⟩

/-- The first element that carries a key is one of the answers that count. -/
theorem Within.of_first? {array : ArrayNode} {key : String}
    {next : Option (Nat × Json) → Search} (within : (lookup array key next).Within asks finds) :
    (next (array.first? key)).Within asks finds :=
  within.2 _ fun _ first => ArrayNode.isHit_of_first? first

theorem meets_of_within {search : Search} (within : search.Within asks finds) :
    ∀ item ∈ search.items, item.Meets finds := by
  induction search with
  | done => exact fun _ mem => absurd mem List.not_mem_nil
  | found item next ih => exact List.forall_mem_cons.2 ⟨within.1, ih () within.2⟩
  | fetch read next ih => exact ih () within
  | lookup array key next ih => exact ih _ within.of_first?

end Search

/-! ## From a steady cache -/

/-- Lookups in the arrays of `asks` keep a property of the cache, and with it answer
the first element that carries the key. -/
structure Steady (asks : ArrayNode → Prop) (holds : KeyCache → Prop) : Prop where
  answer : ∀ {cache : KeyCache} {array : ArrayNode} (key : String), holds cache → asks array →
    (cache.lookup array key).found = array.first? key
  keep : ∀ {cache : KeyCache} {array : ArrayNode} (key : String), holds cache → asks array →
    holds (cache.lookup array key).cache

variable {asks : ArrayNode → Prop} {finds : Node → Location → Prop} {holds : KeyCache → Prop}

theorem Steady.lookup (steady : Steady asks holds) {array : ArrayNode} {key : String}
    {next : Option (Nat × Json) → Search}
    (within : (Search.lookup array key next).Within asks finds)
    {run : Run} (sound : holds run.cache) :
    (run.lookup array key).1 = array.first? key ∧
      (next (array.first? key)).Within asks finds ∧
      holds (run.lookup array key).2.cache :=
  ⟨steady.answer key sound within.1, within.of_first?, steady.keep key sound within.1⟩

namespace Search

/-- A pull takes the next match and leaves the others. -/
theorem pull_steady (steady : Steady asks holds) {search : Search}
    (within : search.Within asks finds) (seen : Seen) (run : Run) (sound : holds run.cache) :
    (search.pull seen run).hit = (reported seen search.items).head? ∧
      (search.pull seen run).cursor.remaining = (reported seen search.items).tail ∧
      (search.pull seen run).cursor.search.Within asks finds ∧
      holds (search.pull seen run).run.cache := by
  induction search generalizing seen run with
  | done => exact ⟨rfl, rfl, trivial, sound⟩
  | found item next ih =>
    cases item with
    | literal => exact ih () within.2 seen run sound
    | node node location =>
      rcases inserted : seen.insert location with ⟨fresh, after⟩
      simp only [pull, items, reported, inserted]
      cases fresh with
      | true => exact ⟨rfl, rfl, within.2, sound⟩
      | false => exact ih () within.2 after run sound
  | fetch read next ih => exact ih () within seen _ sound
  | lookup array key next ih =>
    obtain ⟨answer, rest, kept⟩ := steady.lookup within sound
    simp only [pull, answer]
    exact ih _ rest seen _ kept

/-- Matches are taken from the front, up to the limit. -/
theorem collect_steady (steady : Steady asks holds) {search : Search}
    (within : search.Within asks finds) (limit : Option Nat) (seen : Seen) (run : Run)
    (sound : holds run.cache) :
    (search.collect limit seen run).1 = upTo limit (reported seen search.items) ∧
      holds (search.collect limit seen run).2.cache := by
  induction search generalizing limit seen run with
  | done => cases limit with
    | none => exact ⟨rfl, sound⟩
    | some n => cases n <;> exact ⟨rfl, sound⟩
  | found item next ih =>
    by_cases stop : limit = some 0
    · subst stop
      exact ⟨rfl, sound⟩
    cases item with
    | literal =>
      simp only [collect]
      exact ih () within.2 limit seen run sound
    | node node location =>
      rcases inserted : seen.insert location with ⟨fresh, after⟩
      simp only [collect, items, reported, inserted]
      cases fresh with
      | true =>
        obtain ⟨rest, kept⟩ := ih () within.2 (limit.map Nat.pred) after run sound
        exact ⟨by rw [upTo_cons stop, ← rest], kept⟩
      | false => exact ih () within.2 limit after run sound
  | fetch read next ih =>
    by_cases stop : limit = some 0
    · subst stop
      exact ⟨rfl, sound⟩
    simp only [collect]
    exact ih () within limit seen _ sound
  | lookup array key next ih =>
    by_cases stop : limit = some 0
    · subst stop
      exact ⟨rfl, sound⟩
    obtain ⟨answer, rest, kept⟩ := steady.lookup within sound
    simp only [collect, answer]
    exact ih _ rest limit seen _ kept

end Search

end JsonQuery

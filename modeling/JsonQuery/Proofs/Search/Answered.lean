/-
# JsonQuery.Proofs.Search.Answered -- the lookups of a search

The matches of a search do not show what it asks of the cache, and how many lookups it makes
depends on how far it is run.  `Search.answered` lists them in their order, with the answers,
for a run to the end or up to a limit; a pull is a run up to one match (`pull_run`).

The search does nothing else to the cache (`cache_collect`), and the answers are those of
the same lookups made in turn without it (`found_answered`).  From any cache, a search asks
only the arrays that it is said to go to (`asks_answered`), and so does what a pull leaves of
it (`pull_within`).
-/
import JsonQuery.Proofs.KeyCache.Remembered
import JsonQuery.Proofs.Search.Items

namespace JsonQuery

set_option autoImplicit false

/-- A key that was asked for in an array, and what was found. -/
structure Answered extends Ask where
  found : Option (Nat × Json)

namespace Search

/-- The lookups of a search that is run to its end or up to a limit. -/
def answered (search : Search) (limit : Option Nat) (seen : Seen) (cache : KeyCache) :
    List Answered :=
  match limit, search with
  | some 0, _ => []
  | _, .done => []
  | limit, .found (.literal _) next => (next ()).answered limit seen cache
  | limit, .found (.node _ location) next =>
      match seen.insert location with
      | (true, seen) => (next ()).answered (limit.map Nat.pred) seen cache
      | (false, seen) => (next ()).answered limit seen cache
  | limit, .fetch _ next => (next ()).answered limit seen cache
  | limit, .lookup array key next =>
      let answer := cache.lookup array key
      ⟨⟨array, key⟩, answer.found⟩ :: (next answer.found).answered limit seen answer.cache

-- In the inductions below the search is stopped, done, at a literal, at a new match, at a
-- repeated one, at a fetch, and at a lookup, in this order.

theorem cache_collect (search : Search) (limit : Option Nat) (seen : Seen) (cache : KeyCache)
    (reads : List Read) :
    (search.collect limit seen ⟨cache, reads⟩).2.cache =
      cache.after ((search.answered limit seen cache).map Answered.toAsk) := by
  fun_induction answered search limit seen cache generalizing reads
  case case1 | case2 =>
    simp only [collect]
    rfl
  case case3 ih =>
    simp only [collect]
    exact ih reads
  case case4 inserted ih | case5 inserted ih =>
    simp only [collect, inserted]
    exact ih reads
  case case6 read _ _ ih =>
    simp only [collect]
    exact ih (read :: reads)
  case case7 answer ih =>
    simp only [collect]
    exact ih (answer.reads.reverse ++ reads)

theorem found_answered (search : Search) (limit : Option Nat) (seen : Seen) (cache : KeyCache) :
    (search.answered limit seen cache).map Answered.found =
      (cache.lookups ((search.answered limit seen cache).map Answered.toAsk)).map
        Lookup.found := by
  fun_induction answered search limit seen cache
  case case1 | case2 => rfl
  case case3 ih | case4 ih | case5 ih | case6 ih => exact ih
  case case7 answer ih => exact congrArg (answer.found :: ·) ih

variable {asks : ArrayNode → Prop} {finds : Node → Location → Prop}

theorem asks_answered {search : Search} (within : search.Within asks finds)
    (limit : Option Nat) (seen : Seen) (cache : KeyCache) :
    ∀ answered ∈ search.answered limit seen cache, asks answered.array := by
  fun_induction answered search limit seen cache
  case case1 | case2 => nofun
  case case3 ih | case4 ih | case5 ih => exact ih within.2
  case case6 ih => exact ih within
  case case7 answer ih =>
    exact List.forall_mem_cons.2
      ⟨within.1, ih (within.2 _ fun _ found => KeyCache.lookup_isHit found)⟩

/-! ## One pull -/

theorem collect_stopped (search : Search) (seen : Seen) (run : Run) :
    search.collect (some 0) seen run = ([], run) := by
  cases search <;> rfl

/-- A pull runs a search as far as one match is collected. -/
theorem pull_run (search : Search) (seen : Seen) (run : Run) :
    (search.pull seen run).run = (search.collect (some 1) seen run).2 := by
  induction search generalizing seen run with
  | done => rfl
  | found item next ih =>
    cases item with
    | literal => exact ih () seen run
    | node node location =>
      rcases inserted : seen.insert location with ⟨fresh, after⟩
      simp only [pull, collect, inserted]
      cases fresh with
      | true => exact (congrArg Prod.snd (collect_stopped (next ()) after run)).symm
      | false => exact ih () after run
  | fetch read next ih => exact ih () seen (run.fetch read)
  | lookup array key next ih => exact ih _ seen (run.lookup array key).2

/-- What a pull leaves of a search goes where the search does. -/
theorem pull_within {search : Search} (within : search.Within asks finds) (seen : Seen)
    (run : Run) : (search.pull seen run).cursor.search.Within asks finds := by
  induction search generalizing seen run with
  | done => trivial
  | found item next ih =>
    cases item with
    | literal => exact ih () within.2 seen run
    | node node location =>
      rcases inserted : seen.insert location with ⟨fresh, after⟩
      simp only [pull, inserted]
      cases fresh with
      | true => exact within.2
      | false => exact ih () within.2 after run
  | fetch read next ih => exact ih () within seen (run.fetch read)
  | lookup array key next ih =>
    exact ih _ (within.2 _ fun _ found => KeyCache.lookup_isHit found) seen
      (run.lookup array key).2

end Search

end JsonQuery

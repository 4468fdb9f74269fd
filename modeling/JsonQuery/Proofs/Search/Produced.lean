/-
# JsonQuery.Proofs.Search.Produced -- all items of a run

A run of a search to its end, its lookups answered through a cache that may remember
anything, produces items: nodes, some of them at locations that had a node before, and
literals.  Of these the matches are reported, whether they are collected at once
(`collect_produced`) or pulled one after the other (`answers_produced`), and every pull
behind the last of them answers that there is none.

What a search finds within, all its items are, so every match that is collected has the
property, whatever the cache is (`collect_within`).
-/
import JsonQuery.Proofs.Query.Reported

namespace JsonQuery

set_option autoImplicit false

/-- The items of a search from its beginning to its end, with lookups that are answered
through a cache. -/
def Search.produced (cache : KeyCache) : Search → List Item
  | .done => []
  | .found item next => item :: (next ()).produced cache
  | .fetch _ next => (next ()).produced cache
  | .lookup array key next =>
      let answer := cache.lookup array key
      (next answer.found).produced answer.cache

/-- The answers to a number of pulls. -/
def Cursor.answers (cursor : Cursor) (run : Run) : Nat → List (Option Match)
  | 0 => []
  | count + 1 =>
      let pulled := cursor.next run
      pulled.hit :: pulled.cursor.answers pulled.run count

namespace Search

theorem collect_produced (search : Search) (limit : Option Nat) (seen : Seen) (run : Run) :
    (search.collect limit seen run).1 = upTo limit (reported seen (search.produced run.cache)) := by
  induction search generalizing limit seen run with
  | done => cases limit with
    | none => rfl
    | some n => cases n <;> rfl
  | found item next ih =>
    by_cases stop : limit = some 0
    · subst stop
      rfl
    cases item with
    | literal =>
      simp only [collect]
      exact ih () limit seen run
    | node node location =>
      rcases inserted : seen.insert location with ⟨fresh, after⟩
      simp only [collect, produced, reported, inserted]
      cases fresh with
      | true => rw [upTo_cons stop, ← ih () (limit.map Nat.pred) after run]
      | false => exact ih () limit after run
  | fetch read next ih =>
    by_cases stop : limit = some 0
    · subst stop
      rfl
    simp only [collect]
    exact ih () limit seen _
  | lookup array key next ih =>
    by_cases stop : limit = some 0
    · subst stop
      rfl
    simp only [collect]
    exact ih _ limit seen (run.lookup array key).2

theorem meets_of_produced {asks : ArrayNode → Prop} {finds : Node → Location → Prop}
    {search : Search} (within : search.Within asks finds) (cache : KeyCache) :
    ∀ item ∈ search.produced cache, item.Meets finds := by
  induction search generalizing cache with
  | done => exact fun _ mem => absurd mem List.not_mem_nil
  | found item next ih => exact List.forall_mem_cons.2 ⟨within.1, ih () within.2 cache⟩
  | fetch read next ih => exact ih () within cache
  | lookup array key next ih =>
    exact ih _ (within.2 _ fun _ found => KeyCache.lookup_isHit found) _

theorem mem_of_upTo {α : Type} {limit : Option Nat} {list : List α} {x : α}
    (mem : x ∈ upTo limit list) : x ∈ list := by
  cases limit with
  | none => exact mem
  | some n => exact List.mem_of_mem_take mem

/-- Whatever the cache is, what is collected has the property of a search. -/
theorem collect_within {asks : ArrayNode → Prop} {finds : Node → Location → Prop}
    {search : Search} (within : search.Within asks finds) (limit : Option Nat) (seen : Seen)
    (run : Run) :
    ∀ found ∈ (search.collect limit seen run).1, finds found.node found.location := by
  intro found mem
  rw [collect_produced] at mem
  exact meets_of_produced within run.cache _ (mem_of_reported (mem_of_upTo mem))

/-- A pull takes the first match of those to come, and leaves the others to come. -/
theorem pull_produced (search : Search) (seen : Seen) (run : Run) :
    let ahead := reported seen (search.produced run.cache)
    let pulled := search.pull seen run
    pulled.hit = ahead.head? ∧
      reported pulled.cursor.seen (pulled.cursor.search.produced pulled.run.cache) = ahead.tail := by
  induction search generalizing seen run with
  | done => exact ⟨rfl, rfl⟩
  | found item next ih =>
    cases item with
    | literal => exact ih () seen run
    | node node location =>
      rcases inserted : seen.insert location with ⟨fresh, after⟩
      simp only [pull, produced, reported, inserted]
      cases fresh with
      | true => exact ⟨rfl, rfl⟩
      | false => exact ih () after run
  | fetch read next ih => exact ih () seen _
  | lookup array key next ih => exact ih _ seen (run.lookup array key).2

end Search

/-- Pulls answer the matches to come in turn, and then that there is none. -/
theorem Cursor.answers_produced (cursor : Cursor) (run : Run) (count : Nat) :
    cursor.answers run count = (List.range count).map fun n =>
      (reported cursor.seen (cursor.search.produced run.cache))[n]? := by
  induction count generalizing cursor run with
  | zero => rfl
  | succ count ih =>
    obtain ⟨hit, ahead⟩ := cursor.search.pull_produced cursor.seen run
    rw [answers, List.range_succ_eq_map, List.map_cons, List.map_map, ih]
    refine congr (congrArg List.cons ?_) (List.map_congr_left fun n _ => ?_)
    · exact hit.trans List.head?_eq_getElem?
    · rw [Cursor.next, ahead, List.getElem?_tail]
      rfl

end JsonQuery

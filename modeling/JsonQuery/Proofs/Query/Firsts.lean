/-
# JsonQuery.Proofs.Query.Firsts -- what is reported of what is found

Of the nodes that a run produces, those are reported that no node before them has the
location of (`Match.firsts`).  So each location that is reached is reported, the empty one
not excepted, and none of them twice (`Expr.collect_firsts`).

`Match.distinct` is the same choice, made from the front (`distinct_eq_firsts`).
-/
import Mathlib.Data.List.Induction
import JsonQuery.Proofs.Query.Distinct
import JsonQuery.Proofs.Search.Produced

namespace JsonQuery

set_option autoImplicit false

namespace Match

/-- The matches that have a location which none of the matches before them has. -/
def firsts (found : List Match) : List Match :=
  (found.zipIdx.filter fun (one, n) => !reaches (found.take n) one.location).map Prod.fst

theorem firsts_concat (found : List Match) (last : Match) :
    firsts (found ++ [last]) =
      firsts found ++ if reaches found last.location then [] else [last] := by
  have earlier : (found.zipIdx.filter fun (one, n) =>
        !reaches ((found ++ [last]).take n) one.location) =
      found.zipIdx.filter fun (one, n) => !reaches (found.take n) one.location := by
    refine List.filter_congr fun (one, n) mem => ?_
    have bound : n < found.length := (List.mem_zipIdx' mem).1
    dsimp only
    rw [List.take_append_of_le_length (Nat.le_of_lt bound)]
  rw [firsts, List.zipIdx_append, List.filter_append, List.map_append, earlier, firsts]
  cases held : reaches found last.location <;> simp [held]

theorem distinct_concat (found : List Match) (last : Match) :
    distinct (found ++ [last]) =
      distinct found ++ if reaches found last.location then [] else [last] := by
  have one : distinct [last] = [last] := rfl
  rw [distinct_append, one]
  cases held : reaches found last.location <;> simp [held]

theorem distinct_eq_firsts (found : List Match) : distinct found = firsts found := by
  induction found using List.reverseRecOn with
  | nil => rfl
  | append_singleton found last ih => rw [distinct_concat, firsts_concat, ih]

theorem reaches_iff {found : List Match} {location : Location} :
    reaches found location ↔ location ∈ found.map Match.location := by
  simp [reaches]

theorem nodup_distinct (found : List Match) : ((distinct found).map Match.location).Nodup := by
  induction found using List.reverseRecOn with
  | nil => exact List.nodup_nil
  | append_singleton found last ih =>
    rw [distinct_concat]
    cases held : reaches found last.location with
    | true => simpa using ih
    | false =>
      have new : last.location ∉ (distinct found).map Match.location := by
        rw [← reaches_iff, reaches_distinct, held]
        exact Bool.false_ne_true
      simpa [List.nodup_append] using ⟨ih, by simpa using new⟩

end Match

/-- What a query reports is, of the nodes that its search produces, in their order the first
at each location, literals left out.  No location is reported twice, and every location
reached is reported, be it empty or not.  That is so whatever the cache remembers, and the
matches may as well be pulled, one after the other until there is none. -/
theorem Expr.collect_firsts (expr : Expr) (document : Document) (base : Location)
    (cache : KeyCache) :
    let cursor := expr.cursor document base
    let located := (cursor.search.produced cache).filterMap Item.match?
    let found := (cursor.collect none (.start cache)).1
    found = Match.firsts located ∧
      (found.map Match.location).Nodup ∧
      (∀ location, location ∈ found.map Match.location ↔ location ∈ located.map Match.location) ∧
      ∀ count, cursor.answers (.start cache) count = (List.range count).map fun n => found[n]? := by
  intro cursor located found
  have reported : found = Match.distinct located :=
    (cursor.search.collect_produced none .none (.start cache)).trans (reported_eq_distinct _)
  refine ⟨?_, ?_, fun location => ?_, fun count => ?_⟩
  · rw [reported, Match.distinct_eq_firsts]
  · rw [reported]
    exact Match.nodup_distinct located
  · rw [reported, ← Match.reaches_iff, ← Match.reaches_iff, Match.reaches_distinct]
  · rw [cursor.answers_produced, reported]
    exact congrArg (fun all : List Match => (List.range count).map fun n => all[n]?)
      (reported_eq_distinct _)

end JsonQuery

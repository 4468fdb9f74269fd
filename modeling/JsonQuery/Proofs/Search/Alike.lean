/-
# JsonQuery.Proofs.Search.Alike -- two searches that differ behind a fetch only

Two searches are alike if they find and ask for the same things in the same order, on
arrays and nodes that agree (`Search.Alike`).  Behind the fetch of an element that is
not among those `fetched` they may do anything; and behind a lookup they have to be alike
only as far as the answers agree.

Pulled with one state, the first of two alike searches tells what the other does
(`Search.pull_alike`): if everything that it fetched is among the fetches, the other
fetches the same and answers a match at the same location, and what is left of the two
is alike again.  For lookups in arrays that agree this is `KeyCache.lookup_alike`.
-/
import JsonQuery.Proofs.Json.Agreement
import JsonQuery.Query

namespace JsonQuery

set_option autoImplicit false

variable {fetched : Read → Prop}

/-! ## Lookups -/

namespace KeyIndex

/-- Elements that agree and are all fetched have one index. -/
theorem addFrom_agrees {elements others : List Json} {site : Site} {position : Nat}
    (agree : Json.AgreesElements fetched elements others site position)
    (read : ∀ i < elements.length, fetched ⟨site.identity, position + i⟩) (index : KeyIndex) :
    addFrom position elements index = addFrom position others index := by
  induction elements generalizing others position index with
  | nil =>
    cases others with
    | nil => rfl
    | cons => cases agree
  | cons element rest ih =>
    cases others with
    | nil => cases agree
    | cons other others =>
      obtain ⟨first, behind⟩ := agree
      have key := Json.key?_agrees (first (read 0 (Nat.zero_lt_succ _)))
      have later : ∀ i < rest.length, fetched ⟨site.identity, position + 1 + i⟩ := by
        intro i bound
        have shift : position + 1 + i = position + (i + 1) := by omega
        rw [shift]
        exact read (i + 1) (Nat.succ_lt_succ bound)
      rw [addFrom, addFrom, key]
      exact ih behind later _

end KeyIndex

/-- The same fetches, the same cache behind them, and answers that agree. -/
structure Lookup.Alike (fetched : Read → Prop) (site : Site) (one two : Lookup) : Prop where
  found : Json.AgreesHit fetched site one.found two.found
  cache : one.cache = two.cache
  reads : one.reads = two.reads

namespace KeyCache

variable {one two : ArrayNode} (alike : one.Alike fetched two) (key : String)
include alike

theorem find_alike (index : KeyIndex) (read : ∀ r ∈ (find index one key).2, fetched r) :
    Json.AgreesHit fetched one.site (find index one key).1 (find index two key).1 ∧
      (find index one key).2 = (find index two key).2 := by
  unfold find at read ⊢
  cases at_key : index[key]? with
  | none => exact ⟨.none, rfl⟩
  | some position =>
    simp only [at_key, List.mem_singleton, forall_eq] at read
    refine ⟨?_, by rw [alike.identity]⟩
    have element := alike.element position read
    dsimp only
    generalize one.elements[position]? = x at element ⊢
    generalize two.elements[position]? = y at element ⊢
    cases element with
    | none => exact .none
    | some agree =>
      simp only [Option.filter_some, Json.key?_agrees agree]
      split
      · exact .some ⟨rfl, agree⟩
      · exact .none

theorem readAll_alike : readAll one = readAll two := by
  rw [readAll, readAll, alike.length, alike.identity]

theorem rebuild_alike (cache : KeyCache) (read : ∀ r ∈ (cache.rebuild one key).reads, fetched r) :
    (cache.rebuild one key).Alike fetched one.site (cache.rebuild two key) := by
  have all : ∀ i < one.elements.length, fetched ⟨one.identity, 0 + i⟩ := by
    intro i bound
    rw [Nat.zero_add]
    exact read _ (List.mem_append_left _ (List.mem_map_of_mem (List.mem_range.2 bound)))
  have index : KeyIndex.ofElements one.elements = .ofElements two.elements :=
    KeyIndex.addFrom_agrees alike.elements all ∅
  obtain ⟨found, same⟩ := find_alike alike key (.ofElements one.elements)
    fun r mem => read r (List.mem_append_right _ mem)
  unfold rebuild
  rw [← index]
  have reads : readAll one ++ (find (.ofElements one.elements) one key).2 =
      readAll two ++ (find (.ofElements one.elements) two key).2 := by
    rw [readAll_alike alike, same]
  exact ⟨found, by rw [alike.identity], reads⟩

/-- If everything that a lookup fetched is among the fetches, the lookup in an array that
agrees fetches the same, remembers the same and answers alike. -/
theorem lookup_alike (cache : KeyCache) (read : ∀ r ∈ (cache.lookup one key).reads, fetched r) :
    (cache.lookup one key).Alike fetched one.site (cache.lookup two key) := by
  unfold lookup at read ⊢
  rw [← alike.identity]
  cases known : cache.index? one.identity with
  | none =>
    rw [known] at read
    exact rebuild_alike alike key cache read
  | some index =>
    rw [known] at read
    dsimp only at read ⊢
    rcases at_one : find index one key with ⟨found, reads⟩
    rcases at_two : find index two key with ⟨found', reads'⟩
    rw [at_one] at read
    have same : (∀ r ∈ reads, fetched r) →
        Json.AgreesHit fetched one.site found found' ∧ reads = reads' := by
      have find := find_alike alike key index
      rwa [at_one, at_two] at find
    cases found with
    | some hit =>
      obtain ⟨hits, rfl⟩ := same read
      cases hits with
      | some agree => exact ⟨.some agree, rfl, rfl⟩
    | none =>
      obtain ⟨hits, rfl⟩ := same fun r mem => read r (List.mem_append_left _ mem)
      cases hits with
      | none =>
        have again := rebuild_alike alike key cache
          fun r mem => read r (List.mem_append_right _ mem)
        exact ⟨again.found, again.cache, congrArg (reads ++ ·) again.reads⟩

end KeyCache

/-! ## Searches -/

/-- Nodes that are alike, found at one location, or one literal. -/
inductive Item.Alike (fetched : Read → Prop) : (one two : Item) → Prop
  | node {one two : Node} (alike : one.Alike fetched two) (location : Location) :
      Item.Alike fetched (.node one location) (.node two location)
  | literal (value : Scalar) : Item.Alike fetched (.literal value) (.literal value)

theorem Item.Alike.scalar {one two : Item} (alike : one.Alike fetched two) :
    one.scalar = two.scalar := by
  cases alike with
  | node alike => exact alike.scalar
  | literal => rfl

namespace Search

/-- Two searches that do the same, as long as what they fetch is among the fetches. -/
inductive Alike (fetched : Read → Prop) : (one two : Search) → Prop
  | done : Alike fetched .done .done
  | found {item item' : Item} {next next' : Unit → Search} (item_alike : item.Alike fetched item')
      (next_alike : Alike fetched (next ()) (next' ())) :
      Alike fetched (.found item next) (.found item' next')
  | fetch {read : Read} {next next' : Unit → Search}
      (next_alike : fetched read → Alike fetched (next ()) (next' ())) :
      Alike fetched (.fetch read next) (.fetch read next')
  | lookup {array array' : ArrayNode} {key : String} {next next' : Option (Nat × Json) → Search}
      (array_alike : array.Alike fetched array')
      (next_alike : ∀ answer answer', Json.AgreesHit fetched array.site answer answer' →
        Alike fetched (next answer) (next' answer')) :
      Alike fetched (.lookup array key next) (.lookup array' key next')

theorem alike_append {one two : Search} {rest rest' : Unit → Search} (first : one.Alike fetched two)
    (second : (rest ()).Alike fetched (rest' ())) :
    (one.append rest).Alike fetched (two.append rest') := by
  induction first with
  | done => exact second
  | found item_alike _ ih => exact .found item_alike ih
  | fetch _ ih => exact .fetch ih
  | lookup array_alike _ ih => exact .lookup array_alike ih

theorem alike_bind {one two : Search} {visit visit' : Node → Location → Search}
    (search : one.Alike fetched two)
    (visits : ∀ n n' l, n.Alike fetched n' → (visit n l).Alike fetched (visit' n' l)) :
    (one.bind visit).Alike fetched (two.bind visit') := by
  induction search with
  | done => exact .done
  | found item_alike _ ih =>
    cases item_alike with
    | node alike location => exact alike_append (visits _ _ location alike) ih
    | literal => exact ih
  | fetch _ ih => exact .fetch ih
  | lookup array_alike _ ih => exact .lookup array_alike ih

theorem alike_first {one two : Search} {resume resume' : Option Item → Search}
    (search : one.Alike fetched two) (at_end : (resume none).Alike fetched (resume' none))
    (at_item : ∀ item item', item.Alike fetched item' →
      (resume (some item)).Alike fetched (resume' (some item'))) :
    (one.first resume).Alike fetched (two.first resume') := by
  induction search with
  | done => exact at_end
  | found item_alike => exact at_item _ _ item_alike
  | fetch _ ih => exact .fetch ih
  | lookup array_alike _ ih => exact .lookup array_alike ih

end Search

/-! ## Pulls -/

/-- Two matches at one location, of nodes that are alike. -/
structure Match.Alike (fetched : Read → Prop) (one two : Match) : Prop where
  node : one.node.Alike fetched two.node
  location : one.location = two.location

/-- Two cursors that have reported the same, with searches that are alike. -/
structure Cursor.Alike (fetched : Read → Prop) (one two : Cursor) : Prop where
  search : one.search.Alike fetched two.search
  seen : one.seen = two.seen

/-- Pulls that leave the same state behind, with matches and cursors that are alike. -/
structure Pulled.Alike (fetched : Read → Prop) (one two : Pulled) : Prop where
  hit : Option.Rel (Match.Alike fetched) one.hit two.hit
  cursor : one.cursor.Alike fetched two.cursor
  run : one.run = two.run

theorem Run.mem_reads_lookup {run : Run} {array : ArrayNode} {key : String} {read : Read} :
    read ∈ (run.lookup array key).2.reads ↔
      read ∈ (run.cache.lookup array key).reads ∨ read ∈ run.reads := by
  simp [Run.lookup]

namespace Search

/-- A pull forgets no fetch. -/
theorem mem_reads_pull (search : Search) (seen : Seen) {run : Run} {read : Read}
    (before : read ∈ run.reads) : read ∈ (search.pull seen run).run.reads := by
  induction search generalizing seen run with
  | done => exact before
  | found item next ih =>
    cases item with
    | literal => exact ih () seen before
    | node n location =>
      rcases inserted : seen.insert location with ⟨fresh, after⟩
      simp only [pull, inserted]
      cases fresh with
      | true => exact before
      | false => exact ih () after before
  | fetch read next ih => exact ih () seen (List.mem_cons_of_mem _ before)
  | lookup array key next ih =>
    exact ih _ seen (Run.mem_reads_lookup.2 (.inr before))

/-- If everything that the pull of one search fetched is among the fetches, the pull of a
search that is alike fetches the same and answers alike. -/
theorem pull_alike {one two : Search} (alike : one.Alike fetched two) (seen : Seen) (run : Run)
    (read : ∀ r ∈ (one.pull seen run).run.reads, fetched r) :
    (one.pull seen run).Alike fetched (two.pull seen run) := by
  induction alike generalizing seen run with
  | done => exact ⟨.none, ⟨.done, rfl⟩, rfl⟩
  | found item_alike next_alike ih =>
    cases item_alike with
    | literal => exact ih seen run read
    | node alike location =>
      rcases inserted : seen.insert location with ⟨fresh, after⟩
      simp only [pull, inserted] at read ⊢
      cases fresh with
      | true => exact ⟨.some ⟨alike, rfl⟩, ⟨next_alike, rfl⟩, rfl⟩
      | false => exact ih after run read
  | @fetch fetch next next' _ ih =>
    have here : fetch ∈ (run.fetch fetch).reads := List.mem_cons_self
    have among := read fetch (mem_reads_pull (next ()) seen here)
    exact ih among seen (run.fetch fetch) read
  | @lookup array array' key next next' array_alike _ ih =>
    have among : ∀ r ∈ (run.cache.lookup array key).reads, fetched r := by
      intro r mem
      apply read
      exact mem_reads_pull (next _) seen (Run.mem_reads_lookup.2 (.inl mem))
    have answers := KeyCache.lookup_alike array_alike key run.cache among
    have state : (run.lookup array key).2 = (run.lookup array' key).2 := by
      simp only [Run.lookup, answers.cache, answers.reads]
    have rest := ih _ _ answers.found seen (run.lookup array key).2 read
    simp only [pull]
    rw [← state]
    exact rest

end Search

end JsonQuery

/-
# JsonQuery.Proofs.KeyCache.Remembered -- lookups made in turn

A cache is filled by lookups and by nothing else.  As long as an array is not changed, which
is to say that arrays with one identity hold the same elements (`Unchanged`), a cache
`Remembers` the arrays in which a key was looked up: it has the present index of each of them,
no other index, and counts them.

A lookup keeps this (`remembers_lookup`), whether it is answered from an index, builds one,
or builds one again because the index does not know the key.  So lookups made in turn keep
it, and each of them answers the first element that carries its key (`remembers_after`).
-/
import Mathlib.Data.Finset.Card
import JsonQuery.Proofs.KeyCache.Lookup

namespace JsonQuery

set_option autoImplicit false

/-- A key that is asked for in an array. -/
structure Ask where
  array : ArrayNode
  key : String

/-- Arrays with one identity hold the same elements. -/
def Unchanged (arrays : List ArrayNode) : Prop :=
  ∀ one ∈ arrays, ∀ two ∈ arrays, one.identity = two.identity → one.elements = two.elements

namespace KeyCache

/-- Lookups made in turn, each from the cache that the one before leaves. -/
def lookups (cache : KeyCache) : List Ask → List Lookup
  | [] => []
  | ask :: rest =>
      let answer := cache.lookup ask.array ask.key
      answer :: answer.cache.lookups rest

/-- The cache behind lookups made in turn. -/
def after (cache : KeyCache) : List Ask → KeyCache
  | [] => cache
  | ask :: rest => (cache.lookup ask.array ask.key).cache.after rest

/-! ## One lookup -/

theorem size_remember (cache : KeyCache) (array : Identity) (index : KeyIndex) :
    (cache.remember array index).size =
      if (cache.index? array).isSome then cache.size else cache.size + 1 := by
  simp only [size, remember, index?, Std.TreeMap.size_insert, Std.TreeMap.isSome_getElem?_eq_contains]

variable {cache : KeyCache} {array : ArrayNode}

/-- A lookup adds an index if there was none of its array. -/
theorem size_lookup (cache : KeyCache) (array : ArrayNode) (key : String) :
    (cache.lookup array key).cache.size =
      if (cache.index? array.identity).isSome then cache.size else cache.size + 1 := by
  obtain ⟨index, known, -, -, same⟩ | ⟨-, same⟩ := cache.lookup_cases array key
  · simp [same, known]
  · rw [same, size_remember]

/-- Behind a lookup the index of its array is the present one, if the one before was. -/
theorem index?_lookup_self (key : String)
    (present : ∀ index, cache.index? array.identity = some index →
      index = .ofElements array.elements) :
    (cache.lookup array key).cache.index? array.identity = some (.ofElements array.elements) := by
  obtain ⟨index, known, -, -, same⟩ | ⟨-, same⟩ := cache.lookup_cases array key
  · rw [same, known, present index known]
  · rw [same, index?_remember, if_pos rfl]

theorem index?_lookup_other (key : String) {other : Identity} (apart : array.identity ≠ other) :
    (cache.lookup array key).cache.index? other = cache.index? other := by
  obtain ⟨-, -, -, -, same⟩ | ⟨-, same⟩ := cache.lookup_cases array key
  · rw [same]
  · rw [same, index?_remember, if_neg apart]

/-! ## Arrays that are remembered -/

/-- A cache has the present indices of some arrays, no other index, and as many as the arrays
are. -/
structure Remembers (cache : KeyCache) (asked : List ArrayNode) : Prop where
  present : ∀ array ∈ asked, cache.index? array.identity = some (.ofElements array.elements)
  asked_of_index : ∀ identity index, cache.index? identity = some index →
    ∃ array ∈ asked, array.identity = identity
  size_eq : cache.size = (asked.map ArrayNode.identity).toFinset.card

theorem remembers_empty : empty.Remembers [] where
  present _ mem := by cases mem
  asked_of_index identity index known := by
    rw [index?_empty] at known
    cases known
  size_eq := rfl

/-- What is remembered of an array is its present index. -/
theorem Remembers.index_eq {asked : List ArrayNode} (remembers : cache.Remembers asked)
    (unchanged : Unchanged (asked ++ [array])) {index : KeyIndex}
    (known : cache.index? array.identity = some index) : index = .ofElements array.elements := by
  obtain ⟨other, mem, identity⟩ := remembers.asked_of_index _ index known
  have same : other.elements = array.elements :=
    unchanged other (List.mem_append_left _ mem) array (by simp) identity
  have present := remembers.present other mem
  rw [identity, known, same] at present
  exact Option.some.inj present

theorem Remembers.isSome_index? {asked : List ArrayNode} (remembers : cache.Remembers asked)
    (identity : Identity) :
    (cache.index? identity).isSome ↔ identity ∈ asked.map ArrayNode.identity := by
  constructor
  · intro known
    obtain ⟨index, known⟩ := Option.isSome_iff_exists.1 known
    obtain ⟨array, mem, rfl⟩ := remembers.asked_of_index identity index known
    exact List.mem_map_of_mem mem
  · intro listed
    obtain ⟨other, mem, rfl⟩ := List.mem_map.1 listed
    rw [remembers.present other mem]
    rfl

theorem remembers_lookup {asked : List ArrayNode} (remembers : cache.Remembers asked)
    (unchanged : Unchanged (asked ++ [array])) (key : String) :
    (cache.lookup array key).found = array.first? key ∧
      (cache.lookup array key).cache.Remembers (asked ++ [array]) := by
  have index_eq : ∀ index, cache.index? array.identity = some index →
      index = .ofElements array.elements := fun _ known => remembers.index_eq unchanged known
  have self := index?_lookup_self key index_eq
  refine ⟨lookup_found (fun index known => .inl (index_eq index known)) key, ?_⟩
  constructor
  · intro other mem
    by_cases same : array.identity = other.identity
    · rw [← same, self, unchanged array (by simp) other mem same]
    · rw [index?_lookup_other key same]
      obtain before | last := List.mem_append.1 mem
      · exact remembers.present other before
      · rw [List.mem_singleton.1 last] at same
        exact absurd rfl same
  · intro identity index known
    by_cases same : array.identity = identity
    · exact ⟨array, by simp, same⟩
    · rw [index?_lookup_other key same] at known
      obtain ⟨other, mem, same⟩ := remembers.asked_of_index identity index known
      exact ⟨other, List.mem_append_left _ mem, same⟩
  · have insertion : ((asked ++ [array]).map ArrayNode.identity).toFinset =
        insert array.identity (asked.map ArrayNode.identity).toFinset := by
      ext identity
      simp [eq_comm]
    rw [size_lookup, remembers.size_eq, insertion, Finset.card_insert_eq_ite]
    simp only [remembers.isSome_index?, List.mem_toFinset]

/-- Lookups made in turn answer the first elements with their keys, and leave a cache that
remembers their arrays. -/
theorem remembers_after (asks : List Ask) {asked : List ArrayNode}
    (remembers : cache.Remembers asked)
    (unchanged : Unchanged (asked ++ asks.map Ask.array)) :
    (cache.lookups asks).map Lookup.found =
        asks.map (fun ask => ask.array.first? ask.key) ∧
      (cache.after asks).Remembers (asked ++ asks.map Ask.array) := by
  induction asks generalizing cache asked with
  | nil =>
    refine ⟨rfl, ?_⟩
    rwa [List.map_nil, List.append_nil]
  | cons ask rest ih =>
    have split : asked ++ (ask :: rest).map Ask.array =
        (asked ++ [ask.array]) ++ rest.map Ask.array := by simp
    rw [split] at unchanged ⊢
    have first : Unchanged (asked ++ [ask.array]) := fun one mem two mem' =>
      unchanged one (List.mem_append_left _ mem) two (List.mem_append_left _ mem')
    obtain ⟨answer, behind⟩ := remembers_lookup remembers first ask.key
    obtain ⟨answers, last⟩ := ih behind unchanged
    exact ⟨congr (congrArg List.cons answer) answers, last⟩

end KeyCache

end JsonQuery

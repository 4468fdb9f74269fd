/-
# JsonQuery.Proofs.KeyCache.Cost -- what a lookup fetches

To find a key in an index is to fetch the element that the index points at, to see whether it
carries the key, and to index an array is to fetch all of it (`length_reads_rebuild`).  A
lookup does the one or both, the first of them perhaps twice (`length_reads_lookup`).

An array is indexed by the first lookup in it.  From then on, as long as it is not changed,
its index is the present one, and a key that is there costs one fetch
(`fetchesFrom_indexed`); that other arrays are looked up in between makes no difference.
-/
import JsonQuery.Proofs.KeyCache.Remembered

namespace JsonQuery

set_option autoImplicit false

namespace KeyCache

/-- The position that the index of an array, if there is one, has for a key. -/
def recorded? (cache : KeyCache) (array : ArrayNode) (key : String) : Option Nat :=
  (cache.index? array.identity).bind fun index => index[key]?

variable {cache : KeyCache} {array : ArrayNode} {key : String}

/-! ## One lookup -/

theorem length_reads_find (index : KeyIndex) (array : ArrayNode) (key : String) :
    (find index array key).2.length = if index[key]?.isSome then 1 else 0 := by
  unfold find
  split
  · rename_i missing
    simp [missing]
  · rename_i position known
    simp [known]

/-- What an index has for a key is found if the element there carries the key. -/
theorem isSome_find (index : KeyIndex) (array : ArrayNode) (key : String) :
    (find index array key).1.isSome ↔
      (index[key]?.bind fun position => array.elements[position]?.bind Json.key?) = some key := by
  unfold find
  split
  · rename_i missing
    simp [missing]
  · rename_i position known
    rw [known, Option.bind_some]
    cases array.elements[position]? with
    | none => simp
    | some element => by_cases carries : element.key? = some key <;> simp [carries]

/-- To index an array is to fetch all of it, and to find a key then is to fetch one element
more. -/
theorem length_reads_rebuild (cache : KeyCache) (array : ArrayNode) (key : String) :
    (cache.rebuild array key).reads.length =
      array.length + if ∃ element ∈ array.elements, element.key? = some key then 1 else 0 := by
  have all : (readAll array).length = array.length := by simp [readAll]
  have known : (KeyIndex.ofElements array.elements)[key]?.isSome ↔
      ∃ element ∈ array.elements, element.key? = some key := by
    rw [KeyIndex.getElem?_ofElements, List.findIdx?_isSome, List.any_eq_true]
    simp only [decide_eq_true_eq]
  have reads : (cache.rebuild array key).reads =
      readAll array ++ (find (.ofElements array.elements) array key).2 := rfl
  rw [reads, List.length_append, all, length_reads_find]
  simp only [known]

/-- What a lookup fetches: the element that the index points at, if it carries the key.  If
it does not, or there is no such element, or no such index, all of the array to index it,
and one element more if the key is found. -/
theorem length_reads_lookup (cache : KeyCache) (array : ArrayNode) (key : String) :
    (cache.lookup array key).reads.length =
      if ((cache.recorded? array key).bind fun position =>
          array.elements[position]?.bind Json.key?) = some key then 1
      else
        array.length + (if ∃ element ∈ array.elements, element.key? = some key then 1 else 0) +
          (if (cache.recorded? array key).isSome then 1 else 0) := by
  unfold lookup
  split
  · rename_i missing
    have nothing : cache.recorded? array key = none := by simp [recorded?, missing]
    rw [length_reads_rebuild, nothing]
    rfl
  · rename_i index known
    have entry : cache.recorded? array key = index[key]? := by simp [recorded?, known]
    have reads := length_reads_find index array key
    have hit := isSome_find index array key
    rw [entry]
    split
    · rename_i element fetched found
      rw [found] at reads hit
      have carries := hit.1 rfl
      rw [if_pos carries, reads]
      cases has : index[key]? with
      | none => simp [has] at carries
      | some position => rfl
    · rename_i fetched missed
      rw [missed] at reads hit
      rw [if_neg (fun carries => nomatch hit.2 carries), List.length_append, length_reads_rebuild,
        reads, Nat.add_comm]

/-- A lookup fetches from its own array and from no other. -/
theorem array_of_mem_reads {read : Read} (mem : read ∈ (cache.lookup array key).reads) :
    read.array = array.identity := by
  have of_find : ∀ index, ∀ read ∈ (find index array key).2, read.array = array.identity := by
    intro index read mem
    unfold find at mem
    split at mem
    · cases mem
    · rw [List.mem_singleton.1 mem]
  have of_rebuild : ∀ read ∈ (cache.rebuild array key).reads, read.array = array.identity := by
    intro read mem
    obtain all | found := List.mem_append.1 mem
    · obtain ⟨position, -, rfl⟩ := List.mem_map.1 all
      rfl
    · exact of_find _ read found
  unfold lookup at mem
  split at mem
  · exact of_rebuild read mem
  · rename_i index known
    have fetched := of_find index
    split at mem
    · rename_i element reads found
      rw [found] at fetched
      exact fetched read mem
    · rename_i reads missed
      rw [missed] at fetched
      obtain before | again := List.mem_append.1 mem
      · exact fetched read before
      · exact of_rebuild read again

/-! ## Lookups made in turn -/

/-- The number of fetches from an array. -/
def fetchesFrom (array : Identity) (answers : List Lookup) : Nat :=
  (answers.flatMap Lookup.reads).countP fun read => read.array = array

/-- A lookup in an array adds its fetches to those from the array, and nothing to those from
another. -/
theorem fetchesFrom_lookups (identity : Identity) (cache : KeyCache) (ask : Ask)
    (rest : List Ask) :
    fetchesFrom identity (cache.lookups (ask :: rest)) =
      (if ask.array.identity = identity then (cache.lookup ask.array ask.key).reads.length else 0) +
        fetchesFrom identity ((cache.lookup ask.array ask.key).cache.lookups rest) := by
  rw [lookups, fetchesFrom, List.flatMap_cons, List.countP_append, fetchesFrom]
  congr 1
  split
  · rename_i same
    rw [List.countP_eq_length]
    exact fun read mem => decide_eq_true ((array_of_mem_reads mem).trans same)
  · rename_i apart
    rw [List.countP_eq_zero]
    intro read mem
    rw [array_of_mem_reads mem]
    simpa using apart

/-- The present index of an array finds a key that an element carries with one fetch. -/
theorem length_reads_indexed
    (known : cache.index? array.identity = some (.ofElements array.elements))
    (carried : ∃ element ∈ array.elements, element.key? = some key) :
    (cache.lookup array key).reads.length = 1 := by
  have found : (find (.ofElements array.elements) array key).1.isSome := by
    rw [find_ofElements, Option.isSome_iff_ne_none]
    intro missing
    obtain ⟨element, mem, carries⟩ := carried
    exact ArrayNode.first?_eq_none_iff.1 missing element mem carries
  rw [length_reads_lookup, recorded?, known, Option.bind_some, if_pos ((isSome_find _ _ _).1 found)]

theorem length_reads_unindexed (unknown : cache.index? array.identity = none)
    (carried : ∃ element ∈ array.elements, element.key? = some key) :
    (cache.lookup array key).reads.length = array.length + 1 := by
  rw [length_reads_lookup, recorded?, unknown, Option.bind_none, Option.bind_none, if_neg nofun,
    if_pos carried]
  rfl

/-- Lookups in any arrays, of which those in one array ask for keys that elements carry, the
array being unchanged. -/
def AsksPresent (array : ArrayNode) (asks : List Ask) : Prop :=
  ∀ ask ∈ asks, ask.array.identity = array.identity → ask.array.elements = array.elements ∧
    ∃ element ∈ array.elements, element.key? = some ask.key

theorem fetchesFrom_indexed (asks : List Ask)
    (known : cache.index? array.identity = some (.ofElements array.elements))
    (present : AsksPresent array asks) :
    fetchesFrom array.identity (cache.lookups asks) =
      asks.countP fun ask => ask.array.identity = array.identity := by
  induction asks generalizing cache with
  | nil => rfl
  | cons ask rest ih =>
    obtain ⟨first, others⟩ := List.forall_mem_cons.1 present
    rw [fetchesFrom_lookups, List.countP_cons]
    by_cases same : ask.array.identity = array.identity
    · obtain ⟨elements, carried⟩ := first same
      rw [← same, ← elements] at known
      rw [← elements] at carried
      have still := index?_lookup_self ask.key fun index is => Option.some.inj (is.symm.trans known)
      have cost := length_reads_indexed known carried
      rw [same, elements] at still
      rw [if_pos same, cost, ih still others, Nat.add_comm]
      simp [same]
    · have still : (cache.lookup ask.array ask.key).cache.index? array.identity = _ :=
        (index?_lookup_other ask.key same).trans known
      rw [if_neg same, ih still others, Nat.zero_add]
      simp [same]

/-- The first of the lookups in an array without an index indexes it. -/
theorem fetchesFrom_unindexed (asks : List Ask) (unknown : cache.index? array.identity = none)
    (present : AsksPresent array asks)
    (asked : ∃ ask ∈ asks, ask.array.identity = array.identity) :
    fetchesFrom array.identity (cache.lookups asks) =
      array.length + asks.countP fun ask => ask.array.identity = array.identity := by
  induction asks generalizing cache with
  | nil =>
    obtain ⟨ask, mem, -⟩ := asked
    cases mem
  | cons ask rest ih =>
    obtain ⟨first, others⟩ := List.forall_mem_cons.1 present
    rw [fetchesFrom_lookups, List.countP_cons]
    by_cases same : ask.array.identity = array.identity
    · obtain ⟨elements, carried⟩ := first same
      rw [← same] at unknown
      rw [← elements] at carried
      have known := index?_lookup_self ask.key fun index is => nomatch is.symm.trans unknown
      have cost := length_reads_unindexed unknown carried
      have length : ask.array.length = array.length := congrArg List.length elements
      rw [same, elements] at known
      rw [if_pos same, cost, fetchesFrom_indexed rest known others, length, decide_eq_true same,
        if_pos rfl]
      omega
    · have still : (cache.lookup ask.array ask.key).cache.index? array.identity = none :=
        (index?_lookup_other ask.key same).trans unknown
      have later : ∃ ask ∈ rest, ask.array.identity = array.identity := by
        obtain ⟨other, mem, identity⟩ := asked
        obtain rfl | mem := List.mem_cons.1 mem
        · exact absurd identity same
        · exact ⟨other, mem, identity⟩
      rw [if_neg same, ih still others later, Nat.zero_add]
      simp [same]

/-- A lookup fetches from its array alone: one element, if the index points at an element that
carries the key; or else all of the array, one element more if the key is there, and one
more before that if an index pointed elsewhere, be it behind the end.  So lookups of keys
that are there, in an array that has no index yet and is not changed, fetch the array once
and one element each, whatever lookups in other arrays come between. -/
theorem lookup_cost (cache : KeyCache) (array : ArrayNode) :
    (∀ key, (∀ read ∈ (cache.lookup array key).reads, read.array = array.identity) ∧
      (cache.lookup array key).reads.length =
        if ((cache.recorded? array key).bind fun position =>
            array.elements[position]?.bind Json.key?) = some key then 1
        else
          array.length + (if ∃ element ∈ array.elements, element.key? = some key then 1 else 0) +
            (if (cache.recorded? array key).isSome then 1 else 0)) ∧
    ∀ asks, cache.index? array.identity = none → AsksPresent array asks →
      (∃ ask ∈ asks, ask.array.identity = array.identity) →
        fetchesFrom array.identity (cache.lookups asks) =
          array.length + asks.countP fun ask => ask.array.identity = array.identity := by
  refine ⟨fun key => ⟨fun read => array_of_mem_reads, length_reads_lookup cache array key⟩, ?_⟩
  intro asks unknown present asked
  exact fetchesFrom_unindexed asks unknown present asked

/-- Three lookups in an array of two elements, and between them one in another array, of which
a wrong index is remembered. -/
theorem lookup_cost_between :
    let keyed (key : String) : Json := .object [("_key", .string key)]
    let array : ArrayNode := ⟨[keyed "a", keyed "b"], .root 0 0⟩
    let other : ArrayNode := ⟨[keyed "b"], .root 1 0⟩
    let cache := empty.remember other.identity ((∅ : KeyIndex).insert "b" 9)
    let asks : List Ask := [⟨array, "b"⟩, ⟨other, "b"⟩, ⟨array, "a"⟩, ⟨array, "b"⟩]
    fetchesFrom array.identity (cache.lookups asks) = 5 := by
  intro keyed array other cache asks
  have unknown : cache.index? array.identity = none := by
    rw [index?_remember, if_neg (by decide), index?_empty]
  have one : ∃ element ∈ array.elements, element.key? = some "a" :=
    ⟨keyed "a", List.mem_cons_self, rfl⟩
  have two : ∃ element ∈ array.elements, element.key? = some "b" :=
    ⟨keyed "b", List.mem_cons_of_mem _ List.mem_cons_self, rfl⟩
  have present : AsksPresent array asks := by
    rw [AsksPresent]
    simp only [asks, List.forall_mem_cons]
    exact ⟨fun _ => ⟨trivial, two⟩, fun same => absurd same (by decide), fun _ => ⟨trivial, one⟩,
      fun _ => ⟨trivial, two⟩, nofun⟩
  exact (lookup_cost cache array).2 asks unknown present ⟨⟨array, "b"⟩, by simp [asks], rfl⟩

end KeyCache

end JsonQuery

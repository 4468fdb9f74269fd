/-
# JsonQuery.Proofs.KeyCache.Lookup -- what a lookup answers, whatever is remembered

Without memory a key names the first element that carries it (`ArrayNode.first?`).
A lookup answers an element that carries the key (`lookup_isHit`), and one if there
is any (`lookup_eq_none`), from every cache.  Which one it is can depend on the cache
only if two elements carry the key and the array was indexed before it changed: with
no index of the array, with the present one, or with keys apart, it is the first
(`lookup_found`).
-/
import JsonQuery.KeyCache
import JsonQuery.Proofs.Json.Parts

namespace JsonQuery

set_option autoImplicit false

/-! ## Elements with a key -/

namespace ArrayNode

/-- The first element that carries a key, with its position. -/
def first? (array : ArrayNode) (key : String) : Option (Nat × Json) :=
  (array.elements.findIdx? fun element => element.key? = some key).bind fun position =>
    array.elements[position]?.map fun element => (position, element)

/-- A position of an array and the element there, which carries a key. -/
structure IsHit (array : ArrayNode) (key : String) (hit : Nat × Json) : Prop where
  stands : array.elements[hit.1]? = some hit.2
  carries : hit.2.key? = some key

variable {array : ArrayNode} {key : String}

theorem isHit_of_first? {hit : Nat × Json} (first : array.first? key = some hit) :
    array.IsHit key hit := by
  obtain ⟨position, found, stands⟩ := Option.bind_eq_some_iff.1 first
  obtain ⟨bound, carries, -⟩ := List.findIdx?_eq_some_iff_getElem.1 found
  rw [List.getElem?_eq_getElem bound] at stands
  cases stands
  exact ⟨List.getElem?_eq_getElem bound, of_decide_eq_true carries⟩

theorem not_isHit_of_first? (first : array.first? key = none) (hit : Nat × Json) :
    ¬ array.IsHit key hit := by
  rintro ⟨stands, carries⟩
  have held : (array.elements.findIdx? fun element => element.key? = some key) ≠ none := by
    intro missing
    have other := List.findIdx?_eq_none_iff.1 missing _ (List.mem_of_getElem? stands)
    simp [carries] at other
  obtain ⟨position, found⟩ := Option.ne_none_iff_exists'.1 held
  obtain ⟨bound, -⟩ := List.findIdx?_eq_some_iff_getElem.1 found
  simp [first?, found, bound] at first

theorem first?_eq_none_iff :
    array.first? key = none ↔ ∀ element ∈ array.elements, element.key? ≠ some key := by
  constructor
  · intro first element mem carries
    obtain ⟨position, stands⟩ := List.mem_iff_getElem?.1 mem
    exact not_isHit_of_first? first (position, element) ⟨stands, carries⟩
  · intro missing
    cases first : array.first? key with
    | none => rfl
    | some hit =>
      obtain ⟨stands, carries⟩ := isHit_of_first? first
      exact absurd carries (missing hit.2 (List.mem_of_getElem? stands))

/-- The only element that carries a key is the first. -/
theorem first?_of_only {hit : Nat × Json} (is : array.IsHit key hit)
    (only : ∀ other, array.IsHit key other → other = hit) : array.first? key = some hit := by
  cases first : array.first? key with
  | none => exact absurd is (not_isHit_of_first? first hit)
  | some other => rw [only other (isHit_of_first? first)]

theorem isHit_unique (apart : KeysApart array.elements) {one two : Nat × Json}
    (hit : array.IsHit key one) (other : array.IsHit key two) : one = two := by
  have same := position_of_key apart hit.stands other.stands hit.carries other.carries
  refine Prod.ext same (Option.some.inj ?_)
  rw [← hit.stands, ← other.stands, same]

end ArrayNode

/-! ## An index -/

namespace KeyIndex

theorem getElem?_insertIfNew (index : KeyIndex) (other key : String) (position : Nat) :
    (index.insertIfNew other position)[key]? =
      index[key]?.or (if other = key then some position else none) := by
  simp only [Std.TreeMap.getElem?_insertIfNew, Std.compare_eq_iff_eq]
  by_cases same : other = key
  · subst same
    by_cases known : other ∈ index
    · simp [known]
    · simp [known]
  · simp [same]

/-- An index gives a key the position that it had, or else the first behind. -/
theorem getElem?_addFrom (elements : List Json) (position : Nat) (index : KeyIndex)
    (key : String) :
    (addFrom position elements index)[key]? =
      index[key]?.or
        ((elements.findIdx? fun element => element.key? = some key).map (position + ·)) := by
  induction elements generalizing position index with
  | nil => simp [addFrom]
  | cons element rest ih =>
    have shift : ((position + ·) ∘ (· + 1) : Nat → Nat) = (position + 1 + ·) := by
      funext n
      exact (Nat.succ_add_eq_add_succ position n).symm
    rw [addFrom, ih, List.findIdx?_cons]
    cases carried : element.key? with
    | none => simp [shift]
    | some other =>
      rw [getElem?_insertIfNew, Option.or_assoc]
      by_cases same : other = key
      · simp [same]
      · simp [same, shift]

theorem getElem?_ofElements (elements : List Json) (key : String) :
    (ofElements elements)[key]? =
      elements.findIdx? fun element => element.key? = some key := by
  simp [ofElements, getElem?_addFrom]

end KeyIndex

/-! ## A lookup -/

namespace KeyCache

theorem index?_empty (array : Identity) : empty.index? array = none :=
  Std.TreeMap.getElem?_emptyc

theorem index?_remember (cache : KeyCache) (array other : Identity) (index : KeyIndex) :
    (cache.remember array index).index? other =
      if array = other then some index else cache.index? other := by
  simp only [index?, remember, Std.TreeMap.getElem?_insert, Std.compare_eq_iff_eq]
  by_cases same : array = other
  · simp [same]
  · rw [if_neg same, if_neg (mt Identity.toList_injective same)]

variable {cache : KeyCache} {array : ArrayNode} {key : String}

theorem find_isHit {index : KeyIndex} {hit : Nat × Json}
    (found : (find index array key).1 = some hit) : array.IsHit key hit := by
  unfold find at found
  split at found
  · cases found
  · simp only [Option.map_eq_some_iff, Option.filter_eq_some_iff, decide_eq_true_eq] at found
    obtain ⟨element, ⟨stands, carries⟩, rfl⟩ := found
    exact ⟨stands, carries⟩

/-- The present index of an array gives the first element with a key. -/
theorem find_ofElements (array : ArrayNode) (key : String) :
    (find (.ofElements array.elements) array key).1 = array.first? key := by
  rw [find, KeyIndex.getElem?_ofElements, ArrayNode.first?]
  cases found : array.elements.findIdx? fun element => element.key? = some key with
  | none => rfl
  | some position =>
    obtain ⟨bound, carries, -⟩ := List.findIdx?_eq_some_iff_getElem.1 found
    have kept := of_decide_eq_true carries
    simp [bound, kept]

theorem rebuild_found (cache : KeyCache) (array : ArrayNode) (key : String) :
    (cache.rebuild array key).found = array.first? key :=
  find_ofElements array key

theorem rebuild_cache (cache : KeyCache) (array : ArrayNode) (key : String) :
    (cache.rebuild array key).cache =
      cache.remember array.identity (.ofElements array.elements) := rfl

/-- A lookup answers from the index that is there, or as if there were none. -/
theorem lookup_cases (cache : KeyCache) (array : ArrayNode) (key : String) :
    (∃ index, cache.index? array.identity = some index ∧
        (cache.lookup array key).found = (find index array key).1 ∧
        (cache.lookup array key).found.isSome ∧ (cache.lookup array key).cache = cache) ∨
      (cache.lookup array key).found = array.first? key ∧
        (cache.lookup array key).cache =
          cache.remember array.identity (.ofElements array.elements) := by
  unfold lookup
  split
  · exact .inr ⟨rebuild_found cache array key, rebuild_cache cache array key⟩
  · rename_i index known
    split
    · rename_i hit reads found
      exact .inl ⟨index, known, by rw [found], rfl, rfl⟩
    · exact .inr ⟨rebuild_found cache array key, rebuild_cache cache array key⟩

/-- What a lookup answers carries the key. -/
theorem lookup_isHit {hit : Nat × Json} (found : (cache.lookup array key).found = some hit) :
    array.IsHit key hit := by
  obtain ⟨index, -, same, -⟩ | ⟨same, -⟩ := cache.lookup_cases array key
  · exact find_isHit (same ▸ found)
  · exact ArrayNode.isHit_of_first? (same ▸ found)

/-- A lookup answers nothing only if no element carries the key. -/
theorem lookup_eq_none (found : (cache.lookup array key).found = none) :
    array.first? key = none := by
  obtain ⟨index, -, -, some, -⟩ | ⟨same, -⟩ := cache.lookup_cases array key
  · rw [found] at some
    cases some
  · exact same ▸ found

/-- A lookup answers an element that carries the key, and nothing only if there is none,
whatever is remembered of the array: positions of former elements, positions behind its
end, or an index without the key.  So of keys that one element carries, it answers that
element. -/
theorem lookup_answers (cache : KeyCache) (array : ArrayNode) (key : String) :
    let found := (cache.lookup array key).found
    (found = none ↔ ∀ element ∈ array.elements, element.key? ≠ some key) ∧
      (∀ position element, found = some (position, element) →
        array.elements[position]? = some element ∧ element.key? = some key) ∧
      ∀ position element, array.elements[position]? = some element → element.key? = some key →
        (∀ other, (array.elements[other]?.bind Json.key?) = some key → other = position) →
          found = some (position, element) := by
  intro found
  refine ⟨?_, fun position element is => ?_, fun position element stands carries only => ?_⟩
  · rw [← ArrayNode.first?_eq_none_iff]
    constructor
    · exact lookup_eq_none
    · intro missing
      cases is : found with
      | none => rfl
      | some hit => exact absurd (lookup_isHit is) (ArrayNode.not_isHit_of_first? missing hit)
  · obtain ⟨stands, carries⟩ := lookup_isHit is
    exact ⟨stands, carries⟩
  · have hit : array.IsHit key (position, element) := ⟨stands, carries⟩
    cases is : found with
    | none => exact absurd hit (ArrayNode.not_isHit_of_first? (lookup_eq_none is) _)
    | some other =>
      obtain ⟨stands', carries'⟩ := lookup_isHit is
      have same : other.1 = position := only other.1 (by rw [stands']; exact carries')
      rw [same, stands, Option.some.injEq] at stands'
      rw [← same, stands']

/-- The index is one of other elements: it points behind the end for one key and at the
wrong element for the other. -/
theorem lookup_answers_stale :
    let keyed (key : String) : Json := .object [("_key", .string key)]
    let array : ArrayNode := ⟨[keyed "b", keyed "a"], .root 0 0⟩
    let cache := empty.remember array.identity (((∅ : KeyIndex).insert "a" 7).insert "b" 1)
    (cache.lookup array "a").found = some (1, keyed "a") ∧
      (cache.lookup array "b").found = some (0, keyed "b") ∧
      (cache.lookup array "c").found = none := by
  intro keyed array cache
  have only_a : ∀ other, (array.elements[other]?.bind Json.key?) = some "a" → other = 1
    | 0, carries => absurd carries (by decide)
    | 1, _ => rfl
    | _ + 2, carries => nomatch carries
  have only_b : ∀ other, (array.elements[other]?.bind Json.key?) = some "b" → other = 0
    | 0, _ => rfl
    | 1, carries => absurd carries (by decide)
    | _ + 2, carries => nomatch carries
  have missing : ∀ element ∈ array.elements, element.key? ≠ some "c" := by decide
  exact ⟨(lookup_answers cache array "a").2.2 1 (keyed "a") rfl rfl only_a,
    (lookup_answers cache array "b").2.2 0 (keyed "b") rfl rfl only_b,
    (lookup_answers cache array "c").1.2 missing⟩

/-- An index of an array that no lookup can be led astray by. -/
def Trusts (cache : KeyCache) (array : ArrayNode) : Prop :=
  ∀ index, cache.index? array.identity = some index →
    index = .ofElements array.elements ∨ KeysApart array.elements

theorem trusts_empty (array : ArrayNode) : empty.Trusts array := by
  intro index known
  rw [index?_empty] at known
  cases known

/-- The answer of a lookup is the first element that carries the key. -/
theorem lookup_found (trusts : cache.Trusts array) (key : String) :
    (cache.lookup array key).found = array.first? key := by
  obtain ⟨index, known, same, -⟩ | ⟨same, -⟩ := cache.lookup_cases array key
  · obtain rfl | apart := trusts index known
    · rw [same, find_ofElements]
    · cases found : (cache.lookup array key).found with
      | none => exact (lookup_eq_none found).symm
      | some hit =>
        cases first : array.first? key with
        | none => exact absurd (lookup_isHit found) (ArrayNode.not_isHit_of_first? first hit)
        | some other =>
          exact congrArg some
            (ArrayNode.isHit_unique apart (lookup_isHit found) (ArrayNode.isHit_of_first? first))
  · exact same

/-- A lookup in an array leaves an index of another as it is, and what it remembers
of the array itself is the present index. -/
theorem trusts_lookup {other : ArrayNode} (trusts : cache.Trusts other)
    (distinct : array.identity = other.identity → array.elements = other.elements)
    (key : String) : (cache.lookup array key).cache.Trusts other := by
  obtain ⟨-, -, -, -, same⟩ | ⟨-, same⟩ := cache.lookup_cases array key
  · rwa [same]
  · intro index known
    rw [same, index?_remember] at known
    split at known
    · rename_i identity
      cases known
      exact .inl (by rw [distinct identity])
    · exact trusts index known

end KeyCache

end JsonQuery

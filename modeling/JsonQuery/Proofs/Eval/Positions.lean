/-
# JsonQuery.Proofs.Eval.Positions -- the elements that slices and indices take

A slice takes the elements between two positions of an array, and an index the element at
one.  Either may be counted from the end.  Which position is meant is said here in exact
integers: by `boundAt` for the bound of a slice, and by `Double.Selects` for the number of an
index, whatever number that is.

A machine works positions out in words of 64 bits.  There a number beyond the words is brought
to the nearest of them, the sum of a slice bound and the length stops where the words end, and
the sum of an index and the length wraps around (`Word.slicePosition`, `Word.indexPosition?`).
In an array whose length is a word nothing of this is to be seen: the positions are the same
(`Word.slicePosition_eq`, `Word.indexPosition?_eq`).

Neither a slice nor an index asks the key cache, so what they yield is the same from every
cache (`Element.yields_slice`, `Element.yields_index`).
-/
import Mathlib.Algebra.Group.Int.Defs
import Mathlib.Algebra.Group.Nat.Defs
import JsonQuery.Proofs.Eval.Trusted
import JsonQuery.Proofs.Query.Address

namespace JsonQuery

set_option autoImplicit false

/-! ## Exact positions -/

/-- The position that a slice bound means: a negative one counts from the end, and none
leads out of the array. -/
def boundAt (bound : Int) (length : Nat) : Int :=
  if bound < 0 then max 0 (length + bound) else min bound length

theorem slicePosition_eq (bound : Int) (length : Nat) :
    (slicePosition bound length : Int) = boundAt bound length := by
  unfold slicePosition boundAt
  split <;> omega

/-- The exact integer that a finite value is. -/
def Double.Denotes (value : Double) (x : Int) : Prop :=
  value.isFinite = true ∧ value.rank = x * unitsPerOne

/-- A number means a position of an array as an index: it is an integer, and counted from the
front, or from the end if it is negative, the integer is that position. -/
def Double.Selects (value : Double) (length position : Nat) : Prop :=
  position < length ∧
    ∃ x, value.Denotes x ∧ (position : Int) = if x < 0 then length + x else x

theorem unitsPerOne_pos : 0 < unitsPerOne := by
  unfold unitsPerOne
  apply Nat.pow_pos
  decide

/-- A magnitude of a whole number of units of one is that number. -/
theorem Magnitude.toNat?_of_units {magnitude : Magnitude} {n : Nat}
    (units : magnitude.units = n * unitsPerOne) : magnitude.toNat? = some n := by
  rw [toNat?, units, Nat.mul_mod_left, if_pos rfl, Nat.mul_div_cancel n unitsPerOne_pos]

theorem Magnitude.toNat?_eq_some {magnitude : Magnitude} {x : Int} :
    (∃ n, magnitude.toNat? = some n ∧ (n : Int) = x) ↔
      (magnitude.units : Int) = x * unitsPerOne := by
  have one : (0 : Int) < unitsPerOne := Int.natCast_pos.2 unitsPerOne_pos
  constructor
  · rintro ⟨n, whole, rfl⟩
    rw [units_of_toNat? whole, Int.natCast_mul]
  · intro units
    have positive : 0 ≤ x := by
      refine Int.le_of_mul_le_mul_right ?_ one
      rw [Int.zero_mul, ← units]
      exact Int.natCast_nonneg _
    obtain ⟨n, rfl⟩ := Int.eq_ofNat_of_zero_le positive
    exact ⟨n, toNat?_of_units (by exact_mod_cast units), rfl⟩

theorem Double.toInt?_eq_some {value : Double} {x : Int} :
    value.toInt? = some x ↔ value.Denotes x := by
  cases value with
  | nan | infinite => exact ⟨nofun, nofun⟩
  | finite negative magnitude =>
    rw [toInt?_finite, Option.map_eq_some_iff, Denotes]
    cases negative with
    | false =>
      simp only [rank, isFinite, true_and, ← Magnitude.toNat?_eq_some, Bool.false_eq_true, if_false]
    | true =>
      have negated : ∀ n : Nat, -(n : Int) = x ↔ (n : Int) = -x := by omega
      have place : -(magnitude.units : Int) = x * unitsPerOne ↔
          (magnitude.units : Int) = -x * unitsPerOne := by
        rw [Int.neg_mul, Int.neg_eq_comm, eq_comm]
      simp only [rank, isFinite, true_and, place, ← Magnitude.toNat?_eq_some, if_true, negated]

theorem indexPosition?_eq_some {value : Double} {length position : Nat} :
    indexPosition? value length = some position ↔ value.Selects length position := by
  simp only [indexPosition?, Double.Selects, ← Double.toInt?_eq_some, Option.bind_eq_bind,
    Option.bind_eq_some_iff, Option.ite_none_right_eq_some, Option.some.injEq]
  constructor
  · rintro ⟨x, denotes, ⟨lower, upper⟩, rfl⟩
    exact ⟨by omega, x, denotes, by omega⟩
  · rintro ⟨bound, x, denotes, is⟩
    exact ⟨x, denotes, by omega, by omega⟩

/-! ## Positions in words -/

namespace Word

/-- The sum of two words; beyond the words it stops at the last of them. -/
def addSaturating (x y : Int64) : Int64 := .ofIntClamp (x.toInt + y.toInt)

/-- A word brought between zero and another. -/
def clampBelow (upper x : Int64) : Int64 := if x < 0 then 0 else if upper < x then upper else x

/-- The position of a slice bound, worked out in words. -/
def slicePosition (bound : Int64) (length : Nat) : Nat :=
  let last := Int64.ofIntClamp length
  (clampBelow last (if bound < 0 then addSaturating bound last else bound)).toNatClampNeg

/-- The range of positions of a slice, worked out in words. -/
def sliceRange (first last : Option Int64) (length : Nat) : Nat × Nat :=
  ((first.map fun bound => slicePosition bound length).getD 0,
    (last.map fun bound => slicePosition bound length).getD length)

/-- An index counted from the front; the sum of a negative one and the length wraps around. -/
def fromFront (index length : Int64) : Int64 := if index < 0 then index + length else index

/-- The position of an index, worked out in words.  An integer beyond the words is brought to
the nearest of them. -/
def indexPosition? (value : Double) (length : Nat) : Option Nat :=
  if length < 2 ^ 63 then
    value.toInt?.bind fun x =>
      let position := fromFront (.ofIntClamp x) (.ofNat length)
      if 0 ≤ position ∧ position < .ofNat length then some position.toNatClampNeg else none
  else none

theorem toInt_ofIntClamp (x : Int) :
    (Int64.ofIntClamp x).toInt = max (-2 ^ 63) (min x (2 ^ 63 - 1)) := by
  have least : Int64.minValue.toInt = -2 ^ 63 := by decide
  have greatest : Int64.maxValue.toInt = 2 ^ 63 - 1 := by decide
  unfold Int64.ofIntClamp
  split
  · split
    · rw [Int64.toInt_ofIntLE]
      omega
    · omega
  · omega

theorem toInt_clampBelow {upper : Int64} (positive : 0 ≤ upper.toInt) (x : Int64) :
    (clampBelow upper x).toInt = max 0 (min x.toInt upper.toInt) := by
  unfold clampBelow
  simp only [Int64.lt_iff_toInt_lt, Int64.toInt_zero]
  split
  · rw [Int64.toInt_zero]
    omega
  · split <;> omega

/-- Where the length is a word, neither the clamping nor the saturation of a word is seen in
the position of a bound. -/
theorem slicePosition_eq {length : Nat} (fits : length < 2 ^ 63) (bound : Int64) :
    slicePosition bound length = JsonQuery.slicePosition bound.toInt length := by
  have lower := bound.le_toInt
  have last : (Int64.ofIntClamp length).toInt = length := by
    rw [toInt_ofIntClamp]
    omega
  have positive : 0 ≤ (Int64.ofIntClamp length).toInt := by omega
  rw [slicePosition, ← Int64.toNat_toInt, toInt_clampBelow positive, last,
    JsonQuery.slicePosition]
  simp only [Int64.lt_iff_toInt_lt, Int64.toInt_zero]
  split
  · rw [addSaturating, toInt_ofIntClamp, last]
    omega
  · omega

theorem sliceRange_eq {length : Nat} (fits : length < 2 ^ 63) (first last : Option Int64) :
    sliceRange first last length =
      JsonQuery.sliceRange (first.map Int64.toInt) (last.map Int64.toInt) length := by
  simp only [sliceRange, JsonQuery.sliceRange, slicePosition_eq fits, Option.map_map,
    Function.comp_def]

/-- The sum of an index and a length does not wrap around, because their signs differ. -/
theorem toInt_fromFront {length : Int64} (positive : 0 ≤ length.toInt) (index : Int64) :
    (fromFront index length).toInt =
      if index.toInt < 0 then index.toInt + length.toInt else index.toInt := by
  have lower := index.le_toInt
  have upper := length.toInt_lt
  simp only [fromFront, Int64.lt_iff_toInt_lt, Int64.toInt_zero]
  split
  · rw [Int64.toInt_add]
    exact Int.bmod_eq_of_le (by omega) (by omega)
  · rfl

/-- Where the length is a word, an integer beyond the words is no position from either end, and
so nothing is seen of how it is brought to a word. -/
theorem indexPosition?_eq {length : Nat} (fits : length < 2 ^ 63) (value : Double) :
    indexPosition? value length = JsonQuery.indexPosition? value length := by
  have last : (Int64.ofNat length).toInt = length := Int64.toInt_ofNat_of_lt fits
  rw [indexPosition?, if_pos fits, JsonQuery.indexPosition?, Option.bind_eq_bind]
  refine Option.bind_congr fun x _ => ?_
  have place := toInt_fromFront (by omega : 0 ≤ (Int64.ofNat length).toInt) (.ofIntClamp x)
  rw [toInt_ofIntClamp, last] at place
  simp only [Int64.le_iff_toInt_le, Int64.lt_iff_toInt_lt, Int64.toInt_zero, last,
    ← Int64.toNat_toInt]
  generalize (fromFront (.ofIntClamp x) (.ofNat length)).toInt = position at place ⊢
  have same_or_outside : position = (if x < 0 then x + length else x) ∨
      ¬ (0 ≤ position ∧ position < length) ∧
        ¬ ((0 ≤ if x < 0 then x + length else x) ∧ (if x < 0 then x + length else x) < length) := by
    omega
  rcases same_or_outside with same | ⟨outside, outside'⟩
  · rw [same]
  · rw [if_neg outside, if_neg outside']

end Word

/-! ## What is yielded -/

/-- A search that asks for no key produces its items, whatever the cache is. -/
theorem Search.produced_of_unasked {search : Search} {finds : Node → Location → Prop}
    (within : search.Within (fun _ => False) finds) (cache : KeyCache) :
    search.produced cache = search.items := by
  have steady : Steady (fun _ => False) fun _ => True :=
    ⟨fun _ _ asked => asked.elim, fun _ _ asked => asked.elim⟩
  exact Search.produced_steady steady within trivial

/-- The elements between two positions of a list. -/
theorem filter_zipIdx_between {α : Type} (list : List α) (start stop position : Nat) :
    ((list.zipIdx position).filter fun (_, i) => start ≤ i ∧ i < stop).map Prod.fst =
      (list.take (stop - position)).drop (start - position) := by
  induction list generalizing position with
  | nil => simp
  | cons x rest ih =>
    rw [List.zipIdx_cons, List.filter_cons]
    by_cases ended : stop ≤ position
    · have none : stop - position = 0 := by omega
      have none' : stop - (position + 1) = 0 := by omega
      rw [if_neg (by simp; omega), ih, none, none']
      simp
    · have later : stop - position = stop - (position + 1) + 1 := by omega
      rw [later, List.take_succ_cons]
      by_cases before : position < start
      · have first : start - position = start - (position + 1) + 1 := by omega
        rw [if_neg (by simp; omega), ih, first, List.drop_succ_cons]
      · have first : start - position = 0 := by omega
        have first' : start - (position + 1) = 0 := by omega
        rw [if_pos (by simp; omega), List.map_cons, ih, first, first', List.drop_zero,
          List.drop_zero]

/-- An array as a match. -/
def ArrayNode.at (array : ArrayNode) (location : Location) : Match := ⟨array.node, location⟩

theorem ArrayNode.parts_at (array : ArrayNode) (location : Location) :
    (array.at location).parts = array.elements.zipIdx.map fun (element, i) =>
      ⟨array.child i element, location ++ [.ofElement i element]⟩ := rfl

/-- A walk over a part of an array finds the elements there, with their locations. -/
theorem produced_part (array : ArrayNode) (location : Location) (start stop : Nat)
    (cache : KeyCache) :
    (eachElement .node array location start ((array.elements.take stop).drop start)).produced
        cache =
      (((array.at location).parts.take stop).drop start).map Match.item := by
  have anything : Downward.Elements (fun _ _ => True) array.site location start
      ((array.elements.take stop).drop start) := fun _ _ _ => trivial
  have part : ((array.elements.take stop).drop start).zipIdx start =
      (array.elements.zipIdx.take stop).drop start := by
    refine List.ext_getElem? fun i => ?_
    simp only [List.getElem?_zipIdx, List.getElem?_drop, List.getElem?_take]
    split <;> simp
  rw [Search.produced_of_unasked (within_eachElement (fun _ _ => within_node) _ anything),
    items_eachElement_from, part, ArrayNode.parts_at, ← List.map_take, ← List.map_drop,
    List.map_map]
  exact List.map_eq_flatMap.symm

theorem produced_wildcard (array : ArrayNode) (location : Location) (cache : KeyCache) :
    ((Path.start false .wildcard).search array.node location).produced cache =
      (array.at location).parts.map Match.item := by
  have whole := produced_part array location 0 (array.at location).parts.length cache
  rwa [List.take_length, List.drop_zero, List.drop_zero, ArrayNode.parts_at, List.length_map,
    List.length_zipIdx, List.take_length] at whole

/-! ## Slices -/

theorem Element.yields_part (array : ArrayNode) (location : Location) (cache : KeyCache)
    (first last : Option Int) :
    (Element.slice first last).yields cache (array.at location) =
      (((array.at location).parts.take (sliceRange first last array.length).2).drop
        (sliceRange first last array.length).1).map Match.item := by
  rw [yields, search]
  exact produced_part array location _ _ cache

theorem sliceRange_eq (first last : Option Int) (length : Nat) :
    ((sliceRange first last length).1 : Int) =
        (first.map fun bound => boundAt bound length).getD 0 ∧
      ((sliceRange first last length).2 : Int) =
        (last.map fun bound => boundAt bound length).getD length := by
  cases first <;> cases last <;> simp [sliceRange, slicePosition_eq]

/-- A slice of an array takes the elements from one position up to another, in their order and
each with its own location, from every cache.  A bound means its exact position, and in 64-bit
words the same positions are found.  Two slices that meet at a bound take what the slice
without bounds takes, and that is what `*` finds. -/
theorem Element.yields_slice (array : ArrayNode) (location : Location) (cache : KeyCache) :
    (∀ first last : Option Int,
      let lower := (first.map fun bound => boundAt bound array.length).getD 0
      let upper := (last.map fun bound => boundAt bound array.length).getD array.length
      (Element.slice first last).yields cache (array.at location) =
        ((array.at location).parts.zipIdx.filter fun (_, i) => lower ≤ i ∧ i < upper).map
          fun (part, _) => part.item) ∧
    (array.length < 2 ^ 63 → ∀ first last : Option Int64,
      Word.sliceRange first last array.length =
        sliceRange (first.map Int64.toInt) (last.map Int64.toInt) array.length) ∧
    ∀ bound : Int,
      (Element.slice none (some bound)).yields cache (array.at location) ++
          (Element.slice (some bound) none).yields cache (array.at location) =
        (Element.slice none none).yields cache (array.at location) ∧
      (Element.slice none none).yields cache (array.at location) =
        ((Path.start false .wildcard).search array.node location).produced cache := by
  have length : (array.at location).parts.length = array.length := by
    rw [ArrayNode.parts_at, List.length_map, List.length_zipIdx]
    rfl
  refine ⟨fun first last => ?_, Word.sliceRange_eq, fun bound => ⟨?_, ?_⟩⟩
  · intro lower upper
    obtain ⟨start, stop⟩ := sliceRange_eq first last array.length
    have between := filter_zipIdx_between (array.at location).parts
      (sliceRange first last array.length).1 (sliceRange first last array.length).2 0
    rw [Nat.sub_zero, Nat.sub_zero] at between
    rw [yields_part, ← between, List.map_map]
    simp only [lower, upper, ← start, ← stop, Int.ofNat_le, Int.ofNat_lt]
    rfl
  · simp only [yields_part, sliceRange, Option.map_some, Option.map_none, Option.getD_some,
      Option.getD_none, List.drop_zero]
    rw [List.take_of_length_le (Nat.le_of_eq length), ← List.map_append, List.take_append_drop]
  · rw [yields_part, produced_wildcard]
    simp only [sliceRange, Option.map_none, Option.getD_none, List.drop_zero]
    rw [List.take_of_length_le (Nat.le_of_eq length)]

/-- One element has a key and is named by it.  The last bound lies at the end of the words, and
the first one counts from the end of the array. -/
theorem Element.yields_slice_keyed :
    let keyed : Json := .object [("_key", .string "k")]
    let array : ArrayNode := ⟨[.null, keyed, .boolean true], .root 0 0⟩
    array.length < 2 ^ 63 ∧
      (Element.slice (some (-2)) (some (2 ^ 63 - 1))).yields .empty (array.at []) =
        [.node ⟨keyed, ⟨0, 0, [1]⟩⟩ [.key "k"], .node ⟨.boolean true, ⟨0, 0, [2]⟩⟩ [.index 2]] ∧
      Word.sliceRange (some (-2)) (some Int64.maxValue) array.length = (1, 3) ∧
      (Element.slice none (some (-2 ^ 63))).yields .empty (array.at []) ++
          (Element.slice (some (-2 ^ 63)) none).yields .empty (array.at []) =
        ((Path.start false .wildcard).search array.node []).produced .empty := by
  intro keyed array
  have fits : array.length < 2 ^ 63 := by decide
  obtain ⟨between, words, meet⟩ := Element.yields_slice array [] .empty
  refine ⟨fits, (between _ _).trans rfl, (words fits _ _).trans (by decide), ?_⟩
  exact (meet (-2 ^ 63)).1.trans (meet 0).2

/-! ## Indices -/

theorem Site.child_inj {site : Site} {i j : Nat} (same : site.child i = site.child j) : i = j := by
  have ordinals := List.append_cancel_left (congrArg Site.ordinals same)
  exact (List.cons.inj ordinals).1

theorem Match.site_part {found part : Match} {i : Nat} (stands : found.parts[i]? = some part) :
    part.node.site = found.node.site.child i := by
  have node := found.node_getElem?_parts i
  rw [stands, Option.map_some, eq_comm, Option.map_eq_some_iff] at node
  obtain ⟨value, -, is⟩ := node
  rw [← is]

/-- No two parts of a node are one node. -/
theorem Match.position_unique {found one two : Match} {i j : Nat}
    (stands : found.parts[i]? = some one) (stands' : found.parts[j]? = some two)
    (same : one.node = two.node) : i = j := by
  have sites : found.node.site.child i = found.node.site.child j := by
    rw [← site_part stands, ← site_part stands', same]
  exact Site.child_inj sites

/-- What an index yields, from every cache: the element at the position that it means. -/
theorem Element.yields_at (value : Double) (array : ArrayNode) (location : Location)
    (cache : KeyCache) :
    (Element.expr (.number value)).yields cache (array.at location) =
      ((indexPosition? value array.length).bind fun position =>
        (array.at location).parts[position]?.map Match.item).toList := by
  have unasked : ((Element.expr (.number value)).search array.node location).Within
      (fun _ => False) fun _ _ => True := by
    unfold search
    split
    · trivial
    · split
      · trivial
      · exact within_eachElement (fun _ _ => within_node) _ fun _ _ _ => trivial
  refine (Search.produced_of_unasked unasked cache).trans ?_
  cases means : indexPosition? value array.length with
  | none =>
    have held : array.node.array? = some array := rfl
    simp only [search, held, means]
    rfl
  | some position =>
    have bound := (indexPosition?_eq_some.1 means).1
    have stands := List.getElem?_eq_getElem bound
    rw [items_index rfl means stands, ArrayNode.parts_at, Option.bind_some, List.getElem?_map,
      List.getElem?_zipIdx, stands, Nat.zero_add]
    rfl

/-- A number in a subscript of an array yields, from every cache, the element at a position
exactly if it means that position: if it is a finite integer and is the position, counted from
the front or, if negative, from the end.  If it means none, nothing is yielded.  In 64-bit words
the same position is found. -/
theorem Element.yields_index (value : Double) (array : ArrayNode) (location : Location)
    (cache : KeyCache) :
    (∀ position part, (array.at location).parts[position]? = some part →
      ((Element.expr (.number value)).yields cache (array.at location) = [part.item] ↔
        value.Selects array.length position)) ∧
    ((∀ position, ¬ value.Selects array.length position) →
      (Element.expr (.number value)).yields cache (array.at location) = []) ∧
    (array.length < 2 ^ 63 →
      Word.indexPosition? value array.length = indexPosition? value array.length) := by
  refine ⟨fun position part stands => ?_, fun no_position => ?_,
    fun fits => Word.indexPosition?_eq fits value⟩
  · rw [yields_at, ← indexPosition?_eq_some]
    constructor
    · intro yields
      obtain ⟨other, means, is⟩ :=
        Option.bind_eq_some_iff.1 (Option.toList_eq_singleton_iff.1 yields)
      obtain ⟨found, stands', same⟩ := Option.map_eq_some_iff.1 is
      rw [Match.item, Match.item, Item.node.injEq] at same
      rw [means, Match.position_unique stands' stands same.1]
    · intro means
      rw [means, Option.bind_some, stands]
      rfl
  · rw [yields_at]
    cases means : indexPosition? value array.length with
    | none => rfl
    | some position => exact absurd (indexPosition?_eq_some.1 means) (no_position position)

/-- A negative zero is the first position and `-2` the one before the last.  The number at which
the words end, and the last of the negative words, are no positions. -/
theorem Element.yields_index_words :
    let array : ArrayNode := ⟨[.null, .boolean true, .null], .root 0 0⟩
    let index (value : Double) := (Element.expr (.number value)).yields .empty (array.at [])
    let part : Match := ⟨⟨.boolean true, ⟨0, 0, [1]⟩⟩, [.index 1]⟩
    array.length < 2 ^ 63 ∧ (array.at []).parts[1]? = some part ∧
      index (.ofInt (-2)) = [part.item] ∧
      (Double.finite true .zero).Selects array.length 0 ∧
      (∀ position, ¬ (Double.ofInt (2 ^ 63)).Selects array.length position) ∧
      index (.ofInt (2 ^ 63)) = [] ∧
      Word.indexPosition? (.ofInt (-2 ^ 63)) array.length = none := by
  intro array index part
  have fits : array.length < 2 ^ 63 := by decide
  have back : indexPosition? (.ofInt (-2)) array.length = some 1 := by decide +kernel
  have zero : indexPosition? (.finite true .zero) array.length = some 0 := by decide +kernel
  have beyond : indexPosition? (.ofInt (2 ^ 63)) array.length = none := by decide +kernel
  have least : indexPosition? (.ofInt (-2 ^ 63)) array.length = none := by decide +kernel
  have unselected : ∀ position, ¬ (Double.ofInt (2 ^ 63)).Selects array.length position := by
    intro position selects
    rw [← indexPosition?_eq_some, beyond] at selects
    cases selects
  refine ⟨fits, rfl, ?_, indexPosition?_eq_some.1 zero, unselected, ?_, ?_⟩
  · exact ((yields_index _ array [] .empty).1 1 part rfl).2 (indexPosition?_eq_some.1 back)
  · exact (yields_index _ array [] .empty).2.1 unselected
  · exact ((yields_index _ array [] .empty).2.2 fits).trans least

end JsonQuery

/-
# JsonQuery.Proofs.Query.Distinct -- the first match at each location

A query reports of its items the nodes, and of those at one location the first
(`reported_eq_distinct`).  `Match.distinct` is that choice on a list of matches.

The choice is made once: one made before, among the matches of each part, changes
nothing (`distinct_flatMap_distinct`), and neither does one among the matches that the
parts come from, if the location of a match tells which it is (`distinct_flatMap`).
-/
import JsonQuery.Proofs.Query.Reported

namespace JsonQuery

set_option autoImplicit false

namespace Match

/-- The matches without those that have the location of a match before them. -/
def distinct (found : List Match) : List Match :=
  found.eraseDupsBy fun one two => one.location == two.location

/-- The matches that stand elsewhere. -/
def apartFrom (location : Location) (found : List Match) : List Match :=
  found.filter fun one => one.location != location

/-- Whether one of the matches stands at a location. -/
def reaches (found : List Match) (location : Location) : Bool :=
  found.any fun one => one.location == location

theorem reaches_cons (head : Match) (rest : List Match) (location : Location) :
    reaches (head :: rest) location = (head.location == location || reaches rest location) := rfl

theorem reaches_apartFrom {other location : Location} (differ : location ≠ other)
    (found : List Match) : reaches (apartFrom other found) location = reaches found location := by
  rw [reaches, apartFrom, List.any_filter, reaches]
  congr 1
  funext one
  by_cases same : one.location = location
  · simp [same, differ]
  · simp [same]

theorem distinct_nil : distinct [] = [] := rfl

theorem distinct_cons (head : Match) (rest : List Match) :
    distinct (head :: rest) = head :: distinct (apartFrom head.location rest) := by
  rw [distinct, List.eraseDupsBy_cons, distinct, apartFrom]
  congr 3
  funext one
  cases same : one.location == head.location <;> simp [bne, same]

/-- Induction along the choice: behind a match only those elsewhere are left. -/
theorem distinct_induction {motive : List Match → Prop} (nil : motive [])
    (cons : ∀ head rest, motive (apartFrom head.location rest) → motive (head :: rest)) :
    ∀ found, motive found
  | [] => nil
  | head :: rest => cons head rest (distinct_induction nil cons (apartFrom head.location rest))
termination_by found => found.length
decreasing_by exact Nat.lt_succ_of_le (List.length_filter_le _ _)

/-- Choosing among the matches at some locations commutes with choosing those locations. -/
theorem distinct_filter (keep : Location → Bool) (found : List Match) :
    distinct (found.filter fun one => keep one.location) =
      (distinct found).filter fun one => keep one.location := by
  induction found using distinct_induction with
  | nil => rfl
  | cons head rest ih =>
    rw [distinct_cons, List.filter_cons, List.filter_cons, ← ih]
    by_cases kept : keep head.location
    · rw [if_pos kept, if_pos kept, distinct_cons, apartFrom, apartFrom, List.filter_filter,
        List.filter_filter]
      simp only [Bool.and_comm]
    · rw [if_neg kept, if_neg kept, apartFrom, List.filter_filter]
      congr 2
      funext one
      by_cases same : one.location = head.location
      · simp [same, kept]
      · simp [same]

theorem distinct_apartFrom (location : Location) (found : List Match) :
    distinct (apartFrom location found) = apartFrom location (distinct found) :=
  distinct_filter (· != location) found

/-- The choice reaches the same locations. -/
theorem reaches_distinct (found : List Match) (location : Location) :
    reaches (distinct found) location = reaches found location := by
  induction found using distinct_induction with
  | nil => rfl
  | cons head rest ih =>
    rw [distinct_cons, reaches_cons, reaches_cons, ih]
    by_cases same : head.location = location
    · simp [same]
    · rw [reaches_apartFrom fun eq => same eq.symm]

theorem distinct_append (one two : List Match) :
    distinct (one ++ two) =
      distinct one ++ (distinct two).filter fun found => !reaches one found.location := by
  induction one using distinct_induction generalizing two with
  | nil =>
    have all : ((distinct two).filter fun found => !reaches [] found.location) = distinct two :=
      List.filter_eq_self.2 fun _ _ => rfl
    rw [List.nil_append, distinct_nil, List.nil_append, all]
  | cons head rest ih =>
    have split : apartFrom head.location (rest ++ two) =
        apartFrom head.location rest ++ apartFrom head.location two := List.filter_append ..
    have chosen : ∀ found : Match,
        (!reaches (apartFrom head.location rest) found.location &&
          found.location != head.location) = !reaches (head :: rest) found.location := by
      intro found
      rw [reaches_cons]
      by_cases same : found.location = head.location
      · simp [same]
      · have differ : (found.location != head.location) = true := bne_iff_ne.2 same
        have differ' : (head.location == found.location) = false := beq_false_of_ne (Ne.symm same)
        rw [reaches_apartFrom same, differ, differ', Bool.and_true, Bool.false_or]
    calc distinct (head :: rest ++ two)
      _ = head :: (distinct (apartFrom head.location rest) ++
            (apartFrom head.location (distinct two)).filter fun found =>
              !reaches (apartFrom head.location rest) found.location) := by
          rw [List.cons_append, distinct_cons, split, ih, distinct_apartFrom _ two]
      _ = distinct (head :: rest) ++
            (distinct two).filter fun found => !reaches (head :: rest) found.location := by
          rw [distinct_cons, List.cons_append, apartFrom.eq_def _ (distinct two),
            List.filter_filter]
          simp only [chosen]

theorem distinct_distinct (found : List Match) : distinct (distinct found) = distinct found := by
  induction found using distinct_induction with
  | nil => rfl
  | cons head rest ih =>
    have twice : apartFrom head.location (apartFrom head.location rest) =
        apartFrom head.location rest := by simp [apartFrom]
    rw [distinct_cons, distinct_cons, ← distinct_apartFrom, twice, ih]

theorem mem_of_distinct {found : List Match} : ∀ one ∈ distinct found, one ∈ found := by
  induction found using distinct_induction with
  | nil => exact fun _ mem => mem
  | cons head rest ih =>
    intro one mem
    rw [distinct_cons] at mem
    rcases List.mem_cons.1 mem with rfl | mem
    · exact List.mem_cons_self
    · exact List.mem_cons_of_mem head (List.mem_filter.1 (ih one mem)).1

/-- Where no location comes twice there is nothing to choose. -/
theorem distinct_eq_self {found : List Match} (apart : (found.map Match.location).Nodup) :
    distinct found = found := by
  induction found with
  | nil => rfl
  | cons head rest ih =>
    rw [List.map_cons, List.nodup_cons] at apart
    have elsewhere : apartFrom head.location rest = rest := by
      rw [apartFrom, List.filter_eq_self]
      intro one mem
      rw [bne_iff_ne]
      intro same
      exact apart.1 (List.mem_map.2 ⟨one, mem, same⟩)
    rw [distinct_cons, elsewhere, ih apart.2]

/-! ## Many parts -/

/-- A choice in every part changes nothing. -/
theorem distinct_flatMap_distinct (found : List Match) (part : Match → List Match) :
    distinct (found.flatMap fun one => distinct (part one)) = distinct (found.flatMap part) := by
  induction found with
  | nil => rfl
  | cons head rest ih =>
    rw [List.flatMap_cons, List.flatMap_cons, distinct_append, distinct_append, ih,
      distinct_distinct]
    simp only [reaches_distinct]

/-- Entries without a part may be left out. -/
theorem flatMap_filter_of_eq_nil {α β : Type} {list : List α} {keep : α → Bool}
    {part : α → List β} (nothing : ∀ x ∈ list, keep x = false → part x = []) :
    (list.filter keep).flatMap part = list.flatMap part := by
  induction list with
  | nil => rfl
  | cons head rest ih =>
    obtain ⟨first, others⟩ := List.forall_mem_cons.1 nothing
    rw [List.filter_cons, List.flatMap_cons, ← ih others]
    cases kept : keep head with
    | true => rfl
    | false => rw [first kept, List.nil_append]; rfl

/-- If the location of a match tells which it is, a choice among the matches that parts
come from changes nothing: what is left out has a part that was there before. -/
theorem distinct_flatMap {found : List Match}
    (tells : ∀ one ∈ found, ∀ two ∈ found, one.location = two.location → one = two)
    (part : Match → List Match) :
    distinct ((distinct found).flatMap part) = distinct (found.flatMap part) := by
  induction found using distinct_induction with
  | nil => rfl
  | cons head rest ih =>
    have kept : ∀ one ∈ apartFrom head.location rest, one ∈ head :: rest := fun one mem =>
      List.mem_cons_of_mem head (List.mem_filter.1 mem).1
    have behind := ih fun one mem two mem' => tells one (kept one mem) two (kept two mem')
    have gone : ∀ one ∈ rest, (one.location != head.location) = false →
        ((part one).filter fun found => !reaches (part head) found.location) = [] := by
      intro one mem same
      have is : one = head := tells one (List.mem_cons_of_mem head mem) head List.mem_cons_self
        (by simpa using same)
      rw [is, List.filter_eq_nil_iff]
      intro found stands
      have reached : reaches (part head) found.location :=
        List.any_eq_true.2 ⟨found, stands, beq_self_eq_true _⟩
      simp [reached]
    rw [distinct_cons, List.flatMap_cons, List.flatMap_cons, distinct_append, distinct_append,
      behind, ← distinct_filter (fun l => !reaches (part head) l),
      ← distinct_filter (fun l => !reaches (part head) l), List.filter_flatMap,
      List.filter_flatMap, apartFrom, flatMap_filter_of_eq_nil gone]

end Match

/-! ## The matches among items -/

/-- The match that an item is, if it is one. -/
def Item.match? : Item → Option Match
  | .node n location => some ⟨n, location⟩
  | .literal _ => none

/-- The matches among the items of a search have the property of what it finds. -/
theorem Search.finds_of_match {asks : ArrayNode → Prop} {finds : Node → Location → Prop}
    {search : Search} (within : search.Within asks finds) :
    ∀ found ∈ search.items.filterMap Item.match?, finds found.node found.location := by
  intro found mem
  obtain ⟨item, mem, is⟩ := List.mem_filterMap.1 mem
  have meets := meets_of_within within item mem
  cases item with
  | node n location =>
    cases is
    exact meets
  | literal => cases is

theorem reported_eq_distinct_filter (items : List Item) (seen : Seen) :
    reported seen items =
      Match.distinct ((items.filterMap Item.match?).filter fun found =>
        !seen.has found.location) := by
  induction items generalizing seen with
  | nil => rfl
  | cons item rest ih =>
    cases item with
    | literal => exact ih seen
    | node n location =>
      have split : (Item.node n location :: rest).filterMap Item.match? =
          ⟨n, location⟩ :: rest.filterMap Item.match? := rfl
      have later : ∀ found : Match, (!(seen.insert location).2.has found.location) =
          (found.location != location && !seen.has found.location) := by
        intro found
        rw [seen.has_insert, Bool.not_or]
        congr 1
        by_cases same : found.location = location
        · simp [same]
        · rw [decide_eq_false (Ne.symm same), bne_iff_ne.2 same, Bool.not_false]
      rw [reported_node, ih, split, List.filter_cons]
      simp only [later]
      cases held : seen.has location with
      | true =>
        -- Nothing else stands at a location that has been seen.
        have elsewhere : ∀ found : Match, (found.location != location && !seen.has found.location) =
            !seen.has found.location := by
          intro found
          by_cases same : found.location = location
          · simp [same, held]
          · rw [bne_iff_ne.2 same, Bool.true_and]
        simp [elsewhere]
      | false =>
        simp [Match.distinct_cons, Match.apartFrom, List.filter_filter]

/-- A query reports the first match at each location. -/
theorem reported_eq_distinct (items : List Item) :
    reported .none items = Match.distinct (items.filterMap Item.match?) := by
  rw [reported_eq_distinct_filter, List.filter_eq_self.2 fun found _ => by
    rw [Seen.has_none]; rfl]

end JsonQuery

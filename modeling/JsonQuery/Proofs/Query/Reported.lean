/-
# JsonQuery.Proofs.Query.Reported -- which items are matches

`Seen` is a set of locations: `Seen.insert` tells whether a location is new to it, and
adds that location and no other (`Seen.fst_insert`, `Seen.has_insert`).  So of the items
of a search an item is left out of the matches exactly if a match before it has its
location (`suppressed_iff`).
-/
import JsonQuery.Proofs.Search.Items

namespace JsonQuery

set_option autoImplicit false

/-! ## Locations seen -/

namespace Seen

/-- Whether a location has been reported. -/
def has (seen : Seen) (location : Location) : Bool :=
  if location.isEmpty then seen.root else seen.below.contains location

theorem has_none (location : Location) : none.has location = false := by
  cases location <;> rfl

theorem fst_insert (seen : Seen) (location : Location) :
    (seen.insert location).1 = !seen.has location := by
  cases location with
  | nil => rfl
  | cons first rest => exact seen.below.fst_insert (first :: rest)

theorem has_insert (seen : Seen) (location other : Location) :
    (seen.insert location).2.has other = (decide (location = other) || seen.has other) := by
  cases location with
  | nil => cases other <;> simp [insert, has]
  | cons first rest =>
    cases other with
    | nil => simp [insert, has]
    | cons step more =>
      have added := seen.below.contains_insert (first :: rest) (step :: more)
      simpa [insert, has] using added

/-- The locations seen behind some items. -/
def after (seen : Seen) : List Item → Seen
  | [] => seen
  | .literal _ :: rest => seen.after rest
  | .node _ location :: rest => (seen.insert location).2.after rest

end Seen

/-! ## Matches -/

theorem reported_node (seen : Seen) (node : Node) (location : Location) (rest : List Item) :
    reported seen (.node node location :: rest) =
      (if seen.has location then [] else [⟨node, location⟩]) ++
        reported (seen.insert location).2 rest := by
  have fresh := seen.fst_insert location
  rcases inserted : seen.insert location with ⟨new, after⟩
  rw [inserted] at fresh
  simp only [reported, inserted]
  cases held : seen.has location <;> simp_all

theorem reported_append (seen : Seen) (one two : List Item) :
    reported seen (one ++ two) = reported seen one ++ reported (seen.after one) two := by
  induction one generalizing seen with
  | nil => rfl
  | cons item rest ih =>
    cases item with
    | literal => exact ih seen
    | node => simp only [List.cons_append, reported_node, ih, List.append_assoc, Seen.after]

theorem mem_of_reported {items : List Item} {seen : Seen} {found : Match}
    (mem : found ∈ reported seen items) : .node found.node found.location ∈ items := by
  induction items generalizing seen with
  | nil => cases mem
  | cons item rest ih =>
    cases item with
    | literal => exact List.mem_cons_of_mem _ (ih mem)
    | node n location =>
      rw [reported_node, List.mem_append] at mem
      obtain first | mem := mem
      · split at first
        · cases first
        · rw [List.mem_singleton.1 first]
          exact List.mem_cons_self
      · exact List.mem_cons_of_mem _ (ih mem)

/-- A location has been seen behind some items if it was before, or if one of their matches
has it. -/
theorem has_after (items : List Item) (seen : Seen) (location : Location) :
    (seen.after items).has location ↔
      seen.has location ∨ ∃ found ∈ reported seen items, found.location = location := by
  induction items generalizing seen with
  | nil => simp [Seen.after, reported]
  | cons item rest ih =>
    cases item with
    | literal => exact ih seen
    | node n other =>
      rw [Seen.after, ih, Seen.has_insert, reported_node]
      by_cases same : other = location
      · subst same
        cases held : seen.has other <;> simp
      · cases seen.has other <;> simp [same]

/-- An item that adds no match to those of the items before it. -/
def Suppressed (before : List Item) (item : Item) : Prop :=
  reported .none (before ++ [item]) = reported .none before

/-- An item is suppressed exactly if a match before it has its location. -/
theorem suppressed_iff (before : List Item) (node : Node) (location : Location) :
    Suppressed before (.node node location) ↔
      ∃ found ∈ reported .none before, found.location = location := by
  have seen := has_after before .none location
  rw [Seen.has_none] at seen
  rw [Suppressed, reported_append, List.append_right_eq_self, reported_node]
  cases held : (Seen.none.after before).has location <;> simp_all [reported]

end JsonQuery

/-
# JsonQuery.LocationSet -- the locations that were reported

A set of locations is a tree of steps: a node stands for the location that leads to
it, and is marked if that location is in the set.  The beginnings of a location and
its continuations are nodes of their own with marks of their own.

The empty location has no node and is never in a set; a `Seen` keeps beside the
set whether it was reported.

`contains_insert` says that adding a location adds it and nothing else, and `fst_insert`
when a location is new.
-/
import JsonQuery.Location

namespace JsonQuery

set_option autoImplicit false

/-- Nodes with one parent: the first of them, everything below it, and the others. -/
inductive StepTree where
  | empty
  | node (step : Step) (marked : Bool) (below others : StepTree)
deriving Inhabited

namespace StepTree

/-- The tree of one location, given by its first step and the rest. -/
def single (first : Step) : Location → StepTree
  | [] => .node first true .empty .empty
  | next :: rest => .node first false (single next rest) .empty

/-- Marks a location, given by its first step and the rest. -/
def insert (first : Step) (rest : Location) : StepTree → StepTree
  | .empty => single first rest
  | .node step marked below others =>
      if step = first then
        match rest with
        | [] => .node step true below others
        | next :: rest => .node step marked (below.insert next rest) others
      else
        .node step marked below (others.insert first rest)

/-- Whether a location is marked. -/
def contains (first : Step) (rest : Location) : StepTree → Bool
  | .empty => false
  | .node step marked below others =>
      if step = first then
        match rest with
        | [] => marked
        | next :: rest => below.contains next rest
      else
        others.contains first rest

theorem contains_single (first step : Step) (rest location : Location) :
    (single first rest).contains step location = decide (first = step ∧ rest = location) := by
  induction rest generalizing first step location with
  | nil => cases location <;> simp [single, contains]
  | cons next rest ih => cases location <;> simp [single, contains, ih]

theorem contains_insert (tree : StepTree) (first step : Step) (rest location : Location) :
    (tree.insert first rest).contains step location =
      (decide (first = step ∧ rest = location) || tree.contains step location) := by
  induction tree generalizing first step rest location with
  | empty => simp [insert, contains, contains_single]
  | node held marked below others ihBelow ihOthers =>
    by_cases same : held = first <;> cases rest <;> cases location <;> grind [insert, contains]

end StepTree

/-- A set of locations with its size. -/
structure LocationSet where
  tree : StepTree
  size : Nat
deriving Inhabited

namespace LocationSet

def empty : LocationSet := ⟨.empty, 0⟩

def isEmpty (set : LocationSet) : Bool := set.size = 0

/-- Whether a location is in the set. -/
def contains (set : LocationSet) : Location → Bool
  | [] => false
  | first :: rest => set.tree.contains first rest

/-- Adds a location, and tells whether it is new.  The empty location is never added
and never new. -/
def insert (set : LocationSet) : Location → Bool × LocationSet
  | [] => (false, set)
  | first :: rest =>
      if set.tree.contains first rest then
        (false, set)
      else
        (true, ⟨set.tree.insert first rest, set.size + 1⟩)

theorem insert_nil (set : LocationSet) : set.insert [] = (false, set) := rfl

theorem fst_insert (set : LocationSet) (location : Location) :
    (set.insert location).1 = (!location.isEmpty && !set.contains location) := by
  cases location with
  | nil => rfl
  | cons first rest =>
    simp only [insert, contains]
    cases set.tree.contains first rest <;> rfl

/-- An insertion adds its location, unless that is empty, and no other. -/
theorem contains_insert (set : LocationSet) (location other : Location) :
    (set.insert location).2.contains other =
      (decide (location ≠ [] ∧ location = other) || set.contains other) := by
  cases location with
  | nil => simp [insert_nil]
  | cons first rest =>
    cases other with
    | nil => simp [contains]
    | cons step more =>
      simp only [insert]
      cases held : set.tree.contains first rest with
      | true =>
        by_cases same : first :: rest = step :: more
        · cases same
          simp [contains, held]
        · simp [contains, same]
      | false => simp [contains, StepTree.contains_insert]

theorem size_insert (set : LocationSet) (location : Location) :
    (set.insert location).2.size =
      if (set.insert location).1 then set.size + 1 else set.size := by
  cases location with
  | nil => rfl
  | cons first rest =>
    simp only [insert]
    by_cases held : set.tree.contains first rest <;> simp [held]

end LocationSet

/-- The locations of the matches so far. -/
structure Seen where
  /-- Whether the empty location is among them. -/
  root : Bool
  below : LocationSet
deriving Inhabited

namespace Seen

def none : Seen := ⟨false, .empty⟩

/-- Adds a location, and tells whether it is new. -/
def insert (seen : Seen) (location : Location) : Bool × Seen :=
  if location.isEmpty then
    (!seen.root, { seen with root := true })
  else
    let (fresh, below) := seen.below.insert location
    (fresh, { seen with below := below })

end Seen

end JsonQuery

/-
# JsonQuery.Proofs.LocationSet.Calls -- a set of locations is a finite set

A set of locations `Represents` the finite set of the locations that it contains, if its
size is theirs.  Inserting a location does to the one what it does to the other
(`represents_insert`), so behind any calls the set represents what they inserted
(`represents_carried`), and every call is answered from that (`replies_answered`).

The nodes that a location passes on its way count for nothing: the location of such a
node is contained only once it was inserted itself.
-/
import Mathlib.Data.Finset.Card
import JsonQuery.LocationSet

namespace JsonQuery

set_option autoImplicit false

namespace LocationSet

/-! ## The finite set -/

/-- A set of locations contains the members of a finite set, and counts them. -/
structure Represents (set : LocationSet) (members : Finset Location) : Prop where
  contains_eq : ∀ location, set.contains location = decide (location ∈ members)
  size_eq : set.size = members.card

theorem represents_empty : empty.Represents ∅ where
  contains_eq location := by cases location <;> rfl
  size_eq := rfl

theorem Represents.isEmpty_eq {set : LocationSet} {members : Finset Location}
    (represents : set.Represents members) : set.isEmpty = decide (members.card = 0) := by
  rw [isEmpty, represents.size_eq]

/-- An insertion is new if its location is none of the members, and adds it to them. -/
theorem represents_insert {set : LocationSet} {members : Finset Location}
    (represents : set.Represents members) {location : Location} (proper : location ≠ []) :
    (set.insert location).1 = decide (location ∉ members) ∧
      (set.insert location).2.Represents (Insert.insert location members) := by
  have fresh : (set.insert location).1 = decide (location ∉ members) := by
    rw [fst_insert, represents.contains_eq, List.isEmpty_eq_false_iff.2 proper]
    simp
  refine ⟨fresh, fun other => ?_, ?_⟩
  · rw [contains_insert, represents.contains_eq]
    by_cases same : location = other
    · simp [← same, proper]
    · simp [same, Ne.symm same]
  · rw [size_insert, fresh, represents.size_eq]
    by_cases held : location ∈ members
    · simp [held]
    · simp [held]

/-! ## Calls -/

/-- A call of a set of locations. -/
inductive Call where
  | insert (location : Location)
  | contains (location : Location)
deriving DecidableEq

/-- The answer to a call, and the set behind it. -/
def carry (set : LocationSet) : Call → Bool × LocationSet
  | .insert location => set.insert location
  | .contains location => (set.contains location, set)

/-- The set behind calls that are carried out in turn. -/
def carried (set : LocationSet) (calls : List Call) : LocationSet :=
  calls.foldl (fun set call => (set.carry call).2) set

/-- What is seen of a call: its answer, and the size of the set behind it and whether that
set is empty. -/
structure Reply where
  answer : Bool
  size : Nat
  isEmpty : Bool
deriving DecidableEq

/-- The replies to calls that are carried out in turn. -/
def replies (set : LocationSet) : List Call → List Reply
  | [] => []
  | call :: rest =>
      let (answer, after) := set.carry call
      ⟨answer, after.size, after.isEmpty⟩ :: after.replies rest

/-- The location that a call inserts. -/
def Call.insertion? : Call → Option Location
  | .insert location => some location
  | .contains _ => none

/-- The locations that calls inserted, but for the empty one. -/
def inserted (calls : List Call) : Finset Location :=
  (calls.filterMap Call.insertion?).toFinset.erase []

theorem mem_inserted {calls : List Call} {location : Location} :
    location ∈ inserted calls ↔ location ≠ [] ∧ Call.insert location ∈ calls := by
  have named : location ∈ calls.filterMap Call.insertion? ↔ Call.insert location ∈ calls := by
    rw [List.mem_filterMap]
    constructor
    · rintro ⟨call, mem, is⟩
      cases call with
      | insert other =>
        cases is
        exact mem
      | contains other => cases is
    · exact fun mem => ⟨_, mem, rfl⟩
  rw [inserted, Finset.mem_erase, List.mem_toFinset, named]

theorem inserted_insert (calls : List Call) {location : Location} (proper : location ≠ []) :
    inserted (calls ++ [.insert location]) = Insert.insert location (inserted calls) := by
  ext other
  simp only [mem_inserted, Finset.mem_insert, List.mem_append, List.mem_singleton,
    Call.insert.injEq]
  constructor
  · rintro ⟨apart, mem | same⟩
    · exact .inr ⟨apart, mem⟩
    · exact .inl same
  · rintro (rfl | ⟨apart, mem⟩)
    · exact ⟨proper, .inr rfl⟩
    · exact ⟨apart, .inl mem⟩

/-- Calls that insert nothing leave what is inserted. -/
theorem inserted_other (calls : List Call) {call : Call}
    (nothing : ∀ location, location ≠ [] → call ≠ .insert location) :
    inserted (calls ++ [call]) = inserted calls := by
  ext location
  simp only [mem_inserted, List.mem_append, List.mem_singleton]
  constructor
  · rintro ⟨apart, mem | same⟩
    · exact ⟨apart, mem⟩
    · exact absurd same.symm (nothing location apart)
  · exact fun ⟨apart, mem⟩ => ⟨apart, .inl mem⟩

/-- The reply to a call, told by the calls before it. -/
def expected (before : List Call) (call : Call) : Reply :=
  let members := inserted (before ++ [call])
  ⟨match call with
    | .insert location => decide (location ≠ [] ∧ Call.insert location ∉ before)
    | .contains location => decide (location ≠ [] ∧ Call.insert location ∈ before),
    members.card, decide (members.card = 0)⟩

/-- A call of a set that represents what was inserted is answered as expected, and leaves
such a set. -/
theorem represents_carry {set : LocationSet} {before : List Call}
    (represents : set.Represents (inserted before)) (call : Call) :
    (set.carry call).1 = (expected before call).answer ∧
      (set.carry call).2.Represents (inserted (before ++ [call])) := by
  cases call with
  | contains location =>
    rw [inserted_other before fun _ _ => Call.noConfusion]
    refine ⟨?_, represents⟩
    simp only [carry, expected, represents.contains_eq, mem_inserted]
  | insert location =>
    by_cases proper : location = []
    · subst proper
      rw [inserted_other before fun location apart same => apart (Call.insert.inj same).symm]
      exact ⟨by simp [carry, expected, insert_nil], represents⟩
    · obtain ⟨fresh, after⟩ := represents_insert represents proper
      rw [inserted_insert before proper]
      refine ⟨?_, after⟩
      simp only [carry, expected, fresh, mem_inserted, not_and, decide_eq_decide]
      exact ⟨fun new => ⟨proper, new proper⟩, fun new _ => new.2⟩

theorem represents_carried (calls : List Call) :
    (empty.carried calls).Represents (inserted calls) := by
  induction calls using List.reverseRecOn with
  | nil => exact represents_empty
  | append_singleton calls call ih =>
    rw [carried, List.foldl_append]
    exact (represents_carry ih call).2

theorem replies_append (set : LocationSet) (one two : List Call) :
    set.replies (one ++ two) = set.replies one ++ (set.carried one).replies two := by
  induction one generalizing set with
  | nil => rfl
  | cons call rest ih => simp only [List.cons_append, replies, ih, carried, List.foldl_cons]

theorem length_replies (set : LocationSet) (calls : List Call) :
    (set.replies calls).length = calls.length := by
  induction calls generalizing set with
  | nil => rfl
  | cons call rest ih => simp only [replies, List.length_cons, ih]

/-- Whatever is called before and behind it on a new set, a call is answered from what was
inserted before: an insertion is new if its location is not empty and was not inserted,
a location is contained if it is not empty and was inserted, and the size is the number of
different locations inserted.  An insertion changes what is answered of its own location
and of no other, be it a beginning or a continuation of that one, or one with steps of
another kind. -/
theorem replies_answered (before after : List Call) (call : Call) :
    (empty.replies (before ++ call :: after))[before.length]? = some (expected before call) ∧
      ∀ location other,
        ((empty.carried before).insert location).2.contains other =
          (decide (location ≠ [] ∧ location = other) || (empty.carried before).contains other) := by
  obtain ⟨answer, behind⟩ := represents_carry (represents_carried before) call
  refine ⟨?_, contains_insert _⟩
  rw [replies_append, ← length_replies empty before, List.getElem?_append_right (Nat.le_refl _),
    Nat.sub_self, replies, List.getElem?_cons_zero, answer, behind.size_eq, behind.isEmpty_eq]
  rfl

/-- Three locations that are written alike, and the way on from one of them. -/
example : (empty.replies [.insert [.field "0", .index 1], .contains [.field "0"],
    .insert [.key "0"], .contains [.index 0], .insert [.field "0"], .insert []]).map Reply.answer =
      [true, false, true, false, true, false] := by
  decide

end LocationSet

end JsonQuery

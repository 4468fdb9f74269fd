/-
# JsonQuery.Json -- documents

A value is one of the six kinds of JSON, or `Json.foreign`: a value that a store of
documents may hold although it is of no such kind.  A query neither looks into a
foreign value nor tells it from null in a comparison.

The members of an object stand in the order of their names, each name once.  This
is not built into `Json` but is what `Json.Normal` says of a value and everything in
it; a `Document` is a value for which it holds.  `Json.normalize` puts members in
order, and of two members with one name keeps the later (`normal_normalize`).
-/
import JsonQuery.Double

namespace JsonQuery

set_option autoImplicit false

/-- A number of a document: an integer is kept as such. -/
inductive Number where
  | int (value : Int)
  | double (value : Double)
deriving DecidableEq, Inhabited

/-- The value of a number in comparisons. -/
def Number.toDouble : Number → Double
  | .int value => .ofInt value
  | .double value => value

/-- A value of a document. -/
inductive Json where
  | null
  | boolean (value : Bool)
  | number (value : Number)
  | string (value : String)
  | array (elements : List Json)
  | object (members : List (String × Json))
  | foreign (content : Json)
deriving Inhabited

namespace Json

/-- The member of an object with a given name, and its position. -/
def findMember (members : List (String × Json)) (name : String) : Option (Nat × Json) :=
  (members.zipIdx.find? fun entry => entry.1.1 = name).map fun entry => (entry.2, entry.1.2)

/-- The member of a value with a given name. -/
def member? (value : Json) (name : String) : Option Json :=
  match value with
  | .object members => (findMember members name).map Prod.snd
  | _ => none

/-- The text of a string. -/
def string? : Json → Option String
  | .string value => some value
  | _ => none

/-! ## Order of members -/

/-- The names of members increase. -/
def SortedNames (members : List (String × Json)) : Prop :=
  members.Pairwise fun x y => x.1 < y.1

/-- Adds a member at its place, unless the name is taken. -/
def insertMember (name : String) (value : Json) : List (String × Json) → List (String × Json)
  | [] => [(name, value)]
  | (other, held) :: rest =>
      if name < other then (name, value) :: (other, held) :: rest
      else if other < name then (other, held) :: insertMember name value rest
      else (other, held) :: rest

theorem mem_insertMember {name : String} {value : Json} {members : List (String × Json)}
    {entry : String × Json} (mem : entry ∈ insertMember name value members) :
    entry = (name, value) ∨ entry ∈ members := by
  induction members with
  | nil => simpa [insertMember] using mem
  | cons head rest ih =>
    obtain ⟨other, held⟩ := head
    simp only [insertMember] at mem
    split at mem
    · simpa using mem
    split at mem
    · rcases List.mem_cons.1 mem with eq | mem
      · exact .inr (eq ▸ List.mem_cons_self)
      · exact (ih mem).imp_right (List.mem_cons_of_mem _)
    · exact .inr mem

theorem sortedNames_insertMember {members : List (String × Json)} (name : String)
    (value : Json) (sorted : SortedNames members) :
    SortedNames (insertMember name value members) := by
  induction members with
  | nil => simp [insertMember, SortedNames]
  | cons head rest ih =>
    obtain ⟨other, held⟩ := head
    obtain ⟨below, tail⟩ := List.pairwise_cons.1 sorted
    simp only [insertMember]
    split
    · rename_i less
      refine List.pairwise_cons.2 ⟨?_, sorted⟩
      intro entry mem
      rcases List.mem_cons.1 mem with eq | mem
      · exact eq ▸ less
      · exact String.lt_trans less (below entry mem)
    split
    · rename_i less
      refine List.pairwise_cons.2 ⟨?_, ih tail⟩
      intro entry mem
      rcases mem_insertMember mem with eq | mem
      · exact eq ▸ less
      · exact below entry mem
    · exact sorted

mutual

/-- In every object the names of members increase. -/
def Normal : Json → Prop
  | .array elements => NormalElements elements
  | .object members => SortedNames members ∧ NormalMembers members
  | _ => True

def NormalElements : List Json → Prop
  | [] => True
  | value :: rest => value.Normal ∧ NormalElements rest

def NormalMembers : List (String × Json) → Prop
  | [] => True
  | (_, value) :: rest => value.Normal ∧ NormalMembers rest

end

mutual

/-- Puts the members of every object in order; of two members with one name the
later stays. -/
def normalize : Json → Json
  | .array elements => .array (normalizeElements elements)
  | .object members => .object (normalizeMembers members)
  | value => value

def normalizeElements : List Json → List Json
  | [] => []
  | value :: rest => value.normalize :: normalizeElements rest

def normalizeMembers : List (String × Json) → List (String × Json)
  | [] => []
  | (name, value) :: rest => insertMember name value.normalize (normalizeMembers rest)

end

theorem normalMembers_iff {members : List (String × Json)} :
    NormalMembers members ↔ ∀ entry ∈ members, entry.2.Normal := by
  induction members with
  | nil => simp [NormalMembers]
  | cons head rest ih => simp [NormalMembers, ih]

theorem sortedNames_normalizeMembers (members : List (String × Json)) :
    SortedNames (normalizeMembers members) := by
  induction members with
  | nil => simp [normalizeMembers, SortedNames]
  | cons head rest ih => exact sortedNames_insertMember _ _ ih

mutual

theorem normal_normalize : (value : Json) → value.normalize.Normal
  | .null | .boolean _ | .number _ | .string _ | .foreign _ => by simp [normalize, Normal]
  | .array elements => by
      simpa [normalize, Normal] using normalElements_normalizeElements elements
  | .object members => by
      simpa [normalize, Normal] using
        ⟨sortedNames_normalizeMembers members, normalMembers_normalizeMembers members⟩

theorem normalElements_normalizeElements :
    (elements : List Json) → NormalElements (normalizeElements elements)
  | [] => by simp [normalizeElements, NormalElements]
  | value :: rest => ⟨normal_normalize value, normalElements_normalizeElements rest⟩

theorem normalMembers_normalizeMembers :
    (members : List (String × Json)) → NormalMembers (normalizeMembers members)
  | [] => by simp [normalizeMembers, NormalMembers]
  | (_, value) :: rest => by
      refine normalMembers_iff.2 fun entry mem => ?_
      rcases mem_insertMember mem with eq | mem
      · exact eq ▸ normal_normalize value
      · exact normalMembers_iff.1 (normalMembers_normalizeMembers rest) entry mem

end

end Json

/-- A value in which the names of members increase. -/
structure Document where
  root : Json
  normal : root.Normal

/-- A value as a document. -/
def Document.ofJson (value : Json) : Document := ⟨value.normalize, value.normal_normalize⟩

instance : Inhabited Document := ⟨.ofJson .null⟩

end JsonQuery

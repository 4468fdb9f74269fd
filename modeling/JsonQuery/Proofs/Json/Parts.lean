/-
# JsonQuery.Proofs.Json.Parts -- elements and members of a value

The elements of an array and the members of an object are its children, and positions,
one for each level, lead to every value below a value (`Json.below?`).  What holds of a
value and everything in it holds of its children: so it is with the order of members
(`Json.normal_child`) and with keys that are apart in every array
(`Json.apart_child`).
-/
import JsonQuery.Location

namespace JsonQuery

set_option autoImplicit false

/-- Of entries that are pairwise related, two that are not are one. -/
theorem position_of_pairwise {α : Type} {related : α → α → Prop} {list : List α}
    (pairwise : list.Pairwise related) {i j : Nat} {x y : α} (one : list[i]? = some x)
    (two : list[j]? = some y) (apart : ¬ related x y) (apart' : ¬ related y x) : i = j := by
  obtain ⟨bound, rfl⟩ := List.getElem?_eq_some_iff.1 one
  obtain ⟨bound', rfl⟩ := List.getElem?_eq_some_iff.1 two
  rcases Nat.lt_trichotomy i j with less | same | less
  · exact absurd (List.pairwise_iff_getElem.1 pairwise i j bound bound' less) apart
  · exact same
  · exact absurd (List.pairwise_iff_getElem.1 pairwise j i bound' bound less) apart'

/-! ## Members -/

namespace Json

/-- The member that is found stands at its position under its name. -/
theorem getElem?_of_findMember {members : List (String × Json)} {name : String}
    {position : Nat} {value : Json} (held : findMember members name = some (position, value)) :
    members[position]? = some (name, value) := by
  obtain ⟨⟨⟨other, _⟩, _⟩, first, eq⟩ := Option.map_eq_some_iff.1 held
  obtain ⟨rfl, rfl⟩ := Prod.mk.inj eq
  have same := List.find?_some first
  rw [← of_decide_eq_true same]
  exact List.mem_zipIdx_iff_getElem?.1 (List.mem_of_find?_eq_some first)

/-- In order, members have different names. -/
theorem position_of_name {members : List (String × Json)} (sorted : SortedNames members)
    {i j : Nat} {name : String} {x y : Json} (one : members[i]? = some (name, x))
    (two : members[j]? = some (name, y)) : i = j :=
  position_of_pairwise sorted one two (String.lt_irrefl name) (String.lt_irrefl name)

/-- In order, every member is found under its name. -/
theorem findMember_of_getElem? {members : List (String × Json)} (sorted : SortedNames members)
    {position : Nat} {name : String} {value : Json}
    (stands : members[position]? = some (name, value)) :
    findMember members name = some (position, value) := by
  cases found : findMember members name with
  | none =>
    rw [findMember, Option.map_eq_none_iff, List.find?_eq_none] at found
    have other := found ((name, value), position) (List.mem_zipIdx_iff_getElem?.2 stands)
    simp at other
  | some hit =>
    obtain ⟨other, held⟩ := hit
    have stands' := getElem?_of_findMember found
    have same := position_of_name sorted stands stands'
    subst same
    rw [stands', Option.some.injEq, Prod.mk.injEq] at stands
    rw [stands.2]

/-! ## Children -/

/-- The element or member at a position. -/
def child? : Json → Nat → Option Json
  | .array elements, position => elements[position]?
  | .object members, position => members[position]?.map Prod.snd
  | _, _ => none

/-- The value that positions lead to, one for each level. -/
def below? (value : Json) (ordinals : List Nat) : Option Json :=
  ordinals.foldlM child? value

theorem below?_child {value middle : Json} {ordinals : List Nat} {position : Nat}
    (leads : value.below? ordinals = some middle) :
    value.below? (ordinals ++ [position]) = middle.child? position := by
  rw [below?] at leads
  rw [below?, List.foldlM_append, leads]
  cases next : middle.child? position <;> simp [next]

theorem below?_cons (value : Json) (position : Nat) (ordinals : List Nat) :
    value.below? (position :: ordinals) = (value.child? position).bind (·.below? ordinals) :=
  List.foldlM_cons ..

theorem normalElements_iff {elements : List Json} :
    NormalElements elements ↔ ∀ element ∈ elements, element.Normal := by
  induction elements with
  | nil => simp [NormalElements]
  | cons element rest ih => simp [NormalElements, ih]

theorem normal_child {value child : Json} {position : Nat} (normal : value.Normal)
    (is : value.child? position = some child) : child.Normal := by
  cases value with
  | array elements =>
    rw [Normal] at normal
    exact normalElements_iff.1 normal child (List.mem_of_getElem? is)
  | object members =>
    rw [Normal] at normal
    obtain ⟨member, stands, rfl⟩ := Option.map_eq_some_iff.1 is
    exact normalMembers_iff.1 normal.2 member (List.mem_of_getElem? stands)
  | _ => cases is

/-! ## Keys -/

end Json

/-- No two elements carry one key. -/
def KeysApart (elements : List Json) : Prop :=
  elements.Pairwise fun x y => x.key? = y.key? → x.key? = none

/-- A key tells the position of the element that carries it. -/
theorem position_of_key {elements : List Json} (apart : KeysApart elements) {i j : Nat}
    {x y : Json} {key : String} (one : elements[i]? = some x) (two : elements[j]? = some y)
    (carries : x.key? = some key) (carries' : y.key? = some key) : i = j := by
  have clash : ∀ {x y : Json}, x.key? = some key → y.key? = some key →
      ¬ (x.key? = y.key? → x.key? = none) := by
    intro x y carries carries' apart
    rw [apart (carries.trans carries'.symm)] at carries
    cases carries
  exact position_of_pairwise apart one two (clash carries carries') (clash carries' carries)

namespace Json

/-- No two elements of an array at the root have one key. -/
def RootApart : Json → Prop
  | .array elements => KeysApart elements
  | _ => True

mutual

/-- In every array, no two elements have one key. -/
def Apart : Json → Prop
  | .array elements => KeysApart elements ∧ ApartElements elements
  | .object members => ApartMembers members
  | _ => True

def ApartElements : List Json → Prop
  | [] => True
  | value :: rest => value.Apart ∧ ApartElements rest

def ApartMembers : List (String × Json) → Prop
  | [] => True
  | (_, value) :: rest => value.Apart ∧ ApartMembers rest

end

theorem apartElements_iff {elements : List Json} :
    ApartElements elements ↔ ∀ element ∈ elements, element.Apart := by
  induction elements with
  | nil => simp [ApartElements]
  | cons element rest ih => simp [ApartElements, ih]

theorem apartMembers_iff {members : List (String × Json)} :
    ApartMembers members ↔ ∀ member ∈ members, member.2.Apart := by
  induction members with
  | nil => simp [ApartMembers]
  | cons member rest ih => simp [ApartMembers, ih]

theorem apart_child {value child : Json} {position : Nat} (apart : value.Apart)
    (is : value.child? position = some child) : child.Apart := by
  cases value with
  | array elements =>
    rw [Apart] at apart
    exact apartElements_iff.1 apart.2 child (List.mem_of_getElem? is)
  | object members =>
    rw [Apart] at apart
    obtain ⟨member, stands, rfl⟩ := Option.map_eq_some_iff.1 is
    exact apartMembers_iff.1 apart member (List.mem_of_getElem? stands)
  | _ => cases is

theorem apart_below? {value part : Json} {ordinals : List Nat} (apart : value.Apart)
    (leads : value.below? ordinals = some part) : part.Apart := by
  induction ordinals generalizing value with
  | nil =>
    cases leads
    exact apart
  | cons position rest ih =>
    rw [below?_cons] at leads
    obtain ⟨child, is, leads⟩ := Option.bind_eq_some_iff.1 leads
    exact ih (apart_child apart is) leads

/-! ## Arrays -/

mutual

/-- The elements of every array, of the value itself and in it, have a property. -/
def EveryArray (holds : List Json → Prop) : Json → Prop
  | .array elements => holds elements ∧ EveryArrayOfElements holds elements
  | .object members => EveryArrayOfMembers holds members
  | _ => True

def EveryArrayOfElements (holds : List Json → Prop) : List Json → Prop
  | [] => True
  | value :: rest => value.EveryArray holds ∧ EveryArrayOfElements holds rest

def EveryArrayOfMembers (holds : List Json → Prop) : List (String × Json) → Prop
  | [] => True
  | (_, value) :: rest => value.EveryArray holds ∧ EveryArrayOfMembers holds rest

end

variable {holds : List Json → Prop}

theorem everyArrayOfElements_iff {elements : List Json} :
    EveryArrayOfElements holds elements ↔ ∀ element ∈ elements, element.EveryArray holds := by
  induction elements with
  | nil => simp [EveryArrayOfElements]
  | cons element rest ih => simp [EveryArrayOfElements, ih]

theorem everyArrayOfMembers_iff {members : List (String × Json)} :
    EveryArrayOfMembers holds members ↔ ∀ member ∈ members, member.2.EveryArray holds := by
  induction members with
  | nil => simp [EveryArrayOfMembers]
  | cons member rest ih => simp [EveryArrayOfMembers, ih]

theorem everyArray_child {value child : Json} {position : Nat} (every : value.EveryArray holds)
    (is : value.child? position = some child) : child.EveryArray holds := by
  cases value with
  | array elements =>
    rw [EveryArray] at every
    exact everyArrayOfElements_iff.1 every.2 child (List.mem_of_getElem? is)
  | object members =>
    rw [EveryArray] at every
    obtain ⟨member, stands, rfl⟩ := Option.map_eq_some_iff.1 is
    exact everyArrayOfMembers_iff.1 every member (List.mem_of_getElem? stands)
  | _ => cases is

end Json

end JsonQuery

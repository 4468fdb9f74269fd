/-
# JsonQuery.Proofs.Json.Agreement -- values that agree on the elements fetched

Two values agree on a set of fetches if they differ only at array elements outside of it
(`Json.Agrees`): one comes from the other by putting anything in the place of elements
that are not fetched.  They have the same kind, the same length or the same names, and
whatever is fetched of them or is a member agrees in its turn.

So what can be told of a value without a fetch is the same for both: its scalar
(`Node.Alike.scalar`) and its key (`Json.key?_agrees`).
-/
import JsonQuery.KeyCache
import JsonQuery.Scalar

namespace JsonQuery

set_option autoImplicit false

/-! ## Values -/

namespace Json

mutual

/-- Two values at a site differ only at elements that are not fetched. -/
def Agrees (fetched : Read → Prop) : (value other : Json) → (site : Site) → Prop
  | .array elements, .array others, site => AgreesElements fetched elements others site 0
  | .object members, .object others, site => AgreesMembers fetched members others site 0
  | value, other, _ => value = other

/-- Elements from a position on, as many, of which those that are fetched agree. -/
def AgreesElements (fetched : Read → Prop) :
    (elements others : List Json) → (site : Site) → (position : Nat) → Prop
  | [], [], _, _ => True
  | element :: rest, other :: others, site, position =>
      (fetched ⟨site.identity, position⟩ → element.Agrees fetched other (site.child position)) ∧
        AgreesElements fetched rest others site (position + 1)
  | _, _, _, _ => False

/-- Members from a position on, of the same names, which agree. -/
def AgreesMembers (fetched : Read → Prop) :
    (members others : List (String × Json)) → (site : Site) → (position : Nat) → Prop
  | [], [], _, _ => True
  | (name, value) :: rest, (name', value') :: others, site, position =>
      name = name' ∧ value.Agrees fetched value' (site.child position) ∧
        AgreesMembers fetched rest others site (position + 1)
  | _, _, _, _ => False

end

variable {fetched : Read → Prop}

mutual

theorem agrees_self : (value : Json) → (site : Site) → value.Agrees fetched value site
  | .array elements, site => agreesElements_self elements site 0
  | .object members, site => agreesMembers_self members site 0
  | .null, _ | .boolean _, _ | .number _, _ | .string _, _ | .foreign _, _ => rfl

theorem agreesElements_self : (elements : List Json) → (site : Site) → (position : Nat) →
    AgreesElements fetched elements elements site position
  | [], _, _ => trivial
  | element :: rest, site, position =>
      ⟨fun _ => agrees_self element (site.child position),
        agreesElements_self rest site (position + 1)⟩

theorem agreesMembers_self : (members : List (String × Json)) → (site : Site) →
    (position : Nat) → AgreesMembers fetched members members site position
  | [], _, _ => trivial
  | (_, value) :: rest, site, position =>
      ⟨rfl, agrees_self value (site.child position), agreesMembers_self rest site (position + 1)⟩

end

theorem agreesElements_iff {elements others : List Json} {site : Site} {position : Nat} :
    AgreesElements fetched elements others site position ↔
      elements.length = others.length ∧
        ∀ i x y, elements[i]? = some x → others[i]? = some y →
          fetched ⟨site.identity, position + i⟩ →
            x.Agrees fetched y (site.child (position + i)) := by
  induction elements generalizing others position with
  | nil =>
    cases others with
    | nil => simp [AgreesElements]
    | cons => simp [AgreesElements]
  | cons element rest ih =>
    cases others with
    | nil => simp [AgreesElements]
    | cons other others =>
      rw [AgreesElements, ih]
      constructor
      · rintro ⟨first, length, behind⟩
        refine ⟨by simp [length], fun i x y is is' read => ?_⟩
        cases i with
        | zero =>
          cases is
          cases is'
          exact first read
        | succ i =>
          have shift : position + 1 + i = position + (i + 1) := by omega
          have later := behind i x y is is'
          rw [shift] at later
          exact later read
      · rintro ⟨length, agree⟩
        refine ⟨agree 0 element other rfl rfl, by simpa using length, fun i x y is is' read => ?_⟩
        have shift : position + 1 + i = position + (i + 1) := by omega
        rw [shift] at read ⊢
        exact agree (i + 1) x y is is' read

/-- Two answers, to the question for an element or a member at some site, agree. -/
structure AgreesAt (fetched : Read → Prop) (site : Site) (hit hit' : Nat × Json) : Prop where
  position : hit.1 = hit'.1
  value : hit.2.Agrees fetched hit'.2 (site.child hit.1)

/-- Both answers are missing, or they agree. -/
abbrev AgreesHit (fetched : Read → Prop) (site : Site) : (one two : Option (Nat × Json)) → Prop :=
  Option.Rel (AgreesAt fetched site)

theorem agreesHit_zipIdx {members others : List (String × Json)} {site : Site} {position : Nat}
    (agree : AgreesMembers fetched members others site position) (name : String) :
    AgreesHit fetched site
      (((members.zipIdx position).find? fun entry => entry.1.1 = name).map fun entry =>
        (entry.2, entry.1.2))
      (((others.zipIdx position).find? fun entry => entry.1.1 = name).map fun entry =>
        (entry.2, entry.1.2)) := by
  induction members generalizing others position with
  | nil =>
    cases others with
    | nil => exact .none
    | cons => cases agree
  | cons member rest ih =>
    obtain ⟨here, value⟩ := member
    cases others with
    | nil => cases agree
    | cons other others =>
      obtain ⟨there, value'⟩ := other
      obtain ⟨rfl, first, behind⟩ := agree
      by_cases same : here = name
      · simp only [List.zipIdx_cons, List.find?_cons, same, decide_true, Option.map_some]
        exact .some ⟨rfl, first⟩
      · simp only [List.zipIdx_cons, List.find?_cons, same, decide_false]
        exact ih behind

theorem agreesHit_findMember {members others : List (String × Json)} {site : Site}
    (agree : AgreesMembers fetched members others site 0) (name : String) :
    AgreesHit fetched site (findMember members name) (findMember others name) :=
  agreesHit_zipIdx agree name

theorem string?_agrees {value other : Json} {site : Site}
    (agree : value.Agrees fetched other site) : value.string? = other.string? := by
  cases value <;> cases other <;> simp_all [Agrees, string?]

/-- Values that agree have the same key. -/
theorem key?_agrees {value other : Json} {site : Site} (agree : value.Agrees fetched other site) :
    value.key? = other.key? := by
  cases value with
  | object members =>
    cases other with
    | object others =>
      have hit := agreesHit_findMember agree keyField
      simp only [key?, member?]
      generalize findMember members keyField = one at hit ⊢
      generalize findMember others keyField = two at hit ⊢
      cases hit with
      | none => rfl
      | some agree => exact string?_agrees agree.value
    | _ => cases agree
  | _ => cases other <;> first | rfl | cases agree

end Json

theorem Step.ofElement_agrees {fetched : Read → Prop} {element other : Json} {site : Site}
    (agree : element.Agrees fetched other site) (position : Nat) :
    Step.ofElement position element = Step.ofElement position other := by
  rw [ofElement, ofElement, Json.key?_agrees agree]

/-! ## Nodes -/

/-- Two nodes stand at one site, and their values agree. -/
structure Node.Alike (fetched : Read → Prop) (one two : Node) : Prop where
  site : one.site = two.site
  value : one.value.Agrees fetched two.value one.site

/-- Two arrays stand at one site, and their elements agree. -/
structure ArrayNode.Alike (fetched : Read → Prop) (one two : ArrayNode) : Prop where
  site : one.site = two.site
  elements : Json.AgreesElements fetched one.elements two.elements one.site 0

variable {fetched : Read → Prop}

namespace ArrayNode.Alike

variable {one two : ArrayNode} (alike : one.Alike fetched two)
include alike

theorem identity : one.identity = two.identity := by
  rw [ArrayNode.identity, ArrayNode.identity, alike.site]

theorem length : one.length = two.length := (Json.agreesElements_iff.1 alike.elements).1

/-- Of the elements at one position, what is fetched agrees. -/
theorem element (position : Nat) (read : fetched ⟨one.identity, position⟩) :
    Option.Rel (fun x y => x.Agrees fetched y (one.site.child position))
      one.elements[position]? two.elements[position]? := by
  obtain ⟨length, agree⟩ := Json.agreesElements_iff.1 alike.elements
  by_cases bound : position < one.elements.length
  · have bound' : position < two.elements.length := length ▸ bound
    have at_position := agree position one.elements[position] two.elements[position]
      (List.getElem?_eq_getElem bound) (List.getElem?_eq_getElem bound')
    rw [Nat.zero_add] at at_position
    rw [List.getElem?_eq_getElem bound, List.getElem?_eq_getElem bound']
    exact .some (at_position read)
  · have bound' : ¬ position < two.elements.length := length ▸ bound
    rw [List.getElem?_eq_none (Nat.le_of_not_lt bound),
      List.getElem?_eq_none (Nat.le_of_not_lt bound')]
    exact .none

theorem child {position : Nat} {x y : Json} (agree : x.Agrees fetched y (one.site.child position)) :
    (one.child position x).Alike fetched (two.child position y) where
  site := congrArg (Site.child · position) alike.site
  value := agree

end ArrayNode.Alike

/-- What a comparison sees is the same: of arrays and objects it sees the place alone. -/
theorem Node.Alike.scalar {one two : Node} (alike : one.Alike fetched two) :
    Scalar.ofNode one = Scalar.ofNode two := by
  obtain ⟨value, site⟩ := one
  obtain ⟨value', site'⟩ := two
  obtain ⟨rfl, agree⟩ := alike
  cases value <;> cases value' <;> first | rfl | cases agree <;> rfl

end JsonQuery

/-
# JsonQuery.Proofs.Eval.Congruence -- relations that every expression respects

A relation on searches that is respected by the few things of which searches are put together
is respected by all expressions: searched at related nodes, an expression makes related
searches (`Congruence.expr`, `Congruence.path`).  So what two searches have in common is
proved for those few things, and not once more for every kind of step.  A property of
searches is a relation that looks at one of the two.

Walks come first, as they take less: an end, one search behind another, and fetches
(`Sequential`).  Two values are gone through together if they open alike (`OpenedAlike`), into
elements or members that are related one by one.

What the steps of a path find is searched further, and literals among it find nothing.  So a
relation may leave out literals at the end of a path, and have them before (`LiteralFree`).
-/
import JsonQuery.Eval
import JsonQuery.Proofs.Search.Items

namespace JsonQuery

set_option autoImplicit false

/-! ## Values that open alike -/

section

variable (known : Read → Prop) (nodes : Node → Location → Node → Location → Prop)
  (site site' : Site) (location location' : Location)

/-- The elements of two arrays from a position on, as many, of which those that are known are
related. -/
inductive RelatedElements : Nat → List Json → List Json → Prop
  | nil {position : Nat} : RelatedElements position [] []
  | cons {position : Nat} {element element' : Json} {rest rest' : List Json}
      (first : known ⟨site.identity, position⟩ →
        nodes ⟨element, site.child position⟩ (location ++ [.ofElement position element])
          ⟨element', site'.child position⟩ (location' ++ [.ofElement position element']))
      (others : RelatedElements (position + 1) rest rest') :
      RelatedElements position (element :: rest) (element' :: rest')

/-- The members of two objects from a position on, of the same names, which are related. -/
inductive RelatedMembers : Nat → List (String × Json) → List (String × Json) → Prop
  | nil {position : Nat} : RelatedMembers position [] []
  | cons {position : Nat} {name : String} {value value' : Json} {rest rest' : List (String × Json)}
      (first : nodes ⟨value, site.child position⟩ (location ++ [.field name])
        ⟨value', site'.child position⟩ (location' ++ [.field name]))
      (others : RelatedMembers (position + 1) rest rest') :
      RelatedMembers position ((name, value) :: rest) ((name, value') :: rest')

end

/-- A value that is no array and no object. -/
def Json.Plain : Json → Prop
  | .array _ | .object _ => False
  | _ => True

namespace Json.Plain

variable {value : Json} (plain : value.Plain) (site : Site)
include plain

theorem array?_eq_none : Node.array? ⟨value, site⟩ = none := by
  cases value <;> first | rfl | exact plain.elim

theorem member?_eq_none (name : String) : Node.member? ⟨value, site⟩ name = none := by
  cases value <;> first | rfl | exact plain.elim

theorem children_eq_done (location : Location) : children ⟨value, site⟩ location = .done := by
  cases value <;> first | rfl | exact plain.elim

theorem descend_eq (visit : Node → Location → Search) (location : Location) :
    descend visit value site location = visit ⟨value, site⟩ location := by
  cases value <;> first | rfl | exact plain.elim

theorem leaves_eq (visit : Node → Location → Search) (location : Location) :
    leaves visit value site location = visit ⟨value, site⟩ location := by
  cases value <;> first | rfl | exact plain.elim

end Json.Plain

/-- Two nodes are arrays with related elements, or objects with related members, or neither
of the two has parts. -/
inductive OpenedAlike (sites : Site → Site → Prop) (known : Read → Prop)
    (nodes : Node → Location → Node → Location → Prop) : Node → Location → Node → Location → Prop
  | array {elements elements' : List Json} {site site' : Site} {location location' : Location}
      (same : sites site site')
      (each : RelatedElements known nodes site site' location location' 0 elements elements') :
      OpenedAlike sites known nodes ⟨.array elements, site⟩ location
        ⟨.array elements', site'⟩ location'
  | object {members members' : List (String × Json)} {site site' : Site}
      {location location' : Location}
      (each : RelatedMembers nodes site site' location location' 0 members members') :
      OpenedAlike sites known nodes ⟨.object members, site⟩ location
        ⟨.object members', site'⟩ location'
  | plain {value value' : Json} {site site' : Site} {location location' : Location}
      (one : value.Plain) (two : value'.Plain) :
      OpenedAlike sites known nodes ⟨value, site⟩ location ⟨value', site'⟩ location'

section

variable {known : Read → Prop} {nodes : Node → Location → Node → Location → Prop}
  {site site' : Site} {location location' : Location} {position : Nat}

namespace RelatedElements

variable {elements elements' : List Json}

theorem length_eq
    (each : RelatedElements known nodes site site' location location' position elements elements') :
    elements.length = elements'.length := by
  induction each with
  | nil => rfl
  | cons _ _ ih => rw [List.length_cons, List.length_cons, ih]

theorem take
    (each : RelatedElements known nodes site site' location location' position elements elements')
    (n : Nat) : RelatedElements known nodes site site' location location' position
      (elements.take n) (elements'.take n) := by
  induction each generalizing n with
  | nil =>
    rw [List.take_nil]
    exact .nil
  | cons first _ ih =>
    cases n with
    | zero => exact .nil
    | succ n => exact .cons first (ih n)

theorem drop
    (each : RelatedElements known nodes site site' location location' position elements elements')
    (n : Nat) : RelatedElements known nodes site site' location location' (position + n)
      (elements.drop n) (elements'.drop n) := by
  induction each generalizing n with
  | nil =>
    rw [List.drop_nil]
    exact .nil
  | cons first others ih =>
    cases n with
    | zero => exact .cons first others
    | succ n =>
      rw [Nat.add_succ, ← Nat.succ_add]
      exact ih n

/-- A list of elements is related to itself if each of them is. -/
theorem of_getElem? (each : ∀ i element, elements[i]? = some element →
      nodes ⟨element, site.child (position + i)⟩ (location ++ [.ofElement (position + i) element])
        ⟨element, site'.child (position + i)⟩ (location' ++ [.ofElement (position + i) element])) :
    RelatedElements known nodes site site' location location' position elements elements := by
  induction elements generalizing position with
  | nil => exact .nil
  | cons element rest ih =>
    refine .cons (fun _ => each 0 element rfl) (ih fun i other stands => ?_)
    rw [Nat.succ_add_eq_add_succ]
    exact each (i + 1) other stands

end RelatedElements

namespace RelatedMembers

variable {members members' : List (String × Json)}

/-- A list of members is related to itself if each of them is. -/
theorem of_getElem? (each : ∀ i name value, members[i]? = some (name, value) →
      nodes ⟨value, site.child (position + i)⟩ (location ++ [.field name])
        ⟨value, site'.child (position + i)⟩ (location' ++ [.field name])) :
    RelatedMembers nodes site site' location location' position members members := by
  induction members generalizing position with
  | nil => exact .nil
  | cons member rest ih =>
    refine .cons (each 0 member.1 member.2 rfl) (ih fun i name value stands => ?_)
    rw [Nat.succ_add_eq_add_succ]
    exact each (i + 1) name value stands

/-- Members of one name are related. -/
theorem find?
    (each : RelatedMembers nodes site site' location location' position members members')
    (name : String) :
    Option.Rel (fun hit hit' : Nat × Json =>
        nodes ⟨hit.2, site.child hit.1⟩ (location ++ [.field name])
          ⟨hit'.2, site'.child hit'.1⟩ (location' ++ [.field name]))
      (((members.zipIdx position).find? fun entry => entry.1.1 = name).map fun entry =>
        (entry.2, entry.1.2))
      (((members'.zipIdx position).find? fun entry => entry.1.1 = name).map fun entry =>
        (entry.2, entry.1.2)) := by
  induction each with
  | nil => exact .none
  | @cons position here value value' rest rest' first _ ih =>
    by_cases same : here = name
    · simp only [List.zipIdx_cons, List.find?_cons, same, decide_true, Option.map_some]
      exact .some (same ▸ first)
    · simp only [List.zipIdx_cons, List.find?_cons, same, decide_false]
      exact ih

end RelatedMembers

/-- One value at two places opens alike if its parts are related. -/
theorem OpenedAlike.of_value {sites : Site → Site → Prop} (same : sites site site') (value : Json)
    (element : ∀ elements i element, value = .array elements → elements[i]? = some element →
      nodes ⟨element, site.child i⟩ (location ++ [.ofElement i element])
        ⟨element, site'.child i⟩ (location' ++ [.ofElement i element]))
    (member : ∀ members i name part, value = .object members → members[i]? = some (name, part) →
      nodes ⟨part, site.child i⟩ (location ++ [.field name])
        ⟨part, site'.child i⟩ (location' ++ [.field name])) :
    OpenedAlike sites known nodes ⟨value, site⟩ location ⟨value, site'⟩ location' := by
  cases value with
  | array elements =>
    refine .array same (.of_getElem? fun i part stands => ?_)
    rw [Nat.zero_add]
    exact element elements i part rfl stands
  | object members =>
    refine .object (.of_getElem? fun i name part stands => ?_)
    rw [Nat.zero_add]
    exact member members i name part rfl stands
  | _ => exact .plain trivial trivial

/-- No arrays stand at nodes that open alike, or two with related elements. -/
theorem OpenedAlike.array_cases {sites : Site → Site → Prop} {n n' : Node}
    (opened : OpenedAlike sites known nodes n location n' location') :
    (n.array? = none ∧ n'.array? = none) ∨
      ∃ elements elements' site site', n = ⟨.array elements, site⟩ ∧
        n' = ⟨.array elements', site'⟩ ∧ sites site site' ∧
          RelatedElements known nodes site site' location location' 0 elements elements' := by
  cases opened with
  | array same each => exact .inr ⟨_, _, _, _, rfl, rfl, same, each⟩
  | object => exact .inl ⟨rfl, rfl⟩
  | plain one two => exact .inl ⟨one.array?_eq_none _, two.array?_eq_none _⟩

end

/-! ## Walks -/

/-- What a relation on searches respects to go along walks.  Fetches are related where the
arrays stand at related sites, and what comes behind them if the read is known. -/
structure Sequential (sites : Site → Site → Prop) (known : Read → Prop)
    (related : Search → Search → Prop) : Prop where
  done : related .done .done
  append {one one' two two' : Search} : related one one' → related two two' →
    related (one.append fun _ => two) (one'.append fun _ => two')
  fetch {site site' : Site} {position : Nat} {next next' : Unit → Search} : sites site site' →
    (known ⟨site.identity, position⟩ → related (next ()) (next' ())) →
      related (.fetch ⟨site.identity, position⟩ next) (.fetch ⟨site'.identity, position⟩ next')

/-- At related nodes, two visits make related searches. -/
def VisitsRelated (nodes : Node → Location → Node → Location → Prop)
    (related : Search → Search → Prop) (visit visit' : Node → Location → Search) : Prop :=
  ∀ n l n' l', nodes n l n' l' → related (visit n l) (visit' n' l')

namespace Sequential

set_option linter.unusedSectionVars false

variable {sites : Site → Site → Prop} {known : Read → Prop}
  {nodes : Node → Location → Node → Location → Prop} {related : Search → Search → Prop}
  (sequential : Sequential sites known related) {visit visit' : Node → Location → Search}
  (visits : VisitsRelated nodes related visit visit')
include sequential visits

theorem eachElement {array array' : ArrayNode} (same : sites array.site array'.site)
    {location location' : Location} {position : Nat} {elements elements' : List Json}
    (each : RelatedElements known nodes array.site array'.site location location' position
      elements elements') :
    related (eachElement visit array location position elements)
      (eachElement visit' array' location' position elements') := by
  induction each with
  | nil => exact sequential.done
  | cons first _ ih =>
    exact sequential.fetch same fun read => sequential.append (visits _ _ _ _ (first read)) ih

variable (opened : ∀ n l n' l', nodes n l n' l' → OpenedAlike sites known nodes n l n' l')
include opened

mutual

theorem descend : (value : Json) → {value' : Json} → {site site' : Site} →
    {location location' : Location} → nodes ⟨value, site⟩ location ⟨value', site'⟩ location' →
      related (descend visit value site location) (descend visit' value' site' location')
  | .array elements, _, _, _, _, _, pair => by
      cases opened _ _ _ _ pair with
      | array same each =>
        exact sequential.append (visits _ _ _ _ pair) (descendElements elements same each)
      | plain none => exact none.elim
  | .object members, _, _, _, _, _, pair => by
      cases opened _ _ _ _ pair with
      | object each => exact sequential.append (visits _ _ _ _ pair) (descendMembers members each)
      | plain none => exact none.elim
  | .null, _, _, _, _, _, pair | .boolean _, _, _, _, _, _, pair | .number _, _, _, _, _, _, pair
  | .string _, _, _, _, _, _, pair | .foreign _, _, _, _, _, _, pair => by
      cases opened _ _ _ _ pair with
      | plain _ other =>
        rw [other.descend_eq]
        exact visits _ _ _ _ pair

theorem descendElements : (elements : List Json) → {elements' : List Json} →
    {site site' : Site} → {location location' : Location} → {position : Nat} →
    sites site site' →
    RelatedElements known nodes site site' location location' position elements elements' →
      related (descendElements visit elements site location position)
        (descendElements visit' elements' site' location' position)
  | [], _, _, _, _, _, _, _, each => by
      cases each
      exact sequential.done
  | element :: rest, _, _, _, _, _, _, same, each => by
      cases each with
      | cons first others =>
        refine sequential.fetch same fun read => ?_
        exact sequential.append (descend element (first read)) (descendElements rest same others)

theorem descendMembers : (members : List (String × Json)) → {members' : List (String × Json)} →
    {site site' : Site} → {location location' : Location} → {position : Nat} →
    RelatedMembers nodes site site' location location' position members members' →
      related (descendMembers visit members site location position)
        (descendMembers visit' members' site' location' position)
  | [], _, _, _, _, _, _, each => by
      cases each
      exact sequential.done
  | (_, value) :: rest, _, _, _, _, _, _, each => by
      cases each with
      | cons first others =>
        exact sequential.append (descend value first) (descendMembers rest others)

end

mutual

theorem leaves : (value : Json) → {value' : Json} → {site site' : Site} →
    {location location' : Location} → nodes ⟨value, site⟩ location ⟨value', site'⟩ location' →
      related (leaves visit value site location) (leaves visit' value' site' location')
  | .array elements, _, _, _, _, _, pair => by
      cases opened _ _ _ _ pair with
      | array same each => exact leavesOfElements elements same each
      | plain none => exact none.elim
  | .object members, _, _, _, _, _, pair => by
      cases opened _ _ _ _ pair with
      | object => exact visits _ _ _ _ pair
      | plain none => exact none.elim
  | .null, _, _, _, _, _, pair | .boolean _, _, _, _, _, _, pair | .number _, _, _, _, _, _, pair
  | .string _, _, _, _, _, _, pair | .foreign _, _, _, _, _, _, pair => by
      cases opened _ _ _ _ pair with
      | plain _ other =>
        rw [other.leaves_eq]
        exact visits _ _ _ _ pair

theorem leavesOfElements : (elements : List Json) → {elements' : List Json} →
    {site site' : Site} → {location location' : Location} → {position : Nat} →
    sites site site' →
    RelatedElements known nodes site site' location location' position elements elements' →
      related (leavesOfElements visit elements site location position)
        (leavesOfElements visit' elements' site' location' position)
  | [], _, _, _, _, _, _, _, each => by
      cases each
      exact sequential.done
  | element :: rest, _, _, _, _, _, _, same, each => by
      cases each with
      | cons first others =>
        refine sequential.fetch same fun read => ?_
        exact sequential.append (leaves element (first read)) (leavesOfElements rest same others)

end

end Sequential

/-! ## Steps of a path -/

/-- What a step does at a node: it applies its segment there, and a recursive step also to
everything below. -/
def Segment.visit (recursive : Bool) (segment : Segment) (node : Node) (location : Location) :
    Search :=
  if recursive then descend segment.search node.value node.site location
  else segment.search node location

theorem Path.search_start (recursive : Bool) (segment : Segment) (node : Node)
    (location : Location) :
    (Path.start recursive segment).search node location =
      segment.visit recursive node location := by
  rw [search, Segment.visit]

theorem Path.search_step (base : Path) (recursive : Bool) (segment : Segment) (node : Node)
    (location : Location) :
    (Path.step base recursive segment).search node location =
      (base.search node location).bind (segment.visit recursive) := by
  rw [search]
  rfl

/-! ## Paths without literals -/

mutual

/-- The last step of a path takes no string and no boolean for an element, and neither does a
path among its elements. -/
def Path.LiteralFree : Path → Prop
  | .start _ segment | .step _ _ segment => segment.LiteralFree

def Segment.LiteralFree : Segment → Prop
  | .subscript elements => Element.AllLiteralFree elements
  | _ => True

def Element.LiteralFree : Element → Prop
  | .expr (.string _) | .expr (.boolean _) => False
  | .expr (.path p) => p.LiteralFree
  | _ => True

def Element.AllLiteralFree : List Element → Prop
  | [] => True
  | element :: rest => element.LiteralFree ∧ Element.AllLiteralFree rest

end

/-! ## Expressions -/

/-- What a test of a bare `_key` finds in an array. -/
def ArrayNode.keyed (array : ArrayNode) (key : String) (location : Location) : Search :=
  .lookup array key fun
    | some (position, element) => .node (array.child position element) (location ++ [.key key])
    | none => .done

/-- Relations on nodes at their locations, and on the searches that begin there, for every
index.  Operands and the paths of existence checks begin at the empty location, where their
nodes are related for another index (`operand`).  Of searches there are two relations, with
literals among what is found and without. -/
structure Congruence (ι : Type) where
  nodes : ι → Node → Location → Node → Location → Prop
  searches : ι → (literals : Bool) → Search → Search → Prop
  sites : Site → Site → Prop
  known : Read → Prop
  operand : ι → ι
  sequential (i : ι) (b : Bool) : Sequential sites known (searches i b)
  opened (i : ι) (n : Node) (l : Location) (n' : Node) (l' : Location) : nodes i n l n' l' →
    OpenedAlike sites known (nodes i) n l n' l'
  at_operand {i : ι} {n n' : Node} {l l' : Location} : nodes i n l n' l' →
    nodes (operand i) n [] n' []
  node (i : ι) (b : Bool) : VisitsRelated (nodes i) (searches i b) .node .node
  literal {i : ι} {value : Scalar} : value.Plain →
    searches i true (.item (.literal value)) (.item (.literal value))
  bind {i : ι} {b : Bool} {one two : Search} {visit visit' : Node → Location → Search} :
    searches i true one two → VisitsRelated (nodes i) (searches i b) visit visit' →
      searches i b (one.bind visit) (two.bind visit')
  keyed {i : ι} {b : Bool} {elements elements' : List Json} {site site' : Site}
    {l l' : Location} (key : String) :
    nodes i ⟨.array elements, site⟩ l ⟨.array elements', site'⟩ l' →
      searches i b (ArrayNode.keyed ⟨elements, site⟩ key l)
        (ArrayNode.keyed ⟨elements', site'⟩ key l')
  compared {i : ι} {b : Bool} {left left' right right' : Search} {n n' : Node} {l l' : Location}
    (op : Comparison) : searches (operand i) true left left' →
    searches (operand i) true right right' → nodes i n l n' l' →
      searches i b (keepIf left op (fun _ => right) n l) (keepIf left' op (fun _ => right') n' l')
  checked {i : ι} {b : Bool} {one two : Search} {n n' : Node} {l l' : Location} :
    searches (operand i) true one two → nodes i n l n' l' →
      searches i b (keepIfFound one n l) (keepIfFound two n' l')

namespace Congruence

variable {ι : Type} (C : Congruence ι)

/-- Visits of one kind at related nodes make related searches. -/
def Respects (i : ι) (b : Bool) (visit : Node → Location → Search) : Prop :=
  VisitsRelated (C.nodes i) (C.searches i b) visit visit

variable {i : ι} {b : Bool}

/-- A part of two arrays, from one position in both. -/
theorem part {elements elements' : List Json} {site site' : Site} {l l' : Location} {start : Nat}
    {part part' : List Json} (same : C.sites site site')
    (each : RelatedElements C.known (C.nodes i) site site' l l' (0 + start) part part') :
    C.searches i b (eachElement .node ⟨elements, site⟩ l start part)
      (eachElement .node ⟨elements', site'⟩ l' start part') := by
  have sequential := C.sequential i b
  rw [Nat.zero_add] at each
  exact sequential.eachElement (C.node i b) same each

theorem member? (name : String) {n n' : Node} {l l' : Location} (pair : C.nodes i n l n' l') :
    Option.Rel (fun m m' => C.nodes i m (l ++ [.field name]) m' (l' ++ [.field name]))
      (n.member? name) (n'.member? name) := by
  cases C.opened _ _ _ _ _ pair with
  | array => exact .none
  | @object members members' _ _ _ _ each =>
    have found := each.find? name
    simp only [Node.member?, Json.findMember]
    generalize ((members.zipIdx).find? _).map _ = one at found ⊢
    generalize ((members'.zipIdx).find? _).map _ = two at found ⊢
    cases found with
    | none => exact .none
    | some related => exact .some related
  | plain one two =>
    rw [one.member?_eq_none, two.member?_eq_none]
    exact .none

theorem eachMember {site site' : Site} {l l' : Location} {position : Nat}
    {members members' : List (String × Json)}
    (each : RelatedMembers (C.nodes i) site site' l l' position members members') :
    C.searches i b (eachMember site l position members)
      (eachMember site' l' position members') := by
  have sequential := C.sequential i b
  induction each with
  | nil => exact sequential.done
  | cons first _ ih =>
    -- a member is the search for its node, before the search for the others
    have both := sequential.append (C.node i b _ _ _ _ first) ih
    exact both

theorem children : C.Respects i b children := by
  intro n l n' l' pair
  have sequential := C.sequential i b
  cases C.opened _ _ _ _ _ pair with
  | array same each => exact sequential.eachElement (C.node i b) same each
  | object each => exact C.eachMember each
  | plain one two =>
    rw [one.children_eq_done, two.children_eq_done]
    exact sequential.done

theorem field (name : String) : C.Respects i b (Segment.field name).search := by
  intro n l n' l' pair
  have members := C.member? name pair
  unfold Segment.search
  generalize n.member? name = one at members ⊢
  generalize n'.member? name = two at members ⊢
  cases members with
  | none => exact (C.sequential i b).done
  | some related => exact C.node i b _ _ _ _ related

theorem slice (first last : Option Int) : C.Respects i b (Element.slice first last).search := by
  intro n l n' l' pair
  unfold Element.search
  obtain ⟨is, is'⟩ | ⟨_, _, _, _, rfl, rfl, same, each⟩ := (C.opened _ _ _ _ _ pair).array_cases
  · rw [is, is']
    exact (C.sequential i b).done
  · simp only [Node.array?, ArrayNode.length, each.length_eq]
    exact C.part same ((each.take _).drop _)

theorem index (value : Double) : C.Respects i b (Element.expr (.number value)).search := by
  intro n l n' l' pair
  unfold Element.search
  obtain ⟨is, is'⟩ | ⟨_, _, _, _, rfl, rfl, same, each⟩ := (C.opened _ _ _ _ _ pair).array_cases
  · rw [is, is']
    exact (C.sequential i b).done
  · simp only [Node.array?, ArrayNode.length, each.length_eq]
    split
    · exact (C.sequential i b).done
    · exact C.part same ((each.drop _).take 1)

/-- A comparison of two operands that respect the relation, also where it is a key test. -/
theorem filter {left right : Expr} (op : Comparison)
    (left_operand : C.Respects (C.operand i) true left.search)
    (right_operand : C.Respects (C.operand i) true right.search) :
    C.Respects i b (Element.filter left op right).search := by
  intro n l n' l' pair
  have kept : C.Respects i b fun n l =>
      keepIf (left.search n []) op (fun _ => right.search n []) n l := fun _ _ _ _ pair =>
    C.compared op (left_operand _ _ _ _ (C.at_operand pair))
      (right_operand _ _ _ _ (C.at_operand pair)) pair
  have opened := (C.sequential i b).leaves kept (C.opened i) n.value pair
  unfold Element.search
  cases keyTest? left op right with
  | none => exact opened
  | some key =>
    obtain ⟨is, is'⟩ | ⟨_, _, _, _, rfl, rfl, -⟩ := (C.opened _ _ _ _ _ pair).array_cases
    · rw [is, is']
      exact opened
    · exact C.keyed key pair

theorem existence {p : Path} (checked : C.Respects (C.operand i) true p.search) :
    C.Respects i b (Element.existence p).search := by
  intro n l n' l' pair
  have kept : C.Respects i b fun n l => keepIfFound (p.search n []) n l :=
    fun _ _ _ _ pair => C.checked (checked _ _ _ _ (C.at_operand pair)) pair
  unfold Element.search
  obtain ⟨is, is'⟩ | ⟨_, _, _, _, rfl, rfl, same, each⟩ := (C.opened _ _ _ _ _ pair).array_cases
  · rw [is, is']
    exact kept _ _ _ _ pair
  · exact (C.sequential i b).eachElement kept same each

/-- A step, recursive or not. -/
theorem step {s : Segment} (each : C.Respects i b s.search) (recursive : Bool) :
    C.Respects i b (s.visit recursive) := by
  intro n l n' l' pair
  cases recursive with
  | false => exact each _ _ _ _ pair
  | true => exact (C.sequential i b).descend each (C.opened i) n.value pair

mutual

/-- Searched at related nodes, an expression makes related searches. -/
theorem expr : (e : Expr) → {i : ι} → C.Respects i true e.search
  | .number _, _ | .string _, _ | .boolean _, _ => fun _ _ _ _ _ => C.literal trivial
  | .path p, _ => path p (b := true) nofun

/-- And so does a path, also without literals if it is free of them. -/
theorem path : (p : Path) → {i : ι} → {b : Bool} → (b = false → p.LiteralFree) →
    C.Respects i b p.search
  | .start recursive s, i, b, free => by
      intro n l n' l' pair
      rw [Path.search_start, Path.search_start]
      exact C.step (segment s free) recursive n l n' l' pair
  | .step base recursive s, i, b, free => by
      intro n l n' l' pair
      have before := path base (b := true) nofun n l n' l' pair
      rw [Path.search_step, Path.search_step]
      exact C.bind before (C.step (segment s free) recursive)

theorem segment : (s : Segment) → {i : ι} → {b : Bool} → (b = false → s.LiteralFree) →
    C.Respects i b s.search
  | .this, i, b, _ => C.node i b
  | .field name, _, _, _ => C.field name
  | .wildcard, _, _, _ => C.children
  | .subscript all, _, _, free => elements all free

theorem element : (e : Element) → {i : ι} → {b : Bool} → (b = false → e.LiteralFree) →
    C.Respects i b e.search
  | .slice first last, _, _, _ => C.slice first last
  | .filter left op right, _, _, _ => C.filter op (expr left) (expr right)
  | .existence p, _, _, _ => C.existence (path p (b := true) nofun)
  | .expr (.number value), _, _, _ => C.index value
  | .expr (.string _), i, b, free | .expr (.boolean _), i, b, free => by
      cases b with
      | false => exact (free rfl).elim
      | true => exact fun _ _ _ _ _ => C.literal trivial
  | .expr (.path p), _, _, free => path p free

theorem elements : (all : List Element) → {i : ι} → {b : Bool} →
    (b = false → Element.AllLiteralFree all) → C.Respects i b (Element.searchAll all)
  | [], i, b, _ => fun _ _ _ _ _ => (C.sequential i b).done
  | e :: rest, i, b, free => by
      intro n l n' l' pair
      exact (C.sequential i b).append (element e (fun strict => (free strict).1) n l n' l' pair)
        (elements rest (fun strict => (free strict).2) n l n' l' pair)

end

end Congruence

end JsonQuery

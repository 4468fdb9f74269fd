/-
# JsonQuery.Proofs.Location.Form -- locations as JSON, and back

The JSON form of a location carries no tags, so the three kinds of steps must be told apart by
the kind of the value alone.  `Step.IsForm` says which values those are, and a value of such a
form reads as exactly one step (`Step.ofJson?_eq_some_iff`).  Only one thing is lost: an object
may have members besides its `key`, and those do not come back when the step is written again.
With this one exception, locations and their JSON forms determine each other
(`Location.json_exact`).
-/
import Mathlib.Algebra.Group.Int.Defs
import Mathlib.Algebra.Group.Nat.Defs
import Mathlib.Data.List.Forall2
import JsonQuery.Proofs.Json.Parts

namespace JsonQuery

set_option autoImplicit false

/-! ## Members of one name -/

namespace Json

/-- An object with nothing but its `key`; every other value is left as it is. -/
def keyAlone : Json → Json
  | .object members => .object (members.filter fun entry => entry.1 = "key")
  | value => value

/-- Where names increase, what has the name of a member is this member. -/
theorem filter_name {members : List (String × Json)} (sorted : SortedNames members) {name : String}
    {value : Json} (mem : (name, value) ∈ members) :
    members.filter (fun entry => entry.1 = name) = [(name, value)] := by
  induction members with
  | nil => cases mem
  | cons entry rest ih =>
    obtain ⟨below, others⟩ := List.pairwise_cons.1 sorted
    obtain rfl | mem := List.mem_cons.1 mem
    · have apart : ∀ other ∈ rest, ¬ decide (other.1 = name) = true := fun other mem same =>
        absurd (below other mem) (of_decide_eq_true same ▸ String.lt_irrefl name)
      rw [List.filter_cons_of_pos (by simp), List.filter_eq_nil_iff.2 apart]
    · have apart : entry.1 ≠ name := fun same =>
        absurd (below _ mem) (same ▸ String.lt_irrefl name)
      rw [List.filter_cons_of_neg (by simpa using apart), ih others mem]

/-- Where names increase, a lookup finds every member. -/
theorem member?_eq_some_iff {members : List (String × Json)} (sorted : SortedNames members)
    {name : String} {value : Json} :
    (Json.object members).member? name = some value ↔ (name, value) ∈ members := by
  simp only [member?, Option.map_eq_some_iff]
  constructor
  · rintro ⟨⟨position, _⟩, found, rfl⟩
    exact List.mem_of_getElem? (getElem?_of_findMember found)
  · intro mem
    obtain ⟨position, stands⟩ := List.getElem?_of_mem mem
    exact ⟨_, findMember_of_getElem? sorted stands, rfl⟩

theorem string?_eq_some_iff {value : Json} {text : String} :
    value.string? = some text ↔ value = .string text := by
  cases value <;> simp [string?]

end Json

/-! ## Steps -/

namespace Step

/-- A position fits into 64 bits. -/
def Fits : Step → Prop
  | .index position => position < 2 ^ 64
  | .field _ | .key _ => True

/-- A value reads as a given step: an integer without a sign as a position, a string as a
member, an object with a string `key` as a keyed element. -/
inductive Reads : Json → Step → Prop
  | index {position : Nat} (fits : position < 2 ^ 64) :
      Reads (.number (.int position)) (.index position)
  | field (name : String) : Reads (.string name) (.field name)
  | key {members : List (String × Json)} {k : String} (held : ("key", .string k) ∈ members) :
      Reads (.object members) (.key k)

/-- A value of one of the three kinds. -/
inductive IsForm : Json → Prop
  | index {position : Int} (least : 0 ≤ position) (greatest : position ≤ 2 ^ 64 - 1) :
      IsForm (.number (.int position))
  | field (name : String) : IsForm (.string name)
  | key {members : List (String × Json)} {k : String} (held : ("key", .string k) ∈ members) :
      IsForm (.object members)

theorem isForm_iff {value : Json} : IsForm value ↔ ∃ step, Reads value step := by
  constructor
  · rintro (⟨least, greatest⟩ | name | held)
    · obtain ⟨position, rfl⟩ := Int.eq_ofNat_of_zero_le least
      exact ⟨_, .index (by omega)⟩
    · exact ⟨_, .field name⟩
    · exact ⟨_, .key held⟩
  · rintro ⟨_, fits | name | held⟩
    · exact .index (by omega) (by omega)
    · exact .field name
    · exact .key held

/-- Whether an integer is a position is a matter of 64 bits. -/
theorem ofJson?_int {position : Int} {step : Step} :
    ofJson? (.number (.int position)) = some step ↔
      0 ≤ position ∧ position < 2 ^ 64 ∧ step = .index position.toNat := by
  have size : (UInt64.size : Int) = 2 ^ 64 := rfl
  rw [ofJson?, size, Option.ite_none_right_eq_some, and_assoc, Option.some_inj, @eq_comm _ step]

/-- An object is looked into for its `key` only. -/
theorem ofJson?_object {members : List (String × Json)} (sorted : Json.SortedNames members)
    {step : Step} : ofJson? (.object members) = some step ↔
      ∃ k, ("key", .string k) ∈ members ∧ step = .key k := by
  simp only [ofJson?, Option.bind_eq_some_iff, Json.member?_eq_some_iff sorted,
    Option.map_eq_some_iff, Json.string?_eq_some_iff]
  constructor
  · rintro ⟨value, mem, k, rfl, rfl⟩
    exact ⟨k, mem, rfl⟩
  · rintro ⟨k, mem, rfl⟩
    exact ⟨_, mem, k, rfl, rfl⟩

/-- The reader takes exactly what `Reads` admits, wherever names increase. -/
theorem ofJson?_eq_some_iff {value : Json} (normal : value.Normal) {step : Step} :
    ofJson? value = some step ↔ Reads value step := by
  constructor
  · intro read
    cases value with
    | number number =>
      cases number with
      | int position =>
        obtain ⟨least, fits, rfl⟩ := ofJson?_int.1 read
        obtain ⟨position, rfl⟩ := Int.eq_ofNat_of_zero_le least
        exact .index (by omega)
      | double => cases read
    | string name =>
      cases read
      exact .field name
    | object members =>
      obtain ⟨k, held, rfl⟩ := (ofJson?_object normal.1).1 read
      exact .key held
    | _ => cases read
  · rintro (fits | name | held)
    · exact ofJson?_int.2 ⟨by omega, by omega, rfl⟩
    · rfl
    · exact (ofJson?_object normal.1).2 ⟨_, held, rfl⟩

/-- What a step is written as reads as this step. -/
theorem reads_toJson {step : Step} (fits : step.Fits) : Reads step.toJson step := by
  cases step with
  | index position => exact .index fits
  | field name => exact .field name
  | key k => exact .key List.mem_cons_self

theorem Reads.fits {value : Json} {step : Step} (reads : Reads value step) : step.Fits := by
  cases reads with
  | index fits => exact fits
  | field name => trivial
  | key held => trivial

/-- A step that was read is written as the value it was read from, without the members that
the reader ignored. -/
theorem Reads.toJson_eq {value : Json} {step : Step} (reads : Reads value step)
    (normal : value.Normal) : step.toJson = value.keyAlone := by
  cases reads with
  | index fits => rfl
  | field name => rfl
  | key held => rw [toJson, Json.keyAlone, Json.filter_name normal.1 held]

theorem normal_toJson (step : Step) : step.toJson.Normal := by
  cases step with
  | key k => exact ⟨List.pairwise_singleton _ _, trivial, trivial⟩
  | _ => trivial

/-- The three kinds of steps are told apart by what they are written as. -/
theorem toJson_injective : Function.Injective toJson := by
  intro one two same
  cases one <;> cases two <;> simp only [toJson, Json.number.injEq, Number.int.injEq,
    Json.string.injEq, Json.object.injEq, List.cons.injEq, Prod.mk.injEq, reduceCtorEq] at same
  · exact congrArg index (by omega)
  · exact congrArg field same
  · exact congrArg key same.1.2

end Step

/-! ## Locations -/

namespace Location

/-- Every position fits into 64 bits. -/
def Fits (location : Location) : Prop := ∀ step ∈ location, step.Fits

/-- The elements of an array are read in turn, and all of them must be steps. -/
theorem mapM_eq_some_iff {elements : List Json} (normal : ∀ element ∈ elements, element.Normal)
    {location : Location} : elements.mapM Step.ofJson? = some location ↔
      List.Forall₂ Step.Reads elements location := by
  induction elements generalizing location with
  | nil => simp [eq_comm]
  | cons element rest ih =>
    obtain ⟨first, others⟩ := List.forall_mem_cons.1 normal
    simp only [List.mapM_cons, Option.bind_eq_bind, Option.bind_eq_some_iff, ih others,
      Step.ofJson?_eq_some_iff first, List.forall₂_cons_left_iff, Option.pure_def,
      Option.some_inj]
    constructor
    · rintro ⟨step, head, steps, tail, rfl⟩
      exact ⟨step, steps, head, tail, rfl⟩
    · rintro ⟨step, steps, head, tail, rfl⟩
      exact ⟨step, head, steps, tail, rfl⟩

theorem fits_of_reads {elements : List Json} {location : Location}
    (reads : List.Forall₂ Step.Reads elements location) : location.Fits := by
  induction reads with
  | nil => exact List.forall_mem_nil _
  | cons head _ ih => exact List.forall_mem_cons.2 ⟨head.fits, ih⟩

/-- Only an array reads as a location, and element for element. -/
theorem ofJson?_eq_some_iff {value : Json} (normal : value.Normal) {location : Location} :
    ofJson? value = some location ↔
      ∃ elements, value = .array elements ∧ List.Forall₂ Step.Reads elements location := by
  constructor
  · intro read
    cases value with
    | array elements =>
      exact ⟨elements, rfl, (mapM_eq_some_iff (Json.normalElements_iff.1 normal)).1 read⟩
    | _ => cases read
  · rintro ⟨elements, rfl, reads⟩
    exact (mapM_eq_some_iff (Json.normalElements_iff.1 normal)).2 reads

theorem toJson_injective : Function.Injective toJson := fun _ _ same =>
  List.map_injective_iff.2 Step.toJson_injective (Json.array.inj same)

/-- The steps of an array as they are written, where each of them was read. -/
theorem map_toJson {elements : List Json} (normal : ∀ element ∈ elements, element.Normal)
    {location : Location} (reads : List.Forall₂ Step.Reads elements location) :
    location.map Step.toJson = elements.map Json.keyAlone := by
  induction reads with
  | nil => rfl
  | cons head tail ih =>
    obtain ⟨first, others⟩ := List.forall_mem_cons.1 normal
    rw [List.map_cons, List.map_cons, head.toJson_eq first, ih others]

/-- Steps can be read from elements exactly if one can be read from each of them. -/
theorem exists_reads_iff {elements : List Json} :
    (∃ location, List.Forall₂ Step.Reads elements location) ↔
      ∀ element ∈ elements, Step.IsForm element := by
  simp only [Step.isForm_iff]
  constructor
  · rintro ⟨location, reads⟩
    induction reads with
    | nil => exact List.forall_mem_nil _
    | cons head _ ih => exact List.forall_mem_cons.2 ⟨⟨_, head⟩, ih⟩
  · intro forms
    choose! step reads using forms
    exact ⟨elements.map step, List.forall₂_map_right_iff.2 (List.forall₂_same.2 reads)⟩

theorem normal_toJson (location : Location) : location.toJson.Normal := by
  refine Json.normalElements_iff.2 fun element mem => ?_
  obtain ⟨step, -, rfl⟩ := List.mem_map.1 mem
  exact step.normal_toJson

/-- Where positions fit, nothing is lost on the way to JSON and back. -/
theorem ofJson?_toJson {location : Location} (fits : location.Fits) :
    ofJson? location.toJson = some location := by
  refine (ofJson?_eq_some_iff location.normal_toJson).2 ⟨_, rfl, ?_⟩
  rw [List.forall₂_map_left_iff]
  exact List.forall₂_same.2 fun step mem => Step.reads_toJson (fits step mem)

/-- Every location has a JSON form of its own that reads as this location.  A document reads as
a location exactly if it is an array of integers from 0 to `2 ^ 64 - 1`, strings, and objects
with a string `key`; and the location that was read is written as the document, but for the
members beside the `key` of such an object. -/
theorem json_exact (location : Location) (fits : location.Fits) (value : Document) :
    ofJson? location.toJson = some location ∧
    ((∃ read, ofJson? value.root = some read) ↔
      ∃ elements, value.root = .array elements ∧ ∀ element ∈ elements, Step.IsForm element) ∧
    (∀ read, ofJson? value.root = some read →
      read.Fits ∧ ∃ elements, value.root = .array elements ∧
        read.toJson = .array (elements.map Json.keyAlone)) ∧
    ∀ other : Location, other.toJson = location.toJson → other = location := by
  refine ⟨ofJson?_toJson fits, ?_, ?_, fun _ same => toJson_injective same⟩
  · simp only [ofJson?_eq_some_iff value.normal, ← exists_reads_iff]
    constructor
    · rintro ⟨location, elements, is, reads⟩
      exact ⟨elements, is, location, reads⟩
    · rintro ⟨elements, is, location, reads⟩
      exact ⟨location, elements, is, reads⟩
  · intro read found
    obtain ⟨elements, is, reads⟩ := (ofJson?_eq_some_iff value.normal).1 found
    have normal : ∀ element ∈ elements, element.Normal :=
      Json.normalElements_iff.1 (is ▸ value.normal :)
    exact ⟨fits_of_reads reads, elements, is, congrArg Json.array (map_toJson normal reads)⟩

/-- A keyed element with one more member reads as its key, and that member does not come
back. -/
theorem json_exact_keyed :
    ofJson? (.array [.string "items", .number (.int 0), .object [("key", .string "b")]]) =
        some [.field "items", .index 0, .key "b"] ∧
      ofJson? (.array [.object [("key", .string "b"), ("v", .null)]]) = some [.key "b"] ∧
      toJson [.key "b"] =
        .array [Json.keyAlone (.object [("key", .string "b"), ("v", .null)])] := by
  have sorted : Json.SortedNames [("key", .string "b"), ("v", .null)] :=
    List.pairwise_pair.2 (by decide)
  have ordered : Json.Normal (.array [.object [("key", .string "b"), ("v", .null)]]) :=
    ⟨⟨sorted, trivial, trivial, trivial⟩, trivial⟩
  obtain ⟨back, -, kept, -⟩ := json_exact [.field "items", .index 0, .key "b"]
    (by simp [Fits, Step.Fits]) ⟨_, ordered⟩
  have read : ofJson? (.array [.object [("key", .string "b"), ("v", .null)]]) = some [.key "b"] :=
    rfl
  obtain ⟨-, elements, is, written⟩ := kept _ read
  exact ⟨back, read, by rw [written, ← Json.array.inj is]; rfl⟩

end Location

end JsonQuery

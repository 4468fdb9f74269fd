/-
# JsonQuery.Proofs.Query.Existence -- an existence check is a query for a match

An existence check keeps a node if the search for its path has any item; a query asks for a
match, and literals are no matches.  The two differ only if the search finds a literal.
That takes a string or a boolean among the elements of the last subscript, or of a path that
is an element there: what the steps before find is searched further, and what operands and
existence checks find is not passed on (`Path.findsNodes_search`).

So for a path without such elements (`Path.LiteralFree`) the check keeps just the nodes at
which the path has a match (`Element.yields_existence`).
-/
import JsonQuery.Proofs.Eval.Placed
import JsonQuery.Proofs.Eval.Trusted
import JsonQuery.Proofs.Query.Distinct

namespace JsonQuery

set_option autoImplicit false

/-! ## Searches that find nodes only -/

/-- No item of a search is a literal. -/
def Search.FindsNodes (search : Search) : Prop :=
  ∀ item ∈ search.items, ∃ found : Match, item = found.item

theorem findsNodes_done : Search.done.FindsNodes := fun _ mem => absurd mem List.not_mem_nil

theorem findsNodes_node (node : Node) (location : Location) :
    (Search.node node location).FindsNodes := fun _ mem =>
  ⟨⟨node, location⟩, List.mem_singleton.1 mem⟩

theorem findsNodes_append {first second : Search} (one : first.FindsNodes)
    (two : second.FindsNodes) : (first.append fun _ => second).FindsNodes := by
  intro item mem
  rw [Search.items_append] at mem
  exact (List.mem_append.1 mem).elim (one item) (two item)

/-- What the search itself finds is visited, and not passed on. -/
theorem findsNodes_bind {visit : Node → Location → Search}
    (visits : ∀ n l, (visit n l).FindsNodes) (search : Search) :
    (search.bind visit).FindsNodes := by
  intro item mem
  rw [Search.items_bind] at mem
  obtain ⟨visited, -, mem⟩ := List.mem_flatMap.1 mem
  cases visited with
  | node n l => exact visits n l item mem
  | literal => cases mem

theorem findsNodes_keyed (array : ArrayNode) (key : String) (location : Location) :
    (array.keyed key location).FindsNodes := by
  unfold Search.FindsNodes ArrayNode.keyed
  rw [Search.items]
  cases array.first? key with
  | none => exact findsNodes_done
  | some hit => exact findsNodes_node _ _

theorem findsNodes_keepIf (left : Search) (op : Comparison) (right : Unit → Search) (node : Node)
    (location : Location) : (keepIf left op right node location).FindsNodes := by
  intro item mem
  rw [items_keepIf] at mem
  split at mem
  · exact findsNodes_node node location item mem
  · cases mem

theorem findsNodes_keepIfFound (search : Search) (node : Node) (location : Location) :
    (keepIfFound search node location).FindsNodes := by
  intro item mem
  rw [items_keepIfFound] at mem
  split at mem
  · cases mem
  · exact findsNodes_node node location item mem

theorem downward_true : Downward (fun _ => True) fun _ _ => True where
  array _ _ := trivial
  element _ _ := trivial
  member _ _ := trivial

/-- Searches that find nodes only, where there are no literals. -/
def Congruence.findsNodes : Congruence Unit where
  nodes _ := Unmoved fun _ _ => True
  searches _ literals search _ := literals = false → search.FindsNodes
  sites := Eq
  known _ := True
  operand := id
  sequential _ _ := {
    done := fun _ => findsNodes_done
    append := fun one two strict => findsNodes_append (one strict) (two strict)
    fetch := fun _ next strict => next trivial strict }
  opened _ _ _ _ _ := downward_true.opened
  at_operand := fun ⟨_, same, _⟩ => ⟨trivial, same, rfl⟩
  node _ _ n l _ _ _ _ := findsNodes_node n l
  literal _ := nofun
  bind {_} {_} {one} _ _ _ _ visits strict :=
    findsNodes_bind (fun n l => visits n l n l ⟨trivial, rfl, rfl⟩ strict) one
  keyed key _ _ := findsNodes_keyed _ key _
  compared op _ _ _ _ := findsNodes_keepIf _ op _ _ _
  checked _ _ _ := findsNodes_keepIfFound _ _ _

/-- A path without literals at its end finds nodes only. -/
theorem Path.findsNodes_search (p : Path) (free : p.LiteralFree) (node : Node)
    (location : Location) : (p.search node location).FindsNodes :=
  Congruence.findsNodes.path p (i := ()) (fun _ => free) node location node location
    ⟨trivial, rfl, rfl⟩ rfl

/-! ## Matches -/

/-- Whether an expression has a match at a node, as a query of its own. -/
def Node.hasMatch (node : Node) (expr : Expr) : Bool :=
  ((Cursor.start expr node []).next (.start .empty)).hit.isSome

theorem Node.hasMatch_ofDocument (expr : Expr) (document : Document) :
    (Node.ofDocument 0 0 document).hasMatch expr = expr.hasMatch document := rfl

theorem isSome_head?_reported (items : List Item) :
    (reported .none items).head?.isSome = !(items.filterMap Item.match?).isEmpty := by
  rw [reported_eq_distinct]
  cases items.filterMap Item.match? with
  | nil => rfl
  | cons head rest => rw [Match.distinct_cons]; rfl

theorem Search.FindsNodes.isEmpty_filterMap {search : Search} (finds : search.FindsNodes) :
    (search.items.filterMap Item.match?).isEmpty = search.items.isEmpty := by
  unfold Search.FindsNodes at finds
  cases is : search.items with
  | nil => rfl
  | cons item rest =>
    obtain ⟨found, rfl⟩ := finds item (is ▸ List.mem_cons_self)
    rfl

/-- Where no literal is found, there is a match exactly if there is an item. -/
theorem Node.hasMatch_of_findsNodes (node : Node) {expr : Expr}
    (finds : (expr.search node []).FindsNodes) :
    node.hasMatch expr = !(expr.search node []).items.isEmpty := by
  have hit := (Search.pull_produced (expr.search node []) .none (.start .empty)).1
  have items : (expr.search node []).produced (Run.start .empty).cache =
      (expr.search node []).items := expr.produced_empty node []
  rw [items] at hit
  rw [hasMatch, Cursor.next, Cursor.start, hit, isSome_head?_reported, finds.isEmpty_filterMap]

/-! ## Existence checks -/

theorem items_kept_existence {path : Path} (free : path.LiteralFree) (node : Node)
    (location : Location) :
    (keepIfFound (path.search node []) node location).items =
      if node.hasMatch (.path path) then [.node node location] else [] := by
  have has : node.hasMatch (.path path) = !((Expr.path path).search node []).items.isEmpty :=
    node.hasMatch_of_findsNodes (path.findsNodes_search free node [])
  rw [items_keepIfFound, has, Expr.search]
  cases (path.search node []).items.isEmpty <;> rfl

/-- An existence check keeps, of an array, the elements at which its path has a match, each
once and in their order, and any other node if the path has a match there; the path must
take no string and no boolean for an element of its last subscript. -/
theorem Element.yields_existence (path : Path) (free : path.LiteralFree) {cache : KeyCache}
    {found : Match} (trusts : cache.TrustsBelow found.node) :
    (∀ elements, found.node.value = .array elements →
      (Element.existence path).yields cache found =
        (found.parts.filter fun part => part.node.hasMatch (.path path)).map Match.item) ∧
    ((∀ elements, found.node.value ≠ .array elements) →
      (Element.existence path).yields cache found =
        if found.node.hasMatch (.path path) then [found.item] else []) := by
  rw [yields_of_within trusts (within_existence path _ _)]
  obtain ⟨⟨value, site⟩, location⟩ := found
  constructor
  · rintro elements rfl
    have walk : ((Element.existence path).search ⟨.array elements, site⟩ location) =
        eachElement (fun n l => keepIfFound (path.search n []) n l) ⟨elements, site⟩ location 0
          elements := by
      unfold Element.search
      rfl
    rw [walk, items_eachElement _ ⟨elements, site⟩]
    simp only [items_kept_existence free]
    exact flatMap_kept _ _
  · intro other
    have none : Node.array? ⟨value, site⟩ = none := by
      cases value with
      | array elements => exact absurd rfl (other elements)
      | _ => rfl
    unfold Element.search
    simp only [none]
    exact items_kept_existence free ⟨value, site⟩ location

/-- Of the elements one has a keyed element in its `x`, found although the cache has it at
another position; one has an empty `x`, and one has none. -/
theorem Element.yields_existence_keyed :
    let keyed (key : String) : Json := .object [("_key", .string key)]
    let holder : Json := .object [("_key", .string "k"), ("x", .array [keyed "a", keyed "b"])]
    let found : Match := ⟨⟨.array [.object [("x", .array [])], .string "x", holder], .root 0 0⟩, []⟩
    let cache := KeyCache.empty.remember ⟨0, 0, [2, 1]⟩ ((∅ : KeyIndex).insert "b" 5)
    let path : Path := .step (.start false (.field "x")) false
      (.subscript [.filter (.string "b") .eq (.path (.start false (.field "_key")))])
    (Element.existence path).yields cache found = [.node ⟨holder, ⟨0, 0, [2]⟩⟩ [.key "k"]] := by
  intro keyed holder found cache path
  have free : path.LiteralFree := ⟨trivial, trivial⟩
  have differ : (keyed "a").key? ≠ (keyed "b").key? := by decide
  have apart : found.node.value.Apart :=
    ⟨.cons (by rintro _ (_ | ⟨_, _ | ⟨_, ⟨⟩⟩⟩) _ <;> rfl)
        (.cons (by rintro _ (_ | ⟨_, ⟨⟩⟩) _; rfl) (.cons nofun .nil)),
      ⟨⟨.nil, trivial⟩, trivial⟩, trivial,
      ⟨trivial, ⟨.cons (by rintro _ (_ | ⟨_, ⟨⟩⟩) same; exact absurd same differ)
        (.cons nofun .nil), ⟨trivial, trivial⟩, ⟨trivial, trivial⟩, trivial⟩, trivial⟩, trivial⟩
  exact ((yields_existence path free (trustsBelow_of_apart cache apart)).1 _ rfl).trans rfl

end JsonQuery

/-
# JsonQuery.Proofs.Eval.Placed -- where a document stands decides nothing

Two nodes of one document compare by the positions that lead to them, which document
of a session it is and how often it was replaced (`Comparison.holds_placed`).  And the
location of a node is only carried along.  So a search from a node in another place
and behind a longer location finds the same items, in their places and behind that
location (`Expr.items_placed`).
-/
import JsonQuery.Proofs.Eval.Congruence

namespace JsonQuery

set_option autoImplicit false

/-! ## Other places -/

/-- The same place in another revision or document. -/
def Site.placed (document revision : Nat) (site : Site) : Site :=
  ⟨document, revision, site.ordinals⟩

def Identity.placed (document revision : Nat) (identity : Identity) : Identity :=
  ⟨document, if identity.ordinals.isEmpty then 0 else revision, identity.ordinals⟩

def Node.placed (document revision : Nat) (node : Node) : Node :=
  ⟨node.value, node.site.placed document revision⟩

def ArrayNode.placed (document revision : Nat) (array : ArrayNode) : ArrayNode :=
  ⟨array.elements, array.site.placed document revision⟩

def Scalar.placed (document revision : Nat) : Scalar → Scalar
  | .array identity => .array (identity.placed document revision)
  | .object identity => .object (identity.placed document revision)
  | scalar => scalar

/-- The same item in another revision or document, and behind another location. -/
def Item.placed (document revision : Nat) (base : Location) : Item → Item
  | .node n location => .node (n.placed document revision) (base ++ location)
  | .literal value => .literal value

/-- The document and the revision of a place. -/
def Site.home (site : Site) : Nat × Nat := (site.document, site.revision)

/-- The property of nodes to be in one revision of a document. -/
def AtHome (home : Nat × Nat) (node : Node) (_ : Location) : Prop := node.site.home = home

/-! ## Comparisons -/

section

variable (document revision : Nat)

theorem Identity.placed_inj {one two : Site} (same : one.home = two.home) :
    one.identity.placed document revision = two.identity.placed document revision ↔
      one.identity = two.identity := by
  simp only [Site.home, Prod.mk.injEq] at same
  simp only [placed, Site.identity, Identity.mk.injEq, same, true_and]
  constructor
  · rintro ⟨-, ordinals⟩
    simp [ordinals]
  · rintro ⟨-, ordinals⟩
    simp [ordinals]

/-- An identity in a scalar is one of a place at home. -/
def Scalar.AtHome (home : Nat × Nat) : Scalar → Prop
  | .array identity => ∃ site : Site, site.home = home ∧ identity = site.identity
  | .object identity => ∃ site : Site, site.home = home ∧ identity = site.identity
  | _ => True

theorem Scalar.atHome_ofNode {home : Nat × Nat} {node : Node} (at_home : node.site.home = home) :
    (Scalar.ofNode node).AtHome home := by
  unfold ofNode
  split <;> first | trivial | exact ⟨node.site, at_home, rfl⟩

theorem Scalar.ofNode_placed (node : Node) :
    Scalar.ofNode (node.placed document revision) =
      (Scalar.ofNode node).placed document revision := by
  obtain ⟨value, site⟩ := node
  cases value <;> rfl

theorem Item.scalar_placed {home : Nat × Nat} (base : Location) {item : Item}
    (meets : item.Meets (AtHome home)) :
    (item.placed document revision base).scalar = item.scalar.placed document revision ∧
      item.scalar.AtHome home := by
  cases item with
  | node n location => exact ⟨Scalar.ofNode_placed document revision n, Scalar.atHome_ofNode meets⟩
  | literal value =>
    cases value with
    | array | object => exact meets.elim
    | _ => exact ⟨rfl, trivial⟩

theorem Scalar.equal_placed {home : Nat × Nat} {x y : Scalar} (left : x.AtHome home)
    (right : y.AtHome home) :
    (x.placed document revision).equal (y.placed document revision) = x.equal y := by
  cases x <;> cases y <;> try rfl
  all_goals
    obtain ⟨one, home_one, rfl⟩ := left
    obtain ⟨two, home_two, rfl⟩ := right
    simp only [placed, equal, Identity.placed_inj document revision (home_one.trans home_two.symm)]

theorem Comparison.holds_placed (op : Comparison) {home : Nat × Nat} {x y : Scalar}
    (left : x.AtHome home) (right : y.AtHome home) :
    op.holds (x.placed document revision) (y.placed document revision) = op.holds x y := by
  cases op with
  | eq => exact Scalar.equal_placed document revision left right
  | ne => exact congrArg not (Scalar.equal_placed document revision left right)
  | _ => cases x <;> cases y <;> rfl

end

/-! ## What is kept -/

/-- Whether a comparison has two sides and holds. -/
def Comparison.keeps (op : Comparison) : Option Item → Option Item → Bool
  | some x, some y => op.holds x.scalar y.scalar
  | _, _ => false

theorem items_keepIf (left : Search) (op : Comparison) (right : Unit → Search) (node : Node)
    (location : Location) :
    (keepIf left op right node location).items =
      if op.keeps left.items.head? (right ()).items.head? then [.node node location] else [] := by
  rw [keepIf, Search.items_first]
  cases left.items.head? with
  | none => rfl
  | some x =>
    dsimp only
    rw [Search.items_first]
    cases (right ()).items.head? with
    | none => rfl
    | some y =>
      dsimp only
      rw [Comparison.keeps]
      cases op.holds x.scalar y.scalar <;> rfl

theorem items_keepIfFound (search : Search) (node : Node) (location : Location) :
    (keepIfFound search node location).items =
      if search.items.isEmpty then [] else [.node node location] := by
  rw [keepIfFound, Search.items_first]
  cases search.items <;> rfl

/-! ## Searches -/

section

variable {document revision : Nat} {base : Location} {home : Nat × Nat}

/-- A search finds nodes at home, and another finds the same items in their places. -/
structure Search.Placed (document revision : Nat) (home : Nat × Nat) (base : Location)
    (one two : Search) : Prop where
  items : two.items = one.items.map (.placed document revision base)
  meets : ∀ item ∈ one.items, item.Meets (AtHome home)

theorem Search.placed_bind {visit visit' : Node → Location → Search} {one two : Search}
    (placed : one.Placed document revision home base two)
    (visits : ∀ n l, n.site.home = home → (visit n l).Placed document revision home base
      (visit' (n.placed document revision) (base ++ l))) :
    (one.bind visit).Placed document revision home base (two.bind visit') where
  items := by
    rw [items_bind, items_bind, List.map_flatMap, placed.items, List.flatMap_map,
      List.flatMap_def, List.flatMap_def]
    refine congrArg List.flatten (List.map_congr_left fun item mem => ?_)
    have meets := placed.meets item mem
    cases item with
    | node n l => exact (visits n l meets).items
    | literal => rfl
  meets := by
    intro item mem
    rw [items_bind] at mem
    obtain ⟨found, found_mem, mem⟩ := List.mem_flatMap.1 mem
    have meets := placed.meets found found_mem
    cases found with
    | node n l => exact (visits n l meets).meets item mem
    | literal => cases mem

theorem Search.placed_node (node : Node) (location : Location) (at_home : node.site.home = home) :
    (Search.node node location).Placed document revision home base
      (.node (node.placed document revision) (base ++ location)) :=
  ⟨rfl, List.forall_mem_singleton.2 at_home⟩

theorem Search.placed_keyed (elements : List Json) {site : Site} (at_home : site.home = home)
    (key : String) (location : Location) :
    (ArrayNode.keyed ⟨elements, site⟩ key location).Placed document revision home base
      (ArrayNode.keyed ⟨elements, site.placed document revision⟩ key (base ++ location)) := by
  have first : ArrayNode.first? ⟨elements, site.placed document revision⟩ key =
      ArrayNode.first? ⟨elements, site⟩ key := rfl
  constructor
  · simp only [ArrayNode.keyed, items, first]
    cases ArrayNode.first? ⟨elements, site⟩ key with
    | none => rfl
    | some hit =>
      rw [List.append_assoc]
      rfl
  · simp only [ArrayNode.keyed, items]
    cases ArrayNode.first? ⟨elements, site⟩ key with
    | none => exact List.forall_mem_nil _
    | some hit => exact List.forall_mem_singleton.2 at_home

theorem keeps_placed (op : Comparison) {left right : Option Item}
    (one : ∀ item ∈ left, item.Meets (AtHome home))
    (two : ∀ item ∈ right, item.Meets (AtHome home)) :
    op.keeps (left.map (.placed document revision base))
      (right.map (.placed document revision base)) = op.keeps left right := by
  cases left with
  | none => rfl
  | some x =>
    cases right with
    | none => rfl
    | some y =>
      obtain ⟨scalar_x, home_x⟩ := Item.scalar_placed document revision base (one x rfl)
      obtain ⟨scalar_y, home_y⟩ := Item.scalar_placed document revision base (two y rfl)
      simp only [Option.map_some, Comparison.keeps, scalar_x, scalar_y]
      exact op.holds_placed document revision home_x home_y

/-- Searches that keep a node or nothing, for the same reason. -/
theorem Search.placed_kept {one two : Search} (keep : Prop) [Decidable keep] {node : Node}
    (location : Location) (at_home : node.site.home = home)
    (items : one.items = if keep then [.node node location] else [])
    (items' : two.items =
      if keep then [.node (node.placed document revision) (base ++ location)] else []) :
    one.Placed document revision home base two := by
  constructor
  · rw [items, items']
    split <;> rfl
  · rw [items]
    split
    · exact List.forall_mem_singleton.2 at_home
    · exact List.forall_mem_nil _

theorem placed_keepIf {left left' right right' : Search} (op : Comparison)
    (one : left.Placed document revision home [] left')
    (two : right.Placed document revision home [] right') {node : Node} (location : Location)
    (at_home : node.site.home = home) :
    (keepIf left op (fun _ => right) node location).Placed document revision home base
      (keepIf left' op (fun _ => right') (node.placed document revision) (base ++ location)) := by
  refine Search.placed_kept _ location at_home (items_keepIf ..) ?_
  rw [items_keepIf, one.items, two.items, List.head?_map, List.head?_map,
    keeps_placed op (fun item first => one.meets item (List.mem_of_head? first))
      (fun item first => two.meets item (List.mem_of_head? first))]

theorem placed_keepIfFound {search search' : Search}
    (placed : search.Placed document revision home [] search') {node : Node} (location : Location)
    (at_home : node.site.home = home) :
    (keepIfFound search node location).Placed document revision home base
      (keepIfFound search' (node.placed document revision) (base ++ location)) := by
  refine Search.placed_kept (¬ search.items.isEmpty) location at_home ?_ ?_
  · exact (items_keepIfFound ..).trans (ite_not ..).symm
  · rw [items_keepIfFound, placed.items, List.isEmpty_map, ite_not]

end

/-- A node in its place and behind a base, and searches with the items there. -/
def Congruence.placed (document revision : Nat) (home : Nat × Nat) : Congruence Location where
  nodes base n l n' l' :=
    n.site.home = home ∧ n' = n.placed document revision ∧ l' = base ++ l
  searches base _ := Search.Placed document revision home base
  sites _ _ := True
  known _ := True
  operand _ := []
  sequential base _ := {
    done := ⟨rfl, List.forall_mem_nil _⟩
    append := by
      intro one one' two two' first second
      constructor
      · rw [Search.items_append, Search.items_append, List.map_append, first.items, second.items]
      · rw [Search.items_append]
        exact List.forall_mem_append.2 ⟨first.meets, second.meets⟩
    fetch := fun _ next => ⟨(next trivial).items, (next trivial).meets⟩ }
  opened := by
    rintro base ⟨value, site⟩ l _ _ ⟨at_home, rfl, rfl⟩
    refine OpenedAlike.of_value trivial value ?_ ?_
    · exact fun _ _ _ _ _ => ⟨at_home, rfl, List.append_assoc ..⟩
    · exact fun _ _ _ _ _ _ => ⟨at_home, rfl, List.append_assoc ..⟩
  at_operand := fun ⟨at_home, same, _⟩ => ⟨at_home, same, rfl⟩
  node := by
    rintro base b n l _ _ ⟨at_home, rfl, rfl⟩
    exact Search.placed_node n l at_home
  literal plain := ⟨rfl, List.forall_mem_singleton.2 plain⟩
  bind placed visits := Search.placed_bind placed fun n l at_home =>
    visits n l _ _ ⟨at_home, rfl, rfl⟩
  keyed := by
    rintro base b elements _ site _ l _ key ⟨at_home, ⟨⟩, rfl⟩
    exact Search.placed_keyed elements at_home key l
  compared := by
    rintro base b left left' right right' n _ l _ op one two ⟨at_home, rfl, rfl⟩
    exact placed_keepIf op one two l at_home
  checked := by
    rintro base b search search' n _ l _ placed ⟨at_home, rfl, rfl⟩
    exact placed_keepIfFound placed l at_home

/-- From another place and behind another location, the search for an expression has the same
items in their places. -/
theorem Expr.items_placed (document revision : Nat) (e : Expr) (base : Location) (node : Node)
    (location : Location) :
    (e.search (node.placed document revision) (base ++ location)).items =
      (e.search node location).items.map (.placed document revision base) :=
  ((Congruence.placed document revision node.site.home).expr e node location _ _
    ⟨rfl, rfl, rfl⟩).items

end JsonQuery

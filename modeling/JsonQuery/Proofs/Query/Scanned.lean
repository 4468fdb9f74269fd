/-
# JsonQuery.Proofs.Query.Scanned -- a scan fetches no more than it needs

A search scans an array if it fetches the elements from one position on up to another, each
once and in their order, and of each finds the element itself or nothing (`Search.Scans`).
Between its pulls such a search has fetched the elements up to some position and no other
(`Search.pull_scans`).  So if a pull reports an element, everything up to the element and
nothing behind it was fetched; and all was fetched if there is nothing to report.

A wildcard and a slice in a subscript scan the array.  A comparison and an existence check
do so if they look no further than the members of an element: a path of names and `@` fetches
nothing and looks nothing up (`Path.immediate_search`).  A comparison also opens the arrays
among the elements, and a key test asks the key cache; both have to be kept out
(`Element.Scanning`).
-/
import JsonQuery.Proofs.Eval.KeyTest
import JsonQuery.Proofs.Eval.Positions

namespace JsonQuery

set_option autoImplicit false

/-! ## Scans -/

/-- The fetches of a number of elements of an array, from a position on. -/
def ArrayNode.readsFrom (array : ArrayNode) (position count : Nat) : List Read :=
  (List.range' position count).map fun i => ⟨array.identity, i⟩

theorem ArrayNode.readsFrom_succ (array : ArrayNode) (position count : Nat) :
    array.readsFrom position (count + 1) =
      array.readsFrom position count ++ [⟨array.identity, position + count⟩] := by
  simp [readsFrom, List.range'_concat]

/-- From a position on up to another, elements of an array are fetched, and of each nothing is
found or the element itself. -/
inductive Search.Scans (array : ArrayNode) (location : Location) (stop : Nat) :
    (position : Nat) → Search → Prop
  | exhausted : Scans array location stop stop .done
  | pass {position : Nat} {next : Unit → Search}
      (rest : Scans array location stop (position + 1) (next ())) :
      Scans array location stop position (.fetch ⟨array.identity, position⟩ next)
  | keep {position : Nat} {part : Match} {next more : Unit → Search}
      (stands : (array.at location).parts[position]? = some part)
      (keeps : next () = .found part.item more)
      (rest : Scans array location stop (position + 1) (more ())) :
      Scans array location stop position (.fetch ⟨array.identity, position⟩ next)

section

variable {array : ArrayNode} {location : Location} {start stop position : Nat}

theorem Search.Scans.le {search : Search} (scans : search.Scans array location stop position) :
    position ≤ stop := by
  induction scans with
  | exhausted => exact Nat.le_refl _
  | pass _ ih | keep _ _ _ ih => exact Nat.le_of_succ_le ih

/-! ## Pulls -/

variable (array location start stop) in
/-- A cursor that scans an array has come to a position: the elements before it were fetched. -/
structure Cursor.Scanned (cursor : Cursor) (run : Run) (position : Nat) : Prop where
  begun : start ≤ position
  scans : cursor.search.Scans array location stop position
  reads : run.reads.reverse = array.readsFrom start (position - start)

variable (array location start stop) in
/-- A pull of a scan reports an element and has come to the position behind it, or it has come
to the end. -/
structure Pulled.Scanned (pulled : Pulled) : Prop where
  hit : ∀ found, pulled.hit = some found →
    ∃ i, start ≤ i ∧ i < stop ∧ (array.at location).parts[i]? = some found ∧
      pulled.cursor.Scanned array location start stop pulled.run (i + 1)
  finish : pulled.hit = none → pulled.cursor.Scanned array location start stop pulled.run stop

/-- One element more is fetched. -/
theorem reads_fetch {run : Run} (begun : start ≤ position)
    (reads : run.reads.reverse = array.readsFrom start (position - start)) :
    (run.fetch ⟨array.identity, position⟩).reads.reverse =
      array.readsFrom start (position + 1 - start) := by
  rw [Run.fetch, List.reverse_cons, reads, Nat.succ_sub begun, ArrayNode.readsFrom_succ,
    Nat.add_sub_cancel' begun]

theorem Search.pull_scans {search : Search} (scans : search.Scans array location stop position)
    (seen : Seen) {run : Run} (begun : start ≤ position)
    (reads : run.reads.reverse = array.readsFrom start (position - start)) :
    (search.pull seen run).Scanned array location start stop := by
  induction scans generalizing seen run with
  | exhausted =>
    refine ⟨?_, fun _ => ⟨begun, .exhausted, reads⟩⟩
    rintro _ ⟨⟩
  | pass _ ih => exact ih seen (Nat.le_succ_of_le begun) (reads_fetch begun reads)
  | @keep position part next more stands keeps rest ih =>
    have fetched := reads_fetch begun reads
    have later : start ≤ position + 1 := Nat.le_succ_of_le begun
    simp only [Search.pull, keeps, Match.item]
    rcases inserted : seen.insert part.location with ⟨fresh, after⟩
    cases fresh with
    | false => exact ih after later fetched
    | true =>
      constructor
      · rintro _ ⟨⟩
        exact ⟨position, begun, rest.le, stands, later, rest, fetched⟩
      · rintro ⟨⟩

theorem Cursor.Scanned.next {cursor : Cursor} {run : Run}
    (scanned : cursor.Scanned array location start stop run position) :
    (cursor.next run).Scanned array location start stop :=
  Search.pull_scans scanned.scans cursor.seen scanned.begun scanned.reads

/-- The outcome of one pull more behind a number of pulls. -/
def Cursor.pullAfter (cursor : Cursor) (run : Run) : Nat → Pulled
  | 0 => cursor.next run
  | count + 1 => (cursor.next run).cursor.pullAfter (cursor.next run).run count

theorem Cursor.Scanned.pullAfter {cursor : Cursor} {run : Run}
    (scanned : cursor.Scanned array location start stop run position) (count : Nat) :
    (cursor.pullAfter run count).Scanned array location start stop := by
  induction count generalizing cursor run position with
  | zero => exact scanned.next
  | succ count ih =>
    have pulled := scanned.next
    have come : ∃ position, (cursor.next run).cursor.Scanned array location start stop
        (cursor.next run).run position := by
      cases hit : (cursor.next run).hit with
      | none => exact ⟨stop, pulled.finish hit⟩
      | some found =>
        obtain ⟨i, -, -, -, behind⟩ := pulled.hit found hit
        exact ⟨i + 1, behind⟩
    obtain ⟨position, behind⟩ := come
    exact ih behind

end

/-! ## Searches that fetch nothing -/

/-- A search for one item or none, which fetches nothing and looks nothing up. -/
inductive Search.Immediate : Search → Prop
  | done : Immediate .done
  | item (item : Item) : Immediate (.item item)

theorem Search.Immediate.bind {search : Search} {visit : Node → Location → Search}
    (immediate : search.Immediate) (visits : ∀ n l, (visit n l).Immediate) :
    (search.bind visit).Immediate := by
  cases immediate with
  | done => exact .done
  | item item =>
    cases item with
    | node n l =>
      have visited := visits n l
      rwa [← Search.bind_node n l visit] at visited
    | literal => exact .done

/-- An immediate search goes on at once. -/
theorem Search.Immediate.first {search : Search} (immediate : search.Immediate)
    (resume : Option Item → Search) : search.first resume = resume search.items.head? := by
  cases immediate <;> rfl

/-- A search keeps a node, or finds nothing. -/
def Search.Keeps (search : Search) (node : Node) (location : Location) : Prop :=
  search = .done ∨ search = .node node location

theorem Search.Immediate.keeps_keepIf {left right : Search} (left_immediate : left.Immediate)
    (right_immediate : right.Immediate) (op : Comparison) (node : Node) (location : Location) :
    (keepIf left op (fun _ => right) node location).Keeps node location := by
  rw [keepIf, left_immediate.first]
  cases left.items.head? with
  | none => exact .inl rfl
  | some x =>
    dsimp only
    rw [right_immediate.first]
    cases right.items.head? with
    | none => exact .inl rfl
    | some y =>
      dsimp only
      split
      · exact .inr rfl
      · exact .inl rfl

theorem Search.Immediate.keeps_keepIfFound {search : Search} (immediate : search.Immediate)
    (node : Node) (location : Location) :
    (keepIfFound search node location).Keeps node location := by
  rw [keepIfFound, immediate.first]
  cases search.items.head? with
  | none => exact .inl rfl
  | some x => exact .inr rfl

/-- `@` or a name. -/
def Segment.IsMember : Segment → Prop
  | .this | .field _ => True
  | _ => False

/-- A path of names and `@`, without a recursive step. -/
def Path.IsChain : Path → Prop
  | .start recursive segment => recursive = false ∧ segment.IsMember
  | .step base recursive segment => base.IsChain ∧ recursive = false ∧ segment.IsMember

/-- A literal, or a path of names and `@`. -/
def Expr.IsOperand : Expr → Prop
  | .path p => p.IsChain
  | _ => True

theorem Segment.immediate_search {segment : Segment} (member : segment.IsMember) (node : Node)
    (location : Location) : (segment.search node location).Immediate := by
  cases segment with
  | this => exact .item _
  | field name =>
    rw [search]
    split
    · exact .item _
    · exact .done
  | wildcard | subscript => exact member.elim

theorem Path.immediate_search : (path : Path) → path.IsChain → (node : Node) →
    (location : Location) → (path.search node location).Immediate
  | .start _ segment, ⟨rfl, member⟩, node, location =>
      Segment.immediate_search member node location
  | .step base _ segment, ⟨chain, rfl, member⟩, node, location => by
      rw [search_step]
      exact (base.immediate_search chain node location).bind (Segment.immediate_search member)

theorem Expr.immediate_search {e : Expr} (operand : e.IsOperand) (node : Node)
    (location : Location) : (e.search node location).Immediate := by
  cases e with
  | path p => exact p.immediate_search operand node location
  | number | string | boolean => exact .item _

/-! ## Elements of a subscript -/

theorem ArrayNode.getElem?_parts {array : ArrayNode} {position : Nat} {element : Json}
    (stands : array.elements[position]? = some element) (location : Location) :
    (array.at location).parts[position]? =
      some ⟨array.child position element, location ++ [.ofElement position element]⟩ := by
  rw [parts_at, List.getElem?_map, List.getElem?_zipIdx, stands, Option.map_some, Option.map_some,
    Nat.zero_add]

/-- A walk that keeps some elements and leaves the others out scans its part of an array. -/
theorem scans_eachElement {visit : Node → Location → Search}
    (keeps : ∀ n l, (visit n l).Keeps n l) (array : ArrayNode) (location : Location)
    {position : Nat} {part : List Json}
    (stands : ∀ (i : Nat) element, part[i]? = some element →
      array.elements[position + i]? = some element) :
    (eachElement visit array location position part).Scans array location (position + part.length)
      position := by
  induction part generalizing position with
  | nil => exact .exhausted
  | cons element rest ih =>
    have later : ∀ (i : Nat) other, rest[i]? = some other →
        array.elements[position + 1 + i]? = some other := by
      intro i other at_i
      rw [Nat.succ_add_eq_add_succ]
      exact stands (i + 1) other at_i
    have behind := ih later
    rw [Nat.succ_add_eq_add_succ] at behind
    rcases keeps (array.child position element) (location ++ [.ofElement position element]) with
      nothing | kept
    · refine .pass ?_
      rw [nothing]
      exact behind
    · have found : ((visit (array.child position element)
          (location ++ [.ofElement position element])).append fun _ =>
            eachElement visit array location (position + 1) rest) =
          .found (.node (array.child position element)
            (location ++ [.ofElement position element])) fun _ =>
              eachElement visit array location (position + 1) rest := by
        rw [kept]
        rfl
      exact .keep (array.getElem?_parts (stands 0 element rfl) location) found behind

theorem node_keeps (node : Node) (location : Location) :
    (Search.node node location).Keeps node location := .inr rfl

/-- What stands in a slice stands behind its start in the array. -/
theorem getElem?_of_slice {elements : List Json} {start stop i : Nat} {element : Json}
    (stands : ((elements.take stop).drop start)[i]? = some element) :
    elements[start + i]? = some element := by
  rw [List.getElem?_drop, List.getElem?_take] at stands
  split at stands
  · exact stands
  · cases stands

theorem scans_part (array : ArrayNode) (location : Location) (start : Nat) {stop : Nat}
    (inside : stop ≤ array.elements.length) :
    (eachElement .node array location start ((array.elements.take stop).drop start)).Scans array
      location (start + (stop - start)) start := by
  have length : ((array.elements.take stop).drop start).length = stop - start := by
    rw [List.length_drop, List.length_take, Nat.min_eq_left inside]
  rw [← length]
  exact scans_eachElement node_keeps array location fun _ _ => getElem?_of_slice

/-- An element of a subscript that goes through an array with these elements and looks into
none of them any further than to its members. -/
inductive Element.Scanning (elements : List Json) : Element → Prop
  | wildcard : Scanning elements (.expr (.path (.start false .wildcard)))
  | slice (first last : Option Int) : Scanning elements (.slice first last)
  | existence {path : Path} (chain : path.IsChain) : Scanning elements (.existence path)
  | filter {left right : Expr} {op : Comparison} (left_operand : left.IsOperand)
      (right_operand : right.IsOperand) (compared : keyTest? left op right = none)
      (flat : ∀ element ∈ elements, element.isArray = false) :
      Scanning elements (.filter left op right)

/-- The positions in an array that an element of a subscript goes through: the first, and the
one behind the last. -/
def Element.extent (length : Nat) : Element → Nat × Nat
  | .slice first last => sliceRange first last length
  | _ => (0, length)

theorem sliceRange_le (first last : Option Int) (length : Nat) :
    (sliceRange first last length).2 ≤ length := by
  cases last with
  | none => exact Nat.le_refl length
  | some bound => exact Nat.min_le_right _ _

/-- An element of a subscript that scans does so in its extent. -/
theorem Element.Scanning.scans {array : ArrayNode} {element : Element}
    (scanning : element.Scanning array.elements) (location : Location) :
    (element.search array.node location).Scans array location
      ((element.extent array.length).1 +
        ((element.extent array.length).2 - (element.extent array.length).1))
      (element.extent array.length).1 := by
  have held : array.node.array? = some array := rfl
  have all : ∀ (i : Nat) element, array.elements[i]? = some element →
      array.elements[0 + i]? = some element := by
    intro i element at_i
    rwa [Nat.zero_add]
  cases scanning with
  | wildcard => exact scans_eachElement node_keeps array location all
  | slice first last =>
    simp only [search, held]
    exact scans_part array location _ (sliceRange_le first last _)
  | existence chain =>
    have keeps := fun n l => (Path.immediate_search _ chain n []).keeps_keepIfFound n l
    simp only [search, held]
    exact scans_eachElement keeps array location all
  | @filter left right op left_operand right_operand compared flat =>
    have keeps := fun n l => (left.immediate_search left_operand n []).keeps_keepIf
      (right.immediate_search right_operand n []) op n l
    have walk := scans_eachElement keeps array location all
    rw [← leavesOfElements_flat _ array location array.elements 0 flat] at walk
    unfold search
    rw [compared]
    exact walk

/-- A query for one element of a subscript that scans the array of a document, from any cache.
When a pull reports the element at a position, the elements from the first of the extent up to
that position were fetched, each once and in their order, and nothing else; and when a pull
reports that there is none, all elements of the extent. -/
theorem Expr.scan_reads (document : Document) (elements : List Json)
    (is_array : document.root = .array elements) (element : Element)
    (scanning : element.Scanning elements) (base : Location) (cache : KeyCache) (count : Nat) :
    let array : ArrayNode := ⟨elements, .root 0 0⟩
    let extent := element.extent elements.length
    let query := (Expr.path (.start false (.subscript [element]))).cursor document base
    let pulled := query.pullAfter (.start cache) count
    (∀ found, pulled.hit = some found →
      ∃ i, extent.1 ≤ i ∧ i < extent.2 ∧ (array.at base).parts[i]? = some found ∧
        pulled.run.reads.reverse = array.readsFrom extent.1 (i - extent.1 + 1)) ∧
    (pulled.hit = none →
      pulled.run.reads.reverse = array.readsFrom extent.1 (extent.2 - extent.1)) := by
  intro array extent query pulled
  have root : Node.ofDocument 0 0 document = array.node := by
    rw [Node.ofDocument, is_array]
    rfl
  have search : query.search = element.search array.node base := by
    rw [← Segment.search_single, ← root]
    rfl
  have scans : query.search.Scans array base (extent.1 + (extent.2 - extent.1)) extent.1 :=
    search ▸ Element.Scanning.scans scanning base
  have nothing : (Run.start cache).reads.reverse =
      array.readsFrom extent.1 (extent.1 - extent.1) := by
    rw [Nat.sub_self]
    rfl
  have scanned := Cursor.Scanned.pullAfter ⟨Nat.le_refl _, scans, nothing⟩ count
  refine ⟨fun found hit => ?_, fun no_hit => ?_⟩
  · obtain ⟨i, lower, upper, stands, behind⟩ := scanned.hit found hit
    refine ⟨i, lower, by omega, stands, ?_⟩
    rw [behind.reads, Nat.succ_sub lower]
  · rw [(scanned.finish no_hit).reads, Nat.add_sub_cancel_left]

/-- Two elements have one key, and so one location.  The second pull passes over the second of
them, and reports the last element; the third finds the end, and everything was fetched. -/
theorem Expr.scan_reads_doubled :
    let fruit (members : List (String × Json)) : Json :=
      .object (members ++ [("kind", .string "fruit")])
    let elements := [fruit [("_key", .string "k")], fruit [("_key", .string "k")], fruit [], .null]
    let document := Document.ofJson (.array elements)
    let array : ArrayNode := ⟨elements, .root 0 0⟩
    let element : Element :=
      .filter (.path (.start false (.field "kind"))) .eq (.string "fruit")
    let query := (Expr.path (.start false (.subscript [element]))).cursor document []
    let pulled := query.pullAfter (.start .empty)
    document.root = .array elements ∧ element.Scanning elements ∧
      (pulled 0).run.reads.reverse = array.readsFrom 0 1 ∧
      (pulled 1).run.reads.reverse = array.readsFrom 0 3 ∧
      (pulled 2).hit.isNone ∧ (pulled 2).run.reads.reverse = array.readsFrom 0 4 := by
  intro fruit elements document array element query pulled
  have is_array : document.root = .array elements := rfl
  have scanning : element.Scanning elements :=
    .filter ⟨rfl, trivial⟩ trivial rfl (by decide)
  have reads := Expr.scan_reads document elements is_array element scanning [] .empty
  refine ⟨is_array, scanning, ?_, ?_, rfl, (reads 2).2 rfl⟩
  · obtain ⟨i, -, -, stands, fetched⟩ := (reads 0).1 _ rfl
    obtain rfl : i = 0 := Match.position_unique stands (array.getElem?_parts rfl []) rfl
    exact fetched
  · obtain ⟨i, -, -, stands, fetched⟩ := (reads 1).1 _ rfl
    obtain rfl : i = 2 := Match.position_unique stands (array.getElem?_parts rfl []) rfl
    exact fetched

end JsonQuery

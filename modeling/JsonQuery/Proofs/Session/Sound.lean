/-
# JsonQuery.Proofs.Session.Sound -- a cache that fits the documents of a session

What a session holds is the nodes below its roots (`Session.Holds`); an array among
them is `Live`, and its identity tells it from every other live array
(`elements_of_identity`).

A cache is `Sound` for a session if no lookup in a live array is led astray by what is
remembered of it, and if nothing is remembered of arrays that are still to come: an
array below a root gets an identity with the next revision.  Only the root array keeps
its identity when its document is replaced, so its index may be one of former
elements; that does no harm where the new elements have keys apart.

Queries and lookups keep a cache sound (`steady`), and so does a replacement by
content without two elements of one key at the root (`sound_replaced`).  The cursors of a
session are `Confined` to its documents.  A command does one of four things to a session
(`does_step`), and none of them to its cache but these.
-/
import JsonQuery.Proofs.Eval.Within
import JsonQuery.Proofs.Session.Turns

namespace JsonQuery

set_option autoImplicit false

namespace Session

/-! ## What a session holds -/

/-- A node of one of the documents. -/
def Holds (documents : List Held) (node : Node) : Prop :=
  ∃ held, documents[node.site.document]? = some held ∧
    node.site.revision = held.revision ∧
    held.content.root.below? node.site.ordinals = some node.value

/-- An array of one of the documents. -/
def Live (documents : List Held) (array : ArrayNode) : Prop :=
  Holds documents ⟨.array array.elements, array.site⟩

theorem root?_eq_some {session : Session} {document : Nat} {root : Node}
    (is : session.root? document = some root) :
    ∃ held, session.documents[document]? = some held ∧
      root = .ofDocument document held.revision held.content := by
  obtain ⟨held, stands, rfl⟩ := Option.map_eq_some_iff.1 is
  exact ⟨held, stands, rfl⟩

theorem holds_root {session : Session} {document : Nat} {root : Node}
    (is : session.root? document = some root) : Holds session.documents root := by
  obtain ⟨held, stands, rfl⟩ := root?_eq_some is
  exact ⟨held, stands, rfl, rfl⟩

theorem holds_child {documents : List Held} {node : Node} {position : Nat} {value : Json}
    (holds : Holds documents node) (child : node.value.child? position = some value) :
    Holds documents ⟨value, node.site.child position⟩ := by
  obtain ⟨held, stands, revision, leads⟩ := holds
  refine ⟨held, stands, revision, ?_⟩
  rw [← child]
  exact Json.below?_child leads

theorem live_of_array? {documents : List Held} {node : Node} {array : ArrayNode}
    (holds : Holds documents node) (is : node.array? = some array) : Live documents array := by
  rwa [Node.eq_array is] at holds

theorem downward (documents : List Held) :
    Downward (Live documents) fun node _ => Holds documents node where
  array := live_of_array?
  element holds stands := holds_child holds stands
  member holds stands := holds_child holds (by simp [Json.child?, stands])

theorem holds_element? {documents : List Held} {node next : Node} {position : Nat}
    (holds : Holds documents node) (is : node.element? position = some next) :
    Holds documents next := by
  obtain ⟨array, stands, is⟩ := Option.bind_eq_some_iff.1 is
  obtain ⟨element, held, rfl⟩ := Option.map_eq_some_iff.1 is
  rw [Node.eq_array stands] at holds
  exact holds_child holds held

theorem holds_follow? {documents : List Held} (location : Location) {node next : Node}
    (holds : Holds documents node) (follows : node.follow? location = some next) :
    Holds documents next := by
  induction location generalizing node with
  | nil =>
    cases follows
    exact holds
  | cons step rest ih =>
    cases step with
    | index position =>
      obtain ⟨child, is, follows⟩ := Option.bind_eq_some_iff.1 follows
      exact ih (holds_element? holds is) follows
    | field name =>
      obtain ⟨child, is, follows⟩ := Option.bind_eq_some_iff.1 follows
      exact ih (found_member? (downward documents) [] holds is) follows
    | key key =>
      obtain ⟨array, -, follows⟩ := Option.bind_eq_some_iff.1 follows
      obtain ⟨position, -, follows⟩ := Option.bind_eq_some_iff.1 follows
      obtain ⟨child, is, follows⟩ := Option.bind_eq_some_iff.1 follows
      exact ih (holds_element? holds is) follows

theorem live_array? {session : Session} {document : Nat} {location : Location} {array : ArrayNode}
    (is : session.array? document location = some array) : Live session.documents array := by
  obtain ⟨node, follows, stands⟩ := Option.bind_eq_some_iff.1 is
  obtain ⟨root, is_root, follows⟩ := Option.bind_eq_some_iff.1 follows
  exact live_of_array? (holds_follow? location (holds_root is_root) follows) stands

/-- The identity of a live array tells what it holds. -/
theorem elements_of_identity {documents : List Held} {one two : ArrayNode}
    (live : Live documents one) (live' : Live documents two) (same : one.identity = two.identity) :
    one.elements = two.elements := by
  obtain ⟨held, stands, -, leads⟩ := live
  obtain ⟨held', stands', -, leads'⟩ := live'
  simp only [ArrayNode.identity, Site.identity, Identity.mk.injEq] at same
  dsimp only at stands stands' leads leads'
  rw [same.1, stands', Option.some.injEq] at stands
  rw [same.2.2, ← stands, leads', Option.some.injEq, Json.array.injEq] at leads
  exact leads.symm

/-! ## Sound caches -/

structure Sound (documents : List Held) (cache : KeyCache) : Prop where
  trusts : ∀ array, Live documents array → cache.Trusts array
  unborn : ∀ document held, documents[document]? = some held →
    ∀ identity : Identity, identity.document = document → identity.ordinals ≠ [] →
      held.revision < identity.revision → cache.index? identity = none

theorem sound_empty (documents : List Held) : Sound documents .empty where
  trusts array _ := KeyCache.trusts_empty array
  unborn _ _ _ identity _ _ _ := KeyCache.index?_empty identity

/-- Below a root, the identity of a live array has the revision of its document. -/
theorem revision_of_live {documents : List Held} {array : ArrayNode}
    (live : Live documents array) {held : Held}
    (stands : documents[array.identity.document]? = some held)
    (below : array.identity.ordinals ≠ []) : array.identity.revision = held.revision := by
  obtain ⟨held', stands', revision, -⟩ := live
  have same : held' = held := Option.some.inj (stands'.symm.trans stands)
  rw [← same, ← revision]
  simp only [ArrayNode.identity, Site.identity] at below ⊢
  simp [below]

/-- Nothing is remembered of arrays that get an identity with a later revision. -/
def Unborn (documents : List Held) (cache : KeyCache) : Prop :=
  ∀ document held, documents[document]? = some held →
    ∀ identity : Identity, identity.document = document → identity.ordinals ≠ [] →
      held.revision < identity.revision → cache.index? identity = none

theorem unborn_lookup {documents : List Held} {cache : KeyCache} (unborn : Unborn documents cache)
    {array : ArrayNode} (live : Live documents array) (key : String) :
    Unborn documents (cache.lookup array key).cache := by
  intro document held stands identity doc below later
  have unknown := unborn document held stands identity doc below later
  obtain ⟨-, -, -, -, same⟩ | ⟨-, same⟩ := cache.lookup_cases array key
  · rwa [same]
  · rw [same, KeyCache.index?_remember, if_neg, unknown]
    rintro rfl
    have present := revision_of_live live (doc ▸ stands) below
    omega

/-- A lookup in a live array keeps a cache sound, and is answered from it as without
one. -/
theorem steady (documents : List Held) : Steady (Live documents) (Sound documents) where
  answer key sound live := KeyCache.lookup_found (sound.trusts _ live) key
  keep key sound live :=
    { trusts := fun other live' =>
        KeyCache.trusts_lookup (sound.trusts other live') (elements_of_identity live live') key
      unborn := unborn_lookup sound.unborn live key }

/-- What stands in a list with one place set is the new value there, or stood before. -/
theorem set_or_before {α : Type} {list : List α} {place other : Nat} {new value : α}
    (stands : (list.set place new)[other]? = some value) :
    place = other ∧ value = new ∨ list[other]? = some value := by
  by_cases same : place = other
  · subst same
    have bound : place < list.length := by
      have within := (List.getElem?_eq_some_iff.1 stands).1
      rwa [List.length_set] at within
    rw [List.getElem?_set_self bound, Option.some.injEq] at stands
    exact .inl ⟨rfl, stands.symm⟩
  · rw [List.getElem?_set_ne same] at stands
    exact .inr stands

theorem unborn_replaced {documents : List Held} {cache : KeyCache}
    (unborn : Unborn documents cache) {document : Nat} {held : Held}
    (stands : documents[document]? = some held) (content : Document) :
    Unborn (documents.set document ⟨content, held.revision + 1⟩) cache := by
  intro document' held' stands' identity doc below later
  rcases set_or_before stands' with ⟨rfl, rfl⟩ | before
  · exact unborn document held stands identity doc below (Nat.lt_of_succ_lt later)
  · exact unborn document' held' before identity doc below later

/-- An array of new content that a cache knows is the root, and any other array of the
documents stood there before. -/
theorem root_or_before {documents : List Held} {cache : KeyCache}
    (unborn : Unborn documents cache) {document : Nat} {held : Held}
    (stands : documents[document]? = some held) {content : Document} {array : ArrayNode}
    (live : Live (documents.set document ⟨content, held.revision + 1⟩) array) {index : KeyIndex}
    (known : cache.index? array.identity = some index) :
    array.site.ordinals = [] ∧ content.root = .array array.elements ∨ Live documents array := by
  obtain ⟨held', stands', revision, leads⟩ := live
  rcases set_or_before stands' with ⟨rfl, rfl⟩ | before
  · cases ordinals : array.site.ordinals with
    | nil =>
      rw [ordinals] at leads
      exact .inl ⟨rfl, Option.some.inj leads⟩
    | cons position rest =>
      dsimp only at revision
      have unknown := unborn _ held stands array.identity rfl
        (by simp [ArrayNode.identity, Site.identity, ordinals])
        (by simp [ArrayNode.identity, Site.identity, ordinals, revision])
      rw [known] at unknown
      cases unknown
  · exact .inr ⟨held', before, revision, leads⟩

theorem sound_replaced {documents : List Held} {cache : KeyCache}
    (sound : Sound documents cache) {document : Nat} {held : Held}
    (stands : documents[document]? = some held) {content : Document}
    (apart : content.root.RootApart) :
    Sound (documents.set document ⟨content, held.revision + 1⟩) cache where
  trusts array live index known := by
    obtain ⟨-, root⟩ | before := root_or_before sound.unborn stands live known
    · rw [root] at apart
      exact .inr apart
    · exact sound.trusts array before index known
  unborn := unborn_replaced sound.unborn stands content

/-! ## Commands -/

/-- A session whose cache is sound and whose cursors go nowhere else than its
documents. -/
structure Good (session : Session) : Prop where
  sound : Sound session.documents session.cache
  cursors : ∀ (number : Nat) (cursor : Cursor), session.cursors[number]? = some (some cursor) →
    cursor.search.Within (Live session.documents) fun node _ => Holds session.documents node

theorem good_start (documents : List Document) : (start documents).Good where
  sound := sound_empty _
  cursors _ _ is := by simp [start] at is

/-- A search in a document of the session stays there. -/
theorem within_start {session : Session} {document : Nat} {root : Node}
    (is : session.root? document = some root) (expr : Expr) (base : Location) :
    (Cursor.start expr root base).search.Within (Live session.documents) fun node _ =>
      Holds session.documents node :=
  expr.within_search (downward session.documents) (holds_root is)

/-- The cursors of a session go nowhere else than its documents. -/
def Confined (session : Session) : Prop :=
  ∀ (number : Nat) (cursor : Cursor), session.cursors[number]? = some (some cursor) →
    cursor.search.Within (Live session.documents) fun node _ => Holds session.documents node

theorem confined_opened {session : Session} (confined : session.Confined) {document : Nat}
    {root : Node} (is : session.root? document = some root) (expr : Expr) (base : Location) :
    Confined { session with cursors := session.cursors ++ [some (.start expr root base)] } := by
  intro number cursor stands
  rw [List.getElem?_append, List.getElem?_singleton] at stands
  split at stands
  · exact confined number cursor stands
  · split at stands
    · cases stands
      exact within_start is expr base
    · cases stands

theorem confined_set {session : Session} (confined : session.Confined) (cache : KeyCache)
    (number : Nat) {cursor : Cursor}
    (within : cursor.search.Within (Live session.documents) fun node _ =>
      Holds session.documents node) :
    Confined { session with
      cache := cache
      cursors := session.cursors.set number (some cursor) } := by
  intro other current stands
  obtain ⟨-, same⟩ | before := set_or_before stands
  · cases same
    exact within
  · exact confined other current before

theorem confined_replaced (session : Session) (document : Nat) (content : Document)
    (held : Held) : (session.replaced document content held).Confined := by
  intro number cursor open_
  rw [replaced, List.getElem?_map, Option.map_eq_some_iff] at open_
  obtain ⟨_, -, ⟨⟩⟩ := open_

/-- Cursors stay in the documents, whatever the cache is. -/
theorem confined_of_turns {session : Session} {command : Command} {after : Session}
    (turns : session.Turns command after) (confined : session.Confined) : after.Confined := by
  cases turns with
  | asks | clears => exact confined
  | opens is expr base => exact confined_opened confined is expr base
  | pulls open_ => exact confined_set confined _ _ (Search.pull_within (confined _ _ open_) _ _)
  | replaces stands content => exact confined_replaced session _ content _

theorem live_of_answered {session : Session} (confined : session.Confined) (command : Command) :
    ∀ answered ∈ session.answered command, Live session.documents answered.array := by
  cases command with
  | query document expr base limit =>
    simp only [answered]
    split
    · exact List.forall_mem_nil _
    · rename_i root is
      exact Search.asks_answered (within_start is expr base) limit .none session.cache
  | next number =>
    simp only [answered]
    split
    · rename_i cursor open_
      exact Search.asks_answered (confined number cursor open_) (some 1) cursor.seen session.cache
    · exact List.forall_mem_nil _
  | indexOf document location key | lookup document location key =>
    simp only [answered]
    split
    · exact List.forall_mem_nil _
    · rename_i array is
      exact List.forall_mem_singleton.2 (live_array? is)
  | openCursor | replace | clear => exact List.forall_mem_nil _

/-- What a command can do to a session.  Of its lookups it is said here only that they leave
the cache sound. -/
inductive Does (session : Session) : Command → Session → Prop
  /-- Nothing is seen of the command but in the cache. -/
  | quiet {command : Command} (cache : KeyCache) (sound : Sound session.documents cache)
      (idle : ∀ number cursor, command = .next number →
        session.cursors[number]? ≠ some (some cursor))
      (missing : ∀ document content, command = .replace document content →
        session.documents[document]? = none) :
      Does session command { session with cache := cache }
  | opens {document : Nat} {root : Node} (is : session.root? document = some root) (expr : Expr)
      (base : Location) :
      Does session (.openCursor document expr base)
        { session with cursors := session.cursors ++ [some (.start expr root base)] }
  | pulls {number : Nat} {cursor : Cursor}
      (is : session.cursors[number]? = some (some cursor)) :
      Does session (.next number)
        { session with
          cache := (cursor.next (.start session.cache)).run.cache
          cursors := session.cursors.set number (some (cursor.next (.start session.cache)).cursor) }
  | replaces {document : Nat} {held : Held} (stands : session.documents[document]? = some held)
      (content : Document) :
      Does session (.replace document content) (session.replaced document content held)

theorem sound_after {documents : List Held} (asks : List Ask) {cache : KeyCache}
    (sound : Sound documents cache) (live : ∀ ask ∈ asks, Live documents ask.array) :
    Sound documents (cache.after asks) := by
  induction asks generalizing cache with
  | nil => exact sound
  | cons ask rest ih =>
    obtain ⟨first, others⟩ := List.forall_mem_cons.1 live
    exact ih ((steady documents).keep ask.key sound first) others

theorem does_step {session : Session} (good : session.Good) (command : Command) :
    session.Does command (session.step command).session := by
  have live := live_of_answered good.cursors command
  have turns := turns_step session command
  generalize (session.step command).session = after at turns ⊢
  cases turns with
  | asks cache is keeps idle missing =>
    have sound : Sound session.documents cache :=
      is ▸ sound_after _ good.sound (List.forall_mem_map.2 live)
    exact .quiet cache sound idle missing
  | clears => exact .quiet .empty (sound_empty session.documents) nofun nofun
  | opens is expr base => exact .opens is expr base
  | pulls open_ => exact .pulls open_
  | replaces stands content => exact .replaces stands content

end Session

/-- From an empty cache, the matches of an expression at a node of a document are those of
its items. -/
theorem Expr.collect_eq_reported (expr : Expr) {document : Document} {node : Node}
    (holds : Session.Holds [⟨document, 0⟩] node) (base : Location) :
    ((Cursor.start expr node base).collect none (.start .empty)).1 =
      reported .none (expr.search node base).items := by
  have within : (expr.search node base).Within _ _ :=
    expr.within_search (Session.downward [⟨document, 0⟩]) holds
  exact (Search.collect_steady (Session.steady [⟨document, 0⟩]) within none .none
    (.start .empty) (Session.sound_empty _)).1

/-- From an empty cache, the matches of an expression in a document are those of its
items. -/
theorem Expr.queryAt_eq_reported (expr : Expr) (document : Document) (base : Location) :
    expr.queryAt document base =
      reported .none (expr.search (.ofDocument 0 0 document) base).items :=
  expr.collect_eq_reported ⟨_, rfl, rfl, rfl⟩ base

end JsonQuery

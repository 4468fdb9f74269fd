/-
# JsonQuery.Proofs.Session.Below -- former content does harm at a root only

Only the root array of a document keeps its identity when the document is replaced.  So the
cache of a session can remember former elements of a root, but of an array below a root it
has the present index or none (`SoundBelow`), whatever the session did and whatever it looks
up next: no search that asks only arrays below its node is led astray (`trustsBelow_run`).
-/
import JsonQuery.Proofs.Eval.Trusted
import JsonQuery.Proofs.Session.Remembered

namespace JsonQuery

set_option autoImplicit false

namespace Session

/-- What a node of the documents reaches is a node of the documents. -/
theorem holds_below? {documents : List Held} (ordinals : List Nat) {root node : Node}
    (holds : Holds documents root) (leads : root.below? ordinals = some node) :
    Holds documents node := by
  induction ordinals generalizing root with
  | nil =>
    rw [Node.below?_nil] at leads
    cases leads
    exact holds
  | cons position rest ih =>
    rw [Node.below?_cons] at leads
    obtain ⟨value, child, leads⟩ := Option.bind_eq_some_iff.1 leads
    exact ih (holds_child holds child) leads

/-- A cache that is trusted in the arrays below the roots, and knows of none that are still
to come. -/
structure SoundBelow (documents : List Held) (cache : KeyCache) : Prop where
  trusts : ∀ array, Live documents array → array.site.ordinals ≠ [] → cache.Trusts array
  unborn : Unborn documents cache

theorem soundBelow_empty (documents : List Held) : SoundBelow documents .empty where
  trusts array _ _ := KeyCache.trusts_empty array
  unborn := (sound_empty documents).unborn

theorem soundBelow_after {documents : List Held} (asks : List Ask) {cache : KeyCache}
    (sound : SoundBelow documents cache) (live : ∀ ask ∈ asks, Live documents ask.array) :
    SoundBelow documents (cache.after asks) := by
  induction asks generalizing cache with
  | nil => exact sound
  | cons ask rest ih =>
    obtain ⟨first, others⟩ := List.forall_mem_cons.1 live
    refine ih ⟨fun array live' below => ?_, unborn_lookup sound.unborn first ask.key⟩ others
    exact KeyCache.trusts_lookup (sound.trusts array live' below)
      (elements_of_identity first live') ask.key

theorem soundBelow_replaced {documents : List Held} {cache : KeyCache}
    (sound : SoundBelow documents cache) {document : Nat} {held : Held}
    (stands : documents[document]? = some held) (content : Document) :
    SoundBelow (documents.set document ⟨content, held.revision + 1⟩) cache where
  trusts array live below index known := by
    obtain ⟨root, -⟩ | before := root_or_before sound.unborn stands live known
    · exact absurd root below
    · exact sound.trusts array before below index known
  unborn := unborn_replaced sound.unborn stands content

theorem soundBelow_step {session : Session} (confined : session.Confined)
    (sound : SoundBelow session.documents session.cache) (command : Command) :
    SoundBelow (session.step command).session.documents (session.step command).session.cache := by
  have live := live_of_answered confined command
  have turns := turns_step session command
  have behind : SoundBelow session.documents (session.cacheAfter command) :=
    soundBelow_after _ sound (List.forall_mem_map.2 live)
  have cache := cache_of_turns turns
  generalize (session.step command).session = after at turns cache ⊢
  cases turns with
  | replaces stands content => exact soundBelow_replaced sound stands content
  | clears => exact soundBelow_empty session.documents
  | opens => exact sound
  | asks _ is => exact is ▸ behind
  | pulls => exact cache ▸ behind

theorem soundBelow_run (documents : List Document) (commands : List Command) :
    SoundBelow ((start documents).run commands).documents
      ((start documents).run commands).cache := by
  induction commands using List.reverseRecOn with
  | nil => exact soundBelow_empty _
  | append_singleton commands command ih =>
    rw [run_concat]
    exact soundBelow_step (confined_run documents commands) ih command

/-- Whatever a session did, and whatever it has looked up since in its documents, its cache is
trusted below every node that it holds. -/
theorem trustsBelow_run (documents : List Document) (commands : List Command) (asks : List Ask)
    (live : ∀ ask ∈ asks, Live ((start documents).run commands).documents ask.array) {node : Node}
    (holds : Holds ((start documents).run commands).documents node) :
    (((start documents).run commands).cache.after asks).TrustsBelow node := by
  have sound := soundBelow_after asks (soundBelow_run documents commands) live
  rintro array ⟨ordinals, below, leads⟩
  refine sound.trusts array (holds_below? ordinals holds leads) fun root => ?_
  have site : array.site = node.site.below ordinals := (Node.below?_eq_some.1 leads).2
  rw [site] at root
  exact below (List.append_eq_nil_iff.1 root).2

end Session

end JsonQuery

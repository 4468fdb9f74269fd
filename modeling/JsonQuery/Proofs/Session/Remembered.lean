/-
# JsonQuery.Proofs.Session.Remembered -- what the shared cache holds

All queries of a session use one cache, and so do the lookups that are asked for by
commands.  `Session.recent` lists the lookups that a run has made since the cache was last
emptied, those from inside a query included, with the answers they got.

As long as an identity denotes one list of elements (`Unaltered`), the cache is just what
these lookups leave: it has the present index of every array that they asked, and no other
index, and all of them were answered with the first element that carries the key
(`remembers_run`, `cache_remembers`).  A session in which nothing is replaced is unaltered
(`unaltered_of_stays`).
-/
import Mathlib.Data.List.Induction
import JsonQuery.Proofs.Session.Cursors

namespace JsonQuery

set_option autoImplicit false

namespace Session

/-! ## The lookups of a session -/

/-- The lookups since the cache was last emptied, if there were some `before`. -/
def recent (session : Session) (before : List Answered) : List Command → List Answered
  | [] => before
  | command :: rest =>
      (session.step command).session.recent
        (if command.clears then [] else before ++ session.answered command) rest

theorem run_concat (session : Session) (commands : List Command) (command : Command) :
    session.run (commands ++ [command]) = ((session.run commands).step command).session := by
  rw [run, List.foldl_append]
  rfl

theorem recent_concat (session : Session) (before : List Answered) (commands : List Command)
    (command : Command) :
    session.recent before (commands ++ [command]) =
      if command.clears then []
      else session.recent before commands ++ (session.run commands).answered command := by
  induction commands generalizing session before with
  | nil => rfl
  | cons first rest ih => exact ih _ _

theorem confined_run (documents : List Document) (commands : List Command) :
    ((start documents).run commands).Confined := by
  induction commands using List.reverseRecOn with
  | nil => exact (good_start documents).cursors
  | append_singleton commands command ih =>
    rw [run_concat]
    exact confined_of_turns (turns_step _ command) ih

/-- What was looked up stood in a document at some moment. -/
theorem live_of_recent (documents : List Document) (commands : List Command) :
    ∀ answered ∈ (start documents).recent [] commands, ∃ before, before <+: commands ∧
      Live ((start documents).run before).documents answered.array := by
  induction commands using List.reverseRecOn with
  | nil => nofun
  | append_singleton commands command ih =>
    intro answered mem
    rw [recent_concat] at mem
    split at mem
    · cases mem
    obtain earlier | now := List.mem_append.1 mem
    · obtain ⟨before, initial, live⟩ := ih answered earlier
      exact ⟨before, initial.trans (List.prefix_append _ _), live⟩
    · exact ⟨commands, List.prefix_append _ _,
        live_of_answered (confined_run documents commands) command answered now⟩

/-- The arrays of lookups. -/
def arrays (answered : List Answered) : List ArrayNode := answered.map fun one => one.array

/-- Where the arrays of the lookups since the cache was emptied are unchanged, the cache
remembers them, and the answers were the first elements with the keys. -/
theorem remembers_run (documents : List Document) (commands : List Command)
    (unchanged : Unchanged (arrays ((start documents).recent [] commands))) :
    ((start documents).run commands).cache.Remembers
        (arrays ((start documents).recent [] commands)) ∧
      ∀ answered ∈ (start documents).recent [] commands,
        answered.found = answered.array.first? answered.key := by
  induction commands using List.reverseRecOn with
  | nil => exact ⟨KeyCache.remembers_empty, nofun⟩
  | append_singleton commands command ih =>
    have behind := cache_of_turns (turns_step ((start documents).run commands) command)
    rw [recent_concat] at unchanged ⊢
    rw [run_concat, behind]
    split
    · exact ⟨KeyCache.remembers_empty, nofun⟩
    rename_i keeps
    rw [if_neg keeps] at unchanged
    generalize (start documents).run commands = session at *
    generalize (start documents).recent [] commands = earlier at *
    have split : arrays (earlier ++ session.answered command) =
        arrays earlier ++ ((session.answered command).map Answered.toAsk).map Ask.array := by
      rw [arrays, List.map_append, List.map_map]
      rfl
    rw [split] at unchanged ⊢
    obtain ⟨remembers, before⟩ := ih fun one mem two mem' =>
      unchanged one (List.mem_append_left _ mem) two (List.mem_append_left _ mem')
    obtain ⟨answers, now⟩ := KeyCache.remembers_after _ remembers unchanged
    refine ⟨now, fun answered mem => ?_⟩
    obtain mem | mem := List.mem_append.1 mem
    · exact before answered mem
    · rw [← found_of_answered, List.map_map] at answers
      exact List.map_inj_left.1 answers answered mem

/-! ## An identity denotes one list of elements -/

/-- During a run an identity always denotes an array with the same elements: if it denotes
one array at one moment and another at another, their elements are the same. -/
def Unaltered (documents : List Document) (commands : List Command) : Prop :=
  ∀ before after, before <+: commands → after <+: commands → ∀ one two,
    Live ((start documents).run before).documents one →
      Live ((start documents).run after).documents two →
        one.identity = two.identity → one.elements = two.elements

theorem documents_of_turns {session after : Session} {command : Command}
    (turns : session.Turns command after)
    (stays : command.replaces session.documents.length = false) :
    after.documents = session.documents := by
  cases turns with
  | asks | clears | opens | pulls => rfl
  | replaces stands =>
    obtain ⟨bound, -⟩ := List.getElem?_eq_some_iff.1 stands
    exact absurd bound (of_decide_eq_false stays)

theorem documents_run (commands : List Command) {session : Session}
    (stays : commands.any (Command.replaces session.documents.length) = false) :
    (session.run commands).documents = session.documents := by
  induction commands generalizing session with
  | nil => rfl
  | cons command rest ih =>
    rw [List.any_cons, Bool.or_eq_false_iff] at stays
    have same := documents_of_turns (turns_step session command) stays.1
    rw [← same] at stays
    exact (ih stays.2).trans same

/-- What is never replaced is never altered. -/
theorem unaltered_of_stays {documents : List Document} {commands : List Command}
    (stays : commands.any (Command.replaces documents.length) = false) :
    Unaltered documents commands := by
  have same : ∀ moment, moment <+: commands →
      ((start documents).run moment).documents = (start documents).documents := by
    intro moment initial
    refine documents_run moment ?_
    rw [start, List.length_map, List.any_eq_false]
    exact fun command mem => List.any_eq_false.1 stays command (initial.subset mem)
  intro before after initial initial' one two live live' identity
  rw [same before initial] at live
  rw [same after initial'] at live'
  exact elements_of_identity live live' identity

theorem unchanged_of_unaltered {documents : List Document} {commands : List Command}
    (unaltered : Unaltered documents commands) {arrays : List ArrayNode}
    (live : ∀ array ∈ arrays, ∃ before, before <+: commands ∧
      Live ((start documents).run before).documents array) : Unchanged arrays := by
  intro one mem two mem' identity
  obtain ⟨before, initial, live_one⟩ := live one mem
  obtain ⟨after, initial', live_two⟩ := live two mem'
  exact unaltered before after initial initial' one two live_one live_two identity

theorem live_of_arrays (documents : List Document) (commands : List Command) :
    ∀ array ∈ arrays ((start documents).recent [] commands), ∃ before, before <+: commands ∧
      Live ((start documents).run before).documents array := by
  intro array mem
  obtain ⟨answered, made, rfl⟩ := List.mem_map.1 mem
  exact live_of_recent documents commands answered made

/-- Carry out any commands, in which an identity always denotes an array with the same
elements.  Of the lookups since the cache was last emptied, those of the queries included,
the cache has the indices and no others, and every index gives each key the position of the
first element that carries it.  There are as many indices as these lookups asked arrays.
Each of them was answered with the first element that carries its key, and so is every
lookup that is asked for next. -/
theorem cache_remembers (documents : List Document) (commands : List Command)
    (unaltered : Unaltered documents commands) :
    let session := (start documents).run commands
    let recent := (start documents).recent [] commands
    (∀ identity index, session.cache.index? identity = some index →
        ∃ answered ∈ recent, answered.array.identity = identity ∧
          ∀ key : String, index[key]? =
            answered.array.elements.findIdx? fun element => element.key? = some key) ∧
      session.cache.size =
        (recent.map fun answered => answered.array.identity).toFinset.card ∧
      (∀ answered ∈ recent, answered.found = answered.array.first? answered.key) ∧
      ∀ document location array key, session.array? document location = some array →
        (session.step (.lookup document location key)).answer =
            .ok (.element (array.first? key)) ∧
          (session.step (.indexOf document location key)).answer =
            .ok (.position ((array.first? key).map Prod.fst)) := by
  intro session recent
  have live := live_of_arrays documents commands
  obtain ⟨remembers, answers⟩ :=
    remembers_run documents commands (unchanged_of_unaltered unaltered live)
  refine ⟨fun identity index known => ?_, ?_, answers, fun document location array key is => ?_⟩
  · obtain ⟨array, mem, same⟩ := remembers.asked_of_index identity index known
    have present := remembers.present array mem
    rw [same, known, Option.some.injEq] at present
    obtain ⟨answered, made, rfl⟩ := List.mem_map.1 mem
    refine ⟨answered, made, same, fun key => ?_⟩
    rw [present, KeyIndex.getElem?_ofElements]
  · rw [remembers.size_eq, arrays, List.map_map]
    rfl
  · have unchanged : Unchanged (arrays recent ++ [array]) := by
      refine unchanged_of_unaltered unaltered fun other mem => ?_
      obtain earlier | now := List.mem_append.1 mem
      · exact live other earlier
      · rw [List.mem_singleton.1 now]
        exact ⟨commands, List.prefix_refl _, live_array? is⟩
    have found := (KeyCache.remembers_lookup remembers unchanged key).1
    rw [step, step, lookup_array is, lookup_array is, found]
    exact ⟨rfl, rfl⟩

/-- Two elements carry one key.  An index that a query built is built again for a key that
the array does not have, and the one from before the cache was emptied is gone. -/
theorem cache_remembers_doubled :
    let one : Json := .object [("_key", .string "a"), ("number", .number (.int 1))]
    let two : Json := .object [("_key", .string "a"), ("number", .number (.int 2))]
    let test : Expr := .path (.start false (.subscript
      [.filter (.path (.start false (.field "_key"))) .eq (.string "a")]))
    let commands : List Command :=
      [.lookup 1 [] "a", .clear, .openCursor 0 test [], .next 0, .indexOf 0 [] "b"]
    let session := (start [.ofJson (.array [one, two]), .ofJson (.array [two])]).run commands
    session.cache.size = 1 ∧
      (session.step (.lookup 0 [] "a")).answer = .ok (.element (some (0, one))) := by
  intro one two test commands session
  have unaltered : Unaltered [.ofJson (.array [one, two]), .ofJson (.array [two])] commands :=
    unaltered_of_stays rfl
  obtain ⟨-, size, -, lookups⟩ := cache_remembers _ commands unaltered
  exact ⟨size.trans (by decide +kernel), (lookups 0 [] _ "a" rfl).1⟩

end Session

end JsonQuery

/-
# JsonQuery.Proofs.Session.Unread -- elements that were not fetched have no part in a query

A cursor is opened in a new session and pulled a number of times.  Whatever stands in the
document at elements that none of these pulls fetched, the outcomes are the same: the same
elements are fetched in the same order, and the matches have the same locations, with the
end at the same pull (`pulls_unread`).

One pull is `next_alike`: two sessions whose cursors are alike answer it alike, and their
cursors stay alike.
-/
import JsonQuery.Proofs.Eval.Alike
import JsonQuery.Session

namespace JsonQuery

set_option autoImplicit false

/-- What an outcome shows without the values: the elements fetched, and, of a pull, the
location of the match or that there is none. -/
def Outcome.trace (outcome : Outcome) : List Read × Option (Option Location) :=
  (outcome.reads,
    match outcome.answer with
    | .ok (.pulled hit) => some (hit.map Match.location)
    | _ => none)

namespace Session

/-- The outcomes of commands that are carried out in turn. -/
def outcomes (session : Session) : List Command → List Outcome
  | [] => []
  | command :: rest =>
      let outcome := session.step command
      outcome :: outcome.session.outcomes rest

/-- A cursor is opened on the one document of a new session, and pulled `count` times. -/
def pulls (document : Document) (expr : Expr) (base : Location) (count : Nat) : List Outcome :=
  (start [document]).outcomes (.openCursor 0 expr base :: List.replicate count (.next 0))

/-- The elements that commands fetched. -/
def fetches (outcomes : List Outcome) : List Read := outcomes.flatMap Outcome.reads

variable {fetched : Read → Prop}

/-- Two sessions with one cache, in which a cursor is alike. -/
structure Alike (fetched : Read → Prop) (number : Nat) (one two : Session) : Prop where
  cache : one.cache = two.cache
  cursor : ∃ cursor cursor', one.cursors[number]? = some (some cursor) ∧
    two.cursors[number]? = some (some cursor') ∧ cursor.Alike fetched cursor'

theorem step_next {session : Session} {number : Nat} {cursor : Cursor}
    (open_ : session.cursors[number]? = some (some cursor)) :
    session.step (.next number) =
      { session with
        cursors := session.cursors.set number
          (some (cursor.next (.start session.cache)).cursor) }.after
        (cursor.next (.start session.cache)).run
        (.pulled (cursor.next (.start session.cache)).hit) := by
  simp only [step, open_]

/-- If everything that a pull fetches is among the fetches, it shows the same in both
sessions, and leaves them alike. -/
theorem next_alike {number : Nat} {one two : Session} (alike : one.Alike fetched number two)
    (read : ∀ r ∈ (one.step (.next number)).reads, fetched r) :
    (one.step (.next number)).trace = (two.step (.next number)).trace ∧
      (one.step (.next number)).trace.2.isSome ∧
      (one.step (.next number)).session.Alike fetched number (two.step (.next number)).session := by
  obtain ⟨cache, cursor, cursor', open_, open', search, seen⟩ := alike
  rw [step_next open_] at read ⊢
  rw [step_next open', ← cache]
  have pulled : (cursor.next (.start one.cache)).Alike fetched
      (cursor'.next (.start one.cache)) := by
    unfold Cursor.next at read ⊢
    rw [← seen]
    refine Search.pull_alike search cursor.seen (.start one.cache) fun r mem => ?_
    exact read r (List.mem_reverse.2 mem)
  have location : (cursor.next (.start one.cache)).hit.map Match.location =
      (cursor'.next (.start one.cache)).hit.map Match.location := by
    have hit := pulled.hit
    generalize (cursor.next (.start one.cache)).hit = x at hit ⊢
    generalize (cursor'.next (.start one.cache)).hit = y at hit ⊢
    cases hit with
    | none => rfl
    | some alike => exact congrArg some alike.location
  obtain ⟨bound, -⟩ := List.getElem?_eq_some_iff.1 open_
  obtain ⟨bound', -⟩ := List.getElem?_eq_some_iff.1 open'
  refine ⟨?_, rfl, ?_, ?_⟩
  · simp only [Outcome.trace, after, location, pulled.run]
  · simp only [after, pulled.run]
  · exact ⟨_, _, List.getElem?_set_self bound, List.getElem?_set_self bound', pulled.cursor⟩

theorem outcomes_alike (count : Nat) {number : Nat} {one two : Session}
    (alike : one.Alike fetched number two)
    (read : ∀ r ∈ fetches (one.outcomes (List.replicate count (.next number))), fetched r) :
    (one.outcomes (List.replicate count (.next number))).map Outcome.trace =
        (two.outcomes (List.replicate count (.next number))).map Outcome.trace ∧
      ∀ outcome ∈ one.outcomes (List.replicate count (.next number)),
        outcome.trace.2.isSome := by
  induction count generalizing one two with
  | zero => exact ⟨rfl, fun _ mem => absurd mem List.not_mem_nil⟩
  | succ count ih =>
    simp only [List.replicate_succ, outcomes, fetches, List.flatMap_cons, List.mem_append] at read ⊢
    obtain ⟨same, answers, later⟩ := next_alike alike fun r mem => read r (.inl mem)
    obtain ⟨rest, others⟩ := ih later fun r mem => read r (.inr mem)
    refine ⟨?_, List.forall_mem_cons.2 ⟨answers, others⟩⟩
    rw [List.map_cons, List.map_cons, same, rest]

/-- After a cursor is opened on two documents that agree, the sessions are alike. -/
theorem alike_opened {document other : Document}
    (agree : document.root.Agrees fetched other.root (.root 0 0)) (expr : Expr) (base : Location) :
    ((start [document]).step (.openCursor 0 expr base)).session.Alike fetched 0
      ((start [other]).step (.openCursor 0 expr base)).session := by
  have roots : Node.Alike fetched (.ofDocument 0 0 document) (.ofDocument 0 0 other) := ⟨rfl, agree⟩
  exact ⟨rfl, _, _, rfl, rfl, expr.alike_search _ _ base roots, rfl⟩

/-- The pulls in two documents that agree on what is fetched in the first show the same, and
each of them answers. -/
theorem pulls_alike {document other : Document} {expr : Expr} {base : Location} {count : Nat}
    (agree : document.root.Agrees (· ∈ fetches (pulls document expr base count)) other.root
      (.root 0 0)) :
    (pulls document expr base count).map Outcome.trace =
        (pulls other expr base count).map Outcome.trace ∧
      ∀ outcome ∈ (pulls document expr base count).tail, outcome.trace.2.isSome := by
  have opened := alike_opened agree expr base
  obtain ⟨same, answers⟩ := outcomes_alike count opened fun r mem => mem
  exact ⟨congrArg (([], none) :: ·) same, answers⟩

/-- Open a cursor, which fetches nothing, and pull it any number of times.  Every pull
answers, and in every other document that differs only at elements which were not fetched,
the pulls fetch the same elements in the same order and answer the same locations. -/
theorem pulls_unread (document : Document) (expr : Expr) (base : Location) (count : Nat) :
    ((start [document]).step (.openCursor 0 expr base)).reads = [] ∧
      (∀ outcome ∈ (pulls document expr base count).tail, outcome.trace.2.isSome) ∧
      ∀ other : Document,
        document.root.Agrees (· ∈ fetches (pulls document expr base count)) other.root
            (.root 0 0) →
          (pulls other expr base count).map Outcome.trace =
            (pulls document expr base count).map Outcome.trace := by
  refine ⟨rfl, ?_, fun other agree => ?_⟩
  · exact (pulls_alike (Json.agrees_self document.root (.root 0 0))).2
  · exact (pulls_alike agree).1.symm

/-- One pull of a test fetches the first element, and in it a string.  The numbers in it and
the two elements behind it are not fetched, and others may stand in their place. -/
theorem pulls_unread_behind :
    let first (numbers : List Json) : Json :=
      .object [("kind", .string "fruit"), ("sizes", .array numbers)]
    let document := Document.ofJson (.array [first [.number (.int 7)], .array [.null], .null])
    let other := Document.ofJson
      (.array [first [.string "large"], .boolean true, .object [("kind", .string "fruit")]])
    let test : Expr := .path (.start false (.subscript
      [.filter (.path (.start false (.field "kind"))) .eq (.string "fruit")]))
    document.root.Agrees (· ∈ fetches (pulls document test [] 1)) other.root (.root 0 0) ∧
      (pulls other test [] 1).map Outcome.trace =
        [([], none), ([⟨⟨0, 0, []⟩, 0⟩], some (some [.index 0]))] := by
  intro first document other test
  have agree : document.root.Agrees (· ∈ fetches (pulls document test [] 1)) other.root
      (.root 0 0) := by
    have fetched : fetches (pulls document test [] 1) = [⟨⟨0, 0, []⟩, 0⟩] := rfl
    rw [fetched]
    refine ⟨fun _ => ⟨rfl, rfl, rfl, ⟨fun read => ?_, trivial⟩, trivial⟩, ?_, ?_, trivial⟩
    · exact absurd read (by decide)
    · exact fun read => absurd read (by decide)
    · exact fun read => absurd read (by decide)
  exact ⟨agree, (pulls_unread document test [] 1).2.2 other agree⟩

end Session

end JsonQuery

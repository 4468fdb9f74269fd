/-
# JsonQuery.Proofs.Session.Turns -- what a command makes of a session

The lookups that a command makes, those of the query that it runs included, are listed by
`Session.answered`, with the answers they get; they are those of the same lookups made in turn
(`found_of_answered`).

A command does one of five things to a session (`turns_step`): it makes its lookups, empties
the cache, opens a cursor, pulls one, or replaces a document.  What it leaves in the cache are
its lookups, and nothing if it empties it (`cache_of_turns`).
-/
import JsonQuery.Proofs.Search.Answered
import JsonQuery.Session

namespace JsonQuery

set_option autoImplicit false

/-- Whether a command empties the cache. -/
def Command.clears : Command → Bool
  | .clear => true
  | _ => false

namespace Session

/-! ## The lookups of a command -/

/-- The array at a location. -/
def array? (session : Session) (document : Nat) (location : Location) : Option ArrayNode :=
  ((session.root? document).bind fun root => root.follow? location).bind Node.array?

/-- The lookups that a command makes. -/
def answered (session : Session) : Command → List Answered
  | .query document expr base limit =>
      match session.root? document with
      | none => []
      | some root => (expr.search root base).answered limit .none session.cache
  | .next number =>
      match session.cursors[number]? with
      | some (some cursor) => cursor.search.answered (some 1) cursor.seen session.cache
      | _ => []
  | .indexOf document location key | .lookup document location key =>
      match session.array? document location with
      | none => []
      | some array => [⟨⟨array, key⟩, (session.cache.lookup array key).found⟩]
  | .openCursor _ _ _ | .replace _ _ | .clear => []

/-- The cache behind the lookups of a command. -/
def cacheAfter (session : Session) (command : Command) : KeyCache :=
  session.cache.after ((session.answered command).map Answered.toAsk)

/-- The answers of a command are those of its lookups made in turn. -/
theorem found_of_answered (session : Session) (command : Command) :
    (session.answered command).map Answered.found =
      (session.cache.lookups ((session.answered command).map Answered.toAsk)).map
        Lookup.found := by
  cases command with
  | query document expr base limit =>
    simp only [answered]
    split
    · rfl
    · exact Search.found_answered _ limit .none session.cache
  | next number =>
    simp only [answered]
    split
    · rename_i cursor _
      exact Search.found_answered cursor.search (some 1) cursor.seen session.cache
    · rfl
  | indexOf document location key | lookup document location key =>
    simp only [answered]
    split <;> rfl
  | openCursor | replace | clear => rfl

/-! ## What a command does -/

/-- The session with a document replaced, and its cursors closed. -/
def replaced (session : Session) (document : Nat) (content : Document) (held : Held) : Session :=
  { session with
    documents := session.documents.set document ⟨content, held.revision + 1⟩
    cursors := session.cursors.map fun _ => none }

section

variable {session : Session}

/-- What a command makes of a session.  A command that is refused makes no lookups. -/
inductive Turns (session : Session) : Command → Session → Prop
  /-- It makes lookups, if anything. -/
  | asks {command : Command} (cache : KeyCache) (is : cache = session.cacheAfter command)
      (keeps : command.clears = false)
      (idle : ∀ number cursor, command = .next number →
        session.cursors[number]? ≠ some (some cursor))
      (missing : ∀ document content, command = .replace document content →
        session.documents[document]? = none) :
      Turns session command { session with cache := cache }
  | clears : Turns session .clear { session with cache := .empty }
  | opens {document : Nat} {root : Node} (is : session.root? document = some root) (expr : Expr)
      (base : Location) :
      Turns session (.openCursor document expr base)
        { session with cursors := session.cursors ++ [some (.start expr root base)] }
  | pulls {number : Nat} {cursor : Cursor}
      (open_ : session.cursors[number]? = some (some cursor)) :
      Turns session (.next number)
        { session with
          cache := (cursor.next (.start session.cache)).run.cache
          cursors := session.cursors.set number (some (cursor.next (.start session.cache)).cursor) }
  | replaces {document : Nat} {held : Held} (stands : session.documents[document]? = some held)
      (content : Document) :
      Turns session (.replace document content) (session.replaced document content held)

theorem lookup_array {document : Nat} {location : Location} {array : ArrayNode}
    (is : session.array? document location = some array) (key : String)
    (answer : Option (Nat × Json) → Answer) :
    session.lookup document location key answer =
      session.after ((Run.start session.cache).lookup array key).2
        (answer (session.cache.lookup array key).found) := by
  obtain ⟨node, follows, stands⟩ := Option.bind_eq_some_iff.1 is
  obtain ⟨root, is_root, follows⟩ := Option.bind_eq_some_iff.1 follows
  simp only [lookup, is_root, follows, stands]
  rfl

theorem lookup_missing {document : Nat} {location : Location}
    (missing : session.array? document location = none) (key : String)
    (answer : Option (Nat × Json) → Answer) :
    (session.lookup document location key answer).session = session := by
  unfold lookup
  split
  · rfl
  rename_i root is
  split
  · rfl
  rename_i node follows
  split
  · rfl
  rename_i array stands
  simp [array?, is, follows, stands] at missing

theorem lookup_session (document : Nat) (location : Location) (key : String)
    (answer : Option (Nat × Json) → Answer) :
    (session.lookup document location key answer).session =
      { session with cache := session.cacheAfter (.lookup document location key) } := by
  cases is : session.array? document location with
  | none =>
    rw [lookup_missing is]
    simp only [cacheAfter, answered, is]
    rfl
  | some array =>
    rw [lookup_array is]
    simp only [cacheAfter, answered, is]
    rfl

theorem turns_step (session : Session) (command : Command) :
    session.Turns command (session.step command).session := by
  cases command with
  | query document expr base limit =>
    simp only [step]
    split
    · rename_i missing
      exact .asks session.cache (by simp only [cacheAfter, answered, missing]; rfl) rfl nofun nofun
    · rename_i root is
      refine .asks _ ?_ rfl nofun nofun
      simp only [cacheAfter, answered, is]
      exact Search.cache_collect _ limit .none session.cache []
  | openCursor document expr base =>
    simp only [step]
    split
    · exact .asks session.cache rfl rfl nofun nofun
    · rename_i root is
      exact .opens is expr base
  | next number =>
    -- A cursor that is closed or was never opened is not pulled.
    have refused (shut : ∀ cursor, session.cursors[number]? ≠ some (some cursor)) :
        session.Turns (.next number) session := by
      have silent : session.answered (.next number) = [] := by simp only [answered]
      refine .asks session.cache (by rw [cacheAfter, silent]; rfl) rfl ?_ nofun
      rintro _ cursor ⟨⟩
      exact shut cursor
    simp only [step]
    split
    · rename_i missing
      exact refused fun cursor open_ => nomatch missing.symm.trans open_
    · rename_i closed
      exact refused fun cursor open_ => nomatch closed.symm.trans open_
    · rename_i cursor open_
      exact .pulls open_
  | replace document content =>
    simp only [step]
    split
    · rename_i missing
      refine .asks session.cache rfl rfl nofun ?_
      rintro _ _ ⟨⟩
      exact missing
    · rename_i held stands
      exact .replaces stands content
  | clear => exact .clears
  | indexOf document location key =>
    rw [step, lookup_session]
    exact .asks _ rfl rfl nofun nofun
  | lookup document location key =>
    rw [step, lookup_session]
    exact .asks _ rfl rfl nofun nofun

theorem cache_of_turns {command : Command} {after : Session} (turns : session.Turns command after) :
    after.cache = if command.clears then .empty else session.cacheAfter command := by
  cases turns with
  | asks cache is keeps =>
    rw [keeps]
    exact is
  | clears | opens | replaces => rfl
  | pulls open_ =>
    rename_i cursor
    refine Eq.trans ?_ (if_neg Bool.false_ne_true).symm
    simp only [cacheAfter, answered, open_, Cursor.next, Search.pull_run]
    exact Search.cache_collect cursor.search (some 1) cursor.seen session.cache []

end

end Session

end JsonQuery

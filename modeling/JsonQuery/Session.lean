/-
# JsonQuery.Session -- documents that are queried and replaced

A session holds documents and one key cache that all its queries share.  Queries may
be run at once or left open as cursors, which are pulled one match at a time and in
any order.  When a document is replaced, all cursors close; the cache stays as it is.

`Session.step` carries out one command.  It answers, or says why not, and in either
case reports the elements that the command fetched.
-/
import JsonQuery.Query

namespace JsonQuery

set_option autoImplicit false

/-- A document of a session, and how often it was replaced. -/
structure Held where
  content : Document
  revision : Nat
deriving Inhabited

structure Session where
  documents : List Held
  cache : KeyCache
  /-- The cursors in the order of their opening, without those that are closed. -/
  cursors : List (Option Cursor)
deriving Inhabited

/-- Something to do in a session.  Documents and cursors are named by their
number. -/
inductive Command where
  /-- Takes the matches of an expression, up to a limit. -/
  | query (document : Nat) (expr : Expr) (base : Location) (limit : Option Nat)
  /-- Opens a cursor. -/
  | openCursor (document : Nat) (expr : Expr) (base : Location)
  /-- Pulls a match. -/
  | next (cursor : Nat)
  /-- Closes all cursors and replaces a document. -/
  | replace (document : Nat) (content : Document)
  /-- Empties the key cache. -/
  | clear
  /-- Asks for the position of a key in the array at a location. -/
  | indexOf (document : Nat) (location : Location) (key : String)
  /-- Asks for the element with a key in the array at a location. -/
  | lookup (document : Nat) (location : Location) (key : String)

inductive Answer where
  | matches (found : List Match)
  | opened (cursor : Nat)
  | pulled (hit : Option Match)
  | position (found : Option Nat)
  | element (found : Option (Nat × Json))
  | finished
deriving Inhabited

inductive SessionError where
  /-- The cursor was closed. -/
  | closed
  /-- There are only so many cursors. -/
  | noCursor (opened : Nat)
  /-- There is no such document. -/
  | noDocument
  /-- There is no value at the location. -/
  | noValue
  /-- The value at the location is no array. -/
  | notArray
deriving DecidableEq, Inhabited

/-- The node at a location; of the elements with a key the first. -/
def Node.follow? (node : Node) : Location → Option Node
  | [] => some node
  | .index position :: rest => (node.element? position).bind fun next => next.follow? rest
  | .field name :: rest => (node.member? name).bind fun next => next.follow? rest
  | .key key :: rest =>
      node.array?.bind fun array =>
        (array.elements.findIdx? fun element => element.key? = some key).bind fun position =>
          (node.element? position).bind fun next => next.follow? rest

/-- An answer or an error, the session behind the command, and what it fetched. -/
structure Outcome where
  answer : Except SessionError Answer
  session : Session
  reads : List Read
deriving Inhabited

namespace Session

/-- A session with documents that were never replaced. -/
def start (documents : List Document) : Session :=
  ⟨documents.map fun content => ⟨content, 0⟩, .empty, []⟩

/-- The root of a document. -/
def root? (session : Session) (document : Nat) : Option Node :=
  session.documents[document]?.map fun held => .ofDocument document held.revision held.content

/-- A command that has no effect. -/
def refuse (session : Session) (error : SessionError) : Outcome := ⟨.error error, session, []⟩

/-- Takes over the state behind a query. -/
def after (session : Session) (run : Run) (answer : Answer) : Outcome :=
  ⟨.ok answer, { session with cache := run.cache }, run.reads.reverse⟩

/-- Looks a key up in the array at a location. -/
def lookup (session : Session) (document : Nat) (location : Location) (key : String)
    (answer : Option (Nat × Json) → Answer) : Outcome :=
  match session.root? document with
  | none => session.refuse .noDocument
  | some root =>
      match root.follow? location with
      | none => session.refuse .noValue
      | some node =>
          match node.array? with
          | none => session.refuse .notArray
          | some array =>
              let (found, run) := (Run.start session.cache).lookup array key
              session.after run (answer found)

/-- Carries out a command. -/
def step (session : Session) : Command → Outcome
  | .query document expr base limit =>
      match session.root? document with
      | none => session.refuse .noDocument
      | some root =>
          let (found, run) := (Cursor.start expr root base).collect limit (.start session.cache)
          session.after run (.matches found)
  | .openCursor document expr base =>
      match session.root? document with
      | none => session.refuse .noDocument
      | some root =>
          ⟨.ok (.opened session.cursors.length),
            { session with cursors := session.cursors ++ [some (.start expr root base)] }, []⟩
  | .next cursor =>
      match session.cursors[cursor]? with
      | none => session.refuse (.noCursor session.cursors.length)
      | some none => session.refuse .closed
      | some (some current) =>
          let pulled := current.next (.start session.cache)
          { session with cursors := session.cursors.set cursor (some pulled.cursor) }.after
            pulled.run (.pulled pulled.hit)
  | .replace document content =>
      match session.documents[document]? with
      | none => session.refuse .noDocument
      | some held =>
          ⟨.ok .finished,
            { session with
              documents := session.documents.set document ⟨content, held.revision + 1⟩
              cursors := session.cursors.map fun _ => none },
            []⟩
  | .clear => ⟨.ok .finished, { session with cache := .empty }, []⟩
  | .indexOf document location key =>
      session.lookup document location key fun found => .position (found.map Prod.fst)
  | .lookup document location key => session.lookup document location key .element

end Session

end JsonQuery

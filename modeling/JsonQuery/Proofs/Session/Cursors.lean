/-
# JsonQuery.Proofs.Session.Cursors -- the cache that cursors share cannot be seen

A cursor that is open answers the next of its matches, whatever other commands come
between its pulls (`run_cursor`); a replacement closes it for good (`run_closed`).
Put together (`cursor_answers`): pull by pull a cursor gives the matches that its
expression has in the document from an empty cache, and then none.
-/
import JsonQuery.Proofs.Eval.Placed
import JsonQuery.Proofs.Session.Sound

namespace JsonQuery

set_option autoImplicit false

/-! ## Kinds of commands -/

/-- Whether a command pulls a given cursor. -/
def Command.pulls (number : Nat) : Command → Bool
  | .next other => other = number
  | _ => false

/-- Whether a command replaces one of so many documents. -/
def Command.replaces (count : Nat) : Command → Bool
  | .replace document _ => document < count
  | _ => false

/-- The same match in another revision or document. -/
def Match.placed (document revision : Nat) (found : Match) : Match :=
  ⟨found.node.placed document revision, found.location⟩

namespace Session

/-- Carries out commands in turn. -/
def run (session : Session) (commands : List Command) : Session :=
  commands.foldl (fun session command => (session.step command).session) session

/-- No document is replaced by content with two elements of one key at the root. -/
def Settled (commands : List Command) : Prop :=
  ∀ document content, Command.replace document content ∈ commands → content.root.RootApart

/-! ## One command -/

section

variable {session after : Session} {command : Command} (does : session.Does command after)
include does

theorem good_of_does (good : session.Good) (settled : Settled [command]) : after.Good := by
  cases does with
  | quiet cache sound => exact ⟨sound, good.cursors⟩
  | opens is expr base => exact ⟨good.sound, confined_opened good.cursors is expr base⟩
  | pulls is =>
    rename_i pulled current
    obtain ⟨-, -, within, kept⟩ := Search.pull_steady (steady session.documents)
      (good.cursors _ _ is) current.seen (.start session.cache) good.sound
    exact ⟨kept, confined_set good.cursors _ pulled within⟩
  | replaces stands content =>
    have apart := settled _ content List.mem_cons_self
    exact ⟨sound_replaced good.sound stands apart, confined_replaced session _ content _⟩

theorem documents_length_of_does : after.documents.length = session.documents.length := by
  cases does <;> simp [replaced]

theorem cursors_length_of_does : session.cursors.length ≤ after.cursors.length := by
  cases does <;> simp [replaced]

theorem closed_of_does {number : Nat} (closed : session.cursors[number]? = some none) :
    after.cursors[number]? = some none := by
  cases does with
  | quiet => exact closed
  | opens =>
    obtain ⟨bound, -⟩ := List.getElem?_eq_some_iff.1 closed
    rwa [List.getElem?_append_left bound]
  | pulls is =>
    rename_i other cursor
    have apart : other ≠ number := by
      rintro rfl
      rw [closed] at is
      cases is
    rwa [List.getElem?_set_ne apart]
  | replaces =>
    rw [replaced, List.getElem?_map, closed]
    rfl

/-- A replacement closes every cursor. -/
theorem closed_of_replaces (replaces : command.replaces session.documents.length) {number : Nat}
    (opened : number < session.cursors.length) : after.cursors[number]? = some none := by
  cases does with
  | quiet _ _ _ missing =>
    cases command <;> simp only [Command.replaces, Bool.false_eq_true] at replaces
    have gone := missing _ _ rfl
    rw [List.getElem?_eq_none_iff] at gone
    exact absurd (of_decide_eq_true replaces) (Nat.not_lt.2 gone)
  | opens | pulls => cases replaces
  | replaces =>
    rw [replaced, List.getElem?_map, List.getElem?_eq_getElem opened]
    rfl

/-- A command that replaces nothing leaves an open cursor open; if it pulls the cursor, it
takes its next match. -/
theorem cursor_of_does (good : session.Good) {number : Nat} {cursor : Cursor}
    (open_ : session.cursors[number]? = some (some cursor))
    (stays : command.replaces session.documents.length = false) :
    ∃ later, after.cursors[number]? = some (some later) ∧
      later.remaining = cursor.remaining.drop (if command.pulls number then 1 else 0) := by
  obtain ⟨bound, -⟩ := List.getElem?_eq_some_iff.1 open_
  cases does with
  | quiet cache sound idle =>
    have other : command.pulls number = false := by
      cases command with
      | next pulled =>
        rw [Command.pulls, decide_eq_false_iff_not]
        rintro rfl
        exact idle _ cursor rfl open_
      | _ => rfl
    exact ⟨cursor, open_, by simp [other]⟩
  | opens =>
    refine ⟨cursor, ?_, rfl⟩
    rwa [List.getElem?_append_left bound]
  | pulls is =>
    rename_i pulled current
    by_cases same : pulled = number
    · subst same
      rw [open_] at is
      cases is
      obtain ⟨-, rest, -⟩ := Search.pull_steady (steady session.documents) (good.cursors _ _ open_)
        cursor.seen (.start session.cache) good.sound
      refine ⟨_, List.getElem?_set_self bound, ?_⟩
      rw [Command.pulls, decide_eq_true rfl, if_pos rfl, List.drop_one]
      exact rest
    · exact ⟨cursor, by rwa [List.getElem?_set_ne same], by simp [Command.pulls, same]⟩
  | replaces stands content =>
    obtain ⟨bound, -⟩ := List.getElem?_eq_some_iff.1 stands
    rw [Command.replaces, decide_eq_false_iff_not] at stays
    exact absurd bound stays

end

/-! ## Many commands -/

theorem settled_cons {command : Command} {rest : List Command}
    (settled : Settled (command :: rest)) : Settled [command] ∧ Settled rest :=
  ⟨fun document content mem => settled document content (by simp_all),
    fun document content mem => settled document content (List.mem_cons_of_mem _ mem)⟩

theorem good_run (commands : List Command) {session : Session} (good : session.Good)
    (settled : Settled commands) : (session.run commands).Good := by
  induction commands generalizing session with
  | nil => exact good
  | cons command rest ih =>
    obtain ⟨first, others⟩ := settled_cons settled
    exact ih (good_of_does (does_step good command) good first) others

theorem documents_length_run (commands : List Command) {session : Session} (good : session.Good)
    (settled : Settled commands) :
    (session.run commands).documents.length = session.documents.length := by
  induction commands generalizing session with
  | nil => rfl
  | cons command rest ih =>
    obtain ⟨first, others⟩ := settled_cons settled
    have does := does_step good command
    exact (ih (good_of_does does good first) others).trans (documents_length_of_does does)

theorem run_closed (commands : List Command) {session : Session} (good : session.Good)
    (settled : Settled commands) {number : Nat} (closed : session.cursors[number]? = some none) :
    (session.run commands).cursors[number]? = some none := by
  induction commands generalizing session with
  | nil => exact closed
  | cons command rest ih =>
    obtain ⟨first, others⟩ := settled_cons settled
    have does := does_step good command
    exact ih (good_of_does does good first) others (closed_of_does does closed)

/-- Once a document is replaced, the cursors that there were are closed. -/
theorem run_replaces (commands : List Command) {session : Session} (good : session.Good)
    (settled : Settled commands) {number : Nat} (opened : number < session.cursors.length)
    (replaces : commands.any (Command.replaces session.documents.length)) :
    (session.run commands).cursors[number]? = some none := by
  induction commands generalizing session with
  | nil => cases replaces
  | cons command rest ih =>
    obtain ⟨first, others⟩ := settled_cons settled
    have does := does_step good command
    have good' := good_of_does does good first
    rw [List.any_cons, Bool.or_eq_true] at replaces
    obtain now | later := replaces
    · exact run_closed rest good' others (closed_of_replaces does now opened)
    · rw [← documents_length_of_does does] at later
      exact ih good' others (Nat.lt_of_lt_of_le opened (cursors_length_of_does does)) later

/-- As long as no document is replaced, a cursor gives its matches in order, one at each
pull. -/
theorem run_cursor (commands : List Command) {session : Session} (good : session.Good)
    (settled : Settled commands) {number : Nat} {cursor : Cursor}
    (open_ : session.cursors[number]? = some (some cursor))
    (stays : commands.any (Command.replaces session.documents.length) = false) :
    ∃ later, (session.run commands).cursors[number]? = some (some later) ∧
      later.remaining = cursor.remaining.drop (commands.countP (Command.pulls number)) := by
  induction commands generalizing session cursor with
  | nil => exact ⟨cursor, open_, rfl⟩
  | cons command rest ih =>
    obtain ⟨first, others⟩ := settled_cons settled
    have does := does_step good command
    rw [List.any_cons, Bool.or_eq_false_iff] at stays
    obtain ⟨middle, still, remaining⟩ := cursor_of_does does good open_ stays.1
    rw [← documents_length_of_does does] at stays
    obtain ⟨later, is, rest_remaining⟩ :=
      ih (good_of_does does good first) others still stays.2
    refine ⟨later, is, ?_⟩
    rw [rest_remaining, remaining, List.drop_drop, List.countP_cons, Nat.add_comm]

/-! ## A whole session -/

theorem reported_placed (document revision : Nat) (items : List Item) (seen : Seen) :
    reported seen (items.map (.placed document revision [])) =
      (reported seen items).map (.placed document revision) := by
  induction items generalizing seen with
  | nil => rfl
  | cons item rest ih =>
    cases item with
    | literal => exact ih seen
    | node n location =>
      rcases inserted : seen.insert location with ⟨fresh, after⟩
      simp only [List.map_cons, Item.placed, List.nil_append, reported, inserted, ih]
      cases fresh <;> rfl

/-- A cursor that was just opened has all matches before it. -/
theorem remaining_start (expr : Expr) (content : Document) (base : Location)
    (document revision : Nat) :
    (Cursor.start expr (.ofDocument document revision content) base).remaining =
      (expr.queryAt content base).map (.placed document revision) := by
  have placed := expr.items_placed document revision [] (.ofDocument 0 0 content) base
  calc (Cursor.start expr (.ofDocument document revision content) base).remaining
    _ = reported .none ((expr.search (.ofDocument 0 0 content) base).items.map
          (.placed document revision [])) := congrArg (reported .none) placed
    _ = _ := reported_placed document revision _ .none
    _ = (expr.queryAt content base).map (.placed document revision) := by
          rw [expr.queryAt_eq_reported]

theorem answer_closed {session : Session} {number : Nat}
    (closed : session.cursors[number]? = some none) :
    (session.step (.next number)).answer = .error .closed := by
  simp only [step, closed, refuse]

theorem answer_open {session : Session} (good : session.Good) {number : Nat} {cursor : Cursor}
    (open_ : session.cursors[number]? = some (some cursor)) :
    (session.step (.next number)).answer = .ok (.pulled cursor.remaining.head?) := by
  have hit := (Search.pull_steady (steady session.documents) (good.cursors _ _ open_) cursor.seen
    (.start session.cache) good.sound).1
  simp only [step, open_, Session.after, Cursor.next, hit, Cursor.remaining]

theorem step_openCursor {session : Session} {document : Nat} {held : Held}
    (stands : session.documents[document]? = some held) (expr : Expr) (base : Location) :
    session.step (.openCursor document expr base) =
      ⟨.ok (.opened session.cursors.length), { session with
        cursors := session.cursors ++
          [some (.start expr (.ofDocument document held.revision held.content) base)] }, []⟩ := by
  have is : session.root? document = some (.ofDocument document held.revision held.content) := by
    rw [root?, stands]
    rfl
  rw [step, is]

/-- A cursor that is opened in a good session answers the match that is due, whatever
else goes on. -/
theorem answer_after {session : Session} (good : session.Good) {commands : List Command}
    (settled : Settled commands) {document : Nat} {held : Held}
    (stands : session.documents[document]? = some held) (expr : Expr) (base : Location) :
    let opened := (session.step (.openCursor document expr base)).session
    ((opened.run commands).step (.next session.cursors.length)).answer =
      if commands.any (Command.replaces session.documents.length) then .error .closed
      else .ok (.pulled
        ((expr.queryAt held.content base).map (.placed document held.revision))[
          commands.countP (Command.pulls session.cursors.length)]?) := by
  intro opened
  have good_opened : opened.Good :=
    good_of_does (does_step good _) good fun d content mem => by simp at mem
  have open_ : opened.cursors[session.cursors.length]? =
      some (some (.start expr (.ofDocument document held.revision held.content) base)) := by
    simp only [opened, step_openCursor stands]
    exact List.getElem?_concat_length
  have same : session.documents.length = opened.documents.length := by
    simp only [opened, step_openCursor stands]
  rw [same]
  cases replaces : commands.any (Command.replaces opened.documents.length) with
  | true =>
    obtain ⟨bound, -⟩ := List.getElem?_eq_some_iff.1 open_
    exact answer_closed (run_replaces commands good_opened settled bound replaces)
  | false =>
    obtain ⟨later, still, remaining⟩ := run_cursor commands good_opened settled open_ replaces
    rw [answer_open (good_run commands good_opened settled) still, remaining, remaining_start,
      List.head?_drop]
    rfl

/-- Open a cursor at any moment of a session, and go on with any commands.  Unless one of
them replaced a document, the next pull of the cursor answers the match that is due: the
matches of its expression in its document, found alone and with an empty cache, are
counted off by the pulls of this cursor and by nothing else. -/
theorem cursor_answers (documents : List Document) (before during : List Command)
    (settled : Settled (before ++ during)) (document : Nat) (expr : Expr) (base : Location)
    (held : Held) (stands : ((start documents).run before).documents[document]? = some held) :
    let opening := ((start documents).run before).step (.openCursor document expr base)
    let number := ((start documents).run before).cursors.length
    opening.answer = .ok (.opened number) ∧
      ((opening.session.run during).step (.next number)).answer =
        if during.any (Command.replaces documents.length) then .error .closed
        else .ok (.pulled
          ((expr.queryAt held.content base).map (.placed document held.revision))[
            during.countP (Command.pulls number)]?) := by
  have settled_before : Settled before := fun d content mem =>
    settled d content (List.mem_append_left _ mem)
  have settled_during : Settled during := fun d content mem =>
    settled d content (List.mem_append_right _ mem)
  have good := good_run before (good_start documents) settled_before
  have length : ((start documents).run before).documents.length = documents.length :=
    (documents_length_run before (good_start documents) settled_before).trans
      (List.length_map _)
  intro opening number
  refine ⟨?_, ?_⟩
  · simp only [opening, number, step_openCursor stands]
  · rw [← length]
    exact answer_after good settled_during stands expr base

/-- The index of the root is one of elements that stood the other way round. -/
theorem cursor_answers_moved :
    let one : Json := .object [("_key", .string "a")]
    let two : Json := .object [("_key", .string "b")]
    let before : List Command :=
      [.lookup 0 [] "b", .replace 0 (.ofJson (.array [two, one])), .lookup 1 [] "a"]
    let during : List Command := [.indexOf 0 [] "a", .next 7]
    let test : Expr := .path (.start false (.subscript
      [.filter (.path (.start false (.field "_key"))) .eq (.string "b")]))
    let session := (start [.ofJson (.array [one, two]), .ofJson (.array [one, one])]).run before
    (((session.step (.openCursor 0 test [])).session.run during).step (.next 0)).answer =
      .ok (.pulled (some ⟨⟨two, ⟨0, 1, [0]⟩⟩, [.key "b"]⟩)) := by
  intro one two before during test session
  have settled : Settled (before ++ during) := by
    intro document content mem
    have is : document = 0 ∧ content = .ofJson (.array [two, one]) := by
      simpa [before, during] using mem
    have differ : two.key? ≠ one.key? := by decide
    rw [is.2]
    exact .cons (by rintro _ (_ | ⟨_, ⟨⟩⟩) same; exact absurd same differ) (.cons nofun .nil)
  exact (cursor_answers _ before during settled 0 test [] ⟨.ofJson (.array [two, one]), 1⟩ rfl).2

end Session

end JsonQuery

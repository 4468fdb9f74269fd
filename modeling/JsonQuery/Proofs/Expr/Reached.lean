/-
# JsonQuery.Proofs.Expr.Reached -- what is read, its tokens spell

A state says what the tokens behind it are (`State.Reached`): those of the subscripts that
are still open, one after the other from the outermost (`Opened`), and behind them the
tokens of what the state holds.  An open subscript is known by what it takes to close it:
any elements, spelled behind the tokens so far and with a bracket behind them, make its path
(`Frame.Begun`).

Each token takes a reached state to a reached state (`State.reached_step`), and so the
tokens that are read to a tree spell it (`Expr.spelling_of_ofTokens`).  Together with the
other direction: the reader accepts exactly what the grammar has, and no tokens spell two
trees (`Expr.ofTokens_eq_ok_iff_spelling`).
-/
import JsonQuery.Proofs.Expr.Reading

namespace JsonQuery

set_option autoImplicit false

/-! ## What has been read -/

/-- Tokens behind which a segment continues or begins a path. -/
def Joint.Behind (joint : Joint) (tokens : List Token) : Prop :=
  ∀ (segment : Segment) (more : List Token), segment.Spelling more →
    (joint.attach segment).Steps (tokens ++ more)

/-- The tokens of a path up to the beginning of an element, in its last subscript. -/
def Frame.Begun (frame : Frame) (tokens : List Token) : Prop :=
  ∀ (elements : List Element) (more : List Token), Element.SpellingAll elements more →
    (frame.joint.attach (.subscript (frame.earlier.reverse ++ elements))).Steps
      (tokens ++ more ++ [.punct .closeBracket])

/-- The tokens of a path up to the beginning of an expression, in its last subscript. -/
def Frame.Inside (frame : Frame) (tokens : List Token) : Prop :=
  match frame.left with
  | none => frame.Begun tokens
  | some (left, op) =>
      ∃ begun side, tokens = begun ++ side ++ [.comparison op] ∧ frame.Begun begun ∧
        left.Spelling side (.comparison op)

/-- The tokens up to the beginning of an expression. -/
def Opened : List Frame → List Token → Prop
  | [], tokens => tokens = []
  | frame :: frames, tokens =>
      ∃ outer inner, tokens = outer ++ inner ∧ Opened frames outer ∧ frame.Inside inner

/-- The tokens up to the beginning of an element. -/
def AtElement (frame : Frame) (frames : List Frame) (tokens : List Token) : Prop :=
  ∃ outer inner, tokens = outer ++ inner ∧ Opened frames outer ∧ frame.Begun inner

/-- The tokens behind which a state stands. -/
def State.Reached : State → List Token → Prop
  | .expr frames, tokens => Opened frames tokens
  | .number frame frames value _, tokens =>
      ∃ before, tokens = before ++ [.number value] ∧ AtElement frame frames before
  | .colon frame frames first, tokens =>
      ∃ before bound, tokens = before ++ bound ++ [.punct .colon] ∧
        AtElement frame frames before ∧ BoundSpelling first bound
  | .element frame frames last, tokens =>
      ∃ before more, tokens = before ++ more ∧ AtElement frame frames before ∧
        ∀ next, last.Spelling more next
  | .literal frames value, tokens =>
      ∃ before more, tokens = before ++ more ∧ Opened frames before ∧
        ∀ next, value.Spelling more next
  | .segment frames joint, tokens =>
      ∃ before more, tokens = before ++ more ∧ Opened frames before ∧ joint.Behind more
  | .descent frames base, tokens =>
      ∃ before more, tokens = before ++ more ++ [.punct .descent] ∧ Opened frames before ∧
        base.Steps more
  | .path frames p, tokens =>
      ∃ before more, tokens = before ++ more ∧ Opened frames before ∧ p.Steps more ∧ more ≠ []
  | .done e, tokens => ∃ before, tokens = before ++ [.finish] ∧ e.Spelling before .finish

/-! ## Subscripts -/

theorem Joint.behind_start : Joint.start.Behind [] :=
  fun _ _ spelling => .first spelling

theorem Joint.behind_dot {base : Path} {tokens : List Token} (steps : base.Steps tokens) :
    (Joint.after base false).Behind (tokens ++ [.punct .dot]) := by
  intro segment more spelling
  rw [List.append_assoc]
  exact .dot steps spelling

theorem Joint.behind_descent {base : Path} {tokens : List Token} (steps : base.Steps tokens) :
    (Joint.after base true).Behind (tokens ++ [.punct .descent]) := by
  intro segment more spelling
  rw [List.append_assoc]
  exact .descent steps spelling

/-- A subscript is opened where it may stand. -/
theorem Frame.begun_opened {joint : Joint} {tokens : List Token}
    (stands : ∀ (elements : List Element) (more : List Token),
      (Segment.subscript elements).Spelling more →
        (joint.attach (.subscript elements)).Steps (tokens ++ more)) :
    (Frame.opened joint).Begun (tokens ++ [.punct .openBracket]) := by
  intro elements more spelling
  have whole := stands elements _ (.subscript spelling)
  simpa [opened] using whole

theorem Frame.begun_next {frame : Frame} {tokens more : List Token} (begun : frame.Begun tokens)
    {last : Element} (spelling : last.Spelling more (.punct .comma)) :
    (frame.next last).Begun (tokens ++ more ++ [.punct .comma]) := by
  intro elements others others_spelling
  have whole := begun _ _ (.more spelling others_spelling)
  simpa [next] using whole

theorem Frame.steps_close {frame : Frame} {tokens more : List Token} (begun : frame.Begun tokens)
    {last : Element} (spelling : last.Spelling more (.punct .closeBracket)) :
    (frame.close last).Steps (tokens ++ more ++ [.punct .closeBracket]) := by
  rw [close_eq]
  exact begun _ _ (.last spelling)

theorem opened_of_begun {frame : Frame} {frames : List Frame} (fresh : frame.left = none)
    {outer inner : List Token} (opened : Opened frames outer) (begun : frame.Begun inner) :
    Opened (frame :: frames) (outer ++ inner) := by
  refine ⟨outer, inner, rfl, opened, ?_⟩
  unfold Frame.Inside
  rw [fresh]
  exact begun

/-! ## One token -/

/-- If an answer is a state, it stands behind these tokens. -/
def Stands (tokens : List Token) (answer : Except ParseError State) : Prop :=
  ∀ after, answer = .ok after → after.Reached tokens

theorem stands_ok {tokens : List Token} {state : State} (reached : state.Reached tokens) :
    Stands tokens (.ok state) := by
  rintro _ ⟨⟩
  exact reached

theorem stands_error (tokens : List Token) (error : ParseError) : Stands tokens (.error error) := by
  rintro _ ⟨⟩

section

variable {frame : Frame} {frames : List Frame} {before more : List Token} (next : Located)

theorem stands_afterElement (at_element : AtElement frame frames before) {last : Element}
    (spelling : last.Spelling more next.token) :
    Stands (before ++ more ++ [next.token]) (afterElement frame frames last next) := by
  obtain ⟨outer, inner, rfl, opened, begun⟩ := at_element
  unfold afterElement
  split
  · rename_i comma
    rw [comma] at spelling ⊢
    apply stands_ok
    have inside := opened_of_begun rfl opened (Frame.begun_next begun spelling)
    simpa [State.Reached] using inside
  · rename_i bracket
    rw [bracket] at spelling ⊢
    apply stands_ok
    have steps := Frame.steps_close begun spelling
    exact ⟨outer, _, by simp, opened, steps, by simp⟩
  all_goals exact stands_error _ _

theorem stands_afterOperand (at_element : AtElement frame frames before) {e : Expr}
    (spelling : e.Spelling more next.token) :
    Stands (before ++ more ++ [next.token]) (afterOperand frame frames e next) := by
  unfold afterOperand
  split
  · rename_i op comparison
    rw [comparison] at spelling ⊢
    obtain ⟨outer, inner, rfl, opened, begun⟩ := at_element
    apply stands_ok
    exact ⟨outer, inner ++ more ++ [.comparison op], by simp, opened, inner, more, rfl, begun,
      spelling⟩
  · rename_i p question
    rw [question] at spelling ⊢
    apply stands_ok
    cases spelling with
    | path path =>
      exact ⟨before, more ++ [.punct .question], by simp, at_element, fun _ => .existence path _⟩
  · exact stands_error _ _
  · exact stands_afterElement next at_element (.expr spelling)

theorem stands_afterExpr (opened : Opened frames before) {e : Expr}
    (spelling : e.Spelling more next.token) :
    Stands (before ++ more ++ [next.token]) (afterExpr frames e next) := by
  cases frames with
  | nil =>
    obtain rfl : before = [] := opened
    rw [afterExpr]
    split
    · rename_i finish
      rw [finish] at spelling ⊢
      apply stands_ok
      exact ⟨more, rfl, spelling⟩
    · exact stands_error _ _
  | cons frame frames =>
    obtain ⟨outer, inner, rfl, opened, inside⟩ := opened
    rw [afterExpr]
    unfold Frame.Inside at inside
    split
    · rename_i left op sides
      rw [sides] at inside
      obtain ⟨begun, side, rfl, frame_begun, left_spelling⟩ := inside
      have at_element : AtElement frame frames (outer ++ begun) :=
        ⟨outer, begun, rfl, opened, frame_begun⟩
      have answer := stands_afterElement next at_element (.filter left_spelling spelling)
      simpa using answer
    · rename_i fresh
      rw [fresh] at inside
      exact stands_afterOperand next ⟨outer, inner, rfl, opened, inside⟩ spelling

/-- Behind the beginning of a path, which is the path unless it is empty. -/
theorem stands_afterPath (opened : Opened frames before) {p : Path} (steps : p.Steps more)
    (goes_on : more ≠ [] ∨ next.token = .punct .dot ∨ next.token = .punct .descent) :
    Stands (before ++ more ++ [next.token]) (afterPath frames p next) := by
  unfold afterPath
  split
  · rename_i dot
    rw [dot]
    apply stands_ok
    exact ⟨before, _, by simp, opened, Joint.behind_dot steps⟩
  · rename_i descent
    rw [descent]
    apply stands_ok
    exact ⟨before, more, rfl, opened, steps⟩
  · rename_i bracket
    rw [bracket] at goes_on ⊢
    have nonempty : more ≠ [] := by simpa using goes_on
    have stands : ∀ elements tokens, (Segment.subscript elements).Spelling tokens →
        ((Joint.after p false).attach (.subscript elements)).Steps (more ++ tokens) :=
      fun _ _ spelling => .direct steps nonempty spelling
    apply stands_ok
    have inside := opened_of_begun rfl opened (Frame.begun_opened stands)
    simpa [State.Reached] using inside
  · rename_i no_dot no_descent _
    have nonempty : more ≠ [] := by
      rcases goes_on with nonempty | dot | descent
      · exact nonempty
      · exact absurd dot no_dot
      · exact absurd descent no_descent
    exact stands_afterExpr next opened (.path (.steps steps nonempty next.token))

theorem stands_atSegment (opened : Opened frames before) {joint : Joint}
    (behind : joint.Behind more) :
    Stands (before ++ more ++ [next.token]) (atSegment frames joint next) := by
  have takes : ∀ segment : Segment, segment.Spelling [next.token] →
      (State.path frames (joint.attach segment)).Reached (before ++ more ++ [next.token]) := by
    intro segment spelling
    exact ⟨before, more ++ [next.token], by simp, opened, behind segment _ spelling, by simp⟩
  unfold atSegment
  split
  · rename_i this
    exact stands_ok (takes .this (this ▸ .this))
  · rename_i star
    exact stands_ok (takes .wildcard (star ▸ .wildcard))
  · rename_i name token
    exact stands_ok (takes (.field name) (token ▸ .name name))
  · rename_i name token
    exact stands_ok (takes (.field name) (token ▸ .quotedName name))
  · rename_i bracket
    rw [bracket]
    apply stands_ok
    have begun := Frame.begun_opened fun elements tokens spelling => behind _ tokens spelling
    have inside := opened_of_begun rfl opened begun
    simpa [State.Reached] using inside
  · exact stands_error _ _

theorem stands_afterDescent (opened : Opened frames before) {base : Path}
    (steps : base.Steps more) :
    Stands (before ++ more ++ [.punct .descent] ++ [next.token])
      (afterDescent frames base next) := by
  unfold afterDescent
  split
  · rename_i marks
    have ends := Token.ends_iff.2 marks
    have spelling : (Expr.path (.step base true .wildcard)).Spelling
        (more ++ [.punct .descent]) next.token := .path (.bare steps ends)
    have answer := stands_afterExpr next opened spelling
    rw [afterPath_ends ends]
    simpa using answer
  · have answer := stands_atSegment next opened (Joint.behind_descent steps)
    simpa using answer

theorem stands_atOperand (opened : Opened frames before) :
    Stands (before ++ [next.token]) (atOperand frames next) := by
  have empty : Path.this.Steps [] := .nothing
  unfold atOperand
  split
  · rename_i value token
    rw [token]
    exact stands_ok ⟨before, _, rfl, opened, .string value⟩
  · rename_i value token
    rw [token]
    exact stands_ok ⟨before, _, rfl, opened, .number value⟩
  · rename_i value token
    rw [token]
    exact stands_ok ⟨before, _, rfl, opened, .boolean value⟩
  · rename_i dot
    have answer := stands_afterPath next opened empty (.inr (.inl dot))
    simpa using answer
  · rename_i descent
    have answer := stands_afterPath next opened empty (.inr (.inr descent))
    simpa using answer
  · have answer := stands_atSegment next opened Joint.behind_start
    simpa using answer

theorem stands_atElement (fresh : frame.left = none) (at_element : AtElement frame frames before) :
    Stands (before ++ [next.token]) (atElement frame frames next) := by
  unfold atElement
  split
  iterate 3 exact stands_error _ _
  · rename_i colon
    rw [colon]
    exact stands_ok ⟨before, [], by simp, at_element, .missing⟩
  · rename_i value token
    rw [token]
    exact stands_ok ⟨before, rfl, at_element⟩
  · obtain ⟨outer, inner, rfl, opened, begun⟩ := at_element
    exact stands_atOperand next (opened_of_begun fresh opened begun)

theorem stands_atRightSide (opened : Opened frames before) :
    Stands (before ++ [next.token]) (atRightSide frames next) := by
  unfold atRightSide
  split
  iterate 3 exact stands_error _ _
  exact stands_atOperand next opened

theorem stands_atExpr (opened : Opened frames before) :
    Stands (before ++ [next.token]) (atExpr frames next) := by
  cases frames with
  | nil =>
    rw [atExpr]
    split
    · exact stands_error _ _
    · exact stands_atOperand next opened
  | cons frame frames =>
    rw [atExpr]
    split
    · exact stands_atRightSide next opened
    · rename_i fresh
      obtain ⟨outer, inner, rfl, opened, inside⟩ := opened
      unfold Frame.Inside at inside
      rw [fresh] at inside
      exact stands_atElement next fresh ⟨outer, inner, rfl, opened, inside⟩

theorem stands_afterNumber (at_element : AtElement frame frames before) (value : Double)
    (offset : Nat) :
    Stands (before ++ [.number value] ++ [next.token])
      (afterNumber frame frames value offset next) := by
  unfold afterNumber
  split
  · rename_i colon
    rw [colon]
    split
    · rename_i bound is
      apply stands_ok
      exact ⟨before, [.number value], by simp, at_element, sliceBound?_eq_some.1 is⟩
    · exact stands_error _ _
  · have answer := stands_afterOperand next at_element (.number value next.token)
    simpa using answer

theorem stands_afterColon (at_element : AtElement frame frames before) {first : Option Int}
    (lower : BoundSpelling first more) :
    Stands (before ++ more ++ [.punct .colon] ++ [next.token])
      (afterColon frame frames first next) := by
  unfold afterColon
  split
  · rename_i value token
    rw [token]
    split
    · rename_i bound is
      apply stands_ok
      exact ⟨before, more ++ [.punct .colon, .number value], by simp, at_element,
        .slice lower (sliceBound?_eq_some.1 is)⟩
    · exact stands_error _ _
  · have answer := stands_afterElement next at_element (.slice lower .missing next.token)
    simpa using answer

end

/-- One token more leads from a reached state to a reached state. -/
theorem State.reached_step {state after : State} {tokens : List Token} {next : Located}
    (reached : state.Reached tokens) (step : state.step next = .ok after) :
    after.Reached (tokens ++ [next.token]) := by
  suffices stands : Stands (tokens ++ [next.token]) (state.step next) from stands after step
  cases state with
  | expr => exact stands_atExpr next reached
  | number frame frames value offset =>
    obtain ⟨before, rfl, at_element⟩ := reached
    exact stands_afterNumber next at_element value offset
  | colon =>
    obtain ⟨before, bound, rfl, at_element, lower⟩ := reached
    exact stands_afterColon next at_element lower
  | element =>
    obtain ⟨before, more, rfl, at_element, spelling⟩ := reached
    exact stands_afterElement next at_element (spelling next.token)
  | literal =>
    obtain ⟨before, more, rfl, opened, spelling⟩ := reached
    exact stands_afterExpr next opened (spelling next.token)
  | segment =>
    obtain ⟨before, more, rfl, opened, behind⟩ := reached
    exact stands_atSegment next opened behind
  | descent =>
    obtain ⟨before, more, rfl, opened, steps⟩ := reached
    exact stands_afterDescent next opened steps
  | path =>
    obtain ⟨before, more, rfl, opened, steps, nonempty⟩ := reached
    exact stands_afterPath next opened steps (.inl nonempty)
  | done => exact stands_error _ _

/-! ## All tokens -/

theorem State.reached_foldlM (located : List Located) {state after : State} {tokens : List Token}
    (reached : state.Reached tokens) (read : located.foldlM State.step state = .ok after) :
    after.Reached (tokens ++ located.map Located.token) := by
  induction located generalizing state tokens with
  | nil =>
    cases read
    simpa using reached
  | cons next rest ih =>
    rw [List.foldlM_cons] at read
    cases step : state.step next with
    | error =>
      rw [step] at read
      cases read
    | ok middle =>
      rw [step] at read
      have whole := ih (State.reached_step reached step) read
      simpa using whole

/-- Tokens that are read to a tree spell the tree, and one more ends them. -/
theorem Expr.spelling_of_ofTokens {located : List Located} {e : Expr}
    (read : Expr.ofTokens located = .ok e) :
    ∃ tokens, located.map Located.token = tokens ++ [.finish] ∧ e.Spelling tokens .finish := by
  rw [ofTokens, State.read] at read
  cases run : located.foldlM State.step (.expr []) with
  | error =>
    rw [run] at read
    cases read
  | ok after =>
    rw [run] at read
    have start : (State.expr []).Reached [] := rfl
    have reached := State.reached_foldlM located start run
    cases after <;> cases read
    exact reached

/-- The reader accepts tokens up to the end exactly if they spell a tree, and then gives this
tree; no tokens spell two. -/
theorem Expr.ofTokens_eq_ok_iff_spelling (before : List Located) (offset : Nat) :
    (∀ t : Expr, Expr.ofTokens (before ++ [⟨.finish, offset⟩]) = .ok t ↔
        t.Spelling (before.map Located.token) .finish) ∧
      ∀ t t' : Expr, t.Spelling (before.map Located.token) .finish →
        t'.Spelling (before.map Located.token) .finish → t = t' := by
  have tokens : (before ++ [(⟨.finish, offset⟩ : Located)]).map Located.token =
      before.map Located.token ++ [.finish] := List.map_append
  have accepts : ∀ t : Expr, Expr.ofTokens (before ++ [⟨.finish, offset⟩]) = .ok t ↔
      t.Spelling (before.map Located.token) .finish := by
    intro t
    constructor
    · intro read
      obtain ⟨spelled, eq, spelling⟩ := Expr.spelling_of_ofTokens read
      rw [tokens] at eq
      rwa [List.append_cancel_right eq]
    · intro spelling
      exact Expr.ofTokens_spelling spelling tokens
  refine ⟨accepts, fun t t' one two => ?_⟩
  have same := (accepts t).2 one
  rw [(accepts t').2 two] at same
  exact (Except.ok.inj same).symm

/-- In `..a[1:, .. == "x"]` the first `..` goes on with a name and the second stands alone, and
the number is a bound. -/
theorem Expr.ofTokens_eq_ok_iff_spelling_descents :
    let one := Double.ofDigits 1
    let before : List Located :=
      [⟨.punct .descent, 0⟩, ⟨.name "a", 2⟩, ⟨.punct .openBracket, 3⟩, ⟨.number one, 4⟩,
        ⟨.punct .colon, 5⟩, ⟨.punct .comma, 6⟩, ⟨.punct .descent, 8⟩, ⟨.comparison .eq, 11⟩,
        ⟨.string "x", 14⟩, ⟨.punct .closeBracket, 17⟩]
    let test : Element := .filter (.path (.step .this true .wildcard)) .eq (.string "x")
    let t : Expr := .path
      (.step (.step .this true (.field "a")) false (.subscript [.slice (some 1) none, test]))
    t.Spelling (before.map Located.token) .finish ∧
      Expr.ofTokens (before ++ [⟨.finish, 18⟩]) = .ok t ∧
      ∀ t' : Expr, t'.Spelling (before.map Located.token) .finish → t' = t := by
  intro one before test t
  have integral : one.toInt? = some 1 := by decide +kernel
  have name : (Path.step .this true (.field "a")).Steps ([] ++ .punct .descent :: [.name "a"]) :=
    .descent .nothing (.name "a")
  have slice : (Element.slice (some 1) none).Spelling ([.number one] ++ .punct .colon :: [])
      (.punct .comma) :=
    .slice (.number integral (by decide) (by decide)) .missing _
  have everything : (Path.step .this true .wildcard).Spelling ([] ++ [.punct .descent])
      (.comparison .eq) :=
    .bare .nothing (.comparison .eq)
  have test_spelling : test.Spelling ([.punct .descent] ++ .comparison .eq :: [.string "x"])
      (.punct .closeBracket) :=
    .filter (.path everything) (.string "x" _)
  have spelling : t.Spelling (before.map Located.token) .finish :=
    .path (.steps (.direct name nofun (.subscript (.more slice (.last test_spelling)))) nofun _)
  obtain ⟨accepts, unique⟩ := Expr.ofTokens_eq_ok_iff_spelling before 18
  exact ⟨spelling, (accepts t).2 spelling, fun t' other => unique t' t other spelling⟩

end JsonQuery

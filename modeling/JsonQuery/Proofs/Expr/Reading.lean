/-
# JsonQuery.Proofs.Expr.Reading -- tokens that spell a tree are read as the tree

`Reads state tokens next` says that tokens lead from one state to a state with a
property, at whatever offsets they stand.  A path is read to the end of its last
step.  An expression is read up to where it is complete (`Completes`): a number at
the head of an element waits for one token more, because a colon would make it
the bound of a slice, and a `..` waits because a segment might follow.

`Expr.ofTokens_spelling` is the whole, and `Expr.ofTokens_tokens` is it for the tokens
of a regular tree.
-/
import JsonQuery.Expr.Reader
import JsonQuery.Proofs.Expr.Grammar

namespace JsonQuery

set_option autoImplicit false

/-! ## Reading some tokens -/

/-- Tokens lead from a state to one with a property. -/
def Reads (state : State) (tokens : List Token) (next : State → Prop) : Prop :=
  ∀ located : List Located, located.map Located.token = tokens →
    ∃ after, located.foldlM State.step state = .ok after ∧ next after

theorem reads_nil {state : State} {next : State → Prop} (holds : next state) :
    Reads state [] next := by
  intro located tokens
  rw [List.map_eq_nil_iff] at tokens
  subst tokens
  exact ⟨state, rfl, holds⟩

theorem reads_cons {state : State} {token : Token} {tokens : List Token} {next : State → Prop}
    (first : ∀ offset, ∃ middle, state.step ⟨token, offset⟩ = .ok middle ∧
      Reads middle tokens next) : Reads state (token :: tokens) next := by
  intro located eq
  obtain ⟨⟨_, offset⟩, more, rfl, rfl, eq_more⟩ := List.map_eq_cons_iff.1 eq
  obtain ⟨middle, step, rest⟩ := first offset
  obtain ⟨after, read, holds⟩ := rest more eq_more
  refine ⟨after, ?_, holds⟩
  rw [List.foldlM_cons, step]
  exact read

theorem reads_append {state : State} {one two : List Token} {middle next : State → Prop}
    (first : Reads state one middle) (rest : ∀ after, middle after → Reads after two next) :
    Reads state (one ++ two) next := by
  intro located eq
  obtain ⟨left, right, rfl, eq_left, eq_right⟩ := List.map_eq_append_iff.1 eq
  obtain ⟨between, read_left, holds_left⟩ := first left eq_left
  obtain ⟨after, read_right, holds⟩ := rest between holds_left right eq_right
  refine ⟨after, ?_, holds⟩
  rw [List.foldlM_append, read_left]
  exact read_right

theorem Reads.mono {state : State} {tokens : List Token} {one two : State → Prop}
    (reads : Reads state tokens one) (implies : ∀ after, one after → two after) :
    Reads state tokens two := by
  intro located eq
  obtain ⟨after, read, holds⟩ := reads located eq
  exact ⟨after, read, implies after holds⟩

/-- A state in which an expression is complete, up to tokens that go on a path. -/
def Completes (frames : List Frame) (e : Expr) (state : State) : Prop :=
  ∀ next : Located, next.token.Ends → state.step next = afterExpr frames e next

/-- A state in which an element is complete. -/
def Closes (frame : Frame) (frames : List Frame) (element : Element) (state : State) : Prop :=
  ∀ next : Located, next.token = .punct .comma ∨ next.token = .punct .closeBracket →
    state.step next = afterElement frame frames element next

/-- A state that takes a segment with these tokens at a joint. -/
def Awaits (frames : List Frame) (joint : Joint) (tokens : List Token) (state : State) : Prop :=
  ∀ next : Located, tokens.head? = some next.token → state.step next = atSegment frames joint next

/-- A state in which a path may go on with `.` or `..`. -/
def Extends (frames : List Frame) (p : Path) (state : State) : Prop :=
  ∀ next : Located, next.token = .punct .dot ∨ next.token = .punct .descent →
    state.step next = afterPath frames p next

theorem Token.ends_iff {token : Token} : token.Ends ↔ token.endsPath := by
  constructor
  · rintro (_ | _ | _ | _ | _) <;> rfl
  · intro marks
    cases token with
    | comparison op => exact .comparison op
    | finish => exact .finish
    | punct mark =>
      cases mark with
      | closeBracket => exact .closeBracket
      | comma => exact .comma
      | question => exact .question
      | _ => cases marks
    | _ => cases marks

theorem afterPath_ends {next : Located} (ends : next.token.Ends) (frames : List Frame) (p : Path) :
    afterPath frames p next = afterExpr frames (.path p) next := by
  have marks := Token.ends_iff.1 ends
  unfold afterPath
  split <;> simp_all [Token.endsPath]

theorem completes_path (frames : List Frame) (p : Path) :
    Completes frames (.path p) (.path frames p) :=
  fun _ ends => afterPath_ends ends frames p

/-- Behind a bare `..` the path is complete with a step to everything. -/
theorem completes_descent (frames : List Frame) (base : Path) :
    Completes frames (.path (.step base true .wildcard)) (.descent frames base) := by
  intro next ends
  rw [State.step, afterDescent, if_pos (Token.ends_iff.1 ends), afterPath_ends ends]

/-! ## Where a segment stands -/

theorem awaits_expr (frames : List Frame) {segment : Segment} {tokens : List Token}
    (spelling : segment.Spelling tokens) : Awaits frames .start tokens (.expr frames) := by
  rintro ⟨token, offset⟩ head
  obtain ⟨first, rest, rfl, begins⟩ := spelling.begins
  cases head
  cases frames with
  | nil => cases begins <;> rfl
  | cons frame frames =>
    cases left : frame.left <;> cases begins <;>
      simp only [State.step, atExpr, left, atElement, atRightSide, atOperand]

theorem awaits_segment (frames : List Frame) (joint : Joint) (tokens : List Token) :
    Awaits frames joint tokens (.segment frames joint) :=
  fun _ _ => rfl

theorem awaits_descent (frames : List Frame) (base : Path) {segment : Segment}
    {tokens : List Token} (spelling : segment.Spelling tokens) :
    Awaits frames (.after base true) tokens (.descent frames base) := by
  rintro ⟨token, offset⟩ head
  obtain ⟨first, rest, rfl, begins⟩ := spelling.begins
  cases head
  cases begins <;> rfl

theorem awaits_direct (frames : List Frame) (base : Path) {elements : List Element}
    {tokens : List Token} (spelling : (Segment.subscript elements).Spelling tokens) :
    Awaits frames (.after base false) tokens (.path frames base) := by
  rintro ⟨token, offset⟩ head
  cases spelling
  cases head
  rfl

theorem extends_expr (frames : List Frame) : Extends frames .this (.expr frames) := by
  rintro ⟨token, offset⟩ marks
  dsimp only at marks
  cases frames with
  | nil => obtain rfl | rfl := marks <;> rfl
  | cons frame frames =>
    cases left : frame.left <;> obtain rfl | rfl := marks <;>
      simp only [State.step, atExpr, left, atElement, atRightSide, atOperand]

theorem extends_path (frames : List Frame) (p : Path) : Extends frames p (.path frames p) :=
  fun _ _ => rfl

/-! ## Reading a tree -/

theorem Frame.close_eq (frame : Frame) (last : Element) :
    frame.close last = frame.joint.attach (.subscript (frame.earlier.reverse ++ [last])) := by
  rw [close, List.reverse_cons]

/-- In a subscript whose element has no left side yet, an expression is an operand. -/
theorem afterExpr_operand {frame : Frame} (fresh : frame.left = none) (frames : List Frame)
    (e : Expr) (next : Located) :
    afterExpr (frame :: frames) e next = afterOperand frame frames e next := by
  rw [afterExpr, fresh]

theorem reads_number (frames : List Frame) (value : Double) :
    Reads (.expr frames) [.number value] (Completes frames (.number value)) := by
  refine reads_cons fun offset => ?_
  cases frames with
  | nil => exact ⟨_, rfl, reads_nil fun _ _ => rfl⟩
  | cons frame frames =>
    cases left : frame.left with
    | some sides =>
      refine ⟨.literal (frame :: frames) (.number value), ?_, reads_nil fun _ _ => rfl⟩
      simp only [State.step, atExpr, left, atRightSide, atOperand]
    | none =>
      -- The colon that would make the number a bound is no end of an expression.
      refine ⟨.number frame frames value offset, ?_, reads_nil fun next ends => ?_⟩
      · simp only [State.step, atExpr, left, atElement]
      · rw [afterExpr_operand left, State.step, afterNumber]
        split
        · rename_i colon
          rw [colon] at ends
          cases ends
        · rfl

theorem reads_literal (frames : List Frame) {token : Token} {e : Expr}
    (literal : (∃ value, token = .string value ∧ e = .string value) ∨
      ∃ value, token = .boolean value ∧ e = .boolean value) :
    Reads (.expr frames) [token] (Completes frames e) := by
  refine reads_cons fun offset => ⟨.literal frames e, ?_, reads_nil fun _ _ => rfl⟩
  cases frames with
  | nil => obtain ⟨_, rfl, rfl⟩ | ⟨_, rfl, rfl⟩ := literal <;> rfl
  | cons frame frames =>
    cases left : frame.left <;> obtain ⟨_, rfl, rfl⟩ | ⟨_, rfl, rfl⟩ := literal <;>
      simp only [State.step, atExpr, left, atRightSide, atElement, atOperand]

/-- What the reader takes as a bound is what the grammar has as one. -/
theorem sliceBound?_eq_some {value : Double} {n : Int} :
    sliceBound? value = some n ↔ BoundSpelling (some n) [.number value] := by
  have least : Int64.minValue.toInt = -2 ^ 63 := by decide
  have greatest : Int64.maxValue.toInt = 2 ^ 63 - 1 := by decide
  rw [sliceBound?, Option.filter_eq_some_iff, Bool.and_eq_true, decide_eq_true_eq,
    decide_eq_true_eq, least, greatest]
  constructor
  · rintro ⟨integral, lower, upper⟩
    exact .number integral lower (by omega)
  · rintro (_ | ⟨integral, lower, upper⟩)
    exact ⟨integral, lower, by omega⟩

theorem reads_slice {frame : Frame} (fresh : frame.left = none) (frames : List Frame)
    {first last : Option Int} {lower upper : List Token}
    (lower_spelling : BoundSpelling first lower) (upper_spelling : BoundSpelling last upper) :
    Reads (.expr (frame :: frames)) (lower ++ .punct .colon :: upper)
      (Closes frame frames (.slice first last)) := by
  have behind : Reads (.colon frame frames first) upper
      (Closes frame frames (.slice first last)) := by
    cases upper_spelling with
    | missing =>
      refine reads_nil fun next ends => ?_
      obtain ends | ends := ends <;> simp only [State.step, afterColon, ends]
    | @number value n integral least greatest =>
      have bound := sliceBound?_eq_some.2 (.number integral least greatest)
      refine reads_cons fun offset =>
        ⟨.element frame frames (.slice first (some n)), ?_, reads_nil fun _ _ => rfl⟩
      simp only [State.step, afterColon, bound]
  cases lower_spelling with
  | missing =>
    refine reads_cons fun offset => ⟨_, ?_, behind⟩
    simp only [State.step, atExpr, fresh, atElement]
  | @number value n integral least greatest =>
    have bound := sliceBound?_eq_some.2 (.number integral least greatest)
    refine reads_cons fun offset => ⟨.number frame frames value offset, ?_,
      reads_cons fun _ => ⟨_, ?_, behind⟩⟩
    · simp only [State.step, atExpr, fresh, atElement]
    · simp only [State.step, afterNumber, bound]

/-- Behind the beginning of a path `.` and `..` go on; if there is nothing yet, they begin the
expression. -/
theorem reads_extends {p : Path} {tokens : List Token} (steps : p.Steps tokens)
    {frames : List Frame}
    (reads : tokens ≠ [] → Reads (.expr frames) tokens (· = .path frames p)) :
    Reads (.expr frames) tokens (Extends frames p) := by
  by_cases nothing : tokens = []
  · obtain rfl := Path.eq_this_of_steps steps nothing
    subst nothing
    exact reads_nil (extends_expr frames)
  · refine (reads nothing).mono fun after eq => ?_
    subst eq
    exact extends_path frames p

mutual

/-- Tokens that spell an expression are read up to where it is complete. -/
theorem Expr.reads : (e : Expr) → {tokens : List Token} → {next : Token} →
    e.Spelling tokens next → (frames : List Frame) →
    Reads (.expr frames) tokens (Completes frames e)
  | .number value, _, _, .number _ _, frames => reads_number frames value
  | .string value, _, _, .string _ _, frames => reads_literal frames (.inl ⟨value, rfl, rfl⟩)
  | .boolean value, _, _, .boolean _ _, frames => reads_literal frames (.inr ⟨value, rfl, rfl⟩)
  | .path p, _, _, .path path, frames => p.reads path frames

theorem Path.reads : (p : Path) → {tokens : List Token} → {next : Token} →
    p.Spelling tokens next → (frames : List Frame) →
    Reads (.expr frames) tokens (Completes frames (.path p))
  | p, _, _, .steps steps nonempty _, frames => by
      refine (p.readsSteps steps nonempty frames).mono fun after eq => ?_
      subst eq
      exact completes_path frames p
  | .step base true .wildcard, _, _, .bare steps _, frames => by
      have extends_ := reads_extends steps fun nonempty => base.readsSteps steps nonempty frames
      refine reads_append extends_ fun after goes_on => reads_cons fun offset => ?_
      exact ⟨_, goes_on ⟨_, offset⟩ (.inr rfl), reads_nil (completes_descent frames base)⟩

theorem Path.readsSteps : (p : Path) → {tokens : List Token} → p.Steps tokens → tokens ≠ [] →
    (frames : List Frame) → Reads (.expr frames) tokens (· = .path frames p)
  | _, _, .nothing, nonempty, _ => absurd rfl nonempty
  | .start false segment, _, .first first, _, frames =>
      segment.reads first (awaits_expr frames first)
  | .step base false segment, _, .dot steps spelling, _, frames => by
      have extends_ := reads_extends steps fun nonempty => base.readsSteps steps nonempty frames
      refine reads_append extends_ fun after goes_on => reads_cons fun offset => ?_
      exact ⟨_, goes_on ⟨_, offset⟩ (.inl rfl),
        segment.reads spelling (awaits_segment frames (.after base false) _)⟩
  | .step base true segment, _, .descent steps spelling, _, frames => by
      have extends_ := reads_extends steps fun nonempty => base.readsSteps steps nonempty frames
      refine reads_append extends_ fun after goes_on => reads_cons fun offset => ?_
      exact ⟨_, goes_on ⟨_, offset⟩ (.inr rfl),
        segment.reads spelling (awaits_descent frames base spelling)⟩
  | .step base false (.subscript elements), _, .direct steps nonempty spelling, _, frames => by
      refine reads_append (base.readsSteps steps nonempty frames) fun after eq => ?_
      subst eq
      exact (Segment.subscript elements).reads spelling (awaits_direct frames base spelling)

theorem Segment.reads : (s : Segment) → {tokens : List Token} → s.Spelling tokens →
    {state : State} → {frames : List Frame} → {joint : Joint} →
    Awaits frames joint tokens state → Reads state tokens (· = .path frames (joint.attach s))
  | .this, _, .this, _, _, _, awaits | .wildcard, _, .wildcard, _, _, _, awaits
  | .field _, _, .name _, _, _, _, awaits | .field _, _, .quotedName _, _, _, _, awaits =>
      reads_cons fun offset => ⟨_, awaits ⟨_, offset⟩ rfl, reads_nil rfl⟩
  | .subscript elements, _, .subscript inner, _, frames, joint, awaits =>
      reads_cons fun offset => ⟨_, awaits ⟨_, offset⟩ rfl,
        Element.readsAll elements inner (.opened joint) rfl frames⟩

theorem Element.reads : (e : Element) → {tokens : List Token} → {next : Token} →
    e.Spelling tokens next → {frame : Frame} → frame.left = none → (frames : List Frame) →
      Reads (.expr (frame :: frames)) tokens (Closes frame frames e)
  | .slice first last, _, _, .slice lower upper _, _, fresh, frames =>
      reads_slice fresh frames lower upper
  | .filter left op right, _, _, .filter one two, frame, fresh, frames => by
      refine reads_append (left.reads one (frame :: frames)) fun after complete => ?_
      refine reads_cons fun offset => ⟨.expr (frame.compare left op :: frames), ?_, ?_⟩
      · rw [complete ⟨_, offset⟩ (.comparison op), afterExpr_operand fresh]
        rfl
      · refine (right.reads two (frame.compare left op :: frames)).mono fun after complete => ?_
        rintro ⟨token, offset⟩ ends
        dsimp only at ends
        rw [complete ⟨token, offset⟩ (by obtain rfl | rfl := ends <;> constructor)]
        rfl
  | .existence p, _, _, .existence path _, frame, fresh, frames => by
      refine reads_append (p.reads path (frame :: frames)) fun after complete => ?_
      refine reads_cons fun offset => ⟨.element frame frames (.existence p), ?_, ?_⟩
      · rw [complete ⟨_, offset⟩ .question, afterExpr_operand fresh]
        rfl
      · exact reads_nil fun _ _ => rfl
  | .expr e, _, _, .expr spelling, frame, fresh, frames => by
      refine (e.reads spelling (frame :: frames)).mono fun after complete => ?_
      rintro ⟨token, offset⟩ ends
      dsimp only at ends
      rw [complete ⟨token, offset⟩ (by obtain rfl | rfl := ends <;> constructor),
        afterExpr_operand fresh]
      obtain rfl | rfl := ends <;> rfl

theorem Element.readsAll : (elements : List Element) → {tokens : List Token} →
    Element.SpellingAll elements tokens → (frame : Frame) → frame.left = none →
      (frames : List Frame) →
      Reads (.expr (frame :: frames)) (tokens ++ [.punct .closeBracket])
        (· = .path frames (frame.joint.attach (.subscript (frame.earlier.reverse ++ elements))))
  | [element], _, .last last, frame, fresh, frames => by
      refine reads_append (element.reads last fresh frames) fun after closes => ?_
      refine reads_cons fun offset => ⟨_, closes ⟨_, offset⟩ (.inr rfl), reads_nil ?_⟩
      rw [Frame.close_eq]
  | element :: rest, _, .more first others, frame, fresh, frames => by
      rw [List.append_assoc]
      refine reads_append (element.reads first fresh frames) fun after closes => ?_
      refine reads_cons fun offset => ⟨_, closes ⟨_, offset⟩ (.inl rfl), ?_⟩
      have behind := Element.readsAll rest others (frame.next element) rfl frames
      simpa [Frame.next] using behind

end

/-- Tokens that spell a tree are read as the tree. -/
theorem Expr.ofTokens_spelling {e : Expr} {tokens : List Token}
    (spelling : e.Spelling tokens .finish) {located : List Located}
    (eq : located.map Located.token = tokens ++ [.finish]) : Expr.ofTokens located = .ok e := by
  have whole : Reads (.expr []) (tokens ++ [.finish]) (· = .done e) := by
    refine reads_append (e.reads spelling []) fun after complete => reads_cons fun offset => ?_
    exact ⟨_, complete ⟨_, offset⟩ .finish, reads_nil rfl⟩
  obtain ⟨after, read, rfl⟩ := whole located eq
  rw [Expr.ofTokens, State.read, read]
  rfl

/-- The tokens of a regular tree are read as the tree. -/
theorem Expr.ofTokens_tokens {e : Expr} (regular : e.Regular) {located : List Located}
    (eq : located.map Located.token = e.tokens ++ [.finish]) : Expr.ofTokens located = .ok e :=
  Expr.ofTokens_spelling (e.spelling_tokens regular .finish) eq

end JsonQuery

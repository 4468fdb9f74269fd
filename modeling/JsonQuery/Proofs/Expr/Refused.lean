/-
# JsonQuery.Proofs.Expr.Refused -- where tokens are refused

A sequence is *viable* if some expression begins with it.  The reader takes exactly the
viable sequences (`viable_iff`): from every state tokens complete the expression
(`State.reads_completion`), a segment where one must stand and a bracket for each subscript
that is open; and behind a token that is refused nothing helps.  So the token at which it
stops is the first that rules every expression out.

The error has the offset of this token, with one exception: a number that is no bound is
noticed at the colon behind it, and reported itself.  What a state `Recalls` of the tokens is
enough to tell the two apart: which number waits for a colon, where it stands, and that an
element begins there.  Each token is recalled, or refused where it stands, or it is such a
colon (`State.answers_step`), and so a run recalls all its tokens (`State.recalls_foldlM`).
`Expr.refused_at` is the whole.
-/
import Mathlib.Data.List.Nodup
import JsonQuery.Proofs.Expr.Reading

namespace JsonQuery

set_option autoImplicit false

/-! ## Sequences -/

/-- No token is the end. -/
def Endless (tokens : List Located) : Prop :=
  ∀ t ∈ tokens, t.token ≠ .finish

/-- The last token is the end, and no other is. -/
def EndsOnce (tokens : List Located) : Prop :=
  ∃ before last, tokens = before ++ [last] ∧ last.token = .finish ∧ Endless before

/-- An element of a subscript begins behind the tokens. -/
def BeginsElement (tokens : List Located) : Prop :=
  ∃ before mark, tokens = before ++ [mark] ∧
    (mark.token = .punct .openBracket ∨ mark.token = .punct .comma)

/-- Some expression begins with the tokens.  That nothing more follows its end need not be asked
(`Expr.endsOnce_of_ofTokens`). -/
def Viable (tokens : List Located) : Prop :=
  ∃ more e, Expr.ofTokens (tokens ++ more) = .ok e

theorem Endless.snoc {tokens : List Located} (endless : Endless tokens) {next : Located}
    (goes_on : next.token ≠ .finish) : Endless (tokens ++ [next]) := by
  intro t member
  rcases List.mem_append.1 member with earlier | last
  · exact endless t earlier
  · obtain rfl := List.mem_singleton.1 last
    exact goes_on

theorem EndsOnce.not_endless {tokens : List Located} (ends : EndsOnce tokens) :
    ¬ Endless tokens := by
  obtain ⟨before, last, rfl, finish, -⟩ := ends
  intro endless
  exact endless last (by simp) finish

theorem Viable.of_append {before more : List Located} (viable : Viable (before ++ more)) :
    Viable before := by
  obtain ⟨others, e, read⟩ := viable
  rw [List.append_assoc] at read
  exact ⟨more ++ others, e, read⟩

/-! ## What a state recalls -/

/-- What a state says about the tokens behind which it stands. -/
def State.Recalls : State → List Located → Prop
  | .done _, tokens => EndsOnce tokens
  | .number _ _ value offset, tokens =>
      Endless tokens ∧ ∃ before number, tokens = before ++ [number] ∧
        number.token = .number value ∧ number.offset = offset ∧ BeginsElement before
  | .expr (frame :: _), tokens =>
      Endless tokens ∧ (frame.left = none → BeginsElement tokens)
  | _, tokens => Endless tokens

/-- A token behind others leads to a state that recalls it and them, or is refused where it
stands. -/
def Answers (before : List Located) (next : Located) : Except ParseError State → Prop
  | .ok after => after.Recalls (before ++ [next])
  | .error error => error.offset = next.offset

section

variable {before : List Located} (endless : Endless before) (next : Located)
include endless

theorem answers_afterElement (frame : Frame) (frames : List Frame) (last : Element) :
    Answers before next (afterElement frame frames last next) := by
  unfold afterElement
  split
  · rename_i comma
    exact ⟨endless.snoc (by simp [comma]), fun _ => ⟨before, next, rfl, .inr comma⟩⟩
  · rename_i bracket
    exact endless.snoc (by simp [bracket])
  all_goals rfl

theorem answers_afterOperand (frame : Frame) (frames : List Frame) (e : Expr) :
    Answers before next (afterOperand frame frames e next) := by
  unfold afterOperand
  split
  · rename_i op comparison
    exact ⟨endless.snoc (by simp [comparison]), nofun⟩
  · rename_i p question
    exact endless.snoc (by simp [question])
  · rfl
  · exact answers_afterElement endless next frame frames _

theorem answers_afterExpr (frames : List Frame) (e : Expr) :
    Answers before next (afterExpr frames e next) := by
  cases frames with
  | nil =>
    rw [afterExpr]
    split
    · rename_i finish
      exact ⟨before, next, rfl, finish, endless⟩
    · rfl
  | cons frame frames =>
    rw [afterExpr]
    split
    · exact answers_afterElement endless next frame frames _
    · exact answers_afterOperand endless next frame frames e

theorem answers_afterPath (frames : List Frame) (p : Path) :
    Answers before next (afterPath frames p next) := by
  unfold afterPath
  split
  · rename_i dot
    exact endless.snoc (by simp [dot])
  · rename_i descent
    exact endless.snoc (by simp [descent])
  · rename_i bracket
    exact ⟨endless.snoc (by simp [bracket]), fun _ => ⟨before, next, rfl, .inl bracket⟩⟩
  · exact answers_afterExpr endless next frames _

theorem answers_atSegment (frames : List Frame) (joint : Joint) :
    Answers before next (atSegment frames joint next) := by
  unfold atSegment
  split
  · rename_i this
    exact endless.snoc (by simp [this])
  · rename_i star
    exact endless.snoc (by simp [star])
  · rename_i name
    exact endless.snoc (by simp [name])
  · rename_i name
    exact endless.snoc (by simp [name])
  · rename_i bracket
    exact ⟨endless.snoc (by simp [bracket]), fun _ => ⟨before, next, rfl, .inl bracket⟩⟩
  · rfl

theorem answers_afterDescent (frames : List Frame) (base : Path) :
    Answers before next (afterDescent frames base next) := by
  unfold afterDescent
  split
  · exact answers_afterPath endless next frames _
  · exact answers_atSegment endless next frames _

theorem answers_atOperand (frames : List Frame) :
    Answers before next (atOperand frames next) := by
  unfold atOperand
  split
  · rename_i string
    exact endless.snoc (by simp [string])
  · rename_i number
    exact endless.snoc (by simp [number])
  · rename_i boolean
    exact endless.snoc (by simp [boolean])
  · exact answers_afterPath endless next frames _
  · exact answers_afterPath endless next frames _
  · exact answers_atSegment endless next frames _

theorem answers_atElement (begins : BeginsElement before) (frame : Frame) (frames : List Frame) :
    Answers before next (atElement frame frames next) := by
  unfold atElement
  split
  iterate 3 rfl
  · rename_i colon
    exact endless.snoc (by simp [colon])
  · rename_i value number
    exact ⟨endless.snoc (by simp [number]), before, next, rfl, number, rfl, begins⟩
  · exact answers_atOperand endless next _

theorem answers_atRightSide (frames : List Frame) :
    Answers before next (atRightSide frames next) := by
  unfold atRightSide
  split
  iterate 3 rfl
  exact answers_atOperand endless next frames

theorem answers_afterColon (frame : Frame) (frames : List Frame) (first : Option Int) :
    Answers before next (afterColon frame frames first next) := by
  unfold afterColon
  split
  · rename_i value number
    split
    · exact endless.snoc (by simp [number])
    · rfl
  · exact answers_afterElement endless next frame frames _

/-- Behind a number at the beginning of an element, a colon is refused at the number if this is
no bound. -/
theorem answers_afterNumber (frame : Frame) (frames : List Frame) (value : Double)
    (offset : Nat) :
    Answers before next (afterNumber frame frames value offset next) ∨
      next.token = .punct .colon ∧ sliceBound? value = none ∧
        afterNumber frame frames value offset next = .error ⟨.sliceBound, offset⟩ := by
  unfold afterNumber
  split
  · rename_i colon
    split
    · exact .inl (endless.snoc (by simp [colon]))
    · rename_i no_bound
      exact .inr ⟨colon, no_bound, rfl⟩
  · exact .inl (answers_afterOperand endless next frame frames _)

end

/-- Every state but a complete one stands behind tokens without an end. -/
theorem State.Recalls.endless {state : State} {tokens : List Located}
    (recalls : state.Recalls tokens) (open_ : ∀ e, state ≠ .done e) : Endless tokens := by
  cases state with
  | done e => exact absurd rfl (open_ e)
  | number => exact recalls.1
  | expr frames =>
    cases frames with
    | nil => exact recalls
    | cons => exact recalls.1
  | _ => exact recalls

/-- One token more is recalled or refused where it stands; or it is the colon behind a number
that is no bound. -/
theorem State.answers_step {state : State} {before : List Located}
    (recalls : state.Recalls before) (next : Located) :
    Answers before next (state.step next) ∨
      ∃ frame frames value offset, state = .number frame frames value offset ∧
        next.token = .punct .colon ∧ sliceBound? value = none ∧
        state.step next = .error ⟨.sliceBound, offset⟩ := by
  cases state with
  | done => exact .inl rfl
  | expr frames =>
    left
    have endless := recalls.endless nofun
    cases frames with
    | nil =>
      rw [step, atExpr]
      split
      · rfl
      · exact answers_atOperand endless next []
    | cons frame frames =>
      rw [step, atExpr]
      split
      · exact answers_atRightSide endless next _
      · rename_i fresh
        exact answers_atElement endless next (recalls.2 fresh) frame frames
  | number frame frames value offset =>
    rcases answers_afterNumber recalls.1 next frame frames value offset with answers | refused
    · exact .inl answers
    · exact .inr ⟨frame, frames, value, offset, rfl, refused⟩
  | colon => exact .inl (answers_afterColon recalls next _ _ _)
  | element => exact .inl (answers_afterElement recalls next _ _ _)
  | literal => exact .inl (answers_afterExpr recalls next _ _)
  | segment => exact .inl (answers_atSegment recalls next _ _)
  | descent => exact .inl (answers_afterDescent recalls next _ _)
  | path => exact .inl (answers_afterPath recalls next _ _)

theorem State.recalls_start : (State.expr []).Recalls [] :=
  fun _ member => absurd member List.not_mem_nil

theorem State.recalls_step {state after : State} {before : List Located}
    (recalls : state.Recalls before) {next : Located} (step : state.step next = .ok after) :
    after.Recalls (before ++ [next]) := by
  rcases State.answers_step recalls next with answers | ⟨_, _, _, _, -, -, -, refused⟩
  · rw [step] at answers
    exact answers
  · rw [step] at refused
    cases refused

theorem State.recalls_foldlM (tokens : List Located) {state after : State}
    {before : List Located} (recalls : state.Recalls before)
    (run : tokens.foldlM State.step state = .ok after) : after.Recalls (before ++ tokens) := by
  induction tokens generalizing state before with
  | nil =>
    cases run
    simpa using recalls
  | cons next tokens ih =>
    rw [List.foldlM_cons] at run
    cases step : state.step next with
    | error =>
      rw [step] at run
      cases run
    | ok middle =>
      rw [step] at run
      have whole := ih (State.recalls_step recalls step) run
      simpa using whole

/-- A run that is refused stops at one of its tokens. -/
theorem State.exists_step_of_foldlM (tokens : List Located) {state : State} {error : ParseError}
    (run : tokens.foldlM State.step state = .error error) :
    ∃ taken next rest middle, tokens = taken ++ next :: rest ∧
      taken.foldlM State.step state = .ok middle ∧ middle.step next = .error error := by
  induction tokens generalizing state with
  | nil => cases run
  | cons first tokens ih =>
    rw [List.foldlM_cons] at run
    cases step : state.step first with
    | error =>
      rw [step] at run
      cases run
      exact ⟨[], first, tokens, state, rfl, rfl, step⟩
    | ok after =>
      rw [step] at run
      obtain ⟨taken, next, rest, middle, rfl, taken_run, refused⟩ := ih run
      refine ⟨first :: taken, next, rest, middle, rfl, ?_, refused⟩
      rw [List.foldlM_cons, step]
      exact taken_run

/-! ## Completing an expression -/

/-- Brackets for the subscripts that are still open, and the end. -/
def closing : List Frame → List Token
  | [] => [.finish]
  | _ :: frames => .punct .closeBracket :: closing frames

/-- Tokens that complete the expression: a segment where one must stand, and all brackets. -/
def State.completion : State → List Token
  | .expr frames => .punct .this :: closing frames
  | .number frame frames _ _ => closing (frame :: frames)
  | .colon frame frames _ => closing (frame :: frames)
  | .element frame frames _ => closing (frame :: frames)
  | .literal frames _ => closing frames
  | .segment frames _ => .punct .this :: closing frames
  | .descent frames _ => closing frames
  | .path frames _ => closing frames
  | .done _ => []

/-- The whole expression has been read. -/
def State.IsDone (state : State) : Prop := ∃ e, state = .done e

/-- A bracket closes the innermost subscript, whatever its last element is. -/
theorem afterExpr_closeBracket (frame : Frame) (frames : List Frame) (e : Expr) (offset : Nat) :
    ∃ p, afterExpr (frame :: frames) e ⟨.punct .closeBracket, offset⟩ = .ok (.path frames p) := by
  cases left : frame.left with
  | some sides => exact ⟨_, by rw [afterExpr, left]; rfl⟩
  | none => exact ⟨_, by rw [afterExpr, left]; rfl⟩

theorem reads_closing_completes {frames : List Frame} {e : Expr} {state : State}
    (completes : Completes frames e state) : Reads state (closing frames) State.IsDone := by
  induction frames generalizing state e with
  | nil =>
    refine reads_cons fun offset => ⟨.done e, ?_, reads_nil ⟨e, rfl⟩⟩
    rw [completes ⟨_, offset⟩ .finish]
    rfl
  | cons frame frames ih =>
    refine reads_cons fun offset => ?_
    obtain ⟨p, closed⟩ := afterExpr_closeBracket frame frames e offset
    refine ⟨.path frames p, ?_, ih (completes_path frames p)⟩
    rw [completes ⟨_, offset⟩ .closeBracket, closed]

theorem reads_closing_closes {frame : Frame} {frames : List Frame} {element : Element}
    {state : State} (closes : Closes frame frames element state) :
    Reads state (closing (frame :: frames)) State.IsDone := by
  refine reads_cons fun offset => ⟨.path frames (frame.close element), ?_,
    reads_closing_completes (completes_path frames _)⟩
  rw [closes ⟨_, offset⟩ (.inr rfl)]
  rfl

theorem reads_closing_awaits {frames : List Frame} {joint : Joint} {state : State}
    (awaits : Awaits frames joint [.punct .this] state) :
    Reads state (.punct .this :: closing frames) State.IsDone := by
  refine reads_cons fun offset => ⟨.path frames (joint.attach .this), ?_,
    reads_closing_completes (completes_path frames _)⟩
  rw [awaits ⟨_, offset⟩ rfl]
  rfl

/-- A number that may be a bound is an element if no colon follows. -/
theorem closes_number (frame : Frame) (frames : List Frame) (value : Double) (offset : Nat) :
    Closes frame frames (.expr (.number value)) (.number frame frames value offset) := by
  rintro ⟨_, _⟩ (rfl | rfl) <;> rfl

theorem closes_colon (frame : Frame) (frames : List Frame) (first : Option Int) :
    Closes frame frames (.slice first none) (.colon frame frames first) := by
  rintro ⟨_, _⟩ (rfl | rfl) <;> rfl

/-- From every state some tokens complete the expression. -/
theorem State.reads_completion (state : State) : Reads state state.completion State.IsDone := by
  cases state with
  | expr frames => exact reads_closing_awaits (awaits_expr frames .this)
  | number => exact reads_closing_closes (closes_number _ _ _ _)
  | colon => exact reads_closing_closes (closes_colon _ _ _)
  | element => exact reads_closing_closes fun _ _ => rfl
  | literal => exact reads_closing_completes fun _ _ => rfl
  | segment frames joint => exact reads_closing_awaits (awaits_segment frames joint _)
  | descent frames base => exact reads_closing_completes (completes_descent frames base)
  | path frames p => exact reads_closing_completes (completes_path frames p)
  | done e => exact reads_nil ⟨e, rfl⟩

/-! ## Viable sequences -/

/-- The reader takes a sequence exactly if some expression begins with it. -/
theorem viable_iff {tokens : List Located} :
    Viable tokens ↔ ∃ state, tokens.foldlM State.step (.expr []) = .ok state := by
  constructor
  · rintro ⟨more, e, read⟩
    rw [Expr.ofTokens, State.read, List.foldlM_append] at read
    cases run : tokens.foldlM State.step (.expr []) with
    | error =>
      rw [run] at read
      cases read
    | ok state => exact ⟨state, rfl⟩
  · rintro ⟨state, run⟩
    let more : List Located := state.completion.map fun token => ⟨token, 0⟩
    have spelled : more.map Located.token = state.completion := by
      simp [more, Function.comp_def]
    obtain ⟨_, completed, e, rfl⟩ := state.reads_completion more spelled
    refine ⟨more, e, ?_⟩
    rw [Expr.ofTokens, State.read, List.foldlM_append, run]
    change (more.foldlM State.step state >>= State.result) = _
    rw [completed]
    rfl

/-- Behind a refused token nothing helps. -/
theorem not_viable_of_step {tokens : List Located} {state : State}
    (run : tokens.foldlM State.step (.expr []) = .ok state) {next : Located} {error : ParseError}
    (refused : state.step next = .error error) : ¬ Viable (tokens ++ [next]) := by
  rw [viable_iff]
  rintro ⟨after, taken⟩
  rw [List.foldlM_append, run] at taken
  change [next].foldlM State.step state = _ at taken
  rw [List.foldlM_cons, refused] at taken
  cases taken

/-- What the reader accepts ends with its only end. -/
theorem Expr.endsOnce_of_ofTokens {tokens : List Located} {e : Expr}
    (read : Expr.ofTokens tokens = .ok e) : EndsOnce tokens := by
  rw [ofTokens, State.read] at read
  cases run : tokens.foldlM State.step (.expr []) with
  | error =>
    rw [run] at read
    cases read
  | ok after =>
    rw [run] at read
    have recalls := State.recalls_foldlM tokens State.recalls_start run
    cases after <;> cases read
    exact recalls

/-- A number at the beginning of an element that is no integer of the range of bounds, with the
colon behind it that would make it one: it is the colon that rules every expression out. -/
def FalseBound (before : List Located) (number : Located) (after : List Located) : Prop :=
  ∃ value colon rest, number.token = .number value ∧
    (∀ n : Int, value.toInt? = some n → ¬ (-2 ^ 63 ≤ n ∧ n < 2 ^ 63)) ∧
    BeginsElement before ∧ after = colon :: rest ∧ colon.token = .punct .colon ∧
    Viable (before ++ [number]) ∧ ¬ Viable (before ++ [number, colon])

/-- An error has the offset of the first token that rules every expression out: some expression
begins with the tokens before it, and none with those up to it.  The exception is a number in
front of a colon that is no bound, which is reported although only the colon rules it out. -/
theorem Expr.refused_at {tokens : List Located} (ends : EndsOnce tokens) {error : ParseError}
    (refused : Expr.ofTokens tokens = .error error) :
    ∃ before next after, tokens = before ++ next :: after ∧ error.offset = next.offset ∧
      Viable before ∧ (¬ Viable (before ++ [next]) ∨ FalseBound before next after) := by
  rw [ofTokens, State.read] at refused
  cases whole : tokens.foldlM State.step (.expr []) with
  | ok after =>
    -- All tokens are taken, and the end among them leaves nothing to wait for.
    rw [whole] at refused
    have recalls := State.recalls_foldlM tokens State.recalls_start whole
    by_cases done : ∃ e, after = .done e
    · obtain ⟨e, rfl⟩ := done
      cases refused
    · have endless := recalls.endless fun e eq => done ⟨e, eq⟩
      exact absurd endless ends.not_endless
  | error =>
    rw [whole] at refused
    cases refused
    obtain ⟨taken, next, rest, middle, rfl, run, step⟩ := State.exists_step_of_foldlM tokens whole
    have recalls := State.recalls_foldlM taken State.recalls_start run
    have impossible := not_viable_of_step run step
    rcases State.answers_step recalls next with answers |
      ⟨frame, frames, value, offset, rfl, colon, no_bound, at_number⟩
    · rw [step] at answers
      exact ⟨taken, next, rest, rfl, answers, viable_iff.2 ⟨middle, run⟩, .inl impossible⟩
    · -- The colon is refused; the number before it is where the error points.
      obtain ⟨-, before, number, eq, token, rfl, begins⟩ := recalls
      obtain rfl : taken = before ++ [number] := eq
      have viable := viable_iff.2 ⟨_, run⟩
      rw [step] at at_number
      cases at_number
      refine ⟨before, number, next :: rest, by simp, rfl, viable.of_append, .inr ?_⟩
      refine ⟨value, next, rest, token, ?_, begins, rfl, colon, viable, by simpa using impossible⟩
      rintro n integral ⟨least, greatest⟩
      have bound := sliceBound?_eq_some.2 (.number integral least greatest)
      rw [no_bound] at bound
      cases bound

/-- Where no two tokens have one offset, the offset says which token it is. -/
theorem split_eq_of_offset {before taken after rest : List Located} {one two : Located}
    (eq : before ++ one :: after = taken ++ two :: rest)
    (distinct : ((before ++ one :: after).map Located.offset).Nodup)
    (same : one.offset = two.offset) : before = taken ∧ one = two ∧ after = rest := by
  rw [List.map_append, List.map_cons, List.nodup_append, List.nodup_cons] at distinct
  obtain ⟨-, ⟨behind, -⟩, apart⟩ := distinct
  have not_before : two ∉ before := fun member =>
    apart _ (List.mem_map_of_mem member) _ List.mem_cons_self same.symm
  have not_after : two ∉ after := by
    rw [same] at behind
    exact fun member => behind (List.mem_map_of_mem member)
  exact (List.append_cons_inj_of_notMem not_before not_after).1 eq

/-- `a[b ==]` is refused at the bracket, which no right side begins with; `a[1.5:]` at the number,
with which an element may begin, but no slice. -/
theorem Expr.refused_at_mark_and_number :
    let value := Double.ofDecimal false ⟨15, -1⟩
    let begun : List Located := [⟨.name "a", 0⟩, ⟨.punct .openBracket, 1⟩]
    let left : List Located := [⟨.name "b", 2⟩, ⟨.comparison .eq, 4⟩]
    let number : Located := ⟨.number value, 2⟩
    let colon : Located := ⟨.punct .colon, 5⟩
    let mark : Located := ⟨.punct .closeBracket, 6⟩
    let finish : Located := ⟨.finish, 7⟩
    let one := begun ++ left ++ mark :: [finish]
    let two := begun ++ number :: [colon, mark, finish]
    (EndsOnce one ∧ Expr.ofTokens one = .error ⟨.incompleteComparison, 6⟩ ∧
      Viable (begun ++ left) ∧ ¬ Viable (begun ++ left ++ [mark])) ∧
    EndsOnce two ∧ Expr.ofTokens two = .error ⟨.sliceBound, 2⟩ ∧
      FalseBound begun number [colon, mark, finish] := by
  intro value begun left number colon mark finish one two
  have no_bound : sliceBound? value = none := by decide +kernel
  clear_value value
  have ends_one : EndsOnce one :=
    ⟨begun ++ left ++ [mark], finish, rfl, rfl, by simp [Endless, begun, left, mark]⟩
  have ends_two : EndsOnce two :=
    ⟨begun ++ [number, colon, mark], finish, rfl, rfl,
      by simp [Endless, begun, number, colon, mark]⟩
  have refused_one : Expr.ofTokens one = .error ⟨.incompleteComparison, 6⟩ := rfl
  have refused_two : Expr.ofTokens two = .error ⟨.sliceBound, 2⟩ := by
    change afterNumber _ [] value 2 colon >>= _ >>= _ = _
    rw [afterNumber, no_bound]
    rfl
  refine ⟨⟨ends_one, refused_one, ?_⟩, ends_two, refused_two, ?_⟩
  · obtain ⟨before, next, after, eq, at_mark, viable, impossible⟩ :=
      Expr.refused_at ends_one refused_one
    obtain ⟨rfl, rfl, rfl⟩ := split_eq_of_offset eq
      (by decide : [0, 1, 2, 4, 6, 7].Nodup) at_mark
    rcases impossible with impossible | ⟨_, _, _, token, -⟩
    · exact ⟨viable, impossible⟩
    · cases token
  · obtain ⟨before, next, after, eq, at_number, -, impossible⟩ :=
      Expr.refused_at ends_two refused_two
    obtain ⟨rfl, rfl, rfl⟩ := split_eq_of_offset eq
      (by decide : [0, 1, 2, 5, 6, 7].Nodup) at_number
    rcases impossible with impossible | false_bound
    · exact absurd (viable_iff.2 ⟨_, rfl⟩) impossible
    · exact false_bound

end JsonQuery

/-
# JsonQuery.Proofs.Expr.Tokens -- the tokens of a canonical form

`Expr.tokens` are the tokens that the canonical form of a tree is made of, one for
each mark, name and literal in the order of writing.  The canonical form of a
regular tree scans to exactly these (`Expr.spells_chars`): no two neighbours run
together, because what stands behind a name or a number is always a mark.
-/
import JsonQuery.Proofs.Expr.Regular
import JsonQuery.Proofs.Token.Spelling

namespace JsonQuery

set_option autoImplicit false

/-! ## Tokens of a tree -/

def boundTokens : Option Int → List Token
  | some bound => [.number (.ofDigits bound)]
  | none => []

/-- The mark before a segment that follows another step. -/
def stepTokens (recursive : Bool) : Segment → List Token
  | .subscript _ => if recursive then [.punct .descent] else []
  | _ => if recursive then [.punct .descent] else [.punct .dot]

mutual

def Expr.tokens : Expr → List Token
  | .number value => [.number value]
  | .string value => [.string value]
  | .boolean value => [.boolean value]
  | .path p => p.tokens

def Path.tokens : Path → List Token
  | .start recursive segment => (if recursive then [.punct .descent] else []) ++ segment.tokens
  | .step base recursive segment =>
      base.tokens ++ stepTokens recursive segment ++ segment.tokens

def Segment.tokens : Segment → List Token
  | .this => [.punct .this]
  | .field name => [.ofField name]
  | .wildcard => [.punct .star]
  | .subscript elements =>
      .punct .openBracket :: Element.tokensAll elements ++ [.punct .closeBracket]

def Element.tokens : Element → List Token
  | .slice first last => boundTokens first ++ .punct .colon :: boundTokens last
  | .filter left op right => left.tokens ++ .comparison op :: right.tokens
  | .existence p => p.tokens ++ [.punct .question]
  | .expr e => e.tokens

def Element.tokensAll : List Element → List Token
  | [] => []
  | [element] => element.tokens
  | element :: next :: rest => element.tokens ++ .punct .comma :: Element.tokensAll (next :: rest)

end

/-! ## How a canonical form begins -/

theorem nameChars_eq_cons (name : String) :
    ∃ c tail, nameChars name = c :: tail ∧ (isNameStart c ∨ c = '\'') := by
  unfold nameChars
  split
  · rename_i bare
    obtain ⟨first, more, letters, starts, -⟩ := isBareName_iff.1 bare
    exact ⟨first, more, letters, .inl starts⟩
  · exact ⟨'\'', _, rfl, .inr rfl⟩

/-- A segment begins with no point, digit or `=`. -/
theorem Segment.chars_eq_cons (segment : Segment) :
    ∃ c tail, segment.chars = c :: tail ∧ c ≠ '.' ∧ c.isDigit = false ∧ c ≠ '=' := by
  cases segment with
  | this => exact ⟨'@', [], by simp [chars]⟩
  | wildcard => exact ⟨'*', [], by simp [chars]⟩
  | subscript elements => exact ⟨'[', _, by rw [chars]; rfl, by decide⟩
  | field name =>
    obtain ⟨c, tail, eq, start⟩ := nameChars_eq_cons name
    refine ⟨c, tail, by rw [chars, eq], ?_⟩
    rcases start with start | rfl
    · refine ⟨?_, by simpa using not_isDigit_of_isNameStart start, ?_⟩ <;> rintro rfl <;>
        cases start
    · decide

theorem Path.chars_eq_cons : (p : Path) → ∃ c tail, p.chars = c :: tail ∧ c ≠ '='
  | .start true segment => ⟨'.', '.' :: segment.chars, by simp [chars], by decide⟩
  | .start false segment => by
      obtain ⟨c, tail, eq, -, -, other⟩ := segment.chars_eq_cons
      exact ⟨c, tail, by simp [chars, eq], other⟩
  | .step base recursive segment => by
      obtain ⟨c, tail, eq, other⟩ := base.chars_eq_cons
      exact ⟨c, _, by rw [chars, eq, List.cons_append, List.cons_append], other⟩

/-- A finite value begins with a digit or a minus sign. -/
theorem Double.chars_eq_cons {x : Double} (finite : x.isFinite) :
    ∃ c tail, x.chars = c :: tail ∧ (c = '-' ∨ c.isDigit) := by
  cases x with
  | nan | infinite => cases finite
  | finite negative magnitude =>
    obtain ⟨_, whole, fraction, spelled, -⟩ :=
      Decimal.spelled_positional magnitude.magnitude?_shortest
    obtain ⟨d, more, rfl⟩ := List.exists_cons_of_ne_nil spelled.whole_ne_nil
    cases negative with
    | true => exact ⟨'-', _, rfl, .inl rfl⟩
    | false => exact ⟨d, _, spelled.text_eq, .inr (spelled.whole_digits d List.mem_cons_self)⟩

theorem Expr.chars_ne_equals (e : Expr) (rest tail : List Char) (regular : e.Regular) :
    e.chars ++ rest ≠ '=' :: tail := by
  suffices h : ∃ c tail, e.chars = c :: tail ∧ c ≠ '=' by
    obtain ⟨c, more, eq, other⟩ := h
    rw [eq]
    simp [other]
  cases e with
  | string value => exact ⟨'"', _, by rw [chars]; rfl, by decide⟩
  | boolean value => cases value <;> exact ⟨_, _, by rw [chars], by decide⟩
  | path p =>
    obtain ⟨c, tail, eq, other⟩ := p.chars_eq_cons
    exact ⟨c, tail, by rw [chars, eq], other⟩
  | number value =>
    rw [Expr.Regular] at regular
    obtain ⟨c, tail, eq, start⟩ := Double.chars_eq_cons regular
    refine ⟨c, tail, by rw [chars, eq], ?_⟩
    rintro rfl
    simp [Char.isDigit] at start

/-! ## Scanning -/

theorem detached_stepMark (recursive : Bool) (segment : Segment) (rest : List Char) :
    Detached (stepMark recursive segment ++ (segment.chars ++ rest)) := by
  obtain ⟨c, tail, eq, point, digit, -⟩ := segment.chars_eq_cons
  cases recursive with
  | true => cases segment <;> exact detached_point _ rfl
  | false =>
    cases segment with
    | subscript => exact detached_cons _ rfl (by decide)
    | _ => exact eq ▸ detached_point _ digit

/-- The mark before a segment is a token of its own, or nothing. -/
theorem spells_stepMark (recursive : Bool) (segment : Segment) {rest : List Char}
    {tokens : List Token} (spells : Spells (segment.chars ++ rest) tokens) :
    Spells (stepMark recursive segment ++ (segment.chars ++ rest))
      (stepTokens recursive segment ++ tokens) := by
  obtain ⟨c, tail, eq, point, -, -⟩ := segment.chars_eq_cons
  have apart : ∀ more, segment.chars ++ rest ≠ '.' :: more := by
    rw [eq]
    simp [point]
  cases recursive with
  | true => cases segment <;> exact spells_cons (begins_descent _) spells
  | false =>
    cases segment with
    | subscript => exact spells
    | _ => exact spells_cons (begins_dot apart) spells

theorem spells_boundChars {bound : Option Int} (regular : ∀ n ∈ bound, IsBound n)
    {rest : List Char} (detached : Detached rest) {tokens : List Token}
    (spells : Spells rest tokens) :
    Spells (boundChars bound ++ rest) (boundTokens bound ++ tokens) := by
  cases bound with
  | none => exact spells
  | some n =>
    obtain ⟨x, denotes⟩ := (regular n rfl).exact
    exact spells_cons (begins_intChars denotes detached) spells

mutual

/-- The canonical form of a regular tree scans to the tokens of the tree. -/
theorem Expr.spells_chars : (e : Expr) → e.Regular → {rest : List Char} → {tokens : List Token} →
    Detached rest → Spells rest tokens → Spells (e.chars ++ rest) (e.tokens ++ tokens)
  | .number value, regular, rest, tokens, detached, spells => by
      rw [Expr.Regular] at regular
      exact spells_cons (begins_double regular detached) spells
  | .string value, _, rest, tokens, _, spells => spells_cons (begins_string value rest) spells
  | .boolean value, _, rest, tokens, detached, spells =>
      spells_cons (begins_boolean value detached) spells
  | .path p, regular, rest, tokens, detached, spells => by
      rw [Expr.Regular] at regular
      exact p.spells_chars regular detached spells

theorem Path.spells_chars : (p : Path) → p.Regular → {rest : List Char} → {tokens : List Token} →
    Detached rest → Spells rest tokens → Spells (p.chars ++ rest) (p.tokens ++ tokens)
  | .start recursive segment, regular, rest, tokens, detached, spells => by
      rw [Path.Regular] at regular
      obtain ⟨rfl, regular⟩ := regular
      exact segment.spells_chars regular detached spells
  | .step base recursive segment, regular, rest, tokens, detached, spells => by
      rw [Path.Regular] at regular
      have behind := spells_stepMark recursive segment
        (segment.spells_chars regular.2 detached spells)
      have whole := base.spells_chars regular.1 (detached_stepMark recursive segment rest) behind
      simpa only [Path.chars, Path.tokens, List.append_assoc] using whole

theorem Segment.spells_chars : (s : Segment) → s.Regular → {rest : List Char} →
    {tokens : List Token} → Detached rest → Spells rest tokens →
      Spells (s.chars ++ rest) (s.tokens ++ tokens)
  | .this, _, rest, tokens, _, spells => spells_cons (begins_mark .this rfl rest) spells
  | .wildcard, _, rest, tokens, _, spells => spells_cons (begins_mark .star rfl rest) spells
  | .field name, _, rest, tokens, detached, spells => spells_cons (begins_name name detached) spells
  | .subscript elements, regular, rest, tokens, _, spells => by
      rw [Segment.Regular] at regular
      have closed := spells_cons (begins_mark .closeBracket rfl rest) spells
      have inside := Element.spells_charsAll elements regular.2
        (detached_cons rest rfl (by decide)) closed
      have whole := spells_cons (begins_mark .openBracket rfl _) inside
      simpa [Segment.chars, Segment.tokens] using whole

theorem Element.spells_chars : (e : Element) → e.Regular → {rest : List Char} →
    {tokens : List Token} → Detached rest → Spells rest tokens →
      Spells (e.chars ++ rest) (e.tokens ++ tokens)
  | .slice first last, regular, rest, tokens, detached, spells => by
      rw [Element.Regular] at regular
      have behind := spells_cons (begins_mark .colon rfl _)
        (spells_boundChars regular.2 detached spells)
      have whole := spells_boundChars regular.1 (detached_cons _ rfl (by decide)) behind
      simpa [Element.chars, Element.tokens] using whole
  | .filter left op right, regular, rest, tokens, detached, spells => by
      rw [Element.Regular] at regular
      have behind := spells_cons
        (begins_comparison op fun tail => right.chars_ne_equals rest tail regular.2)
        (right.spells_chars regular.2 detached spells)
      have stop : Detached (op.chars ++ (right.chars ++ rest)) := by
        cases op <;> exact detached_cons _ rfl (by decide)
      have whole := left.spells_chars regular.1 stop behind
      simpa [Element.chars, Element.tokens] using whole
  | .existence p, regular, rest, tokens, _, spells => by
      rw [Element.Regular] at regular
      have whole := p.spells_chars regular (detached_cons rest rfl (by decide))
        (spells_cons (begins_mark .question rfl rest) spells)
      simpa [Element.chars, Element.tokens] using whole
  | .expr e, regular, rest, tokens, detached, spells => by
      rw [Element.Regular] at regular
      exact e.spells_chars regular detached spells

theorem Element.spells_charsAll : (elements : List Element) → Element.RegularAll elements →
    {rest : List Char} → {tokens : List Token} → Detached rest → Spells rest tokens →
      Spells (Element.charsAll elements ++ rest) (Element.tokensAll elements ++ tokens)
  | [], _, rest, tokens, _, spells => spells
  | [element], regular, rest, tokens, detached, spells => by
      rw [Element.RegularAll] at regular
      exact element.spells_chars regular.1 detached spells
  | element :: next :: more, regular, rest, tokens, detached, spells => by
      rw [Element.RegularAll] at regular
      have behind := spells_cons (begins_mark .comma rfl _)
        (Element.spells_charsAll (next :: more) regular.2 detached spells)
      have whole := element.spells_chars regular.1 (detached_cons _ rfl (by decide)) behind
      simpa [Element.charsAll, Element.tokensAll] using whole

end

end JsonQuery

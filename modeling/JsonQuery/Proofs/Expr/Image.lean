/-
# JsonQuery.Proofs.Expr.Image -- what is read is regular

No token of a text carries an infinite number, and the grammar has only what regular
trees are made of: a first step is never recursive, a subscript has an element, a bound is
integral and has 64 bits (`Expr.regular_of_spelling`).  What is read is spelled by its
tokens, so every tree that a text spells is regular (`Expr.regular_of_parse`).
-/
import JsonQuery.Proofs.Expr.Reached
import JsonQuery.Proofs.Token.Lexed

namespace JsonQuery

set_option autoImplicit false

mutual

/-- A tree that tokens without infinite numbers spell is regular. -/
theorem Expr.regular_of_spelling : (e : Expr) → {tokens : List Token} → {next : Token} →
    e.Spelling tokens next → (∀ token ∈ tokens, token.Finite) → e.Regular
  | .number value, _, _, .number _ _, finite =>
      Token.finite_number.1 (finite (.number value) List.mem_cons_self)
  | .string _, _, _, .string _ _, _ => trivial
  | .boolean _, _, _, .boolean _ _, _ => trivial
  | .path p, _, _, .path path, finite => p.regular_of_spelling path finite

theorem Path.regular_of_spelling : (p : Path) → {tokens : List Token} → {next : Token} →
    p.Spelling tokens next → (∀ token ∈ tokens, token.Finite) → p.Regular
  | p, _, _, .steps steps _ _, finite => p.regular_of_steps steps finite
  | .step base true .wildcard, _, _, .bare steps _, finite =>
      ⟨base.regular_of_steps steps (List.forall_mem_append.1 finite).1, trivial⟩

theorem Path.regular_of_steps : (p : Path) → {tokens : List Token} → p.Steps tokens →
    (∀ token ∈ tokens, token.Finite) → p.Regular
  | _, _, .nothing, _ => ⟨rfl, trivial⟩
  | .start false segment, _, .first first, finite =>
      ⟨rfl, segment.regular_of_spelling first finite⟩
  | .step base _ segment, _, .dot steps spelling, finite
  | .step base _ segment, _, .descent steps spelling, finite => by
      obtain ⟨before, behind⟩ := List.forall_mem_append.1 finite
      exact ⟨base.regular_of_steps steps before,
        segment.regular_of_spelling spelling (List.forall_mem_cons.1 behind).2⟩
  | .step base _ (.subscript elements), _, .direct steps _ spelling, finite => by
      obtain ⟨before, behind⟩ := List.forall_mem_append.1 finite
      exact ⟨base.regular_of_steps steps before,
        (Segment.subscript elements).regular_of_spelling spelling behind⟩

theorem Segment.regular_of_spelling : (s : Segment) → {tokens : List Token} →
    s.Spelling tokens → (∀ token ∈ tokens, token.Finite) → s.Regular
  | .this, _, _, _ | .wildcard, _, _, _ | .field _, _, _, _ => trivial
  | .subscript elements, _, .subscript inner, finite => by
      obtain ⟨-, behind⟩ := List.forall_mem_cons.1 finite
      exact Element.regularAll_of_spellingAll elements inner (List.forall_mem_append.1 behind).1

theorem Element.regular_of_spelling : (e : Element) → {tokens : List Token} → {next : Token} →
    e.Spelling tokens next → (∀ token ∈ tokens, token.Finite) → e.Regular
  | .slice _ _, _, _, .slice lower upper _, _ => ⟨lower.isBound, upper.isBound⟩
  | .filter left _ right, _, _, .filter one two, finite => by
      obtain ⟨before, behind⟩ := List.forall_mem_append.1 finite
      exact ⟨left.regular_of_spelling one before,
        right.regular_of_spelling two (List.forall_mem_cons.1 behind).2⟩
  | .existence p, _, _, .existence path _, finite =>
      p.regular_of_spelling path (List.forall_mem_append.1 finite).1
  | .expr e, _, _, .expr spelling, finite => e.regular_of_spelling spelling finite

theorem Element.regularAll_of_spellingAll : (elements : List Element) → {tokens : List Token} →
    Element.SpellingAll elements tokens → (∀ token ∈ tokens, token.Finite) →
      elements ≠ [] ∧ Element.RegularAll elements
  | [element], _, .last last, finite =>
      ⟨List.cons_ne_nil _ _, element.regular_of_spelling last finite, trivial⟩
  | element :: rest, _, .more first others, finite => by
      obtain ⟨before, behind⟩ := List.forall_mem_append.1 finite
      obtain ⟨-, behind⟩ := List.forall_mem_cons.1 behind
      have regular := Element.regularAll_of_spellingAll rest others behind
      exact ⟨List.cons_ne_nil _ _, element.regular_of_spelling first before, regular.2⟩

end

theorem Expr.regular_of_ofTokens {located : List Located} {e : Expr}
    (finite : ∀ next ∈ located, next.token.Finite) (read : Expr.ofTokens located = .ok e) :
    e.Regular := by
  obtain ⟨tokens, eq, spelling⟩ := Expr.spelling_of_ofTokens read
  have all : ∀ token ∈ located.map Located.token, token.Finite := List.forall_mem_map.2 finite
  rw [eq] at all
  exact e.regular_of_spelling spelling (List.forall_mem_append.1 all).1

/-- Every tree that a text spells is regular. -/
theorem Expr.regular_of_parse {text : String} {e : Expr} (parsed : Expr.parse text = .ok e) :
    e.Regular := by
  unfold parse at parsed
  split at parsed
  · cases parsed
  · rename_i tokenized
    split at parsed
    · cases parsed
    · rename_i read
      cases parsed
      exact Expr.regular_of_ofTokens (finite_of_tokenize tokenized) read

end JsonQuery

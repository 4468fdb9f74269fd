/-
# JsonQuery.Proofs.Expr.Grammar -- which tokens spell a tree

The grammar of expressions, apart from the reader: `Expr.Spelling` relates a tree to the
tokens that spell it and to the token behind them.  The token behind matters in one place.
A bare `..` stands for a recursive step to everything; it is the last step of its path, and
a token that cannot go on a path has to follow (`Token.Ends`).

Regular trees are spelled by their own tokens (`Expr.spelling_tokens`).
-/
import Mathlib.Algebra.Group.Int.Defs
import JsonQuery.Proofs.Expr.Tokens

namespace JsonQuery

set_option autoImplicit false

/-! ## The grammar -/

/-- A token behind a path. -/
inductive Token.Ends : Token → Prop
  | finish : Token.Ends .finish
  | comparison (op : Comparison) : Token.Ends (.comparison op)
  | closeBracket : Token.Ends (.punct .closeBracket)
  | comma : Token.Ends (.punct .comma)
  | question : Token.Ends (.punct .question)

/-- A bound of a slice: none, or a number that is integral and has 64 bits. -/
inductive BoundSpelling : Option Int → List Token → Prop
  | missing : BoundSpelling none []
  | number {value : Double} {n : Int} (integral : value.toInt? = some n) (lower : -2 ^ 63 ≤ n)
      (upper : n < 2 ^ 63) : BoundSpelling (some n) [.number value]

mutual

/-- A literal or a path. -/
inductive Expr.Spelling : Expr → List Token → Token → Prop
  | number (value : Double) (next : Token) :
      Expr.Spelling (.number value) [.number value] next
  | string (value : String) (next : Token) :
      Expr.Spelling (.string value) [.string value] next
  | boolean (value : Bool) (next : Token) :
      Expr.Spelling (.boolean value) [.boolean value] next
  | path {p : Path} {tokens : List Token} {next : Token} (path : p.Spelling tokens next) :
      Expr.Spelling (.path p) tokens next

/-- Some steps, or any number of them and a bare `..`. -/
inductive Path.Spelling : Path → List Token → Token → Prop
  | steps {p : Path} {tokens : List Token} (steps : p.Steps tokens) (nonempty : tokens ≠ [])
      (next : Token) : Path.Spelling p tokens next
  | bare {p : Path} {tokens : List Token} {next : Token} (steps : p.Steps tokens)
      (ends : next.Ends) :
      Path.Spelling (.step p true .wildcard) (tokens ++ [.punct .descent]) next

/-- The beginning of a path: a first segment, or nothing in front of `.` and `..`, and behind
it any number of segments, each with its mark.  A subscript needs no mark. -/
inductive Path.Steps : Path → List Token → Prop
  | nothing : Path.Steps (.start false .this) []
  | first {segment : Segment} {tokens : List Token} (first : segment.Spelling tokens) :
      Path.Steps (.start false segment) tokens
  | dot {base : Path} {segment : Segment} {before tokens : List Token}
      (steps : base.Steps before) (segment_spelling : segment.Spelling tokens) :
      Path.Steps (.step base false segment) (before ++ .punct .dot :: tokens)
  | descent {base : Path} {segment : Segment} {before tokens : List Token}
      (steps : base.Steps before) (segment_spelling : segment.Spelling tokens) :
      Path.Steps (.step base true segment) (before ++ .punct .descent :: tokens)
  | direct {base : Path} {elements : List Element} {before tokens : List Token}
      (steps : base.Steps before) (nonempty : before ≠ [])
      (subscript : Segment.Spelling (.subscript elements) tokens) :
      Path.Steps (.step base false (.subscript elements)) (before ++ tokens)

/-- `@`, `*`, a name of either kind, or elements in brackets. -/
inductive Segment.Spelling : Segment → List Token → Prop
  | this : Segment.Spelling .this [.punct .this]
  | wildcard : Segment.Spelling .wildcard [.punct .star]
  | name (name : String) : Segment.Spelling (.field name) [.name name]
  | quotedName (name : String) : Segment.Spelling (.field name) [.quotedName name]
  | subscript {elements : List Element} {tokens : List Token}
      (inner : Element.SpellingAll elements tokens) :
      Segment.Spelling (.subscript elements)
        (.punct .openBracket :: tokens ++ [.punct .closeBracket])

/-- A slice, a comparison of two expressions, a path and `?`, or an expression. -/
inductive Element.Spelling : Element → List Token → Token → Prop
  | slice {first last : Option Int} {lower upper : List Token}
      (lower_spelling : BoundSpelling first lower) (upper_spelling : BoundSpelling last upper)
      (next : Token) :
      Element.Spelling (.slice first last) (lower ++ .punct .colon :: upper) next
  | filter {left right : Expr} {op : Comparison} {one two : List Token} {next : Token}
      (left_spelling : left.Spelling one (.comparison op))
      (right_spelling : right.Spelling two next) :
      Element.Spelling (.filter left op right) (one ++ .comparison op :: two) next
  | existence {p : Path} {tokens : List Token} (path : p.Spelling tokens (.punct .question))
      (next : Token) :
      Element.Spelling (.existence p) (tokens ++ [.punct .question]) next
  | expr {e : Expr} {tokens : List Token} {next : Token} (expr : e.Spelling tokens next) :
      Element.Spelling (.expr e) tokens next

/-- One or more elements with commas between them, in front of a closing bracket. -/
inductive Element.SpellingAll : List Element → List Token → Prop
  | last {element : Element} {tokens : List Token}
      (last : element.Spelling tokens (.punct .closeBracket)) :
      Element.SpellingAll [element] tokens
  | more {element : Element} {others : List Element} {tokens rest : List Token}
      (first : element.Spelling tokens (.punct .comma))
      (others_spelling : Element.SpellingAll others rest) :
      Element.SpellingAll (element :: others) (tokens ++ .punct .comma :: rest)

end

/-! ## What a spelling is made of -/

theorem BoundSpelling.isBound {bound : Option Int} {tokens : List Token}
    (spelling : BoundSpelling bound tokens) : ∀ n ∈ bound, IsBound n := by
  cases spelling with
  | missing => exact nofun
  | @number value n integral lower upper =>
    rintro _ ⟨⟩
    have least : Int64.minValue.toInt = -2 ^ 63 := by decide
    have greatest : Int64.maxValue.toInt = 2 ^ 63 - 1 := by decide
    exact ⟨by omega, by omega, value, integral⟩

/-- A token with which a segment begins. -/
inductive Token.BeginsSegment : Token → Prop
  | this : Token.BeginsSegment (.punct .this)
  | star : Token.BeginsSegment (.punct .star)
  | name (name : String) : Token.BeginsSegment (.name name)
  | quotedName (name : String) : Token.BeginsSegment (.quotedName name)
  | openBracket : Token.BeginsSegment (.punct .openBracket)

theorem Segment.Spelling.begins {segment : Segment} {tokens : List Token}
    (spelling : segment.Spelling tokens) :
    ∃ first rest, tokens = first :: rest ∧ first.BeginsSegment := by
  cases spelling with
  | this => exact ⟨_, _, rfl, .this⟩
  | wildcard => exact ⟨_, _, rfl, .star⟩
  | name name => exact ⟨_, _, rfl, .name name⟩
  | quotedName name => exact ⟨_, _, rfl, .quotedName name⟩
  | subscript => exact ⟨_, _, rfl, .openBracket⟩

/-- A path that begins with nothing, and so far consists of nothing, is `@`. -/
theorem Path.eq_this_of_steps {p : Path} {tokens : List Token} (steps : p.Steps tokens)
    (nothing : tokens = []) : p = .this := by
  cases steps with
  | nothing => rfl
  | first first =>
    obtain ⟨_, _, rfl, -⟩ := first.begins
    cases nothing
  | dot | descent => simp at nothing
  | direct _ nonempty => simp [nonempty] at nothing

/-! ## Regular trees -/

theorem boundSpelling_tokens {bound : Option Int} (regular : ∀ n ∈ bound, IsBound n) :
    BoundSpelling bound (boundTokens bound) := by
  cases bound with
  | none => exact .missing
  | some n =>
    obtain ⟨lower, upper, x, denotes⟩ := regular n rfl
    have least : Int64.minValue.toInt = -2 ^ 63 := by decide
    have greatest : Int64.maxValue.toInt = 2 ^ 63 - 1 := by decide
    refine .number ?_ (by omega) (by omega)
    rw [Double.ofDigits, Double.toInt?_ofDecimal denotes]

mutual

/-- A regular tree is spelled by its own tokens, whatever is behind them. -/
theorem Expr.spelling_tokens : (e : Expr) → e.Regular → (next : Token) → e.Spelling e.tokens next
  | .number value, _, next => .number value next
  | .string value, _, next => .string value next
  | .boolean value, _, next => .boolean value next
  | .path p, regular, next => .path (p.spelling_tokens regular next)

theorem Path.spelling_tokens (p : Path) (regular : p.Regular) (next : Token) :
    p.Spelling p.tokens next := by
  have steps := p.steps_tokens regular
  refine .steps steps (fun nothing => ?_) next
  obtain rfl := Path.eq_this_of_steps steps nothing
  cases nothing

theorem Path.steps_tokens : (p : Path) → p.Regular → p.Steps p.tokens
  | .start recursive segment, regular => by
      rw [Path.Regular] at regular
      obtain ⟨rfl, regular⟩ := regular
      exact .first (segment.spelling_tokens regular)
  | .step base recursive segment, regular => by
      rw [Path.Regular] at regular
      have steps := base.steps_tokens regular.1
      have spelling := segment.spelling_tokens regular.2
      rw [Path.tokens, List.append_assoc]
      cases recursive with
      | true => cases segment <;> exact .descent steps spelling
      | false =>
        cases segment with
        | subscript =>
          refine .direct steps (fun nothing => ?_) spelling
          obtain rfl := Path.eq_this_of_steps steps nothing
          cases nothing
        | _ => exact .dot steps spelling

theorem Segment.spelling_tokens : (s : Segment) → s.Regular → s.Spelling s.tokens
  | .this, _ => .this
  | .wildcard, _ => .wildcard
  | .field name, _ => by
      rw [Segment.tokens, Token.ofField]
      split
      · exact .name name
      · exact .quotedName name
  | .subscript elements, regular => by
      rw [Segment.Regular] at regular
      exact .subscript (Element.spellingAll_tokensAll elements regular.1 regular.2)

theorem Element.spelling_tokens : (e : Element) → e.Regular → (next : Token) →
    e.Spelling e.tokens next
  | .slice first last, regular, next => by
      rw [Element.Regular] at regular
      exact .slice (boundSpelling_tokens regular.1) (boundSpelling_tokens regular.2) next
  | .filter left op right, regular, next => by
      rw [Element.Regular] at regular
      exact .filter (left.spelling_tokens regular.1 _) (right.spelling_tokens regular.2 next)
  | .existence p, regular, next => by
      rw [Element.Regular] at regular
      exact .existence (p.spelling_tokens regular _) next
  | .expr e, regular, next => by
      rw [Element.Regular] at regular
      exact .expr (e.spelling_tokens regular next)

theorem Element.spellingAll_tokensAll : (elements : List Element) → elements ≠ [] →
    Element.RegularAll elements → Element.SpellingAll elements (Element.tokensAll elements)
  | [], nonempty, _ => absurd rfl nonempty
  | [element], _, regular => .last (element.spelling_tokens regular.1 _)
  | element :: second :: rest, _, regular => by
      have others := Element.spellingAll_tokensAll (second :: rest) (List.cons_ne_nil _ _) regular.2
      exact .more (element.spelling_tokens regular.1 _) others

end

end JsonQuery

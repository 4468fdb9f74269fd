/-
# JsonQuery.Expr.Reader -- the tree that tokens spell

Tokens are read from left to right, one at a time and without going back.  What
has been read so far is a `State`: the subscripts that are still open, innermost
first, and what stands inside the innermost one.  `State.step` adds one token or
refuses it, so a sequence is refused at the first token that no expression can
have there; a slice whose first bound is no integer is refused at that bound, once
the colon after it is seen.

`Expr.ofTokens` reads a whole sequence, and `Expr.parse` a text.
-/
import JsonQuery.Expr
import JsonQuery.Token.Lexer

namespace JsonQuery

set_option autoImplicit false

/-! ## Errors -/

/-- Why tokens are no expression. -/
inductive ParseCause where
  | emptyExpression
  | trailing (found : Token)
  | expectedSegment (found : Token)
  | unterminatedSubscript
  | emptyElement
  | expectedSeparator (found : Token)
  | incompleteComparison
  | existenceOfLiteral
  | sliceBound
  | missingFinish
deriving DecidableEq, Inhabited

/-- The reason, in words. -/
def ParseCause.detail : ParseCause → String
  | .emptyExpression => "empty expression"
  | .trailing found => "unexpected trailing " ++ found.describe
  | .expectedSegment found => "expected path segment, found " ++ found.describe
  | .unterminatedSubscript => "unterminated subscript"
  | .emptyElement => "empty subscript element"
  | .expectedSeparator found => "expected `,` or `]`, found " ++ found.describe
  | .incompleteComparison => "incomplete constraint"
  | .existenceOfLiteral => "existence check requires a path"
  | .sliceBound => "slice bounds must be integers"
  | .missingFinish => "unexpected end of tokens"

/-- A token at which reading an expression fails. -/
structure ParseError where
  cause : ParseCause
  /-- The byte offset of the token. -/
  offset : Nat
deriving DecidableEq, Inhabited

/-! ## States -/

/-- The place of a segment in a path: at its start, or behind what is there. -/
inductive Joint where
  | start
  | after (base : Path) (recursive : Bool)

/-- The path that a segment at this place completes. -/
def Joint.attach : Joint → Segment → Path
  | .start, segment => .start false segment
  | .after base recursive, segment => .step base recursive segment

/-- A subscript that is still open. -/
structure Frame where
  /-- The place of the subscript in the path around it. -/
  joint : Joint
  /-- The elements before the current one, the last of them first. -/
  earlier : List Element
  /-- The left side and the operator, if the current element has them already. -/
  left : Option (Expr × Comparison)

/-- A subscript that has just been opened. -/
def Frame.opened (joint : Joint) : Frame := ⟨joint, [], none⟩

/-- A subscript after one more element. -/
def Frame.next (frame : Frame) (last : Element) : Frame :=
  ⟨frame.joint, last :: frame.earlier, none⟩

/-- A subscript whose current element is a comparison with this left side. -/
def Frame.compare (frame : Frame) (left : Expr) (op : Comparison) : Frame :=
  ⟨frame.joint, frame.earlier, some (left, op)⟩

/-- The path up to and including a subscript whose last element is given. -/
def Frame.close (frame : Frame) (last : Element) : Path :=
  frame.joint.attach (.subscript (last :: frame.earlier).reverse)

/-- How far an expression has been read.  The list holds the open subscripts,
innermost first; where a state needs one it is given apart. -/
inductive State where
  /-- An expression must begin. -/
  | expr (frames : List Frame)
  /-- A number begins an element: the first bound of a slice, or an expression. -/
  | number (frame : Frame) (frames : List Frame) (value : Double) (offset : Nat)
  /-- The colon of a slice has been read. -/
  | colon (frame : Frame) (frames : List Frame) (first : Option Int)
  /-- An element is complete. -/
  | element (frame : Frame) (frames : List Frame) (last : Element)
  /-- A literal is complete. -/
  | literal (frames : List Frame) (value : Expr)
  /-- A segment must follow. -/
  | segment (frames : List Frame) (joint : Joint)
  /-- A recursive step has begun: a segment may follow. -/
  | descent (frames : List Frame) (base : Path)
  /-- A step of a path is complete. -/
  | path (frames : List Frame) (path : Path)
  /-- The whole expression has been read. -/
  | done (expr : Expr)

/-! ## One token -/

/-- The integer that a slice bound denotes. -/
def sliceBound? (value : Double) : Option Int :=
  value.toInt?.filter fun n => Int64.minValue.toInt ≤ n && n ≤ Int64.maxValue.toInt

/-- A token behind a complete element. -/
def afterElement (frame : Frame) (frames : List Frame) (last : Element) (next : Located) :
    Except ParseError State :=
  match next.token with
  | .punct .comma => .ok (.expr (frame.next last :: frames))
  | .punct .closeBracket => .ok (.path frames (frame.close last))
  | .finish => .error ⟨.unterminatedSubscript, next.offset⟩
  | token => .error ⟨.expectedSeparator token, next.offset⟩

/-- A token behind a complete expression that is not, or not yet, the left side of
a comparison. -/
def afterOperand (frame : Frame) (frames : List Frame) (expr : Expr) (next : Located) :
    Except ParseError State :=
  match next.token, expr with
  | .comparison op, _ => .ok (.expr (frame.compare expr op :: frames))
  | .punct .question, .path path => .ok (.element frame frames (.existence path))
  | .punct .question, _ => .error ⟨.existenceOfLiteral, next.offset⟩
  | _, _ => afterElement frame frames (.expr expr) next

/-- A token behind a complete expression. -/
def afterExpr (frames : List Frame) (expr : Expr) (next : Located) : Except ParseError State :=
  match frames with
  | [] =>
      match next.token with
      | .finish => .ok (.done expr)
      | token => .error ⟨.trailing token, next.offset⟩
  | frame :: frames =>
      match frame.left with
      | some (left, op) => afterElement frame frames (.filter left op expr) next
      | none => afterOperand frame frames expr next

/-- A token behind a complete step of a path. -/
def afterPath (frames : List Frame) (path : Path) (next : Located) : Except ParseError State :=
  match next.token with
  | .punct .dot => .ok (.segment frames (.after path false))
  | .punct .descent => .ok (.descent frames path)
  | .punct .openBracket => .ok (.expr (.opened (.after path false) :: frames))
  | _ => afterExpr frames (.path path) next

/-- A token where a segment must stand. -/
def atSegment (frames : List Frame) (joint : Joint) (next : Located) : Except ParseError State :=
  match next.token with
  | .punct .this => .ok (.path frames (joint.attach .this))
  | .punct .star => .ok (.path frames (joint.attach .wildcard))
  | .name name => .ok (.path frames (joint.attach (.field name)))
  | .quotedName name => .ok (.path frames (joint.attach (.field name)))
  | .punct .openBracket => .ok (.expr (.opened joint :: frames))
  | token => .error ⟨.expectedSegment token, next.offset⟩

/-- Whether a token behind `..` ends the path, so that the step takes everything. -/
def Token.endsPath : Token → Bool
  | .finish => true
  | .comparison _ => true
  | .punct .closeBracket => true
  | .punct .comma => true
  | .punct .question => true
  | _ => false

/-- A token behind the `..` of a recursive step. -/
def afterDescent (frames : List Frame) (base : Path) (next : Located) : Except ParseError State :=
  if next.token.endsPath then
    afterPath frames (.step base true .wildcard) next
  else
    atSegment frames (.after base true) next

/-- A token that begins an expression, whatever surrounds it. -/
def atOperand (frames : List Frame) (next : Located) : Except ParseError State :=
  match next.token with
  | .string value => .ok (.literal frames (.string value))
  | .number value => .ok (.literal frames (.number value))
  | .boolean value => .ok (.literal frames (.boolean value))
  | .punct .dot => afterPath frames .this next
  | .punct .descent => afterPath frames .this next
  | _ => atSegment frames .start next

/-- A token that begins an element of a subscript. -/
def atElement (frame : Frame) (frames : List Frame) (next : Located) : Except ParseError State :=
  match next.token with
  | .finish => .error ⟨.unterminatedSubscript, next.offset⟩
  | .punct .closeBracket => .error ⟨.emptyElement, next.offset⟩
  | .punct .comma => .error ⟨.emptyElement, next.offset⟩
  | .punct .colon => .ok (.colon frame frames none)
  | .number value => .ok (.number frame frames value next.offset)
  | _ => atOperand (frame :: frames) next

/-- A token that begins the right side of a comparison. -/
def atRightSide (frames : List Frame) (next : Located) : Except ParseError State :=
  match next.token with
  | .finish => .error ⟨.incompleteComparison, next.offset⟩
  | .punct .closeBracket => .error ⟨.incompleteComparison, next.offset⟩
  | .punct .comma => .error ⟨.incompleteComparison, next.offset⟩
  | _ => atOperand frames next

/-- A token where an expression must begin. -/
def atExpr (frames : List Frame) (next : Located) : Except ParseError State :=
  match frames with
  | [] =>
      match next.token with
      | .finish => .error ⟨.emptyExpression, next.offset⟩
      | _ => atOperand [] next
  | frame :: frames =>
      match frame.left with
      | some _ => atRightSide (frame :: frames) next
      | none => atElement frame frames next

/-- A token behind a number that begins an element. -/
def afterNumber (frame : Frame) (frames : List Frame) (value : Double) (offset : Nat)
    (next : Located) : Except ParseError State :=
  match next.token with
  | .punct .colon =>
      match sliceBound? value with
      | some bound => .ok (.colon frame frames (some bound))
      | none => .error ⟨.sliceBound, offset⟩
  | _ => afterOperand frame frames (.number value) next

/-- A token behind the colon of a slice. -/
def afterColon (frame : Frame) (frames : List Frame) (first : Option Int) (next : Located) :
    Except ParseError State :=
  match next.token with
  | .number value =>
      match sliceBound? value with
      | some bound => .ok (.element frame frames (.slice first (some bound)))
      | none => .error ⟨.sliceBound, next.offset⟩
  | _ => afterElement frame frames (.slice first none) next

/-- Adds a token to what has been read. -/
def State.step (state : State) (next : Located) : Except ParseError State :=
  match state with
  | .expr frames => atExpr frames next
  | .number frame frames value offset => afterNumber frame frames value offset next
  | .colon frame frames first => afterColon frame frames first next
  | .element frame frames last => afterElement frame frames last next
  | .literal frames value => afterExpr frames value next
  | .segment frames joint => atSegment frames joint next
  | .descent frames base => afterDescent frames base next
  | .path frames p => afterPath frames p next
  | .done _ => .error ⟨.trailing next.token, next.offset⟩

/-! ## All tokens -/

/-- What has been read when no token is left. -/
def State.result : State → Except ParseError Expr
  | .done e => .ok e
  | _ => .error ⟨.missingFinish, 0⟩

/-- Reads tokens behind what has been read. -/
def State.read (state : State) (tokens : List Located) : Except ParseError Expr := do
  (← tokens.foldlM State.step state).result

/-- The expression that a sequence of tokens spells. -/
def Expr.ofTokens (tokens : List Located) : Except ParseError Expr := (State.expr []).read tokens

/-- Why a text is no expression. -/
inductive SyntaxError where
  | lex (error : LexError)
  | parse (error : ParseError)
deriving DecidableEq, Inhabited

/-- The reason, in words. -/
def SyntaxError.detail : SyntaxError → String
  | .lex error => error.detail
  | .parse error => error.cause.detail

/-- The byte offset at which reading fails. -/
def SyntaxError.offset : SyntaxError → Nat
  | .lex error => error.offset
  | .parse error => error.offset

/-- The reason and the place, in words. -/
def SyntaxError.message (error : SyntaxError) : String :=
  "at position " ++ toString error.offset ++ ", " ++ error.detail

/-- The expression that a text spells. -/
def Expr.parse (text : String) : Except SyntaxError Expr :=
  match tokenize text with
  | .error error => .error (.lex error)
  | .ok tokens =>
      match Expr.ofTokens tokens with
      | .error error => .error (.parse error)
      | .ok expr => .ok expr

end JsonQuery

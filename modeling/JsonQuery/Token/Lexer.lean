/-
# JsonQuery.Token.Lexer -- the tokens of a text

`readToken` reads the longest token at the head of a text that does not begin
with a blank; `scan` reads token after token and counts the bytes it has passed.
A character or escape sequence that no token admits ends the scan with a
`LexError` at its offset.

Blanks are the space, the tab, the carriage return and the line feed, and nothing
else.  Numbers have no exponent and names are ASCII; every other character must
stand between quotes.
-/
import JsonQuery.Text.Escape
import JsonQuery.Token

namespace JsonQuery

set_option autoImplicit false

/-! ## Errors -/

/-- Why a text has no tokens. -/
inductive LexCause where
  | unexpectedCharacter
  | invalidOperator
  | numberOutOfRange
  | unterminatedString
  | unterminatedName
  | invalidEscape
  | invalidUnicodeEscape
deriving DecidableEq, Inhabited

/-- A character of a text at which reading tokens fails. -/
structure LexError where
  cause : LexCause
  /-- The byte offset of the character. -/
  offset : Nat
  character : Char
deriving DecidableEq, Inhabited

/-- The reason, in words. -/
def LexError.detail (error : LexError) : String :=
  match error.cause with
  | .unexpectedCharacter =>
      "unexpected character " ++ String.ofList (Text.quote '\'' [error.character])
  | .invalidOperator => "invalid operator"
  | .numberOutOfRange => "number out of range"
  | .unterminatedString => "unterminated string"
  | .unterminatedName => "unterminated quoted identifier"
  | .invalidEscape => "invalid escape sequence"
  | .invalidUnicodeEscape => "invalid unicode escape"

/-! ## One token -/

def isBlank (c : Char) : Bool := c = ' ' || c = '\t' || c = '\r' || c = '\n'

/-- Whether a character may begin a name that is not quoted. -/
def isNameStart (c : Char) : Bool := c.isAlpha || c = '_' || c = '$'

/-- Whether a character may continue a name that is not quoted. -/
def isNameChar (c : Char) : Bool := c.isAlphanum || c = '_' || c = '$'

/-- The token that a run of name characters is. -/
def Token.ofName (name : String) : Token :=
  if name = "$" then .punct .this
  else if name = "true" then .boolean true
  else if name = "false" then .boolean false
  else .name name

/-- What stands at the head of a text: a token, its width in bytes and the rest
of the text, or a character that no token admits, after so many bytes. -/
inductive Lexeme where
  | token (token : Token) (width : Nat) (rest : List Char)
  | fault (cause : LexCause) (width : Nat) (character : Char)

/-- Splits off the digits of a number: those before the point, those after it,
and the rest.  A point without a digit after it belongs to the rest. -/
def splitNumber (text : List Char) : List Char × List Char × List Char :=
  let whole := text.takeWhile Char.isDigit
  match text.dropWhile Char.isDigit with
  | '.' :: d :: rest =>
      if d.isDigit then
        (whole, (d :: rest).takeWhile Char.isDigit, (d :: rest).dropWhile Char.isDigit)
      else
        (whole, [], '.' :: d :: rest)
  | rest => (whole, [], rest)

/-- Reads a number that begins with `first`, from its digits on. -/
def readNumber (first : Char) (negative : Bool) (text : List Char) : Lexeme :=
  let (whole, fraction, rest) := splitNumber text
  let value := Double.ofDecimal negative (.ofDigits whole fraction 0)
  let sign := if negative then 1 else 0
  let point := if fraction.isEmpty then 0 else 1
  if value.isFinite then
    .token (.number value) (sign + whole.length + point + fraction.length) rest
  else
    .fault .numberOutOfRange 0 first

/-- Reads quoted text from behind its opening quote, and makes a token of it. -/
def readQuoted (delimiter : Char) (unterminated : LexCause) (make : String → Token)
    (text : List Char) : Lexeme :=
  match Text.readContent delimiter text with
  | .closed pieces width rest =>
      .token (make (String.ofList (Text.decode pieces))) (delimiter.utf8Size + width) rest
  | .unclosed => .fault unterminated 0 delimiter
  | .invalidEscape width => .fault .invalidEscape (delimiter.utf8Size + width) '\\'
  | .invalidUnicode width => .fault .invalidUnicodeEscape (delimiter.utf8Size + width) '\\'

/-- Reads the token that begins with the character `c`. -/
def readToken (c : Char) (rest : List Char) : Lexeme :=
  if c.isDigit then
    readNumber c false (c :: rest)
  else if isNameStart c then
    .token (.ofName (String.ofList (c :: rest.takeWhile isNameChar)))
      (1 + (rest.takeWhile isNameChar).length) (rest.dropWhile isNameChar)
  else
    match c, rest with
    | '-', d :: rest =>
        if d.isDigit then readNumber '-' true (d :: rest) else .fault .unexpectedCharacter 0 '-'
    | '.', '.' :: rest => .token (.punct .descent) 2 rest
    | '.', rest => .token (.punct .dot) 1 rest
    | '[', rest => .token (.punct .openBracket) 1 rest
    | ']', rest => .token (.punct .closeBracket) 1 rest
    | ',', rest => .token (.punct .comma) 1 rest
    | ':', rest => .token (.punct .colon) 1 rest
    | '?', rest => .token (.punct .question) 1 rest
    | '*', rest => .token (.punct .star) 1 rest
    | '@', rest => .token (.punct .this) 1 rest
    | '=', '=' :: rest => .token (.comparison .eq) 2 rest
    | '!', '=' :: rest => .token (.comparison .ne) 2 rest
    | '<', '=' :: rest => .token (.comparison .le) 2 rest
    | '<', rest => .token (.comparison .lt) 1 rest
    | '>', '=' :: rest => .token (.comparison .ge) 2 rest
    | '>', rest => .token (.comparison .gt) 1 rest
    | '"', rest => readQuoted '"' .unterminatedString .string rest
    | '\'', rest => readQuoted '\'' .unterminatedName .quotedName rest
    | c, _ => .fault (if c = '=' ∨ c = '!' then .invalidOperator else .unexpectedCharacter) 0 c

/-! ## The rest of the text gets shorter -/

theorem length_dropWhile_le (p : Char → Bool) (text : List Char) :
    (text.dropWhile p).length ≤ text.length :=
  (List.dropWhile_sublist p).length_le

theorem length_splitNumber (text : List Char) :
    (splitNumber text).2.2.length ≤ (text.dropWhile Char.isDigit).length := by
  unfold splitNumber
  split
  · rename_i d rest after
    split
    · rw [after]
      exact Nat.le_succ_of_le (length_dropWhile_le _ _)
    · exact Nat.le_of_eq (congrArg List.length after.symm)
  · exact Nat.le_refl _

theorem length_of_readNumber {first : Char} {negative : Bool} {text rest : List Char}
    {token : Token} {width : Nat}
    (read : readNumber first negative text = .token token width rest) :
    rest.length ≤ (text.dropWhile Char.isDigit).length := by
  unfold readNumber at read
  have shorter := length_splitNumber text
  grind

theorem length_of_readQuoted {delimiter : Char} {unterminated : LexCause}
    {make : String → Token} {text rest : List Char} {token : Token} {width : Nat}
    (read : readQuoted delimiter unterminated make text = .token token width rest) :
    rest.length < text.length := by
  unfold readQuoted at read
  split at read
  · rename_i closed
    cases read
    exact Text.length_lt_of_readContent closed
  all_goals cases read

/-- A token takes at least its first character. -/
theorem length_of_readToken {c : Char} {text rest : List Char} {token : Token} {width : Nat}
    (read : readToken c text = .token token width rest) : rest.length ≤ text.length := by
  unfold readToken at read
  split at read
  · rename_i digit
    have shorter := length_of_readNumber read
    rw [List.dropWhile_cons_of_pos digit] at shorter
    exact Nat.le_trans shorter (length_dropWhile_le _ _)
  split at read
  · cases read
    exact length_dropWhile_le _ _
  split at read
  · split at read
    · rename_i digit
      have shorter := length_of_readNumber read
      rw [List.dropWhile_cons_of_pos digit] at shorter
      exact Nat.le_trans shorter (Nat.le_succ_of_le (length_dropWhile_le _ _))
    · cases read
  all_goals
    first
    | exact Nat.le_of_lt (length_of_readQuoted read)
    | (cases read <;> first | exact Nat.le_refl _ | exact Nat.le_succ _)

/-! ## All tokens -/

/-- The tokens of a text that begins at a byte offset. -/
def scan (offset : Nat) : List Char → Except LexError (List Located)
  | [] => .ok [⟨.finish, offset⟩]
  | c :: text =>
      if isBlank c then
        scan (offset + 1) text
      else
        match _read : readToken c text with
        | .token token width rest => do
            let more ← scan (offset + width) rest
            return ⟨token, offset⟩ :: more
        | .fault cause width character => throw ⟨cause, offset + width, character⟩
termination_by text => text.length
decreasing_by
  · exact Nat.lt_succ_self _
  · exact Nat.lt_succ_of_le (length_of_readToken _read)

/-- The tokens of a text.  The last one is `Token.finish`, at the end of the text. -/
def tokenize (text : String) : Except LexError (List Located) := scan 0 text.toList

end JsonQuery

/-
# JsonQuery.Text.Escape -- the escape sequences of quoted text

Quoted text is read in two steps.  `readContent` splits what follows the opening
quote into pieces, one for each plain character or escape sequence, up to the
closing quote; an escape of four hexadecimal digits gives a UTF-16 code unit.
`decode` then turns the pieces into characters: a high and a low surrogate that
are neighbours become one character, every other surrogate the replacement
character.

Writing has two forms: `jsonString` between double quotes, and `quotedName`
between single quotes.  No escape sequence stands for the single quote by itself,
so `quotedName` writes it as a code unit.
-/

namespace JsonQuery.Text

set_option autoImplicit false

/-! ## UTF-16 code units -/

def isHighSurrogate (unit : Nat) : Bool := 0xD800 ≤ unit && unit < 0xDC00

def isLowSurrogate (unit : Nat) : Bool := 0xDC00 ≤ unit && unit < 0xE000

/-- The character that stands in for a surrogate without a partner. -/
def replacement : Char := '\uFFFD'

/-- The character of a code unit by itself. -/
def unitChar (unit : Nat) : Char :=
  if isHighSurrogate unit || isLowSurrogate unit then replacement else Char.ofNat unit

/-- The character of a high surrogate and the low surrogate after it. -/
def pairChar (high low : Nat) : Char :=
  Char.ofNat (0x10000 + (high - 0xD800) * 0x400 + (low - 0xDC00))

/-! ## Reading -/

/-- One character or escape sequence of quoted text. -/
inductive Piece where
  | char (c : Char)
  | unit (code : Nat)
deriving DecidableEq

/-- The text that pieces stand for. -/
def decode : List Piece → List Char
  | [] => []
  | .char c :: rest => c :: decode rest
  | [.unit u] => [unitChar u]
  | .unit u :: .char c :: rest => unitChar u :: c :: decode rest
  | .unit high :: .unit low :: rest =>
      if isHighSurrogate high && isLowSurrogate low then
        pairChar high low :: decode rest
      else
        unitChar high :: decode (.unit low :: rest)

/-- The value of a hexadecimal digit in either case. -/
def hexDigit? (c : Char) : Option Nat :=
  if '0' ≤ c ∧ c ≤ '9' then some (c.toNat - '0'.toNat)
  else if 'a' ≤ c ∧ c ≤ 'f' then some (c.toNat - 'a'.toNat + 10)
  else if 'A' ≤ c ∧ c ≤ 'F' then some (c.toNat - 'A'.toNat + 10)
  else none

/-- The code unit of four hexadecimal digits. -/
def hexUnit? (a b c d : Char) : Option Nat := do
  let a ← hexDigit? a
  let b ← hexDigit? b
  let c ← hexDigit? c
  let d ← hexDigit? d
  return ((a * 16 + b) * 16 + c) * 16 + d

/-- The character of an escape sequence of two characters, from the second. -/
def simpleEscape? : Char → Option Char
  | '"' => some '"'
  | '\\' => some '\\'
  | '/' => some '/'
  | 'b' => some '\x08'
  | 'f' => some '\x0c'
  | 'n' => some '\n'
  | 'r' => some '\r'
  | 't' => some '\t'
  | _ => none

/-- What follows an opening quote.  A width counts the bytes of UTF-8 from the
opening quote on: those of the content with its closing quote, or those before
the backslash of a sequence that is no escape. -/
inductive Content where
  | closed (pieces : List Piece) (width : Nat) (rest : List Char)
  | unclosed
  | invalidEscape (width : Nat)
  | invalidUnicode (width : Nat)

/-- Puts a piece, written in so many bytes, before some content. -/
def Content.after (piece : Piece) (bytes : Nat) : Content → Content
  | .closed pieces width rest => .closed (piece :: pieces) (bytes + width) rest
  | .unclosed => .unclosed
  | .invalidEscape width => .invalidEscape (bytes + width)
  | .invalidUnicode width => .invalidUnicode (bytes + width)

/-- Reads quoted text from behind its opening quote. -/
def readContent (delimiter : Char) : List Char → Content
  | [] => .unclosed
  | '\\' :: 'u' :: a :: b :: c :: d :: rest =>
      match hexUnit? a b c d with
      | some code => (readContent delimiter rest).after (.unit code) 6
      | none => .invalidUnicode 0
  | '\\' :: 'u' :: _ => .invalidUnicode 0
  | '\\' :: e :: rest =>
      match simpleEscape? e with
      | some c => (readContent delimiter rest).after (.char c) 2
      | none => .invalidEscape 0
  | ['\\'] => .invalidEscape 0
  | c :: rest =>
      if c = delimiter then
        .closed [] c.utf8Size rest
      else
        (readContent delimiter rest).after (.char c) c.utf8Size

theorem Content.exists_of_after_eq_closed {piece : Piece} {bytes width : Nat}
    {content : Content} {pieces : List Piece} {rest : List Char}
    (closed : content.after piece bytes = .closed pieces width rest) :
    ∃ others width, content = .closed others width rest ∧ pieces = piece :: others := by
  cases content <;> simp_all [Content.after]

/-- The text after quoted text is shorter than the text from its opening quote on. -/
theorem length_lt_of_readContent {delimiter : Char} {text rest : List Char}
    {pieces : List Piece} {width : Nat}
    (closed : readContent delimiter text = .closed pieces width rest) :
    rest.length < text.length := by
  fun_induction readContent delimiter text generalizing pieces width <;>
    grind [Content.exists_of_after_eq_closed]

/-! ## Writing -/

/-- Four hexadecimal digits, in lower case. -/
def hex4 (code : Nat) : List Char :=
  [code / 0x1000 % 16, code / 0x100 % 16, code / 0x10 % 16, code % 16].map Nat.digitChar

/-- The code of a character as an escape sequence. -/
def unicodeEscape (c : Char) : List Char := '\\' :: 'u' :: hex4 c.toNat

/-- The escape sequences of two characters that both written forms use. -/
def shortEscape? (c : Char) : Option (List Char) :=
  if c = '\\' then some ['\\', '\\']
  else if c = '\x08' then some ['\\', 'b']
  else if c = '\x0c' then some ['\\', 'f']
  else if c = '\n' then some ['\\', 'n']
  else if c = '\r' then some ['\\', 'r']
  else if c = '\t' then some ['\\', 't']
  else none

/-- A character inside a JSON string. -/
def jsonChar (c : Char) : List Char :=
  match shortEscape? c with
  | some escape => escape
  | none =>
      if c = '"' then ['\\', '"']
      else if c.toNat < 0x20 then unicodeEscape c
      else [c]

/-- A text as a JSON string. -/
def jsonString (text : List Char) : List Char := '"' :: text.flatMap jsonChar ++ ['"']

/-- Whether a character is one of the control characters of Unicode. -/
def isControl (c : Char) : Bool := c.toNat < 0x20 || (0x7f ≤ c.toNat && c.toNat < 0xa0)

/-- A character inside a quoted name. -/
def nameChar (c : Char) : List Char :=
  match shortEscape? c with
  | some escape => escape
  | none => if c = '\'' || isControl c then unicodeEscape c else [c]

/-- A name between single quotes. -/
def quotedName (name : List Char) : List Char := '\'' :: name.flatMap nameChar ++ ['\'']

end JsonQuery.Text

/-
# JsonQuery.Token -- the words of an expression

A token carries its decoded value; where it stands in the text is kept beside it
(`Located`).  A sequence of tokens ends with a single `Token.finish`.

`Token.describe` is the form in which a message names the token it found.
-/
import JsonQuery.Comparison
import JsonQuery.Double.Text
import JsonQuery.Text.Quoted

namespace JsonQuery

set_option autoImplicit false

/-- A punctuation mark.  `this` is written `@` or as a `$` by itself. -/
inductive Punct where
  | dot
  | descent
  | openBracket
  | closeBracket
  | comma
  | colon
  | question
  | star
  | this
deriving DecidableEq, Inhabited

/-- The written form of a punctuation mark. -/
def Punct.text : Punct → String
  | .dot => "."
  | .descent => ".."
  | .openBracket => "["
  | .closeBracket => "]"
  | .comma => ","
  | .colon => ":"
  | .question => "?"
  | .star => "*"
  | .this => "@"

/-- A token, with its decoded value. -/
inductive Token where
  | name (value : String)
  | quotedName (value : String)
  | number (value : Double)
  | string (value : String)
  | boolean (value : Bool)
  | comparison (op : Comparison)
  | punct (mark : Punct)
  | finish
deriving DecidableEq, Inhabited

namespace Token

/-- The token as a message names it. -/
def describe : Token → String
  | .name value => "identifier `" ++ value ++ "`"
  | .quotedName value => "identifier '" ++ value ++ "'"
  | .number value => "number " ++ value.text
  | .string value => "string " ++ String.ofList (Text.quote '"' value.toList)
  | .boolean true => "`true`"
  | .boolean false => "`false`"
  | .comparison op => "`" ++ op.text ++ "`"
  | .punct mark => "`" ++ mark.text ++ "`"
  | .finish => "end of input"

end Token

/-- A token and the byte offset of its first character. -/
structure Located where
  token : Token
  offset : Nat
deriving DecidableEq, Inhabited

end JsonQuery

/-
# JsonQuery.Expr.Canonical -- the canonical form of an expression

The canonical form is the shortest text without blanks that names a tree.  A dot
stands only between two steps of which the second is not a subscript; a name is
quoted only where it would not be read as a name; numbers and strings have the
forms of `Double.chars` and `Text.jsonString`.
-/
import JsonQuery.Expr
import JsonQuery.Token.Lexer

namespace JsonQuery

set_option autoImplicit false

/-- Whether a name is read as a name without quotes. -/
def isBareName (name : String) : Bool :=
  match name.toList with
  | [] => false
  | c :: rest =>
      isNameStart c && rest.all isNameChar && !(name = "$" || name = "true" || name = "false")

/-- The written form of a name. -/
def nameChars (name : String) : List Char :=
  if isBareName name then name.toList else Text.quotedName name.toList

/-- The written form of an integer. -/
def intChars : Int → List Char
  | .ofNat n => Nat.toDigits 10 n
  | .negSucc n => '-' :: Nat.toDigits 10 (n + 1)

def boundChars : Option Int → List Char
  | some bound => intChars bound
  | none => []

/-- What stands before a segment that follows another step. -/
def stepMark (recursive : Bool) : Segment → List Char
  | .subscript _ => if recursive then ['.', '.'] else []
  | _ => if recursive then ['.', '.'] else ['.']

mutual

def Expr.chars : Expr → List Char
  | .number value => value.chars
  | .string value => Text.jsonString value.toList
  | .boolean true => ['t', 'r', 'u', 'e']
  | .boolean false => ['f', 'a', 'l', 's', 'e']
  | .path p => p.chars

def Path.chars : Path → List Char
  | .start recursive segment => (if recursive then ['.', '.'] else []) ++ segment.chars
  | .step base recursive segment => base.chars ++ stepMark recursive segment ++ segment.chars

def Segment.chars : Segment → List Char
  | .this => ['@']
  | .field name => nameChars name
  | .wildcard => ['*']
  | .subscript elements => '[' :: Element.charsAll elements ++ [']']

def Element.chars : Element → List Char
  | .slice first last => boundChars first ++ ':' :: boundChars last
  | .filter left op right => left.chars ++ op.chars ++ right.chars
  | .existence path => path.chars ++ ['?']
  | .expr e => e.chars

/-- The elements of a subscript, with commas between them. -/
def Element.charsAll : List Element → List Char
  | [] => []
  | [element] => element.chars
  | element :: next :: rest => element.chars ++ ',' :: Element.charsAll (next :: rest)

end

/-- The canonical form of an expression. -/
def Expr.canonical (expr : Expr) : String := String.ofList expr.chars

end JsonQuery

/-
# JsonQuery.Comparison -- the six comparison operators
-/

namespace JsonQuery

set_option autoImplicit false

/-- A comparison operator of an expression. -/
inductive Comparison where
  | eq
  | ne
  | lt
  | le
  | gt
  | ge
deriving DecidableEq, Inhabited

namespace Comparison

/-- The written form of an operator, character by character. -/
def chars : Comparison → List Char
  | .eq => ['=', '=']
  | .ne => ['!', '=']
  | .lt => ['<']
  | .le => ['<', '=']
  | .gt => ['>']
  | .ge => ['>', '=']

/-- The written form of an operator. -/
def text (op : Comparison) : String := String.ofList op.chars

/-- The operators, each once. -/
def all : List Comparison := [.eq, .ne, .lt, .le, .gt, .ge]

theorem mem_all (op : Comparison) : op ∈ all := by cases op <;> decide

/-- The operator with a given written form. -/
def ofText? (text : String) : Option Comparison := all.find? fun op => op.text = text

end Comparison

end JsonQuery

import MiniScheme.Form.Basic
import MiniScheme.Procedure.Basic

/-!
# Values

A value is an atom, a list or a function.  Symbols, list cells and functions have an identity
besides their contents: a number that no other symbol, or no other cell and function, was made
with.  A closure refers to the environment that it was made in by that environment's number.
-/

namespace MiniScheme

/-- The number of an environment. -/
abbrev EnvironmentId :=
  Nat

/-- An interned name. -/
structure Symbol where
  name : String
  identity : Nat
deriving DecidableEq

/-- A primitive function or a closure. -/
inductive Function
  | primitive (identity : Nat) (name : String) (procedure : Procedure)
  | closure (identity : Nat) (formals : List String) (body : List Expression)
      (environment : EnvironmentId)

mutual

/-- What expressions evaluate to. -/
inductive Value
  | nil
  | number (value : Int64)
  | boolean (value : Bool)
  | character (value : Char)
  | string (value : String)
  | symbol (symbol : Symbol)
  | list (cells : Cells)
  | function (function : Function)

/-- The cells of a list. -/
inductive Cells
  | empty
  | cell (identity : Nat) (head : Value) (tail : Cells)

end

/-- The kinds of values. -/
inductive ValueKind
  | nil
  | number
  | boolean
  | character
  | string
  | symbol
  | list
  | function
deriving DecidableEq

/-- A kind as messages name it. -/
def ValueKind.name : ValueKind → String
  | nil => "nil"
  | number => "number"
  | boolean => "boolean"
  | character => "character"
  | string => "string"
  | symbol => "symbol"
  | list => "list"
  | function => "function"

namespace Value

/-- The kind of a value. -/
def kind : Value → ValueKind
  | nil => .nil
  | number _ => .number
  | boolean _ => .boolean
  | character _ => .character
  | string _ => .string
  | symbol _ => .symbol
  | list _ => .list
  | function _ => .function

/-- The number that a value is. -/
def number? : Value → Option Int64
  | number n => some n
  | _ => none

/-- The boolean that a value is. -/
def boolean? : Value → Option Bool
  | boolean b => some b
  | _ => none

/-- The list that a value is. -/
def list? : Value → Option Cells
  | list cells => some cells
  | _ => none

/-- The value of a constant. -/
def ofConstant : Constant → Value
  | .number n => number n
  | .boolean b => boolean b
  | .character c => character c
  | .string s => string s

/-- The value of a token as a literal: a token without a constant stands for nil. -/
def ofLiteral (token : Token) : Value :=
  match token.constant with
  | some constant => ofConstant constant
  | none => nil

end Value

namespace Cells

/-- The first value of a list. -/
def head? : Cells → Option Value
  | empty => none
  | cell _ head _ => some head

/-- A list without its first value. -/
def tail? : Cells → Option Cells
  | empty => none
  | cell _ _ tail => some tail

/-- Whether a list has no cells. -/
def isEmpty : Cells → Bool
  | empty => true
  | cell .. => false

/-- The values of a list in order. -/
def toList : Cells → List Value
  | empty => []
  | cell _ head tail => head :: tail.toList

/-- The number of values in a list. -/
def length (cells : Cells) : Nat :=
  cells.toList.length

/-- A list of values whose cells have consecutive identities. -/
def ofList (identity : Nat) : List Value → Cells
  | [] => empty
  | value :: values => cell identity value (ofList (identity + 1) values)

/-- A list that is built from values holds those values. -/
@[simp]
theorem toList_ofList (identity : Nat) (values : List Value) :
    (ofList identity values).toList = values := by
  induction values generalizing identity with
  | nil => rfl
  | cons value values ih => simp [ofList, toList, ih]

end Cells

end MiniScheme

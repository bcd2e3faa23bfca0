import MiniScheme.Value.Basic

/-!
# The text of a value

Strings, characters and symbols are written as they are, lists in parentheses with a space
between two values, and functions by their kind and the names that they show.
-/

namespace MiniScheme

/-- The text of a boolean. -/
def booleanText (b : Bool) : String :=
  if b then "#t" else "#f"

/-- The text of a function. -/
def Function.text : Function → String
  | .primitive _ name _ => name ++ "() \x7b [native code] \x7d"
  | .closure _ formals _ _ => "lambda(" ++ " ".intercalate formals ++ ") \x7b ... \x7d"

mutual

/-- The text of a value. -/
def Value.text : Value → String
  | .nil => "nil"
  | .number n => Number.text n
  | .boolean b => booleanText b
  | .character c => c.toString
  | .string s => s
  | .symbol symbol => symbol.name
  | .list cells => "(" ++ " ".intercalate cells.texts ++ ")"
  | .function function => function.text

/-- The texts of the values of a list. -/
def Cells.texts : Cells → List String
  | .empty => []
  | .cell _ head tail => head.text :: tail.texts

end

end MiniScheme

import MiniScheme.Number

/-!
# Procedures

A primitive function is a procedure under a name.  A procedure is an operation, on numbers, on
booleans or on values of any kind, within checks on the number of its arguments.  Procedures
are data, so that a value that holds one can be compared and inspected.
-/

namespace MiniScheme

/-! ## Arities -/

/-- How many arguments a function takes. -/
inductive Arity
  | exactly (count : Nat)
  | atLeast (count : Nat)
deriving DecidableEq

namespace Arity

/-- Whether a function may be called with a number of arguments. -/
def admits : Arity → Nat → Bool
  | exactly count, given => given = count
  | atLeast count, given => count ≤ given

/-- An arity in words. -/
def text : Arity → String
  | exactly count => toString count
  | atLeast count => "at least " ++ toString count

end Arity

/-! ## Operations -/

/-- The operators of arithmetic. -/
inductive Operator
  | add
  | subtract
  | multiply
  | divide
deriving DecidableEq

/-- The sign of an operator. -/
def Operator.sign : Operator → String
  | add => "+"
  | subtract => "-"
  | multiply => "*"
  | divide => "/"

/-- The comparisons of two numbers. -/
inductive Comparison
  | equal
  | atLeast
  | atMost
  | greater
  | less
deriving DecidableEq

/-- Whether two numbers compare so. -/
def Comparison.holds : Comparison → Int64 → Int64 → Bool
  | equal, left, right => left = right
  | atLeast, left, right => right ≤ left
  | atMost, left, right => left ≤ right
  | greater, left, right => right < left
  | less, left, right => left < right

/-- The two parts of a list. -/
inductive Selector
  | car
  | cdr
deriving DecidableEq

/-- The name of a selector. -/
def Selector.name : Selector → String
  | car => "car"
  | cdr => "cdr"

/-- What can be done with a row of numbers. -/
inductive NumericOperation
  | arithmetic (operator : Operator)
  | comparison (comparison : Comparison)
  | list
deriving DecidableEq

/-- What can be done with a row of booleans. -/
inductive BooleanOperation
  | all
  | any
  | negation
  | list
deriving DecidableEq

/-- What can be done with a row of values of any kind. -/
inductive GeneralOperation
  | select (selector : Selector)
  | isNull
  | isEq
  | print
  | time
  | list
deriving DecidableEq

/-- An operation within checks on the number of its arguments, the outermost first. -/
inductive Procedure
  | counted (arity : Arity) (inner : Procedure)
  | numeric (operation : NumericOperation)
  | boolean (operation : BooleanOperation)
  | general (operation : GeneralOperation)
deriving DecidableEq

/-! ## The primitive functions -/

/-- The primitive functions by name. -/
def primitives : List (String × Procedure) :=
  let arithmetic (operator : Operator) := Procedure.numeric (.arithmetic operator)
  let compare (comparison : Comparison) :=
    Procedure.counted (.exactly 2) (.numeric (.comparison comparison))
  let unary (operation : GeneralOperation) := Procedure.counted (.exactly 1) (.general operation)
  [("+", arithmetic .add),
   ("-", .counted (.atLeast 1) (arithmetic .subtract)),
   ("*", arithmetic .multiply),
   ("/", .counted (.atLeast 1) (arithmetic .divide)),
   ("=", compare .equal),
   (">=", compare .atLeast),
   ("<=", compare .atMost),
   (">", compare .greater),
   ("<", compare .less),
   ("and", .boolean .all),
   ("or", .boolean .any),
   ("not", .counted (.exactly 1) (.boolean .negation)),
   ("car", unary (.select .car)),
   ("cdr", unary (.select .cdr)),
   ("null?", unary .isNull),
   ("eq?", .counted (.exactly 2) (.general .isEq)),
   ("p", .general .print),
   ("time", .counted (.exactly 0) (.general .time))]

end MiniScheme

import MiniScheme.Evaluation.Basic
import MiniScheme.Value.Equality
import MiniScheme.Value.Text

/-!
# Calling procedures

The checks on the number of arguments come first, then the checks on their kinds, from the
first argument to the last, and only then the operation.
-/

namespace MiniScheme

/-! ## Arithmetic -/

/-- The result of an operator.  Subtraction takes the sum of all further numbers from the
first, and division divides the first by their product. -/
def Operator.apply (operator : Operator) (numbers : List Int64) : Except EvalError Int64 :=
  let checked (result : Option Int64) : Except EvalError Int64 :=
    match result with
    | some n => .ok n
    | none => .error (.overflow operator)
  match operator, numbers with
  | add, numbers => checked (Number.sum? numbers)
  | multiply, numbers => checked (Number.product? numbers)
  | subtract, first :: rest => do
    let subtrahend ← checked (Number.sum? rest)
    checked (Number.difference? first subtrahend)
  | divide, first :: rest => do
    let divisor ← checked (Number.product? rest)
    if divisor = 0 then .error .divisionByZero
    else checked (Number.quotient? first divisor)
  | _, [] => .error (.arityMismatch (.atLeast 1) 0)

/-! ## Arguments of one kind -/

/-- The arguments as what values of one kind hold; the error names the first that is of
another kind, by its place. -/
def readArguments {α : Type} (expected : ValueKind) (read? : Value → Option α) (place : Nat) :
    List Value → Except EvalError (List α)
  | [] => .ok []
  | value :: values =>
    match read? value with
    | some content => do
      let contents ← readArguments expected read? (place + 1) values
      return content :: contents
    | none => .error (.typeMismatch (.argument place) expected value.kind)

/-! ## Operations -/

/-- The result of an operation on numbers. -/
def NumericOperation.call (operation : NumericOperation) (numbers : List Int64) :
    Evaluation Value :=
  match operation, numbers with
  | arithmetic operator, numbers => do
    return .number (← Action.ofExcept (operator.apply numbers))
  | comparison relation, [left, right] => return .boolean (relation.holds left right)
  | comparison _, numbers => Action.fail (.arityMismatch (.exactly 2) numbers.length)
  | list, numbers => do return .list (← Store.list (numbers.map .number))

/-- The result of an operation on booleans. -/
def BooleanOperation.call (operation : BooleanOperation) (booleans : List Bool) :
    Evaluation Value :=
  match operation, booleans with
  | all, booleans => return .boolean (booleans.all id)
  | any, booleans => return .boolean (booleans.any id)
  | negation, [operand] => return .boolean (!operand)
  | negation, booleans => Action.fail (.arityMismatch (.exactly 1) booleans.length)
  | list, booleans => do return .list (← Store.list (booleans.map .boolean))

/-- The part of a list that a selector takes. -/
def Selector.select (selector : Selector) (cells : Cells) : Except EvalError Value :=
  match selector, cells with
  | car, .cell _ head _ => .ok head
  | cdr, .cell _ _ tail => .ok (.list tail)
  | selector, .empty => .error (.emptyList selector)

/-- The result of an operation on values of any kind. -/
def GeneralOperation.call (operation : GeneralOperation) (values : List Value) :
    Evaluation Value :=
  match operation, values with
  | select selector, [.list cells] => Action.ofExcept (selector.select cells)
  | select _, [value] => Action.fail (.typeMismatch (.argument 1) .list value.kind)
  | select _, values => Action.fail (.arityMismatch (.exactly 1) values.length)
  | isNull, [.list cells] => return .boolean cells.isEmpty
  | isNull, [_] => return .boolean false
  | isNull, values => Action.fail (.arityMismatch (.exactly 1) values.length)
  | isEq, [left, right] => return .boolean (left.isEq right)
  | isEq, values => Action.fail (.arityMismatch (.exactly 2) values.length)
  | print, values => do
    Store.print (" ".intercalate (values.map Value.text))
    return .nil
  | time, _ => do return .number (← Store.readClock)
  | list, values => do return .list (← Store.list values)

/-- The result of a procedure. -/
def Procedure.call (procedure : Procedure) (arguments : List Value) : Evaluation Value :=
  match procedure with
  | counted arity inner =>
    if arity.admits arguments.length then inner.call arguments
    else Action.fail (.arityMismatch arity arguments.length)
  | numeric operation => do
    operation.call (← Action.ofExcept (readArguments .number Value.number? 1 arguments))
  | boolean operation => do
    operation.call (← Action.ofExcept (readArguments .boolean Value.boolean? 1 arguments))
  | general operation => operation.call arguments

end MiniScheme

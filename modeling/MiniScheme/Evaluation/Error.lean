import MiniScheme.Value.Basic

/-!
# Evaluation errors

Each way in which evaluation can fail, and its wording.
-/

namespace MiniScheme

/-- The places where a value must have a certain kind; arguments count from one. -/
inductive TypedPlace
  | predicate
  | argument (index : Nat)
deriving DecidableEq

/-- A place in words. -/
def TypedPlace.text : TypedPlace → String
  | predicate => "if predicate"
  | argument index => "argument " ++ toString index

/-- Why an evaluation failed. -/
inductive EvalError
  | undefinedIdentifier (name : String)
  | notCallable (value : String)
  | arityMismatch (expected : Arity) (given : Nat)
  | typeMismatch (place : TypedPlace) (expected found : ValueKind)
  | emptyList (selector : Selector)
  | divisionByZero
  | overflow (operator : Operator)
deriving DecidableEq

/-- The error in words. -/
def EvalError.message : EvalError → String
  | undefinedIdentifier name => "undefined identifier: " ++ name
  | notCallable value => value ++ " is not callable"
  | arityMismatch expected given =>
    "arity mismatch: expected " ++ expected.text ++ " arguments, got " ++ toString given
  | typeMismatch place expected found =>
    "type mismatch in " ++ place.text ++ ": expected " ++ expected.name ++ ", got " ++ found.name
  | emptyList selector => "list error: passed '() to " ++ selector.name
  | divisionByZero => "division by zero"
  | overflow operator => "integer overflow in " ++ operator.sign

end MiniScheme

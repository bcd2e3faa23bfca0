import MiniScheme.Value.Basic

/-!
# Equality of values

Two relations compare values.  Equal values have the same contents, where the contents of a
symbol or a function are its identity.  For `eq?`, non-empty lists are compared by identity as
well.
-/

namespace MiniScheme

/-- Whether two functions are the same one. -/
def Function.same : Function → Function → Bool
  | .primitive left _ _, .primitive right _ _ => left = right
  | .closure left _ _ _, .closure right _ _ _ => left = right
  | _, _ => false

/-- Whether two lists are the same one: the empty list, or the same first cell. -/
def Cells.same : Cells → Cells → Bool
  | .empty, .empty => true
  | .cell left _ _, .cell right _ _ => left = right
  | _, _ => false

mutual

/-- Whether two values have the same contents. -/
def Value.equal : Value → Value → Bool
  | .nil, .nil => true
  | .number left, .number right => left = right
  | .boolean left, .boolean right => left = right
  | .character left, .character right => left = right
  | .string left, .string right => left = right
  | .symbol left, .symbol right => left.identity = right.identity
  | .list left, .list right => left.equal right
  | .function left, .function right => left.same right
  | _, _ => false

/-- Whether two lists have equal values in the same order. -/
def Cells.equal : Cells → Cells → Bool
  | .empty, .empty => true
  | .cell _ left leftTail, .cell _ right rightTail => left.equal right && leftTail.equal rightTail
  | _, _ => false

end

/-- Whether two values are indistinguishable: lists by identity, all else by contents. -/
def Value.isEq (left right : Value) : Bool :=
  match left, right with
  | .list left, .list right => left.same right
  | _, _ => left.equal right

end MiniScheme

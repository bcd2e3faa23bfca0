import Mathlib.Data.List.Basic
import MiniScheme.Procedure.Call

/-!
# Arguments by position

The operations of the primitive functions take arguments by their positions and do not look how
many there are.  The checks around an operation are what keeps these positions within the
arguments.

Main results:

- Theorem `readArguments_cases`: arguments are read up to the first one of another kind.
- Theorem `Procedure.call?_eq`: a guarded procedure never takes an argument that is not there.
-/

namespace MiniScheme

/-! ## Numbers of arguments -/

/-- Whether every number of arguments that an arity admits is admitted by another one too. -/
def Arity.within : Arity → Arity → Bool
  | exactly count, outer => outer.admits count
  | atLeast count, atLeast least => least ≤ count
  | atLeast _, exactly _ => false

/-- Any number of arguments will do where none is needed. -/
theorem Arity.admits_any (count : Nat) : (atLeast 0).admits count = true :=
  decide_eq_true count.zero_le

/-- What a narrower arity admits is admitted by a wider one. -/
theorem Arity.admits_of_within {inner outer : Arity} {count : Nat} (h : inner.within outer = true)
    (hcount : inner.admits count = true) : outer.admits count = true := by
  cases inner with
  | exactly exact =>
    obtain rfl : count = exact := by simpa [admits] using hcount
    exact h
  | atLeast least =>
    cases outer with
    | exactly exact => cases h
    | atLeast outermost =>
      simp only [within, admits, decide_eq_true_eq] at h hcount ⊢
      omega

/-- How many numbers an operator must get: two of them set the first one apart. -/
def Operator.takes : Operator → Arity
  | add | multiply => .atLeast 0
  | subtract | divide => .atLeast 1

/-- How many numbers an operation must get. -/
def NumericOperation.takes : NumericOperation → Arity
  | arithmetic operator => operator.takes
  | comparison _ => .exactly 2
  | list => .atLeast 0

/-- How many booleans an operation must get. -/
def BooleanOperation.takes : BooleanOperation → Arity
  | negation => .exactly 1
  | all | any | list => .atLeast 0

/-- How many values an operation must get. -/
def GeneralOperation.takes : GeneralOperation → Arity
  | select _ | isNull => .exactly 1
  | isEq => .exactly 2
  | print | time | list => .atLeast 0

namespace Procedure

/-- How many arguments the operation of a procedure must get. -/
def takes : Procedure → Arity
  | counted _ inner => inner.takes
  | numeric operation => operation.takes
  | boolean operation => operation.takes
  | general operation => operation.takes

/-- Whether a procedure checks the number of its arguments. -/
def isCounted : Procedure → Bool
  | counted _ _ => true
  | numeric _ | boolean _ | general _ => false

/-- Whether the number of arguments is checked once, if at all, and no number passes that the
operation must not get. -/
def guarded : Procedure → Bool
  | counted arity inner => !inner.isCounted && arity.within inner.takes
  | procedure => (Arity.atLeast 0).within procedure.takes

/-- A guarded procedure counts its arguments once, or not at all if it takes any number of them. -/
theorem guarded_cases {procedure : Procedure} (h : procedure.guarded = true) :
    (procedure.isCounted = false ∧ (Arity.atLeast 0).within procedure.takes = true) ∨
      ∃ arity inner, procedure = counted arity inner ∧ inner.isCounted = false ∧
        arity.within inner.takes = true := by
  cases procedure with
  | counted arity inner =>
    rw [guarded, Bool.and_eq_true, Bool.not_eq_true'] at h
    exact .inr ⟨arity, inner, rfl, h⟩
  | _ => exact .inl ⟨rfl, h⟩

end Procedure

/-! ## Arguments by position -/

/-- What follows a position in a row, if the row reaches to that position. -/
def sliceFrom? {α : Type} (row : List α) (position : Nat) : Option (List α) :=
  if position ≤ row.length then some (row.drop position) else none

/-- The result of an operator on numbers that are taken by their positions.  There is none if a
position is not in the row. -/
def Operator.applyAt? (operator : Operator) (numbers : List Int64) :
    Option (Except EvalError Int64) :=
  match operator with
  | add | multiply => some (operator.apply numbers)
  | subtract | divide => do
    let rest ← sliceFrom? numbers 1
    let first ← numbers[0]?
    return operator.apply (first :: rest)

/-- The result of an operation on numbers that are taken by their positions. -/
def NumericOperation.call? (operation : NumericOperation) (numbers : List Int64) :
    Option (Evaluation Value) :=
  match operation with
  | arithmetic operator => do
    let result ← operator.applyAt? numbers
    return do return .number (← Action.ofExcept result)
  | comparison relation => do
    let left ← numbers[0]?
    let right ← numbers[1]?
    return pure (.boolean (relation.holds left right))
  | list => some (list.call numbers)

/-- The result of an operation on booleans that are taken by their positions. -/
def BooleanOperation.call? (operation : BooleanOperation) (booleans : List Bool) :
    Option (Evaluation Value) :=
  match operation with
  | negation => do
    let operand ← booleans[0]?
    return pure (.boolean !operand)
  | all | any | list => some (operation.call booleans)

/-- The result of an operation on values that are taken by their positions. -/
def GeneralOperation.call? (operation : GeneralOperation) (values : List Value) :
    Option (Evaluation Value) :=
  match operation with
  | select selector => do
    match ← values[0]? with
    | .list cells => return Action.ofExcept (selector.select cells)
    | value => return Action.fail (.typeMismatch (.argument 1) .list value.kind)
  | isNull => do
    match ← values[0]? with
    | .list cells => return pure (.boolean cells.isEmpty)
    | _ => return pure (.boolean false)
  | isEq => do
    let left ← values[0]?
    let right ← values[1]?
    return pure (.boolean (left.isEq right))
  | print | time | list => some (operation.call values)

/-- The result of a procedure whose operation takes its arguments by their positions. -/
def Procedure.call? (procedure : Procedure) (arguments : List Value) :
    Option (Evaluation Value) :=
  match procedure with
  | counted arity inner =>
    if arity.admits arguments.length then inner.call? arguments
    else some (Action.fail (.arityMismatch arity arguments.length))
  | numeric operation =>
    match readArguments .number Value.number? 1 arguments with
    | .ok numbers => operation.call? numbers
    | .error error => some (Action.fail error)
  | boolean operation =>
    match readArguments .boolean Value.boolean? 1 arguments with
    | .ok booleans => operation.call? booleans
    | .error error => some (Action.fail error)
  | general operation => operation.call? arguments

/-! ## Enough arguments -/

/-- A row of one has one member. -/
theorem exists_of_admits_one {α : Type} {row : List α}
    (h : (Arity.exactly 1).admits row.length = true) : ∃ member, row = [member] :=
  List.length_eq_one_iff.1 (of_decide_eq_true h)

/-- A row of two has two members. -/
theorem exists_of_admits_two {α : Type} {row : List α}
    (h : (Arity.exactly 2).admits row.length = true) : ∃ first second, row = [first, second] :=
  List.length_eq_two.1 (of_decide_eq_true h)

/-- A row of at least one has a first member. -/
theorem exists_of_admits_some {α : Type} {row : List α}
    (h : (Arity.atLeast 1).admits row.length = true) : ∃ first rest, row = first :: rest :=
  List.exists_cons_of_length_pos (of_decide_eq_true h)

/-- By position an operator is applied to what it takes as it is by pattern. -/
theorem Operator.applyAt?_eq {operator : Operator} {numbers : List Int64}
    (h : operator.takes.admits numbers.length = true) :
    operator.applyAt? numbers = some (operator.apply numbers) := by
  cases operator with
  | add => rfl
  | multiply => rfl
  | subtract =>
    obtain ⟨first, rest, rfl⟩ := exists_of_admits_some h
    simp [applyAt?, sliceFrom?]
  | divide =>
    obtain ⟨first, rest, rfl⟩ := exists_of_admits_some h
    simp [applyAt?, sliceFrom?]

/-- By position an operation on numbers does to what it takes what it does by pattern. -/
theorem NumericOperation.call?_eq {operation : NumericOperation} {numbers : List Int64}
    (h : operation.takes.admits numbers.length = true) :
    operation.call? numbers = some (operation.call numbers) := by
  cases operation with
  | arithmetic operator =>
    rw [call?, Operator.applyAt?_eq h]
    rfl
  | comparison relation =>
    obtain ⟨left, right, rfl⟩ := exists_of_admits_two h
    rfl
  | list => rfl

/-- By position an operation on booleans does to what it takes what it does by pattern. -/
theorem BooleanOperation.call?_eq {operation : BooleanOperation} {booleans : List Bool}
    (h : operation.takes.admits booleans.length = true) :
    operation.call? booleans = some (operation.call booleans) := by
  cases operation with
  | negation =>
    obtain ⟨operand, rfl⟩ := exists_of_admits_one h
    rfl
  | _ => rfl

/-- By position a general operation does to what it takes what it does by pattern. -/
theorem GeneralOperation.call?_eq {operation : GeneralOperation} {values : List Value}
    (h : operation.takes.admits values.length = true) :
    operation.call? values = some (operation.call values) := by
  cases operation with
  | select selector =>
    obtain ⟨value, rfl⟩ := exists_of_admits_one h
    cases value <;> rfl
  | isNull =>
    obtain ⟨value, rfl⟩ := exists_of_admits_one h
    cases value <;> rfl
  | isEq =>
    obtain ⟨left, right, rfl⟩ := exists_of_admits_two h
    rfl
  | _ => rfl

/-! ## Arguments of one kind -/

/-- The first argument that is not of a kind, with its place; the places count from the given
one. -/
def firstOther? (kind : ValueKind) (place : Nat) (arguments : List Value) : Option (Value × Nat) :=
  (arguments.zipIdx place).find? fun (argument, _) => argument.kind ≠ kind

/-- Reading arguments of one kind fails at the first one of another kind, and otherwise gives what
each of them holds. -/
theorem readArguments_cases {α : Type} {kind : ValueKind} {read? : Value → Option α}
    (hread : ∀ value, (read? value).isSome = true ↔ value.kind = kind) (place : Nat)
    (arguments : List Value) :
    (∃ contents, readArguments kind read? place arguments = .ok contents ∧
        contents.length = arguments.length ∧ firstOther? kind place arguments = none) ∨
      ∃ value index, firstOther? kind place arguments = some (value, index) ∧
        readArguments kind read? place arguments =
          .error (.typeMismatch (.argument index) kind value.kind) := by
  induction arguments generalizing place with
  | nil => exact .inl ⟨[], rfl, rfl, rfl⟩
  | cons argument arguments ih =>
    cases hargument : read? argument with
    | none =>
      have hkind : argument.kind ≠ kind := by
        rw [ne_eq, ← hread, hargument]
        exact Bool.false_ne_true
      refine .inr ⟨argument, place, ?_, ?_⟩
      · simp [firstOther?, hkind]
      · simp [readArguments, hargument]
    | some content =>
      have hkind : argument.kind = kind := by
        rw [← hread, hargument]
        rfl
      have hfirst : firstOther? kind place (argument :: arguments) =
          firstOther? kind (place + 1) arguments := by
        simp [firstOther?, hkind]
      rw [hfirst, readArguments, hargument]
      rcases ih (place + 1) with ⟨contents, hcontents, hlength, hnone⟩ | ⟨value, index, hsome, herror⟩
      · refine .inl ⟨content :: contents, ?_, by simp [hlength], hnone⟩
        rw [hcontents]
        rfl
      · refine .inr ⟨value, index, hsome, ?_⟩
        rw [herror]
        rfl

/-- Exactly the values of that kind are numbers. -/
theorem Value.isSome_number?_iff (value : Value) :
    value.number?.isSome = true ↔ value.kind = .number := by
  cases value <;> simp [number?, kind]

/-- Exactly the values of that kind are booleans. -/
theorem Value.isSome_boolean?_iff (value : Value) :
    value.boolean?.isSome = true ↔ value.kind = .boolean := by
  cases value <;> simp [boolean?, kind]

/-- Enough arguments have all positions that are taken. -/
theorem Procedure.call?_eq_of_takes {procedure : Procedure} {arguments : List Value}
    (hopen : procedure.isCounted = false)
    (h : procedure.takes.admits arguments.length = true) :
    procedure.call? arguments = some (procedure.call arguments) := by
  cases procedure with
  | counted arity inner => cases hopen
  | numeric operation =>
    rw [call?, call]
    rcases readArguments_cases Value.isSome_number?_iff 1 arguments with
      ⟨numbers, hnumbers, hlength, -⟩ | ⟨value, index, -, herror⟩
    · simp only [hnumbers]
      rw [← hlength] at h
      exact NumericOperation.call?_eq h
    · simp only [herror]
      rfl
  | boolean operation =>
    rw [call?, call]
    rcases readArguments_cases Value.isSome_boolean?_iff 1 arguments with
      ⟨booleans, hbooleans, hlength, -⟩ | ⟨value, index, -, herror⟩
    · simp only [hbooleans]
      rw [← hlength] at h
      exact BooleanOperation.call?_eq h
    · simp only [herror]
      rfl
  | general operation => exact GeneralOperation.call?_eq h

namespace Procedure

/-- A guarded procedure never reads beyond its arguments: taken by their positions, they give what
it gives. -/
theorem call?_eq {procedure : Procedure} (h : procedure.guarded = true) (arguments : List Value) :
    procedure.call? arguments = some (procedure.call arguments) := by
  rcases guarded_cases h with ⟨hopen, hwithin⟩ | ⟨arity, inner, rfl, hopen, hwithin⟩
  · exact call?_eq_of_takes hopen (Arity.admits_of_within hwithin (Arity.admits_any _))
  · rw [call?, call]
    split
    next hcount => exact call?_eq_of_takes hopen (Arity.admits_of_within hwithin hcount)
    next => rfl

/-- Without a check on the number of arguments an operation can read beyond them. -/
example : (numeric (.arithmetic .subtract)).call? [] = none := rfl

end Procedure

end MiniScheme

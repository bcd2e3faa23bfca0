import MiniScheme.Procedure.Call

/-!
# Evaluating forms

Expressions are evaluated in an environment.  The head of an application comes first and must
be a function, then its arguments from left to right, then the call.  A call of a closure
happens in a copy of the environment that the closure was made in, as it is at the time of the
call.  Fuel bounds the depth of evaluation and nothing else.

Main results:

- Theorem `evaluateProgram_append`: a program in two parts is evaluated part by part.
-/

namespace MiniScheme

/-! ## Quoted data -/

mutual

/-- The value of quoted data: identifiers become symbols of the environment. -/
def quoteDatum (id : EnvironmentId) : Datum → StateM Store Value
  | .atom token => do
    if token.kind = .identifier then return .symbol (← Store.intern id token.text)
    else return .ofLiteral token
  | .list items => do
    let values ← quoteItems id items
    return .list (← Store.list values)

/-- The values of quoted data, from left to right. -/
def quoteItems (id : EnvironmentId) : List Datum → StateM Store (List Value)
  | [] => return []
  | item :: items => do
    let value ← quoteDatum id item
    let values ← quoteItems id items
    return value :: values

end

/-! ## Calls -/

/-- The value of a row of expressions: that of the last, or nil if there is none. -/
def evaluateBody (evaluate : Expression → Evaluation Value) (body : List Expression) :
    Evaluation Value :=
  body.foldlM (fun _ expression => evaluate expression) .nil

/-- Call a function, where bodies are evaluated by the given evaluation.  A closure must get an
argument for each formal and ignores any further ones. -/
def callWith (evaluate : EnvironmentId → Expression → Evaluation Value) (function : Function)
    (arguments : List Value) : Evaluation Value :=
  match function with
  | .primitive _ _ procedure => procedure.call arguments
  | .closure _ formals body captured => do
    if arguments.length < formals.length then
      Action.fail (.arityMismatch (.atLeast formals.length) arguments.length)
    else
      let environment := (← get).environment captured
      let id ← Store.allocate (environment.enter formals arguments)
      evaluateBody (evaluate id) body

/-! ## Expressions -/

/-- The value of an expression in an environment. -/
def evaluate : Nat → EnvironmentId → Expression → Evaluation Value
  | 0, _, _ => Action.exhausted
  | fuel + 1, id, expression =>
    match expression with
    | .literal token => do
      if token.kind = .identifier then
        match ← Store.lookup id token.text with
        | some value => return value
        | none => Action.fail (.undefinedIdentifier token.text)
      else return .ofLiteral token
    | .quoted datum => quoteDatum id datum
    | .conditional predicate consequent alternative => do
      match ← evaluate fuel id predicate with
      | .boolean true => evaluate fuel id consequent
      | .boolean false => evaluate fuel id alternative
      | value => Action.fail (.typeMismatch .predicate .boolean value.kind)
    | .lambda formals body => do
      return .function (← Store.closure (formals.map Token.text) body id)
    | .application head arguments => do
      match ← evaluate fuel id head with
      | .function function =>
        let values ← arguments.mapM (evaluate fuel id)
        callWith (evaluate fuel) function values
      | value => Action.fail (.notCallable value.text)

/-- Call a function. -/
def call (fuel : Nat) (function : Function) (arguments : List Value) : Evaluation Value :=
  callWith (evaluate fuel) function arguments

/-- The value of a form; a definition binds its name and has the value nil. -/
def evaluateForm (fuel : Nat) (id : EnvironmentId) : Form → Evaluation Value
  | .definition name value => do
    let value ← evaluate fuel id value
    Store.define id name.text value
    return .nil
  | .expression expression => evaluate fuel id expression

/-- The value of the last form of a program, or nil if it has none; the first error ends it. -/
def evaluateProgram (fuel : Nat) (id : EnvironmentId) (program : Program) : Evaluation Value :=
  program.foldlM (fun _ form => evaluateForm fuel id form) .nil

/-- A program in two parts is evaluated part by part. -/
theorem evaluateProgram_append (fuel : Nat) (id : EnvironmentId) (first : Program) (form : Form)
    (rest : Program) :
    evaluateProgram fuel id (first ++ form :: rest) =
      (do let _ ← evaluateProgram fuel id first; evaluateProgram fuel id (form :: rest)) := by
  simp [evaluateProgram, List.foldlM_append]

end MiniScheme

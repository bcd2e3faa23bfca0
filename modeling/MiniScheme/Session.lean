import MiniScheme.Evaluation.Evaluate
import MiniScheme.Form.Reader

/-!
# Running sources

To run a source is to read all of it and then to evaluate its well-formed forms in order up to
the first error.  Errors of reading are reported after that, together with the error of
evaluation if there was one.
-/

namespace MiniScheme

/-- Why a run did not end with a value. -/
inductive RunError
  | malformed (errors : List SyntaxError)
  | malformedAndFailed (errors : List SyntaxError) (error : EvalError)
  | failed (error : EvalError)

/-- The errors in words, those of reading first, one a line. -/
def RunError.message : RunError → String
  | malformed errors => SyntaxError.messages errors
  | malformedAndFailed errors error => SyntaxError.messages errors ++ "\n" ++ error.message
  | failed error => error.message

/-- How a run ends, by the errors of reading and the end of evaluation. -/
def runResult (errors : List SyntaxError) (result : Except (Stop EvalError) Value) :
    Except (Stop RunError) Value :=
  match result, errors with
  | .ok value, [] => .ok value
  | .ok _, errors => .error (.failed (.malformed errors))
  | .error (.failed error), [] => .error (.failed (.failed error))
  | .error (.failed error), errors => .error (.failed (.malformedAndFailed errors error))
  | .error .exhausted, _ => .error .exhausted

/-- Run a source in an environment. -/
def run (fuel : Nat) (id : EnvironmentId) (source : String) : Action RunError Value :=
  ExceptT.mk do
    let (program, errors) := readSource source
    let result ← (evaluateProgram fuel id program).run
    return runResult errors result

/-- A run reads its source, evaluates the program that it finds, and ends with the errors of both.
-/
theorem run_eq (fuel : Nat) (id : EnvironmentId) (source : String) (store : Store) :
    (run fuel id source).runOn store =
      (runResult (readSource source).2
        ((evaluateProgram fuel id (readSource source).1).runOn store).1,
        ((evaluateProgram fuel id (readSource source).1).runOn store).2) :=
  rfl

/-! ## Sessions -/

/-- What sources are run in one after another: an environment, a bound on the depth of
evaluation, and the store. -/
structure Session where
  environment : EnvironmentId
  fuel : Nat
  store : Store

namespace Session

/-- A session in a new environment of the primitive functions. -/
def new (fuel : Nat) (clock : Clock) : Session :=
  let (environment, store) := Store.allocateGlobal.run (Store.initial clock)
  ⟨environment, fuel, store⟩

/-- The session with another clock. -/
def atTime (session : Session) (clock : Clock) : Session :=
  { session with store := { session.store with clock } }

/-- What an action that went on too long is reported as. -/
def exhaustedMessage : String :=
  "evaluation is nested too deeply"

/-- Run a source: the value or the errors in words, what was printed, and the session after. -/
def runSource (session : Session) (source : String) :
    Except String Value × String × Session :=
  let (result, store) := (run session.fuel session.environment source).runOn session.store
  let (printed, store) := Store.takeOutput.run store
  let result := match result with
    | .ok value => .ok value
    | .error (.failed error) => .error error.message
    | .error .exhausted => .error exhaustedMessage
  (result, printed, { session with store })

end Session

end MiniScheme

import MiniScheme.Evaluation.Error
import MiniScheme.Store

/-!
# Evaluations

An evaluation works on the store and ends with a value, with an error, or because its fuel is
exhausted.  The store keeps what was done before an error.
-/

namespace MiniScheme

/-- Why something did not end with a value. -/
inductive Stop (ε : Type)
  | failed (error : ε)
  | exhausted
deriving DecidableEq

/-- Work on the store that may stop early. -/
abbrev Action (ε α : Type) :=
  ExceptT (Stop ε) (StateM Store) α

/-- Work on the store that may end with an evaluation error. -/
abbrev Evaluation (α : Type) :=
  Action EvalError α

namespace Action

variable {ε α : Type}

/-- End with an error. -/
def fail (error : ε) : Action ε α :=
  throw (.failed error)

/-- End for want of fuel. -/
def exhausted : Action ε α :=
  throw .exhausted

/-- Go on with a result or end with its error. -/
def ofExcept : Except ε α → Action ε α
  | .ok value => pure value
  | .error error => fail error

/-- Do it all on a store: how it ended, and the store then. -/
def runOn (action : Action ε α) (store : Store) : Except (Stop ε) α × Store :=
  (ExceptT.run action).run store

end Action

end MiniScheme

import MiniScheme.Table
import MiniScheme.Value.Basic

/-!
# Environments

An environment holds the values bound to names and the symbols that names are interned as.  A
child starts as a copy of its parent; what happens to either later stays with it.
-/

namespace MiniScheme

/-- The bindings of names and the symbols of names. -/
structure Environment where
  bindings : Table Value
  symbols : Table Symbol

namespace Environment

/-- The environment without bindings and symbols. -/
def empty : Environment :=
  ⟨.empty, .empty⟩

/-- The value bound to a name. -/
def get? (environment : Environment) (name : String) : Option Value :=
  environment.bindings.get? name

/-- The symbol that a name is interned as. -/
def symbol? (environment : Environment) (name : String) : Option Symbol :=
  environment.symbols.get? name

/-- The environment with a value bound to a name. -/
def define (environment : Environment) (name : String) (value : Value) : Environment :=
  { environment with bindings := environment.bindings.insert name value }

/-- The environment with a symbol interned under its name. -/
def addSymbol (environment : Environment) (symbol : Symbol) : Environment :=
  { environment with symbols := environment.symbols.insert symbol.name symbol }

/-- The environment of a call: the captured one with formals bound to arguments, a later formal
of the same name hiding the earlier ones. -/
def enter (environment : Environment) (formals : List String) (arguments : List Value) :
    Environment :=
  { environment with bindings := environment.bindings.insertAll (formals.zip arguments) }

/-- The primitive functions, with consecutive identities, as bindings of their names. -/
def primitiveBindings (identity : Nat) : List (String × Procedure) → List (String × Value)
  | [] => []
  | (name, procedure) :: rest =>
    (name, .function (.primitive identity name procedure)) ::
      primitiveBindings (identity + 1) rest

/-- The environment of the primitive functions. -/
def global (identity : Nat) : Environment :=
  { empty with bindings := Table.empty.insertAll (primitiveBindings identity primitives) }

end Environment

end MiniScheme

import MiniScheme.Script.Name

/-!
# The prelude

Definitions of the primitive functions that a script can do without the evaluator, as they are
written in front of a script.
-/

namespace MiniScheme.Script

/-- The primitive functions and how a script defines them. -/
def preludeBodies : List (String × String) :=
  [("+", "(...a) => a.reduce((x, y) => x + y, 0)"),
   ("-", "(x, ...a) => a.reduce((s, y) => s - y, x)"),
   ("*", "(...a) => a.reduce((x, y) => x * y, 1)"),
   ("/", "(x, ...a) => a.reduce((s, y) => \x7b if (y === 0) throw new Error(\"division by zero\"); " ++
      "return Math.trunc(s / y); \x7d, x)"),
   ("=", "(a, b) => a === b"),
   (">=", "(a, b) => a >= b"),
   ("<=", "(a, b) => a <= b"),
   (">", "(a, b) => a > b"),
   ("<", "(a, b) => a < b"),
   ("and", "(...a) => a.every((x) => x)"),
   ("or", "(...a) => a.some((x) => x)"),
   ("not", "(x) => !x"),
   ("eq?", "(a, b) => a === b"),
   ("p", "(...a) => \x7b console.log(a.join(\" \")); return null; \x7d"),
   ("time", "() => Date.now()")]

/-- The names that the prelude declares. -/
def preludeNames : List String :=
  preludeBodies.map fun (identifier, _) => Name.ofIdentifier identifier

/-- The lines of the prelude. -/
def preludeLines : List String :=
  preludeBodies.map fun (identifier, body) =>
    "let " ++ Name.ofIdentifier identifier ++ " = " ++ body ++ ";"

end MiniScheme.Script

import MiniScheme.Number
import MiniScheme.Script.Literal

/-!
# Scripts

The part of JavaScript that programs are compiled to, and how it is written.  A script is a
sequence of statements, one a line.
-/

namespace MiniScheme.Script

/-- An expression of a script. -/
inductive Term
  | name (name : String)
  | number (value : Int64)
  | boolean (value : Bool)
  | string (value : String)
  | null
  | conditional (test whenTrue whenFalse : Term)
  | function (parameters : List String) (steps : List Term) (result : Term)
  | call (head : Term) (arguments : List Term)

/-- A statement of a script. -/
inductive Statement
  | declare (name : String) (value : Term)
  | assign (name : String) (value : Term)
  | evaluate (term : Term)

mutual

/-- A term as it is written. -/
def Term.text : Term → String
  | .name spelling => spelling
  | .number n => Number.text n
  | .boolean b => if b then "true" else "false"
  | .string s => Literal.ofText s
  | .null => "null"
  | .conditional test whenTrue whenFalse =>
    "(" ++ test.text ++ " ? " ++ whenTrue.text ++ " : " ++ whenFalse.text ++ ")"
  | .function parameters steps result =>
    "(function(" ++ ", ".intercalate parameters ++ ") \x7b " ++
      String.join ((Term.texts steps).map (· ++ "; ")) ++ "return " ++ result.text ++ "; \x7d)"
  | .call head arguments => head.text ++ "(" ++ ", ".intercalate (Term.texts arguments) ++ ")"

/-- Terms as they are written. -/
def Term.texts : List Term → List String
  | [] => []
  | term :: terms => term.text :: Term.texts terms

end

/-- A statement as it is written, without the end of its line. -/
def Statement.text : Statement → String
  | declare name value => "let " ++ name ++ " = " ++ value.text ++ ";"
  | assign name value => name ++ " = " ++ value.text ++ ";"
  | evaluate term => term.text ++ ";"

/-- Lines, each with its end. -/
def lines (texts : List String) : String :=
  String.join (texts.map (· ++ "\n"))

end MiniScheme.Script

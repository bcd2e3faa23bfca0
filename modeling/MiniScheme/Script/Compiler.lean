import MiniScheme.Form.Basic
import MiniScheme.Script.Basic
import MiniScheme.Script.Prelude

/-!
# Compiling programs to scripts

Each form becomes one statement.  The first definition of a name declares it and later ones
assign to it; the names declared so far outlive a compilation, also one that fails.  Quoted
data and functions without a body have no script.
-/

namespace MiniScheme.Script

/-- What has no script. -/
inductive Unsupported
  | quotedDatum
  | emptyBody
deriving DecidableEq

/-- What has no script, in words. -/
def Unsupported.message : Unsupported → String
  | quotedDatum => "cannot compile quoted datum"
  | emptyBody => "cannot compile empty lambda body"

/-! ## Expressions -/

/-- The term of a constant; a character is a string of one. -/
def Term.ofConstant : Constant → Term
  | .number n => .number n
  | .boolean b => .boolean b
  | .character c => .string c.toString
  | .string s => .string s

/-- The term of a token; a token without a constant has the term null. -/
def Term.ofToken (token : Token) : Term :=
  if token.kind = .identifier then .name (Name.ofIdentifier token.text)
  else
    match token.constant with
    | some constant => .ofConstant constant
    | none => .null

/-- The names of formals. -/
def parameterNames (formals : List Token) : List String :=
  formals.map fun formal => Name.ofIdentifier formal.text

/-- A function that takes some steps and returns what the last of its terms is. -/
def functionTerm (parameters : List String) (terms : List Term) : Except Unsupported Term :=
  match terms.getLast? with
  | some result => .ok (.function parameters terms.dropLast result)
  | none => .error .emptyBody

mutual

/-- The term of an expression. -/
def Term.ofExpression : Expression → Except Unsupported Term
  | .literal token => .ok (.ofToken token)
  | .quoted _ => .error .quotedDatum
  | .conditional predicate consequent alternative => do
    let test ← Term.ofExpression predicate
    let whenTrue ← Term.ofExpression consequent
    let whenFalse ← Term.ofExpression alternative
    return .conditional test whenTrue whenFalse
  | .lambda formals body => do
    let terms ← Term.ofExpressions body
    functionTerm (parameterNames formals) terms
  | .application head arguments => do
    let head ← Term.ofExpression head
    let arguments ← Term.ofExpressions arguments
    return .call head arguments

/-- The terms of expressions, in order. -/
def Term.ofExpressions : List Expression → Except Unsupported (List Term)
  | [] => .ok []
  | expression :: expressions => do
    let term ← Term.ofExpression expression
    let terms ← Term.ofExpressions expressions
    return term :: terms

end

/-! ## Programs -/

/-- The statement of a form, and the declared names with those that it declares. -/
def Statement.ofForm (declared : List String) :
    Form → Except Unsupported (Statement × List String)
  | .definition name value => do
    let value ← Term.ofExpression value
    let name := Name.ofIdentifier name.text
    if name ∈ declared then return (.assign name value, declared)
    else return (.declare name value, name :: declared)
  | .expression expression => do
    return (.evaluate (← Term.ofExpression expression), declared)

/-- The statements of a program, and the names declared in the end, also if a form of it has
no script. -/
def Statement.ofProgram (declared : List String) :
    Program → Except Unsupported (List Statement) × List String
  | [] => (.ok [], declared)
  | form :: forms =>
    match Statement.ofForm declared form with
    | .error reason => (.error reason, declared)
    | .ok (statement, declared) =>
      let (rest, declared) := Statement.ofProgram declared forms
      (rest.map (statement :: ·), declared)

/-- A compiler knows the names declared so far, and whether to begin with the prelude. -/
structure Compiler where
  declared : List String
  prelude : Bool

namespace Compiler

/-- A compiler that has declared nothing. -/
def new (prelude : Bool) : Compiler :=
  ⟨[], prelude⟩

/-- The lines that every script begins with. -/
def opening (compiler : Compiler) : List String :=
  if compiler.prelude then preludeLines else []

/-- The names declared once a script has begun. -/
def openingNames (compiler : Compiler) : List String :=
  if compiler.prelude then preludeNames ++ compiler.declared else compiler.declared

/-- The script of a program, and the compiler after it. -/
def compile (compiler : Compiler) (program : Program) :
    Except Unsupported String × Compiler :=
  let (statements, declared) := Statement.ofProgram compiler.openingNames program
  (statements.map fun statements =>
    lines (compiler.opening ++ statements.map Statement.text),
    { compiler with declared })

end Compiler

end MiniScheme.Script

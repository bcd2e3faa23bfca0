import MiniScheme.Token.Basic

/-!
# Forms

A program is a list of top-level forms: definitions and expressions.  The leaves are tokens,
so that a form knows where it stands and how its literals were written.  The types admit more
than a source can hold, such as a function without a body or a reserved word as a literal.
-/

namespace MiniScheme

/-- Quoted data. -/
inductive Datum
  | atom (token : Token)
  | list (items : List Datum)

/-- An expression; a literal is a constant or an identifier. -/
inductive Expression
  | literal (token : Token)
  | quoted (datum : Datum)
  | conditional (predicate consequent alternative : Expression)
  | lambda (formals : List Token) (body : List Expression)
  | application (head : Expression) (arguments : List Expression)

/-- A top-level form. -/
inductive Form
  | definition (name : Token) (value : Expression)
  | expression (expression : Expression)

/-- A program is its forms in the order of the source. -/
abbrev Program :=
  List Form

end MiniScheme

import MiniScheme.Form.Basic
import MiniScheme.Form.Error

/-!
# Reading a form token by token

A form that is being read is what has been read of it so far, together with what may come
next.  The part around the place where the reader stands is kept inside out: a place for an
expression knows the construct that it belongs to, with the finished parts of it, and the
place of that construct.  One token moves the expectation on, completes the form, or is
rejected; what is rejected depends on nothing but the expectation and the token.

Grammar, with `atom` for constants and identifiers:

- form: `( define identifier expression )` or an expression;
- expression: an atom, `' datum`, `( quote datum )`,
  `( if expression expression expression )`, `( lambda ( identifier ... ) expression ... )`
  with at least one expression, or `( expression expression ... )`;
- datum: an atom or `( datum ... )`.
-/

namespace MiniScheme

/-! ## Places -/

/-- A row of expressions that is being read, with those read so far, the latest first. -/
inductive Row
  | arguments (head : Expression) (read : List Expression)
  | body (formals : List Token) (read : List Expression)

namespace Row

/-- The row with one more expression. -/
def add (row : Row) (expression : Expression) : Row :=
  match row with
  | arguments head read => arguments head (expression :: read)
  | body formals read => body formals (expression :: read)

/-- The expression that the row makes when it ends. -/
def close : Row → Expression
  | arguments head read => .application head read.reverse
  | body formals read => .lambda formals read.reverse

end Row

/-- A place for an expression: the whole form, the value of a definition, or a part of a
larger expression that has its own place. -/
inductive Place
  | form
  | value (name : Token)
  | head (outer : Place)
  | element (row : Row) (outer : Place)
  | predicate (outer : Place)
  | consequent (predicate : Expression) (outer : Place)
  | alternative (predicate consequent : Expression) (outer : Place)

/-- A place for a datum: after a quote mark, after the word `quote`, or in a list. -/
inductive DatumPlace
  | afterMark (outer : Place)
  | afterWord (outer : Place)
  | item (read : List Datum) (outer : DatumPlace)

/-- The number of parentheses that are open at a place. -/
def Place.depth : Place → Nat
  | form => 0
  | value _ => 1
  | head outer => outer.depth + 1
  | element _ outer => outer.depth + 1
  | predicate outer => outer.depth + 1
  | consequent _ outer => outer.depth + 1
  | alternative _ _ outer => outer.depth + 1

/-- The number of parentheses that are open at a place for a datum. -/
def DatumPlace.depth : DatumPlace → Nat
  | afterMark outer => outer.depth
  | afterWord outer => outer.depth + 1
  | item _ outer => outer.depth + 1

/-! ## Expectations -/

/-- What may come next in a form that is being read. -/
inductive Expectation
  /-- An expression. -/
  | expression (place : Place)
  /-- What follows the parenthesis that opens an expression or a definition. -/
  | opened (place : Place)
  /-- The name that a definition gives. -/
  | name
  /-- A further expression of a row, or its end. -/
  | more (row : Row) (outer : Place)
  /-- The parenthesis before the formals of a function. -/
  | formalsOpen (place : Place)
  /-- A further formal, or the end of the formals. -/
  | formals (read : List Token) (place : Place)
  /-- A datum. -/
  | datum (place : DatumPlace)
  /-- A further item of a list, or its end. -/
  | items (read : List Datum) (place : DatumPlace)
  /-- The end of an expression that is complete otherwise. -/
  | close (whole : Expression) (place : Place)
  /-- The end of a definition. -/
  | closeDefinition (name : Token) (value : Expression)

namespace Expectation

/-- What may come at the beginning of a form. -/
def start : Expectation :=
  .expression .form

/-- The number of parentheses that are open where the reader stands. -/
def depth : Expectation → Nat
  | expression place => place.depth
  | opened place => place.depth + 1
  | name => 1
  | more _ outer => outer.depth + 1
  | formalsOpen place => place.depth + 1
  | formals _ place => place.depth + 2
  | datum place => place.depth
  | items _ place => place.depth + 1
  | close _ place => place.depth + 1
  | closeDefinition _ _ => 1

end Expectation

/-- What a token does to an expectation. -/
inductive Step
  | next (expectation : Expectation)
  | form (form : Form)
  | reject (error : SyntaxError)

/-! ## Filling a place -/

/-- What follows once the expression at a place is complete. -/
def Place.fill (place : Place) (expression : Expression) : Step :=
  match place with
  | form => .form (.expression expression)
  | value name => .next (.closeDefinition name expression)
  | head outer => .next (.more (.arguments expression []) outer)
  | element row outer => .next (.more (row.add expression) outer)
  | predicate outer => .next (.expression (.consequent expression outer))
  | consequent test outer => .next (.expression (.alternative test expression outer))
  | alternative test whenTrue outer =>
    .next (.close (.conditional test whenTrue expression) outer)

/-- What follows once the datum at a place is complete. -/
def DatumPlace.fill (place : DatumPlace) (datum : Datum) : Step :=
  match place with
  | afterMark outer => outer.fill (.quoted datum)
  | afterWord outer => .next (.close (.quoted datum) outer)
  | item read outer => .next (.items (datum :: read) outer)

/-- A token where an expression must start. -/
def Place.startExpression (place : Place) (token : Token) : Step :=
  match token.kind with
  | .openParen => .next (.opened place)
  | .quoteMark => .next (.datum (.afterMark place))
  | kind =>
    if kind.isAtom then place.fill (.literal token)
    else .reject (.unexpected token)

/-- A token where a datum must start. -/
def DatumPlace.startDatum (place : DatumPlace) (token : Token) : Step :=
  match token.kind with
  | .openParen => .next (.items [] place)
  | kind =>
    if kind.isAtom then place.fill (.atom token)
    else .reject (.unexpected token)

/-- The token after an opening parenthesis: a reserved word selects a construct, and any other
token belongs to the head of an application. -/
def Place.startConstruct (place : Place) (token : Token) : Step :=
  match token.kind, place with
  | .keyword .lambda, _ => .next (.formalsOpen place)
  | .keyword .conditional, _ => .next (.expression (.predicate place))
  | .keyword .quote, _ => .next (.datum (.afterWord place))
  | .keyword .define, .form => .next .name
  | _, _ => (Place.head place).startExpression token

/-! ## One token -/

namespace Expectation

/-- A token where only one kind can stand. -/
def require (kind : TokenKind) (token : Token) (step : Step) : Step :=
  if token.kind = kind then step else .reject (.expected kind token)

/-- What a token does to an expectation. -/
def step (expectation : Expectation) (token : Token) : Step :=
  match expectation with
  | expression place => place.startExpression token
  | opened place => place.startConstruct token
  | name => require .identifier token (.next (.expression (.value token)))
  | more row outer =>
    if token.kind.startsExpression then (Place.element row outer).startExpression token
    else require .closeParen token (outer.fill row.close)
  | formalsOpen place => require .openParen token (.next (.formals [] place))
  | formals read place =>
    if token.kind = .identifier then .next (.formals (token :: read) place)
    else require .closeParen token
      (.next (.expression (.element (.body read.reverse []) place)))
  | datum place => place.startDatum token
  | items read place =>
    if token.kind.startsDatum then (DatumPlace.item read place).startDatum token
    else require .closeParen token (place.fill (.list read.reverse))
  | close whole place => require .closeParen token (place.fill whole)
  | closeDefinition defined value =>
    require .closeParen token (.form (.definition defined value))

end Expectation

/-! ## The end of a source moves nothing on -/

/-- No expression starts with the end. -/
theorem Place.startExpression_end (place : Place) {token : Token}
    (h : token.kind = .endOfSource) :
    place.startExpression token = .reject (.unexpected token) := by
  simp [startExpression, h, TokenKind.isAtom]

/-- No datum starts with the end. -/
theorem DatumPlace.startDatum_end (place : DatumPlace) {token : Token}
    (h : token.kind = .endOfSource) :
    place.startDatum token = .reject (.unexpected token) := by
  simp [startDatum, h, TokenKind.isAtom]

/-- The end of a source is rejected wherever a form has begun or must begin. -/
theorem Expectation.step_end (expectation : Expectation) {token : Token}
    (h : token.kind = .endOfSource) :
    ∃ error, expectation.step token = .reject error := by
  cases expectation <;>
    simp [step, require, h, Place.startExpression_end, DatumPlace.startDatum_end,
      Place.startConstruct, TokenKind.startsExpression, TokenKind.startsDatum, TokenKind.isAtom]

end MiniScheme

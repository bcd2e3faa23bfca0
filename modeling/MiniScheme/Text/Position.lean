/-!
# Positions in a source text

A position counts lines and columns from one, and a column counts characters, whatever
their width.  Walking over a piece of text moves a position character by character.

Main results:

- Theorem `advance_append`: walking over two pieces in turn is walking over their
  concatenation, so positions may be computed piece by piece.
-/

namespace MiniScheme

/-- A place in a source text. -/
structure Position where
  line : Nat
  column : Nat
deriving DecidableEq

namespace Position

/-- The place of the first character of a text. -/
def start : Position := ⟨1, 1⟩

/-- The place after a character: a newline starts the next line. -/
def next (position : Position) (c : Char) : Position :=
  if c = '\n' then ⟨position.line + 1, 1⟩ else ⟨position.line, position.column + 1⟩

/-- The place after a piece of text. -/
def advance (position : Position) (text : List Char) : Position :=
  text.foldl next position

/-- A place as it is written in messages: line, colon, column. -/
def text (position : Position) : String :=
  s!"{position.line}:{position.column}"

/-- Walking over nothing leads nowhere. -/
@[simp]
theorem advance_nil (position : Position) : position.advance [] = position :=
  rfl

/-- Walking over a text begins with its first character. -/
@[simp]
theorem advance_cons (position : Position) (c : Char) (text : List Char) :
    position.advance (c :: text) = (position.next c).advance text :=
  rfl

/-- Walking over two pieces in turn is walking over their concatenation. -/
@[simp]
theorem advance_append (position : Position) (first second : List Char) :
    position.advance (first ++ second) = (position.advance first).advance second :=
  List.foldl_append

end Position

end MiniScheme

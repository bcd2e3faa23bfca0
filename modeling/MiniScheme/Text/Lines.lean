/-!
# The lines of a text

A line ends with a newline, or with a carriage return and a newline; the last line may end with
the text.
-/

namespace MiniScheme.Lines

/-- A line without the carriage return at its end. -/
def withoutReturn (line : List Char) : List Char :=
  if line.getLast? = some '\r' then line.dropLast else line

/-- The lines of a text, given the beginning of the first one, the latest character first. -/
def split (begun : List Char) : List Char → List (List Char)
  | [] => if begun.isEmpty then [] else [begun.reverse]
  | c :: text =>
    if c = '\n' then withoutReturn begun.reverse :: split [] text
    else split (c :: begun) text

/-- The lines of a text without their ends. -/
def ofText (text : String) : List String :=
  (split [] text.toList).map String.ofList

end MiniScheme.Lines

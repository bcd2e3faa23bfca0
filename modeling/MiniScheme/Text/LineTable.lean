import MiniScheme.Text.Position

/-!
# Tables of lines

A table of lines says for a text at which byte each line starts.  The place of a character is found
from the byte at which the character starts: its line is the last one that does not start behind
it, and its column is found by counting the characters of this line in front of it.  Neither is
found if there is no such line, or if the byte is inside a character.
-/

namespace MiniScheme

/-! ## Bytes of texts -/

/-- How many bytes a text has. -/
def byteLength : List Char → Nat
  | [] => 0
  | c :: text => c.utf8Size + byteLength text

/-- The first characters of a text, if they have this number of bytes. -/
def takeBytes? : Nat → List Char → Option (List Char)
  | 0, _ => some []
  | _ + 1, [] => none
  | bytes + 1, c :: text =>
    if c.utf8Size ≤ bytes + 1 then (takeBytes? (bytes + 1 - c.utf8Size) text).map (c :: ·) else none

/-- A text without its first characters, if they have this number of bytes. -/
def dropBytes? : Nat → List Char → Option (List Char)
  | 0, text => some text
  | _ + 1, [] => none
  | bytes + 1, c :: text =>
    if c.utf8Size ≤ bytes + 1 then dropBytes? (bytes + 1 - c.utf8Size) text else none

/-- The piece of a text from one byte to another. -/
def sliceBytes? (text : List Char) (first last : Nat) : Option (List Char) := do
  takeBytes? (last - first) (← dropBytes? first text)

/-! ## Tables -/

/-- A text and the bytes at which its lines start. -/
structure LineTable where
  text : List Char
  starts : List Nat

namespace LineTable

/-- The bytes at which lines start in a text that begins at some byte, but for its first line. -/
def startsFrom (first : Nat) : List Char → List Nat
  | [] => []
  | c :: text =>
    if c = '\n' then (first + 1) :: startsFrom (first + 1) text
    else startsFrom (first + c.utf8Size) text

/-- The table of a text. -/
def ofText (text : List Char) : LineTable :=
  ⟨text, 0 :: startsFrom 0 text⟩

/-- The number of the line that a byte is in: how many lines do not start behind it. -/
def line (table : LineTable) (byte : Nat) : Nat :=
  (table.starts.takeWhile (· ≤ byte)).length

/-- The place of the character that starts at a byte. -/
def position? (table : LineTable) (byte : Nat) : Option Position := do
  let first ← table.starts[table.line byte - 1]?
  let piece ← sliceBytes? table.text first byte
  return ⟨table.line byte, piece.length + 1⟩

end LineTable

end MiniScheme

import MiniScheme.Text.Blank

/-!
# Entries of several lines

At the console an entry goes on until its parentheses are balanced and no string is open.  The
buffer keeps the lines of an unfinished entry and counts parentheses as it goes; those in
strings, comments and character literals do not count.

Main results:

- Theorem `push_eq`: a line either leaves the entry open, and then it is kept, or leaves the
  buffer empty.
-/

namespace MiniScheme

/-- How far the text so far is from being a whole entry. -/
structure Balance where
  depth : Int
  inString : Bool
deriving DecidableEq

namespace Balance

/-- Nothing is open. -/
def even : Balance :=
  ⟨0, false⟩

/-- The balance with one more parenthesis open. -/
def openOne (balance : Balance) : Balance :=
  { balance with depth := balance.depth + 1 }

/-- The balance with one parenthesis less open. -/
def closeOne (balance : Balance) : Balance :=
  { balance with depth := balance.depth - 1 }

/-- The balance after a string has begun or ended. -/
def toggleString (balance : Balance) : Balance :=
  { balance with inString := !balance.inString }

/-- The balance after the rest of a line. -/
def scan (balance : Balance) : List Char → Balance
  | [] => balance
  | '\\' :: c :: text =>
    if balance.inString then balance.scan text else balance.scan (c :: text)
  | '#' :: '\\' :: c :: text =>
    if balance.inString then balance.scan ('\\' :: c :: text) else balance.scan text
  | c :: text =>
    if c = '"' then balance.toggleString.scan text
    else if balance.inString then balance.scan text
    else if c = ';' then balance
    else if c = '(' then balance.openOne.scan text
    else if c = ')' then balance.closeOne.scan text
    else balance.scan text

/-- Whether the entry must go on. -/
def isOpen (balance : Balance) : Bool :=
  0 < balance.depth || balance.inString

end Balance

/-- The lines of an unfinished entry and their balance. -/
structure EntryBuffer where
  lines : List String
  balance : Balance
deriving DecidableEq

namespace EntryBuffer

/-- The buffer without lines. -/
def empty : EntryBuffer :=
  ⟨[], .even⟩

/-- Whether a new entry begins with the next line. -/
def isEmpty (buffer : EntryBuffer) : Bool :=
  buffer.lines.isEmpty

/-- The number of parentheses that are open, which is negative if too many were closed. -/
def depth (buffer : EntryBuffer) : Int :=
  buffer.balance.depth

/-- The lines as one text. -/
def text (buffer : EntryBuffer) : String :=
  "\n".intercalate buffer.lines

/-- The buffer with one more line. -/
def add (buffer : EntryBuffer) (line : String) : EntryBuffer :=
  ⟨buffer.lines ++ [line], buffer.balance.scan line.toList⟩

/-- Add a line; the entry that it finishes is returned unless it is blank. -/
def push (buffer : EntryBuffer) (line : String) : Option String × EntryBuffer :=
  let buffer := buffer.add line
  if buffer.balance.isOpen then (none, buffer)
  else if Blank.isBlankText buffer.text.toList then (none, empty)
  else (some buffer.text, empty)

/-- A line either leaves the entry open, and then it is kept, or leaves the buffer empty. -/
theorem push_eq (buffer : EntryBuffer) (line : String) :
    (buffer.push line).2 =
      if (buffer.add line).balance.isOpen then buffer.add line else empty := by
  simp only [push]
  split
  · rfl
  · split <;> rfl

/-- What asks for the next line: how deep the entry is, and an indentation. -/
def prompt (buffer : EntryBuffer) : String :=
  if buffer.isEmpty then "> "
  else
    let depth := buffer.depth.toNat
    toString depth ++ "? " ++ String.join (List.replicate depth "  ")

end EntryBuffer

end MiniScheme

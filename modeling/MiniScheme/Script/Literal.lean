/-!
# String literals in scripts

A string literal stands between double quotes.  Quotes, backslashes, newlines, carriage returns
and tabs are written with a backslash, and all else as it is, so that a literal stays on one
line.

Main results:

- Theorem `decode_encode`: the text can be read back from what stands between the quotes.
-/

namespace MiniScheme.Script.Literal

/-- The character after the backslash, for a character that is written with one. -/
def escape? (c : Char) : Option Char :=
  match c with
  | '"' => some '"'
  | '\\' => some '\\'
  | '\n' => some 'n'
  | '\r' => some 'r'
  | '\t' => some 't'
  | _ => none

/-- The character that a backslash and a character stand for. -/
def unescape (c : Char) : Char :=
  match c with
  | 'n' => '\n'
  | 'r' => '\r'
  | 't' => '\t'
  | c => c

/-- What stands between the quotes for a text. -/
def encode : List Char → List Char
  | [] => []
  | c :: text =>
    match escape? c with
    | some escaped => '\\' :: escaped :: encode text
    | none => c :: encode text

/-- The text that stands between the quotes. -/
def decode : List Char → List Char
  | [] => []
  | '\\' :: c :: text => unescape c :: decode text
  | c :: text => c :: decode text

/-- The literal of a text. -/
def ofText (text : String) : String :=
  "\"" ++ String.ofList (encode text.toList) ++ "\""

/-- An escape stands for the character that it was made for. -/
theorem unescape_of_escape? {c escaped : Char} (h : escape? c = some escaped) :
    unescape escaped = c := by
  unfold escape? at h
  split at h <;> first | (cases Option.some.inj h; rfl) | cases h

/-- The text can be read back from what stands between the quotes. -/
@[simp]
theorem decode_encode (text : List Char) : decode (encode text) = text := by
  induction text with
  | nil => rfl
  | cons c text ih =>
    unfold encode
    split
    next escaped h => simp [decode, unescape_of_escape? h, ih]
    next h =>
      have hc : c ≠ '\\' := by rintro rfl; simp [escape?] at h
      simp [decode, hc, ih]

end MiniScheme.Script.Literal

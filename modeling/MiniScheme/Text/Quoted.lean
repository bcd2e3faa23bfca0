import MiniScheme.Text.Hidden

/-!
# A character in single quotes

Messages name a character between single quotes.  The quote, the backslash and four controls
have escapes of two characters, any other hidden character is written by its code, and all
else stands for itself.
-/

namespace MiniScheme.Quoted

/-- A character by its code: lower-case hexadecimal digits without leading zeros. -/
def byCode (c : Char) : String :=
  "\\u\x7b" ++ String.ofList (Nat.toDigits 16 c.toNat) ++ "\x7d"

/-- What stands between the quotes for a character. -/
def body (c : Char) : String :=
  if c = '\x00' then "\\0"
  else if c = '\t' then "\\t"
  else if c = '\r' then "\\r"
  else if c = '\n' then "\\n"
  else if c = '\'' then "\\'"
  else if c = '\\' then "\\\\"
  else if Hidden.isHidden c then byCode c
  else c.toString

/-- A character between single quotes. -/
def quoted (c : Char) : String :=
  "'" ++ body c ++ "'"

end MiniScheme.Quoted

import MiniScheme.Token.Lexeme

/-!
# Names in scripts

A script name holds letters, digits, underscores and dollar signs only.  Every other character
of an identifier is written as a dollar sign and a short word, and a name that would be a
reserved word of the script language gets a dollar sign at its end.

Main results:

- Theorem `spelled_append`: identifiers are spelled character by character.
-/

namespace MiniScheme.Script.Name

/-- The characters of identifiers that names keep. -/
def isPlain (c : Char) : Bool :=
  CharClass.isLetter c || CharClass.isDigit c || c = '_'

/-- The word that stands for a character that names do not keep. -/
def word (c : Char) : String :=
  match c with
  | '+' => "plus"
  | '-' => "minus"
  | '*' => "star"
  | '/' => "slash"
  | '<' => "lt"
  | '>' => "gt"
  | '=' => "eq"
  | '?' => "p"
  | '!' => "bang"
  | '.' => "dot"
  | ':' => "colon"
  | '%' => "pct"
  | '&' => "amp"
  | '^' => "hat"
  | '~' => "tilde"
  | '$' => "dollar"
  | _ => "u"

/-- What is written for a character. -/
def segment (c : Char) : List Char :=
  if isPlain c then [c] else '$' :: (word c).toList

/-- The reserved words of the script language. -/
def reserved : List String :=
  ["await", "break", "case", "catch", "class", "const", "continue", "debugger", "default",
   "delete", "do", "else", "enum", "export", "extends", "false", "finally", "for", "function",
   "import", "in", "instanceof", "let", "new", "null", "return", "static", "super", "switch",
   "this", "throw", "true", "try", "typeof", "undefined", "var", "void", "while", "with", "yield"]

/-- An identifier with every character spelled. -/
def spelled (identifier : List Char) : List Char :=
  identifier.flatMap segment

/-- The script name of an identifier. -/
def ofIdentifier (identifier : String) : String :=
  let name := String.ofList (spelled identifier.toList)
  if name ∈ reserved then name ++ "$" else name

/-- Identifiers are spelled character by character. -/
@[simp]
theorem spelled_append (first second : List Char) :
    spelled (first ++ second) = spelled first ++ spelled second := by
  simp [spelled]

end MiniScheme.Script.Name

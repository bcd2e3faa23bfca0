import MiniScheme.Token.Basic
import MiniScheme.Token.Error

/-!
# Syntax errors

A form fails at a token that cannot stand where it stands, or at a lexical error.
-/

namespace MiniScheme

/-- Why a form could not be read. -/
inductive SyntaxError
  | unexpected (found : Token)
  | expected (kind : TokenKind) (found : Token)
  | lexical (error : LexicalError)
deriving DecidableEq

namespace SyntaxError

/-- The place of the offending token or text. -/
def position : SyntaxError → Position
  | unexpected found => found.position
  | expected _ found => found.position
  | lexical error => error.position

/-- The error in words, followed by its place in parentheses. -/
def message : SyntaxError → String
  | unexpected found => "unexpected " ++ found.kind.name ++ " (" ++ found.position.text ++ ")"
  | expected kind found =>
    "expected " ++ kind.name ++ ", got " ++ found.kind.name ++
      " (" ++ found.position.text ++ ")"
  | lexical error => error.message

/-- Several errors in words, one a line. -/
def messages (errors : List SyntaxError) : String :=
  "\n".intercalate (errors.map message)

end SyntaxError

end MiniScheme

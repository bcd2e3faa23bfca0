import MiniScheme.Text.Position
import MiniScheme.Text.Quoted

/-!
# Lexical errors

A piece of text that is no token is reported by what is wrong with it and where it starts.
-/

namespace MiniScheme

/-- What is wrong with a piece of text that is no token. -/
inductive LexicalFault
  | unterminatedString
  | emptyCharacter
  | malformedBoolean
  | illegalIdentifier (text : String)
  | unknownCharacter (c : Char)
  | numberTooLarge (digits : String)
deriving DecidableEq

/-- A fault and the place of the text that has it. -/
structure LexicalError where
  fault : LexicalFault
  position : Position
deriving DecidableEq

/-- The fault in words. -/
def LexicalFault.message : LexicalFault → String
  | unterminatedString => "unterminated string literal"
  | emptyCharacter => "empty character literal"
  | malformedBoolean => "malformed boolean"
  | illegalIdentifier text => "illegal identifier \x60" ++ text ++ "\x60"
  | unknownCharacter c => "unknown character " ++ Quoted.quoted c
  | numberTooLarge digits => "integer literal " ++ digits ++ " out of range"

/-- The fault in words, followed by its place in parentheses. -/
def LexicalError.message (error : LexicalError) : String :=
  error.fault.message ++ " (" ++ error.position.text ++ ")"

end MiniScheme

import MiniScheme.Text.Position

/-!
# Tokens

A token has a kind, the text it was read from, the constant that a literal denotes, and the
place of its first character.  Kind and constant are kept apart: a token made by the reader
has the constant that goes with its kind, and the evaluator does not rely on that.
-/

namespace MiniScheme

/-! ## Kinds -/

/-- The reserved words. -/
inductive Keyword
  | begin
  | letSyntax
  | letrecSyntax
  | define
  | defineSyntax
  | quote
  | lambda
  | conditional
  | assign
deriving DecidableEq

namespace Keyword

/-- Every reserved word. -/
def all : List Keyword :=
  [begin, letSyntax, letrecSyntax, define, defineSyntax, quote, lambda, conditional, assign]

/-- A reserved word as it stands in a source text. -/
def spelling : Keyword → List Char
  | begin => "begin".toList
  | letSyntax => "let-syntax".toList
  | letrecSyntax => "letrec-syntax".toList
  | define => "define".toList
  | defineSyntax => "define-syntax".toList
  | quote => "quote".toList
  | lambda => "lambda".toList
  | conditional => "if".toList
  | assign => "set!".toList

/-- A reserved word as messages name it. -/
def name : Keyword → String
  | begin => "BEGIN"
  | letSyntax => "LET_SYNTAX"
  | letrecSyntax => "LETREC_SYNTAX"
  | define => "DEFINE"
  | defineSyntax => "DEFINE_SYNTAX"
  | quote => "QUOTE"
  | lambda => "LAMBDA"
  | conditional => "IF"
  | assign => "SET"

/-- The reserved word that is spelled so, if there is one. -/
def ofSpelling? (text : List Char) : Option Keyword :=
  all.find? fun keyword => keyword.spelling = text

/-- A reserved word is found by its spelling, so no two are spelled alike. -/
@[simp]
theorem ofSpelling?_spelling (keyword : Keyword) :
    ofSpelling? keyword.spelling = some keyword := by
  cases keyword <;> decide

end Keyword

/-- What a token is to the grammar. -/
inductive TokenKind
  | endOfSource
  | openParen
  | closeParen
  | quoteMark
  | openVector
  | keyword (keyword : Keyword)
  | boolean
  | number
  | character
  | string
  | identifier
deriving DecidableEq

namespace TokenKind

/-- A kind as messages name it. -/
def name : TokenKind → String
  | endOfSource => "EOF"
  | openParen => "LPAREN"
  | closeParen => "RPAREN"
  | quoteMark => "QUOT"
  | openVector => "VSTART"
  | keyword word => word.name
  | boolean => "BOOLEAN"
  | number => "NUMBER"
  | character => "CHARACTER"
  | string => "STRING"
  | identifier => "IDENT"

/-- The kinds that are an expression and a datum by themselves. -/
def isAtom : TokenKind → Bool
  | boolean | number | character | string | identifier => true
  | _ => false

/-- The kinds that open a group which a closing parenthesis ends. -/
def isOpening : TokenKind → Bool
  | openParen | openVector => true
  | _ => false

/-- The kinds that a datum may start with. -/
def startsDatum (kind : TokenKind) : Bool :=
  kind.isAtom || kind = openParen

/-- The kinds that an expression may start with. -/
def startsExpression (kind : TokenKind) : Bool :=
  kind.startsDatum || kind = quoteMark

end TokenKind

/-! ## Tokens -/

/-- What a literal denotes. -/
inductive Constant
  | number (value : Int64)
  | boolean (value : Bool)
  | character (value : Char)
  | string (value : String)
deriving DecidableEq

/-- A piece of source text as the grammar sees it. -/
structure Token where
  kind : TokenKind
  text : String
  constant : Option Constant
  position : Position
deriving DecidableEq

/-- The token that stands for the end of a source which ends at a position. -/
def Token.endOfSource (position : Position) : Token :=
  ⟨.endOfSource, "", none, position⟩

end MiniScheme

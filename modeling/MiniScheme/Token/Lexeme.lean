import MiniScheme.Token.Basic
import MiniScheme.Token.Error
import MiniScheme.Token.StringBody

/-!
# Lexemes

A source text is a sequence of gaps and lexemes.  A gap is white space and comments; a lexeme
is the longest beginning of the text that one of the patterns admits, or a single character
if none does, and it is read as a token or as a fault.

Main results:

- Theorem `leadingGap_isPrefix` and theorem `read_isPrefix`: gaps and lexemes are pieces of the
  text as it stands.
- Theorem `read_ne_nil`: no lexeme is empty.
-/

namespace MiniScheme

/-! ## Character classes, all of them within ASCII -/

namespace CharClass

/-- The digits of a number. -/
def isDigit (c : Char) : Bool :=
  '0' ≤ c && c ≤ '9'

/-- The letters of identifiers. -/
def isLetter (c : Char) : Bool :=
  ('A' ≤ c && c ≤ 'Z') || ('a' ≤ c && c ≤ 'z')

/-- The characters that an identifier may start with. -/
def isInitial (c : Char) : Bool :=
  isLetter c || "+-*/?<>=%_".toList.contains c

/-- The characters that an identifier may go on with. -/
def isSubsequent (c : Char) : Bool :=
  isInitial c || isDigit c || "!$&:.@^~".toList.contains c

/-- The white space between lexemes: space, tab, carriage return, newline, form feed. -/
def isSpace (c : Char) : Bool :=
  " \t\r\n\x0c".toList.contains c

end CharClass

open CharClass

/-! ## Gaps -/

/-- The gap that a text begins with, perhaps within a comment, which the newline ends. -/
def leadingGap (inComment : Bool) : List Char → List Char
  | [] => []
  | c :: text =>
    if inComment then c :: leadingGap (c != '\n') text
    else if c = ';' then c :: leadingGap true text
    else if isSpace c then c :: leadingGap false text
    else []

/-- The gap in front of a text is the beginning of it. -/
theorem leadingGap_isPrefix (inComment : Bool) (text : List Char) :
    leadingGap inComment text <+: text := by
  fun_induction leadingGap inComment text with
  | case1 => exact List.nil_prefix
  | case2 _ _ ih => exact (List.prefix_cons_inj _).2 ih
  | case3 _ _ _ ih => exact (List.prefix_cons_inj _).2 ih
  | case4 _ _ _ _ _ _ ih => exact (List.prefix_cons_inj _).2 ih
  | case5 => exact List.nil_prefix

/-! ## Lexemes -/

/-- What a lexeme is read as. -/
inductive LexemeReading
  | token (kind : TokenKind) (constant : Option Constant)
  | fault (fault : LexicalFault)
deriving DecidableEq

/-- A piece of source text and what it is read as. -/
structure Lexeme where
  text : List Char
  reading : LexemeReading
deriving DecidableEq

/-- The number that a row of digits denotes. -/
def decimalValue (digits : List Char) : Nat :=
  digits.foldl (fun value digit => 10 * value + (digit.toNat - '0'.toNat)) 0

namespace Lexeme

/-- A row of digits: the number that it denotes must be below 2^63. -/
def number (digits : List Char) : Lexeme where
  text := digits
  reading :=
    if decimalValue digits < 0x8000000000000000 then
      .token .number (some (.number (Int64.ofNat (decimalValue digits))))
    else .fault (.numberTooLarge (String.ofList digits))

/-- A word that begins as an identifier does. -/
def word (text : List Char) : Lexeme where
  text := text
  reading :=
    match Keyword.ofSpelling? text with
    | some keyword => .token (.keyword keyword) none
    | none => .token .identifier none

/-- A word that begins with a dot: three dots alone are an identifier. -/
def dotted (text : List Char) : Lexeme where
  text := text
  reading :=
    if text = ['.', '.', '.'] then .token .identifier none
    else .fault (.illegalIdentifier (String.ofList text))

/-- The lexeme that starts with a sharp sign, by what follows it. -/
def sharp : List Char → Lexeme
  | '(' :: _ => ⟨['#', '('], .token .openVector none⟩
  | 't' :: _ => ⟨['#', 't'], .token .boolean (some (.boolean true))⟩
  | 'f' :: _ => ⟨['#', 'f'], .token .boolean (some (.boolean false))⟩
  | '\\' :: c :: _ => ⟨['#', '\\', c], .token .character (some (.character c))⟩
  | ['\\'] => ⟨['#', '\\'], .fault .emptyCharacter⟩
  | _ => ⟨['#'], .fault .malformedBoolean⟩

/-- The lexeme that starts with a double quote, by what follows it: a string up to the next
quote that is in no pair, and without one the rest of the source. -/
def doubleQuote (text : List Char) : Lexeme :=
  let body := StringBody.leading text
  match text.drop body.length with
  | '"' :: _ =>
    ⟨'"' :: body ++ ['"'],
      .token .string (some (.string (String.ofList (StringBody.decode body))))⟩
  | _ => ⟨'"' :: text, .fault .unterminatedString⟩

/-- The lexeme that starts with a character, by that character and what follows it. -/
def read (c : Char) (text : List Char) : Lexeme :=
  if c = '(' then ⟨[c], .token .openParen none⟩
  else if c = ')' then ⟨[c], .token .closeParen none⟩
  else if c = '\'' then ⟨[c], .token .quoteMark none⟩
  else if c = '#' then sharp text
  else if c = '"' then doubleQuote text
  else if isDigit c then number (c :: text.takeWhile isDigit)
  else if isInitial c then word (c :: text.takeWhile isSubsequent)
  else if c = '.' then dotted (c :: text.takeWhile isSubsequent)
  else ⟨[c], .fault (.unknownCharacter c)⟩

/-- A lexeme behind a sharp sign is the beginning of the text. -/
theorem sharp_isPrefix (text : List Char) : (sharp text).text <+: '#' :: text := by
  fun_cases sharp text <;> simp

/-- A lexeme behind a sharp sign is not empty. -/
theorem sharp_ne_nil (text : List Char) : (sharp text).text ≠ [] := by
  fun_cases sharp text <;> simp

/-- A lexeme behind a sharp sign is not the end. -/
theorem sharp_ne_endOfSource (text : List Char) (constant : Option Constant) :
    (sharp text).reading ≠ .token .endOfSource constant := by
  fun_cases sharp text <;> simp

/-- A string literal is either closed, and then it is its body between two quotes, or it is
the rest of the source. -/
theorem doubleQuote_cases (text : List Char) :
    (∃ rest, text = StringBody.leading text ++ '"' :: rest ∧
      doubleQuote text = ⟨'"' :: StringBody.leading text ++ ['"'],
        .token .string (some (.string (String.ofList (StringBody.decode
          (StringBody.leading text)))))⟩) ∨
      doubleQuote text = ⟨'"' :: text, .fault .unterminatedString⟩ := by
  have h := List.prefix_iff_eq_append.1 (StringBody.leading_isPrefix text)
  fun_cases doubleQuote text with
  | case1 body rest hrest =>
    rw [hrest] at h
    exact .inl ⟨rest, h.symm, rfl⟩
  | case2 => exact .inr rfl

/-- A string is the beginning of the text. -/
theorem doubleQuote_isPrefix (text : List Char) : (doubleQuote text).text <+: '"' :: text := by
  rcases doubleQuote_cases text with ⟨rest, htext, h⟩ | h
  · rw [h]
    exact ⟨rest, by simp [← htext]⟩
  · exact h ▸ List.prefix_rfl

/-- A string is not empty, closed or not. -/
theorem doubleQuote_ne_nil (text : List Char) : (doubleQuote text).text ≠ [] := by
  rcases doubleQuote_cases text with ⟨rest, -, h⟩ | h <;> simp [h]

/-- A string is not the end, closed or not. -/
theorem doubleQuote_ne_endOfSource (text : List Char) (constant : Option Constant) :
    (doubleQuote text).reading ≠ .token .endOfSource constant := by
  rcases doubleQuote_cases text with ⟨rest, -, h⟩ | h <;> simp [h]

/-- A number is not the end. -/
theorem number_ne_endOfSource (digits : List Char) (constant : Option Constant) :
    (number digits).reading ≠ .token .endOfSource constant := by
  simp only [number]
  split <;> simp

/-- A word is not the end. -/
theorem word_ne_endOfSource (text : List Char) (constant : Option Constant) :
    (word text).reading ≠ .token .endOfSource constant := by
  simp only [word]
  split <;> simp

/-- A lexeme of dots is not the end. -/
theorem dotted_ne_endOfSource (text : List Char) (constant : Option Constant) :
    (dotted text).reading ≠ .token .endOfSource constant := by
  simp only [dotted]
  split <;> simp

/-- A lexeme is the beginning of the text that it is read from. -/
theorem read_isPrefix (c : Char) (text : List Char) : (read c text).text <+: c :: text := by
  fun_cases read c text with
  | case4 _ _ _ h => exact h ▸ sharp_isPrefix text
  | case5 _ _ _ _ h => exact h ▸ doubleQuote_isPrefix text
  | _ => simp [number, word, dotted, List.takeWhile_prefix]

/-- No lexeme is empty. -/
theorem read_ne_nil (c : Char) (text : List Char) : (read c text).text ≠ [] := by
  fun_cases read c text <;> simp [sharp_ne_nil, doubleQuote_ne_nil, number, word, dotted]

/-- No lexeme is read as the end of the source. -/
theorem read_ne_endOfSource (c : Char) (text : List Char) (constant : Option Constant) :
    (read c text).reading ≠ .token .endOfSource constant := by
  fun_cases read c text <;>
    simp [sharp_ne_endOfSource, doubleQuote_ne_endOfSource, number_ne_endOfSource,
      word_ne_endOfSource, dotted_ne_endOfSource]

end Lexeme

end MiniScheme

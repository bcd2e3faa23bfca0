import Mathlib.Computability.Language
import MiniScheme.Proofs.Identifiers

/-!
# The patterns of lexemes

A lexeme is described by a pattern, and a pattern is a language: a single text, or texts that are
put together from classes of characters.  Several patterns may describe the same text, and a text
may begin with lexemes of several patterns.  Here the patterns are set down one by one, with what
a text of each is read as, and without any choice between them.

Main results:

- Theorem `mem_bodyLanguage`: the inside of a string is plain characters and pairs, from left to
  right.
- Theorem `Pattern.Admits.exists_cons`: the first character of a text leaves a few patterns only.
-/

namespace MiniScheme

open CharClass
open scoped Computability

/-! ## Languages -/

/-- The texts that are one character of a class. -/
def oneOf (isMember : Char → Bool) : Language Char :=
  {text | ∃ c, isMember c = true ∧ text = [c]}

/-- The language of a word holds the word alone. -/
theorem mem_literal {word text : List Char} : text ∈ ({word} : Language Char) ↔ text = word :=
  Set.mem_singleton_iff

/-- A row of characters of a class. -/
theorem mem_kstar_oneOf {isMember : Char → Bool} {text : List Char} :
    text ∈ (oneOf isMember)∗ ↔ ∀ c ∈ text, isMember c = true := by
  rw [Language.mem_kstar]
  constructor
  · rintro ⟨pieces, rfl, hpieces⟩ c hc
    obtain ⟨piece, hpiece, hc⟩ := List.mem_flatten.1 hc
    obtain ⟨d, hd, rfl⟩ := hpieces piece hpiece
    rwa [List.mem_singleton.1 hc]
  · intro h
    refine ⟨text.map fun c => [c], by rw [← List.flatMap_def, List.flatMap_singleton'], ?_⟩
    intro piece hpiece
    obtain ⟨c, hc, rfl⟩ := List.mem_map.1 hpiece
    exact ⟨c, h c hc, rfl⟩

/-- A character of a class, and then a row of characters of another. -/
theorem mem_oneOf_mul_kstar {isFirst isMember : Char → Bool} {text : List Char} :
    text ∈ oneOf isFirst * (oneOf isMember)∗ ↔
      ∃ c rest, text = c :: rest ∧ isFirst c = true ∧ ∀ d ∈ rest, isMember d = true := by
  rw [Language.mem_mul]
  constructor
  · rintro ⟨first, ⟨c, hc, rfl⟩, rest, hrest, rfl⟩
    exact ⟨c, rest, rfl, hc, mem_kstar_oneOf.1 hrest⟩
  · rintro ⟨c, rest, rfl, hc, hrest⟩
    exact ⟨[c], ⟨c, hc, rfl⟩, rest, mem_kstar_oneOf.2 hrest, rfl⟩

/-- A given text, and then one of a language. -/
theorem mem_literal_mul {word text : List Char} {language : Language Char} :
    text ∈ ({word} : Language Char) * language ↔ ∃ rest ∈ language, text = word ++ rest := by
  rw [Language.mem_mul]
  constructor
  · rintro ⟨first, hfirst, rest, hrest, rfl⟩
    exact ⟨rest, hrest, by rw [mem_literal.1 hfirst]⟩
  · rintro ⟨rest, hrest, rfl⟩
    exact ⟨word, mem_literal.2 rfl, rest, hrest, rfl⟩

/-! ## The inside of strings -/

/-- What may stand between the quotes of a string: plain characters, and pairs of a backslash and
any character. -/
def bodyLanguage : Language Char :=
  (oneOf (fun c => !StringBody.isSpecial c) + {['\\']} * oneOf fun _ => true)∗

/-- A text that is cut into plain characters and pairs from left to right. -/
inductive StringBody.IsBody : List Char → Prop
  | nil : IsBody []
  | plain {c : Char} {text : List Char} (hc : isSpecial c = false) (h : IsBody text) :
    IsBody (c :: text)
  | pair (c : Char) {text : List Char} (h : IsBody text) : IsBody ('\\' :: c :: text)

namespace StringBody

/-- The inside of a string is plain characters and pairs, from left to right. -/
theorem mem_bodyLanguage {text : List Char} : text ∈ bodyLanguage ↔ IsBody text := by
  rw [bodyLanguage, Language.mem_kstar]
  constructor
  · rintro ⟨pieces, rfl, hpieces⟩
    induction pieces with
    | nil => exact .nil
    | cons piece pieces ih =>
      obtain ⟨hpiece, hpieces⟩ := List.forall_mem_cons.1 hpieces
      have hrest := ih hpieces
      rw [List.flatten_cons]
      rcases hpiece with ⟨c, hc, rfl⟩ | hpiece
      · exact .plain (by simpa using hc) hrest
      · obtain ⟨_, ⟨c, -, rfl⟩, rfl⟩ := mem_literal_mul.1 hpiece
        exact .pair c hrest
  · intro h
    induction h with
    | nil => exact ⟨[], rfl, by simp⟩
    | @plain c _ hc _ ih =>
      obtain ⟨pieces, rfl, hpieces⟩ := ih
      refine ⟨[c] :: pieces, rfl, List.forall_mem_cons.2 ⟨.inl ⟨c, ?_, rfl⟩, hpieces⟩⟩
      simpa using hc
    | pair c _ ih =>
      obtain ⟨pieces, rfl, hpieces⟩ := ih
      refine ⟨['\\', c] :: pieces, rfl, List.forall_mem_cons.2 ⟨.inr ?_, hpieces⟩⟩
      exact mem_literal_mul.2 ⟨[c], ⟨c, rfl, rfl⟩, rfl⟩

/-- The body that is found is one. -/
theorem isBody_leading (text : List Char) : IsBody (leading text) := by
  fun_induction leading text with
  | case1 => exact .nil
  | case2 c text ih => exact .pair c ih
  | case3 => exact .nil
  | case4 c text _ hc ih => exact .plain (by simpa using hc) ih

/-- Every body that a text begins with is part of the one that is found. -/
theorem IsBody.leading_append {body : List Char} (h : IsBody body) (rest : List Char) :
    leading (body ++ rest) = body ++ leading rest := by
  induction h with
  | nil => rfl
  | @plain c text hc h ih =>
    have hbackslash : c ≠ '\\' := by
      rintro rfl
      cases hc
    simp [leading, hbackslash, hc, ih]
  | pair c h ih => simp [leading, ih]

/-- A body before a quote is the one that is found. -/
theorem IsBody.leading_quote {body : List Char} (h : IsBody body) (rest : List Char) :
    leading (body ++ '"' :: rest) = body := by
  simp [h.leading_append, leading, isSpecial]

/-- What stands behind the body of a string that is not closed: nothing, or a backslash that is the
last character of the source. -/
def IsStray (last : List Char) : Prop :=
  last = [] ∨ last = ['\\']

/-- A lone backslash is no part of a body. -/
theorem IsStray.leading_eq {last : List Char} (h : IsStray last) : leading last = [] := by
  rcases h with rfl | rfl <;> rfl

/-- Behind the body that is found stands a quote, or the source comes to its end. -/
theorem leading_cases (text : List Char) :
    (∃ rest, text = leading text ++ '"' :: rest) ∨
      ∃ last, IsStray last ∧ text = leading text ++ last := by
  fun_induction leading text with
  | case1 => exact .inr ⟨[], .inl rfl, rfl⟩
  | case2 c text ih => simpa using ih
  | case3 c text hpair hc =>
    rcases (by simpa [isSpecial] using hc : c = '"' ∨ c = '\\') with rfl | rfl
    · exact .inl ⟨text, rfl⟩
    · cases text with
      | nil => exact .inr ⟨_, .inr rfl, rfl⟩
      | cons d text => exact (hpair d text rfl rfl).elim
  | case4 c text _ _ ih => simpa using ih

/-- A text that has a quote behind a body is not one that lacks it. -/
theorem IsBody.append_quote_ne {body body' last : List Char} (h : IsBody body) (rest : List Char)
    (h' : IsBody body') (hlast : IsStray last) : body ++ '"' :: rest ≠ body' ++ last := by
  intro heq
  have hbody : body = body' := by
    have hleading := congrArg leading heq
    rwa [h.leading_quote, h'.leading_append, hlast.leading_eq, List.append_nil] at hleading
  subst hbody
  have hquote := List.append_cancel_left heq
  rcases hlast with rfl | rfl <;> cases hquote

end StringBody

open StringBody

/-! ## Patterns -/

/-- The kinds of lexemes, the malformed ones among them. -/
inductive Pattern
  | openParen
  | closeParen
  | quoteMark
  | openVector
  | keyword (name : Keyword)
  | boolean (value : Bool)
  | dots
  | number
  | character
  | string
  | word
  | unclosedString
  | bareCharacter
  | bareSharp
  | dotted

namespace Pattern

/-- The texts of a pattern. -/
def language : Pattern → Language Char
  | openParen => {['(']}
  | closeParen => {[')']}
  | quoteMark => {['\'']}
  | openVector => {['#', '(']}
  | keyword name => {name.spelling}
  | boolean value => {['#', if value then 't' else 'f']}
  | dots => {['.', '.', '.']}
  | number => oneOf isDigit * (oneOf isDigit)∗
  | character => {['#', '\\']} * oneOf fun _ => true
  | string => {['"']} * (bodyLanguage * {['"']})
  | word => oneOf isInitial * (oneOf isSubsequent)∗
  | unclosedString => {['"']} * (bodyLanguage * (1 + {['\\']}))
  | bareCharacter => {['#', '\\']}
  | bareSharp => {['#']}
  | dotted => {['.']} * (oneOf isSubsequent)∗

/-- What a text of a pattern is read as. -/
def reading (text : List Char) : Pattern → LexemeReading
  | openParen => .token .openParen none
  | closeParen => .token .closeParen none
  | quoteMark => .token .quoteMark none
  | openVector => .token .openVector none
  | keyword name => .token (.keyword name) none
  | boolean value => .token .boolean (some (.boolean value))
  | dots => .token .identifier none
  | number => (Lexeme.number text).reading
  | character => .token .character (text[2]?.map .character)
  | string => .token .string (some (.string (String.ofList (decode text.tail.dropLast))))
  | word => .token .identifier none
  | unclosedString => .fault .unterminatedString
  | bareCharacter => .fault .emptyCharacter
  | bareSharp => .fault .malformedBoolean
  | dotted => .fault (.illegalIdentifier (String.ofList text))

/-- The patterns that are preferred where another one describes the same text. -/
def isPreferred : Pattern → Bool
  | keyword _ | boolean _ | dots => true
  | _ => false

/-- A pattern describes a text. -/
def Admits (pattern : Pattern) (text : List Char) : Prop :=
  text ∈ pattern.language

/-- Numbers are the rows of at least one digit. -/
theorem admits_number {text : List Char} :
    number.Admits text ↔
      ∃ c rest, text = c :: rest ∧ isDigit c = true ∧ ∀ d ∈ rest, isDigit d = true :=
  mem_oneOf_mul_kstar

/-- Words begin as identifiers do and go on so. -/
theorem admits_word {text : List Char} :
    word.Admits text ↔
      ∃ c rest, text = c :: rest ∧ isInitial c = true ∧ ∀ d ∈ rest, isSubsequent d = true :=
  mem_oneOf_mul_kstar

/-- Characters are a sharp sign, a backslash and any character. -/
theorem admits_character {text : List Char} :
    character.Admits text ↔ ∃ c, text = ['#', '\\', c] := by
  rw [Admits, language, mem_literal_mul]
  constructor
  · rintro ⟨_, ⟨c, -, rfl⟩, rfl⟩
    exact ⟨c, rfl⟩
  · rintro ⟨c, rfl⟩
    exact ⟨[c], ⟨c, rfl, rfl⟩, rfl⟩

/-- Strings are bodies between two double quotes. -/
theorem admits_string {text : List Char} :
    string.Admits text ↔ ∃ body, IsBody body ∧ text = '"' :: (body ++ ['"']) := by
  rw [Admits, language, mem_literal_mul]
  constructor
  · rintro ⟨_, ⟨body, hbody, _, rfl, rfl⟩, rfl⟩
    exact ⟨body, mem_bodyLanguage.1 hbody, rfl⟩
  · rintro ⟨body, hbody, rfl⟩
    exact ⟨_, ⟨body, mem_bodyLanguage.2 hbody, _, rfl, rfl⟩, rfl⟩

/-- Strings that are not closed are a double quote and a body, and perhaps a lone backslash. -/
theorem admits_unclosedString {text : List Char} :
    unclosedString.Admits text ↔
      ∃ body last, IsBody body ∧ IsStray last ∧ text = '"' :: (body ++ last) := by
  rw [Admits, language, mem_literal_mul]
  constructor
  · rintro ⟨_, ⟨body, hbody, last, hlast, rfl⟩, rfl⟩
    exact ⟨body, last, mem_bodyLanguage.1 hbody, hlast, rfl⟩
  · rintro ⟨body, last, hbody, hlast, rfl⟩
    exact ⟨_, ⟨body, mem_bodyLanguage.2 hbody, last, hlast, rfl⟩, rfl⟩

/-- Lexemes of dots are a dot and then characters of words. -/
theorem admits_dotted {text : List Char} :
    dotted.Admits text ↔ ∃ rest, text = '.' :: rest ∧ ∀ d ∈ rest, isSubsequent d = true := by
  rw [Admits, language, mem_literal_mul]
  simp only [mem_kstar_oneOf, List.cons_append, List.nil_append, and_comm]

/-- A keyword is its spelling. -/
theorem admits_keyword {name : Keyword} {text : List Char} :
    (keyword name).Admits text ↔ text = name.spelling :=
  mem_literal

/-- A reserved word is spelled like an identifier. -/
theorem admits_word_spelling (name : Keyword) : word.Admits name.spelling := by
  rw [admits_word]
  cases name <;> exact ⟨_, _, rfl, by decide, List.all_iff_forall_prop.1 (by decide)⟩

/-! ## First characters -/

/-- Whether texts of a pattern begin with a character. -/
def begins (c : Char) : Pattern → Bool
  | openParen => c = '('
  | closeParen => c = ')'
  | quoteMark => c = '\''
  | openVector | boolean _ | character | bareCharacter | bareSharp => c = '#'
  | keyword _ | word => isInitial c
  | dots | dotted => c = '.'
  | number => isDigit c
  | string | unclosedString => c = '"'

/-- The first character of a text leaves a few patterns only. -/
theorem Admits.exists_cons {pattern : Pattern} {text : List Char} (h : pattern.Admits text) :
    ∃ c rest, text = c :: rest ∧ pattern.begins c = true := by
  cases pattern with
  | number =>
    obtain ⟨c, rest, rfl, hc, -⟩ := admits_number.1 h
    exact ⟨c, rest, rfl, hc⟩
  | word =>
    obtain ⟨c, rest, rfl, hc, -⟩ := admits_word.1 h
    exact ⟨c, rest, rfl, hc⟩
  | keyword name =>
    obtain ⟨c, rest, htext, hc, -⟩ := admits_word.1 (admits_word_spelling name)
    exact ⟨c, rest, (admits_keyword.1 h).trans htext, hc⟩
  | character =>
    obtain ⟨c, rfl⟩ := admits_character.1 h
    exact ⟨'#', _, rfl, rfl⟩
  | string =>
    obtain ⟨body, -, rfl⟩ := admits_string.1 h
    exact ⟨'"', _, rfl, rfl⟩
  | unclosedString =>
    obtain ⟨body, last, -, -, rfl⟩ := admits_unclosedString.1 h
    exact ⟨'"', _, rfl, rfl⟩
  | dotted =>
    obtain ⟨rest, rfl, -⟩ := admits_dotted.1 h
    exact ⟨'.', _, rfl, rfl⟩
  | _ => exact ⟨_, _, mem_literal.1 h, rfl⟩

end Pattern

end MiniScheme

import MiniScheme.Proofs.LongestMatch
import MiniScheme.Proofs.ScriptPieces
import MiniScheme.Proofs.WellFormed
import MiniScheme.Script.Compiler

/-!
# String literals

The inside of a string literal is a row of units, from left to right: plain characters, and
backslashes each with the character behind it.  Where the literal ends and what it denotes are
decided in two passes over its text, and both go by the same units, however many backslashes
stand in a row.  In a script the denoted text is written once more, by other rules.

Main results:

- Theorem `StringUnit.exists_units`: a body and what it denotes are made of the same units.
- Theorem `Script.Literal.readInside_encode`: a literal of a script is read back up to its closing
  quote.
- Theorem `stringLiterals_denote`: every text has a literal, the literals of a source denote what
  their units stand for, and so do their scripts.
-/

namespace MiniScheme

/-! ## Units -/

/-- What the inside of a string literal is made of. -/
inductive StringUnit
  | plain (c : Char) (h : StringBody.isSpecial c = false)
  | pair (c : Char)

namespace StringUnit

/-- A unit as it is written. -/
def text : StringUnit → List Char
  | plain c _ => [c]
  | pair c => ['\\', c]

/-- Whether a unit is a backslash that makes the quote or the backslash behind it plain. -/
def isEscape : StringUnit → Bool
  | plain _ _ => false
  | pair c => c = '"' || c = '\\'

/-- What a unit stands for: the second character of an escape, and otherwise itself. -/
def meaning (unit : StringUnit) : List Char :=
  if unit.isEscape then unit.text.tail else unit.text

/-- A body and what it denotes are made of the same units. -/
theorem exists_units {body : List Char} (h : StringBody.IsBody body) :
    ∃ units : List StringUnit, units.flatMap text = body ∧
      units.flatMap meaning = StringBody.decode body := by
  induction h with
  | nil => exact ⟨[], rfl, rfl⟩
  | @plain c body hc _ ih =>
    obtain ⟨units, htext, hmeaning⟩ := ih
    have hbackslash : c ≠ '\\' := by
      rintro rfl
      cases hc
    refine ⟨plain c hc :: units, by simp [text, htext], ?_⟩
    simp [meaning, isEscape, text, hmeaning, StringBody.decode, hbackslash]
  | @pair c body _ ih =>
    obtain ⟨units, htext, hmeaning⟩ := ih
    refine ⟨pair c :: units, by simp [text, htext], ?_⟩
    by_cases hc : StringBody.isSpecial c = true
    · have hescape : (pair c).isEscape = true := hc
      simp [meaning, hescape, text, hmeaning, StringBody.decode, hc]
    · have hescape : ¬ (pair c).isEscape = true := hc
      simp [meaning, hescape, text, hmeaning, StringBody.decode, hc]

/-- What units stand for lacks the backslashes of the escapes among them and nothing else. -/
theorem length_flatMap_text (units : List StringUnit) :
    (units.flatMap text).length = (units.flatMap meaning).length + units.countP isEscape := by
  induction units with
  | nil => rfl
  | cons unit units ih =>
    have hunit : unit.text.length = unit.meaning.length + [unit].countP isEscape := by
      cases unit with
      | plain c h => rfl
      | pair c => by_cases hc : (pair c).isEscape = true <;> simp [meaning, hc, text]
    simp only [List.countP_singleton] at hunit
    simp only [List.flatMap_cons, List.length_append, List.countP_cons]
    omega

end StringUnit

/-! ## Tokens -/

/-- The literal of a text: each quote and each backslash gets a backslash before it. -/
def stringLiteral (text : String) : String :=
  "\"" ++ String.ofList (StringBody.encode text.toList) ++ "\""

/-- The characters of a string literal in source text. -/
theorem toList_stringLiteral (text : String) :
    (stringLiteral text).toList = '"' :: (StringBody.encode text.toList ++ ['"']) := by
  simp [stringLiteral]

/-- A piece that is a source by itself is one token, and the end is behind it. -/
theorem Reads.next_eq {piece : List Char} {kind : TokenKind} {constant : Option Constant}
    (h : Reads piece kind constant) (position : Position) :
    Cursor.next ⟨piece, position⟩ =
      (.ok ⟨kind, String.ofList piece, constant, position⟩, ⟨[], position.advance piece⟩) := by
  obtain ⟨c, text, rfl, hcomment, hspace, hread⟩ := h
  have hread := hread [] (stops_nil _)
  have hgap := Cursor.pastGap_cons hcomment hspace text position
  rw [List.append_nil] at hread
  rw [Cursor.next_of_pastGap_cons (by rw [hgap]), hgap, hread]
  simp [Cursor.past, Lexeme.item]

/-- What is read as a string is a body between quotes, and denotes what the body does. -/
theorem Lexeme.exists_body {c : Char} {text : List Char} {constant : Option Constant}
    (h : (read c text).reading = .token .string constant) :
    ∃ body, StringBody.IsBody body ∧ (read c text).text = '"' :: (body ++ ['"']) ∧
      constant = some (.string (String.ofList (StringBody.decode body))) := by
  obtain rfl := eq_quote_of_string h
  have hread : read '"' text = doubleQuote text := rfl
  rw [hread] at h ⊢
  rcases isString_doubleQuote text with ⟨body, rest, hbody, -, hlexeme⟩ | ⟨-, hlexeme⟩
  · rw [hlexeme] at h
    cases h
    exact ⟨body, hbody, by rw [hlexeme], rfl⟩
  · rw [hlexeme] at h
    cases h

/-- The same of a token of a source. -/
theorem Token.exists_body {source : String} {token : Token}
    (h : .ok token ∈ (Cursor.ofSource source).items) (hkind : token.kind = .string) :
    ∃ body, StringBody.IsBody body ∧ token.text.toList = '"' :: (body ++ ['"']) ∧
      token.constant = some (.string (String.ofList (StringBody.decode body))) := by
  obtain ⟨c, text, position, hitem⟩ := Cursor.exists_read_of_mem_items h
  unfold Lexeme.item at hitem
  split at hitem
  next kind constant hreading =>
    cases hitem
    obtain rfl : kind = .string := hkind
    obtain ⟨body, hbody, htext, hconstant⟩ := Lexeme.exists_body hreading
    exact ⟨body, hbody, by rw [String.toList_ofList, htext], hconstant⟩
  next => cases hitem

/-! ## Scripts -/

namespace Script.Literal

/-- What a backslash and a character stand for in a script, where only five escapes occur. -/
def escaped? (c : Char) : Option Char :=
  match c with
  | '"' => some '"'
  | '\\' => some '\\'
  | 'n' => some '\n'
  | 'r' => some '\r'
  | 't' => some '\t'
  | _ => none

/-- Read a literal behind its opening quote, up to the first quote that is in no escape: what it
denotes, and what follows it.  There is no reading where a line ends within the literal, or where
a backslash begins no escape. -/
def readInside : List Char → Option (List Char × List Char)
  | [] => none
  | '"' :: rest => some ([], rest)
  | '\\' :: c :: text => do
    let value ← escaped? c
    let (values, rest) ← readInside text
    return (value :: values, rest)
  | c :: text =>
    if c = '\n' || c = '\r' || c = '\\' then none
    else do
      let (values, rest) ← readInside text
      return (c :: values, rest)

/-- The character that an escape stands for is escaped by it. -/
theorem escaped?_of_escape? {c escaped : Char} (h : escape? c = some escaped) :
    escaped? escaped = some c := by
  unfold escape? at h
  split at h <;> cases h <;> rfl

/-- A character without an escape stands for itself and ends neither the literal nor the line. -/
theorem ne_of_escape?_none {c : Char} (h : escape? c = none) :
    c ≠ '"' ∧ c ≠ '\\' ∧ c ≠ '\n' ∧ c ≠ '\r' := by
  refine ⟨?_, ?_, ?_, ?_⟩ <;> rintro rfl <;> cases h

/-- A literal of a script is read back up to its closing quote, whatever follows it. -/
theorem readInside_encode (text rest : List Char) :
    readInside (encode text ++ '"' :: rest) = some (text, rest) := by
  induction text with
  | nil => rfl
  | cons c text ih =>
    cases hc : escape? c with
    | some escaped => simp [encode, hc, readInside, escaped?_of_escape? hc, ih]
    | none =>
      obtain ⟨hquote, hbackslash, hnewline, hreturn⟩ := ne_of_escape?_none hc
      simp [encode, hc, readInside, hbackslash, hnewline, hreturn, ih]

/-- No line ends within a literal of a script. -/
theorem ne_newline_of_mem_encode {text : List Char} {c : Char} (h : c ∈ encode text) :
    c ≠ '\n' ∧ c ≠ '\r' := by
  induction text with
  | nil => cases h
  | cons d text ih =>
    cases hd : escape? d with
    | some escaped =>
      rw [encode, hd] at h
      rcases List.mem_cons.1 h with rfl | h
      · decide
      · rcases List.mem_cons.1 h with rfl | h
        · unfold escape? at hd
          split at hd <;> cases hd <;> decide
        · exact ih h
    | none =>
      rw [encode, hd] at h
      rcases List.mem_cons.1 h with rfl | h
      · exact (ne_of_escape?_none hd).2.2
      · exact ih h

/-- The characters of a string literal in a script. -/
theorem toList_ofText (text : String) :
    (ofText text).toList = '"' :: (encode text.toList ++ ['"']) := by
  simp [ofText]

end Script.Literal

/-- The script of a token that denotes a text is a literal of this text. -/
theorem Script.Term.ofExpression_string {token : Token} {text : String}
    (hkind : token.kind = .string) (hconstant : token.constant = some (.string text)) :
    Term.ofExpression (.literal token) = .ok (.string text) := by
  simp [Term.ofExpression, Term.ofToken, hkind, hconstant, Term.ofConstant]

/-! ## Literals and what they denote -/

/-- Every text has a literal, which is one token that denotes the text, with the end of the source
behind it.  Every string token of a source is a row of units between quotes, and denotes what the
units stand for, so that nothing but the backslashes of escapes is left out.  Its script is a
literal that stays on its line, ends at the first quote that is in no escape, and is read back as
the denoted text. -/
theorem stringLiterals_denote :
    (∀ text : String, ∃ rest : TokenStream,
      (TokenStream.ofSource (stringLiteral text)).next =
        (.ok ⟨.string, stringLiteral text, some (.string text), .start⟩, rest) ∧
      rest.next =
        (.ok (.endOfSource (Position.start.advance (stringLiteral text).toList)), rest)) ∧
    ∀ (source : String) (token : Token), .ok token ∈ (Cursor.ofSource source).items →
      token.kind = .string → ∃ units : List StringUnit,
        let inside := units.flatMap StringUnit.text
        let denoted := units.flatMap StringUnit.meaning
        token.text.toList = '"' :: (inside ++ ['"']) ∧
        token.constant = some (.string (String.ofList denoted)) ∧
        inside.length = denoted.length + units.countP StringUnit.isEscape ∧
        ∃ term : Script.Term, Script.Term.ofExpression (.literal token) = .ok term ∧
          (∀ c ∈ term.text.toList, c ≠ '\n' ∧ c ≠ '\r') ∧
          ∃ written, term.text.toList = '"' :: (written ++ ['"']) ∧
            ∀ rest, Script.Literal.readInside (written ++ '"' :: rest) = some (denoted, rest) := by
  constructor
  · intro text
    have hread := (reads_string text.toList).next_eq .start
    rw [← toList_stringLiteral, String.ofList_toList, String.ofList_toList] at hread
    refine ⟨⟨[], ⟨[], Position.start.advance (stringLiteral text).toList⟩⟩, ?_, rfl⟩
    simp [TokenStream.next, TokenStream.ofSource, Cursor.ofSource, hread]
  · intro source token htoken hkind
    obtain ⟨body, hbody, htext, hconstant⟩ := Token.exists_body htoken hkind
    obtain ⟨units, hinside, hdenoted⟩ := StringUnit.exists_units hbody
    rw [← hdenoted] at hconstant
    refine ⟨units, by rw [hinside, htext], hconstant, StringUnit.length_flatMap_text units,
      _, Script.Term.ofExpression_string hkind hconstant, ?_⟩
    rw [Script.Term.text, Script.Literal.toList_ofText, String.toList_ofList]
    refine ⟨?_, _, rfl, Script.Literal.readInside_encode _⟩
    intro c hc
    rcases List.mem_cons.1 hc with rfl | hc
    · decide
    · rcases List.mem_append.1 hc with hc | hc
      · exact Script.Literal.ne_newline_of_mem_encode hc
      · rw [List.mem_singleton.1 hc]
        decide

end MiniScheme

import Mathlib.Data.List.TakeWhile
import Mathlib.Data.Nat.Digits.Defs
import MiniScheme.Proofs.Gaps
import MiniScheme.Proofs.Patterns

/-!
# Lexemes by the rule of the longest match

Where a text begins with texts of several patterns, the longest of them is the lexeme; where two
patterns describe it, a fixed text is preferred to a class of texts; and where no pattern
describes any beginning, a single character is taken.  The reader looks at the first character
and goes on from there, and this comes to the same.

What the first character leaves is at most a handful of patterns, so that the proof goes class by
class of first characters.  The second half is what a lexeme is in each of these classes: an
identifier, a number, a string, and what begins with a dot.

Main results:

- Theorem `Lexeme.read_isLongest`: the reader follows the rule.
- Theorem `Lexeme.decimalValue_eq_placeValue`: a row of digits has the value of its digits.
- Theorem `Cursor.next_isLongest`: what a cursor takes after a gap is the longest match, and what
  it is for each class of first characters.
-/

namespace MiniScheme

open CharClass StringBody

/-! ## The rule -/

/-- The lexeme is the longest beginning of a text that any pattern describes, it is read as this
pattern says, and any other pattern that describes it comes second to this one. -/
structure Pattern.Wins (pattern : Pattern) (text : List Char) (lexeme : Lexeme) : Prop where
  admits : pattern.Admits lexeme.text
  isPrefix : lexeme.text <+: text
  longest : ∀ (other : Pattern) (piece : List Char), other.Admits piece → piece <+: text →
    piece.length ≤ lexeme.text.length
  preferred : ∀ other : Pattern, other.Admits lexeme.text → other ≠ pattern →
    pattern.isPreferred = true ∧ other.isPreferred = false
  reading_eq : lexeme.reading = pattern.reading lexeme.text

/-- The lexeme that a text begins with by the rule of the longest match: what some pattern takes,
or an unknown character if no pattern describes any beginning of the text. -/
def Lexeme.IsLongest (text : List Char) (lexeme : Lexeme) : Prop :=
  (∃ pattern : Pattern, pattern.Wins text lexeme) ∨
    (∀ (pattern : Pattern) (piece : List Char), pattern.Admits piece → ¬piece <+: text) ∧
      ∃ c rest, text = c :: rest ∧ lexeme = ⟨[c], .fault (.unknownCharacter c)⟩

/-! ## Rows of characters -/

/-- The row of all characters of a class that a text begins with. -/
def IsRun (isMember : Char → Bool) (run text : List Char) : Prop :=
  (∀ c ∈ run, isMember c = true) ∧ ∃ rest, text = run ++ rest ∧ Stops isMember rest

/-- All characters of the leading row of a class are in the class. -/
theorem mem_takeWhile {isMember : Char → Bool} {text : List Char} :
    ∀ c ∈ text.takeWhile isMember, isMember c = true :=
  List.all_eq_true.1 List.all_takeWhile

/-- What is left behind the leading row of a class does not go on with it. -/
theorem stops_dropWhile (isMember : Char → Bool) (text : List Char) :
    Stops isMember (text.dropWhile isMember) := by
  intro c hc
  have hhead := List.head?_dropWhile_not isMember text
  rw [Option.mem_def.1 hc] at hhead
  exact hhead

/-- A character of a class and all those of the class that follow it. -/
theorem isRun_cons_takeWhile {isMember : Char → Bool} {c : Char} (hc : isMember c = true)
    (text : List Char) : IsRun isMember (c :: text.takeWhile isMember) (c :: text) :=
  ⟨List.forall_mem_cons.2 ⟨hc, mem_takeWhile⟩, text.dropWhile isMember,
    by rw [List.cons_append, List.takeWhile_append_dropWhile], stops_dropWhile isMember text⟩

/-- No row of a class that a text begins with is longer than that of all of them. -/
theorem length_le_cons_takeWhile {isMember : Char → Bool} {c d : Char} {row text : List Char}
    (hrow : ∀ e ∈ row, isMember e = true) (hle : d :: row <+: c :: text) :
    (d :: row).length ≤ (c :: text.takeWhile isMember).length := by
  obtain ⟨rest, rfl⟩ : row <+: text := (List.cons_prefix_cons.1 hle).2
  rw [List.takeWhile_append_of_pos hrow, List.length_cons, List.length_cons, List.length_append]
  exact Nat.succ_le_succ (Nat.le_add_right _ _)

/-- A character and the row behind it begin their text. -/
theorem cons_takeWhile_isPrefix (isMember : Char → Bool) (c : Char) (text : List Char) :
    c :: text.takeWhile isMember <+: c :: text :=
  (List.prefix_cons_inj c).2 (List.takeWhile_prefix isMember)

/-! ## Patterns by their first character -/

namespace Pattern

/-- Only numbers begin with a digit. -/
theorem begins_digit {c : Char} (hc : isDigit c = true) {other : Pattern}
    (h : other.begins c = true) : other = .number := by
  cases other with
  | number => rfl
  | keyword | word => exact absurd (h.symm.trans (isInitial_of_isDigit hc)) (by decide)
  | _ =>
    cases of_decide_eq_true h
    cases hc

/-- Only words begin with what may begin an identifier. -/
theorem begins_initial {c : Char} (hc : isInitial c = true) {other : Pattern}
    (h : other.begins c = true) : other = .word ∨ ∃ name, other = .keyword name := by
  cases other with
  | word => exact .inl rfl
  | keyword name => exact .inr ⟨name, rfl⟩
  | number => exact absurd (hc.symm.trans (isInitial_of_isDigit h)) (by decide)
  | _ =>
    cases of_decide_eq_true h
    cases hc

/-- Only lexemes of dots begin with a dot. -/
theorem begins_dot {other : Pattern} (h : other.begins '.' = true) :
    other = .dots ∨ other = .dotted := by
  cases other with
  | dots => exact .inl rfl
  | dotted => exact .inr rfl
  | _ => cases h

/-- Only strings begin with a double quote, closed or not. -/
theorem begins_quote {other : Pattern} (h : other.begins '"' = true) :
    other = .string ∨ other = .unclosedString := by
  cases other with
  | string => exact .inl rfl
  | unclosedString => exact .inr rfl
  | _ => cases h

/-- Only the opening parenthesis begins as it does. -/
theorem begins_open {other : Pattern} (h : other.begins '(' = true) : other = .openParen := by
  cases other with
  | openParen => rfl
  | _ => cases h

/-- Only the closing parenthesis begins as it does. -/
theorem begins_close {other : Pattern} (h : other.begins ')' = true) : other = .closeParen := by
  cases other with
  | closeParen => rfl
  | _ => cases h

/-- Only the quote mark begins as it does. -/
theorem begins_mark {other : Pattern} (h : other.begins '\'' = true) : other = .quoteMark := by
  cases other with
  | quoteMark => rfl
  | _ => cases h

/-- The texts that begin with a sharp sign, one pattern at a time. -/
theorem Admits.sharp_cases {other : Pattern} {piece : List Char} (h : other.Admits piece)
    (hbegins : other.begins '#' = true) :
    (other = .openVector ∧ piece = ['#', '(']) ∨ (other = .boolean true ∧ piece = ['#', 't']) ∨
      (other = .boolean false ∧ piece = ['#', 'f']) ∨
      (∃ c, other = .character ∧ piece = ['#', '\\', c]) ∨
      (other = .bareCharacter ∧ piece = ['#', '\\']) ∨ other = .bareSharp ∧ piece = ['#'] := by
  cases other with
  | openVector => exact .inl ⟨rfl, mem_literal.1 h⟩
  | boolean value =>
    cases value with
    | true => exact .inr (.inl ⟨rfl, mem_literal.1 h⟩)
    | false => exact .inr (.inr (.inl ⟨rfl, mem_literal.1 h⟩))
  | character =>
    obtain ⟨c, rfl⟩ := admits_character.1 h
    exact .inr (.inr (.inr (.inl ⟨c, rfl, rfl⟩)))
  | bareCharacter => exact .inr (.inr (.inr (.inr (.inl ⟨rfl, mem_literal.1 h⟩))))
  | bareSharp => exact .inr (.inr (.inr (.inr (.inr ⟨rfl, mem_literal.1 h⟩))))
  | _ => cases hbegins

/-- No text that begins with a sharp sign is of two patterns. -/
theorem Admits.sharp_unique {pattern other : Pattern} {piece : List Char}
    (h : pattern.Admits piece) (hbegins : pattern.begins '#' = true) (h' : other.Admits piece)
    (hbegins' : other.begins '#' = true) : other = pattern := by
  rcases h.sharp_cases hbegins with ⟨rfl, rfl⟩ | ⟨rfl, rfl⟩ | ⟨rfl, rfl⟩ | ⟨c, rfl, rfl⟩ |
    ⟨rfl, rfl⟩ | ⟨rfl, rfl⟩ <;>
  simpa using h'.sharp_cases hbegins'

/-- Three dots are a row of characters that a dot begins. -/
theorem admits_dotted_of_dots {piece : List Char} (h : dots.Admits piece) :
    dotted.Admits piece := by
  obtain rfl := mem_literal.1 h
  exact admits_dotted.2 ⟨['.', '.'], rfl, List.all_iff_forall_prop.1 (by decide)⟩

/-- Only patterns that begin with the first character of a text compete for it. -/
theorem Wins.of_begins {pattern : Pattern} {c : Char} {text : List Char} {lexeme : Lexeme}
    (hadmits : pattern.Admits lexeme.text) (hstart : lexeme.text <+: c :: text)
    (hbest : ∀ (other : Pattern) (piece : List Char), other.begins c = true →
      other.Admits piece → piece <+: c :: text → piece.length ≤ lexeme.text.length ∧
        (piece = lexeme.text → other ≠ pattern →
          pattern.isPreferred = true ∧ other.isPreferred = false))
    (hreading : lexeme.reading = pattern.reading lexeme.text) :
    pattern.Wins (c :: text) lexeme := by
  have hbegins : ∀ (other : Pattern) (piece : List Char), other.Admits piece →
      piece <+: c :: text → other.begins c = true := by
    intro other piece hpiece hle
    obtain ⟨d, rest, rfl, hd⟩ := hpiece.exists_cons
    obtain ⟨rfl, -⟩ := List.cons_prefix_cons.1 hle
    exact hd
  refine ⟨hadmits, hstart, fun other piece hpiece hle => ?_, fun other hother => ?_, hreading⟩
  · exact (hbest other piece (hbegins other piece hpiece hle) hpiece hle).1
  · exact (hbest other _ (hbegins other _ hother hstart) hother hstart).2 rfl

/-- A pattern of one character that no other pattern begins with. -/
theorem wins_single {pattern : Pattern} {c : Char} (text : List Char)
    (hlanguage : pattern.language = {[c]})
    (hbegins : ∀ other : Pattern, other.begins c = true → other = pattern) :
    pattern.Wins (c :: text) ⟨[c], pattern.reading [c]⟩ := by
  have hadmits : pattern.Admits [c] := by
    rw [Admits, hlanguage]
    exact mem_literal.2 rfl
  refine .of_begins hadmits ⟨text, rfl⟩ (fun other piece hother hpiece _ => ?_) rfl
  obtain rfl := hbegins other hother
  have hpiece : piece = [c] := by
    rw [Admits, hlanguage] at hpiece
    exact mem_literal.1 hpiece
  exact ⟨by rw [hpiece], fun _ hne => absurd rfl hne⟩

end Pattern

/-- The reserved word that a text is found as is the one that is spelled so. -/
theorem Keyword.ofSpelling?_eq_some_iff {text : List Char} {name : Keyword} :
    ofSpelling? text = some name ↔ text = name.spelling := by
  constructor
  · intro h
    have hfound := List.find?_some h
    exact (of_decide_eq_true hfound).symm
  · rintro rfl
    exact ofSpelling?_spelling name

namespace Lexeme

open Pattern

/-! ## The reader follows the rule -/

/-- What is read after a sharp sign is a text of one of its patterns. -/
theorem exists_admits_sharp (text : List Char) :
    ∃ pattern : Pattern, pattern.begins '#' = true ∧ pattern.Admits (sharp text).text ∧
      (sharp text).reading = pattern.reading (sharp text).text := by
  fun_cases sharp text with
  | case1 => exact ⟨.openVector, rfl, mem_literal.2 rfl, rfl⟩
  | case2 => exact ⟨.boolean true, rfl, mem_literal.2 rfl, rfl⟩
  | case3 => exact ⟨.boolean false, rfl, mem_literal.2 rfl, rfl⟩
  | case4 c => exact ⟨.character, rfl, admits_character.2 ⟨c, rfl⟩, rfl⟩
  | case5 => exact ⟨.bareCharacter, rfl, mem_literal.2 rfl, rfl⟩
  | case6 => exact ⟨.bareSharp, rfl, mem_literal.2 rfl, rfl⟩

/-- No text after a sharp sign is longer than what is read. -/
theorem length_le_sharp {other : Pattern} {piece text : List Char} (h : other.Admits piece)
    (hbegins : other.begins '#' = true) (hle : piece <+: '#' :: text) :
    piece.length ≤ (sharp text).text.length := by
  obtain ⟨rest, hrest⟩ := hle
  rcases h.sharp_cases hbegins with ⟨-, rfl⟩ | ⟨-, rfl⟩ | ⟨-, rfl⟩ | ⟨c, -, rfl⟩ | ⟨-, rfl⟩ |
    ⟨-, rfl⟩
  · cases hrest
    rfl
  · cases hrest
    rfl
  · cases hrest
    rfl
  · cases hrest
    rfl
  · cases hrest
    cases rest with
    | nil => rfl
    | cons c rest => exact Nat.le_succ 2
  · exact List.length_pos_iff.2 (sharp_ne_nil text)

/-- Behind a sharp sign some pattern wins with what is read. -/
theorem exists_wins_sharp (text : List Char) :
    ∃ pattern : Pattern, pattern.Wins ('#' :: text) (sharp text) := by
  obtain ⟨pattern, hbegins, hadmits, hreading⟩ := exists_admits_sharp text
  refine ⟨pattern, .of_begins hadmits (sharp_isPrefix text) ?_ hreading⟩
  intro other piece hother hpiece hle
  refine ⟨length_le_sharp hpiece hother hle, fun heq hne => ?_⟩
  exact absurd (hadmits.sharp_unique hbegins (heq ▸ hpiece) hother) hne

/-- A body up to a double quote is read as a string. -/
theorem doubleQuote_closed {body : List Char} (h : IsBody body) (rest : List Char) :
    doubleQuote (body ++ '"' :: rest) =
      ⟨'"' :: (body ++ ['"']), .token .string (some (.string (String.ofList (decode body))))⟩ := by
  simp [doubleQuote, h.leading_quote]

/-- A body up to the end of the source is read as a string that is not closed. -/
theorem doubleQuote_unclosed {body last : List Char} (h : IsBody body) (hlast : IsStray last) :
    doubleQuote (body ++ last) = ⟨'"' :: (body ++ last), .fault .unterminatedString⟩ := by
  have hbody : leading (body ++ last) = body := by
    rw [h.leading_append, hlast.leading_eq, List.append_nil]
  simp only [doubleQuote, hbody, List.drop_left]
  rcases hlast with rfl | rfl <;> rfl

/-- A string goes to its closing quote. -/
theorem string_wins {body : List Char} (h : IsBody body) (rest : List Char) :
    Pattern.string.Wins ('"' :: (body ++ '"' :: rest)) (doubleQuote (body ++ '"' :: rest)) := by
  rw [doubleQuote_closed h]
  refine .of_begins (admits_string.2 ⟨body, h, rfl⟩) ⟨rest, by simp⟩ ?_ (by simp [Pattern.reading])
  intro other piece hother hpiece hle
  rcases begins_quote hother with rfl | rfl
  · obtain ⟨body', h', rfl⟩ := admits_string.1 hpiece
    obtain ⟨more, hmore⟩ := hle
    -- Both bodies are the one that is found.
    have hbody : body' = body := by
      have hleading := congrArg leading (List.cons.inj hmore).2
      simpa [h'.leading_quote, h.leading_quote] using hleading
    exact ⟨by rw [hbody], fun _ hne => absurd rfl hne⟩
  · obtain ⟨body', last, h', hlast, rfl⟩ := admits_unclosedString.1 hpiece
    refine ⟨?_, fun heq => absurd (List.cons.inj heq).2.symm (h.append_quote_ne [] h' hlast)⟩
    have hbody : body'.length ≤ body.length := by
      obtain ⟨more, hmore⟩ := hle
      have hleading := congrArg leading (List.cons.inj hmore).2
      rw [List.append_eq, List.append_assoc, h'.leading_append, h.leading_quote] at hleading
      rw [← hleading, List.length_append]
      exact Nat.le_add_right _ _
    have hlength : last.length ≤ 1 := by
      rcases hlast with rfl | rfl <;> decide
    simp only [List.length_cons, List.length_append, List.length_nil]
    omega

/-- A string that is not closed goes to the end of the source. -/
theorem unclosedString_wins {body last : List Char} (h : IsBody body) (hlast : IsStray last) :
    Pattern.unclosedString.Wins ('"' :: (body ++ last)) (doubleQuote (body ++ last)) := by
  rw [doubleQuote_unclosed h hlast]
  have hadmits := admits_unclosedString.2 ⟨body, last, h, hlast, rfl⟩
  refine .of_begins hadmits List.prefix_rfl ?_ rfl
  intro other piece hother hpiece hle
  refine ⟨hle.length_le, fun heq hne => ?_⟩
  rcases begins_quote hother with rfl | rfl
  · obtain ⟨body', h', rfl⟩ := admits_string.1 hpiece
    exact absurd (List.cons.inj heq).2 (h'.append_quote_ne [] h hlast)
  · exact absurd rfl hne

/-- Behind a double quote some pattern wins with what is read. -/
theorem exists_wins_doubleQuote (text : List Char) :
    ∃ pattern : Pattern, pattern.Wins ('"' :: text) (doubleQuote text) := by
  rcases leading_cases text with ⟨rest, htext⟩ | ⟨last, hlast, htext⟩
  · rw [htext]
    exact ⟨_, string_wins (isBody_leading text) rest⟩
  · rw [htext]
    exact ⟨_, unclosedString_wins (isBody_leading text) hlast⟩

/-- Behind a digit the number wins. -/
theorem number_wins {c : Char} (hc : isDigit c = true) (text : List Char) :
    Pattern.number.Wins (c :: text) (number (c :: text.takeWhile isDigit)) := by
  have hadmits := admits_number.2 ⟨c, text.takeWhile isDigit, rfl, hc, mem_takeWhile⟩
  refine .of_begins hadmits (cons_takeWhile_isPrefix isDigit c text) ?_ rfl
  intro other piece hother hpiece hle
  obtain rfl := begins_digit hc hother
  obtain ⟨d, row, rfl, -, hrow⟩ := admits_number.1 hpiece
  exact ⟨length_le_cons_takeWhile hrow hle, fun _ hne => absurd rfl hne⟩

/-- A word is at least as long as every reserved word that its text begins with, and it is one
itself only as this reserved word. -/
theorem exists_wins_word {c : Char} (hc : isInitial c = true) (text : List Char) :
    ∃ pattern : Pattern, pattern.Wins (c :: text) (word (c :: text.takeWhile isSubsequent)) := by
  have hword := admits_word.2 ⟨c, text.takeWhile isSubsequent, rfl, hc, mem_takeWhile⟩
  have hstart := cons_takeWhile_isPrefix isSubsequent c text
  have hlongest : ∀ piece, Pattern.word.Admits piece → piece <+: c :: text →
      piece.length ≤ (c :: text.takeWhile isSubsequent).length := by
    intro piece hpiece hle
    obtain ⟨d, row, rfl, -, hrow⟩ := admits_word.1 hpiece
    exact length_le_cons_takeWhile hrow hle
  cases hkeyword : Keyword.ofSpelling? (c :: text.takeWhile isSubsequent) with
  | some name =>
    have hspelling := Keyword.ofSpelling?_eq_some_iff.1 hkeyword
    refine ⟨.keyword name, .of_begins (admits_keyword.2 hspelling) hstart ?_ ?_⟩
    · intro other piece hother hpiece hle
      rcases begins_initial hc hother with rfl | ⟨name', rfl⟩
      · exact ⟨hlongest piece hpiece hle, fun _ _ => ⟨rfl, rfl⟩⟩
      · obtain rfl := admits_keyword.1 hpiece
        refine ⟨hlongest _ (admits_word_spelling name') hle, fun heq hne => absurd ?_ hne⟩
        rw [Pattern.keyword.injEq, ← Option.some.injEq, ← hkeyword]
        exact (Keyword.ofSpelling?_eq_some_iff.2 heq.symm).symm
    · simp [word, hkeyword, Pattern.reading]
  | none =>
    refine ⟨.word, .of_begins hword hstart ?_ (by simp [word, hkeyword, Pattern.reading])⟩
    intro other piece hother hpiece hle
    rcases begins_initial hc hother with rfl | ⟨name', rfl⟩
    · exact ⟨hlongest piece hpiece hle, fun _ hne => absurd rfl hne⟩
    · obtain rfl := admits_keyword.1 hpiece
      refine ⟨hlongest _ (admits_word_spelling name') hle, fun heq => ?_⟩
      have hsome := Keyword.ofSpelling?_eq_some_iff.2 heq.symm
      exact absurd (hkeyword.symm.trans hsome) (by simp)

/-- Three dots alone are an identifier, and every other row of characters that a dot begins is
none. -/
theorem exists_wins_dotted (text : List Char) :
    ∃ pattern : Pattern,
      pattern.Wins ('.' :: text) (dotted ('.' :: text.takeWhile isSubsequent)) := by
  have hdotted := admits_dotted.2 ⟨text.takeWhile isSubsequent, rfl, mem_takeWhile⟩
  have hstart := cons_takeWhile_isPrefix isSubsequent '.' text
  have hlongest : ∀ piece, Pattern.dotted.Admits piece → piece <+: '.' :: text →
      piece.length ≤ ('.' :: text.takeWhile isSubsequent).length := by
    intro piece hpiece hle
    obtain ⟨row, rfl, hrow⟩ := admits_dotted.1 hpiece
    exact length_le_cons_takeWhile hrow hle
  by_cases hdots : '.' :: text.takeWhile isSubsequent = ['.', '.', '.']
  · refine ⟨.dots, .of_begins (mem_literal.2 hdots) hstart ?_ (if_pos hdots)⟩
    intro other piece hother hpiece hle
    rcases begins_dot hother with rfl | rfl
    · exact ⟨hlongest piece (admits_dotted_of_dots hpiece) hle, fun _ hne => absurd rfl hne⟩
    · exact ⟨hlongest piece hpiece hle, fun _ _ => ⟨rfl, rfl⟩⟩
  · refine ⟨.dotted, .of_begins hdotted hstart ?_ (if_neg hdots)⟩
    intro other piece hother hpiece hle
    rcases begins_dot hother with rfl | rfl
    · refine ⟨hlongest piece (admits_dotted_of_dots hpiece) hle, fun heq => ?_⟩
      exact absurd (heq.symm.trans (mem_literal.1 hpiece)) hdots
    · exact ⟨hlongest piece hpiece hle, fun _ hne => absurd rfl hne⟩

/-- No pattern begins with a character that is in no class of first characters. -/
theorem begins_eq_false {c : Char} (hopen : c ≠ '(') (hclose : c ≠ ')') (hmark : c ≠ '\'')
    (hsharp : c ≠ '#') (hquote : c ≠ '"') (hdigit : isDigit c ≠ true)
    (hinitial : isInitial c ≠ true) (hdot : c ≠ '.') (pattern : Pattern) :
    pattern.begins c = false := by
  cases pattern <;> simp_all [begins]

/-- The reader follows the rule of the longest match. -/
theorem read_isLongest (c : Char) (text : List Char) : (read c text).IsLongest (c :: text) := by
  fun_cases read c text with
  | case1 hc =>
    subst hc
    exact .inl ⟨.openParen, wins_single text rfl fun _ => begins_open⟩
  | case2 _ hc =>
    subst hc
    exact .inl ⟨.closeParen, wins_single text rfl fun _ => begins_close⟩
  | case3 _ _ hc =>
    subst hc
    exact .inl ⟨.quoteMark, wins_single text rfl fun _ => begins_mark⟩
  | case4 _ _ _ hc =>
    subst hc
    exact .inl (exists_wins_sharp text)
  | case5 _ _ _ _ hc =>
    subst hc
    exact .inl (exists_wins_doubleQuote text)
  | case6 _ _ _ _ _ hc => exact .inl ⟨.number, number_wins hc text⟩
  | case7 _ _ _ _ _ _ hc => exact .inl (exists_wins_word hc text)
  | case8 _ _ _ _ _ _ _ hc =>
    subst hc
    exact .inl (exists_wins_dotted text)
  | case9 hopen hclose hmark hsharp hquote hdigit hinitial hdot =>
    refine .inr ⟨fun pattern piece hpiece hle => ?_, c, text, rfl, rfl⟩
    obtain ⟨d, rest, rfl, hd⟩ := hpiece.exists_cons
    obtain ⟨rfl, -⟩ := List.cons_prefix_cons.1 hle
    rw [begins_eq_false hopen hclose hmark hsharp hquote hdigit hinitial hdot] at hd
    cases hd

end Lexeme

/-- Of the words that overlap here, the longest is no reserved word any more. -/
example : Lexeme.read 'd' "efine-syntaxes)".toList =
    ⟨"define-syntaxes".toList, .token .identifier none⟩ := by decide

/-! ## Identifiers -/

namespace Lexeme

/-- Behind a dot all characters of a word are read. -/
theorem read_dot (text : List Char) :
    read '.' text = dotted ('.' :: text.takeWhile isSubsequent) :=
  rfl

/-- A word is an identifier if it is no reserved word. -/
theorem isIdentifier_of_isInitial {c : Char} (hc : isInitial c = true) (text : List Char) :
    (∃ constant, (read c text).reading = .token .identifier constant) ↔
      ∀ name : Keyword, (read c text).text ≠ name.spelling := by
  rw [read_of_isInitial hc]
  cases hkeyword : Keyword.ofSpelling? (c :: text.takeWhile isSubsequent) with
  | some name =>
    have hspelling := Keyword.ofSpelling?_eq_some_iff.1 hkeyword
    exact iff_of_false (by simp [word, hkeyword]) fun h => h name hspelling
  | none =>
    refine iff_of_true ⟨none, by simp [word, hkeyword]⟩ fun name heq => ?_
    have hsome := Keyword.ofSpelling?_eq_some_iff.2 heq
    exact absurd (hkeyword.symm.trans hsome) (by simp)

/-- What begins with a dot is an identifier if it is three dots. -/
theorem isIdentifier_of_dot (text : List Char) :
    (∃ constant, (read '.' text).reading = .token .identifier constant) ↔
      (read '.' text).text = ['.', '.', '.'] := by
  rw [read_dot]
  by_cases h : '.' :: text.takeWhile isSubsequent = ['.', '.', '.']
  · exact iff_of_true ⟨none, if_pos h⟩ h
  · exact iff_of_false (by simp [dotted, h]) h

/-- A token is what some pattern that begins with its first character reads. -/
theorem exists_pattern_of_token {c : Char} {text : List Char} {kind : TokenKind}
    {constant : Option Constant} (h : (read c text).reading = .token kind constant) :
    ∃ pattern : Pattern, pattern.begins c = true ∧
      pattern.reading (read c text).text = .token kind constant := by
  rcases read_isLongest c text with ⟨pattern, hwins⟩ | ⟨-, _, _, -, hlexeme⟩
  · obtain ⟨d, rest, htext, hd⟩ := hwins.admits.exists_cons
    have hstart := hwins.isPrefix
    rw [htext] at hstart
    obtain ⟨rfl, -⟩ := List.cons_prefix_cons.1 hstart
    exact ⟨pattern, hd, hwins.reading_eq.symm.trans h⟩
  · rw [hlexeme] at h
    cases h

/-- An identifier begins with an initial character or a dot. -/
theorem first_of_identifier {c : Char} {text : List Char} {constant : Option Constant}
    (h : (read c text).reading = .token .identifier constant) : isInitial c = true ∨ c = '.' := by
  obtain ⟨pattern, hbegins, hreading⟩ := exists_pattern_of_token h
  cases pattern with
  | word => exact .inl hbegins
  | dots => exact .inr (of_decide_eq_true hbegins)
  | number =>
    simp only [Pattern.reading, number] at hreading
    split at hreading <;> cases hreading
  | _ => cases hreading

/-- A number begins with a digit. -/
theorem isDigit_of_number {c : Char} {text : List Char} {constant : Option Constant}
    (h : (read c text).reading = .token .number constant) : isDigit c = true := by
  obtain ⟨pattern, hbegins, hreading⟩ := exists_pattern_of_token h
  cases pattern with
  | number => exact hbegins
  | _ => cases hreading

/-- A string begins with a double quote. -/
theorem eq_quote_of_string {c : Char} {text : List Char} {constant : Option Constant}
    (h : (read c text).reading = .token .string constant) : c = '"' := by
  obtain ⟨pattern, hbegins, hreading⟩ := exists_pattern_of_token h
  cases pattern with
  | string => exact of_decide_eq_true hbegins
  | number =>
    simp only [Pattern.reading, number] at hreading
    split at hreading <;> cases hreading
  | _ => cases hreading

/-- An identifier is a row of subsequent characters that is no reserved word and begins as
identifiers do, or it is three dots. -/
theorem isIdentifier_iff (c : Char) (text : List Char) :
    (∃ constant, (read c text).reading = .token .identifier constant) ↔
      IsRun isSubsequent (read c text).text (c :: text) ∧
        (∀ name : Keyword, (read c text).text ≠ name.spelling) ∧
          (isInitial c = true ∨ (read c text).text = ['.', '.', '.']) := by
  by_cases hinitial : isInitial c = true
  · have hrun := isRun_cons_takeWhile (isSubsequent_of_isInitial hinitial) text
    rw [isIdentifier_of_isInitial hinitial, read_of_isInitial hinitial]
    exact ⟨fun h => ⟨hrun, h, .inl hinitial⟩, fun h => h.2.1⟩
  by_cases hdot : c = '.'
  · subst hdot
    rw [isIdentifier_of_dot]
    refine ⟨fun h => ⟨?_, ?_, .inr h⟩, fun h => h.2.2.resolve_left hinitial⟩
    · exact read_dot text ▸ isRun_cons_takeWhile (by decide) text
    · rw [h]
      intro name
      cases name <;> decide
  · refine iff_of_false (fun ⟨_, h⟩ => (first_of_identifier h).elim hinitial hdot) ?_
    rintro ⟨-, -, hfirst | hdots⟩
    · exact hinitial hfirst
    · have hstart := read_isPrefix c text
      rw [hdots] at hstart
      exact hdot (List.cons_prefix_cons.1 hstart).1.symm

/-! ## Numbers -/

/-- The number that digits denote, each counted for its place. -/
def placeValue (digits : List Char) : Nat :=
  Nat.ofDigits 10 ((digits.map fun digit => digit.toNat - '0'.toNat).reverse)

/-- A row of digits has the value of its digits. -/
theorem decimalValue_eq_placeValue (digits : List Char) :
    decimalValue digits = placeValue digits := by
  induction digits using List.reverseRecOn with
  | nil => rfl
  | append_singleton digits digit ih =>
    have hvalue : decimalValue (digits ++ [digit]) =
        10 * decimalValue digits + (digit.toNat - '0'.toNat) := by
      simp [decimalValue]
    rw [hvalue, ih]
    simp [placeValue, Nat.ofDigits_cons, Nat.add_comm]

/-- Digits are read as the number that they denote, whatever their number, and not at all if the
number has no place among those of 64 bits. -/
def IsNumber (lexeme : Lexeme) : Prop :=
  (placeValue lexeme.text < 2 ^ 63 ∧ ∃ value : Int64,
      lexeme.reading = .token .number (some (.number value)) ∧
        value.toInt = placeValue lexeme.text) ∨
    2 ^ 63 ≤ placeValue lexeme.text ∧
      lexeme.reading = .fault (.numberTooLarge (String.ofList lexeme.text))

/-- What is read of digits is the number that they denote, or an error if that is too large. -/
theorem isNumber_number (digits : List Char) : (number digits).IsNumber := by
  by_cases h : decimalValue digits < 0x8000000000000000
  · refine .inl ⟨decimalValue_eq_placeValue digits ▸ h, _, if_pos h, ?_⟩
    rw [Int64.toInt_ofNat_of_lt h, decimalValue_eq_placeValue]
    rfl
  · exact .inr ⟨decimalValue_eq_placeValue digits ▸ Nat.le_of_not_lt h, if_neg h⟩

/-! ## Strings -/

/-- A string goes up to the first quote that is in no pair, and takes the rest of the source if
there is none. -/
def IsString (lexeme : Lexeme) (text : List Char) : Prop :=
  (∃ body rest, IsBody body ∧ text = body ++ '"' :: rest ∧
      lexeme = ⟨'"' :: (body ++ ['"']),
        .token .string (some (.string (String.ofList (decode body))))⟩) ∨
    (¬∃ body rest, IsBody body ∧ text = body ++ '"' :: rest) ∧
      lexeme = ⟨'"' :: text, .fault .unterminatedString⟩

/-- What is read behind a double quote is a string up to the next one that is not escaped, or an
error. -/
theorem isString_doubleQuote (text : List Char) : (doubleQuote text).IsString text := by
  have hbody := isBody_leading text
  rcases leading_cases text with ⟨rest, htext⟩ | ⟨last, hlast, htext⟩
  · refine .inl ⟨leading text, rest, hbody, htext, ?_⟩
    have hread := doubleQuote_closed hbody rest
    rwa [← htext] at hread
  · refine .inr ⟨fun ⟨body, rest, h, heq⟩ => ?_, ?_⟩
    · exact h.append_quote_ne rest hbody hlast (heq.symm.trans htext)
    · have hread := doubleQuote_unclosed hbody hlast
      rwa [← htext] at hread

/-! ## What is taken -/

/-- What is taken of a text that begins with a character: the longest match, and what this means
for identifiers, numbers, strings and what begins with a dot. -/
structure IsTaken (lexeme : Lexeme) (c : Char) (text : List Char) : Prop where
  isLongest : lexeme.IsLongest (c :: text)
  identifier_iff : (∃ constant, lexeme.reading = .token .identifier constant) ↔
    IsRun isSubsequent lexeme.text (c :: text) ∧
      (∀ name : Keyword, lexeme.text ≠ name.spelling) ∧
        (isInitial c = true ∨ lexeme.text = ['.', '.', '.'])
  number_first : (∃ constant, lexeme.reading = .token .number constant) → isDigit c = true
  number : isDigit c = true → IsRun isDigit lexeme.text (c :: text) ∧ lexeme.IsNumber
  string_first : (∃ constant, lexeme.reading = .token .string constant) → c = '"'
  string : c = '"' → lexeme.IsString text
  dotted : c = '.' → IsRun isSubsequent lexeme.text (c :: text) ∧
    lexeme.reading = if lexeme.text = ['.', '.', '.'] then .token .identifier none
      else .fault (.illegalIdentifier (String.ofList lexeme.text))

/-- What is read of a text is what is to be taken of it. -/
theorem read_isTaken (c : Char) (text : List Char) : (read c text).IsTaken c text where
  isLongest := read_isLongest c text
  identifier_iff := isIdentifier_iff c text
  number_first := fun ⟨_, h⟩ => isDigit_of_number h
  number := by
    intro hc
    rw [read_of_isDigit hc]
    exact ⟨isRun_cons_takeWhile hc text, isNumber_number _⟩
  string_first := fun ⟨_, h⟩ => eq_quote_of_string h
  string := by
    rintro rfl
    exact isString_doubleQuote text
  dotted := by
    rintro rfl
    exact ⟨isRun_cons_takeWhile (by decide) text, rfl⟩

end Lexeme

/-- Wherever a cursor stands, it takes the longest match behind the gap there, if any lexeme
follows. -/
theorem Cursor.next_isLongest (cursor : Cursor) :
    (IsLastGap cursor.rest ∧ cursor.next.1 = .ok (.endOfSource cursor.finish)) ∨
      ∃ (gap : List Char) (c : Char) (text rest : List Char) (lexeme : Lexeme),
        cursor.rest = gap ++ c :: text ∧ IsGap gap ∧ c ≠ ';' ∧ isSpace c = false ∧
          c :: text = lexeme.text ++ rest ∧ lexeme.IsTaken c text ∧
          cursor.next = (lexeme.item (cursor.position.advance gap),
            ⟨rest, (cursor.position.advance gap).advance lexeme.text⟩) := by
  rcases cursor.next_cases with
    ⟨hlast, hnext⟩ | ⟨gap, c, text, rest, hrest, hgap, hcomment, hspace, htext, hnext⟩
  · exact .inl ⟨hlast, congrArg Prod.fst hnext⟩
  · exact .inr ⟨gap, c, text, rest, Lexeme.read c text, hrest, hgap, hcomment, hspace, htext,
      Lexeme.read_isTaken c text, hnext⟩

end MiniScheme

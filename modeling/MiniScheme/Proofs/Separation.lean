import MiniScheme.Proofs.CursorItems

/-!
# A newline separates two texts

A lexeme may go on over a newline only where a string is open or a character literal lacks its
character.  Where a text has neither, a newline after it ends whatever it ends with, and the
items of what follows the newline are those of a text that begins there.

Main results:

- Theorem `Lexeme.read_append`: a lexeme that is whole stays what it is before a newline.
- Theorem `Cursor.items_separate`: the items of a text, a newline and a second text are those of
  the first text followed by those of the second.
-/

namespace MiniScheme

/-! ## Gaps -/

/-- A gap that a text does not end with ends where it ended before. -/
theorem leadingGap_append {inComment : Bool} {text rest : List Char} {c : Char}
    (h : text.drop (leadingGap inComment text).length = c :: rest) (tail : List Char) :
    leadingGap inComment (text ++ tail) = leadingGap inComment text := by
  fun_induction leadingGap inComment text with
  | case1 => simp at h
  | case2 d text ih =>
    have := ih (by simpa using h)
    simp [leadingGap, this]
  | case3 inComment text hcomment ih =>
    have := ih (by simpa using h)
    simp [leadingGap, hcomment, this]
  | case4 inComment d text hcomment hd hspace ih =>
    have := ih (by simpa using h)
    simp [leadingGap, hcomment, hd, hspace, this]
  | case5 inComment d text hcomment hd hspace =>
    simp [leadingGap, hcomment, hd, hspace]

/-- A gap that a text ends with goes on over the newline, which ends a comment. -/
theorem leadingGap_append_newline {inComment : Bool} {text : List Char}
    (h : text.drop (leadingGap inComment text).length = []) (tail : List Char) :
    leadingGap inComment (text ++ '\n' :: tail) = text ++ '\n' :: leadingGap false tail := by
  fun_induction leadingGap inComment text with
  | case1 inComment =>
    cases inComment <;> simp [leadingGap, CharClass.isSpace]
  | case2 d text ih =>
    have := ih (by simpa using h)
    simp [leadingGap, this]
  | case3 inComment text hcomment ih =>
    have := ih (by simpa using h)
    simp [leadingGap, hcomment, this]
  | case4 inComment d text hcomment hd hspace ih =>
    have := ih (by simpa using h)
    simp [leadingGap, hcomment, hd, hspace, this]
  | case5 inComment d text hcomment hd hspace => simp at h

/-! ## Lexemes -/

/-- The body of a string that is closed does not depend on what follows the string. -/
theorem StringBody.leading_append {text rest : List Char}
    (h : text.drop (leading text).length = '"' :: rest) (tail : List Char) :
    leading (text ++ tail) = leading text := by
  fun_induction leading text with
  | case1 => simp at h
  | case2 c text ih =>
    have := ih (by simpa using h)
    simp [leading, this]
  | case3 c text hpair hc =>
    obtain ⟨rfl, rfl⟩ : c = '"' ∧ text = rest := by simpa using h
    simp [leading, isSpecial]
  | case4 c text hpair hc ih =>
    have := ih (by simpa using h)
    have hbackslash : c ≠ '\\' := by
      rintro rfl
      exact hc rfl
    simp [leading, hbackslash, hc, this]

/-- A row of characters that a newline is none of ends before it. -/
theorem takeWhile_append_newline {p : Char → Bool} (h : p '\n' = false)
    (text tail : List Char) : (text ++ '\n' :: tail).takeWhile p = text.takeWhile p := by
  induction text with
  | nil => simp [h]
  | cons c text ih => simp [List.takeWhile_cons, ih]

namespace Lexeme

/-- A sharp before any other character is malformed. -/
theorem sharp_cons {c : Char} (h : c ∉ ['(', 't', 'f', '\\']) (text : List Char) :
    sharp (c :: text) = ⟨['#'], .fault .malformedBoolean⟩ := by
  unfold sharp
  split <;> simp_all

/-- A lexeme that a sharp begins is the same with a line behind it, unless the text ended too early
for it. -/
theorem sharp_append {text : List Char} (h : (sharp text).reading ≠ .fault .emptyCharacter)
    (tail : List Char) : sharp (text ++ '\n' :: tail) = sharp text := by
  fun_cases sharp text with
  | case1 => rfl
  | case2 => rfl
  | case3 => rfl
  | case4 => rfl
  | case5 => exact absurd rfl h
  | case6 _ hopen htrue hfalse hliteral hcut =>
    cases text with
    | nil => rfl
    | cons c text =>
      apply sharp_cons
      intro hc
      simp only [List.mem_cons, List.not_mem_nil, or_false] at hc
      rcases hc with rfl | rfl | rfl | rfl
      · exact hopen _ rfl
      · exact htrue _ rfl
      · exact hfalse _ rfl
      · cases text with
        | nil => exact hcut rfl
        | cons d text => exact hliteral d text rfl

/-- A closed string literal is the same with more text behind it. -/
theorem doubleQuote_append {text : List Char}
    (h : (doubleQuote text).reading ≠ .fault .unterminatedString) (tail : List Char) :
    doubleQuote (text ++ tail) = doubleQuote text := by
  rcases doubleQuote_cases text with ⟨rest, htext, -⟩ | hopen
  · have hrest : text.drop (StringBody.leading text).length = '"' :: rest := by
      have := congrArg (List.drop (StringBody.leading text).length) htext
      rwa [List.drop_left] at this
    have hle := (StringBody.leading_isPrefix text).length_le
    have hrest' : (text ++ tail).drop (StringBody.leading text).length = '"' :: rest ++ tail := by
      rw [List.drop_append_of_le_length hle, hrest]
    unfold doubleQuote
    simp only [StringBody.leading_append hrest tail, hrest, hrest', List.cons_append]
  · exact absurd (by rw [hopen]) h

/-- A lexeme that is whole stays what it is before a newline. -/
theorem read_append {c : Char} {text : List Char}
    (hstring : (read c text).reading ≠ .fault .unterminatedString)
    (hcharacter : (read c text).reading ≠ .fault .emptyCharacter) (tail : List Char) :
    read c (text ++ '\n' :: tail) = read c text := by
  have hdigit := takeWhile_append_newline (p := CharClass.isDigit) (by decide) text tail
  have hsubsequent := takeWhile_append_newline (p := CharClass.isSubsequent) (by decide) text tail
  unfold read at hstring hcharacter ⊢
  rw [hdigit, hsubsequent]
  by_cases hsharp : c = '#'
  · subst hsharp
    exact sharp_append hcharacter tail
  · by_cases hquote : c = '"'
    · subst hquote
      exact doubleQuote_append hstring _
    · simp [hsharp, hquote]

end Lexeme

/-! ## Items -/

/-- Whether an item may go on over the end of its text: a string that nothing closes, or a
character literal without its character. -/
def Item.isUnfinished (item : Item) : Bool :=
  item.hasFault .unterminatedString || item.hasFault .emptyCharacter

namespace Cursor

/-- The cursor before the same text with a newline and another text after it. -/
def before (cursor : Cursor) (tail : List Char) : Cursor :=
  { cursor with rest := cursor.rest ++ '\n' :: tail }

/-- The cursor after the newline that follows the text of a cursor. -/
def behind (cursor : Cursor) (tail : List Char) : Cursor :=
  ⟨tail, cursor.finish.next '\n'⟩

/-- What a cursor yields depends on what is after the gap only. -/
theorem items_eq_of_pastGap_eq {first second : Cursor} (h : first.pastGap = second.pastGap) :
    first.items = second.items := by
  cases hrest : second.pastGap.rest with
  | nil => rw [items_of_pastGap_nil hrest, items_of_pastGap_nil (h ▸ hrest)]
  | cons c text => rw [items_of_pastGap_cons hrest, items_of_pastGap_cons (h ▸ hrest), h]

/-- A cursor passes a text in front of it whatever else is behind. -/
theorem past_before {cursor : Cursor} {text : List Char} (h : text <+: cursor.rest)
    (tail : List Char) : (cursor.before tail).past text = (cursor.past text).before tail := by
  simp [past, before, List.drop_append_of_le_length h.length_le]

/-- Where a lexeme follows the gap it follows it also if there is more text behind. -/
theorem pastGap_before {cursor : Cursor} {c : Char} {text : List Char}
    (h : cursor.pastGap.rest = c :: text) (tail : List Char) :
    (cursor.before tail).pastGap = cursor.pastGap.before tail := by
  have hgap : leadingGap false (cursor.before tail).rest = leadingGap false cursor.rest :=
    leadingGap_append h ('\n' :: tail)
  rw [pastGap, pastGap, hgap, past_before (leadingGap_isPrefix _ _)]

/-- Where the text ends after the gap, what follows is what is behind the newline. -/
theorem pastGap_before_of_nil {cursor : Cursor} (h : cursor.pastGap.rest = [])
    (tail : List Char) : (cursor.before tail).pastGap = (cursor.behind tail).pastGap := by
  have hgap : leadingGap false (cursor.before tail).rest =
      cursor.rest ++ '\n' :: leadingGap false tail :=
    leadingGap_append_newline h tail
  rw [pastGap, pastGap, hgap]
  simp [past, before, behind, finish]

/-- The items of a text, a newline and a second text are those of the first text followed by
those of the second. -/
theorem items_separate {cursor : Cursor} (h : ∀ item ∈ cursor.items, item.isUnfinished = false)
    (tail : List Char) :
    (cursor.before tail).items = cursor.items ++ (cursor.behind tail).items := by
  fun_induction items cursor with
  | case1 cursor hend =>
    have hrest := cursor.isEnd_next.1 hend
    exact items_eq_of_pastGap_eq (pastGap_before_of_nil hrest tail)
  | case2 cursor hend ih =>
    obtain ⟨c, text, hrest⟩ := List.exists_cons_of_ne_nil (mt cursor.isEnd_next.2 hend)
    rw [next_of_pastGap_cons hrest] at h ih ⊢
    obtain ⟨hitem, hitems⟩ := List.forall_mem_cons.1 h
    obtain ⟨hstring, hcharacter⟩ := Bool.or_eq_false_iff.1 hitem
    have hread := Lexeme.read_append
      (mt (Lexeme.hasFault_item _ _ _).2 (Bool.eq_false_iff.1 hstring))
      (mt (Lexeme.hasFault_item _ _ _).2 (Bool.eq_false_iff.1 hcharacter)) tail
    have hbegins : (Lexeme.read c text).text <+: cursor.pastGap.rest :=
      hrest ▸ Lexeme.read_isPrefix c text
    have hbehind : (cursor.pastGap.past (Lexeme.read c text).text).behind tail =
        cursor.behind tail := by
      rw [behind, finish_past hbegins, finish_pastGap, behind]
    have hgap := pastGap_before hrest tail
    have hrest' : (cursor.before tail).pastGap.rest = c :: (text ++ '\n' :: tail) := by
      rw [hgap, before, hrest]
      rfl
    rw [items_of_pastGap_cons hrest', hread, hgap, past_before hbegins, ih hitems, hbehind]
    rfl

end Cursor

end MiniScheme

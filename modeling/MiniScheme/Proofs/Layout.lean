import Mathlib.Data.List.Forall2
import MiniScheme.Proofs.Identifiers
import MiniScheme.Proofs.Separation

/-!
# The layout of a source

A source may be laid out in any way: between two lexemes stands a gap of white space and
comments, and which one does not matter.  A piece of text that is read as one lexeme where a gap
or the end follows it is read so in every layout.

Main results:

- Theorem `Cursor.items_gap`: a gap holds no items.
- Theorem `LaidOut.exists_tokens`: the items of pieces that are laid out are what the pieces are
  read as, one by one.
-/

namespace MiniScheme

open CharClass

/-! ## Gaps -/

/-- The texts that separate lexemes: white space, and comments with the newline that ends
each. -/
inductive IsGap : List Char → Prop
  | nil : IsGap []
  | space {c : Char} {text : List Char} (hc : isSpace c = true) (htext : IsGap text) :
    IsGap (c :: text)
  | comment {body text : List Char} (hbody : '\n' ∉ body) (htext : IsGap text) :
    IsGap (';' :: (body ++ '\n' :: text))

/-- A comment goes up to its newline. -/
theorem leadingGap_comment {body : List Char} (hbody : '\n' ∉ body) (text : List Char) :
    leadingGap true (body ++ '\n' :: text) = body ++ '\n' :: leadingGap false text := by
  induction body with
  | nil => simp [leadingGap]
  | cons c body ih =>
    have hc : (c != '\n') = true := bne_iff_ne.2 (List.ne_of_not_mem_cons hbody).symm
    have hrest := ih (List.not_mem_of_not_mem_cons hbody)
    rw [List.cons_append, leadingGap, if_pos rfl, hc, hrest, List.cons_append]

/-- A gap goes on where another one follows it. -/
theorem IsGap.leadingGap_append {gap : List Char} (h : IsGap gap) (text : List Char) :
    leadingGap false (gap ++ text) = gap ++ leadingGap false text := by
  induction h with
  | nil => rfl
  | @space c gap hc _ ih =>
    have hsemicolon : c ≠ ';' := by
      rintro rfl
      cases hc
    rw [List.cons_append, leadingGap, if_neg Bool.false_ne_true, if_neg hsemicolon, if_pos hc, ih,
      List.cons_append]
  | @comment body gap hbody _ ih =>
    have htext : ';' :: (body ++ '\n' :: gap) ++ text = ';' :: (body ++ '\n' :: (gap ++ text)) := by
      simp
    rw [htext, leadingGap, if_neg Bool.false_ne_true, if_pos rfl, leadingGap_comment hbody, ih]
    simp

/-- A gap holds no items. -/
theorem Cursor.items_gap {gap : List Char} (h : IsGap gap) (text : List Char)
    (position : Position) :
    items ⟨gap ++ text, position⟩ = items ⟨text, position.advance gap⟩ := by
  apply items_eq_of_pastGap_eq
  simp [pastGap, past, h.leadingGap_append]

/-- What a gap begins with is no part of a word. -/
theorem IsGap.stops {gap : List Char} (h : IsGap gap) (hne : gap ≠ []) (text : List Char) :
    Stops isSubsequent (gap ++ text) := by
  cases h with
  | nil => exact absurd rfl hne
  | space hc _ => exact stops_cons.2 (isSubsequent_of_isSpace hc)
  | comment => exact stops_cons.2 (by decide)

/-! ## Pieces -/

/-- A piece of text is read as a token wherever a gap or the end follows it. -/
def Reads (piece : List Char) (kind : TokenKind) (constant : Option Constant) : Prop :=
  ∃ c text, piece = c :: text ∧ c ≠ ';' ∧ isSpace c = false ∧
    ∀ rest, Stops isSubsequent rest →
      Lexeme.read c (text ++ rest) = ⟨c :: text, .token kind constant⟩

/-- A piece is read as one token only. -/
theorem Reads.unique {piece : List Char} {kind kind' : TokenKind}
    {constant constant' : Option Constant} (h : Reads piece kind constant)
    (h' : Reads piece kind' constant') : kind = kind' ∧ constant = constant' := by
  rcases h with ⟨c, text, rfl, -, -, hread⟩
  rcases h' with ⟨c', text', heq, -, -, hread'⟩
  cases heq
  have hreading := (hread [] (stops_nil _)).symm.trans (hread' [] (stops_nil _))
  simpa using hreading

/-- A piece that nothing goes on with has its token in front of the items of what follows. -/
theorem Reads.items_append {piece : List Char} {kind : TokenKind} {constant : Option Constant}
    (h : Reads piece kind constant) {rest : List Char} (hrest : Stops isSubsequent rest)
    (position : Position) :
    Cursor.items ⟨piece ++ rest, position⟩ =
      .ok ⟨kind, String.ofList piece, constant, position⟩ ::
        Cursor.items ⟨rest, position.advance piece⟩ := by
  obtain ⟨c, text, rfl, hcomment, hspace, hread⟩ := h
  exact Cursor.items_of_read hcomment hspace (hread rest hrest) position

/-- An opening parenthesis is read as one. -/
theorem reads_open : Reads ['('] .openParen none :=
  ⟨'(', [], rfl, by decide, by decide, fun _ _ => rfl⟩

/-- A closing parenthesis is read as one. -/
theorem reads_close : Reads [')'] .closeParen none :=
  ⟨')', [], rfl, by decide, by decide, fun _ _ => rfl⟩

/-- A quote mark is read as one. -/
theorem reads_mark : Reads ['\''] .quoteMark none :=
  ⟨'\'', [], rfl, by decide, by decide, fun _ _ => rfl⟩

/-- The longest word is read, so that a reserved word is not the beginning of a longer one. -/
theorem reads_keyword (keyword : Keyword) : Reads keyword.spelling (.keyword keyword) none := by
  have hshape : ∃ c text, keyword.spelling = c :: text ∧ isInitial c = true ∧
      ∀ d ∈ text, isSubsequent d = true := by
    cases keyword <;> exact ⟨_, _, rfl, by decide, List.all_iff_forall_prop.1 (by decide)⟩
  rcases hshape with ⟨c, text, hspelling, hc, htext⟩
  rcases not_gap_of_isSubsequent (isSubsequent_of_isInitial hc) with ⟨hcomment, hspace⟩
  refine ⟨c, text, hspelling, hcomment, hspace, fun rest hrest => ?_⟩
  have hkeyword := keyword.ofSpelling?_spelling
  rw [hspelling] at hkeyword
  rw [Lexeme.read_of_isInitial hc, takeWhile_append_stops htext hrest, Lexeme.word, hkeyword]

/-- The text of an identifier is read as one. -/
theorem reads_identifier {text : List Char} (h : isIdentifierText text = true) :
    Reads text .identifier none := by
  cases text with
  | nil => cases h
  | cons c text =>
    obtain ⟨hcomment, hspace⟩ := not_gap_of_isSubsequent (isSubsequent_of_mem h List.mem_cons_self)
    exact ⟨c, text, rfl, hcomment, hspace, fun rest hrest => Lexeme.read_identifier h hrest⟩

/-- A number is read to where no digit follows. -/
theorem Lexeme.read_of_isDigit {c : Char} (h : isDigit c = true) (text : List Char) :
    read c text = number (c :: text.takeWhile isDigit) := by
  have hne : ∀ d, isDigit d = false → c ≠ d := by
    rintro d hd rfl
    simp [hd] at h
  unfold read
  rw [if_neg (hne '(' (by decide)), if_neg (hne ')' (by decide)), if_neg (hne '\'' (by decide)),
    if_neg (hne '#' (by decide)), if_neg (hne '"' (by decide)), if_pos h]

/-- Digits in range are read as the number that they denote. -/
theorem reads_number {digits : List Char} (hne : digits ≠ [])
    (hdigits : ∀ c ∈ digits, isDigit c = true) (hrange : decimalValue digits < 0x8000000000000000) :
    Reads digits .number (some (.number (Int64.ofNat (decimalValue digits)))) := by
  cases digits with
  | nil => exact absurd rfl hne
  | cons c text =>
    rcases List.forall_mem_cons.1 hdigits with ⟨hc, htext⟩
    rcases not_gap_of_isSubsequent (isSubsequent_of_isDigit hc) with ⟨hcomment, hspace⟩
    refine ⟨c, text, rfl, hcomment, hspace, fun rest hrest => ?_⟩
    have hstop : Stops isDigit rest := hrest.mono fun _ => isSubsequent_of_isDigit
    rw [Lexeme.read_of_isDigit hc, takeWhile_append_stops htext hstop, Lexeme.number,
      if_pos hrange]

/-- The text of a boolean is read as it. -/
theorem reads_boolean (b : Bool) :
    Reads (if b then "#t" else "#f").toList .boolean (some (.boolean b)) := by
  cases b <;> exact ⟨'#', _, rfl, by decide, by decide, fun _ _ => rfl⟩

/-- A character behind a sharp sign and a backslash is read as it. -/
theorem reads_character (c : Char) : Reads ['#', '\\', c] .character (some (.character c)) :=
  ⟨'#', ['\\', c], rfl, by decide, by decide, fun _ _ => rfl⟩

/-- What stands between the quotes is read as the text that it was made from. -/
theorem reads_string (text : List Char) :
    Reads ('"' :: (StringBody.encode text ++ ['"'])) .string
      (some (.string (String.ofList text))) := by
  refine ⟨'"', _, rfl, by decide, by decide, fun rest _ => ?_⟩
  have hread : Lexeme.read '"' (StringBody.encode text ++ ['"'] ++ rest) =
      Lexeme.doubleQuote (StringBody.encode text ++ '"' :: rest) := by
    simp [Lexeme.read]
  rw [hread]
  simp [Lexeme.doubleQuote]

/-! ## Layouts -/

/-- A text consists of pieces, with a gap after each, which is empty only after the last. -/
inductive LaidOut : List (List Char) → List Char → Prop
  | nil : LaidOut [] []
  | cons {piece gap text : List Char} {pieces : List (List Char)} (hgap : IsGap gap)
    (hne : pieces ≠ [] → gap ≠ []) (htext : LaidOut pieces text) :
    LaidOut (piece :: pieces) (piece ++ (gap ++ text))

/-- A token is what a piece is read as. -/
structure Token.IsReadFrom (token : Token) (piece : List Char) : Prop where
  reads : Reads piece token.kind token.constant
  text_eq : token.text = String.ofList piece

/-- The items of pieces that are laid out are what the pieces are read as, one by one. -/
theorem LaidOut.exists_tokens {pieces : List (List Char)} {text : List Char}
    (h : LaidOut pieces text)
    (hreads : ∀ piece ∈ pieces, ∃ kind constant, Reads piece kind constant)
    (position : Position) :
    ∃ tokens : List Token, Cursor.items ⟨text, position⟩ = tokens.map .ok ∧
      List.Forall₂ Token.IsReadFrom tokens pieces := by
  induction h generalizing position with
  | nil => exact ⟨[], Cursor.items_of_rest_nil rfl, .nil⟩
  | @cons piece gap text pieces hgap hne htext ih =>
    rcases List.forall_mem_cons.1 hreads with ⟨⟨kind, constant, hpiece⟩, hpieces⟩
    have hstop : Stops isSubsequent (gap ++ text) := by
      by_cases hempty : gap = []
      · have hlast : pieces = [] := by
          by_contra hmore
          exact hne hmore hempty
        subst hlast hempty
        cases htext
        exact stops_nil _
      · exact hgap.stops hempty text
    rcases ih hpieces ((position.advance piece).advance gap) with ⟨tokens, hitems, htokens⟩
    refine ⟨⟨kind, String.ofList piece, constant, position⟩ :: tokens, ?_,
      .cons ⟨hpiece, rfl⟩ htokens⟩
    rw [hpiece.items_append hstop, Cursor.items_gap hgap, hitems]
    rfl

end MiniScheme

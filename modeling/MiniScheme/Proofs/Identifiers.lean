import Mathlib.Data.Bool.AllAny
import MiniScheme.Number
import MiniScheme.Proofs.CursorItems

/-!
# Identifiers

An identifier is three dots, or a word that is no reserved word.  A word begins with an initial
character and goes on as long as subsequent characters do, so that one character tells it from
what follows it.

Main results:

- Theorem `Lexeme.read_identifier`: an identifier is read as one where no subsequent character
  follows it.
- Theorem `isIdentifier_iff`: the sources that are one identifier token are the identifiers.
-/

namespace MiniScheme

/-! ## Character classes -/

namespace CharClass

/-- The digits are ten characters in a row. -/
theorem isDigit_iff {c : Char} : isDigit c = true ↔ 48 ≤ c.toNat ∧ c.toNat ≤ 57 := by
  simp only [isDigit, Bool.and_eq_true, decide_eq_true_eq, Char.le_def, UInt32.le_iff_toNat_le]
  rfl

/-- The letters are two rows of characters. -/
theorem isLetter_iff {c : Char} :
    isLetter c = true ↔ (65 ≤ c.toNat ∧ c.toNat ≤ 90) ∨ (97 ≤ c.toNat ∧ c.toNat ≤ 122) := by
  simp only [isLetter, Bool.or_eq_true, Bool.and_eq_true, decide_eq_true_eq, Char.le_def,
    UInt32.le_iff_toNat_le]
  rfl

/-- A digit is no initial character. -/
theorem isInitial_of_isDigit {c : Char} (h : isDigit c = true) : isInitial c = false := by
  have hrange := isDigit_iff.1 h
  have hletter : isLetter c = false := by
    rw [← Bool.not_eq_true, isLetter_iff]
    omega
  have hlisted : "+-*/?<>=%_".toList.contains c = false := by
    rw [← Bool.not_eq_true, List.contains_iff_mem]
    intro hmem
    have hdigit : ∀ d ∈ "+-*/?<>=%_".toList, isDigit d = false :=
      List.all_iff_forall_prop.1 (by decide)
    simp [hdigit c hmem] at h
  simp only [isInitial, hletter, hlisted, Bool.or_false]

/-- Whatever may begin an identifier may go on with it. -/
theorem isSubsequent_of_isInitial {c : Char} (h : isInitial c = true) : isSubsequent c = true := by
  simp [isSubsequent, h]

/-- White space is no part of a word. -/
theorem isSubsequent_of_isSpace {c : Char} (h : isSpace c = true) : isSubsequent c = false := by
  have hspaces : ∀ d ∈ " \t\r\n\x0c".toList, isSubsequent d = false :=
    List.all_iff_forall_prop.1 (by decide)
  exact hspaces c (List.contains_iff_mem.1 h)

/-- Numbers are written with digits. -/
theorem isDigit_of_mem_toDigits {n : Nat} {c : Char} (h : c ∈ Nat.toDigits 10 n) :
    isDigit c = true := by
  have hdigit := Nat.isDigit_of_mem_toDigits (by decide) (by decide) h
  simpa [isDigit, Char.isDigit, Char.le_def] using hdigit

/-- A digit may go on with an identifier. -/
theorem isSubsequent_of_isDigit {c : Char} (h : isDigit c = true) : isSubsequent c = true := by
  simp [isSubsequent, h]

end CharClass

open CharClass

/-- The decimal digits of a number have its value. -/
theorem decimalValue_toDigits (n : Nat) : decimalValue (Nat.toDigits 10 n) = n :=
  Nat.ofDigitChars_ten_toDigits

/-- The digits of a number that is not negative. -/
theorem toList_numberText {n : Int64} (h : 0 ≤ n.toInt) :
    (Number.text n).toList = Nat.toDigits 10 n.toInt.toNat := by
  have htext : Number.text n = n.toInt.toNat.repr := by
    show n.toInt.repr = _
    rw [Int.repr_eq_if, if_pos h]
  rw [htext, Nat.repr_eq_ofList_toDigits, String.toList_ofList]

/-! ## The end of a row of characters -/

/-- Whether a row of characters of a class ends before a text. -/
def Stops (p : Char → Bool) (text : List Char) : Prop :=
  ∀ c ∈ text.head?, p c = false

/-- Any class of characters stops where nothing is left. -/
@[simp]
theorem stops_nil (p : Char → Bool) : Stops p [] := by
  simp [Stops]

/-- A class of characters stops at one that is not in it. -/
@[simp]
theorem stops_cons {p : Char → Bool} {c : Char} {text : List Char} :
    Stops p (c :: text) ↔ p c = false := by
  simp [Stops]

/-- Where a wider class stops, a narrower one does. -/
theorem Stops.mono {p q : Char → Bool} {text : List Char} (h : Stops p text)
    (hle : ∀ c, q c = true → p c = true) : Stops q text := by
  intro c hc
  rw [← Bool.not_eq_true]
  intro hq
  exact Bool.eq_false_iff.1 (h c hc) (hle c hq)

/-- Taking characters of a class takes a text of them up to where the class stops. -/
theorem takeWhile_append_stops {p : Char → Bool} {text rest : List Char}
    (htext : ∀ c ∈ text, p c = true) (hrest : Stops p rest) :
    (text ++ rest).takeWhile p = text := by
  have hstop : rest.takeWhile p = [] := by
    cases rest with
    | nil => rfl
    | cons c rest => exact List.takeWhile_cons_of_neg (by simpa using hrest)
  rw [List.takeWhile_append_of_pos htext, hstop, List.append_nil]

/-- Dropping characters of a class drops a text of them up to where the class stops. -/
theorem dropWhile_append_stops {p : Char → Bool} {text rest : List Char}
    (htext : ∀ c ∈ text, p c = true) (hrest : Stops p rest) :
    (text ++ rest).dropWhile p = rest := by
  rw [List.dropWhile_append_of_pos htext]
  cases rest with
  | nil => rfl
  | cons c rest => exact List.dropWhile_cons_of_neg (by simpa using hrest)

/-! ## The shape of identifiers -/

/-- Whether a text is an initial character and subsequent characters, and no reserved word. -/
def isPlainIdentifier : List Char → Bool
  | [] => false
  | c :: text =>
    isInitial c && text.all isSubsequent && (Keyword.ofSpelling? (c :: text)).isNone

/-- Whether a text has the shape of an identifier. -/
def isIdentifierText (text : List Char) : Bool :=
  text = ['.', '.', '.'] || isPlainIdentifier text

/-- A plain identifier begins as one, goes on as one, and is not reserved. -/
theorem isPlainIdentifier_cons {c : Char} {text : List Char} :
    isPlainIdentifier (c :: text) = true ↔
      isInitial c = true ∧ (∀ d ∈ text, isSubsequent d = true) ∧
        Keyword.ofSpelling? (c :: text) = none := by
  simp [isPlainIdentifier, and_assoc]

/-- An identifier holds subsequent characters only. -/
theorem isSubsequent_of_mem {text : List Char} (h : isIdentifierText text = true) {c : Char}
    (hc : c ∈ text) : isSubsequent c = true := by
  rcases Bool.or_eq_true_iff.1 h with hdots | hplain
  · have hall : ∀ d ∈ ['.', '.', '.'], isSubsequent d = true :=
      List.all_iff_forall_prop.1 (by decide)
    exact hall c (of_decide_eq_true hdots ▸ hc)
  · cases text with
    | nil => cases hplain
    | cons d text =>
      have hshape := isPlainIdentifier_cons.1 hplain
      rcases List.mem_cons.1 hc with rfl | hc
      · exact isSubsequent_of_isInitial hshape.1
      · exact hshape.2.1 c hc

namespace Lexeme

/-- A word is read to where no character of a word follows. -/
theorem read_of_isInitial {c : Char} (h : isInitial c = true) (text : List Char) :
    read c text = word (c :: text.takeWhile isSubsequent) := by
  have hne : ∀ d, isInitial d = false → c ≠ d := by
    rintro d hd rfl
    simp [hd] at h
  have hdigit : isDigit c = false := by
    rw [← Bool.not_eq_true]
    intro hc
    simp [isInitial_of_isDigit hc] at h
  unfold read
  rw [if_neg (hne '(' (by decide)), if_neg (hne ')' (by decide)), if_neg (hne '\'' (by decide)),
    if_neg (hne '#' (by decide)), if_neg (hne '"' (by decide)), if_neg (by simp [hdigit]),
    if_pos h]

/-- A plain identifier is read as an identifier. -/
theorem word_of_isPlainIdentifier {text : List Char} (h : isPlainIdentifier text = true) :
    word text = ⟨text, .token .identifier none⟩ := by
  cases text with
  | nil => cases h
  | cons c text => simp [word, (isPlainIdentifier_cons.1 h).2.2]

/-- An identifier is read as one where no subsequent character follows it. -/
theorem read_identifier {c : Char} {text rest : List Char}
    (h : isIdentifierText (c :: text) = true) (hrest : Stops isSubsequent rest) :
    read c (text ++ rest) = ⟨c :: text, .token .identifier none⟩ := by
  have htext : ∀ d ∈ text, isSubsequent d = true :=
    fun d hd => isSubsequent_of_mem h (List.mem_cons_of_mem c hd)
  have htake := takeWhile_append_stops htext hrest
  rcases Bool.or_eq_true_iff.1 h with hdots | hplain
  · have hdots := of_decide_eq_true hdots
    obtain ⟨rfl, htail⟩ := List.cons.inj hdots
    have hread : read '.' (text ++ rest) =
        dotted ('.' :: (text ++ rest).takeWhile isSubsequent) := rfl
    rw [hread, htake, htail]
    rfl
  · rw [read_of_isInitial (isPlainIdentifier_cons.1 hplain).1, htake,
      word_of_isPlainIdentifier hplain]

/-- What is read as an identifier has the shape of one, and no constant. -/
theorem isIdentifierText_of_reading {c : Char} {text : List Char} {constant : Option Constant}
    (h : (read c text).reading = .token .identifier constant) :
    isIdentifierText (read c text).text = true ∧ constant = none := by
  revert h
  fun_cases read c text with
  | case4 =>
    fun_cases sharp text <;> simp
  | case5 =>
    rcases doubleQuote_cases text with ⟨rest, -, h⟩ | h <;> simp [h]
  | case6 =>
    simp only [number]
    split <;> simp
  | case7 _ _ _ _ _ _ hc =>
    intro h
    have hall : (text.takeWhile isSubsequent).all isSubsequent = true :=
      List.all_takeWhile
    simp only [word] at h ⊢
    split at h
    next => simp at h
    next hkeyword => simp_all [isIdentifierText, isPlainIdentifier]
  | case8 =>
    simp only [dotted]
    split <;> simp_all [isIdentifierText]
  | _ => simp

end Lexeme

/-! ## Sources that are one identifier -/

/-- A gap is empty before a character that is neither white space nor begins a comment. -/
theorem Cursor.pastGap_cons {c : Char} (hcomment : c ≠ ';') (hspace : isSpace c = false)
    (text : List Char) (position : Position) :
    pastGap ⟨c :: text, position⟩ = ⟨c :: text, position⟩ := by
  simp [pastGap, leadingGap, hcomment, hspace, past]

/-- Where a lexeme is read that fills a text, its item comes first and the items behind the text
follow. -/
theorem Cursor.items_of_read {c : Char} {text rest : List Char} {reading : LexemeReading}
    (hcomment : c ≠ ';') (hspace : isSpace c = false)
    (hread : Lexeme.read c (text ++ rest) = ⟨c :: text, reading⟩) (position : Position) :
    items ⟨c :: text ++ rest, position⟩ =
      (Lexeme.mk (c :: text) reading).item position ::
        items ⟨rest, position.advance (c :: text)⟩ := by
  have hgap := pastGap_cons hcomment hspace (text ++ rest) position
  rw [List.cons_append, items_of_pastGap_cons (by rw [hgap]), hgap, hread]
  simp [past]

/-- A word or a row of digits begins neither a comment nor with white space. -/
theorem CharClass.not_gap_of_isSubsequent {c : Char} (h : isSubsequent c = true) :
    c ≠ ';' ∧ isSpace c = false := by
  constructor
  · rintro rfl
    revert h
    decide
  · rw [← Bool.not_eq_true]
    intro hspace
    simp [isSubsequent_of_isSpace hspace] at h

/-- A name that the scanner reads as one identifier token and no more. -/
def IsIdentifier (name : String) : Prop :=
  (Cursor.ofSource name).items = [.ok ⟨.identifier, name, none, .start⟩]

/-- The sources that are one identifier token are the identifiers. -/
theorem isIdentifier_iff {name : String} :
    IsIdentifier name ↔ isIdentifierText name.toList = true := by
  unfold IsIdentifier
  constructor
  · intro h
    cases hrest : (Cursor.ofSource name).pastGap.rest with
    | nil => simp [Cursor.items_of_pastGap_nil hrest] at h
    | cons c text =>
      rw [Cursor.items_of_pastGap_cons hrest] at h
      have hitem := (List.cons.inj h).1
      simp only [Lexeme.item] at hitem
      split at hitem
      next kind constant hreading =>
        simp only [Except.ok.injEq, Token.mk.injEq] at hitem
        rw [hitem.1] at hreading
        rw [← hitem.2.1, String.toList_ofList]
        exact (Lexeme.isIdentifierText_of_reading hreading).1
      next => cases hitem
  · intro h
    cases hname : name.toList with
    | nil => simp [hname, isIdentifierText, isPlainIdentifier] at h
    | cons c text =>
      have hgap := not_gap_of_isSubsequent (isSubsequent_of_mem (hname ▸ h) List.mem_cons_self)
      have hread := Lexeme.read_identifier (hname ▸ h) (stops_nil _)
      have hitems := Cursor.items_of_read hgap.1 hgap.2 hread .start
      have hend : Cursor.items ⟨[], Position.start.advance (c :: text)⟩ = [] :=
        Cursor.items_of_rest_nil rfl
      rw [List.append_nil, hend, ← hname] at hitems
      rw [Cursor.ofSource, hitems, Lexeme.item, String.ofList_toList]

end MiniScheme

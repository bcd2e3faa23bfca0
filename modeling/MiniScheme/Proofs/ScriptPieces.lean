import Mathlib.Data.List.Forall2
import MiniScheme.Proofs.ScriptNames
import MiniScheme.Script.Basic

/-!
# The pieces of a script

A script is cut into words, string literals and marks, with blanks between them.  A word ends
where the characters of names do, and a string literal at the quote that is in no pair, so that
nothing in a literal or a name is taken for a mark.

Main results:

- Theorem `Literal.leading_encode`: a literal ends at its closing quote.
- Theorem `Term.cut_text`: the pieces of a term as it is written are those of its parts and the
  marks between them.
- Theorem `cut_lines`: the pieces of a script are those of its statements.
-/

namespace MiniScheme.Script

open Name (isNameChar)

/-! ## Cutting a text -/

/-- A piece of a script. -/
inductive Piece
  | word (text : List Char)
  | string (text : String)
  | mark (c : Char)
deriving DecidableEq

/-- The pieces of a text. -/
def cut : List Char → List Piece
  | [] => []
  | c :: text =>
    if c = '"' then
      .string (String.ofList (Literal.decode (StringBody.leading text))) ::
        cut (text.drop ((StringBody.leading text).length + 1))
    else if isNameChar c then
      .word (c :: text.takeWhile isNameChar) :: cut (text.dropWhile isNameChar)
    else if c = ' ' || c = '\n' then cut text
    else .mark c :: cut text
termination_by text => text.length
decreasing_by
  · simp only [List.length_drop, List.length_cons]
    omega
  · exact Nat.lt_succ_of_le (List.dropWhile_suffix isNameChar).length_le
  all_goals exact Nat.lt_succ_self _

/-- There are no pieces in an empty text. -/
@[simp]
theorem cut_nil : cut [] = [] := by
  rw [cut]

/-- A space is no piece. -/
@[simp]
theorem cut_space (text : List Char) : cut (' ' :: text) = cut text := by
  rw [cut, if_neg (by decide), if_neg (by decide), if_pos (by decide)]

/-- A newline is no piece. -/
@[simp]
theorem cut_newline (text : List Char) : cut ('\n' :: text) = cut text := by
  rw [cut, if_neg (by decide), if_neg (by decide), if_pos (by decide)]

/-- The characters that are pieces by themselves. -/
def isMark (c : Char) : Bool :=
  "(),?:\x7b\x7d;=".toList.contains c

/-- A mark is a piece by itself. -/
theorem cut_mark {c : Char} (h : isMark c = true) (text : List Char) :
    cut (c :: text) = .mark c :: cut text := by
  have hmarks : ∀ d ∈ "(),?:\x7b\x7d;=".toList,
      d ≠ '"' ∧ ¬ isNameChar d = true ∧ ¬ (d = ' ' || d = '\n') = true :=
    List.all_iff_forall_prop.1 (by decide)
  obtain ⟨hquote, hname, hblank⟩ := hmarks c (List.contains_iff_mem.1 h)
  rw [cut, if_neg hquote, if_neg hname, if_neg hblank]

/-- A space ends a word. -/
theorem stops_space (text : List Char) : Stops isNameChar (' ' :: text) :=
  stops_cons.2 (by decide)

/-- A mark ends a word. -/
theorem stops_mark {c : Char} (h : isMark c = true) (text : List Char) :
    Stops isNameChar (c :: text) := by
  have hmarks : ∀ d ∈ "(),?:\x7b\x7d;=".toList, isNameChar d = false :=
    List.all_iff_forall_prop.1 (by decide)
  exact stops_cons.2 (hmarks c (List.contains_iff_mem.1 h))

/-- A word is cut off where no character of names follows it. -/
theorem cut_word {word rest : List Char} (hne : word ≠ [])
    (hword : ∀ c ∈ word, isNameChar c = true) (hrest : Stops isNameChar rest) :
    cut (word ++ rest) = .word word :: cut rest := by
  cases word with
  | nil => exact absurd rfl hne
  | cons c word =>
    obtain ⟨hc, hword⟩ := List.forall_mem_cons.1 hword
    have hquote : c ≠ '"' := by
      rintro rfl
      revert hc
      decide
    rw [List.cons_append, cut, if_neg hquote, if_pos hc, takeWhile_append_stops hword hrest,
      dropWhile_append_stops hword hrest]

/-! ## String literals -/

namespace Literal

/-- What stands between the quotes for a text ends at the closing quote. -/
theorem leading_encode (text rest : List Char) :
    StringBody.leading (encode text ++ '"' :: rest) = encode text := by
  induction text with
  | nil => simp [encode, StringBody.leading, StringBody.isSpecial]
  | cons c text ih =>
    cases h : escape? c with
    | some escaped => simp [encode, h, StringBody.leading, ih]
    | none =>
      have hbackslash : c ≠ '\\' := by
        rintro rfl
        cases h
      have hquote : c ≠ '"' := by
        rintro rfl
        cases h
      simp [encode, h, StringBody.leading, StringBody.isSpecial, hbackslash, hquote, ih]

end Literal

/-- A literal is cut off at its closing quote, and read as the text that it was made from. -/
theorem cut_literal (text : String) (rest : List Char) :
    cut ((Literal.ofText text).toList ++ rest) = .string text :: cut rest := by
  have htext : (Literal.ofText text).toList ++ rest =
      '"' :: (Literal.encode text.toList ++ '"' :: rest) := by
    simp [Literal.ofText]
  rw [htext, cut, if_pos rfl, Literal.leading_encode, Literal.decode_encode, String.ofList_toList,
    ← List.drop_drop, List.drop_left]
  rfl

/-! ## Terms -/

mutual

/-- Whether the names in a term are legal, and no number in it is negative. -/
def Term.Legal : Term → Prop
  | .name spelling => Name.IsLegal spelling
  | .number n => 0 ≤ n.toInt
  | .boolean _ => True
  | .string _ => True
  | .null => True
  | .conditional test whenTrue whenFalse => test.Legal ∧ whenTrue.Legal ∧ whenFalse.Legal
  | .function parameters steps result =>
    (∀ name ∈ parameters, Name.IsLegal name) ∧ Term.AllLegal steps ∧ result.Legal
  | .call head arguments => head.Legal ∧ Term.AllLegal arguments

/-- Whether so are the terms of a row. -/
def Term.AllLegal : List Term → Prop
  | [] => True
  | term :: terms => term.Legal ∧ Term.AllLegal terms

end

/-- The pieces of a row with a comma between any two. -/
def separated : List (List Piece) → List Piece
  | [] => []
  | [pieces] => pieces
  | pieces :: row => pieces ++ .mark ',' :: separated row

mutual

/-- The pieces of a term. -/
def Term.pieces : Term → List Piece
  | .name spelling => [.word spelling.toList]
  | .number n => [.word (Number.text n).toList]
  | .boolean b => [.word (if b then "true" else "false").toList]
  | .string text => [.string text]
  | .null => [.word "null".toList]
  | .conditional test whenTrue whenFalse =>
    .mark '(' :: (test.pieces ++ .mark '?' :: (whenTrue.pieces ++
      .mark ':' :: (whenFalse.pieces ++ [.mark ')'])))
  | .function parameters steps result =>
    .mark '(' :: .word "function".toList :: .mark '(' ::
      (separated (parameters.map fun name => [.word name.toList]) ++
        .mark ')' :: .mark '\x7b' :: (Term.stepPieces steps ++
          .word "return".toList :: (result.pieces ++ [.mark ';', .mark '\x7d', .mark ')'])))
  | .call head arguments =>
    head.pieces ++ .mark '(' :: (separated (Term.rowPieces arguments) ++ [.mark ')'])

/-- The pieces of each term of a row. -/
def Term.rowPieces : List Term → List (List Piece)
  | [] => []
  | term :: terms => term.pieces :: Term.rowPieces terms

/-- The pieces of terms with a semicolon after each. -/
def Term.stepPieces : List Term → List Piece
  | [] => []
  | term :: terms => term.pieces ++ .mark ';' :: Term.stepPieces terms

end

/-- A text is cut into some pieces wherever no character of names follows it. -/
def CutAs (text : String) (pieces : List Piece) : Prop :=
  ∀ rest, Stops isNameChar rest → cut (text.toList ++ rest) = pieces ++ cut rest

/-- Characters of names in a row are cut as one word. -/
theorem CutAs.word {text : String} (hne : text.toList ≠ [])
    (h : text.toList.all isNameChar = true) : CutAs text [.word text.toList] :=
  fun _ hrest => cut_word hne (List.all_eq_true.1 h) hrest

/-- A legal name is cut as one word. -/
theorem CutAs.name {name : String} (h : Name.IsLegal name) : CutAs name [.word name.toList] := by
  obtain ⟨c, hc, -⟩ := h.begins
  apply CutAs.word _ (List.all_eq_true.2 h.holds)
  intro hnil
  simp [hnil] at hc

/-- A number without a sign is cut as one word. -/
theorem CutAs.number {n : Int64} (h : 0 ≤ n.toInt) :
    CutAs (Number.text n) [.word (Number.text n).toList] := by
  apply CutAs.word
  · rw [toList_numberText h]
    exact Nat.toDigits_ne_nil
  · rw [List.all_eq_true]
    intro c hc
    rw [toList_numberText h] at hc
    simp [Name.isNameChar, Name.isPlain, CharClass.isDigit_of_mem_toDigits hc]

/-- The pieces of a row of texts with commas between them are separated as the texts are. -/
theorem CutAs.intercalate {texts : List String} {row : List (List Piece)}
    (h : List.Forall₂ CutAs texts row) : CutAs (", ".intercalate texts) (separated row) := by
  induction h with
  | nil => exact fun rest _ => by simp [separated]
  | @cons text pieces texts row hfirst hfurther ih =>
    cases hfurther with
    | nil => simpa [separated] using hfirst
    | cons =>
      intro rest hrest
      have htail := ih rest hrest
      simp only [String.intercalate_cons_cons, String.toList_append, List.append_assoc, separated,
        String.reduceToList, List.cons_append, List.nil_append]
      rw [hfirst _ (stops_mark rfl _), cut_mark rfl, cut_space, htail]

mutual

/-- The pieces of a legal term as it is written. -/
theorem Term.cut_text : ∀ (term : Term), term.Legal → CutAs term.text term.pieces
  | .name spelling, h => CutAs.name h
  | .number n, h => CutAs.number h
  | .boolean true, _ => CutAs.word (by decide) (by decide)
  | .boolean false, _ => CutAs.word (by decide) (by decide)
  | .string text, _ => fun rest _ => cut_literal text rest
  | .null, _ => CutAs.word (by decide) (by decide)
  | .conditional test whenTrue whenFalse, h => by
    intro rest hrest
    obtain ⟨htest, htrue, hfalse⟩ := h
    simp only [Term.text, Term.pieces, String.toList_append, List.append_assoc,
      String.reduceToList, List.cons_append, List.nil_append]
    rw [cut_mark rfl, test.cut_text htest _ (stops_space _), cut_space, cut_mark rfl,
      cut_space, whenTrue.cut_text htrue _ (stops_space _), cut_space, cut_mark rfl, cut_space,
      whenFalse.cut_text hfalse _ (stops_mark rfl _), cut_mark rfl]
  | .function parameters steps result, h => by
    intro rest hrest
    obtain ⟨hparameters, hsteps, hresult⟩ := h
    have hfunction : CutAs "function" [.word "function".toList] :=
      CutAs.word (by decide) (by decide)
    have hreturn : CutAs "return" [.word "return".toList] :=
      CutAs.word (by decide) (by decide)
    have hnames : CutAs (", ".intercalate parameters)
        (separated (parameters.map fun name => [.word name.toList])) := by
      apply CutAs.intercalate
      rw [List.forall₂_map_right_iff, List.forall₂_same]
      exact fun name hname => CutAs.name (hparameters name hname)
    have htext : (Term.function parameters steps result).text.toList ++ rest =
        '(' :: ("function".toList ++ '(' :: ((", ".intercalate parameters).toList ++
          ')' :: ' ' :: '\x7b' :: ' ' ::
            ((String.join ((Term.texts steps).map (· ++ "; "))).toList ++
              ("return".toList ++ ' ' :: (result.text.toList ++
                ';' :: ' ' :: '\x7d' :: ')' :: rest))))) := by
      simp [Term.text]
    rw [htext, cut_mark rfl, hfunction _ (stops_mark rfl _), cut_mark rfl,
      hnames _ (stops_mark rfl _), cut_mark rfl, cut_space, cut_mark rfl, cut_space,
      Term.cut_steps steps hsteps, hreturn _ (stops_space _), cut_space,
      result.cut_text hresult _ (stops_mark rfl _), cut_mark rfl, cut_space, cut_mark rfl,
      cut_mark rfl]
    simp [Term.pieces]
  | .call head arguments, h => by
    intro rest hrest
    have harguments := CutAs.intercalate (Term.cut_texts arguments h.2)
    simp only [Term.text, Term.pieces, String.toList_append, List.append_assoc,
      String.reduceToList, List.cons_append, List.nil_append]
    rw [head.cut_text h.1 _ (stops_mark rfl _), cut_mark rfl, harguments _ (stops_mark rfl _),
      cut_mark rfl]

/-- The texts of terms are cut as the pieces of each. -/
theorem Term.cut_texts : ∀ (terms : List Term), Term.AllLegal terms →
    List.Forall₂ CutAs (Term.texts terms) (Term.rowPieces terms)
  | [], _ => .nil
  | term :: terms, h => .cons (term.cut_text h.1) (Term.cut_texts terms h.2)

/-- The steps of a function are cut as their pieces, with a semicolon behind each. -/
theorem Term.cut_steps : ∀ (terms : List Term), Term.AllLegal terms → ∀ rest,
    cut ((String.join ((Term.texts terms).map (· ++ "; "))).toList ++ rest) =
      Term.stepPieces terms ++ cut rest
  | [], _, rest => by simp [Term.texts, Term.stepPieces]
  | term :: terms, h, rest => by
    simp only [Term.texts, Term.stepPieces, List.map_cons, String.join_cons,
      String.toList_append, List.append_assoc, String.reduceToList, List.cons_append,
      List.nil_append]
    rw [term.cut_text h.1 _ (stops_mark rfl _), cut_mark rfl, cut_space,
      Term.cut_steps terms h.2 rest]

end

/-! ## Scripts -/

/-- Whether the names in a statement are legal, and no number in it is negative. -/
def Statement.Legal : Statement → Prop
  | declare name value => Name.IsLegal name ∧ value.Legal
  | assign name value => Name.IsLegal name ∧ value.Legal
  | evaluate term => term.Legal

/-- The pieces of a statement. -/
def Statement.pieces : Statement → List Piece
  | declare name value =>
    .word "let".toList :: .word name.toList :: .mark '=' :: (value.pieces ++ [.mark ';'])
  | assign name value => .word name.toList :: .mark '=' :: (value.pieces ++ [.mark ';'])
  | evaluate term => term.pieces ++ [.mark ';']

/-- The pieces of a legal statement as it is written. -/
theorem Statement.cut_text (statement : Statement) (h : statement.Legal) (rest : List Char) :
    cut (statement.text.toList ++ rest) = statement.pieces ++ cut rest := by
  cases statement with
  | declare name value =>
    have hlet : CutAs "let" [.word "let".toList] :=
      CutAs.word (by decide) (by decide)
    have htext : (declare name value).text.toList ++ rest =
        "let".toList ++ ' ' :: (name.toList ++ ' ' :: '=' :: ' ' ::
          (value.text.toList ++ ';' :: rest)) := by
      simp [Statement.text]
    rw [htext, hlet _ (stops_space _), cut_space, CutAs.name h.1 _ (stops_space _), cut_space,
      cut_mark rfl, cut_space, value.cut_text h.2 _ (stops_mark rfl _), cut_mark rfl]
    simp [pieces]
  | assign name value =>
    have htext : (assign name value).text.toList ++ rest =
        name.toList ++ ' ' :: '=' :: ' ' :: (value.text.toList ++ ';' :: rest) := by
      simp [Statement.text]
    rw [htext, CutAs.name h.1 _ (stops_space _), cut_space, cut_mark rfl, cut_space,
      value.cut_text h.2 _ (stops_mark rfl _), cut_mark rfl]
    simp [pieces]
  | evaluate term =>
    have htext : (evaluate term).text.toList ++ rest = term.text.toList ++ ';' :: rest := by
      simp [Statement.text]
    rw [htext, term.cut_text h _ (stops_mark rfl _), cut_mark rfl]
    simp [pieces]

/-- The pieces of a script are those of its statements. -/
theorem cut_lines (statements : List Statement) (h : ∀ statement ∈ statements, statement.Legal) :
    cut (lines (statements.map Statement.text)).toList = statements.flatMap Statement.pieces := by
  induction statements with
  | nil => simp [lines]
  | cons statement statements ih =>
    obtain ⟨hfirst, hfurther⟩ := List.forall_mem_cons.1 h
    have htext : (lines ((statement :: statements).map Statement.text)).toList =
        statement.text.toList ++ '\n' :: (lines (statements.map Statement.text)).toList := by
      simp [lines]
    rw [htext, statement.cut_text hfirst, cut_newline, ih hfurther, List.flatMap_cons]

end MiniScheme.Script

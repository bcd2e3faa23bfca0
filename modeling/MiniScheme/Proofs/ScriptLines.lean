import MiniScheme.Proofs.ScriptDetermination
import MiniScheme.Text.Lines

/-!
# The lines of a script

Whatever is compiled stays on one line, since names hold no line breaks and literals are written
without them, so that a script is split into the lines that it was made of.  What such a line does
to a name can be seen from its beginning: `let` and the name in front of an equals sign declare
it, and the name alone in front of one assigns to it.  The script of an expression does neither,
since no space follows the word that it begins with.

Main results:

- Theorem `Lines.ofText_lines`: a script is split into the lines that it was made of.
- Theorem `Term.unbroken_text`: the term of an expression is written on one line.
- Theorem `Term.unspaced_text`: no space follows the word that it begins with.
- Theorems `declares_declaration_iff` and `assigns_assignment_iff`: a line declares or assigns to
  the one name that it was made for.
-/

namespace MiniScheme

open Script
open Script.Name (isNameChar)

namespace Lines

/-! ## Texts on one line -/

/-- A text without line breaks. -/
def Unbroken (text : String) : Prop :=
  ∀ c ∈ text.toList, c ≠ '\n' ∧ c ≠ '\r'

instance (text : String) : Decidable (Unbroken text) :=
  List.decidableBAll _ text.toList

/-- A text is unbroken when both its parts are. -/
@[simp]
theorem unbroken_append {first second : String} :
    Unbroken (first ++ second) ↔ Unbroken first ∧ Unbroken second := by
  simp only [Unbroken, String.toList_append, List.forall_mem_append]

/-- Unbroken texts in a row are unbroken. -/
theorem unbroken_join {texts : List String} (h : ∀ text ∈ texts, Unbroken text) :
    Unbroken (String.join texts) := by
  induction texts with
  | nil => simp [Unbroken]
  | cons text texts ih =>
    obtain ⟨hfirst, hfurther⟩ := List.forall_mem_cons.1 h
    rw [String.join_cons, unbroken_append]
    exact ⟨hfirst, ih hfurther⟩

/-- Unbroken texts with an unbroken separator between them are unbroken. -/
theorem unbroken_intercalate {separator : String} {texts : List String}
    (hseparator : Unbroken separator) (h : ∀ text ∈ texts, Unbroken text) :
    Unbroken (separator.intercalate texts) := by
  induction texts with
  | nil => simp [Unbroken]
  | cons text texts ih =>
    obtain ⟨hfirst, hfurther⟩ := List.forall_mem_cons.1 h
    cases texts with
    | nil => simpa using hfirst
    | cons second texts =>
      rw [String.intercalate_cons_cons, unbroken_append, unbroken_append]
      exact ⟨⟨hfirst, hseparator⟩, ih hfurther⟩

/-- A line without a carriage return at its end is taken as it is. -/
theorem withoutReturn_of_not_mem {line : List Char} (h : '\r' ∉ line) :
    withoutReturn line = line := by
  rw [withoutReturn, if_neg]
  exact fun hlast => h (List.mem_of_getLast? hlast)

/-- The first line of a text ends at the first newline. -/
theorem split_append {line : List Char} (h : '\n' ∉ line) (begun rest : List Char) :
    split begun (line ++ '\n' :: rest) =
      withoutReturn (begun.reverse ++ line) :: split [] rest := by
  induction line generalizing begun with
  | nil => simp [split]
  | cons c line ih =>
    simp only [List.mem_cons, not_or] at h
    obtain ⟨hc, hline⟩ := h
    rw [List.cons_append, split, if_neg (Ne.symm hc), ih hline, List.reverse_cons,
      List.append_assoc, List.singleton_append]

/-- A script is split into the lines that it was made of. -/
theorem ofText_lines {texts : List String} (h : ∀ text ∈ texts, Unbroken text) :
    ofText (lines texts) = texts := by
  suffices hsplit : split [] (lines texts).toList = texts.map String.toList by
    rw [ofText, hsplit, List.map_map]
    simp [Function.comp_def]
  induction texts with
  | nil => rfl
  | cons text texts ih =>
    obtain ⟨hfirst, hfurther⟩ := List.forall_mem_cons.1 h
    have htext : (lines (text :: texts)).toList = text.toList ++ '\n' :: (lines texts).toList := by
      simp [lines]
    have hnewline : '\n' ∉ text.toList := fun hmem => (hfirst _ hmem).1 rfl
    have hreturn : '\r' ∉ text.toList := fun hmem => (hfirst _ hmem).2 rfl
    rw [htext, split_append hnewline, ih hfurther, List.reverse_nil, List.nil_append,
      withoutReturn_of_not_mem hreturn, List.map_cons]

end Lines

open Lines (Unbroken)

namespace Script

/-! ## Words -/

/-- A text of characters of names. -/
def IsWord (text : String) : Prop :=
  ∀ c ∈ text.toList, isNameChar c = true

instance (text : String) : Decidable (IsWord text) :=
  List.decidableBAll _ text.toList

/-- The name of an identifier is a word. -/
theorem isWord_ofIdentifier (identifier : String) : IsWord (Name.ofIdentifier identifier) := by
  intro c hc
  rcases Name.toList_ofIdentifier identifier with htext | htext <;> rw [htext] at hc
  · exact Name.isNameChar_of_mem_spelled hc
  · rcases List.mem_append.1 hc with hc | hc
    · exact Name.isNameChar_of_mem_spelled hc
    · rw [List.mem_singleton.1 hc]
      rfl

/-- A word holds no newline. -/
theorem IsWord.unbroken {text : String} (h : IsWord text) : Unbroken text := by
  intro c hc
  have hname := h c hc
  constructor <;> (rintro rfl; cases hname)

/-- The characters of a number are those of names, after a minus sign if it is negative. -/
theorem numberText_cases (n : Int64) :
    IsWord (Number.text n) ∨ ∃ digits, IsWord digits ∧ Number.text n = "-" ++ digits := by
  have hdigits : ∀ m : Nat, IsWord m.repr := by
    intro m c hc
    rw [Nat.repr_eq_ofList_toDigits, String.toList_ofList] at hc
    simp [isNameChar, Name.isPlain, CharClass.isDigit_of_mem_toDigits hc]
  have htext : Number.text n = n.toInt.repr := rfl
  rw [htext, Int.repr_eq_if]
  split
  next => exact .inl (hdigits _)
  next => exact .inr ⟨_, hdigits _, rfl⟩

/-! ## Terms on one line -/

/-- A literal is written without the line breaks of its text. -/
theorem Literal.unbroken_ofText (text : String) : Unbroken (Literal.ofText text) := by
  have hencode : ∀ chars, ∀ c ∈ Literal.encode chars, c ≠ '\n' ∧ c ≠ '\r' := by
    intro chars
    induction chars with
    | nil => nofun
    | cons d chars ih =>
      intro c hc
      cases hd : Literal.escape? d with
      | some escaped =>
        simp only [Literal.encode, hd, List.mem_cons] at hc
        rcases hc with rfl | rfl | hc
        · decide
        · unfold Literal.escape? at hd
          split at hd <;> first | (cases hd; decide) | cases hd
        · exact ih c hc
      | none =>
        simp only [Literal.encode, hd, List.mem_cons] at hc
        rcases hc with rfl | hc
        · constructor <;> (rintro rfl; cases hd)
        · exact ih c hc
  simp only [Literal.ofText, Lines.unbroken_append]
  refine ⟨⟨by decide, fun c hc => ?_⟩, by decide⟩
  rw [String.toList_ofList] at hc
  exact hencode _ c hc

/-- The text of an atom holds no newline. -/
theorem Term.unbroken_ofToken (token : Token) : Unbroken (Term.ofToken token).text := by
  unfold Term.ofToken
  split
  next => exact (isWord_ofIdentifier _).unbroken
  next =>
    split
    next constant _ =>
      cases constant with
      | number n =>
        rcases numberText_cases n with hword | ⟨digits, hword, htext⟩
        · exact hword.unbroken
        · show Unbroken (Number.text n)
          rw [htext, Lines.unbroken_append]
          exact ⟨by decide, hword.unbroken⟩
      | boolean b => cases b <;> decide
      | character c => exact Literal.unbroken_ofText _
      | string s => exact Literal.unbroken_ofText _
    next => decide

/-- The texts of terms are taken one by one. -/
theorem Term.texts_eq_map (terms : List Term) : Term.texts terms = terms.map Term.text := by
  induction terms with
  | nil => rfl
  | cons term terms ih => rw [Term.texts, ih, List.map_cons]

mutual

/-- The term of an expression is written on one line. -/
theorem Term.unbroken_text : ∀ (expression : Expression) {term : Term},
    Term.ofExpression expression = .ok term → Unbroken term.text
  | .literal token, _, h => by
    cases h
    exact Term.unbroken_ofToken token
  | .quoted _, _, h => by cases h
  | .conditional predicate consequent alternative, _, h => by
    obtain ⟨test, whenTrue, whenFalse, htest, htrue, hfalse, rfl⟩ :=
      Term.ofExpression_conditional.1 h
    simp only [Term.text, Lines.unbroken_append]
    have htest := Term.unbroken_text predicate htest
    have htrue := Term.unbroken_text consequent htrue
    have hfalse := Term.unbroken_text alternative hfalse
    exact ⟨⟨⟨⟨⟨⟨by decide, htest⟩, by decide⟩, htrue⟩, by decide⟩, hfalse⟩, by decide⟩
  | .lambda formals body, _, h => by
    obtain ⟨steps, result, hbody, rfl⟩ := Term.ofExpression_lambda.1 h
    have hterms := Term.unbroken_texts body hbody
    have hparameters : Unbroken (", ".intercalate (parameterNames formals)) := by
      refine Lines.unbroken_intercalate (by decide) fun name hname => ?_
      obtain ⟨formal, -, rfl⟩ := List.mem_map.1 hname
      exact (isWord_ofIdentifier _).unbroken
    have hsteps : Unbroken (String.join ((Term.texts steps).map (· ++ "; "))) := by
      refine Lines.unbroken_join fun text htext => ?_
      obtain ⟨step, hstep, rfl⟩ := List.mem_map.1 htext
      obtain ⟨term, hterm, rfl⟩ := List.mem_map.1 (Term.texts_eq_map steps ▸ hstep)
      rw [Lines.unbroken_append]
      exact ⟨hterms term (List.mem_append_left _ hterm), by decide⟩
    have hresult := hterms result (by simp)
    simp only [Term.text, Lines.unbroken_append]
    exact ⟨⟨⟨⟨⟨⟨by decide, hparameters⟩, by decide⟩, hsteps⟩, by decide⟩, hresult⟩, by decide⟩
  | .application head arguments, _, h => by
    obtain ⟨headTerm, terms, hhead, harguments, rfl⟩ := Term.ofExpression_application.1 h
    have hterms := Term.unbroken_texts arguments harguments
    have hrow : Unbroken (", ".intercalate (Term.texts terms)) := by
      refine Lines.unbroken_intercalate (by decide) fun text htext => ?_
      obtain ⟨term, hterm, rfl⟩ := List.mem_map.1 (Term.texts_eq_map terms ▸ htext)
      exact hterms term hterm
    simp only [Term.text, Lines.unbroken_append]
    exact ⟨⟨⟨Term.unbroken_text head hhead, by decide⟩, hrow⟩, by decide⟩

/-- So are the terms of a row. -/
theorem Term.unbroken_texts : ∀ (row : List Expression) {terms : List Term},
    Term.ofExpressions row = .ok terms → ∀ term ∈ terms, Unbroken term.text
  | [], _, h => by
    cases h
    nofun
  | expression :: row, _, h => by
    obtain ⟨term, rest, hterm, hrest, rfl⟩ := Term.ofExpressions_cons.1 h
    exact List.forall_mem_cons.2
      ⟨Term.unbroken_text expression hterm, Term.unbroken_texts row hrest⟩

end

/-! ## What follows the first word -/

/-- A text in which no space follows the word that it begins with, which may be empty. -/
def Unspaced (text : List Char) : Prop :=
  (text.dropWhile isNameChar).head? ≠ some ' '

/-- Before a word there is a space only if there is one behind it. -/
theorem unspaced_append_iff {word : String} (h : IsWord word) {rest : List Char} :
    Unspaced (word.toList ++ rest) ↔ Unspaced rest := by
  rw [Unspaced, List.dropWhile_append_of_pos h, Unspaced]

/-- A character that is neither a space nor part of a name begins unspaced text. -/
theorem unspaced_cons {c : Char} (hname : isNameChar c = false) (hspace : c ≠ ' ')
    (rest : List Char) : Unspaced (c :: rest) := by
  rw [Unspaced, List.dropWhile_cons_of_neg (by simp [hname])]
  simpa using hspace

/-- A string literal begins unspaced text: its quotation mark stands in front. -/
theorem Literal.unspaced_ofText (text : String) (rest : List Char) :
    Unspaced ((Literal.ofText text).toList ++ rest) := by
  have htext : (Literal.ofText text).toList ++ rest =
      '"' :: (Literal.encode text.toList ++ '"' :: rest) := by
    simp [Literal.ofText]
  rw [htext]
  exact unspaced_cons rfl (by decide) _

/-- The text of an atom begins unspaced text where what follows it does. -/
theorem Term.unspaced_ofToken (token : Token) {rest : List Char} (h : Unspaced rest) :
    Unspaced ((Term.ofToken token).text.toList ++ rest) := by
  unfold Term.ofToken
  split
  next => exact (unspaced_append_iff (isWord_ofIdentifier _)).2 h
  next =>
    split
    next constant _ =>
      cases constant with
      | number n =>
        show Unspaced ((Number.text n).toList ++ rest)
        rcases numberText_cases n with hword | ⟨digits, -, htext⟩
        · exact (unspaced_append_iff hword).2 h
        · rw [htext, String.toList_append, List.append_assoc]
          exact unspaced_cons (rfl : isNameChar '-' = false) (by decide) _
      | boolean b => cases b <;> exact (unspaced_append_iff (by decide)).2 h
      | character c => exact Literal.unspaced_ofText _ rest
      | string s => exact Literal.unspaced_ofText s rest
    next => exact (unspaced_append_iff (by decide)).2 h

/-- No space follows the word that the term of an expression begins with. -/
theorem Term.unspaced_text : ∀ (expression : Expression) {term : Term},
    Term.ofExpression expression = .ok term → ∀ {rest : List Char}, Unspaced rest →
      Unspaced (term.text.toList ++ rest)
  | .literal token, _, h, _, hrest => by
    cases h
    exact Term.unspaced_ofToken token hrest
  | .quoted _, _, h, _, _ => by cases h
  | .conditional _ _ _, _, h, rest, _ => by
    obtain ⟨test, whenTrue, whenFalse, -, -, -, rfl⟩ := Term.ofExpression_conditional.1 h
    simp only [Term.text, String.toList_append, List.append_assoc]
    exact unspaced_cons (rfl : isNameChar '(' = false) (by decide) _
  | .lambda _ _, _, h, rest, _ => by
    obtain ⟨steps, result, -, rfl⟩ := Term.ofExpression_lambda.1 h
    simp only [Term.text, String.toList_append, List.append_assoc]
    exact unspaced_cons (rfl : isNameChar '(' = false) (by decide) _
  | .application head _, _, h, rest, _ => by
    obtain ⟨headTerm, terms, hhead, -, rfl⟩ := Term.ofExpression_application.1 h
    simp only [Term.text, String.toList_append, List.append_assoc]
    exact Term.unspaced_text head hhead
      (unspaced_cons (rfl : isNameChar '(' = false) (by decide) _)

/-! ## What a line does to a name -/

/-- Whether a line declares a name. -/
def Declares (name line : String) : Prop :=
  ("let " ++ name ++ " = ").toList <+: line.toList

/-- Whether a line assigns to a name that is declared. -/
def Assigns (name line : String) : Prop :=
  (name ++ " = ").toList <+: line.toList

/-- The characters of a line that declares a name. -/
theorem toList_declaration (name rest : String) : ("let " ++ name ++ " = " ++ rest).toList =
    "let".toList ++ ' ' :: (name.toList ++ ' ' :: '=' :: ' ' :: rest.toList) := by
  simp

/-- The characters of a line that assigns to a name. -/
theorem toList_assignment (name rest : String) : (name ++ " = " ++ rest).toList =
    name.toList ++ ' ' :: '=' :: ' ' :: rest.toList := by
  simp

/-- A line declares a name when it is the declaration of it with some text behind the equals sign.
-/
theorem declares_iff {name line : String} :
    Declares name line ↔ ∃ rest, line = "let " ++ name ++ " = " ++ rest := by
  constructor
  · rintro ⟨rest, heq⟩
    refine ⟨String.ofList rest, String.toList_inj.1 ?_⟩
    rw [String.toList_append, String.toList_ofList, heq]
  · rintro ⟨rest, rfl⟩
    exact ⟨rest.toList, String.toList_append.symm⟩

/-- A line assigns to a name when it is the assignment to it with some text behind the equals sign.
-/
theorem assigns_iff {name line : String} :
    Assigns name line ↔ ∃ rest, line = name ++ " = " ++ rest := by
  constructor
  · rintro ⟨rest, heq⟩
    refine ⟨String.ofList rest, String.toList_inj.1 ?_⟩
    rw [String.toList_append, String.toList_ofList, heq]
  · rintro ⟨rest, rfl⟩
    exact ⟨rest.toList, String.toList_append.symm⟩

/-- The word in front of a space can be read from a text. -/
theorem word_append_inj {word word' : String} (h : IsWord word) (h' : IsWord word')
    {rest rest' : List Char} (heq : word.toList ++ ' ' :: rest = word'.toList ++ ' ' :: rest') :
    word = word' ∧ rest = rest' := by
  have hword := congrArg (List.takeWhile isNameChar) heq
  rw [takeWhile_append_stops h (stops_space _), takeWhile_append_stops h' (stops_space _)] at hword
  rw [hword] at heq
  exact ⟨String.toList_inj.1 hword, (List.cons.inj (List.append_cancel_left heq)).2⟩

/-- A word in front of a space does not begin with an equals sign. -/
theorem word_append_ne {word : String} (h : IsWord word) (rest rest' : List Char) :
    word.toList ++ ' ' :: rest ≠ '=' :: rest' := by
  intro heq
  cases hword : word.toList with
  | nil => simp [hword] at heq
  | cons c text =>
    rw [hword, List.cons_append] at heq
    have hname := h c (by simp [hword])
    rw [(List.cons.inj heq).1] at hname
    cases hname

/-- The word that begins a declaration is a word. -/
theorem isWord_let : IsWord "let" := by
  decide

variable {name name' : String}

/-- A declaration declares the one name that it was made for. -/
theorem declares_declaration_iff (h : IsWord name) (h' : IsWord name') (rest : String) :
    Declares name ("let " ++ name' ++ " = " ++ rest) ↔ name = name' := by
  constructor
  · intro hdeclares
    obtain ⟨rest', heq⟩ := declares_iff.1 hdeclares
    have heq := congrArg String.toList heq
    rw [toList_declaration, toList_declaration] at heq
    exact (word_append_inj h' h (word_append_inj isWord_let isWord_let heq).2).1.symm
  · rintro rfl
    exact declares_iff.2 ⟨rest, rfl⟩

/-- A declaration is no assignment. -/
theorem not_assigns_declaration (h : IsWord name) (h' : IsWord name') (rest : String) :
    ¬ Assigns name ("let " ++ name' ++ " = " ++ rest) := by
  intro hassigns
  obtain ⟨rest', heq⟩ := assigns_iff.1 hassigns
  have heq := congrArg String.toList heq
  rw [toList_declaration, toList_assignment] at heq
  exact word_append_ne h' _ _ (word_append_inj isWord_let h heq).2

/-- An assignment assigns to the one name that it was made for. -/
theorem assigns_assignment_iff (h : IsWord name) (h' : IsWord name') (rest : String) :
    Assigns name (name' ++ " = " ++ rest) ↔ name = name' := by
  constructor
  · intro hassigns
    obtain ⟨rest', heq⟩ := assigns_iff.1 hassigns
    have heq := congrArg String.toList heq
    rw [toList_assignment, toList_assignment] at heq
    exact (word_append_inj h' h heq).1.symm
  · rintro rfl
    exact assigns_iff.2 ⟨rest, rfl⟩

/-- An assignment is no declaration. -/
theorem not_declares_assignment (h : IsWord name) (h' : IsWord name') (rest : String) :
    ¬ Declares name (name' ++ " = " ++ rest) := by
  intro hdeclares
  obtain ⟨rest', heq⟩ := declares_iff.1 hdeclares
  have heq := congrArg String.toList heq
  rw [toList_declaration, toList_assignment] at heq
  exact word_append_ne h _ _ (word_append_inj h' isWord_let heq).2.symm

/-- A line in which no space follows the first word declares nothing. -/
theorem Unspaced.not_declares {line : String} (h : Unspaced line.toList) (name : String) :
    ¬ Declares name line := by
  intro hdeclares
  obtain ⟨rest, rfl⟩ := declares_iff.1 hdeclares
  rw [toList_declaration, unspaced_append_iff isWord_let] at h
  exact h rfl

/-- A line in which no space follows the first word assigns nothing. -/
theorem Unspaced.not_assigns {line : String} (h : Unspaced line.toList) (hname : IsWord name) :
    ¬ Assigns name line := by
  intro hassigns
  obtain ⟨rest, rfl⟩ := assigns_iff.1 hassigns
  rw [toList_assignment, unspaced_append_iff hname] at h
  exact h rfl

end Script

end MiniScheme

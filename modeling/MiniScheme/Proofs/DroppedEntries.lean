import MiniScheme.Proofs.Entries
import MiniScheme.Proofs.Gaps
import MiniScheme.Proofs.Identifiers

/-!
# Entries that are dropped

The buffer drops an entry whose characters are all blank.  These are more characters than the white
space between lexemes: where a source has one of the others, a lexical error is read.  So what is
dropped is read as nothing but errors, one for each of these characters, and only where there is
none of them it is read as nothing at all.

Main results:

- Theorem `Blank.read_stray`: a blank character that is no white space between lexemes is an unknown
  character.
- Theorem `Cursor.items_of_isBlank`: what blank text is read as.
- Theorem `EntryBuffer.enter_lines`: no line is lost, and what is dropped.
-/

namespace MiniScheme

open CharClass

/-! ## Blank characters and white space -/

namespace Blank

/-- Within ASCII the only blank character that is no white space between lexemes is the vertical
tab. -/
theorem isSpace_of_isBlank {c : Char} (h : isBlank c = true) :
    isSpace c = true ∨ c = '\x0b' ∨ 128 ≤ c.toNat := by
  have hascii : ∀ n < 128, isBlank (Char.ofNat n) = true →
      isSpace (Char.ofNat n) = true ∨ Char.ofNat n = '\x0b' := by
    decide
  rcases Nat.lt_or_ge c.toNat 128 with hlt | hge
  · have hcase := hascii c.toNat hlt
    rw [Char.ofNat_toNat] at hcase
    rcases hcase h with hspace | htab
    · exact .inl hspace
    · exact .inr (.inl htab)
  · exact .inr (.inr hge)

/-- No character beyond ASCII is in a list of those within it. -/
theorem contains_eq_false {c : Char} (h : 128 ≤ c.toNat) {listed : List Char}
    (hlisted : listed.all (fun d => d.toNat < 128) = true) : listed.contains c = false := by
  rw [← Bool.not_eq_true, List.contains_iff_mem]
  intro hmem
  have hlt := of_decide_eq_true (List.all_eq_true.1 hlisted c hmem)
  omega

/-- No lexeme but an unknown character begins beyond ASCII. -/
theorem read_of_not_ascii {c : Char} (h : 128 ≤ c.toNat) (text : List Char) :
    Lexeme.read c text = ⟨[c], .fault (.unknownCharacter c)⟩ := by
  have hne (d : Char) (hd : d.toNat < 128) : c ≠ d := by
    rintro rfl
    omega
  have hdigit : isDigit c = false := by
    rw [← Bool.not_eq_true, isDigit_iff]
    omega
  have hletter : isLetter c = false := by
    rw [← Bool.not_eq_true, isLetter_iff]
    omega
  have hinitial : isInitial c = false := by
    rw [isInitial, hletter, contains_eq_false h (by decide), Bool.or_false]
  simp [Lexeme.read, hne '(' (by decide), hne ')' (by decide), hne '\'' (by decide),
    hne '#' (by decide), hne '"' (by decide), hne '.' (by decide), hdigit, hinitial]

/-- A blank character that is no white space between lexemes is an unknown character. -/
theorem read_stray {c : Char} (h : isBlank c = true) (hspace : isSpace c = false)
    (text : List Char) : Lexeme.read c text = ⟨[c], .fault (.unknownCharacter c)⟩ := by
  rcases isSpace_of_isBlank h with hspace' | rfl | hascii
  · rw [hspace] at hspace'
    cases hspace'
  · rfl
  · exact read_of_not_ascii hascii text

end Blank

/-! ## Blank text -/

/-- The errors for the characters of a text that are no white space between lexemes. -/
def strays (position : Position) : List Char → List LexicalError
  | [] => []
  | c :: text =>
    if isSpace c then strays (position.next c) text
    else ⟨.unknownCharacter c, position⟩ :: strays (position.next c) text

/-- A text has no strays exactly if all of it is space. -/
theorem strays_eq_nil_iff (position : Position) (text : List Char) :
    strays position text = [] ↔ ∀ c ∈ text, isSpace c = true := by
  induction text generalizing position with
  | nil => simp [strays]
  | cons c text ih =>
    rw [List.forall_mem_cons, strays]
    cases hspace : isSpace c <;> simp [ih]

/-- No items are left exactly where the end is next. -/
theorem Cursor.items_eq_nil_iff (cursor : Cursor) :
    cursor.items = [] ↔ cursor.next.1.isEnd = true := by
  refine ⟨fun h => ?_, items_of_isEnd⟩
  by_contra hend
  rw [items_of_next (Bool.not_eq_true _ ▸ hend)] at h
  cases h

/-- Blank text is read as the errors for what is not white space in it. -/
theorem Cursor.items_of_isBlank {text : List Char} (h : ∀ c ∈ text, Blank.isBlank c = true)
    (position : Position) : items ⟨text, position⟩ = (strays position text).map .error := by
  induction text generalizing position with
  | nil => exact items_of_rest_nil rfl
  | cons c text ih =>
    rw [List.forall_mem_cons] at h
    rw [strays]
    cases hspace : isSpace c with
    | true =>
      have hgap := items_gap (.space hspace .nil) text position
      exact hgap.trans (ih h.2 (position.next c))
    | false =>
      have hcomment : c ≠ ';' := by
        rintro rfl
        exact absurd h.1 (by decide)
      have hread := Blank.read_stray h.1 hspace text
      have hpast : pastGap ⟨c :: text, position⟩ = ⟨c :: text, position⟩ := by
        simp [pastGap, past, leadingGap, hcomment, hspace]
      rw [items_of_pastGap_cons (congrArg Cursor.rest hpast), hpast, hread]
      exact congrArg (_ :: ·) (ih h.2 (position.next c))

/-- Between two forms a lexical error is reported and nothing else happens. -/
theorem Phase.outcomes_errors (finish : Position) (errors : List LexicalError) :
    Phase.start.outcomes finish (errors.map .error) =
      errors.map fun error => .error (.lexical error) := by
  induction errors with
  | nil => rfl
  | cons error errors ih => exact congrArg (_ :: ·) ih

/-- Outcomes that are errors have no forms. -/
theorem Outcome.forms_errors (errors : List SyntaxError) : forms (errors.map .error) = [] := by
  induction errors with
  | nil => rfl
  | cons error errors ih => exact ih

/-- Outcomes that are errors have these errors. -/
theorem Outcome.errors_errors (errors : List SyntaxError) :
    Outcome.errors (errors.map .error) = errors := by
  induction errors with
  | nil => rfl
  | cons error errors ih => exact congrArg (_ :: ·) ih

/-- Blank text holds no forms, and what is not white space in it is reported. -/
theorem readSource_of_isBlank {text : String} (h : ∀ c ∈ text.toList, Blank.isBlank c = true) :
    readSource text = ([], (strays .start text.toList).map .lexical) := by
  have houtcomes : (Cursor.ofSource text).outcomes =
      ((strays .start text.toList).map SyntaxError.lexical).map .error := by
    rw [Cursor.outcomes, Cursor.ofSource, Cursor.items_of_isBlank h, Phase.outcomes_errors,
      List.map_map]
    rfl
  rw [readSource_eq_outcomes, houtcomes, Outcome.forms_errors, Outcome.errors_errors]

/-! ## What is dropped -/

namespace EntryBuffer

/-- An entry that is dropped is blank. -/
theorem finished_dropped {buffer : EntryBuffer} {line text : String}
    (h : buffer.finished line = some (.dropped text)) :
    ∀ c ∈ text.toList, Blank.isBlank c = true := by
  rw [finished_eq] at h
  split at h
  next => cases h
  next =>
    split at h <;> cases h
    next hblank => exact List.all_eq_true.1 hblank

/-- An entry that is returned is not blank. -/
theorem finished_returned {buffer : EntryBuffer} {line source : String}
    (h : buffer.finished line = some (.returned source)) :
    ∃ c ∈ source.toList, Blank.isBlank c = false := by
  rw [finished_eq] at h
  split at h
  next => cases h
  next =>
    split at h <;> cases h
    next hblank =>
      rw [Blank.isBlankText, Bool.not_eq_true, List.all_eq_false] at hblank
      simpa using hblank

/-- Each entry is finished by some line. -/
theorem exists_of_mem_enter {buffer : EntryBuffer} {lines : List String} {entry : Entry}
    (h : entry ∈ (buffer.enter lines).1) :
    ∃ (before : EntryBuffer) (line : String), before.finished line = some entry := by
  induction lines generalizing buffer with
  | nil => cases h
  | cons line lines ih =>
    rw [enter_cons, List.mem_append, Option.mem_toList] at h
    rcases h with hfinished | hrest
    · exact ⟨buffer, line, hfinished⟩
    · exact ih hrest

/-- Whatever lines are entered, the texts of the entries and the lines that are left are the text of
the lines.  An entry is dropped if it is blank and returned if it is not.  What is dropped is read
as an error for each character that is no white space between lexemes, at its place, and as nothing
else; so the end is read at once exactly if there is none of them. -/
theorem enter_lines (lines : List String) :
    let entered := empty.enter lines
    "\n".intercalate lines =
        "\n".intercalate (entered.1.map Entry.text ++ entered.2.lines) ∧
      (∀ source, .returned source ∈ entered.1 → ∃ c ∈ source.toList, Blank.isBlank c = false) ∧
      ∀ text, .dropped text ∈ entered.1 →
        (∀ c ∈ text.toList, Blank.isBlank c = true) ∧
        (Cursor.ofSource text).items = (strays .start text.toList).map .error ∧
        readSource text = ([], (strays .start text.toList).map .lexical) ∧
        ((Cursor.ofSource text).next.1.isEnd = true ↔ ∀ c ∈ text.toList, isSpace c = true) := by
  intro entered
  refine ⟨intercalate_enter_lines lines, fun source hsource => ?_, fun text htext => ?_⟩
  · obtain ⟨buffer, line, hfinished⟩ := exists_of_mem_enter hsource
    exact finished_returned hfinished
  · obtain ⟨buffer, line, hfinished⟩ := exists_of_mem_enter htext
    have hblank := finished_dropped hfinished
    have hitems : (Cursor.ofSource text).items = (strays .start text.toList).map .error :=
      Cursor.items_of_isBlank hblank .start
    refine ⟨hblank, hitems, readSource_of_isBlank hblank, ?_⟩
    rw [← Cursor.items_eq_nil_iff, hitems, List.map_eq_nil_iff, strays_eq_nil_iff]

/-- A no-break space is dropped although a source that holds it has an error. -/
theorem dropped_noBreakSpace :
    empty.push "\u00a0" = (none, empty) ∧
      (empty.enter ["\u00a0"]).1 = [.dropped "\u00a0"] ∧
      (Cursor.ofSource "\u00a0").next.1 = .error ⟨.unknownCharacter '\u00a0', .start⟩ :=
  ⟨rfl, rfl, rfl⟩

end EntryBuffer

end MiniScheme

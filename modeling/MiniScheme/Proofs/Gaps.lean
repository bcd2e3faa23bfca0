import MiniScheme.Proofs.Layout

/-!
# Gaps before lexemes and at the end

Wherever a cursor stands, it has a gap before it, and behind the gap begins a lexeme or the source
ends.  The last gap of a source may end in a comment without a newline.

Main results:

- Theorem `isGapped`: every text is a gap before a lexeme, or a last gap.
- Theorem `Cursor.next_cases`: the next item is the lexeme behind the gap, and the end if there is
  none.
-/

namespace MiniScheme

open CharClass

/-! ## Texts and their gaps -/

/-- What stands behind the last lexeme: a gap, and perhaps a comment that the source ends in. -/
def IsLastGap (text : List Char) : Prop :=
  IsGap text ∨ ∃ gap body, text = gap ++ ';' :: body ∧ IsGap gap ∧ '\n' ∉ body

/-- A text is a last gap, or a gap before the first character of a lexeme. -/
def IsGapped (text : List Char) : Prop :=
  IsLastGap text ∨
    ∃ gap c rest, text = gap ++ c :: rest ∧ IsGap gap ∧ c ≠ ';' ∧ isSpace c = false

/-- Two gaps in a row are a gap. -/
theorem IsGap.append {first second : List Char} (h : IsGap first) (h' : IsGap second) :
    IsGap (first ++ second) := by
  induction h with
  | nil => exact h'
  | space hc _ ih => exact .space hc ih
  | @comment body text hbody _ ih =>
    have hcomment : ';' :: (body ++ '\n' :: text) ++ second =
        ';' :: (body ++ '\n' :: (text ++ second)) := by
      simp
    exact hcomment ▸ .comment hbody ih

/-- A text that is gapped stays so behind another gap. -/
theorem IsGapped.behind {gap text : List Char} (h : IsGapped text) (hgap : IsGap gap) :
    IsGapped (gap ++ text) := by
  rcases h with (h | ⟨gap', body, rfl, hgap', hbody⟩) | ⟨gap', c, rest, rfl, hgap', hc⟩
  · exact .inl (.inl (hgap.append h))
  · exact .inl (.inr ⟨gap ++ gap', body, by simp, hgap.append hgap', hbody⟩)
  · exact .inr ⟨gap ++ gap', c, rest, by simp, hgap.append hgap', hc⟩

/-- Every text is a gap before a lexeme, or a last gap. -/
theorem isGapped (text : List Char) : IsGapped text := by
  match text with
  | [] => exact .inl (.inl .nil)
  | c :: text =>
    by_cases hcomment : c = ';'
    · subst hcomment
      by_cases hnewline : '\n' ∈ text
      · -- The comment ends at the first newline, and the text goes on behind it.
        obtain ⟨body, rest, rfl, hbody⟩ := List.eq_append_cons_of_mem hnewline
        have hrest := (isGapped rest).behind (.comment hbody .nil)
        rwa [List.cons_append, List.append_assoc, List.cons_append] at hrest
      · exact .inl (.inr ⟨[], text, rfl, .nil, hnewline⟩)
    · by_cases hspace : isSpace c = true
      · exact (isGapped text).behind (.space hspace .nil)
      · exact .inr ⟨[], c, text, rfl, .nil, hcomment, Bool.eq_false_iff.2 hspace⟩
termination_by text.length

/-- A comment without a newline goes on to the end. -/
theorem leadingGap_of_not_mem {body : List Char} (h : '\n' ∉ body) :
    leadingGap true body = body := by
  induction body with
  | nil => rfl
  | cons c body ih =>
    have hc : (c != '\n') = true := bne_iff_ne.2 (List.ne_of_not_mem_cons h).symm
    rw [leadingGap, if_pos rfl, hc, ih (List.not_mem_of_not_mem_cons h)]

/-- A gap ends where something other than space or a comment begins. -/
theorem IsGap.leadingGap_cons {gap : List Char} (h : IsGap gap) {c : Char} (hcomment : c ≠ ';')
    (hspace : isSpace c = false) (text : List Char) :
    leadingGap false (gap ++ c :: text) = gap := by
  simp [h.leadingGap_append, leadingGap, hcomment, hspace]

/-- A last gap is the leading gap of itself. -/
theorem IsLastGap.leadingGap_eq {gap : List Char} (h : IsLastGap gap) :
    leadingGap false gap = gap := by
  rcases h with h | ⟨gap, body, rfl, hgap, hbody⟩
  · simpa [leadingGap] using h.leadingGap_append []
  · simp [hgap.leadingGap_append, leadingGap, leadingGap_of_not_mem hbody]

/-! ## The lexeme behind a gap -/

namespace Cursor

/-- Behind a last gap comes the end. -/
theorem next_of_isLastGap {cursor : Cursor} (h : IsLastGap cursor.rest) :
    cursor.next = (.ok (.endOfSource cursor.finish), ⟨[], cursor.finish⟩) := by
  have hgap : cursor.pastGap = ⟨[], cursor.finish⟩ := by
    simp [pastGap, past, finish, h.leadingGap_eq]
  rw [next_of_pastGap_nil (by rw [hgap]), hgap]

/-- Behind a gap comes the item of a lexeme, and the cursor goes past both. -/
theorem next_of_isGap {gap text rest : List Char} {c : Char} (hgap : IsGap gap)
    (hcomment : c ≠ ';') (hspace : isSpace c = false)
    (htext : c :: text = (Lexeme.read c text).text ++ rest) (position : Position) :
    next ⟨gap ++ c :: text, position⟩ =
      ((Lexeme.read c text).item (position.advance gap),
        ⟨rest, (position.advance gap).advance (Lexeme.read c text).text⟩) := by
  have hpast : pastGap ⟨gap ++ c :: text, position⟩ = ⟨c :: text, position.advance gap⟩ := by
    simp [pastGap, past, hgap.leadingGap_cons hcomment hspace]
  rw [next_of_pastGap_cons (by rw [hpast]), hpast]
  simp [past, htext]

/-- The next item is the lexeme behind the gap, and the end if there is none. -/
theorem next_cases (cursor : Cursor) :
    (IsLastGap cursor.rest ∧
        cursor.next = (.ok (.endOfSource cursor.finish), ⟨[], cursor.finish⟩)) ∨
      ∃ gap c text rest, cursor.rest = gap ++ c :: text ∧ IsGap gap ∧ c ≠ ';' ∧
        isSpace c = false ∧ c :: text = (Lexeme.read c text).text ++ rest ∧
        cursor.next = ((Lexeme.read c text).item (cursor.position.advance gap),
          ⟨rest, (cursor.position.advance gap).advance (Lexeme.read c text).text⟩) := by
  obtain ⟨source, position⟩ := cursor
  rcases isGapped source with hlast | ⟨gap, c, text, rfl, hgap, hcomment, hspace⟩
  · exact .inl ⟨hlast, next_of_isLastGap hlast⟩
  · obtain ⟨rest, hrest⟩ := Lexeme.read_isPrefix c text
    exact .inr ⟨gap, c, text, rest, rfl, hgap, hcomment, hspace, hrest.symm,
      next_of_isGap hgap hcomment hspace hrest.symm position⟩

end Cursor

end MiniScheme

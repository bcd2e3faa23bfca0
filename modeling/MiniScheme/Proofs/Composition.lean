import MiniScheme.Proofs.Relocation
import MiniScheme.Proofs.Separation

/-!
# Reading two sources one after the other

A source that ends between two forms can be put before any other source, with a newline between
them: reading both at once gives the forms and the errors of the first, followed by those of the
second at the places where the second stands now.  The first source may be as malformed as it
likes, as long as its last lexeme is whole, its groups are closed, and it does not end with a
quote mark.

Main results:

- Theorem `Phase.run_eq_start`: after items whose groups are closed the machine is between two
  forms, unless the last of them is a quote mark.
- Theorem `readSource_append`: the forms and the errors of two sources are those of the one
  followed by those of the other.
-/

namespace MiniScheme

/-! ## Between two forms -/

/-- Whether an item is a quote mark. -/
def Item.isQuoteMark : Item → Bool
  | .ok token => token.kind = .quoteMark
  | .error _ => false

/-- Behind an expression no datum is due. -/
theorem Place.fill_ne_datum (place : Place) (expression : Expression) (next : DatumPlace) :
    place.fill expression ≠ .next (.datum next) := by
  cases place <;> simp [fill]

/-- Behind a datum that completes a list or an expression no datum comes in its place. -/
theorem DatumPlace.fill_ne_datum (place : DatumPlace) (datum : Datum) (next : DatumPlace) :
    place.fill datum ≠ .next (.datum next) := by
  cases place with
  | afterMark outer => exact outer.fill_ne_datum _ next
  | _ => simp [fill]

/-- An expression that starts with a datum to come starts with a quote mark. -/
theorem Place.kind_of_startExpression_datum {place : Place} {token : Token} {next : DatumPlace}
    (h : place.startExpression token = .next (.datum next)) : token.kind = .quoteMark := by
  unfold startExpression at h
  split at h
  next => simp at h
  next hkind => exact hkind
  next =>
    split at h
    next => exact absurd h (place.fill_ne_datum _ next)
    next => simp at h

/-- No datum starts with another one in its place. -/
theorem DatumPlace.startDatum_ne_datum (place : DatumPlace) (token : Token)
    (next : DatumPlace) : place.startDatum token ≠ .next (.datum next) := by
  unfold startDatum
  split
  next => simp
  next =>
    split
    next => exact place.fill_ne_datum _ next
    next => simp

/-- Behind a parenthesis only a quote mark makes a marked datum due. -/
theorem Place.kind_of_startConstruct_afterMark {place next : Place} {token : Token}
    (h : place.startConstruct token = .next (.datum (.afterMark next))) :
    token.kind = .quoteMark := by
  unfold startConstruct at h
  split at h
  case h_5 => exact kind_of_startExpression_datum h
  all_goals simp at h

namespace Expectation

/-- A token that is required leads to nothing but what comes behind it. -/
theorem require_ne_next {kind : TokenKind} {token : Token} {step : Step} {next : Expectation}
    (h : step ≠ .next next) : require kind token step ≠ .next next := by
  unfold require
  split
  · exact h
  · simp

/-- Only a quote mark makes the datum after a quote mark the next thing. -/
theorem kind_of_step_afterMark {expectation : Expectation} {token : Token} {place : Place}
    (h : expectation.step token = .next (.datum (.afterMark place))) :
    token.kind = .quoteMark := by
  cases expectation with
  | expression outer => exact outer.kind_of_startExpression_datum h
  | opened outer => exact outer.kind_of_startConstruct_afterMark h
  | name => exact absurd h (require_ne_next (by simp))
  | more row outer =>
    rw [step] at h
    split at h
    next => exact Place.kind_of_startExpression_datum h
    next => exact absurd h (require_ne_next (outer.fill_ne_datum _ _))
  | formalsOpen outer => exact absurd h (require_ne_next (by simp))
  | formals read outer =>
    rw [step] at h
    split at h
    next => simp at h
    next => exact absurd h (require_ne_next (by simp))
  | datum outer => exact absurd h (outer.startDatum_ne_datum token _)
  | items read outer =>
    rw [step] at h
    split at h
    next => exact absurd h (DatumPlace.startDatum_ne_datum _ token _)
    next => exact absurd h (require_ne_next (outer.fill_ne_datum _ _))
  | close whole outer => exact absurd h (require_ne_next (outer.fill_ne_datum _ _))
  | closeDefinition name value => exact absurd h (require_ne_next (by simp))

end Expectation

namespace Phase

/-- The machine waits for a datum at no depth only after a quote mark. -/
theorem isQuoteMark_of_step {phase : Phase} {item : Item}
    (h : (phase.step item).2 = reading (.datum (.afterMark .form))) :
    item.isQuoteMark = true := by
  have hleaving (depth : Nat) : leaving depth ≠ reading (.datum (.afterMark .form)) := by
    cases depth <;> simp [leaving, start, Expectation.start]
  cases phase with
  | skipping inner => exact absurd h (hleaving _)
  | reading expectation =>
    cases item with
    | error error => exact absurd h (hleaving _)
    | ok token =>
      cases hstep : expectation.step token with
      | next following =>
        rw [step_of_next hstep] at h
        obtain rfl : following = .datum (.afterMark .form) := by simpa using h
        simp [Item.isQuoteMark, Expectation.kind_of_step_afterMark hstep]
      | form form =>
        rw [step_of_form hstep] at h
        exact absurd h (hleaving 0)
      | reject error =>
        rw [step_of_reject hstep] at h
        exact absurd h (hleaving _)

/-- After items whose groups are closed the machine is between two forms, unless the last of them
is a quote mark. -/
theorem run_eq_start {items : List Item} (hdepth : Item.depthAfterAll 0 items = 0)
    (hlast : items.getLast?.any Item.isQuoteMark = false) : start.run items = start := by
  have hrun : (start.run items).depth = 0 := by
    rw [depth_run]
    exact hdepth
  cases hphase : start.run items with
  | skipping inner =>
    rw [hphase] at hrun
    cases hrun
  | reading expectation =>
    rw [hphase] at hrun
    rcases expectation.depth_eq_zero_iff.1 hrun with rfl | rfl
    · rfl
    · exfalso
      rcases List.eq_nil_or_concat items with rfl | ⟨init, item, rfl⟩
      · cases hphase
      · rw [List.concat_eq_append, run_append] at hphase
        have hmark := isQuoteMark_of_step hphase
        simp [hmark] at hlast

end Phase

/-! ## Moving down -/

namespace Position

/-- The place so many lines further down. -/
def down (lines : Nat) (position : Position) : Position :=
  { position with line := position.line + lines }

/-- Moving down by some lines and walking on may be done in either order. -/
theorem commutesWithNext_down (lines : Nat) : CommutesWithNext (down lines) := by
  intro position c
  unfold next down
  split
  · simp [Nat.add_right_comm]
  · rfl

/-- Walking over a text passes as many lines as it has newlines. -/
theorem line_advance (position : Position) (text : List Char) :
    (position.advance text).line = position.line + text.count '\n' := by
  induction text generalizing position with
  | nil => rfl
  | cons c text ih =>
    rw [advance_cons, ih, List.count_cons, next]
    by_cases hc : c = '\n'
    · simp [hc]
      omega
    · simp [hc]

/-- After a text and a newline the next text starts a line further down than the text has
newlines. -/
theorem next_advance_start (text : List Char) :
    (start.advance text).next '\n' = down (text.count '\n' + 1) start := by
  unfold next
  rw [if_pos rfl, line_advance]
  rfl

end Position

/-! ## Two sources -/

/-- A source that ends between two forms: its last lexeme is whole, its groups are closed, where
a parenthesis that closes no group does not count, and it does not end with a quote mark. -/
structure Separable (source : String) : Prop where
  finished : ∀ item ∈ (Cursor.ofSource source).items, item.isUnfinished = false
  balanced : Item.depthAfterAll 0 (Cursor.ofSource source).items = 0
  unmarked : (Cursor.ofSource source).items.getLast?.any Item.isQuoteMark = false

/-- When a cursor is moved, its outcomes are moved with it. -/
theorem Cursor.outcomes_relocate (move : Position → Position)
    (h : Position.CommutesWithNext move) (cursor : Cursor) :
    (cursor.relocate move).outcomes = cursor.outcomes.map (Outcome.relocate move) := by
  unfold outcomes
  rw [finish_relocate h, items_relocate h]
  exact Phase.outcomes_relocate move cursor.finish .start cursor.items

/-- What comes of a text, a newline and a second text is what comes of the one and then of the
other, if the items of the first text are whole and the machine is between two forms after
them. -/
theorem Cursor.outcomes_before {cursor : Cursor}
    (hfinished : ∀ item ∈ cursor.items, item.isUnfinished = false)
    (hrun : Phase.start.run cursor.items = .start) (tail : List Char) :
    (cursor.before tail).outcomes = cursor.outcomes ++ (cursor.behind tail).outcomes := by
  have hfinish : (cursor.before tail).finish = (cursor.behind tail).finish := by
    simp [finish, before, behind]
  unfold outcomes
  rw [items_separate hfinished, hfinish]
  exact Phase.outcomes_append hrun _ _ _

/-- What comes of two sources is what comes of the one and then of the other, further down. -/
theorem Cursor.outcomes_append {first : String} (h : Separable first) (second : String) :
    (ofSource (first ++ "\n" ++ second)).outcomes =
      (ofSource first).outcomes ++ (ofSource second).outcomes.map
        (Outcome.relocate (Position.down (first.toList.count '\n' + 1))) := by
  have hbefore : ofSource (first ++ "\n" ++ second) =
      (ofSource first).before second.toList := by
    simp [ofSource, before]
  have hbehind : (ofSource first).behind second.toList =
      (ofSource second).relocate (Position.down (first.toList.count '\n' + 1)) := by
    rw [behind, finish, ofSource, Position.next_advance_start]
    rfl
  have hrun := Phase.run_eq_start h.balanced h.unmarked
  rw [← outcomes_relocate _ (Position.commutesWithNext_down _), ← hbehind, hbefore]
  exact outcomes_before h.finished hrun _

/-- The forms and the errors of two sources are those of the one followed by those of the other,
further down by a line more than the first source has newlines. -/
theorem readSource_append {first : String} (h : Separable first) (second : String) :
    readSource (first ++ "\n" ++ second) =
      ((readSource first).1 ++ (readSource second).1.map
          (Form.relocate (Position.down (first.toList.count '\n' + 1))),
        (readSource first).2 ++ (readSource second).2.map
          (SyntaxError.relocate (Position.down (first.toList.count '\n' + 1)))) := by
  rw [readSource_eq_outcomes, Cursor.outcomes_append h, readSource_eq_outcomes,
    readSource_eq_outcomes, Outcome.forms_append, Outcome.errors_append,
    Outcome.forms_map_relocate, Outcome.errors_map_relocate]

/-- The first source here has a parenthesis too many, a vector, a definition without a name with
a lexical error in the rest of it, and parentheses in a string, in a character and in a comment.
The second one ends within a form, on the third line of both. -/
theorem readSource_append_broken :
    let first := ") #(1 2) (define 3 (x) #z)\n'a \"\\\"(\" #\\( ; ("
    let second := "(f 'x) '"
    Separable first ∧
      readSource (first ++ "\n" ++ second) =
        ((readSource first).1 ++ (readSource second).1.map (Form.relocate (Position.down 2)),
          (readSource first).2 ++ (readSource second).2.map
            (SyntaxError.relocate (Position.down 2))) ∧
      (readSource (first ++ "\n" ++ second)).2.map SyntaxError.position =
        [⟨1, 1⟩, ⟨1, 3⟩, ⟨1, 18⟩, ⟨3, 9⟩] := by
  intro first second
  have h : Separable first := ⟨by decide +kernel, by decide +kernel, by decide +kernel⟩
  have hnewlines : first.toList.count '\n' + 1 = 2 := by decide +kernel
  have happend := readSource_append h second
  rw [hnewlines] at happend
  refine ⟨h, happend, ?_⟩
  rw [happend]
  decide +kernel

end MiniScheme

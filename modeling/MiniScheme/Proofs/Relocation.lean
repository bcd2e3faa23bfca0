import MiniScheme.Proofs.OnePass

/-!
# The reader does not look at positions

Tokens and errors carry positions, and forms carry tokens, but nothing that is done with them
depends on where they stand.  Moving every position of the items of a source therefore moves
the positions in its forms and errors and changes nothing else.

Main results:

- Theorem `Expectation.step_relocate`: a token that is moved does what it did before.
- Theorem `Phase.outcomes_relocate`: what comes of items that are moved is what came of them
  before, with its positions moved.
- Theorem `Cursor.items_relocate`: a text that starts elsewhere holds the same items elsewhere.
-/

namespace MiniScheme

variable (move : Position → Position)

/-! ## Items -/

/-- The token at another place. -/
def Token.relocate (token : Token) : Token :=
  { token with position := move token.position }

/-- The lexical error at another place. -/
def LexicalError.relocate (error : LexicalError) : LexicalError :=
  { error with position := move error.position }

/-- The item at another place. -/
def Item.relocate : Item → Item
  | .ok token => .ok (token.relocate move)
  | .error error => .error (error.relocate move)

/-- The error about the same token or text at another place. -/
def SyntaxError.relocate : SyntaxError → SyntaxError
  | unexpected found => unexpected (found.relocate move)
  | expected kind found => expected kind (found.relocate move)
  | lexical error => lexical (error.relocate move)

/-- A token is of its kind wherever it is moved. -/
@[simp]
theorem Token.kind_relocate (token : Token) : (token.relocate move).kind = token.kind :=
  rfl

/-- The end of the source moves with its place. -/
theorem Token.relocate_endOfSource (position : Position) :
    (Token.endOfSource position).relocate move = .endOfSource (move position) :=
  rfl

/-- A lexical error moves with its item. -/
@[simp]
theorem Item.relocate_error (error : LexicalError) :
    Item.relocate move (.error error) = .error (error.relocate move) :=
  rfl

/-- An item changes the depth as it does wherever it is moved. -/
@[simp]
theorem Item.depthAfter_relocate (depth : Nat) (item : Item) :
    Item.depthAfter depth (item.relocate move) = item.depthAfter depth := by
  cases item <;> rfl

/-- A lexeme moved with its place is the lexeme at the new place. -/
theorem Lexeme.relocate_item (lexeme : Lexeme) (position : Position) :
    (lexeme.item position).relocate move = lexeme.item (move position) := by
  unfold item
  split <;> rfl

/-! ## Forms -/

/-- The datum with its tokens at other places. -/
def Datum.relocate : Datum → Datum
  | atom token => atom (token.relocate move)
  | list items => list (items.map relocate)

/-- The expression with its tokens at other places. -/
def Expression.relocate : Expression → Expression
  | literal token => literal (token.relocate move)
  | quoted datum => quoted (datum.relocate move)
  | conditional predicate consequent alternative =>
    conditional predicate.relocate consequent.relocate alternative.relocate
  | lambda formals body => lambda (formals.map (Token.relocate move)) (body.map relocate)
  | application head arguments => application head.relocate (arguments.map relocate)

/-- The form with its tokens at other places. -/
def Form.relocate : Form → Form
  | definition name value => definition (name.relocate move) (value.relocate move)
  | expression whole => expression (whole.relocate move)

/-! ## Expectations -/

/-- The row with its tokens at other places. -/
def Row.relocate : Row → Row
  | arguments head read => arguments (head.relocate move) (read.map (Expression.relocate move))
  | body formals read =>
    body (formals.map (Token.relocate move)) (read.map (Expression.relocate move))

/-- The place with the tokens around it at other places. -/
def Place.relocate : Place → Place
  | form => form
  | value name => value (name.relocate move)
  | head outer => head outer.relocate
  | element row outer => element (row.relocate move) outer.relocate
  | predicate outer => predicate outer.relocate
  | consequent test outer => consequent (test.relocate move) outer.relocate
  | alternative test whenTrue outer =>
    alternative (test.relocate move) (whenTrue.relocate move) outer.relocate

/-- The place for a datum with the tokens around it at other places. -/
def DatumPlace.relocate : DatumPlace → DatumPlace
  | afterMark outer => afterMark (outer.relocate move)
  | afterWord outer => afterWord (outer.relocate move)
  | item read outer => item (read.map (Datum.relocate move)) outer.relocate

/-- The expectation with the tokens read so far at other places. -/
def Expectation.relocate : Expectation → Expectation
  | expression place => expression (place.relocate move)
  | opened place => opened (place.relocate move)
  | name => name
  | more row outer => more (row.relocate move) (outer.relocate move)
  | formalsOpen place => formalsOpen (place.relocate move)
  | formals read place => formals (read.map (Token.relocate move)) (place.relocate move)
  | datum place => datum (place.relocate move)
  | items read place => items (read.map (Datum.relocate move)) (place.relocate move)
  | close whole place => close (whole.relocate move) (place.relocate move)
  | closeDefinition defined value =>
    closeDefinition (defined.relocate move) (value.relocate move)

/-- The step with its tokens at other places. -/
def Step.relocate : Step → Step
  | next expectation => next (expectation.relocate move)
  | form whole => form (whole.relocate move)
  | reject error => reject (error.relocate move)

/-- A place is as deep inside its form after a move. -/
@[simp]
theorem Place.depth_relocate (place : Place) : (place.relocate move).depth = place.depth := by
  induction place <;> simp_all [relocate, depth]

/-- A place for a datum is as deep after a move. -/
@[simp]
theorem DatumPlace.depth_relocate (place : DatumPlace) :
    (place.relocate move).depth = place.depth := by
  induction place <;> simp_all [relocate, depth]

/-- What is expected is as deep inside its form after a move. -/
@[simp]
theorem Expectation.depth_relocate (expectation : Expectation) :
    (expectation.relocate move).depth = expectation.depth := by
  cases expectation <;> simp [relocate, depth]

/-- A choice between two steps moves with both of them. -/
theorem Step.relocate_ite (p : Prop) [Decidable p] (first second : Step) :
    (if p then first else second).relocate move =
      if p then first.relocate move else second.relocate move := by
  split <;> rfl

/-- A row closes after a move as it did before it. -/
theorem Row.relocate_close (row : Row) :
    (row.relocate move).close = row.close.relocate move := by
  cases row <;> simp [relocate, close, Expression.relocate]

/-- A row takes a moved expression as it takes the expression. -/
theorem Row.relocate_add (row : Row) (expression : Expression) :
    (row.relocate move).add (expression.relocate move) =
      (row.add expression).relocate move := by
  cases row <;> simp [relocate, add]

/-! ## One token -/

/-- A moved place takes a moved expression as the place takes the expression. -/
theorem Place.fill_relocate (place : Place) (expression : Expression) :
    (place.relocate move).fill (expression.relocate move) =
      (place.fill expression).relocate move := by
  cases place with
  | element row outer =>
    simp only [relocate, fill, Step.relocate, Expectation.relocate, Row.relocate_add]
  | _ =>
    simp [relocate, fill, Step.relocate, Form.relocate, Expectation.relocate, Row.relocate,
      Expression.relocate]

/-- A moved place takes a moved datum as the place takes the datum. -/
theorem DatumPlace.fill_relocate (place : DatumPlace) (datum : Datum) :
    (place.relocate move).fill (datum.relocate move) = (place.fill datum).relocate move := by
  cases place with
  | afterMark outer =>
    have h := outer.fill_relocate move (.quoted datum)
    rw [Expression.relocate] at h
    exact h
  | _ => simp [relocate, fill, Step.relocate, Expectation.relocate, Expression.relocate]

/-- An expression begins at a moved token as it begins at the token. -/
theorem Place.startExpression_relocate (place : Place) (token : Token) :
    (place.relocate move).startExpression (token.relocate move) =
      (place.startExpression token).relocate move := by
  have hfill := place.fill_relocate move (.literal token)
  rw [Expression.relocate] at hfill
  unfold startExpression
  rw [Token.kind_relocate, hfill]
  split
  · rfl
  · rfl
  · split <;> rfl

/-- A datum begins at a moved token as it begins at the token. -/
theorem DatumPlace.startDatum_relocate (place : DatumPlace) (token : Token) :
    (place.relocate move).startDatum (token.relocate move) =
      (place.startDatum token).relocate move := by
  have hfill := place.fill_relocate move (.atom token)
  rw [Datum.relocate] at hfill
  unfold startDatum
  rw [Token.kind_relocate, hfill]
  split
  · rfl
  · split <;> rfl

/-- A construct begins at a moved token as it begins at the token. -/
theorem Place.startConstruct_relocate (place : Place) (token : Token) :
    (place.relocate move).startConstruct (token.relocate move) =
      (place.startConstruct token).relocate move := by
  have hhead := (Place.head place).startExpression_relocate move token
  unfold startConstruct
  rw [Token.kind_relocate]
  cases hkind : token.kind with
  | keyword word =>
    cases word with
    | define =>
      cases place with
      | form => rfl
      | _ => exact hhead
    | lambda => rfl
    | conditional => rfl
    | quote => rfl
    | _ => exact hhead
  | _ => exact hhead

namespace Expectation

/-- A token that must be of a kind may be moved together with the step behind it. -/
theorem require_relocate {kind : TokenKind} {token : Token} {step step' : Step}
    (h : step' = step.relocate move) :
    require kind (token.relocate move) step' = (require kind token step).relocate move := by
  unfold require
  rw [Token.kind_relocate, h]
  split <;> rfl

/-- A token that is moved does what it did before. -/
theorem step_relocate (expectation : Expectation) (token : Token) :
    (expectation.relocate move).step (token.relocate move) =
      (expectation.step token).relocate move := by
  cases expectation with
  | expression place => exact place.startExpression_relocate move token
  | opened place => exact place.startConstruct_relocate move token
  | name => exact require_relocate move rfl
  | more row outer =>
    have hstart := (Place.element row outer).startExpression_relocate move token
    have hclose := outer.fill_relocate move row.close
    rw [← row.relocate_close] at hclose
    simp only [relocate, step, Step.relocate_ite]
    exact ite_congr rfl (fun _ => hstart) fun _ => require_relocate move hclose
  | formalsOpen place => exact require_relocate move rfl
  | formals read place =>
    have hrow : Row.body (read.map (Token.relocate move)).reverse [] =
        (Row.body read.reverse []).relocate move := by
      simp [Row.relocate]
    simp only [relocate, step, Step.relocate_ite, hrow]
    exact ite_congr rfl (fun _ => rfl) fun _ => require_relocate move rfl
  | datum place => exact place.startDatum_relocate move token
  | items read place =>
    have hstart := (DatumPlace.item read place).startDatum_relocate move token
    have hclose := place.fill_relocate move (.list read.reverse)
    rw [Datum.relocate, List.map_reverse] at hclose
    simp only [relocate, step, Step.relocate_ite]
    exact ite_congr rfl (fun _ => hstart) fun _ => require_relocate move hclose
  | close whole place => exact require_relocate move (place.fill_relocate move whole)
  | closeDefinition name value => exact require_relocate move rfl

/-- Only the start is the start after a move. -/
theorem relocate_eq_start_iff (expectation : Expectation) :
    expectation.relocate move = start ↔ expectation = start := by
  cases expectation with
  | expression place => cases place <;> simp [relocate, Place.relocate, start]
  | _ => simp [relocate, start]

end Expectation

/-! ## The machine -/

/-- The outcome with its tokens at other places. -/
def Outcome.relocate : Outcome → Outcome
  | .ok form => .ok (form.relocate move)
  | .error error => .error (error.relocate move)

/-- The forms of moved outcomes are the moved forms. -/
theorem Outcome.forms_map_relocate (outcomes : List Outcome) :
    forms (outcomes.map (Outcome.relocate move)) = (forms outcomes).map (Form.relocate move) := by
  induction outcomes with
  | nil => rfl
  | cons outcome outcomes ih =>
    cases outcome with
    | ok form => exact congrArg (form.relocate move :: ·) ih
    | error error => exact ih

/-- The errors of moved outcomes are the moved errors. -/
theorem Outcome.errors_map_relocate (outcomes : List Outcome) :
    errors (outcomes.map (Outcome.relocate move)) =
      (errors outcomes).map (SyntaxError.relocate move) := by
  induction outcomes with
  | nil => rfl
  | cons outcome outcomes ih =>
    cases outcome with
    | ok form => exact ih
    | error error => exact congrArg (error.relocate move :: ·) ih

namespace Phase

/-- The phase with the tokens read so far at other places. -/
def relocate : Phase → Phase
  | reading expectation => reading (expectation.relocate move)
  | skipping inner => skipping inner

/-- Leaving a form moves to itself: it keeps no token. -/
theorem relocate_leaving (depth : Nat) : (leaving depth).relocate move = leaving depth := by
  cases depth <;> rfl

/-- An item that is moved completes and makes fail what it did before. -/
theorem step_relocate (phase : Phase) (item : Item) :
    (phase.relocate move).step (item.relocate move) =
      ((phase.step item).1.map (Outcome.relocate move), (phase.step item).2.relocate move) := by
  cases phase with
  | skipping inner =>
    rw [relocate, step_skipping, step_skipping, Item.depthAfter_relocate, relocate_leaving]
    rfl
  | reading expectation =>
    cases item with
    | error error =>
      rw [relocate, Item.relocate_error, step_error, step_error, Expectation.depth_relocate,
        relocate_leaving]
      rfl
    | ok token =>
      have hstep := expectation.step_relocate move token
      cases h : expectation.step token with
      | next following =>
        rw [step_of_next h]
        exact step_of_next (by rw [hstep, h]; rfl)
      | form form =>
        rw [step_of_form h]
        exact step_of_form (by rw [hstep, h]; rfl)
      | reject error =>
        have hreject := step_of_reject (hstep.trans (congrArg (Step.relocate move) h))
        rw [step_of_reject h, relocate_leaving]
        rw [Expectation.depth_relocate] at hreject
        exact hreject

/-- The end of a source that is moved makes fail what it did before. -/
theorem atEnd_relocate (finish : Position) (phase : Phase) :
    (phase.relocate move).atEnd (move finish) =
      (phase.atEnd finish).map (Outcome.relocate move) := by
  cases phase with
  | skipping inner => rfl
  | reading expectation =>
    have hstep := expectation.step_relocate move (.endOfSource finish)
    rw [Token.relocate_endOfSource] at hstep
    obtain ⟨error, herror⟩ := expectation.step_endOfSource finish
    rw [herror] at hstep
    by_cases h : expectation = .start
    · subst h
      rfl
    · have h' := mt (expectation.relocate_eq_start_iff move).1 h
      rw [atEnd_reading h herror, relocate, atEnd_reading h' hstep]
      rfl

/-- What comes of items that are moved is what came of them before, with its positions
moved. -/
theorem outcomes_relocate (finish : Position) (phase : Phase) (items : List Item) :
    (phase.relocate move).outcomes (move finish) (items.map (Item.relocate move)) =
      (phase.outcomes finish items).map (Outcome.relocate move) := by
  induction items generalizing phase with
  | nil => exact atEnd_relocate move finish phase
  | cons item items ih =>
    rw [List.map_cons, outcomes_cons, outcomes_cons, step_relocate, ih, List.map_append]
    cases (phase.step item).1 <;> rfl

end Phase

/-! ## Cursors -/

/-- The cursor before the same text at another place. -/
def Cursor.relocate (cursor : Cursor) : Cursor :=
  { cursor with position := move cursor.position }

variable {move}

/-- Text leads from the place that is moved to as it leads from the place itself. -/
def Position.CommutesWithNext (move : Position → Position) : Prop :=
  ∀ position c, move (next position c) = (move position).next c

/-- Walking over text is the same wherever the text stands. -/
theorem Position.advance_move (h : CommutesWithNext move) (position : Position) (text : List Char) :
    (move position).advance text = move (position.advance text) := by
  induction text generalizing position with
  | nil => rfl
  | cons c text ih => rw [advance_cons, advance_cons, ← h, ih]

namespace Cursor

section

variable (h : Position.CommutesWithNext move)

include h

/-- A moved cursor passes a text as the cursor does. -/
theorem past_relocate (cursor : Cursor) (text : List Char) :
    (cursor.relocate move).past text = (cursor.past text).relocate move := by
  simp [past, relocate, Position.advance_move h]

/-- The end of the source moves with its place. -/
theorem finish_relocate (cursor : Cursor) :
    (cursor.relocate move).finish = move cursor.finish :=
  Position.advance_move h _ _

/-- A text that starts elsewhere holds the same items elsewhere. -/
theorem items_relocate (cursor : Cursor) :
    (cursor.relocate move).items = cursor.items.map (Item.relocate move) := by
  have hgap (cursor : Cursor) :
      (cursor.relocate move).pastGap = cursor.pastGap.relocate move :=
    past_relocate h cursor _
  fun_induction items cursor with
  | case1 cursor hend =>
    apply items_of_pastGap_nil
    rw [hgap]
    exact cursor.isEnd_next.1 hend
  | case2 cursor hend ih =>
    obtain ⟨c, text, hrest⟩ := List.exists_cons_of_ne_nil (mt cursor.isEnd_next.2 hend)
    have hrest' : (cursor.relocate move).pastGap.rest = c :: text := by
      rw [hgap]
      exact hrest
    rw [next_of_pastGap_cons hrest] at ih ⊢
    rw [items_of_pastGap_cons hrest', hgap, past_relocate h, ih, List.map_cons,
      Lexeme.relocate_item]
    rfl

end

end Cursor

end MiniScheme

import MiniScheme.Proofs.OpenGroups

/-!
# The machine

The machine takes the items of a source one by one and never goes back.  It either reads a form
or skips the rest of a group, and an item completes at most one form or makes at most one form
fail.

Main results:

- Theorem `Phase.outcomes_append`: where the machine is between two forms, what comes before is
  read as a source by itself.
- Theorem `Phase.depth_run`: the depth of the machine is the depth counted along the items.
-/

namespace MiniScheme

/-! ## Outcomes -/

/-- What comes of one top-level form. -/
abbrev Outcome :=
  Except SyntaxError Form

namespace Outcome

/-- The forms among outcomes. -/
def forms (outcomes : List Outcome) : Program :=
  outcomes.filterMap fun outcome => match outcome with
    | .ok form => some form
    | .error _ => none

/-- The errors among outcomes. -/
def errors (outcomes : List Outcome) : List SyntaxError :=
  outcomes.filterMap fun outcome => match outcome with
    | .ok _ => none
    | .error error => some error

/-- A form is one of the forms. -/
@[simp]
theorem forms_ok (form : Form) (outcomes : List Outcome) :
    forms (.ok form :: outcomes) = form :: forms outcomes :=
  rfl

/-- A form is none of the errors. -/
@[simp]
theorem errors_ok (form : Form) (outcomes : List Outcome) :
    errors (.ok form :: outcomes) = errors outcomes :=
  rfl

/-- An error is one of the errors. -/
@[simp]
theorem errors_error (error : SyntaxError) (outcomes : List Outcome) :
    errors (.error error :: outcomes) = error :: errors outcomes :=
  rfl

/-- The forms of two rows of outcomes are those of the first and then those of the second. -/
theorem forms_append (first second : List Outcome) :
    forms (first ++ second) = forms first ++ forms second :=
  List.filterMap_append

/-- The errors of two rows of outcomes are those of the first and then those of the second. -/
theorem errors_append (first second : List Outcome) :
    errors (first ++ second) = errors first ++ errors second :=
  List.filterMap_append

end Outcome

/-! ## Phases -/

/-- What the machine is doing: reading a form, or skipping the rest of a group that has so many
groups open within it. -/
inductive Phase
  | reading (expectation : Expectation)
  | skipping (inner : Nat)

namespace Phase

/-- The machine between two forms. -/
def start : Phase :=
  reading .start

/-- The number of groups that are open. -/
def depth : Phase → Nat
  | reading expectation => expectation.depth
  | skipping inner => inner + 1

/-- What the machine does about so many open groups of a form that has failed. -/
def leaving : Nat → Phase
  | 0 => start
  | inner + 1 => skipping inner

/-- What an item completes or makes fail, and what the machine does next. -/
def step : Phase → Item → Option Outcome × Phase
  | reading expectation, .ok token =>
    match expectation.step token with
    | .next following => (none, reading following)
    | .form form => (some (.ok form), start)
    | .reject error =>
      (some (.error error), leaving (Item.depthAfter expectation.depth (.ok token)))
  | reading expectation, .error error =>
    (some (.error (.lexical error)), leaving expectation.depth)
  | skipping inner, item => (none, leaving (item.depthAfter (inner + 1)))

/-- A token that is due leads on. -/
theorem step_of_next {expectation following : Expectation} {token : Token}
    (h : expectation.step token = .next following) :
    (reading expectation).step (.ok token) = (none, reading following) := by
  simp [step, h]

/-- A token that completes a form ends it. -/
theorem step_of_form {expectation : Expectation} {token : Token} {form : Form}
    (h : expectation.step token = .form form) :
    (reading expectation).step (.ok token) = (some (.ok form), start) := by
  simp [step, h]

/-- A token that is rejected ends the form, and what is open behind it is left. -/
theorem step_of_reject {expectation : Expectation} {token : Token} {error : SyntaxError}
    (h : expectation.step token = .reject error) :
    (reading expectation).step (.ok token) =
      (some (.error error), leaving (Item.depthAfter expectation.depth (.ok token))) := by
  simp [step, h]

/-- A lexical error ends the form, and what is open is left. -/
theorem step_error (expectation : Expectation) (error : LexicalError) :
    (reading expectation).step (.error error) =
      (some (.error (.lexical error)), leaving expectation.depth) :=
  rfl

/-- An item in a group that is skipped leads on with the skipping, or ends it. -/
theorem step_skipping (inner : Nat) (item : Item) :
    (skipping inner).step item = (none, leaving (item.depthAfter (inner + 1))) :=
  rfl

/-- What the end of a source makes fail: a form that has begun, but nothing between forms and
nothing more where a failed form is being skipped. -/
def atEnd (finish : Position) : Phase → List Outcome
  | reading (.expression .form) => []
  | reading expectation =>
    match expectation.step (.endOfSource finish) with
    | .reject error => [.error error]
    | _ => []
  | skipping _ => []

/-- What comes of the items up to the end of a source. -/
def outcomes (finish : Position) : Phase → List Item → List Outcome
  | phase, [] => phase.atEnd finish
  | phase, item :: items =>
    (phase.step item).1.toList ++ outcomes finish (phase.step item).2 items

/-- What the machine does after some items. -/
def run (phase : Phase) (items : List Item) : Phase :=
  items.foldl (fun phase item => (phase.step item).2) phase

/-- No items lead nowhere. -/
@[simp]
theorem run_nil (phase : Phase) : phase.run [] = phase :=
  rfl

/-- A run begins with a step. -/
@[simp]
theorem run_cons (phase : Phase) (item : Item) (items : List Item) :
    phase.run (item :: items) = (phase.step item).2.run items :=
  rfl

/-- A run over two rows of items goes on with the second where the first ends. -/
theorem run_append (phase : Phase) (first second : List Item) :
    phase.run (first ++ second) = (phase.run first).run second :=
  List.foldl_append

/-- Behind the last item there is only the outcome of the end. -/
@[simp]
theorem outcomes_nil (finish : Position) (phase : Phase) :
    phase.outcomes finish [] = phase.atEnd finish :=
  rfl

/-- The outcome of an item comes before those of the others. -/
theorem outcomes_cons (finish : Position) (phase : Phase) (item : Item) (items : List Item) :
    phase.outcomes finish (item :: items) =
      (phase.step item).1.toList ++ (phase.step item).2.outcomes finish items :=
  rfl

/-- Between two forms the end is no error. -/
@[simp]
theorem atEnd_start (finish : Position) : start.atEnd finish = [] :=
  rfl

/-- A form that has begun fails at the end. -/
theorem atEnd_reading {finish : Position} {expectation : Expectation} {error : SyntaxError}
    (hstart : expectation ≠ .start)
    (hstep : expectation.step (.endOfSource finish) = .reject error) :
    (reading expectation).atEnd finish = [.error error] := by
  unfold atEnd
  split
  next heq =>
    cases heq
    exact absurd rfl hstart
  next heq =>
    cases heq
    simp [hstep]
  next heq => cases heq

/-- In a form that has failed the end is no second error. -/
theorem atEnd_leaving (finish : Position) (depth : Nat) : (leaving depth).atEnd finish = [] := by
  cases depth <;> rfl

/-- Where the machine is between two forms, what comes before is read as a source by itself. -/
theorem outcomes_append {phase : Phase} {first : List Item} (h : phase.run first = start)
    (finish finish' : Position) (second : List Item) :
    phase.outcomes finish (first ++ second) =
      phase.outcomes finish' first ++ start.outcomes finish second := by
  induction first generalizing phase with
  | nil =>
    rw [run_nil] at h
    subst h
    rfl
  | cons item items ih =>
    rw [List.cons_append, outcomes_cons, outcomes_cons, ih h, List.append_assoc]

/-- In a form that has failed as many groups are open as are left. -/
@[simp]
theorem depth_leaving (depth : Nat) : (leaving depth).depth = depth := by
  cases depth <;> rfl

/-- The depth of the machine follows the count along the items. -/
theorem depth_step (phase : Phase) (item : Item) :
    (phase.step item).2.depth = item.depthAfter phase.depth := by
  cases phase with
  | skipping inner => exact depth_leaving _
  | reading expectation =>
    cases item with
    | error error => exact depth_leaving _
    | ok token =>
      have hleaves := expectation.step_leaves token
      cases hstep : expectation.step token with
      | next following =>
        rw [hstep] at hleaves
        cases hleaves with
        | next hdepth =>
          rw [step_of_next hstep]
          exact hdepth
      | form form =>
        rw [hstep] at hleaves
        cases hleaves with
        | form hdepth =>
          rw [step_of_form hstep]
          exact hdepth.symm
      | reject error =>
        rw [step_of_reject hstep]
        exact depth_leaving _

/-- The depth of the machine is the depth counted along the items. -/
theorem depth_run (phase : Phase) (items : List Item) :
    (phase.run items).depth = Item.depthAfterAll phase.depth items := by
  induction items generalizing phase with
  | nil => rfl
  | cons item items ih =>
    rw [run_cons, ih, depth_step]
    rfl

end Phase

end MiniScheme

import MiniScheme.Form.Expectation
import MiniScheme.Token.Stream

/-!
# Open groups

An opening parenthesis and the opening of a vector open a group, and a closing parenthesis
closes one, unless none is open.  An expectation knows how many groups are open, and a token
that it takes keeps this number what it is when it is counted along the items.

Main results:

- Theorem `Expectation.step_leaves`: what one token does to the number of open groups.
- Theorem `Expectation.depth_eq_zero_iff`: no group is open only before a form and after a quote
  mark that a form begins with.
-/

namespace MiniScheme

/-! ## Counting along the items -/

/-- The number of groups that are open after an item, if so many are open before it.  A closing
parenthesis closes no group where none is open. -/
def Item.depthAfter (depth : Nat) : Item → Nat
  | .ok token =>
    if token.kind.isOpening then depth + 1
    else if token.kind = .closeParen then depth - 1
    else depth
  | .error _ => depth

/-- The number of groups that are open after some items. -/
def Item.depthAfterAll (depth : Nat) (items : List Item) : Nat :=
  items.foldl Item.depthAfter depth

namespace Item

/-- An opening parenthesis opens a group. -/
theorem depthAfter_open {token : Token} (h : token.kind = .openParen) (depth : Nat) :
    Item.depthAfter depth (.ok token) = depth + 1 := by
  simp [Item.depthAfter, h, TokenKind.isOpening]

/-- A closing parenthesis closes a group. -/
theorem depthAfter_close {token : Token} (h : token.kind = .closeParen) (depth : Nat) :
    Item.depthAfter depth (.ok token) = depth - 1 := by
  simp [Item.depthAfter, h, TokenKind.isOpening]

/-- A token that is no parenthesis opens and closes nothing. -/
theorem depthAfter_of_ne {token : Token} (hopen : token.kind.isOpening = false)
    (hclose : token.kind ≠ .closeParen) (depth : Nat) :
    Item.depthAfter depth (.ok token) = depth := by
  simp [Item.depthAfter, hopen, hclose]

/-- An atom opens and closes nothing. -/
theorem depthAfter_atom {token : Token} (h : token.kind.isAtom = true) (depth : Nat) :
    Item.depthAfter depth (.ok token) = depth := by
  apply depthAfter_of_ne
  · cases hkind : token.kind <;> simp_all [TokenKind.isAtom, TokenKind.isOpening]
  · intro hkind
    simp [hkind, TokenKind.isAtom] at h

end Item

/-! ## What one token does to an expectation -/

/-- A step leaves so many groups open: it moves on within a form, it completes a form with all
groups closed, or it rejects the token that it was taken with. -/
inductive Step.Leaves (token : Token) (depth : Nat) : Step → Prop
  | next {expectation : Expectation} (hdepth : expectation.depth = depth)
    (hstart : expectation ≠ .start) : Leaves token depth (.next expectation)
  | form {form : Form} (hdepth : depth = 0) : Leaves token depth (.form form)
  | unexpected : Leaves token depth (.reject (.unexpected token))
  | expected (kind : TokenKind) : Leaves token depth (.reject (.expected kind token))

namespace Expectation

/-- Filling a place leaves open what was open there. -/
theorem fill_leaves (token : Token) (place : Place) (expression : Expression) :
    (place.fill expression).Leaves token place.depth := by
  cases place with
  | form => exact .form rfl
  | _ => exact .next rfl (by simp [start])

/-- Filling a place for a datum leaves open what was open there. -/
theorem fillDatum_leaves (token : Token) (place : DatumPlace) (datum : Datum) :
    (place.fill datum).Leaves token place.depth := by
  cases place with
  | afterMark outer => exact fill_leaves token outer _
  | _ => exact .next rfl (by simp [start])

/-- The start of an expression opens what its token does. -/
theorem startExpression_leaves (place : Place) (token : Token) :
    (place.startExpression token).Leaves token (Item.depthAfter place.depth (.ok token)) := by
  unfold Place.startExpression
  split
  next h =>
    rw [Item.depthAfter_open h]
    exact .next rfl (by simp [start])
  next h =>
    rw [Item.depthAfter_of_ne (by simp [h, TokenKind.isOpening]) (by simp [h])]
    exact .next rfl (by simp [start])
  next =>
    split
    next h =>
      rw [Item.depthAfter_atom h]
      exact fill_leaves token place _
    next => exact .unexpected

/-- The start of a datum opens what its token does. -/
theorem startDatum_leaves (place : DatumPlace) (token : Token) :
    (place.startDatum token).Leaves token (Item.depthAfter place.depth (.ok token)) := by
  unfold DatumPlace.startDatum
  split
  next h =>
    rw [Item.depthAfter_open h]
    exact .next rfl (by simp [start])
  next =>
    split
    next h =>
      rw [Item.depthAfter_atom h]
      exact fillDatum_leaves token place _
    next => exact .unexpected

/-- The start of a construct opens what its token does, within its parenthesis. -/
theorem startConstruct_leaves (place : Place) (token : Token) :
    (place.startConstruct token).Leaves token
      (Item.depthAfter (place.depth + 1) (.ok token)) := by
  unfold Place.startConstruct
  split
  case h_5 => exact startExpression_leaves (.head _) token
  all_goals
    rename_i h
    rw [Item.depthAfter_of_ne (by simp [h, TokenKind.isOpening]) (by simp [h])]
    exact .next rfl (by simp [start])

/-- A token that is required is either there or rejected. -/
theorem require_leaves {kind : TokenKind} {token : Token} {step : Step} {depth : Nat}
    (h : token.kind = kind → step.Leaves token depth) :
    (require kind token step).Leaves token depth := by
  unfold require
  split
  next hkind => exact h hkind
  next => exact .expected kind

/-- A token keeps the count of the open groups, completes a form where no group is open any
more, or is rejected. -/
theorem step_leaves (expectation : Expectation) (token : Token) :
    (expectation.step token).Leaves token
      (Item.depthAfter expectation.depth (.ok token)) := by
  cases expectation with
  | expression place => exact startExpression_leaves place token
  | opened place => exact startConstruct_leaves place token
  | name =>
    apply require_leaves
    intro h
    rw [Item.depthAfter_atom (by simp [h, TokenKind.isAtom])]
    exact .next rfl (by simp [start])
  | more row outer =>
    simp only [step]
    split
    next => exact startExpression_leaves (.element row outer) token
    next =>
      apply require_leaves
      intro h
      rw [Item.depthAfter_close h]
      exact fill_leaves token outer _
  | formalsOpen place =>
    apply require_leaves
    intro h
    rw [Item.depthAfter_open h]
    exact .next rfl (by simp [start])
  | formals read place =>
    simp only [step]
    split
    next h =>
      rw [Item.depthAfter_atom (by simp [h, TokenKind.isAtom])]
      exact .next rfl (by simp [start])
    next =>
      apply require_leaves
      intro h
      rw [Item.depthAfter_close h]
      exact .next rfl (by simp [start])
  | datum place => exact startDatum_leaves place token
  | items read place =>
    simp only [step]
    split
    next => exact startDatum_leaves (.item read place) token
    next =>
      apply require_leaves
      intro h
      rw [Item.depthAfter_close h]
      exact fillDatum_leaves token place _
  | close whole place =>
    apply require_leaves
    intro h
    rw [Item.depthAfter_close h]
    exact fill_leaves token place _
  | closeDefinition name value =>
    apply require_leaves
    intro h
    rw [Item.depthAfter_close h]
    exact .form rfl

/-- The end of a source is rejected whatever is expected. -/
theorem step_endOfSource (expectation : Expectation) (finish : Position) :
    ∃ error, expectation.step (.endOfSource finish) = .reject error :=
  expectation.step_end rfl

/-- No group is open only before a form and after a quote mark that a form begins with. -/
theorem depth_eq_zero_iff (expectation : Expectation) :
    expectation.depth = 0 ↔
      expectation = start ∨ expectation = .datum (.afterMark .form) := by
  have hplace (place : Place) : place.depth = 0 ↔ place = .form := by
    cases place <;> simp [Place.depth]
  have hdatum (place : DatumPlace) : place.depth = 0 ↔ place = .afterMark .form := by
    cases place <;> simp [DatumPlace.depth, hplace]
  cases expectation <;> simp [depth, start, hplace, hdatum]

end Expectation

end MiniScheme

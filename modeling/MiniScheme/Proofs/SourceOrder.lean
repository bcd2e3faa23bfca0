import MiniScheme.Token.Stream

/-!
# Items stand in the order of their positions

Positions are ordered by line and then by column.  Walking over text leads forward, and no
lexeme is empty, so that the items of a source stand at strictly increasing positions, all of
them before the end.

Main results:

- Theorem `Position.lt_advance`: every piece of text leads forward.
- Theorem `Cursor.pairwise_items`: the positions of items increase strictly.
-/

namespace MiniScheme

/-! ## The order of positions -/

namespace Position

/-- A place on an earlier line, or earlier on the same line. -/
instance : LT Position where
  lt first second :=
    first.line < second.line ∨ first.line = second.line ∧ first.column < second.column

/-- A place on an earlier line, or not later on the same line. -/
instance : LE Position where
  le first second :=
    first.line < second.line ∨ first.line = second.line ∧ first.column ≤ second.column

/-- A place is before another on an earlier line, or further left on the same line. -/
theorem lt_iff (first second : Position) :
    first < second ↔
      first.line < second.line ∨ first.line = second.line ∧ first.column < second.column :=
  Iff.rfl

/-- A place is not behind another on an earlier line, or no further right on the same line. -/
theorem le_iff (first second : Position) :
    first ≤ second ↔
      first.line < second.line ∨ first.line = second.line ∧ first.column ≤ second.column :=
  Iff.rfl

/-- No place is behind itself. -/
theorem le_refl (position : Position) : position ≤ position := by
  simp [le_iff]

/-- A place before another is not behind it. -/
theorem le_of_lt {first second : Position} (h : first < second) : first ≤ second := by
  rw [lt_iff] at h
  rw [le_iff]
  omega

/-- A place before another is before all that are not before that one. -/
theorem lt_of_lt_of_le {first second third : Position} (h : first < second)
    (h' : second ≤ third) : first < third := by
  rw [lt_iff] at h ⊢
  rw [le_iff] at h'
  omega

/-- Places that follow one another are in order. -/
theorem le_trans {first second third : Position} (h : first ≤ second) (h' : second ≤ third) :
    first ≤ third := by
  rw [le_iff] at h h' ⊢
  omega

/-- A character leads to a later place. -/
theorem lt_next (position : Position) (c : Char) : position < position.next c := by
  rw [lt_iff, next]
  split
  · simp
  · simp

/-- No text leads back. -/
theorem le_advance (position : Position) (text : List Char) :
    position ≤ position.advance text := by
  induction text generalizing position with
  | nil => exact le_refl position
  | cons c text ih =>
    rw [advance_cons]
    exact le_trans (le_of_lt (position.lt_next c)) (ih _)

/-- Every piece of text leads forward. -/
theorem lt_advance (position : Position) {text : List Char} (h : text ≠ []) :
    position < position.advance text := by
  cases text with
  | nil => exact absurd rfl h
  | cons c text =>
    rw [advance_cons]
    exact lt_of_lt_of_le (position.lt_next c) (le_advance _ text)

end Position

/-! ## The order of items -/

/-- The place of an item. -/
def Item.position : Item → Position
  | .ok token => token.position
  | .error error => error.position

/-- The item of a lexeme stands where the lexeme begins. -/
@[simp]
theorem Lexeme.position_item (lexeme : Lexeme) (position : Position) :
    (lexeme.item position).position = position := by
  unfold item
  split <;> rfl

namespace Cursor

/-- An item stands where the cursor is or further on, and the cursor is behind it afterwards. -/
theorem position_next {cursor : Cursor} (h : cursor.next.1.isEnd = false) :
    cursor.position ≤ cursor.next.1.position ∧
      cursor.next.1.position < cursor.next.2.position := by
  unfold next at h ⊢
  split at h
  next => simp [Item.isEnd, Token.endOfSource] at h
  next c text _ =>
    rw [Lexeme.position_item]
    exact ⟨Position.le_advance _ _, Position.lt_advance _ (Lexeme.read_ne_nil c text)⟩

/-- No cursor is behind the end of its source. -/
theorem position_le_finish (cursor : Cursor) : cursor.position ≤ cursor.finish :=
  Position.le_advance _ _

/-- Every item stands between the cursor and the end. -/
theorem position_of_mem_items {cursor : Cursor} {item : Item} (h : item ∈ cursor.items) :
    cursor.position ≤ item.position ∧ item.position < cursor.finish := by
  fun_induction items cursor with
  | case1 => simp at h
  | case2 cursor hend ih =>
    obtain ⟨hbefore, hafter⟩ := position_next (by simpa using hend)
    rcases List.mem_cons.1 h with rfl | h
    · refine ⟨hbefore, Position.lt_of_lt_of_le hafter ?_⟩
      rw [← cursor.finish_next]
      exact position_le_finish _
    · obtain ⟨hle, hlt⟩ := ih h
      rw [cursor.finish_next] at hlt
      exact ⟨Position.le_trans hbefore (Position.le_trans (Position.le_of_lt hafter) hle), hlt⟩

/-- The positions of items increase strictly. -/
theorem pairwise_items (cursor : Cursor) :
    cursor.items.Pairwise fun first second => first.position < second.position := by
  fun_induction items cursor with
  | case1 => exact .nil
  | case2 cursor hend ih =>
    obtain ⟨-, hafter⟩ := position_next (by simpa using hend)
    refine .cons ?_ ih
    intro item hitem
    exact Position.lt_of_lt_of_le hafter (position_of_mem_items hitem).1

end Cursor

end MiniScheme

import MiniScheme.Token.Stream

/-!
# The items after a cursor

What a cursor yields next depends on what follows the gap that it stands before: either the
text ends there, or a lexeme does not.

Main results:

- Theorem `Cursor.items_of_pastGap_cons`: the first item is the lexeme after the gap, and the
  others are those after that lexeme.
- Theorem `Cursor.isEnd_of_mem_items`: the end is none of the items.
-/

namespace MiniScheme

/-- Whether an item is a lexical error with a fault. -/
def Item.hasFault (fault : LexicalFault) : Item → Bool
  | .ok _ => false
  | .error error => error.fault = fault

/-- An item has the fault of its lexeme. -/
theorem Lexeme.hasFault_item (fault : LexicalFault) (lexeme : Lexeme) (position : Position) :
    (lexeme.item position).hasFault fault = true ↔ lexeme.reading = .fault fault := by
  unfold item
  split
  next h => simp [h, Item.hasFault]
  next h => simp [h, Item.hasFault]

namespace Cursor

/-- Behind the last gap comes the end. -/
theorem next_of_pastGap_nil {cursor : Cursor} (h : cursor.pastGap.rest = []) :
    cursor.next = (.ok (.endOfSource cursor.pastGap.position), cursor.pastGap) := by
  rw [next, h]

/-- Behind any other gap comes a lexeme, and the cursor goes past it. -/
theorem next_of_pastGap_cons {cursor : Cursor} {c : Char} {text : List Char}
    (h : cursor.pastGap.rest = c :: text) :
    cursor.next = ((Lexeme.read c text).item cursor.pastGap.position,
      cursor.pastGap.past (Lexeme.read c text).text) := by
  rw [next, h]

/-- Behind the last gap there are no items. -/
theorem items_of_pastGap_nil {cursor : Cursor} (h : cursor.pastGap.rest = []) :
    cursor.items = [] := by
  apply items_of_isEnd
  rw [next_of_pastGap_nil h]
  rfl

/-- Behind any other gap there is the item of a lexeme, and then those that come after it. -/
theorem items_of_pastGap_cons {cursor : Cursor} {c : Char} {text : List Char}
    (h : cursor.pastGap.rest = c :: text) :
    cursor.items = (Lexeme.read c text).item cursor.pastGap.position ::
      (cursor.pastGap.past (Lexeme.read c text).text).items := by
  have hnext := next_of_pastGap_cons h
  have hend : cursor.next.1.isEnd = false := by
    rw [hnext]
    exact Lexeme.item_not_end c text _
  rw [items_of_next hend, hnext]

/-- An item is next exactly where the text does not end after the gap. -/
theorem isEnd_next (cursor : Cursor) :
    cursor.next.1.isEnd = true ↔ cursor.pastGap.rest = [] := by
  cases h : cursor.pastGap.rest with
  | nil =>
    rw [next_of_pastGap_nil h]
    exact iff_of_true rfl rfl
  | cons c text =>
    rw [next_of_pastGap_cons h]
    simp [Lexeme.item_not_end]

/-- Where no text is left there is only the end. -/
theorem next_of_rest_nil {cursor : Cursor} (h : cursor.rest = []) :
    cursor.next = (.ok (.endOfSource cursor.position), cursor) := by
  obtain ⟨rest, position⟩ := cursor
  subst h
  rfl

/-- Where nothing is left there are no items. -/
theorem items_of_rest_nil {cursor : Cursor} (h : cursor.rest = []) : cursor.items = [] := by
  apply items_of_isEnd
  rw [next_of_rest_nil h]
  rfl

/-- No text is left after the end. -/
theorem rest_next_of_isEnd {cursor : Cursor} (h : cursor.next.1.isEnd = true) :
    cursor.next.2.rest = [] := by
  have hgap := cursor.isEnd_next.1 h
  rw [next_of_pastGap_nil hgap]
  exact hgap

/-- The end is none of the items. -/
theorem isEnd_of_mem_items {cursor : Cursor} {item : Item} (h : item ∈ cursor.items) :
    item.isEnd = false := by
  fun_induction items cursor with
  | case1 => simp at h
  | case2 cursor hend ih =>
    rcases List.mem_cons.1 h with rfl | h
    · simpa using hend
    · exact ih h

end Cursor

end MiniScheme

import Mathlib.Data.List.Induction
import MiniScheme.Proofs.Tiling
import MiniScheme.Text.LineTable

/-!
# Places by the table of lines

A cursor moves a place along, character by character.  The table of lines finds the same place from
the byte that the cursor is at, whatever the width of the characters: for each item of a source,
and for its end.  No look-up fails.

The lines of a text and those of the text behind it are apart in the table, as the former start at
the latest where the latter text begins; so the number of a line is that of the newlines before it.

Main results:

- Theorem `LineTable.pairwise_starts`: the lines of a table are in order.
- Theorem `LineTable.position?_append`: the table gives the place behind any text that the source
  begins with.
- Theorem `TokenStream.position?_after`: however many items have been read, the table gives the
  place of the next one.
-/

namespace MiniScheme

/-! ## Bytes of texts -/

/-- An empty text takes no bytes. -/
@[simp]
theorem byteLength_nil : byteLength [] = 0 :=
  rfl

/-- A text takes the bytes of its first character and of those behind it. -/
@[simp]
theorem byteLength_cons (c : Char) (text : List Char) :
    byteLength (c :: text) = c.utf8Size + byteLength text :=
  rfl

/-- Two texts in a row have the bytes of both. -/
@[simp]
theorem byteLength_append (first second : List Char) :
    byteLength (first ++ second) = byteLength first + byteLength second := by
  induction first with
  | nil => simp
  | cons c first ih => simp [ih, Nat.add_assoc]

/-- A text that is not empty has some bytes, which the first character and those behind it share. -/
theorem exists_byteLength_cons (c : Char) (text : List Char) :
    ∃ n, byteLength (c :: text) = n + 1 ∧ c.utf8Size ≤ n + 1 ∧
      n + 1 - c.utf8Size = byteLength text := by
  have hpositive := c.utf8Size_pos
  refine ⟨c.utf8Size + byteLength text - 1, ?_, ?_, ?_⟩
  · rw [byteLength_cons]
    omega
  all_goals omega

/-- The first of two texts in a row is found by its bytes. -/
theorem takeBytes?_append (first second : List Char) :
    takeBytes? (byteLength first) (first ++ second) = some first := by
  induction first with
  | nil => simp [takeBytes?]
  | cons c first ih =>
    obtain ⟨n, hbytes, hfits, hrest⟩ := exists_byteLength_cons c first
    rw [hbytes, List.cons_append, takeBytes?, if_pos hfits, hrest, ih]
    rfl

/-- The second of two texts in a row is found by the bytes of the first. -/
theorem dropBytes?_append (first second : List Char) :
    dropBytes? (byteLength first) (first ++ second) = some second := by
  induction first with
  | nil => simp [dropBytes?]
  | cons c first ih =>
    obtain ⟨n, hbytes, hfits, hrest⟩ := exists_byteLength_cons c first
    rw [hbytes, List.cons_append, dropBytes?, if_pos hfits, hrest, ih]

/-- A text between two others is found by the bytes in front of it and behind it. -/
theorem sliceBytes?_append (before text after : List Char) :
    sliceBytes? (before ++ text ++ after) (byteLength before) (byteLength (before ++ text)) =
      some text := by
  have hbytes : byteLength (before ++ text) - byteLength before = byteLength text := by simp
  rw [sliceBytes?, hbytes, List.append_assoc, dropBytes?_append]
  exact takeBytes?_append text after

namespace LineTable

/-! ## Where lines start -/

/-- The lines of two texts in a row are those of the first and then those of the second. -/
theorem startsFrom_append (byte : Nat) (first second : List Char) :
    startsFrom byte (first ++ second) =
      startsFrom byte first ++ startsFrom (byte + byteLength first) second := by
  induction first generalizing byte with
  | nil => simp [startsFrom]
  | cons c first ih =>
    rw [List.cons_append, startsFrom, startsFrom]
    split
    next hc =>
      subst hc
      have hbyte : byte + byteLength ('\n' :: first) = byte + 1 + byteLength first := by
        rw [byteLength_cons, ← Nat.add_assoc]
        rfl
      rw [ih, hbyte, List.cons_append]
    next => rw [ih, byteLength_cons, Nat.add_assoc]

/-- Lines start behind the byte where their text begins, and not behind its end. -/
theorem mem_startsFrom {byte start : Nat} {text : List Char} (h : start ∈ startsFrom byte text) :
    byte < start ∧ start ≤ byte + byteLength text := by
  induction text generalizing byte with
  | nil => cases h
  | cons c text ih =>
    rw [startsFrom] at h
    split at h
    next hc =>
      subst hc
      have hsize : '\n'.utf8Size = 1 := rfl
      rcases List.mem_cons.1 h with rfl | h
      · simp only [byteLength_cons]
        omega
      · have := ih h
        simp only [byteLength_cons]
        omega
    next =>
      have := ih h
      simp only [byteLength_cons]
      omega

/-- The lines of a text are in order. -/
theorem pairwise_startsFrom (byte : Nat) (text : List Char) :
    (startsFrom byte text).Pairwise (· < ·) := by
  induction text generalizing byte with
  | nil => exact .nil
  | cons c text ih =>
    rw [startsFrom]
    split
    next => exact .cons (fun start hstart => (mem_startsFrom hstart).1) (ih _)
    next => exact ih _

/-- The lines of a table are in order. -/
theorem pairwise_starts (text : List Char) : (ofText text).starts.Pairwise (· < ·) :=
  .cons (fun _ hstart => (mem_startsFrom hstart).1) (pairwise_startsFrom 0 text)

/-- Each newline starts a line. -/
theorem length_startsFrom (byte : Nat) (text : List Char) :
    (startsFrom byte text).length = text.count '\n' := by
  induction text generalizing byte with
  | nil => rfl
  | cons c text ih =>
    rw [startsFrom]
    split
    next hc => simp [hc, ih]
    next hc => rw [List.count_cons_of_ne hc, ih]

/-! ## Looking places up -/

/-- The lines of a text that goes on are those of its beginning and then those behind it. -/
theorem starts_append (before after : List Char) :
    (ofText (before ++ after)).starts =
      (ofText before).starts ++ startsFrom (byteLength before) after := by
  simp [ofText, startsFrom_append]

/-- The lines that do not start behind a text are those of the text. -/
theorem takeWhile_starts (before after : List Char) :
    (ofText (before ++ after)).starts.takeWhile (· ≤ byteLength before) =
      (ofText before).starts := by
  have hbefore : ∀ start ∈ (ofText before).starts, decide (start ≤ byteLength before) = true := by
    intro start hstart
    rcases List.mem_cons.1 hstart with rfl | hstart
    · simp
    · simpa using (mem_startsFrom hstart).2
  have hafter : (startsFrom (byteLength before) after).takeWhile (· ≤ byteLength before) = [] := by
    cases hstarts : startsFrom (byteLength before) after with
    | nil => rfl
    | cons start starts =>
      have hstart := (mem_startsFrom (hstarts ▸ List.mem_cons_self)).1
      exact List.takeWhile_cons_of_neg (by simpa using hstart)
  rw [starts_append, List.takeWhile_append_of_pos hbefore, hafter, List.append_nil]

/-- The last line of a text: where it starts, and what is in it. -/
theorem exists_lastLine (text : List Char) :
    ∃ front line, text = front ++ line ∧
      (ofText text).starts.getLast? = some (byteLength front) ∧
      line.length = (text.reverse.takeWhile (· ≠ '\n')).length := by
  induction text using List.reverseRecOn with
  | nil => exact ⟨[], [], rfl, rfl, rfl⟩
  | append_singleton text c ih =>
    obtain ⟨front, line, htext, hlast, hline⟩ := ih
    by_cases hc : c = '\n'
    · subst hc
      refine ⟨text ++ ['\n'], [], (List.append_nil _).symm, ?_, by simp⟩
      rw [starts_append, startsFrom, if_pos rfl, startsFrom, List.getLast?_concat,
        byteLength_append]
      rfl
    · refine ⟨front, line ++ [c], by rw [htext, List.append_assoc], ?_, by simp [hc, hline]⟩
      rw [starts_append, startsFrom, if_neg hc, startsFrom, List.append_nil, hlast]

/-- The table gives the place behind any text that the source begins with. -/
theorem position?_append (before after : List Char) :
    (ofText (before ++ after)).position? (byteLength before) =
      some (Position.behind before) := by
  obtain ⟨front, line, hbefore, hlast, hline⟩ := exists_lastLine before
  have hlength : (ofText (before ++ after)).line (byteLength before) =
      (ofText before).starts.length := by
    rw [LineTable.line, takeWhile_starts]
  have hnumber : (ofText before).starts.length = 1 + before.count '\n' := by
    rw [ofText, List.length_cons, length_startsFrom, Nat.add_comm]
  have hstart : (ofText (before ++ after)).starts[(ofText before).starts.length - 1]? =
      some (byteLength front) := by
    rw [starts_append, List.getElem?_append_left (by omega), ← List.getLast?_eq_getElem?, hlast]
  have hpiece : sliceBytes? (before ++ after) (byteLength front) (byteLength before) =
      some line := by
    rw [hbefore]
    exact sliceBytes?_append front line after
  rw [position?, hlength, hstart]
  simp only [Option.bind_eq_bind, Option.bind_some]
  rw [show (ofText (before ++ after)).text = before ++ after from rfl, hpiece]
  simp only [Option.bind_some, Position.behind, hnumber, hline, Nat.add_comm]
  rfl

end LineTable

/-! ## The places of items -/

namespace Cursor

/-- A cursor is in a source, at the place behind what it has passed. -/
def IsIn (cursor : Cursor) (source : List Char) : Prop :=
  ∃ before, source = before ++ cursor.rest ∧ cursor.position = Position.behind before

variable {cursor : Cursor} {source : List Char}

/-- The cursor of a source is in it. -/
theorem isIn_ofSource (source : String) : (ofSource source).IsIn source.toList :=
  ⟨[], rfl, rfl⟩

/-- A cursor stays in its source when it passes a text that is in front of it. -/
theorem IsIn.past (h : cursor.IsIn source) {text : List Char} (htext : text <+: cursor.rest) :
    (cursor.past text).IsIn source := by
  obtain ⟨before, hsource, hposition⟩ := h
  obtain ⟨rest, hrest⟩ := htext
  refine ⟨before ++ text, ?_, ?_⟩
  · rw [hsource, Cursor.past, ← hrest, List.drop_left, List.append_assoc]
  · rw [Cursor.past, hposition, Position.advance_behind]

/-- A cursor stays in its source when it passes a gap. -/
theorem IsIn.pastGap (h : cursor.IsIn source) : cursor.pastGap.IsIn source :=
  h.past (leadingGap_isPrefix _ _)

/-- A cursor stays in its source when it passes an item. -/
theorem IsIn.next (h : cursor.IsIn source) : cursor.next.2.IsIn source := by
  unfold Cursor.next
  split
  next => exact h.pastGap
  next c text hrest => exact h.pastGap.past (hrest ▸ Lexeme.read_isPrefix c text)

/-- The table gives the place of a cursor in its source. -/
theorem IsIn.position?_eq (h : cursor.IsIn source) :
    (LineTable.ofText source).position? (byteLength source - byteLength cursor.rest) =
      some cursor.position := by
  obtain ⟨before, hsource, hposition⟩ := h
  have hbyte : byteLength source - byteLength cursor.rest = byteLength before := by
    rw [hsource, byteLength_append, Nat.add_sub_cancel]
  rw [hbyte, hposition, hsource]
  exact LineTable.position?_append before cursor.rest

/-- An item is where the gap in front of it ends. -/
theorem position_item_next (cursor : Cursor) :
    cursor.next.1.position = cursor.pastGap.position := by
  unfold next
  split
  next => rfl
  next => exact Lexeme.position_item _ _

end Cursor

namespace TokenStream

/-- However many items have been read of a source, the stream has none to give back and its cursor
is in the source. -/
theorem isIn_after {cursor : Cursor} {source : List Char} (h : cursor.IsIn source) (n : Nat) :
    (after ⟨[], cursor⟩ n).returned = [] ∧ (after ⟨[], cursor⟩ n).cursor.IsIn source := by
  induction n generalizing cursor with
  | zero => exact ⟨rfl, h⟩
  | succ n ih => exact ih h.next

/-- However many items have been read of a source, the table of its lines gives the place of the
next one, also when this is the end, from the byte behind the gap in front of it. -/
theorem position?_after (source : String) (n : Nat) :
    let stream := (ofSource source).after n
    (LineTable.ofText source.toList).position?
        (byteLength source.toList - byteLength stream.cursor.pastGap.rest) =
      some stream.next.1.position := by
  intro stream
  obtain ⟨hreturned, hcursor⟩ := isIn_after (Cursor.isIn_ofSource source) n
  have hnext : stream.next.1 = stream.cursor.next.1 := by
    rw [next, show stream.returned = [] from hreturned]
  rw [hnext, Cursor.position_item_next]
  exact hcursor.pastGap.position?_eq

end TokenStream

end MiniScheme

import MiniScheme.Proofs.EntryScan

/-!
# The balance of an entry is that of its tokens

The console keeps asking for lines while the balance of its buffer says that the entry is
unfinished.  The buffer never reads the text that it holds, and still its balance is that of the
items of this text, whatever has been pushed or cleared before.

Main results:

- Theorem `EntryBuffer.push_balance`: when a line is pushed, the balance that decides about the
  entry is that of the items of the text.
-/

namespace MiniScheme

/-- A line as the console takes it. -/
structure Line where
  text : String
  noNewline : '\n' ∉ text.toList

namespace EntryBuffer

/-! ## Operations -/

/-- What is done to a buffer. -/
inductive Operation
  | push (line : Line)
  | clear

/-- The buffer after an operation. -/
def apply (buffer : EntryBuffer) : Operation → EntryBuffer
  | .push line => (buffer.push line.text).2
  | .clear => empty

/-- The buffer after operations on an empty one. -/
def run (operations : List Operation) : EntryBuffer :=
  operations.foldl apply empty

/-- The balance of a buffer is that of its lines one by one. -/
structure Consistent (buffer : EntryBuffer) : Prop where
  noNewline : ∀ line ∈ buffer.lines, '\n' ∉ line.toList
  balance_eq : buffer.balance =
    buffer.lines.foldl (fun balance line => balance.scan line.toList) .even

/-- An empty buffer is consistent. -/
theorem consistent_empty : empty.Consistent where
  noNewline := by simp [empty]
  balance_eq := rfl

/-- A line keeps the balance that of the lines. -/
theorem Consistent.add {buffer : EntryBuffer} (h : buffer.Consistent) (line : Line) :
    (buffer.add line.text).Consistent where
  noNewline := by
    simp only [EntryBuffer.add, List.forall_mem_append, List.forall_mem_singleton]
    exact ⟨h.noNewline, line.noNewline⟩
  balance_eq := by
    simp only [EntryBuffer.add, List.foldl_append, List.foldl_cons, List.foldl_nil]
    rw [h.balance_eq]

/-- So does every operation. -/
theorem Consistent.apply {buffer : EntryBuffer} (h : buffer.Consistent) (operation : Operation) :
    (buffer.apply operation).Consistent := by
  cases operation with
  | clear => exact consistent_empty
  | push line =>
    simp only [EntryBuffer.apply, push_eq]
    split
    · exact h.add line
    · exact consistent_empty

/-- Whatever is done with a buffer, it stays consistent. -/
theorem consistent_run (operations : List Operation) : (run operations).Consistent := by
  suffices h : ∀ buffer : EntryBuffer, buffer.Consistent →
      (operations.foldl EntryBuffer.apply buffer).Consistent from h empty consistent_empty
  induction operations with
  | nil => exact fun buffer h => h
  | cons operation operations ih => exact fun buffer h => ih _ (h.apply operation)

/-! ## The text of a buffer -/

/-- The items of the lines joined by newlines. -/
def items (buffer : EntryBuffer) : List Item :=
  (Cursor.ofSource buffer.text).items

/-- The items leave a group or a string open. -/
def HasOpenItems (buffer : EntryBuffer) : Prop :=
  0 < groupBalance buffer.items ∨ endsInString buffer.items = true

/-- The balance of a buffer with lines is that of the items of its text. -/
theorem Consistent.balance_eq_items {buffer : EntryBuffer} (h : buffer.Consistent)
    (hne : buffer.lines ≠ []) :
    buffer.balance = ⟨groupBalance buffer.items, endsInString buffer.items⟩ := by
  have hlines := Scan.settled_run_lines .even hne h.noNewline
  have hitems := Scan.settled_run_rest 0 (Cursor.ofSource buffer.text)
  rw [h.balance_eq, ← hlines]
  rw [Int.zero_add] at hitems
  exact hitems

/-- In a consistent buffer without lines nothing is open. -/
theorem Consistent.balance_of_isEmpty {buffer : EntryBuffer} (h : buffer.Consistent)
    (hempty : buffer.isEmpty = true) : buffer.balance = .even := by
  rw [h.balance_eq, List.isEmpty_iff.1 hempty]
  rfl

/-- A line is kept exactly where it leaves the entry open, and what was kept is dropped
otherwise. -/
theorem push_eq_iff (buffer : EntryBuffer) (line : String) :
    (buffer.push line = (none, buffer.add line) ↔ (buffer.add line).balance.isOpen = true) ∧
      ((buffer.push line).2 = empty ↔ (buffer.add line).balance.isOpen = false) := by
  have hadd : buffer.add line ≠ empty := by
    intro h
    simpa [add, empty] using congrArg EntryBuffer.lines h
  cases hopen : (buffer.add line).balance.isOpen with
  | true => simp [push, hopen, hadd]
  | false =>
    have hpush := push_eq buffer line
    rw [hopen] at hpush
    refine ⟨?_, by simp [hpush]⟩
    simp only [Bool.false_eq_true, iff_false]
    intro h
    rw [h] at hpush
    exact hadd hpush

/-- In every state that a console reaches, the balance that decides about an entry is that of
the items of its text, so that the console asks for another line exactly where these leave a
group or a string open; and where no lines are kept, nothing is open. -/
theorem push_balance (operations : List Operation) (line : Line) :
    ((run operations).add line.text).depth = groupBalance ((run operations).add line.text).items ∧
      ((run operations).add line.text).balance.inString =
        endsInString ((run operations).add line.text).items ∧
      ((run operations).push line.text = (none, (run operations).add line.text) ↔
        ((run operations).add line.text).HasOpenItems) ∧
      (((run operations).push line.text).2 = empty ↔
        ¬((run operations).add line.text).HasOpenItems) ∧
      ((run operations).isEmpty = true →
        (run operations).depth = 0 ∧ (run operations).balance.inString = false) := by
  have hbuffer : (run operations).Consistent := consistent_run operations
  generalize run operations = buffer at hbuffer
  have hbalance : (buffer.add line.text).balance =
      ⟨groupBalance (buffer.add line.text).items, endsInString (buffer.add line.text).items⟩ := by
    apply (hbuffer.add line).balance_eq_items
    simp [add]
  have hopen : (buffer.add line.text).balance.isOpen = true ↔
      (buffer.add line.text).HasOpenItems := by
    simp [hbalance, Balance.isOpen, HasOpenItems]
  obtain ⟨hkept, hdropped⟩ := buffer.push_eq_iff line.text
  refine ⟨by rw [depth, hbalance], by rw [hbalance], hkept.trans hopen, ?_, ?_⟩
  · rw [hdropped, ← hopen, Bool.not_eq_true]
  · intro hempty
    rw [depth, hbuffer.balance_of_isEmpty hempty]
    exact ⟨rfl, rfl⟩

end EntryBuffer

end MiniScheme

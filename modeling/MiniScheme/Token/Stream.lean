import MiniScheme.Token.Lexeme

/-!
# The items of a source

An item is a token or a lexical error.  A cursor walks over a source item by item, going on
after errors, and at the end it yields the end token as often as it is asked.  A token stream
is a cursor with a stack of tokens in front of it that were handed back.

Main results:

- Theorem `Cursor.finish_next`: whatever has been read, the source ends at the same place.
- Theorem `Cursor.items_of_next`: the items still to come are the next item followed by those
  that come after it.
- Theorem `TokenStream.size_next_lt`: reading an item other than the end leaves strictly less
  to read.
-/

namespace MiniScheme

/-- What a source consists of once its gaps are left out. -/
abbrev Item :=
  Except LexicalError Token

/-- Whether an item stands for the end of the source. -/
def Item.isEnd : Item → Bool
  | .ok token => token.kind = .endOfSource
  | .error _ => false

/-- The item that a lexeme at a position is. -/
def Lexeme.item (lexeme : Lexeme) (position : Position) : Item :=
  match lexeme.reading with
  | .token kind constant => .ok ⟨kind, String.ofList lexeme.text, constant, position⟩
  | .fault fault => .error ⟨fault, position⟩

/-- A lexeme is not the end of a source. -/
theorem Lexeme.item_not_end (c : Char) (text : List Char) (position : Position) :
    ((Lexeme.read c text).item position).isEnd = false := by
  unfold Lexeme.item
  split
  next kind constant h =>
    have hkind : kind ≠ .endOfSource := by
      rintro rfl
      exact Lexeme.read_ne_endOfSource c text constant h
    simp [Item.isEnd, hkind]
  next => rfl

/-! ## Cursors -/

/-- What is left of a source and where it starts. -/
structure Cursor where
  rest : List Char
  position : Position
deriving DecidableEq

namespace Cursor

/-- The cursor before the first character of a source. -/
def ofSource (source : String) : Cursor :=
  ⟨source.toList, .start⟩

/-- The cursor after a piece of text that the rest begins with. -/
def past (cursor : Cursor) (text : List Char) : Cursor :=
  ⟨cursor.rest.drop text.length, cursor.position.advance text⟩

/-- The cursor at the next lexeme, or at the end of the source. -/
def pastGap (cursor : Cursor) : Cursor :=
  cursor.past (leadingGap false cursor.rest)

/-- The next item and the cursor after it. -/
def next (cursor : Cursor) : Item × Cursor :=
  match cursor.pastGap.rest with
  | [] => (.ok (.endOfSource cursor.pastGap.position), cursor.pastGap)
  | c :: text =>
    let lexeme := Lexeme.read c text
    (lexeme.item cursor.pastGap.position, cursor.pastGap.past lexeme.text)

/-- The place where the source ends. -/
def finish (cursor : Cursor) : Position :=
  cursor.position.advance cursor.rest

/-- Past a text no more is left than before. -/
theorem length_past_le (cursor : Cursor) (text : List Char) :
    (cursor.past text).rest.length ≤ cursor.rest.length := by
  simp [past]

/-- Past a gap no more is left than before. -/
theorem length_pastGap_le (cursor : Cursor) :
    cursor.pastGap.rest.length ≤ cursor.rest.length :=
  cursor.length_past_le _

/-- Reading a lexeme leaves strictly less text. -/
theorem length_past_read_lt {cursor : Cursor} {c : Char} {text : List Char}
    (h : cursor.pastGap.rest = c :: text) :
    (cursor.pastGap.past (Lexeme.read c text).text).rest.length < cursor.rest.length := by
  have hgap := cursor.length_pastGap_le
  have hlexeme : 0 < (Lexeme.read c text).text.length :=
    List.length_pos_iff.2 (Lexeme.read_ne_nil c text)
  simp only [past, List.length_drop]
  rw [h] at hgap ⊢
  simp only [List.length_cons] at hgap ⊢
  omega

/-- A source ends at the same place past a text that is in front. -/
theorem finish_past {cursor : Cursor} {text : List Char} (h : text <+: cursor.rest) :
    (cursor.past text).finish = cursor.finish := by
  unfold finish past
  conv => rhs; rw [← List.prefix_iff_eq_append.1 h]
  simp

/-- A source ends at the same place past a gap. -/
theorem finish_pastGap (cursor : Cursor) : cursor.pastGap.finish = cursor.finish :=
  finish_past (leadingGap_isPrefix _ _)

/-- Whatever has been read, the source ends at the same place. -/
theorem finish_next (cursor : Cursor) : cursor.next.2.finish = cursor.finish := by
  unfold next
  split
  next => exact cursor.finish_pastGap
  next c text h =>
    rw [← cursor.finish_pastGap]
    exact finish_past (h ▸ Lexeme.read_isPrefix c text)

/-- The end token stands where the source ends. -/
theorem next_of_isEnd {cursor : Cursor} (h : cursor.next.1.isEnd = true) :
    cursor.next.1 = .ok (.endOfSource cursor.finish) := by
  unfold next at h ⊢
  split at h
  next hrest =>
    rw [← cursor.finish_pastGap]
    simp [finish, hrest]
  next => simp [Lexeme.item_not_end] at h

/-- An item leaves no more text than there was. -/
theorem length_next_le (cursor : Cursor) :
    cursor.next.2.rest.length ≤ cursor.rest.length := by
  unfold next
  split
  next => exact cursor.length_pastGap_le
  next h => exact Nat.le_of_lt (length_past_read_lt h)

/-- An item other than the end leaves strictly less text. -/
theorem length_next_lt {cursor : Cursor} (h : cursor.next.1.isEnd = false) :
    cursor.next.2.rest.length < cursor.rest.length := by
  unfold next at h ⊢
  split at h
  next => simp [Item.isEnd, Token.endOfSource] at h
  next hrest => exact length_past_read_lt hrest

/-- The items that a source holds from a cursor on, without the end. -/
def items (cursor : Cursor) : List Item :=
  if _ : cursor.next.1.isEnd then []
  else cursor.next.1 :: cursor.next.2.items
termination_by cursor.rest.length
decreasing_by exact length_next_lt (Bool.eq_false_iff.2 ‹_›)

/-- No items come before the end. -/
theorem items_of_isEnd {cursor : Cursor} (h : cursor.next.1.isEnd = true) :
    cursor.items = [] := by
  rw [items, dif_pos h]

/-- The items still to come are the next item followed by those that come after it. -/
theorem items_of_next {cursor : Cursor} (h : cursor.next.1.isEnd = false) :
    cursor.items = cursor.next.1 :: cursor.next.2.items := by
  rw [items, dif_neg (by simp [h])]

end Cursor

/-! ## Token streams -/

/-- A cursor with the tokens in front of it that were handed back, the latest first. -/
structure TokenStream where
  returned : List Token
  cursor : Cursor
deriving DecidableEq

namespace TokenStream

/-- The stream of a source. -/
def ofSource (source : String) : TokenStream :=
  ⟨[], .ofSource source⟩

/-- The next item and the stream after it. -/
def next (stream : TokenStream) : Item × TokenStream :=
  match stream.returned with
  | token :: returned => (.ok token, ⟨returned, stream.cursor⟩)
  | [] => (stream.cursor.next.1, ⟨[], stream.cursor.next.2⟩)

/-- The stream that yields a token before all else. -/
def handBack (stream : TokenStream) (token : Token) : TokenStream :=
  ⟨token :: stream.returned, stream.cursor⟩

/-- The items that a stream is still to yield before it is at the end for good. -/
def items (stream : TokenStream) : List Item :=
  stream.returned.map .ok ++ stream.cursor.items

/-- How much is left to read; a returned end token counts for nothing. -/
def size (stream : TokenStream) : Nat :=
  stream.returned.countP (fun token => token.kind ≠ .endOfSource) + stream.cursor.rest.length

/-- A token that is handed back is the next one, and then all is as before. -/
@[simp]
theorem next_handBack (stream : TokenStream) (token : Token) :
    (stream.handBack token).next = (.ok token, stream) :=
  rfl

/-- A token that is handed back comes before all other items. -/
@[simp]
theorem items_handBack (stream : TokenStream) (token : Token) :
    (stream.handBack token).items = .ok token :: stream.items :=
  rfl

/-- The items of a source are those of its cursor. -/
@[simp]
theorem items_ofSource (source : String) :
    (ofSource source).items = (Cursor.ofSource source).items :=
  rfl

/-- Reading an item leaves no more to read. -/
theorem size_next_le (stream : TokenStream) : stream.next.2.size ≤ stream.size := by
  unfold next
  split
  next token returned h =>
    simp only [size, h, List.countP_cons]
    omega
  next h =>
    have := stream.cursor.length_next_le
    simpa [size, h] using this

/-- Reading an item other than the end leaves strictly less to read. -/
theorem size_next_lt (stream : TokenStream) (h : stream.next.1.isEnd = false) :
    stream.next.2.size < stream.size := by
  unfold next at h ⊢
  split at h
  next token returned hreturned =>
    have hkind : token.kind ≠ .endOfSource := by simpa [Item.isEnd] using h
    simp [size, hreturned, hkind]
  next hreturned =>
    have := Cursor.length_next_lt h
    simpa [size, hreturned] using this

/-- A token that is handed back adds at most itself to what is left. -/
theorem size_handBack_le (stream : TokenStream) (token : Token) :
    (stream.handBack token).size ≤ stream.size + 1 := by
  simp only [handBack, size, List.countP_cons]
  split <;> omega

/-- The end adds nothing to what is left when it is handed back. -/
theorem size_handBack_end {stream : TokenStream} {token : Token}
    (h : token.kind = .endOfSource) : (stream.handBack token).size = stream.size := by
  simp [handBack, size, h]

end TokenStream

/-- The items of a source, and last the end token. -/
def itemsWithEnd (source : String) : List Item :=
  let cursor := Cursor.ofSource source
  cursor.items ++ [.ok (.endOfSource cursor.finish)]

end MiniScheme

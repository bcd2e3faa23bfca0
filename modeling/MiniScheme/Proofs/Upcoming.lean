import Mathlib.Data.Stream.Init
import MiniScheme.Form.Reader
import MiniScheme.Proofs.Tiling

/-!
# What is to come

A token stream has a stack of tokens that were handed back, and two streams can hold the same
items in different ways: a token is in front of the one, and the other has it still to read.  What
matters to a reader is what is to come, which is an infinite sequence: the items that are left, and
then the end as often as it is asked for.

Main results:

- Theorem `TokenStream.upcoming_of_next`: an item is what was to come first, and what is to come
  after it is the rest.
- Theorem `TokenStream.upcoming_handBack`: handing a token back puts it in front again.
- Theorem `TokenStream.upcoming_eq`: a stream holds its items, those that were handed back first,
  and then the end for ever.
-/

namespace MiniScheme

namespace TokenStream

/-- All that a stream is to yield, the end as often as it is asked for. -/
def upcoming (stream : TokenStream) : Stream' Item :=
  Stream'.unfolds (fun stream => stream.next.1) (fun stream => stream.next.2) stream

variable {stream stream' rest : TokenStream} {item : Item}

/-- An item is what was to come first, and what is to come after it is the rest. -/
theorem upcoming_of_next (h : stream.next = (item, rest)) :
    stream.upcoming = Stream'.cons item rest.upcoming := by
  rw [upcoming, Stream'.unfolds_eq, h]
  rfl

/-- Handing a token back puts it in front again. -/
theorem upcoming_handBack (stream : TokenStream) (token : Token) :
    (stream.handBack token).upcoming = Stream'.cons (.ok token) stream.upcoming :=
  upcoming_of_next (next_handBack stream token)

/-- Handing back the token that was just read undoes the reading. -/
theorem upcoming_handBack_of_next {token : Token} (h : stream.next = (.ok token, rest)) :
    (rest.handBack token).upcoming = stream.upcoming := by
  rw [upcoming_handBack, upcoming_of_next h]

/-- The first item to come is the one that is read next. -/
@[simp]
theorem head_upcoming (stream : TokenStream) : stream.upcoming.head = stream.next.1 := by
  rw [upcoming_of_next (Prod.eta stream.next).symm, Stream'.head_cons]

/-- The items behind the first are to come when it has been read. -/
@[simp]
theorem tail_upcoming (stream : TokenStream) :
    stream.upcoming.tail = stream.next.2.upcoming := by
  rw [upcoming_of_next (Prod.eta stream.next).symm, Stream'.tail_cons]

/-- Streams with the same to come have the same item next. -/
theorem next_fst_congr (h : stream.upcoming = stream'.upcoming) :
    stream.next.1 = stream'.next.1 := by
  rw [← head_upcoming, ← head_upcoming, h]

/-- After that item they still have the same to come. -/
theorem upcoming_next_congr (h : stream.upcoming = stream'.upcoming) :
    stream.next.2.upcoming = stream'.next.2.upcoming := by
  rw [← tail_upcoming, ← tail_upcoming, h]

/-- What comes after some items is what the stream after these is to yield. -/
theorem get_upcoming (stream : TokenStream) (n : Nat) :
    stream.upcoming.get n = (stream.after n).next.1 := by
  induction n generalizing stream with
  | zero => exact head_upcoming stream
  | succ n ih => rw [Stream'.get_succ, tail_upcoming, ih, after]

/-- A stream to which nothing was handed back holds the items of its source, and then the end for
ever. -/
theorem upcoming_fresh (cursor : Cursor) :
    upcoming ⟨[], cursor⟩ =
      cursor.items ++ₛ Stream'.const (.ok (.endOfSource cursor.finish)) := by
  ext n
  rw [get_upcoming, result_after]
  rcases Nat.lt_or_ge n cursor.items.length with hn | hn
  · rw [Stream'.get_append_left _ _ _ hn, List.getElem?_eq_getElem hn, Option.getD_some]
  · obtain ⟨more, rfl⟩ := Nat.exists_eq_add_of_le hn
    rw [Stream'.get_append_right, List.getElem?_eq_none hn, Option.getD_none, Stream'.get_const]

/-- Any stream holds its items, those in front that were handed back first, and then the end for
ever. -/
theorem upcoming_eq (stream : TokenStream) :
    stream.upcoming =
      stream.items ++ₛ Stream'.const (.ok (.endOfSource stream.cursor.finish)) := by
  obtain ⟨returned, cursor⟩ := stream
  induction returned with
  | nil => exact upcoming_fresh cursor
  | cons token returned ih =>
    exact (upcoming_handBack ⟨returned, cursor⟩ token).trans
      (congrArg (Stream'.cons (.ok token)) ih)

end TokenStream

end MiniScheme

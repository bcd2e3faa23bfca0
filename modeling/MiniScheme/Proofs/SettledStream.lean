import MiniScheme.Proofs.CursorItems

/-!
# What a stream holds

A reader hands tokens back to its stream, but at most the one that it has read last.  A stream
is settled if it is as a reader can leave it behind: then it yields the items that it holds one
by one and at last the end of the source, which stands where it stood before.

Main results:

- Theorem `Settled.next_cases`: a settled stream yields what it holds, and at last the end.
- Theorem `Settled.handBack`: a token that was read last can be handed back.
-/

namespace MiniScheme

namespace TokenStream

/-- The items that a stream is still to yield before the end. -/
def pending (stream : TokenStream) : List Item :=
  stream.items.filter fun item => !item.isEnd

/-- The place where the source of a stream ends. -/
def finish (stream : TokenStream) : Position :=
  stream.cursor.finish

/-- The streams that a reader leaves behind: at most the token that was read last has been
handed back, and the end token only where the source has ended. -/
inductive Settled : TokenStream → Prop
  | fresh (cursor : Cursor) : Settled ⟨[], cursor⟩
  | returned (cursor : Cursor) {token : Token} (h : token.kind ≠ .endOfSource) :
    Settled ⟨[token], cursor⟩
  | ended (cursor : Cursor) (h : cursor.items = []) :
    Settled ⟨[.endOfSource cursor.finish], cursor⟩

/-- Where nothing is handed back the items to come are those of the cursor. -/
@[simp]
theorem pending_fresh (cursor : Cursor) :
    (⟨[], cursor⟩ : TokenStream).pending = cursor.items := by
  simp only [pending, items, List.map_nil, List.nil_append, List.filter_eq_self]
  intro item hitem
  simp [Cursor.isEnd_of_mem_items hitem]

/-- A token that is handed back is the first to come. -/
theorem pending_handBack (stream : TokenStream) {token : Token}
    (h : token.kind ≠ .endOfSource) :
    (stream.handBack token).pending = .ok token :: stream.pending := by
  simp [pending, Item.isEnd, h]

/-- The end of the source counts for nothing when it is handed back. -/
theorem pending_handBack_end (stream : TokenStream) {token : Token}
    (h : token.kind = .endOfSource) : (stream.handBack token).pending = stream.pending := by
  simp [pending, Item.isEnd, h]

/-- Whatever has been read, the source ends at the same place. -/
theorem finish_next (stream : TokenStream) : stream.next.2.finish = stream.finish := by
  unfold next
  split
  next => rfl
  next => exact stream.cursor.finish_next

/-- Reading leaves nothing handed back. -/
theorem Settled.returned_next {stream : TokenStream} (h : stream.Settled) :
    stream.next.2.returned = [] := by
  cases h <;> rfl

/-- A settled stream yields what it holds, and at last the end. -/
theorem Settled.next_cases {stream : TokenStream} (h : stream.Settled) :
    (stream.pending = [] ∧ stream.next.1 = .ok (.endOfSource stream.finish) ∧
        stream.next.2.pending = []) ∨
      (stream.next.1.isEnd = false ∧ stream.pending = stream.next.1 :: stream.next.2.pending) := by
  cases h with
  | fresh cursor =>
    cases hend : cursor.next.1.isEnd with
    | true =>
      left
      have hrest : cursor.next.2.items = [] :=
        Cursor.items_of_rest_nil (Cursor.rest_next_of_isEnd hend)
      exact ⟨by simp [Cursor.items_of_isEnd hend], Cursor.next_of_isEnd hend,
        by simp [next, hrest]⟩
    | false =>
      right
      exact ⟨hend, by simp [next, Cursor.items_of_next hend]⟩
  | returned cursor hkind =>
    right
    refine ⟨by simp [next, Item.isEnd, hkind], ?_⟩
    exact pending_handBack ⟨[], cursor⟩ hkind
  | ended cursor hitems =>
    left
    refine ⟨?_, rfl, by simp [next, hitems]⟩
    rw [← hitems, ← pending_fresh cursor]
    exact pending_handBack_end ⟨[], cursor⟩ rfl

/-- A stream with nothing handed back is settled. -/
theorem settled_of_returned_nil {stream : TokenStream} (h : stream.returned = []) :
    stream.Settled := by
  obtain ⟨returned, cursor⟩ := stream
  subst h
  exact .fresh cursor

/-- A settled stream is settled after an item, and ends at the same place. -/
theorem Settled.of_next {stream rest : TokenStream} {item : Item} (h : stream.Settled)
    (hnext : stream.next = (item, rest)) : rest.Settled ∧ rest.finish = stream.finish :=
  ⟨settled_of_returned_nil (by simpa [hnext] using h.returned_next),
    by simpa [hnext] using stream.finish_next⟩

/-- An item other than the end was the first of those pending. -/
theorem Settled.pending_of_next {stream rest : TokenStream} {item : Item} (h : stream.Settled)
    (hnext : stream.next = (item, rest)) (hend : item.isEnd = false) :
    stream.pending = item :: rest.pending := by
  rcases h.next_cases with ⟨-, hitem, -⟩ | ⟨-, hpending⟩
  · have heq : item = .ok (.endOfSource stream.finish) := by simpa [hnext] using hitem
    rw [heq] at hend
    cases hend
  · simpa [hnext] using hpending

/-- Where the end is read, nothing is pending before or after. -/
theorem Settled.of_end {stream rest : TokenStream} {token : Token} (h : stream.Settled)
    (hnext : stream.next = (.ok token, rest)) (hend : token.kind = .endOfSource) :
    token = .endOfSource stream.finish ∧ stream.pending = [] ∧ rest.pending = [] := by
  rcases h.next_cases with ⟨hpending, hitem, hrest⟩ | ⟨hitem, -⟩
  · simp only [hnext, Except.ok.injEq] at hitem hrest
    exact ⟨hitem, hpending, hrest⟩
  · simp [hnext, Item.isEnd, hend] at hitem

/-- Handing back the token that was just read undoes the reading. -/
theorem Settled.handBack {stream rest : TokenStream} {token : Token} (h : stream.Settled)
    (hnext : stream.next = (.ok token, rest)) :
    (rest.handBack token).Settled ∧ (rest.handBack token).pending = stream.pending := by
  have hreturned : rest.returned = [] := by simpa [hnext] using h.returned_next
  obtain ⟨-, hfinish⟩ := h.of_next hnext
  obtain ⟨returned, cursor⟩ := rest
  subst hreturned
  by_cases hend : token.kind = .endOfSource
  · obtain ⟨rfl, hpending, hrest⟩ := h.of_end hnext hend
    rw [pending_handBack_end _ rfl, hpending, hrest, ← hfinish]
    rw [pending_fresh] at hrest
    exact ⟨.ended cursor hrest, rfl⟩
  · rw [pending_handBack _ hend, h.pending_of_next hnext (by simp [Item.isEnd, hend])]
    exact ⟨.returned cursor hend, rfl⟩

end TokenStream

end MiniScheme

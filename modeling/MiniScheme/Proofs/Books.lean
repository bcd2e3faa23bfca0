import MiniScheme.Proofs.Descent
import MiniScheme.Proofs.Recovery
import MiniScheme.Proofs.Upcoming

/-!
# Books that are in order

The books of a descent are in order if no token was lost, doubled or moved by handing it back: the
items that were kept, and behind them what is to come, are the items of the source.  While a form is
being read, its counter of open groups says besides what its own items say.

Every change of a state comes down to two: an item is taken, and the token that was taken last is
handed back.  The first leaves one token less handed back and the second one more, so that two
tokens can be handed back only after two were taken.

Main results:

- Theorems `State.Tracks.read` and `State.Tracks.unread`: what the two changes do to the books.
- Theorem `State.Sound.unread_read`: a token that is looked at changes nothing.
- Theorem `Balanced.cons`: a token that a form takes changes the counter by what it opens or
  closes.
-/

namespace MiniScheme

/-- All items of a source, and then the end for ever. -/
def allItems (source : String) : Stream' Item :=
  (Cursor.ofSource source).items ++ₛ
    Stream'.const (.ok (.endOfSource (Cursor.ofSource source).finish))

/-- What is to come of a source that is not begun are all its items. -/
theorem upcoming_ofSource (source : String) :
    (TokenStream.ofSource source).upcoming = allItems source :=
  TokenStream.upcoming_eq _

/-- Reading an item takes the latest of the tokens that were handed back. -/
theorem TokenStream.returned_next (stream : TokenStream) :
    stream.next.2.returned = stream.returned.tail := by
  unfold next
  split
  next h => rw [h, List.tail_cons]
  next h => rw [h, List.tail_nil]

namespace Descent

/-! ## Counting parentheses -/

/-- A counter says how many groups the items of a form have opened and not closed, and none of
these items opens a vector. -/
structure Balanced (depth : Nat) (own : List Item) : Prop where
  count : depth + own.countP (Item.hasKind .closeParen) = own.countP (Item.hasKind .openParen)
  noVector : ∀ item ∈ own, item.hasKind .openVector = false

/-- No items are balanced. -/
theorem balanced_nil : Balanced 0 [] :=
  ⟨rfl, nofun⟩

/-- A token in front counts for its kind. -/
theorem countP_cons_token (kind : TokenKind) (token : Token) (items : List Item) :
    (Except.ok token :: items).countP (Item.hasKind kind) =
      items.countP (Item.hasKind kind) + if token.kind = kind then 1 else 0 := by
  simp [List.countP_cons, Item.hasKind]

/-- A token that a form takes changes the counter by what it opens or closes. -/
theorem Balanced.cons {depth : Nat} {own : List Item} {token : Token} (h : Balanced depth own)
    (hvector : token.kind ≠ .openVector) (hclose : token.kind = .closeParen → 0 < depth) :
    Balanced (Item.depthAfter depth (.ok token)) (.ok token :: own) where
  count := by
    have hcount := h.count
    rw [countP_cons_token, countP_cons_token]
    by_cases hopening : token.kind = .openParen
    · rw [Item.depthAfter_open hopening, if_neg (by simp [hopening]), if_pos hopening]
      omega
    · by_cases hclosing : token.kind = .closeParen
      · have hpositive := hclose hclosing
        rw [Item.depthAfter_close hclosing, if_pos hclosing, if_neg hopening]
        omega
      · have hother : token.kind.isOpening = false := by
          rw [Bool.eq_false_iff, ne_eq, TokenKind.isOpening_iff]
          tauto
        rw [Item.depthAfter_of_ne hother hclosing, if_neg hclosing, if_neg hopening]
        exact hcount
  noVector := by
    rw [List.forall_mem_cons]
    exact ⟨by simpa [Item.hasKind] using hvector, h.noVector⟩

/-- What is no token changes nothing. -/
theorem Balanced.cons_error {depth : Nat} {own : List Item} (h : Balanced depth own)
    (error : LexicalError) : Balanced depth (.error error :: own) where
  count := by simpa [List.countP_cons, Item.hasKind] using h.count
  noVector := by
    rw [List.forall_mem_cons]
    exact ⟨rfl, h.noVector⟩

/-! ## What the books say -/

/-- What is noted of a moment is as it should be: at most two tokens have been handed back, and the
items that were kept and those to come are the items of the source; a counter that is lowered is
not zero; and where a form failed, the items that were to come before it are its own and those to
come after it, and its counter says what its own items say. -/
def Moment.Sound (source : String) : Moment → Prop
  | moved stream kept =>
    stream.returned.length ≤ 2 ∧ kept.reverse ++ₛ stream.upcoming = allItems source
  | lowering count => 0 < count
  | failed before after depth own =>
    own.reverse ++ₛ after.upcoming = before.upcoming ∧ Balanced depth own

/-- Where a form begins: in a source, behind items that have been kept. -/
structure Origin where
  source : String
  earlier : List Item

namespace State

variable {origin : Origin} {state : State} {token : Token}

/-- The books are in order, and so many tokens have been handed back at most. -/
structure Tracks (origin : Origin) (returned : Nat) (state : State) : Prop where
  earlier : state.earlier = origin.earlier
  returned_le : state.stream.returned.length ≤ returned
  order : state.kept.reverse ++ₛ state.stream.upcoming = allItems origin.source
  moments : ∀ moment ∈ state.moments, moment.Sound origin.source

/-- The books are in order, and so is the counter of the form that is being read. -/
structure Sound (origin : Origin) (state : State) : Prop extends Tracks origin 2 state where
  balanced : Balanced state.depth state.own

/-- The books of a source that is not begun are in order. -/
theorem tracks_ofSource (source : String) : (ofSource source).Tracks ⟨source, []⟩ 0 where
  earlier := rfl
  returned_le := Nat.le_refl 0
  order := upcoming_ofSource source
  moments := by
    intro moment hmoment
    rw [List.mem_singleton.1 hmoment]
    exact ⟨Nat.zero_le 2, upcoming_ofSource source⟩

namespace Tracks

variable {returned : Nat}

/-- Books that allow some tokens to be handed back allow more of them. -/
theorem mono {bound : Nat} (h : state.Tracks origin returned) (hbound : returned ≤ bound) :
    state.Tracks origin bound :=
  ⟨h.earlier, Nat.le_trans h.returned_le hbound, h.order, h.moments⟩

/-- A moment that is sound may be noted down. -/
theorem note (h : state.Tracks origin returned) {moment : Moment}
    (hmoment : moment.Sound origin.source) :
    (state.note moment).Tracks origin returned :=
  ⟨h.earlier, h.returned_le, h.order, List.forall_mem_cons.2 ⟨hmoment, h.moments⟩⟩

/-- The books stay in order where a stream with as much to come is noted. -/
theorem noteStream (hearlier : state.earlier = origin.earlier)
    (hreturned : state.stream.returned.length ≤ returned) (hbound : returned ≤ 2)
    (horder : state.kept.reverse ++ₛ state.stream.upcoming = allItems origin.source)
    (hmoments : ∀ moment ∈ state.moments, moment.Sound origin.source) :
    state.noteStream.Tracks origin returned :=
  note ⟨hearlier, hreturned, horder, hmoments⟩ ⟨Nat.le_trans hreturned hbound, horder⟩

/-- Taking an item leaves one token less handed back. -/
theorem read (h : state.Tracks origin (returned + 1)) (hbound : returned ≤ 2) :
    state.read.Tracks origin returned := by
  refine noteStream h.earlier ?_ hbound ?_ h.moments
  · have hlength := h.returned_le
    rw [TokenStream.returned_next, List.length_tail]
    omega
  · rw [← h.order, TokenStream.upcoming_of_next (Prod.eta state.stream.next).symm]
    change (state.stream.next.1 :: state.kept).reverse ++ₛ _ = _
    rw [List.reverse_cons, Stream'.append_append_stream]
    rfl

/-- Handing back the token that was taken last leaves one token more handed back. -/
theorem unread {own : List Item} (h : state.Tracks origin returned) (hbound : returned + 1 ≤ 2)
    (hown : state.own = .ok token :: own) : (state.unread token).Tracks origin (returned + 1) := by
  refine noteStream h.earlier (Nat.succ_le_succ h.returned_le) hbound ?_ h.moments
  rw [← h.order, TokenStream.upcoming_handBack, kept, kept, hown, List.tail_cons, List.cons_append,
    List.reverse_cons, Stream'.append_append_stream]
  rfl

/-- A counter that is not zero can be lowered. -/
theorem lower (h : state.Tracks origin returned) (hdepth : 0 < state.depth) :
    state.lower.Tracks origin returned := by
  have hlowered : { state with depth := state.depth - 1 }.Tracks origin returned :=
    ⟨h.earlier, h.returned_le, h.order, h.moments⟩
  exact hlowered.note hdepth

/-- At the beginning of a form the counter and the form's own items begin anew. -/
theorem begin (h : state.Tracks origin 2) : state.begin.Sound ⟨origin.source, state.kept⟩ :=
  ⟨⟨rfl, h.returned_le, h.order, h.moments⟩, balanced_nil⟩

end Tracks

/-- What was to come where a form began is what has been kept of it and what is to come. -/
theorem Tracks.own_order {after : State} {returned returned' : Nat}
    (h : state.Tracks origin returned)
    (hafter : after.Tracks ⟨origin.source, state.kept⟩ returned') :
    after.own.reverse ++ₛ after.stream.upcoming = state.stream.upcoming := by
  apply Stream'.append_right_injective state.kept.reverse
  have horder := hafter.order
  rw [kept, hafter.earlier, List.reverse_append, Stream'.append_append_stream] at horder
  exact horder.trans h.order.symm

/-- The failure of a form is noted. -/
theorem Sound.noteFailure {after : State} {returned : Nat} (h : state.Tracks origin returned)
    (hafter : after.Sound ⟨origin.source, state.kept⟩) :
    (after.noteFailure state.stream).Sound ⟨origin.source, state.kept⟩ :=
  ⟨hafter.note ⟨h.own_order hafter.toTracks, hafter.balanced⟩, hafter.balanced⟩

/-! ## Looking ahead -/

/-- What is to come after a token has been taken and handed back is what was to come. -/
theorem upcoming_unread_read (htoken : state.stream.next.1 = .ok token) :
    (state.read.unread token).stream.upcoming = state.stream.upcoming :=
  TokenStream.upcoming_handBack_of_next (Prod.ext htoken rfl)

/-- The same is to come after two tokens have been taken and handed back. -/
theorem upcoming_unread_unread_read_read {second : Token}
    (htoken : state.stream.next.1 = .ok token)
    (hsecond : state.read.stream.next.1 = .ok second) :
    ((state.read.read.unread second).unread token).stream.upcoming = state.stream.upcoming := by
  have hback := upcoming_unread_read hsecond
  change (TokenStream.handBack _ token).upcoming = _
  rw [TokenStream.upcoming_handBack, hback, TokenStream.upcoming_of_next (Prod.ext htoken rfl)]
  rfl

/-- A token that is looked at changes nothing. -/
theorem Sound.unread_read (h : state.Sound origin) (htoken : state.stream.next.1 = .ok token) :
    (state.read.unread token).Sound origin where
  toTracks := by
    have hread : state.read.Tracks origin 1 := h.toTracks.read (Nat.le_succ 1)
    exact hread.unread (Nat.le_refl 2) (congrArg (· :: state.own) htoken)
  balanced := h.balanced

/-- Nor does looking at two tokens. -/
theorem Sound.unread_unread_read_read {second : Token} (h : state.Sound origin)
    (htoken : state.stream.next.1 = .ok token)
    (hsecond : state.read.stream.next.1 = .ok second) :
    ((state.read.read.unread second).unread token).Sound origin where
  toTracks := by
    have hread : state.read.read.Tracks origin 0 :=
      (h.toTracks.read (Nat.le_succ 1)).read (Nat.zero_le 2)
    have hback := hread.unread (Nat.le_succ 1) (congrArg (· :: state.read.own) hsecond)
    exact hback.unread (Nat.le_refl 2) (congrArg (· :: state.own) htoken)
  balanced := h.balanced

/-- What is no token is taken for good. -/
theorem Sound.read_error {error : LexicalError} (h : state.Sound origin)
    (herror : state.stream.next.1 = .error error) : state.read.Sound origin where
  toTracks := (h.toTracks.read (Nat.le_succ 1)).mono (Nat.le_succ 1)
  balanced := by
    change Balanced state.depth (state.stream.next.1 :: state.own)
    rw [herror]
    exact h.balanced.cons_error error

/-! ## Tokens that are kept -/

/-- The state with the counter as it is after a token that has been taken. -/
def settle (state : State) (token : Token) : State :=
  match token.kind with
  | .openParen => state.raise
  | .closeParen => state.lower
  | _ => state

/-- Behind an atom the counter is as it was. -/
theorem settle_of_isAtom (h : token.kind.isAtom = true) (state : State) :
    state.settle token = state := by
  cases hkind : token.kind <;> simp_all [settle, TokenKind.isAtom]

/-- Settling the counter leaves the stream alone. -/
@[simp]
theorem stream_settle (state : State) (token : Token) :
    (state.settle token).stream = state.stream := by
  unfold settle
  split <;> rfl

/-- Settling the counter leaves alone the items that the form has passed. -/
@[simp]
theorem own_settle (state : State) (token : Token) : (state.settle token).own = state.own := by
  unfold settle
  split <;> rfl

/-- The settled counter is the depth of the items, unless a vector begins. -/
theorem depth_settle (state : State) (hvector : token.kind ≠ .openVector) :
    (state.settle token).depth = Item.depthAfter state.depth (.ok token) := by
  unfold settle
  split
  next hkind => exact (Item.depthAfter_open hkind _).symm
  next hkind => exact (Item.depthAfter_close hkind _).symm
  next hopening hclosing =>
    have hother : token.kind.isOpening = false := by
      rw [Bool.eq_false_iff, ne_eq, TokenKind.isOpening_iff]
      exact not_or.2 ⟨hopening, hvector⟩
    exact (Item.depthAfter_of_ne hother hclosing _).symm

/-- A counter that is not zero can be settled. -/
theorem Tracks.settle {returned : Nat} (h : state.Tracks origin returned)
    (hclose : token.kind = .closeParen → 0 < state.depth) :
    (state.settle token).Tracks origin returned := by
  unfold State.settle
  split
  next => exact ⟨h.earlier, h.returned_le, h.order, h.moments⟩
  next hkind => exact h.lower (hclose hkind)
  next => exact h

/-- A token is kept, and the counter settled. -/
theorem Sound.settle_read (h : state.Sound origin) (htoken : state.stream.next.1 = .ok token)
    (hvector : token.kind ≠ .openVector) (hclose : token.kind = .closeParen → 0 < state.depth) :
    (state.read.settle token).Sound origin where
  toTracks := by
    have hread : state.read.Tracks origin 2 :=
      (h.toTracks.read (Nat.le_succ 1)).mono (Nat.le_succ 1)
    exact hread.settle hclose
  balanced := by
    rw [depth_settle _ hvector, own_settle]
    change Balanced _ (state.stream.next.1 :: state.own)
    rw [htoken]
    exact h.balanced.cons hvector hclose

end State

end Descent

end MiniScheme

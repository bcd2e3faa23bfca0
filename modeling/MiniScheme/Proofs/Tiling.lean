import MiniScheme.Proofs.Gaps
import MiniScheme.Proofs.SourceOrder

/-!
# The tiles of a source

A source is laid out in tiles, each a gap and the lexeme behind it, and after the last tile comes
a last gap.  Item after item a stream takes one tile, and what is still to read is the text of the
tiles that are left.  An item stands where a count of the newlines and characters before its
lexeme says.

The tiles are found by induction on the length of the text, and the text before a tile is carried
along, since lines and columns are counted from the beginning of the source.

Main results:

- Theorem `Position.advance_behind`: walking over a text is counting its lines and columns.
- Theorem `Cursor.next_tile`: an item is that of the tile in front of the cursor.
- Theorem `TokenStream.result_after`: after its items a stream is at the end for good.
- Theorem `TokenStream.exists_tiles`: the items of a source are those of its tiles, with their
  texts and places, and nothing of the source is left out.
-/

namespace MiniScheme

open CharClass

/-! ## Counting lines and columns -/

/-- The place behind a text: its newlines are counted, and the characters behind the last of
them. -/
def Position.behind (text : List Char) : Position :=
  ⟨1 + text.count '\n', 1 + (text.reverse.takeWhile (· ≠ '\n')).length⟩

/-- One more character leads to the next place. -/
theorem Position.behind_concat (text : List Char) (c : Char) :
    behind (text ++ [c]) = (behind text).next c := by
  by_cases hc : c = '\n'
  · subst hc
    simp [behind, next, Nat.add_assoc]
  · simp [behind, next, hc, Nat.add_comm]

/-- Walking over a text is counting its lines and columns. -/
theorem Position.advance_behind (before text : List Char) :
    (behind before).advance text = behind (before ++ text) := by
  induction text generalizing before with
  | nil => rw [advance_nil, List.append_nil]
  | cons c text ih =>
    rw [advance_cons, ← behind_concat, ih, List.append_assoc, List.singleton_append]

/-! ## The texts of items -/

/-- The text that a fault names, if it names one. -/
def LexicalFault.text? : LexicalFault → Option (List Char)
  | illegalIdentifier text => some text.toList
  | unknownCharacter c => some [c]
  | numberTooLarge digits => some digits.toList
  | _ => none

/-- A fault names the whole lexeme that has it. -/
theorem Lexeme.text_of_fault {c : Char} {text : List Char} {fault : LexicalFault}
    (h : (read c text).reading = .fault fault) :
    ∀ named ∈ fault.text?, named = (read c text).text := by
  revert h
  fun_cases read c text with
  | case4 =>
    fun_cases sharp text <;> rintro ⟨⟩ <;> simp [LexicalFault.text?]
  | case5 =>
    rcases doubleQuote_cases text with ⟨rest, -, h⟩ | h <;> rw [h] <;> rintro ⟨⟩
    simp [LexicalFault.text?]
  | case6 =>
    simp only [number]
    split <;> rintro ⟨⟩
    simp [LexicalFault.text?]
  | case7 =>
    simp only [word]
    split <;> rintro ⟨⟩
  | case8 =>
    simp only [dotted]
    split <;> rintro ⟨⟩
    simp [LexicalFault.text?]
  | case9 =>
    rintro ⟨⟩
    simp [LexicalFault.text?]
  | _ => rintro ⟨⟩

/-! ## Tiles -/

/-- A gap, the lexeme behind it, and what this is read as. -/
structure Tile where
  gap : List Char
  lexeme : List Char
  item : Item

/-- The text of a tile. -/
def Tile.text (tile : Tile) : List Char :=
  tile.gap ++ tile.lexeme

/-- A tile stands behind a text: its gap is one, its lexeme is not empty and no part of a gap, and
its item has the text of the lexeme and the place where this begins. -/
structure Tile.IsBehind (tile : Tile) (before : List Char) : Prop where
  gap : IsGap tile.gap
  lexeme_ne_nil : tile.lexeme ≠ []
  stops : ∀ c ∈ tile.lexeme.head?, c ≠ ';' ∧ isSpace c = false
  not_end : tile.item.isEnd = false
  text_of_token : ∀ token, tile.item = .ok token → token.text.toList = tile.lexeme
  text_of_fault : ∀ error, tile.item = .error error →
    ∀ named ∈ error.fault.text?, named = tile.lexeme
  position : tile.item.position = Position.behind (before ++ tile.gap)

/-- What is read after a gap stands there as a tile. -/
theorem Tile.isBehind_read {gap before : List Char} {c : Char} (hgap : IsGap gap)
    (hcomment : c ≠ ';') (hspace : isSpace c = false) (text : List Char) :
    (⟨gap, (Lexeme.read c text).text,
      (Lexeme.read c text).item (Position.behind (before ++ gap))⟩ : Tile).IsBehind before where
  gap := hgap
  lexeme_ne_nil := Lexeme.read_ne_nil c text
  stops := by
    intro d hd
    obtain ⟨rest, hrest⟩ := Lexeme.read_isPrefix c text
    cases htext : (Lexeme.read c text).text with
    | nil => exact absurd htext (Lexeme.read_ne_nil c text)
    | cons e lexeme =>
      rw [htext] at hd hrest
      obtain rfl : e = d := Option.some.inj hd
      obtain rfl : e = c := (List.cons.inj hrest).1
      exact ⟨hcomment, hspace⟩
  not_end := Lexeme.item_not_end c text _
  text_of_token := by
    intro token htoken
    unfold Lexeme.item at htoken
    split at htoken <;> cases htoken
    exact String.toList_ofList
  text_of_fault := by
    intro error herror
    unfold Lexeme.item at herror
    split at herror
    next => cases herror
    next fault hfault =>
      cases herror
      exact Lexeme.text_of_fault hfault
  position := Lexeme.position_item _ _

/-- Tiles stand one behind the other, and all of them behind a text. -/
def Tile.AreBehind (tiles : List Tile) (before : List Char) : Prop :=
  ∀ (n : Nat) (h : n < tiles.length), tiles[n].IsBehind (before ++ (tiles.take n).flatMap Tile.text)

/-- A tile and the tiles behind it stand one behind the other. -/
theorem Tile.AreBehind.cons {tile : Tile} {tiles : List Tile} {before : List Char}
    (htile : tile.IsBehind before) (htiles : AreBehind tiles (before ++ tile.text)) :
    AreBehind (tile :: tiles) before := by
  intro n h
  cases n with
  | zero => simpa using htile
  | succ n => simpa using htiles n (Nat.lt_of_succ_lt_succ h)

/-- Behind a text, the next item is that of a tile, and the cursor is left behind the tile; or the
source ends in a last gap. -/
theorem Cursor.next_tile (before text : List Char) :
    (IsLastGap text ∧ (next ⟨text, Position.behind before⟩).1.isEnd = true) ∨
      ∃ (tile : Tile) (rest : List Char), tile.IsBehind before ∧ text = tile.text ++ rest ∧
        next ⟨text, Position.behind before⟩ =
          (tile.item, ⟨rest, Position.behind (before ++ tile.text)⟩) := by
  rcases (Cursor.mk text (Position.behind before)).next_cases with
    ⟨hlast, hnext⟩ | ⟨gap, c, behind, rest, htext, hgap, hcomment, hspace, hread, hnext⟩
  · refine .inl ⟨hlast, ?_⟩
    rw [hnext]
    rfl
  · refine .inr ⟨_, rest, Tile.isBehind_read hgap hcomment hspace behind, ?_, ?_⟩
    · have hbehind : text = gap ++ c :: behind := htext
      rw [hbehind, hread, ← List.append_assoc]
      rfl
    · rw [hnext, Position.advance_behind, Position.advance_behind, List.append_assoc]
      rfl

/-! ## Taking item after item -/

namespace TokenStream

/-- The stream after a number of items. -/
def after : TokenStream → Nat → TokenStream
  | stream, 0 => stream
  | stream, n + 1 => after stream.next.2 n

/-- After its items a stream is at the end for good. -/
theorem result_after (cursor : Cursor) (n : Nat) :
    (after ⟨[], cursor⟩ n).next.1 =
      (cursor.items[n]?).getD (.ok (.endOfSource cursor.finish)) := by
  induction n generalizing cursor with
  | zero =>
    cases hend : cursor.next.1.isEnd with
    | true =>
      rw [Cursor.items_of_isEnd hend]
      exact Cursor.next_of_isEnd hend
    | false =>
      rw [Cursor.items_of_next hend]
      rfl
  | succ n ih =>
    have hnext := ih cursor.next.2
    rw [cursor.finish_next] at hnext
    cases hend : cursor.next.1.isEnd with
    | true =>
      rw [Cursor.items_of_rest_nil (Cursor.rest_next_of_isEnd hend)] at hnext
      rw [Cursor.items_of_isEnd hend]
      exact hnext
    | false =>
      rw [Cursor.items_of_next hend]
      exact hnext

/-- A text that stands behind another consists of tiles and a last gap, and a stream takes it tile
by tile. -/
theorem exists_tiles_behind (before text : List Char) :
    ∃ (tiles : List Tile) (last : List Char), text = tiles.flatMap Tile.text ++ last ∧
      IsLastGap last ∧ Tile.AreBehind tiles before ∧
      tiles.map Tile.item = Cursor.items ⟨text, Position.behind before⟩ ∧
      ∀ n ≤ tiles.length, (after ⟨[], ⟨text, Position.behind before⟩⟩ n).cursor.rest =
        (tiles.drop n).flatMap Tile.text ++ last := by
  rcases Cursor.next_tile before text with ⟨hlast, hend⟩ | ⟨tile, rest, htile, htext, hnext⟩
  · refine ⟨[], text, rfl, hlast, fun n h => absurd h (Nat.not_lt_zero n), ?_, fun n hn => ?_⟩
    · rw [Cursor.items_of_isEnd hend, List.map_nil]
    · rw [Nat.le_zero.1 hn]
      rfl
  · have hlength : rest.length < text.length := by
      have hpositive := List.length_pos_iff.2 htile.lexeme_ne_nil
      rw [htext, Tile.text, List.length_append, List.length_append]
      omega
    obtain ⟨tiles, last, hrest, hlast, hbehind, hitems, hleft⟩ :=
      exists_tiles_behind (before ++ tile.text) rest
    have hall : text = (tile :: tiles).flatMap Tile.text ++ last := by
      rw [htext, hrest, List.flatMap_cons, List.append_assoc]
    refine ⟨tile :: tiles, last, hall, hlast, hbehind.cons htile, ?_, fun n hn => ?_⟩
    · rw [Cursor.items_of_next (by rw [hnext]; exact htile.not_end), hnext, List.map_cons, hitems]
    · cases n with
      | zero => exact hall
      | succ n =>
        have hstream : next ⟨[], ⟨text, Position.behind before⟩⟩ =
            (tile.item, ⟨[], ⟨rest, Position.behind (before ++ tile.text)⟩⟩) := by
          rw [next, hnext]
        rw [after, hstream]
        exact hleft n (Nat.le_of_succ_le_succ hn)
termination_by text.length

/-- The items of a source are those of its tiles, with their texts and places, one behind the
other, and then the end for ever; nothing of the source is left out or read twice. -/
theorem exists_tiles (source : String) :
    ∃ (tiles : List Tile) (last : List Char),
      source.toList = tiles.flatMap Tile.text ++ last ∧ IsLastGap last ∧
      (∀ (n : Nat) (h : n < tiles.length),
        tiles[n].IsBehind ((tiles.take n).flatMap Tile.text) ∧
          ((ofSource source).after n).next.1 = tiles[n].item) ∧
      (∀ n ≤ tiles.length, ((ofSource source).after n).cursor.rest =
        (tiles.drop n).flatMap Tile.text ++ last) ∧
      (tiles.map fun tile => tile.item.position).Pairwise (· < ·) ∧
      ∀ n ≥ tiles.length, ((ofSource source).after n).next.1 =
        .ok (.endOfSource (Position.behind source.toList)) := by
  obtain ⟨tiles, last, htext, hlast, hbehind, hitems, hleft⟩ :=
    exists_tiles_behind [] source.toList
  have hstart : Cursor.ofSource source = ⟨source.toList, Position.behind []⟩ := rfl
  have hresult : ∀ n, ((ofSource source).after n).next.1 =
      ((tiles.map Tile.item)[n]?).getD (.ok (.endOfSource (Position.behind source.toList))) := by
    intro n
    have hfinish : (Cursor.ofSource source).finish = Position.behind source.toList :=
      Position.advance_behind [] source.toList
    rw [hitems, ← hstart, ← hfinish]
    exact result_after (Cursor.ofSource source) n
  refine ⟨tiles, last, htext, hlast, fun n h => ⟨hbehind n h, ?_⟩, hleft, ?_, fun n h => ?_⟩
  · rw [hresult, List.getElem?_map, List.getElem?_eq_getElem h]
    rfl
  · have hordered := Cursor.pairwise_items (Cursor.ofSource source)
    rw [hstart, ← hitems, List.pairwise_map] at hordered
    exact List.pairwise_map.2 hordered
  · rw [hresult, List.getElem?_eq_none (by rwa [List.length_map])]
    rfl

end TokenStream

end MiniScheme

import Mathlib.Logic.Relation
import MiniScheme.Proofs.OnePass

/-!
# Reading comes to an end

Reading a form takes tokens round by round, skipping a group does, and reading all forms takes form
after form.  Tokens are handed back on the way, so that what is left does not shrink with every
token that is taken.  Still each of the three loops comes to its end, from whatever state it starts
in; and a round of reading all forms gets past an item of the source for good, whether it completes
a form or fails.  Once all forms have been read nothing is left to read.

Main results:

- Theorems `readFrom_endsIn`, `skipGroup_endsIn` and `readAll_endsIn`: the loops end in a bounded
  number of rounds, with what the reader gives.
- Theorem `formRound_passes`: a round of reading all forms passes an item.
- Theorem `Reader.reading_ends`: all this wherever a reader of a source can get to.
-/

namespace MiniScheme

/-! ## Loops -/

/-- A loop ends in a number of rounds with a result: each round but the last goes on with another
state. -/
inductive EndsIn {σ ρ : Type} (round : σ → σ ⊕ ρ) : Nat → σ → ρ → Prop
  | last {state : σ} {result : ρ} (h : round state = .inr result) : EndsIn round 1 state result
  | more {rounds : Nat} {state following : σ} {result : ρ} (h : round state = .inl following)
    (hrest : EndsIn round rounds following result) : EndsIn round (rounds + 1) state result

/-- One round of reading a form takes one item. -/
def readRound :
    Expectation × TokenStream → (Expectation × TokenStream) ⊕ (FormReading × TokenStream)
  | (expectation, stream) =>
    match stream.next with
    | (.error error, rest) => .inr (.failure (.lexical error) expectation.depth, rest)
    | (.ok token, rest) =>
      match expectation.step token with
      | .next following => .inl (following, rest)
      | .form form => .inr (.form form, rest)
      | .reject error => .inr (.failure error expectation.depth, rest.handBack token)

/-- So does one round of skipping the rest of a group. -/
def skipRound : Nat × TokenStream → (Nat × TokenStream) ⊕ TokenStream
  | (inner, stream) =>
    match stream.next with
    | (.error _, rest) => .inl (inner, rest)
    | (.ok token, rest) =>
      if token.kind = .endOfSource then .inr (rest.handBack token)
      else if token.kind.isOpening then .inl (inner + 1, rest)
      else if token.kind = .closeParen then
        match inner with
        | 0 => .inr rest
        | inner + 1 => .inl (inner, rest)
      else .inl (inner, rest)

/-- One round of reading all forms reads a form, or skips what is left of one that fails. -/
def formRound (reading : SourceReading) : SourceReading ⊕ SourceReading :=
  match readForm reading.rest with
  | (.endOfSource, rest) => .inr { reading with rest }
  | (.form form, rest) => .inl { reading with forms := reading.forms ++ [form], rest }
  | (.failure error depth, rest) =>
    .inl { reading with errors := reading.errors ++ [error], rest := recover error depth rest }

/-! ## The number of rounds -/

/-- Reading a form ends, in at most one round for each thing that is left and one for the end. -/
theorem readFrom_endsIn (expectation : Expectation) (stream : TokenStream) :
    ∃ rounds ≤ stream.size + 1,
      EndsIn readRound rounds (expectation, stream) (readFrom expectation stream) := by
  fun_induction readFrom expectation stream with
  | case1 expectation stream error rest hnext =>
    exact ⟨1, by omega, .last (by simp [readRound, hnext])⟩
  | case2 expectation stream token rest hnext following hstep hlt ih =>
    obtain ⟨rounds, hrounds, hends⟩ := ih
    exact ⟨rounds + 1, by omega, .more (by simp [readRound, hnext, hstep]) hends⟩
  | case3 expectation stream token rest hnext form hstep =>
    exact ⟨1, by omega, .last (by simp [readRound, hnext, hstep])⟩
  | case4 expectation stream token rest hnext error hstep =>
    exact ⟨1, by omega, .last (by simp [readRound, hnext, hstep])⟩

/-- Skipping the rest of a group ends, even if nothing closes the group. -/
theorem skipGroup_endsIn (inner : Nat) (stream : TokenStream) :
    ∃ rounds ≤ stream.size + 1,
      EndsIn skipRound rounds (inner, stream) (skipGroup inner stream) := by
  fun_induction skipGroup inner stream with
  | case1 inner stream error rest hnext hlt ih =>
    obtain ⟨rounds, hrounds, hends⟩ := ih
    exact ⟨rounds + 1, by omega, .more (by simp [skipRound, hnext]) hends⟩
  | case2 inner stream token rest hnext hend =>
    exact ⟨1, by omega, .last (by simp [skipRound, hnext, hend])⟩
  | case3 inner stream token rest hnext hend hlt hopening ih =>
    obtain ⟨rounds, hrounds, hends⟩ := ih
    exact ⟨rounds + 1, by omega, .more (by simp [skipRound, hnext, hend, hopening]) hends⟩
  | case4 stream token rest hnext hend hlt hopening hclose =>
    exact ⟨1, by omega, .last (by simp [skipRound, hnext, hclose, TokenKind.isOpening])⟩
  | case5 stream token rest hnext hend hlt hopening hclose inner ih =>
    obtain ⟨rounds, hrounds, hends⟩ := ih
    exact ⟨rounds + 1, by omega,
      .more (by simp [skipRound, hnext, hclose, TokenKind.isOpening]) hends⟩
  | case6 inner stream token rest hnext hend hlt hopening hclose ih =>
    obtain ⟨rounds, hrounds, hends⟩ := ih
    exact ⟨rounds + 1, by omega,
      .more (by simp [skipRound, hnext, hend, hopening, hclose]) hends⟩

/-! ## What is left -/

namespace TokenStream

/-- What one stream has left is left of another one, at the end of what this one holds. -/
structure Leaves (stream rest : TokenStream) : Prop where
  settled : rest.Settled
  pending : rest.pending <:+ stream.pending

/-- Some items are behind the one stream but not behind the other one, which has nothing else
left.  A token that has been handed back is not behind a stream. -/
def Passes (stream rest : TokenStream) : Prop :=
  ∃ passed ≠ [], stream.pending = passed ++ rest.pending

variable {stream following rest : TokenStream}

/-- A stream leaves all of itself. -/
theorem Leaves.refl (h : stream.Settled) : stream.Leaves stream :=
  ⟨h, List.suffix_rfl⟩

/-- What is left of what is left is left. -/
theorem Leaves.trans (h : stream.Leaves following) (h' : following.Leaves rest) :
    stream.Leaves rest :=
  ⟨h'.settled, h'.pending.trans h.pending⟩

/-- An item that is read leaves the rest. -/
theorem Leaves.of_next {item : Item} (h : stream.Settled) (hnext : stream.next = (item, rest)) :
    stream.Leaves rest := by
  refine ⟨(h.of_next hnext).1, ?_⟩
  rcases h.next_cases with ⟨hpending, -, hrest⟩ | ⟨-, hpending⟩
  · have hnone : rest.pending = [] := by simpa [hnext] using hrest
    rw [hnone]
    exact List.nil_suffix
  · rw [hpending, hnext]
    exact List.suffix_cons _ _

/-- A token that is handed back leaves the rest as it was. -/
theorem Leaves.of_handBack {token : Token} (h : stream.Settled)
    (hnext : stream.next = (.ok token, rest)) : stream.Leaves (rest.handBack token) := by
  obtain ⟨hsettled, hpending⟩ := h.handBack hnext
  exact ⟨hsettled, hpending ▸ List.suffix_rfl⟩

/-- What comes after an item other than the end has passed it. -/
theorem Leaves.passes {item : Item} (h : following.Leaves rest) (hsettled : stream.Settled)
    (hnext : stream.next = (item, following)) (hend : item.isEnd = false) :
    stream.Passes rest := by
  obtain ⟨before, hbefore⟩ := h.pending
  refine ⟨item :: before, List.cons_ne_nil item before, ?_⟩
  rw [hsettled.pending_of_next hnext hend, ← hbefore, List.cons_append]

/-- Whatever passes some items has strictly fewer of them left. -/
theorem Passes.length_lt (h : stream.Passes rest) :
    rest.pending.length < stream.pending.length := by
  obtain ⟨passed, hne, hpending⟩ := h
  have hpositive := List.length_pos_iff.2 hne
  rw [hpending, List.length_append]
  omega

/-- Where nothing is pending only the end is read. -/
theorem Settled.isEnd_next (h : stream.Settled) (hpending : stream.pending = []) :
    stream.next.1.isEnd = true := by
  rcases h.next_cases with ⟨-, hend, -⟩ | ⟨-, hcons⟩
  · rw [hend]
    rfl
  · rw [hpending] at hcons
    cases hcons

end TokenStream

open TokenStream

/-- Reading for an expectation leaves an end of what there was. -/
theorem leaves_readFrom (expectation : Expectation) {stream : TokenStream} (h : stream.Settled) :
    stream.Leaves (readFrom expectation stream).2 := by
  fun_induction readFrom expectation stream with
  | case1 expectation stream error rest hnext => exact .of_next h hnext
  | case2 expectation stream token rest hnext following hstep _ ih =>
    exact (Leaves.of_next h hnext).trans (ih (h.of_next hnext).1)
  | case3 expectation stream token rest hnext form hstep => exact .of_next h hnext
  | case4 expectation stream token rest hnext error hstep => exact .of_handBack h hnext

/-- Skipping a group leaves an end of what there was. -/
theorem leaves_skipGroup (inner : Nat) {stream : TokenStream} (h : stream.Settled) :
    stream.Leaves (skipGroup inner stream) := by
  fun_induction skipGroup inner stream with
  | case1 inner stream error rest hnext _ ih =>
    exact (Leaves.of_next h hnext).trans (ih (h.of_next hnext).1)
  | case2 inner stream token rest hnext hend => exact .of_handBack h hnext
  | case3 inner stream token rest hnext hend _ hopening ih =>
    exact (Leaves.of_next h hnext).trans (ih (h.of_next hnext).1)
  | case4 stream token rest hnext => exact .of_next h hnext
  | case5 stream token rest hnext hend _ hopening hclose inner ih =>
    exact (Leaves.of_next h hnext).trans (ih (h.of_next hnext).1)
  | case6 inner stream token rest hnext hend _ hopening hclose ih =>
    exact (Leaves.of_next h hnext).trans (ih (h.of_next hnext).1)

/-- After the token to be skipped its group is skipped, if it opens one. -/
theorem leaves_skipToken {stream rest : TokenStream} {item : Item} (h : rest.Settled)
    (hnext : stream.next = (item, rest)) : rest.Leaves (skipToken stream) := by
  rw [skipToken, hnext]
  cases item with
  | error error => exact .refl h
  | ok token =>
    simp only
    split
    · exact leaves_skipGroup 0 h
    · exact .refl h

/-- Recovery leaves an end of what there was. -/
theorem leaves_recover (error : SyntaxError) (depth : Nat) {stream : TokenStream}
    (h : stream.Settled) : stream.Leaves (recover error depth stream) := by
  unfold recover
  split
  · exact leaves_skipGroup _ h
  · exact .refl h
  · have hnext : stream.next = (stream.next.1, stream.next.2) := rfl
    exact (Leaves.of_next h hnext).trans (leaves_skipToken (h.of_next hnext).1 hnext)

/-- The beginning of a form rejects a token as one that cannot begin it. -/
theorem Expectation.step_start_reject {token : Token} {error : SyntaxError}
    (h : start.step token = .reject error) : error = .unexpected token := by
  simp only [start, step, Place.startExpression, Place.fill] at h
  split at h
  · cases h
  · cases h
  · split at h <;> cases h
    rfl

/-- Reading a form gets past its first item, or fails at this because it cannot begin a form, and
hands it back. -/
theorem readForm_first {stream following : TokenStream} {item : Item} (h : stream.Settled)
    (hnext : stream.next = (item, following)) (hend : item.isEnd = false) :
    following.Leaves (readForm stream).2 ∨ ∃ token, item = .ok token ∧
      readForm stream = (.failure (.unexpected token) 0, following.handBack token) := by
  have hfollowing := (h.of_next hnext).1
  rw [readForm, hnext, if_neg (by simp [hend]), readFrom]
  split
  next error rest heq =>
    obtain ⟨rfl, rfl⟩ := Prod.mk.inj (hnext.symm.trans heq)
    exact .inl (.refl hfollowing)
  next token rest heq =>
    obtain ⟨rfl, rfl⟩ := Prod.mk.inj (hnext.symm.trans heq)
    split
    next expected hstep => exact .inl (leaves_readFrom expected hfollowing)
    next form hstep => exact .inl (.refl hfollowing)
    next error hstep =>
      rw [Expectation.step_start_reject hstep]
      exact .inr ⟨token, rfl, rfl⟩

/-! ## A round of reading all forms -/

/-- A round of reading all forms that does not end it passes an item, whatever has failed. -/
theorem formRound_passes {reading following : SourceReading} (h : reading.rest.Settled)
    (hround : formRound reading = .inl following) :
    reading.rest.Leaves following.rest ∧ reading.rest.Passes following.rest := by
  have hnext : reading.rest.next = (reading.rest.next.1, reading.rest.next.2) := rfl
  have hend : reading.rest.next.1.isEnd = false := by
    apply isEnd_of_readForm
    intro hread
    rw [formRound, ← Prod.eta (readForm reading.rest), hread] at hround
    cases hround
  suffices hleaves : reading.rest.next.2.Leaves following.rest from
    ⟨(Leaves.of_next h hnext).trans hleaves, hleaves.passes h hnext hend⟩
  have hfollowing := (h.of_next hnext).1
  rcases readForm_first h hnext hend with hleaves | ⟨token, htoken, hfailure⟩
  · unfold formRound at hround
    split at hround
    next => cases hround
    next heq =>
      cases hround
      rwa [heq] at hleaves
    next error depth rest heq =>
      cases hround
      rw [heq] at hleaves
      exact hleaves.trans (leaves_recover error depth hleaves.settled)
  · rw [formRound, hfailure] at hround
    cases hround
    exact leaves_skipToken hfollowing (next_handBack _ token)

/-- Reading all forms ends, in at most one round for each item that is left and one for the end. -/
theorem readAll_endsIn (forms : Program) (errors : List SyntaxError) {stream : TokenStream}
    (h : stream.Settled) :
    ∃ rounds ≤ stream.pending.length + 1, EndsIn formRound rounds ⟨forms, errors, stream⟩
      ⟨forms ++ (readAll stream).forms, errors ++ (readAll stream).errors,
        (readAll stream).rest⟩ := by
  fun_induction readAll stream generalizing forms errors with
  | case1 stream rest hform =>
    exact ⟨1, by omega, .last (by simp [formRound, hform])⟩
  | case2 stream form rest hform _ following ih =>
    have hround : formRound ⟨forms, errors, stream⟩ = .inl ⟨forms ++ [form], errors, rest⟩ := by
      simp [formRound, hform]
    obtain ⟨hleaves, hpasses⟩ := formRound_passes h hround
    obtain ⟨rounds, hrounds, hends⟩ := ih (forms ++ [form]) errors hleaves.settled
    have hlt : rest.pending.length < stream.pending.length := hpasses.length_lt
    refine ⟨rounds + 1, by omega, .more hround ?_⟩
    simpa [following] using hends
  | case3 stream error depth rest hform _ following ih =>
    have hround : formRound ⟨forms, errors, stream⟩ =
        .inl ⟨forms, errors ++ [error], recover error depth rest⟩ := by
      simp [formRound, hform]
    obtain ⟨hleaves, hpasses⟩ := formRound_passes h hround
    obtain ⟨rounds, hrounds, hends⟩ := ih forms (errors ++ [error]) hleaves.settled
    have hlt : (recover error depth rest).pending.length < stream.pending.length :=
      hpasses.length_lt
    refine ⟨rounds + 1, by omega, .more hround ?_⟩
    simpa [following] using hends

/-- Once all forms have been read nothing is left. -/
theorem leaves_readAll {stream : TokenStream} (h : stream.Settled) :
    stream.Leaves (readAll stream).rest ∧ (readAll stream).rest.pending = [] := by
  fun_induction readAll stream with
  | case1 stream rest hform =>
    rcases h.next_cases with ⟨-, hitem, hrest⟩ | ⟨hend, -⟩
    · rw [readForm, if_pos (by rw [hitem]; rfl)] at hform
      obtain rfl : stream.next.2 = rest := (Prod.mk.inj hform).2
      exact ⟨.of_next h rfl, hrest⟩
    · have hagrees := readForm_agrees h hend
      rw [hform] at hagrees
      exact hagrees.elim
  | case2 stream form rest hform _ following ih =>
    have hround : formRound ⟨[], [], stream⟩ = .inl ⟨[form], [], rest⟩ := by
      simp [formRound, hform]
    obtain ⟨hleaves, -⟩ := formRound_passes h hround
    obtain ⟨hlast, hpending⟩ := ih hleaves.settled
    exact ⟨hleaves.trans hlast, hpending⟩
  | case3 stream error depth rest hform _ following ih =>
    have hround : formRound ⟨[], [], stream⟩ = .inl ⟨[], [error], recover error depth rest⟩ := by
      simp [formRound, hform]
    obtain ⟨hleaves, -⟩ := formRound_passes h hround
    obtain ⟨hlast, hpending⟩ := ih hleaves.settled
    exact ⟨hleaves.trans hlast, hpending⟩

/-- Where nothing is left there is no form. -/
theorem readForm_of_pending {stream : TokenStream} (h : stream.Settled)
    (hpending : stream.pending = []) : readForm stream = (.endOfSource, stream.next.2) := by
  rw [readForm, if_pos (h.isEnd_next hpending)]

/-- Where no items are left no forms and no errors are read. -/
theorem readAll_of_pending {stream : TokenStream} (h : stream.Settled)
    (hpending : stream.pending = []) : readAll stream = ⟨[], [], stream.next.2⟩ := by
  rw [readAll]
  split
  next heq =>
    rw [readForm_of_pending h hpending] at heq
    rw [(Prod.mk.inj heq).2]
  next heq =>
    rw [readForm_of_pending h hpending] at heq
    cases heq
  next heq =>
    rw [readForm_of_pending h hpending] at heq
    cases heq

/-! ## Wherever a reader can get to -/

namespace Reader

/-- What can be asked of a reader. -/
inductive Request
  | readForm
  | readAll
  | takeErrors

/-- The reader after a request. -/
def after (reader : Reader) : Request → Reader
  | .readForm => reader.readForm.2
  | .readAll => reader.readAll.2
  | .takeErrors => reader.takeErrors.2

/-- The reader after a row of requests. -/
def afterAll (reader : Reader) (requests : List Request) : Reader :=
  requests.foldl after reader

/-- A request leaves a part of what was left before. -/
theorem leaves_after {reader : Reader} (h : reader.stream.Settled) (request : Request) :
    reader.stream.Leaves (reader.after request).stream := by
  cases request with
  | readForm =>
    change reader.stream.Leaves (MiniScheme.readForm reader.stream).2
    unfold MiniScheme.readForm
    split
    · exact .of_next h rfl
    · exact leaves_readFrom .start h
  | readAll => exact (leaves_readAll h).1
  | takeErrors => exact .refl h

/-- Any number of requests leaves an end of what there was. -/
theorem leaves_afterAll {reader : Reader} (h : reader.stream.Settled) (requests : List Request) :
    reader.stream.Leaves (reader.afterAll requests).stream := by
  induction requests generalizing reader with
  | nil => exact .refl h
  | cons request requests ih =>
    have hfirst := leaves_after h request
    exact hfirst.trans (ih hfirst.settled)

/-- From the beginning of a source, a reader only ever has an end of it left. -/
theorem leaves_ofSource (source : String) (requests : List Request) :
    (TokenStream.ofSource source).Leaves ((ofSource source).afterAll requests).stream := by
  have hfresh : (ofSource source).stream.Settled := .fresh (.ofSource source)
  exact leaves_afterAll hfresh requests

/-- What is left before any round of reading all forms is an end of what was left before the first
one. -/
theorem leaves_rounds {first reading : SourceReading} (h : first.rest.Settled)
    (hrounds : Relation.ReflTransGen (fun before after => formRound before = .inl after)
      first reading) : first.rest.Leaves reading.rest := by
  induction hrounds with
  | refl => exact .refl h
  | tail _ hround ih => exact ih.trans (formRound_passes ih.settled hround).1

/-- Wherever some requests have left a reader of a source: reading a form comes to an end, and so
does skipping the rest of a group, in any state.  Reading all forms does so too, and every round
of it but the last passes an item of the source.  It leaves nothing, and whatever is asked later,
there is no form any more, and no error is recorded. -/
theorem reading_ends (source : String) (requests : List Request) :
    (∀ expectation stream, ∃ rounds ≤ stream.size + 1,
      EndsIn readRound rounds (expectation, stream) (readFrom expectation stream)) ∧
    (∀ inner stream, ∃ rounds ≤ stream.size + 1,
      EndsIn skipRound rounds (inner, stream) (skipGroup inner stream)) ∧
    let reader := (ofSource source).afterAll requests
    let first : SourceReading := ⟨[], reader.errors, reader.stream⟩
    (reader.readForm.1 = .endOfSource ∨ ∃ rounds ≤ reader.stream.size + 1,
      EndsIn readRound rounds (.start, reader.stream)
        (reader.readForm.1, reader.readForm.2.stream)) ∧
    (∃ rounds ≤ reader.stream.pending.length + 1, EndsIn formRound rounds first
      ⟨reader.readAll.1, reader.readAll.2.errors, reader.readAll.2.stream⟩) ∧
    (∀ reading following,
      Relation.ReflTransGen (fun before after => formRound before = .inl after) first reading →
      formRound reading = .inl following →
      reading.rest.pending <:+ (Cursor.ofSource source).items ∧
        reading.rest.Passes following.rest) ∧
    reader.readAll.2.stream.pending = [] ∧
    ∀ later : List Request,
      let reader := reader.readAll.2.afterAll later
      reader.readForm.1 = .endOfSource ∧ reader.readAll.1 = [] ∧
        reader.readAll.2.errors = reader.errors := by
  refine ⟨readFrom_endsIn, skipGroup_endsIn, ?_⟩
  intro reader first
  have hreader : (TokenStream.ofSource source).Leaves reader.stream :=
    leaves_ofSource source requests
  obtain ⟨hall, hnothing⟩ := leaves_readAll hreader.settled
  refine ⟨?_, readAll_endsIn [] reader.errors hreader.settled, ?_, hnothing, ?_⟩
  · cases hend : reader.stream.next.1.isEnd with
    | true =>
      left
      simp [readForm, MiniScheme.readForm, hend]
    | false =>
      right
      have hform : MiniScheme.readForm reader.stream = readFrom .start reader.stream := by
        rw [MiniScheme.readForm, if_neg (by simp [hend])]
      change ∃ rounds ≤ _, EndsIn readRound rounds _ (MiniScheme.readForm reader.stream)
      rw [hform]
      exact readFrom_endsIn .start reader.stream
  · intro reading following hrounds hround
    have hleaves := leaves_rounds hreader.settled hrounds
    have hsource := (hreader.trans hleaves).pending
    rw [TokenStream.ofSource, pending_fresh] at hsource
    exact ⟨hsource, (formRound_passes hleaves.settled hround).2⟩
  · intro later
    have hsettled : reader.readAll.2.stream.Settled := hall.settled
    have hlater := leaves_afterAll hsettled later
    have hpending : (reader.readAll.2.afterAll later).stream.pending = [] := by
      have hsuffix := hlater.pending
      rwa [show reader.readAll.2.stream.pending = [] from hnothing, List.suffix_nil] at hsuffix
    have hdone := hlater.settled
    generalize reader.readAll.2.afterAll later = last at hdone hpending
    simp [readForm, readAll, readForm_of_pending hdone hpending,
      readAll_of_pending hdone hpending]

end Reader

end MiniScheme

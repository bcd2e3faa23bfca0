import MiniScheme.Proofs.DescentSteps

/-!
# The books of every run

Wherever some requests have left a reader of a source, following the rules instead gives the same
forms and errors, in front of the same to come, and the books of the run are in order.

Main results:

- Theorem `parseForm_ends`: a form is read as the reader reads it.
- Theorem `skip_ends`: so is the rest of a group skipped, with a counter that is never lowered from
  zero.
- Theorem `parse_ends`: so are all forms read.
- Theorem `run_keepsBooks`: all this after any requests, from the beginning of a source.
-/

namespace MiniScheme

namespace Descent

variable {origin : Origin} {state : State} {stream : TokenStream} {fuel : Nat}

/-! ## One form -/

/-- What reading a form comes to, if it does not fail. -/
def answer : Option Form → FormReading
  | some form => .form form
  | none => .endOfSource

/-- Where the source has ended no form starts, and the end is handed back. -/
theorem ends_nextForm_of_isEnd {token : Token} {failed : SyntaxError → State → Prop}
    (h : state.Sound origin) (htoken : state.stream.next.1 = .ok token)
    (hkind : token.kind = .endOfSource) :
    (nextForm fuel).Ends state
      (fun form? after => form? = none ∧ after.Sound origin ∧
        after.stream.upcoming = state.stream.upcoming) failed := by
  have hlooked := h.unread_read htoken
  have hupcoming := State.upcoming_unread_read htoken
  have htoken' : (state.read.unread token).stream.next.1 = .ok token := rfl
  apply ends_bind
  apply ends_next htoken
  rw [if_neg (by simp [hkind])]
  apply ends_bind
  apply ends_unread
  -- The rule for an expression looks at the end once more.
  apply ends_bind
  apply ends_bind
  apply ends_bind
  apply ends_next htoken'
  apply ends_bind
  apply ends_unread
  apply ends_pure
  rw [hkind]
  exact ends_pure (ends_pure ⟨rfl, hlooked.unread_read htoken',
    (State.upcoming_unread_read htoken').trans hupcoming⟩)

/-- Where the source is at its end there is no form, and the end is passed. -/
theorem ends_formOrEnd_of_isEnd {failed : SyntaxError → State → Prop} (h : state.Sound origin)
    (hend : state.stream.next.1.isEnd = true) :
    (formOrEnd fuel).Ends state
      (fun form? after => form? = none ∧ after.Sound origin ∧
        after.stream.upcoming = state.stream.next.2.upcoming) failed := by
  obtain ⟨token, htoken, hkind⟩ : ∃ token, state.stream.next.1 = .ok token ∧
      token.kind = .endOfSource := by
    cases hitem : state.stream.next.1 with
    | ok token => exact ⟨token, rfl, by simpa [hitem, Item.isEnd] using hend⟩
    | error error => simp [hitem, Item.isEnd] at hend
  apply Rule.Ends.bind (ends_nextForm_of_isEnd h htoken hkind)
  rintro _ after ⟨rfl, hafter, hupcoming⟩
  have htoken' : after.stream.next.1 = .ok token :=
    (TokenStream.next_fst_congr hupcoming).trans htoken
  have hsound := hafter.settle_read htoken' (by simp [hkind]) (by simp [hkind])
  rw [State.settle, hkind] at hsound
  apply ends_bind
  apply ends_next htoken'
  rw [if_pos hkind]
  exact ends_pure ⟨rfl, hsound, TokenStream.upcoming_next_congr hupcoming⟩

/-- A form is read as the reader reads it, and the end is no form. -/
theorem ends_formOrEnd (h : state.Sound origin) (hdepth : state.depth = 0)
    (hupcoming : state.stream.upcoming = stream.upcoming) (hsize : stream.size < fuel) :
    (formOrEnd fuel).Ends state
      (fun form? after => (readForm stream).1 = answer form? ∧ after.Sound origin ∧
        after.stream.upcoming = (readForm stream).2.upcoming)
      (Fails origin (readForm stream)) := by
  cases hend : stream.next.1.isEnd with
  | true =>
    rw [readForm, if_pos hend]
    have hend' := hend
    rw [← TokenStream.next_fst_congr hupcoming] at hend'
    apply (ends_formOrEnd_of_isEnd h hend').mono _ fun _ _ hfails => hfails
    rintro _ after ⟨rfl, hafter, hrest⟩
    exact ⟨rfl, hafter, hrest.trans (TokenStream.upcoming_next_congr hupcoming)⟩
  | false =>
    rw [readForm, if_neg (by simp [hend])]
    have hfollows : Follows origin (readFrom .start stream) .start stream state :=
      ⟨h, hdepth, hupcoming, rfl⟩
    apply Rule.Ends.bind (leads_nextForm hsize hfollows)
    rintro (_ | form) after hfound
    · obtain ⟨hafter, hstops⟩ := hfound
      apply ends_bind
      apply leads_next hafter
      intro token htoken
      have hkind : token.kind ≠ .endOfSource := by simpa [htoken, Item.isEnd] using hend
      rw [if_neg hkind]
      exact leads_unexpected hafter htoken
        (Place.form.startExpression_of_not_starts (hstops token htoken))
    · obtain ⟨rest, -, hsound, hrest, hresult⟩ := hfound
      rw [← hresult]
      exact ends_pure ⟨rfl, hsound, hrest⟩

/-- A form is read as the reader reads it. -/
theorem parseForm_ends (h : state.Tracks origin 2)
    (hupcoming : state.stream.upcoming = stream.upcoming) (hsize : stream.size < fuel) :
    (parseForm fuel).Ends state
      (fun form? after => (readForm stream).1 = answer form? ∧
        after.Sound ⟨origin.source, state.kept⟩ ∧
        after.stream.upcoming = (readForm stream).2.upcoming)
      (Fails ⟨origin.source, state.kept⟩ (readForm stream)) := by
  apply ends_get
  apply ends_bind
  apply ends_set
  apply ends_bind
  apply ends_attempt
  apply (ends_formOrEnd h.begin rfl hupcoming hsize).mono
  · exact fun form? after hafter => ends_pure hafter
  · intro error after hafter
    apply ends_bind
    apply ends_modify
    exact ends_fail ⟨.noteFailure h hafter.sound, hafter.failure, hafter.upcoming⟩

/-! ## Recovery -/

/-- The books are in order, and the same is to come as from a stream of the reader. -/
structure Keeps (origin : Origin) (stream : TokenStream) (state : State) : Prop where
  tracks : state.Tracks origin 2
  upcoming : state.stream.upcoming = stream.upcoming

/-- An item is taken where the reader takes it. -/
theorem Keeps.of_next {rest : TokenStream} {item : Item} (h : Keeps origin stream state)
    (hnext : stream.next = (item, rest)) :
    state.stream.next.1 = item ∧ Keeps origin rest state.read := by
  obtain ⟨rfl, rfl⟩ := Prod.mk.inj hnext
  exact ⟨TokenStream.next_fst_congr h.upcoming,
    (h.tracks.read (Nat.le_succ 1)).mono (Nat.le_succ 1),
    TokenStream.upcoming_next_congr h.upcoming⟩

/-- A token is handed back where the reader hands it back. -/
theorem Keeps.unread {rest : TokenStream} {token : Token} (h : Keeps origin stream state)
    (hnext : stream.next = (.ok token, rest)) :
    Keeps origin (rest.handBack token) (state.read.unread token) := by
  obtain ⟨hitem, hread⟩ := h.of_next hnext
  have htaken : state.read.Tracks origin 1 := h.tracks.read (Nat.le_succ 1)
  refine ⟨htaken.unread (Nat.le_refl 2) (congrArg (· :: state.own) hitem), ?_⟩
  rw [TokenStream.upcoming_handBack, ← hread.upcoming]
  exact TokenStream.upcoming_handBack _ _

/-- How the rest of a group is skipped, by the kind of the next token. -/
theorem skipGroup_eq (inner : Nat) (stream : TokenStream) :
    skipGroup inner stream =
      match stream.next with
      | (.error _, rest) => skipGroup inner rest
      | (.ok token, rest) =>
        match token.kind with
        | .openParen | .openVector => skipGroup (inner + 1) rest
        | .closeParen =>
          match inner with
          | 0 => rest
          | inner + 1 => skipGroup inner rest
        | .endOfSource => rest.handBack token
        | _ => skipGroup inner rest := by
  rw [skipGroup]
  split
  next error rest hnext => simp only [hnext]
  next token rest hnext =>
    simp only [hnext]
    cases hkind : token.kind <;> rfl

/-- The rest of a group is skipped as the reader skips it. -/
theorem skip_ends {failed : SyntaxError → State → Prop} (inner : Nat)
    (h : Keeps origin stream state) (hsize : stream.size < fuel) :
    (skip fuel (inner + 1)).Ends state
      (fun _ after => Keeps origin (skipGroup inner stream) after) failed := by
  induction fuel generalizing inner stream state with
  | zero => exact absurd hsize (Nat.not_lt_zero _)
  | succ fuel ih =>
    rw [skipGroup_eq]
    apply ends_bind
    apply ends_read
    rcases hnext : stream.next with ⟨error | token, rest⟩
    · obtain ⟨hitem, hread⟩ := h.of_next hnext
      have hless := size_lt_of_next hnext rfl
      rw [hitem]
      exact ih inner hread (by omega)
    · obtain ⟨hitem, hread⟩ := h.of_next hnext
      have hless (hend : token.kind ≠ .endOfSource) : rest.size < fuel := by
        have hless := size_lt_of_next hnext (by simp [Item.isEnd, hend])
        omega
      rw [hitem]
      dsimp only
      cases hkind : token.kind with
      | openParen => exact ih (inner + 1) hread (hless (by simp [hkind]))
      | openVector => exact ih (inner + 1) hread (hless (by simp [hkind]))
      | closeParen =>
        have hlowered : Keeps origin rest (state.read.note (.lowering (inner + 1))) :=
          ⟨hread.tracks.note (Nat.succ_pos inner), hread.upcoming⟩
        apply ends_bind
        apply ends_modify
        cases inner with
        | zero => exact ends_pure hlowered
        | succ inner => exact ih inner hlowered (hless (by simp [hkind]))
      | endOfSource => exact ends_unread (h.unread hnext)
      | _ => exact ih inner hread (hless (by simp [hkind]))

/-- Where no group is open, a token that was rejected is skipped as the reader skips it. -/
theorem synchronize_ends {failed : SyntaxError → State → Prop} (h : Keeps origin stream state)
    (hsize : stream.size < fuel) :
    (synchronize fuel 0 false).Ends state
      (fun _ after => Keeps origin (skipToken stream) after) failed := by
  unfold synchronize skipToken
  rw [if_pos rfl, if_neg Bool.false_ne_true]
  apply ends_bind
  apply ends_read
  rcases hnext : stream.next with ⟨error | token, rest⟩
  · obtain ⟨hitem, hread⟩ := h.of_next hnext
    rw [hitem]
    exact ends_pure hread
  · obtain ⟨hitem, hread⟩ := h.of_next hnext
    rw [hitem]
    dsimp only
    split
    next =>
      have hrest := size_le_of_next hnext
      exact skip_ends 0 hread (by omega)
    next => exact ends_pure hread

/-- What is left of a form that failed is skipped as the reader skips it. -/
theorem recover_ends {failed : SyntaxError → State → Prop} (error : SyntaxError)
    (h : Keeps origin stream state) (hsize : stream.size < fuel) :
    (recover fuel error).Ends state
      (fun _ after => Keeps origin (MiniScheme.recover error state.depth stream) after) failed := by
  have hgivenUp : Keeps origin stream state.giveUp :=
    ⟨⟨h.tracks.earlier, h.tracks.returned_le, h.tracks.order, h.tracks.moments⟩, h.upcoming⟩
  apply ends_get
  apply ends_bind
  apply ends_set
  cases state.depth with
  | zero =>
    cases error with
    | lexical error => exact ends_pure hgivenUp
    | unexpected token => exact synchronize_ends hgivenUp hsize
    | expected kind token => exact synchronize_ends hgivenUp hsize
  | succ inner =>
    unfold synchronize
    rw [if_neg (Nat.succ_ne_zero inner)]
    exact skip_ends inner hgivenUp hsize

/-! ## All forms -/

/-- Reading a form leaves no more than there was. -/
theorem size_readForm_le (stream : TokenStream) : (readForm stream).2.size ≤ stream.size := by
  unfold readForm
  split
  · exact stream.size_next_le
  · exact size_readFrom_le _ _

/-- The books are in order at a place in a source. -/
def KeepsBooks (source : String) (stream : TokenStream) (state : State) : Prop :=
  ∃ earlier, Keeps ⟨source, earlier⟩ stream state

variable {source : String}

/-- Reading all forms reads the first one and then the others. -/
theorem readAll_eq (stream : TokenStream) :
    readAll stream =
      match readForm stream with
      | (.endOfSource, rest) => ⟨[], [], rest⟩
      | (.form form, rest) => { readAll rest with forms := form :: (readAll rest).forms }
      | (.failure error depth, rest) =>
        { readAll (MiniScheme.recover error depth rest) with
          errors := error :: (readAll (MiniScheme.recover error depth rest)).errors } := by
  fun_cases readAll stream with
  | case1 rest hform => rw [hform]
  | case2 form rest hform => rw [hform]
  | case3 error depth rest hform => rw [hform]

/-- All forms are read as the reader reads them. -/
theorem parse_ends {failed : SyntaxError → State → Prop} (rounds : Nat)
    (h : KeepsBooks source stream state) (hsize : stream.size < fuel)
    (hrounds : stream.size < rounds) :
    (parse fuel rounds).Ends state
      (fun read after => read = ((readAll stream).forms, (readAll stream).errors) ∧
        KeepsBooks source (readAll stream).rest after) failed := by
  induction rounds generalizing stream state with
  | zero => exact absurd hrounds (Nat.not_lt_zero _)
  | succ rounds ih =>
    obtain ⟨earlier, htracks, hupcoming⟩ := h
    have hleft := size_readForm_le stream
    apply ends_bind
    apply ends_attempt
    apply (parseForm_ends htracks hupcoming hsize).mono
    · rintro (_ | form) after ⟨hanswer, hsound, hrest⟩
      · have hform : readForm stream = (.endOfSource, (readForm stream).2) := Prod.ext hanswer rfl
        rw [readAll_eq, hform]
        exact ends_pure ⟨rfl, _, hsound.toTracks, hrest⟩
      · have hform : readForm stream = (.form form, (readForm stream).2) := Prod.ext hanswer rfl
        have hless := size_readForm_lt hform
        rw [readAll_eq, hform]
        apply Rule.Ends.bind (ih ⟨_, hsound.toTracks, hrest⟩ (by omega) (by omega))
        rintro _ last ⟨rfl, hlast⟩
        exact ends_pure ⟨rfl, hlast⟩
    · intro error after hfails
      have hform : readForm stream = (.failure error after.depth, (readForm stream).2) :=
        Prod.ext hfails.failure rfl
      have hless := size_recover_readForm_lt hform
      rw [readAll_eq, hform]
      apply Rule.Ends.bind (recover_ends error ⟨hfails.sound.toTracks, hfails.upcoming⟩
        (by omega))
      intro _ behind hbehind
      apply Rule.Ends.bind (ih ⟨_, hbehind⟩ (by omega) (by omega))
      rintro _ last ⟨rfl, hlast⟩
      exact ends_pure ⟨rfl, hlast⟩

/-! ## Wherever a reader can get to -/

/-- Reading all forms leaves no more than there was. -/
theorem size_readAll_le (stream : TokenStream) : (readAll stream).rest.size ≤ stream.size := by
  fun_induction readAll stream with
  | case1 stream rest hform =>
    have hrest := size_readForm_le stream
    rwa [hform] at hrest
  | case2 stream form rest hform hless following ih => exact Nat.le_trans ih (Nat.le_of_lt hless)
  | case3 stream error depth rest hform hless following ih =>
    exact Nat.le_trans ih (Nat.le_of_lt hless)

/-- The state after a request. -/
def State.after (fuel : Nat) (state : State) : Reader.Request → State
  | .readForm => ((parseForm fuel).on state).2
  | .readAll => ((parse fuel fuel).on state).2
  | .takeErrors => state

/-- The state after a row of requests. -/
def State.afterAll (fuel : Nat) (state : State) (requests : List Reader.Request) : State :=
  requests.foldl (after fuel) state

variable {reader : Reader}

/-- After a request the books are in order where the reader is. -/
theorem keepsBooks_after (h : KeepsBooks source reader.stream state)
    (hsize : reader.stream.size < fuel) (request : Reader.Request) :
    KeepsBooks source (reader.after request).stream (state.after fuel request) := by
  cases request with
  | readForm =>
    obtain ⟨earlier, htracks, hupcoming⟩ := h
    exact (parseForm_ends htracks hupcoming hsize).on_snd
      (fun _ _ hform => ⟨_, hform.2.1.toTracks, hform.2.2⟩)
      fun _ _ hfails => ⟨_, hfails.sound.toTracks, hfails.upcoming⟩
  | readAll =>
    have hread : (parse fuel fuel).Ends state
        (fun _ after => KeepsBooks source (readAll reader.stream).rest after)
        (fun _ _ => False) :=
      (parse_ends fuel h hsize hsize).mono (fun _ _ hread => hread.2) fun _ _ => id
    exact hread.on_snd (fun _ _ => id) fun _ _ => False.elim
  | takeErrors => exact h

/-- No request to a reader leaves more than there was. -/
theorem size_after_le (reader : Reader) (request : Reader.Request) :
    (reader.after request).stream.size ≤ reader.stream.size := by
  cases request with
  | readForm => exact size_readForm_le reader.stream
  | readAll => exact size_readAll_le reader.stream
  | takeErrors => exact Nat.le_refl _

/-- So they are after a row of requests. -/
theorem keepsBooks_afterAll (h : KeepsBooks source reader.stream state)
    (hsize : reader.stream.size < fuel) (requests : List Reader.Request) :
    KeepsBooks source (reader.afterAll requests).stream (state.afterAll fuel requests) ∧
      (reader.afterAll requests).stream.size < fuel := by
  induction requests generalizing reader state with
  | nil => exact ⟨h, hsize⟩
  | cons request requests ih =>
    exact ih (keepsBooks_after h hsize request)
      (Nat.lt_of_le_of_lt (size_after_le reader request) hsize)

/-- The rules give what the reader gives, from wherever some requests have left it, and the books of
the whole run are in order.  At each moment at most two tokens have been handed back, and the items
that were kept, and behind them those to come, are the items of the source and the end for ever.  No
counter is lowered from zero.  Where a form fails, the items that were to come before it are those
that it has kept and those to come after it; its counter is how many more opening than closing
parentheses it has kept, and it has kept no opening of a vector. -/
theorem run_keepsBooks (source : String) (requests : List Reader.Request) :
    let fuel := (TokenStream.ofSource source).size + 1
    let state := (State.ofSource source).afterAll fuel requests
    let reader := (Reader.ofSource source).afterAll requests
    state.stream.upcoming = reader.stream.upcoming ∧
    (∀ moment ∈ state.moments, moment.Sound source) ∧
    (parseForm fuel).Ends state
      (fun form? after => reader.readForm.1 = answer form? ∧
        after.stream.upcoming = reader.readForm.2.stream.upcoming)
      (fun error after => reader.readForm.1 = .failure error after.depth ∧
        after.stream.upcoming = reader.readForm.2.stream.upcoming ∧
        after.own.reverse ++ₛ after.stream.upcoming = state.stream.upcoming ∧
        Balanced after.depth after.own) ∧
    (parse fuel fuel).Ends state
      (fun read after => reader.readAll.1 = read.1 ∧
        reader.readAll.2.errors = reader.errors ++ read.2 ∧
        after.stream.upcoming = reader.readAll.2.stream.upcoming)
      (fun _ _ => False) := by
  intro fuel state reader
  have hstart : KeepsBooks source (Reader.ofSource source).stream (State.ofSource source) :=
    ⟨[], (State.tracks_ofSource source).mono (Nat.zero_le 2), rfl⟩
  obtain ⟨hbooks, hsize⟩ := keepsBooks_afterAll hstart (Nat.lt_succ_self _) requests
  obtain ⟨earlier, htracks, hupcoming⟩ := id hbooks
  refine ⟨hupcoming, htracks.moments, ?_, ?_⟩
  · apply (parseForm_ends htracks hupcoming hsize).mono
    · rintro form? after ⟨hanswer, -, hrest⟩
      exact ⟨hanswer, hrest⟩
    · intro error after hfails
      exact ⟨hfails.failure, hfails.upcoming, htracks.own_order hfails.sound.toTracks,
        hfails.sound.balanced⟩
  · apply (parse_ends fuel hbooks hsize hsize).mono
    · rintro _ after ⟨rfl, _, -, hrest⟩
      exact ⟨rfl, rfl, hrest⟩
    · exact fun _ _ => id

end Descent

end MiniScheme

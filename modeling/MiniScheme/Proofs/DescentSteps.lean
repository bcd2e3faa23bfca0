import MiniScheme.Proofs.Books
import MiniScheme.Proofs.Completeness
import MiniScheme.Proofs.Progress

/-!
# Rules follow expectations

A rule reads what an expectation reads.  Where the reader expects what a rule is for, in front of a
stream with the same to come, the rule keeps token after token that the expectation goes on with,
and ends where its construct is complete; or it fails with the error of the reader, in front of a
stream with the same to come, and its counter is the number of groups that the reader knows to be
open.  The tokens that a rule looks at and hands back do not count.

One lemma says what becomes of a token that a rule keeps.  It takes one step of the expectation,
and since no group is open where the reader takes no closing parenthesis, the counter is not zero
when it is lowered.  With that there is one lemma for each rule, and the rules for expressions and
data that are used in it are known from the induction on the fuel.

Main results:

- Theorem `Follows.reaches`: what becomes of a token that is kept.
- Theorems `readsData_datum` and `readsExpressions_expression`: with more fuel than there is to
  read, a datum and an expression are read as the reader reads them.
- Theorem `leads_nextForm`: so is a form, if one starts.
-/

namespace MiniScheme

/-- Where no group is open nothing goes on with a closing parenthesis. -/
theorem Expectation.step_close {expectation : Expectation} (hdepth : expectation.depth = 0)
    {token : Token} (h : token.kind = .closeParen) :
    ∃ error, expectation.step token = .reject error := by
  rcases (Expectation.depth_eq_zero_iff expectation).1 hdepth with rfl | rfl
  · exact ⟨_, by simp [step, start, Place.startExpression, h, TokenKind.isAtom]; rfl⟩
  · exact ⟨_, by simp [step, DatumPlace.startDatum, h, TokenKind.isAtom]; rfl⟩

/-- No expression is rejected where it is complete. -/
theorem Place.fill_ne_reject (place : Place) (expression : Expression) (error : SyntaxError) :
    place.fill expression ≠ .reject error := by
  cases place <;> simp [fill]

/-- No datum is rejected where it is complete. -/
theorem DatumPlace.fill_ne_reject (place : DatumPlace) (datum : Datum) (error : SyntaxError) :
    place.fill datum ≠ .reject error := by
  cases place <;> simp [fill, Place.fill_ne_reject]

/-- Where an expression must start, a token that opens nothing is an atom or rejected. -/
theorem Place.startExpression_of_ne (place : Place) {token : Token}
    (hopening : token.kind ≠ .openParen) (hmark : token.kind ≠ .quoteMark) :
    place.startExpression token =
      if token.kind.isAtom then place.fill (.literal token) else .reject (.unexpected token) := by
  unfold startExpression
  split
  next hkind => exact absurd hkind hopening
  next hkind => exact absurd hkind hmark
  next => rfl

/-- What starts no expression is rejected there. -/
theorem Place.startExpression_of_not_starts (place : Place) {token : Token}
    (h : token.kind.startsExpression = false) :
    place.startExpression token = .reject (.unexpected token) := by
  simp only [TokenKind.startsExpression, TokenKind.startsDatum, Bool.or_eq_false_iff,
    decide_eq_false_iff_not] at h
  rw [place.startExpression_of_ne h.1.2 h.2, h.1.1, if_neg Bool.false_ne_true]

/-- So it is where a datum must start. -/
theorem DatumPlace.startDatum_of_ne (place : DatumPlace) {token : Token}
    (hopening : token.kind ≠ .openParen) :
    place.startDatum token =
      if token.kind.isAtom then place.fill (.atom token) else .reject (.unexpected token) := by
  unfold startDatum
  split
  next hkind => exact absurd hkind hopening
  next => rfl

/-- Behind an opening parenthesis a token that selects no construct belongs to a head. -/
theorem Place.startConstruct_of_ne (place : Place) {token : Token}
    (hlambda : token.kind ≠ .keyword .lambda) (hconditional : token.kind ≠ .keyword .conditional)
    (hquote : token.kind ≠ .keyword .quote)
    (hdefine : place = .form → token.kind ≠ .keyword .define) :
    place.startConstruct token = (Place.head place).startExpression token := by
  unfold startConstruct
  split
  next hkind => exact absurd hkind hlambda
  next hkind => exact absurd hkind hconditional
  next hkind => exact absurd hkind hquote
  next hkind => exact absurd hkind (hdefine rfl)
  next => rfl

/-- Reading goes on after a round that does not end it. -/
theorem readFrom_round (expectation : Expectation) (stream : TokenStream) :
    readFrom expectation stream =
      (readRound (expectation, stream)).elim (fun following => readFrom following.1 following.2)
        id := by
  fun_cases readFrom expectation stream with
  | case1 error rest hnext => simp [readRound, hnext]
  | case2 token rest hnext following hstep => simp [readRound, hnext, hstep]
  | case3 token rest hnext form hstep => simp [readRound, hnext, hstep]
  | case4 token rest hnext error hstep => simp [readRound, hnext, hstep]

/-- Expectations that take the next token alike read alike. -/
theorem readFrom_congr {expectation expectation' : Expectation} {stream : TokenStream}
    {token : Token} (htoken : stream.next.1 = .ok token)
    (hdepth : expectation'.depth = expectation.depth)
    (hstep : expectation'.step token = expectation.step token) :
    readFrom expectation' stream = readFrom expectation stream := by
  have hnext : stream.next = (.ok token, stream.next.2) := Prod.ext htoken rfl
  have hround : readRound (expectation', stream) = readRound (expectation, stream) := by
    rw [readRound, readRound, hnext]
    simp only [hstep, hdepth]
  rw [readFrom_round, readFrom_round, hround]

namespace Descent

variable {α : Type} {origin : Origin} {result : FormReading × TokenStream}

/-! ## Following an expectation -/

/-- The state is where the reader is that expects something in front of a stream and is going to
have a result. -/
structure Follows (origin : Origin) (result : FormReading × TokenStream)
    (expectation : Expectation) (stream : TokenStream) (state : State) : Prop where
  sound : state.Sound origin
  depth : state.depth = expectation.depth
  upcoming : state.stream.upcoming = stream.upcoming
  reading : readFrom expectation stream = result

/-- The state is where the reader is after a step. -/
def Reaches (origin : Origin) (result : FormReading × TokenStream) (step : Step)
    (stream : TokenStream) (state : State) : Prop :=
  match step with
  | .next expectation => Follows origin result expectation stream state
  | .form form => state.Sound origin ∧ state.stream.upcoming = stream.upcoming ∧
      (.form form, stream) = result
  | .reject _ => False

/-- A form fails as the reader does. -/
structure Fails (origin : Origin) (result : FormReading × TokenStream) (error : SyntaxError)
    (state : State) : Prop where
  sound : state.Sound origin
  failure : result.1 = .failure error state.depth
  upcoming : state.stream.upcoming = result.2.upcoming

/-- Following a rule ends as is said, or fails as the reader does. -/
abbrev Leads (origin : Origin) (result : FormReading × TokenStream) (rule : Rule α)
    (state : State) (done : α → State → Prop) : Prop :=
  rule.Ends state done (Fails origin result)

namespace Follows

variable {expectation : Expectation} {stream : TokenStream} {state : State} {token : Token}

/-- The next item is that of the reader. -/
theorem next_eq (h : Follows origin result expectation stream state) :
    state.stream.next.1 = stream.next.1 :=
  TokenStream.next_fst_congr h.upcoming

/-- What is expected may be said in another way that takes the next token alike. -/
theorem congr {expectation' : Expectation} (h : Follows origin result expectation stream state)
    (htoken : stream.next.1 = .ok token) (hdepth : expectation'.depth = expectation.depth)
    (hstep : expectation'.step token = expectation.step token) :
    Follows origin result expectation' stream state :=
  ⟨h.sound, h.depth.trans hdepth.symm, h.upcoming,
    (readFrom_congr htoken hdepth hstep).trans h.reading⟩

/-- A token that is looked at changes nothing. -/
theorem unread_read (h : Follows origin result expectation stream state)
    (htoken : stream.next.1 = .ok token) :
    Follows origin result expectation stream (state.read.unread token) :=
  have htoken' := h.next_eq.trans htoken
  ⟨h.sound.unread_read htoken', h.depth, (State.upcoming_unread_read htoken').trans h.upcoming,
    h.reading⟩

/-- A lexical error is the reader's. -/
theorem fails_lexical {error : LexicalError} (h : Follows origin result expectation stream state)
    (herror : stream.next.1 = .error error) : Fails origin result (.lexical error) state.read := by
  have hresult := h.reading
  have hnext : stream.next = (.error error, stream.next.2) := Prod.ext herror rfl
  rw [readFrom_round, readRound, hnext] at hresult
  subst hresult
  refine ⟨h.sound.read_error (h.next_eq.trans herror), ?_,
    TokenStream.upcoming_next_congr h.upcoming⟩
  exact congrArg _ h.depth.symm

/-- A token that the reader rejects is handed back. -/
theorem fails_reject {error : SyntaxError} (h : Follows origin result expectation stream state)
    (htoken : stream.next.1 = .ok token) (hstep : expectation.step token = .reject error) :
    Fails origin result error (state.read.unread token) := by
  have hlooked := h.unread_read htoken
  have hresult := h.reading
  have hnext : stream.next = (.ok token, stream.next.2) := Prod.ext htoken rfl
  rw [readFrom_round, readRound, hnext] at hresult
  simp only [hstep, Sum.elim_inr, id_eq] at hresult
  subst hresult
  refine ⟨hlooked.sound, congrArg _ h.depth.symm, ?_⟩
  rw [hlooked.upcoming, TokenStream.upcoming_handBack_of_next hnext]

/-- A counter that is lowered is not zero. -/
theorem depth_pos (h : Follows origin result expectation stream state)
    (hstep : ∀ error, expectation.step token ≠ .reject error)
    (hclose : token.kind = .closeParen) : 0 < state.depth := by
  rw [h.depth, Nat.pos_iff_ne_zero]
  intro hdepth
  obtain ⟨error, herror⟩ := Expectation.step_close hdepth hclose
  exact hstep error herror

/-- A token that is kept takes a step, and less is left to read. -/
theorem reaches (h : Follows origin result expectation stream state)
    (htoken : stream.next.1 = .ok token) (hstep : ∀ error, expectation.step token ≠ .reject error) :
    Reaches origin result (expectation.step token) stream.next.2 (state.read.settle token) ∧
      stream.next.2.size < stream.size := by
  have hvector : token.kind ≠ .openVector := by
    intro hkind
    obtain ⟨error, herror⟩ := expectation.step_vector hkind
    exact hstep error herror
  have hend : stream.next.1.isEnd = false := by
    rw [htoken, Item.isEnd, decide_eq_false_iff_not]
    intro hkind
    obtain ⟨error, herror⟩ := expectation.step_end hkind
    exact hstep error herror
  have hsound := h.sound.settle_read (h.next_eq.trans htoken) hvector (h.depth_pos hstep)
  have hdepth : (state.read.settle token).depth =
      Item.depthAfter expectation.depth (.ok token) := by
    rw [State.depth_settle _ hvector, ← h.depth]
    rfl
  have hupcoming : (state.read.settle token).stream.upcoming = stream.next.2.upcoming := by
    rw [State.stream_settle]
    exact TokenStream.upcoming_next_congr h.upcoming
  have hresult := h.reading
  have hnext : stream.next = (.ok token, stream.next.2) := Prod.ext htoken rfl
  have hleaves := expectation.step_leaves token
  rw [readFrom_round, readRound, hnext] at hresult
  refine ⟨?_, TokenStream.size_next_lt stream hend⟩
  cases hwhat : expectation.step token with
  | next following =>
    rw [hwhat] at hleaves
    obtain @⟨_, hfollowing, -⟩ := hleaves
    simp only [hwhat] at hresult
    exact ⟨hsound, hdepth.trans hfollowing.symm, hupcoming, hresult⟩
  | form form =>
    simp only [hwhat] at hresult
    exact ⟨hsound, hupcoming, hresult⟩
  | reject error => exact hstep error hwhat

end Follows

/-! ## Taking tokens -/

section

variable {expectation : Expectation} {stream : TokenStream} {state : State}

/-- Reading one token follows the reader, whatever the token is. -/
theorem leads_next {done : Token → State → Prop}
    (h : Follows origin result expectation stream state)
    (hdone : ∀ token, stream.next.1 = .ok token → done token state.read) :
    Leads origin result next state done := by
  apply ends_bind
  apply ends_read
  have hnext := h.next_eq
  cases hitem : state.stream.next.1 with
  | ok token => exact hdone token (hnext.symm.trans hitem)
  | error error => exact h.fails_lexical (hnext.symm.trans hitem)

/-- A token that is rejected as unexpected is the reader's. -/
theorem leads_unexpected {done : α → State → Prop} {token : Token}
    (h : Follows origin result expectation stream state) (htoken : stream.next.1 = .ok token)
    (hstep : expectation.step token = .reject (.unexpected token)) :
    Leads origin result (unexpected token) state.read done :=
  ends_bind (ends_unread (h.fails_reject htoken hstep))

/-- Looking at a token leaves the state where the reader is. -/
theorem leads_peek {done : TokenKind → State → Prop}
    (h : Follows origin result expectation stream state)
    (hdone : ∀ token after, stream.next.1 = .ok token →
      Follows origin result expectation stream after → done token.kind after) :
    Leads origin result peek state done := by
  apply ends_bind
  apply leads_next h
  intro token htoken
  apply ends_bind
  apply ends_unread
  exact hdone token _ htoken (h.unread_read htoken)

/-- So does looking at the token behind an opening parenthesis. -/
theorem leads_peekBehind {place : Place} {opening : Token} {done : TokenKind → State → Prop}
    (h : Follows origin result (.expression place) stream state)
    (hopening : stream.next.1 = .ok opening) (hkind : opening.kind = .openParen)
    (hdone : ∀ second after, stream.next.2.next.1 = .ok second →
      Follows origin result (.expression place) stream after → done second.kind after) :
    Leads origin result (peekBehind opening) state.read done := by
  have hstep := Expectation.step_expression_open place ⟨opening, hkind⟩
  obtain ⟨hopened, -⟩ := h.reaches hopening (by simp [hstep])
  rw [hstep] at hopened
  have hnext := hopened.next_eq
  rw [State.stream_settle] at hnext
  apply ends_bind
  apply ends_bind
  apply ends_read
  cases hitem : state.read.stream.next.1 with
  | ok second =>
    have hsecond := hnext.symm.trans hitem
    have hopening' := h.next_eq.trans hopening
    apply ends_pure
    apply ends_bind
    apply ends_unread
    apply ends_bind
    apply ends_unread
    refine hdone second _ hsecond ⟨?_, h.depth, ?_, h.reading⟩
    · exact h.sound.unread_unread_read_read hopening' hitem
    · exact (State.upcoming_unread_unread_read_read hopening' hitem).trans h.upcoming
  | error error =>
    have hfails := hopened.fails_lexical (hnext.symm.trans hitem)
    apply ends_bind
    apply ends_modify
    apply ends_fail
    rw [State.settle, hkind] at hfails
    exact hfails

/-- A token of a kind is kept, or the reader expects one too. -/
theorem leads_expect {kind : TokenKind} {following : Token → Step} {done : Token → State → Prop}
    (h : Follows origin result expectation stream state)
    (hstep : ∀ token, stream.next.1 = .ok token →
      expectation.step token = Expectation.require kind token (following token))
    (hfollowing : ∀ token error, following token ≠ .reject error)
    (hdone : ∀ token after, stream.next.1 = .ok token →
      Reaches origin result (following token) stream.next.2 after →
      stream.next.2.size < stream.size → done token after) :
    Leads origin result (expect kind) state done := by
  apply ends_bind
  apply leads_next h
  intro token htoken
  have hstep := hstep token htoken
  by_cases hkind : token.kind = kind
  · rw [Expectation.require, if_pos hkind] at hstep
    obtain ⟨hreaches, hsize⟩ := h.reaches htoken (by simp [hstep, hfollowing])
    rw [hstep] at hreaches
    have hkept := hdone token _ htoken hreaches hsize
    rw [State.settle, hkind] at hkept
    rw [if_pos hkind]
    cases kind with
    | openParen => exact ends_bind (ends_modify hkept)
    | closeParen => exact ends_bind (ends_modify hkept)
    | _ => exact hkept
  · rw [Expectation.require, if_neg hkind] at hstep
    rw [if_neg hkind]
    apply ends_bind
    apply ends_unread
    exact ends_fail (h.fails_reject htoken hstep)

/-- A token that is known to be of the kind is kept. -/
theorem leads_expect_of_kind {kind : TokenKind} {following : Expectation} {token : Token}
    {done : Token → State → Prop} (h : Follows origin result expectation stream state)
    (htoken : stream.next.1 = .ok token) (hkind : token.kind = kind)
    (hstep : expectation.step token = .next following)
    (hdone : ∀ after, Follows origin result following stream.next.2 after →
      stream.next.2.size < stream.size → done token after) :
    Leads origin result (expect kind) state done := by
  have hrequired : ∀ token', stream.next.1 = .ok token' →
      expectation.step token' = Expectation.require kind token' (.next following) := by
    intro token' htoken'
    obtain rfl : token = token' := Except.ok.inj (htoken.symm.trans htoken')
    rw [hstep, Expectation.require, if_pos hkind]
  apply leads_expect h hrequired (fun _ _ => nofun)
  intro token' after htoken' hreaches hsize
  obtain rfl : token = token' := Except.ok.inj (htoken.symm.trans htoken')
  exact hdone after hreaches hsize

end

/-! ## Going on -/

/-- After a step the state is where the reader is with less left to read. -/
def Completes (origin : Origin) (result : FormReading × TokenStream) (step : Step)
    (stream : TokenStream) (after : State) : Prop :=
  ∃ rest, rest.size < stream.size ∧ Reaches origin result step rest after

/-- What goes on with less left goes on with at least as little left of more. -/
theorem Completes.mono {step : Step} {stream before : TokenStream} {after : State}
    (hsize : stream.size ≤ before.size) (h : Completes origin result step stream after) :
    Completes origin result step before after := by
  obtain ⟨rest, hless, hreaches⟩ := h
  exact ⟨rest, Nat.lt_of_lt_of_le hless hsize, hreaches⟩

/-- Something was found that takes a step, or nothing of its kind starts here. -/
def Found (origin : Origin) (result : FormReading × TokenStream) (expectation : Expectation)
    (step : α → Step) (starts : TokenKind → Bool) (stream : TokenStream) : Option α → State → Prop
  | none, after => Follows origin result expectation stream after ∧
      ∀ token, stream.next.1 = .ok token → starts token.kind = false
  | some value, after => Completes origin result (step value) stream after

/-- A row is read for as long as something of its kind starts. -/
theorem leads_many (expected : List α → Expectation) {starts : TokenKind → Bool}
    {rule : Rule (Option α)} {bound : Nat}
    (hrule : ∀ read stream state, stream.size < bound →
      Follows origin result (expected read) stream state →
      Leads origin result rule state
        (Found origin result (expected read) (fun value => .next (expected (value :: read))) starts
          stream))
    (fuel : Nat) {read : List α} {stream : TokenStream} {state : State}
    (hbound : stream.size < bound) (hfuel : stream.size < fuel)
    (h : Follows origin result (expected read) stream state) :
    Leads origin result (many rule fuel) state fun values after =>
      ∃ rest, rest.size ≤ stream.size ∧
        Follows origin result (expected (values.reverse ++ read)) rest after ∧
        ∀ token, rest.next.1 = .ok token → starts token.kind = false := by
  induction fuel generalizing read stream state with
  | zero => exact absurd hfuel (Nat.not_lt_zero _)
  | succ fuel ih =>
    apply Rule.Ends.bind (hrule read stream state hbound h)
    rintro (_ | value) after hfound
    · exact ends_pure ⟨stream, Nat.le_refl _, hfound⟩
    · obtain ⟨rest, hrest, hfollows⟩ := hfound
      apply Rule.Ends.bind (ih (by omega) (by omega) hfollows)
      rintro values last ⟨behind, hbehind, hlast, hstops⟩
      refine ends_pure ⟨behind, by omega, ?_, hstops⟩
      rwa [List.reverse_cons, List.append_assoc, List.singleton_append]

/-- A token is an atom and kept, or it is unexpected. -/
theorem leads_atom {expectation : Expectation} {step : Step} {stream : TokenStream} {state : State}
    {token : Token} {value : α} {done : α → State → Prop}
    (h : Follows origin result expectation stream state) (htoken : stream.next.1 = .ok token)
    (hstep : expectation.step token =
      if token.kind.isAtom then step else .reject (.unexpected token))
    (hfollowing : ∀ error, step ≠ .reject error)
    (hdone : ∀ after, Completes origin result step stream after → done value after) :
    Leads origin result (if token.kind.isAtom then pure value else unexpected token) state.read
      done := by
  cases hatom : token.kind.isAtom with
  | true =>
    rw [hatom, if_pos rfl] at hstep
    obtain ⟨hreaches, hless⟩ := h.reaches htoken (by simpa [hstep] using hfollowing)
    rw [hstep, State.settle_of_isAtom hatom] at hreaches
    exact ends_pure (hdone _ ⟨_, hless, hreaches⟩)
  | false =>
    rw [hatom, if_neg Bool.false_ne_true] at hstep
    exact leads_unexpected h htoken hstep

/-- The parenthesis that closes a construct takes the last step. -/
theorem leads_closing {expectation : Expectation} {step : Step} {stream : TokenStream}
    {state : State} {value : α} {done : α → State → Prop}
    (h : Follows origin result expectation stream state)
    (hstep : ∀ token, stream.next.1 = .ok token →
      expectation.step token = Expectation.require .closeParen token step)
    (hfollowing : ∀ error, step ≠ .reject error)
    (hdone : ∀ after, Completes origin result step stream after → done value after) :
    Leads origin result (expect .closeParen >>= fun _ => pure value) state done := by
  apply ends_bind
  apply leads_expect h hstep fun _ => hfollowing
  intro token after htoken hreaches hless
  exact ends_pure (hdone after ⟨_, hless, hreaches⟩)

/-! ## Data -/

/-- With so much fuel data are read as the reader reads them. -/
def ReadsData (origin : Origin) (fuel : Nat) (rule : Rule Datum) : Prop :=
  ∀ (result : FormReading × TokenStream) (place : DatumPlace) (stream : TokenStream)
    (state : State), stream.size < fuel → Follows origin result (.datum place) stream state →
    Leads origin result rule state fun value after =>
      Completes origin result (place.fill value) stream after

section Data

variable {fuel : Nat} {datum : Rule Datum} {stream : TokenStream} {state : State}

/-- The rule for the next datum of a list follows the reader, given the rule for data. -/
theorem leads_nextDatum (hdatum : ReadsData origin fuel datum) {place : DatumPlace}
    (read : List Datum) (stream : TokenStream) (state : State) (hsize : stream.size < fuel)
    (h : Follows origin result (.items read place) stream state) :
    Leads origin result (nextDatum datum) state
      (Found origin result (.items read place) (DatumPlace.item read place).fill
        TokenKind.startsDatum stream) := by
  apply ends_bind
  apply leads_peek h
  intro token after htoken hafter
  cases hstarts : token.kind.startsDatum with
  | true =>
    have hitem : Follows origin result (.datum (.item read place)) stream after := by
      refine hafter.congr htoken rfl ?_
      simp [Expectation.step, hstarts]
    exact Rule.Ends.bind (hdatum result _ stream after hsize hitem)
      fun _ _ hvalue => ends_pure hvalue
  | false =>
    refine ends_pure ⟨hafter, ?_⟩
    rw [htoken]
    rintro _ ⟨⟩
    exact hstarts

/-- The rule for a list follows the reader, given the rule for data. -/
theorem leads_list (hdatum : ReadsData origin fuel datum) {place : DatumPlace} {opening : Token}
    (hsize : stream.size ≤ fuel) (h : Follows origin result (.datum place) stream state)
    (hopening : stream.next.1 = .ok opening) (hkind : opening.kind = .openParen) :
    Leads origin result (list fuel datum) state fun value after =>
      Completes origin result (place.fill value) stream after := by
  have hstep : Expectation.step (.datum place) opening = .next (.items [] place) := by
    simp [Expectation.step, DatumPlace.startDatum, hkind]
  apply ends_bind
  apply leads_expect_of_kind h hopening hkind hstep
  intro opened hopened hless
  apply Rule.Ends.bind (leads_many (.items · place) (leads_nextDatum hdatum) fuel (by omega)
    (by omega) hopened)
  rintro items last ⟨rest, hrest, hlast, hstops⟩
  have hclosing : ∀ token, rest.next.1 = .ok token →
      Expectation.step (.items (items.reverse ++ []) place) token =
        Expectation.require .closeParen token (place.fill (.list items)) := by
    intro token htoken
    simp [Expectation.step, hstops token htoken]
  exact leads_closing hlast hclosing (place.fill_ne_reject _) fun _ => Completes.mono (by omega)

/-- One more unfolding of the rule for data follows the reader a level deeper. -/
theorem readsData_datumWith (hdatum : ReadsData origin fuel datum) :
    ReadsData origin (fuel + 1) (datumWith fuel datum) := by
  intro result place stream state hsize h
  apply ends_bind
  apply leads_next h
  intro token htoken
  split
  next hkind =>
    apply ends_bind
    apply ends_unread
    exact leads_list hdatum (Nat.le_of_lt_succ hsize) (h.unread_read htoken) htoken hkind
  next hopening =>
    exact leads_atom h htoken (place.startDatum_of_ne hopening) (place.fill_ne_reject _)
      fun _ hdone => hdone

end Data

/-- The rule for data follows the reader, by induction on the depth it is unfolded to. -/
theorem readsData_datum (origin : Origin) (fuel : Nat) : ReadsData origin fuel (datum fuel) := by
  induction fuel with
  | zero => exact fun _ _ _ _ hsize => absurd hsize (Nat.not_lt_zero _)
  | succ fuel ih => exact readsData_datumWith ih

/-! ## Expressions -/

/-- The next tokens are an opening parenthesis and a token of a kind. -/
def Opens (stream : TokenStream) (kind : TokenKind) : Prop :=
  ∃ opening second, stream.next.1 = .ok opening ∧ opening.kind = .openParen ∧
    stream.next.2.next.1 = .ok second ∧ second.kind = kind

/-- With so much fuel expressions are read as the reader reads them, if no definition starts
instead. -/
def ReadsExpressions (origin : Origin) (fuel : Nat) (rule : Rule Expression) : Prop :=
  ∀ (result : FormReading × TokenStream) (place : Place) (stream : TokenStream) (state : State),
    stream.size < fuel → (place = .form → ¬Opens stream (.keyword .define)) →
    Follows origin result (.expression place) stream state →
    Leads origin result rule state fun value after =>
      Completes origin result (place.fill value) stream after

/-- Within a form no definition can start. -/
theorem ReadsExpressions.leads {fuel : Nat} {rule : Rule Expression} {place : Place}
    {stream : TokenStream} {state : State} (h : ReadsExpressions origin fuel rule)
    (hsize : stream.size < fuel) (hfollows : Follows origin result (.expression place) stream state)
    (hplace : place ≠ .form) :
    Leads origin result rule state fun value after =>
      Completes origin result (place.fill value) stream after :=
  h result place stream state hsize (fun heq => absurd heq hplace) hfollows

section Expressions

variable {fuel : Nat} {expression : Rule Expression} {datum : Rule Datum} {place : Place}
  {stream : TokenStream} {state : State}

/-- An expression is read if one starts here. -/
theorem leads_nextExpression (place : Place)
    (hexpression : ReadsExpressions origin fuel expression) {expectation : Expectation}
    (hsize : stream.size < fuel) (hdefinition : place = .form → ¬Opens stream (.keyword .define))
    (h : Follows origin result expectation stream state) (hdepth : place.depth = expectation.depth)
    (hstep : ∀ token, token.kind.startsExpression = true →
      place.startExpression token = expectation.step token) :
    Leads origin result (nextExpression expression) state
      (Found origin result expectation place.fill TokenKind.startsExpression stream) := by
  apply ends_bind
  apply leads_peek h
  intro token after htoken hafter
  cases hstarts : token.kind.startsExpression with
  | true =>
    have hplace : Follows origin result (.expression place) stream after :=
      hafter.congr htoken hdepth (hstep token hstarts)
    exact Rule.Ends.bind (hexpression result place stream after hsize hdefinition hplace)
      fun _ _ hvalue => ends_pure hvalue
  | false =>
    refine ends_pure ⟨hafter, ?_⟩
    rw [htoken]
    rintro _ ⟨⟩
    exact hstarts

/-- The expressions of a row are read. -/
theorem leads_expressions (row : List Expression → Row)
    (hadd : ∀ read value, (row read).add value = row (value :: read))
    (hexpression : ReadsExpressions origin fuel expression) {read : List Expression}
    (hsize : stream.size < fuel)
    (h : Follows origin result (.more (row read) place) stream state) :
    Leads origin result (many (nextExpression expression) fuel) state fun values after =>
      ∃ rest, rest.size ≤ stream.size ∧
        Follows origin result (.more (row (values.reverse ++ read)) place) rest after ∧
        ∀ token, rest.next.1 = .ok token → token.kind.startsExpression = false := by
  apply leads_many (fun read => .more (row read) place) _ fuel hsize hsize h
  intro read stream state hsize h
  have hstep : ∀ token, token.kind.startsExpression = true →
      (Place.element (row read) place).startExpression token =
        Expectation.step (.more (row read) place) token := by
    intro token hstarts
    simp [Expectation.step, hstarts]
  have hfound :=
    leads_nextExpression (.element (row read) place) hexpression hsize nofun h rfl hstep
  apply hfound.mono _ fun _ _ hfails => hfails
  rintro (_ | value) after hvalue
  · exact hvalue
  · simp only [Found, ← hadd]
    exact hvalue

/-- The tokens that open a construct with a word are kept. -/
theorem leads_construct {word : Keyword} {following : Expectation} {rule : Rule α}
    {done : α → State → Prop} (h : Follows origin result (.expression place) stream state)
    (hopens : Opens stream (.keyword word))
    (hstep : ∀ token, token.kind = .keyword word → place.startConstruct token = .next following)
    (hdone : ∀ after, Follows origin result following stream.next.2.next.2 after →
      stream.next.2.next.2.size < stream.size → Leads origin result rule after done) :
    Leads origin result
      (expect .openParen >>= fun _ => expect (.keyword word) >>= fun _ => rule) state done := by
  obtain ⟨opening, second, hopening, hkind, hsecond, hword⟩ := hopens
  have hopened := Expectation.step_expression_open place ⟨opening, hkind⟩
  apply ends_bind
  apply leads_expect_of_kind h hopening hkind hopened
  intro after hafter hless
  apply ends_bind
  apply leads_expect_of_kind hafter hsecond hword (hstep second hword)
  intro last hlast hless'
  exact hdone last hlast (Nat.lt_trans hless' hless)

/-- The rule for applications follows the reader, given the rule for expressions. -/
theorem leads_application (hexpression : ReadsExpressions origin fuel expression)
    {opening second : Token} (hsize : stream.size ≤ fuel)
    (h : Follows origin result (.expression place) stream state)
    (hopening : stream.next.1 = .ok opening) (hkind : opening.kind = .openParen)
    (hsecond : stream.next.2.next.1 = .ok second)
    (hhead : place.startConstruct second = (Place.head place).startExpression second) :
    Leads origin result (application fuel expression) state fun value after =>
      Completes origin result (place.fill value) stream after := by
  have hopened := Expectation.step_expression_open place ⟨opening, hkind⟩
  apply ends_bind
  apply leads_expect_of_kind h hopening hkind hopened
  intro after hafter hless
  have hplace : Follows origin result (.expression (.head place)) stream.next.2 after :=
    hafter.congr hsecond rfl hhead.symm
  apply Rule.Ends.bind (hexpression.leads (by omega) hplace nofun)
  rintro head after₁ ⟨rest₁, hless₁, hhead⟩
  apply Rule.Ends.bind (leads_expressions (.arguments head) (fun _ _ => rfl) hexpression (by omega)
    hhead)
  rintro arguments after₂ ⟨rest₂, hrest₂, harguments, hstops⟩
  have hclosing : ∀ token, rest₂.next.1 = .ok token →
      Expectation.step (.more (.arguments head (arguments.reverse ++ [])) place) token =
        Expectation.require .closeParen token (place.fill (.application head arguments)) := by
    intro token htoken
    simp [Expectation.step, hstops token htoken, Row.close]
  exact leads_closing harguments hclosing (place.fill_ne_reject _)
    fun _ => Completes.mono (by omega)

/-- The rule for conditionals follows the reader, given the rule for expressions. -/
theorem leads_conditional (hexpression : ReadsExpressions origin fuel expression)
    (hsize : stream.size ≤ fuel) (h : Follows origin result (.expression place) stream state)
    (hopens : Opens stream (.keyword .conditional)) :
    Leads origin result (conditional expression) state fun value after =>
      Completes origin result (place.fill value) stream after := by
  have hstep : ∀ token, token.kind = .keyword .conditional →
      place.startConstruct token = .next (.expression (.predicate place)) := by
    intro token hword
    simp [Place.startConstruct, hword]
  apply leads_construct h hopens hstep
  intro after hafter hless
  apply Rule.Ends.bind (hexpression.leads (by omega) hafter nofun)
  rintro predicate after₁ ⟨rest₁, hless₁, hpredicate⟩
  apply Rule.Ends.bind (hexpression.leads (by omega) hpredicate nofun)
  rintro consequent after₂ ⟨rest₂, hless₂, hconsequent⟩
  apply Rule.Ends.bind (hexpression.leads (by omega) hconsequent nofun)
  rintro alternative after₃ ⟨rest₃, hless₃, halternative⟩
  exact leads_closing halternative (fun _ _ => rfl) (place.fill_ne_reject _)
    fun _ => Completes.mono (by omega)

/-- A formal is read if there is one more. -/
theorem leads_nextFormal (read : List Token) (stream : TokenStream) (state : State)
    (h : Follows origin result (.formals read place) stream state) :
    Leads origin result (nextOfKind .identifier) state
      (Found origin result (.formals read place)
        (fun token => .next (.formals (token :: read) place)) (· = .identifier) stream) := by
  apply ends_bind
  apply leads_next h
  intro token htoken
  split
  next hkind =>
    have hstep : Expectation.step (.formals read place) token =
        .next (.formals (token :: read) place) := by
      simp [Expectation.step, hkind]
    obtain ⟨hreaches, hless⟩ := h.reaches htoken (by simp [hstep])
    rw [hstep, State.settle_of_isAtom (by simp [hkind, TokenKind.isAtom])] at hreaches
    exact ends_pure ⟨_, hless, hreaches⟩
  next hkind =>
    apply ends_bind
    apply ends_unread
    refine ends_pure ⟨h.unread_read htoken, ?_⟩
    rw [htoken]
    rintro _ ⟨⟩
    exact decide_eq_false hkind

/-- The rule for formals follows the reader. -/
theorem leads_formals (hsize : stream.size ≤ fuel)
    (h : Follows origin result (.formalsOpen place) stream state) :
    Leads origin result (formals fuel) state fun names after =>
      Completes origin result (.next (.expression (.element (.body names []) place))) stream
        after := by
  apply ends_bind
  apply leads_expect h (fun _ _ => rfl) fun _ _ => nofun
  intro opening after hopening hafter hless
  apply Rule.Ends.bind (leads_many (.formals · place)
    (fun read stream state (_ : stream.size < fuel) => leads_nextFormal read stream state) fuel
    (by omega) (by omega) hafter)
  rintro names last ⟨rest, hrest, hlast, hstops⟩
  have hclosing : ∀ token, rest.next.1 = .ok token →
      Expectation.step (.formals (names.reverse ++ []) place) token =
        Expectation.require .closeParen token
          (.next (.expression (.element (.body names []) place))) := by
    intro token htoken
    have hkind := of_decide_eq_false (hstops token htoken)
    simp [Expectation.step, hkind]
  exact leads_closing hlast hclosing (fun _ => nofun) fun _ => Completes.mono (by omega)

/-- The rule for bodies follows the reader, given the rule for expressions. -/
theorem leads_body (hexpression : ReadsExpressions origin fuel expression) {names : List Token}
    (hsize : stream.size < fuel)
    (h : Follows origin result (.expression (.element (.body names []) place)) stream state) :
    Leads origin result (body fuel expression) state fun values after =>
      ∃ rest, rest.size < stream.size ∧
        Follows origin result (.more (.body names values.reverse) place) rest after ∧
        ∀ token, rest.next.1 = .ok token → token.kind.startsExpression = false := by
  apply Rule.Ends.bind (hexpression.leads hsize h nofun)
  rintro first after ⟨rest, hless, hafter⟩
  apply Rule.Ends.bind
    (leads_expressions (.body names) (fun _ _ => rfl) hexpression (by omega) hafter)
  rintro others last ⟨behind, hbehind, hlast, hstops⟩
  refine ends_pure ⟨behind, by omega, ?_, hstops⟩
  rw [List.reverse_cons]
  exact hlast

/-- The rule for functions follows the reader, given the rule for expressions. -/
theorem leads_lambda (hexpression : ReadsExpressions origin fuel expression)
    (hsize : stream.size ≤ fuel) (h : Follows origin result (.expression place) stream state)
    (hopens : Opens stream (.keyword .lambda)) :
    Leads origin result (lambda fuel expression) state fun value after =>
      Completes origin result (place.fill value) stream after := by
  have hstep : ∀ token, token.kind = .keyword .lambda →
      place.startConstruct token = .next (.formalsOpen place) := by
    intro token hword
    simp [Place.startConstruct, hword]
  apply leads_construct h hopens hstep
  intro after hafter hless
  apply Rule.Ends.bind (leads_formals (by omega) hafter)
  rintro names after₁ ⟨rest₁, hless₁, hnames⟩
  apply Rule.Ends.bind (leads_body hexpression (by omega) hnames)
  rintro expressions after₂ ⟨rest₂, hless₂, hexpressions, hstops⟩
  have hclosing : ∀ token, rest₂.next.1 = .ok token →
      Expectation.step (.more (.body names expressions.reverse) place) token =
        Expectation.require .closeParen token (place.fill (.lambda names expressions)) := by
    intro token htoken
    simp [Expectation.step, hstops token htoken, Row.close]
  exact leads_closing hexpressions hclosing (place.fill_ne_reject _)
    fun _ => Completes.mono (by omega)

/-- The rule for marked data follows the reader, given the rule for data. -/
theorem leads_quoted (hdatum : ReadsData origin fuel datum) {mark : Token}
    (hsize : stream.size ≤ fuel) (h : Follows origin result (.expression place) stream state)
    (hmark : stream.next.1 = .ok mark) (hkind : mark.kind = .quoteMark) :
    Leads origin result (quoted datum) state fun value after =>
      Completes origin result (place.fill value) stream after := by
  have hstep : Expectation.step (.expression place) mark =
      .next (.datum (.afterMark place)) := by
    simp [Expectation.step, Place.startExpression, hkind]
  apply ends_bind
  apply leads_expect_of_kind h hmark hkind hstep
  intro after hafter hless
  apply Rule.Ends.bind (hdatum result _ _ after (by omega) hafter)
  exact fun value last hlast => ends_pure (Completes.mono (Nat.le_of_lt hless) hlast)

/-- The rule for quotations by name follows the reader, given the rule for data. -/
theorem leads_quoteForm (hdatum : ReadsData origin fuel datum) (hsize : stream.size ≤ fuel)
    (h : Follows origin result (.expression place) stream state)
    (hopens : Opens stream (.keyword .quote)) :
    Leads origin result (quoteForm datum) state fun value after =>
      Completes origin result (place.fill value) stream after := by
  have hstep : ∀ token, token.kind = .keyword .quote →
      place.startConstruct token = .next (.datum (.afterWord place)) := by
    intro token hword
    simp [Place.startConstruct, hword]
  apply leads_construct h hopens hstep
  intro after hafter hless
  apply Rule.Ends.bind (hdatum result _ _ after (by omega) hafter)
  rintro value last ⟨rest, hrest, hlast⟩
  exact leads_closing hlast (fun _ _ => rfl) (place.fill_ne_reject _)
    fun _ => Completes.mono (by omega)

/-- One more unfolding of the rule for expressions follows the reader a level deeper. -/
theorem readsExpressions_expressionWith (hexpression : ReadsExpressions origin fuel expression)
    (hdatum : ReadsData origin fuel datum) :
    ReadsExpressions origin (fuel + 1) (expressionWith fuel expression datum) := by
  intro result place stream state hsize hdefinition h
  have hsize : stream.size ≤ fuel := Nat.le_of_lt_succ hsize
  apply ends_bind
  apply leads_next h
  intro token htoken
  split
  next hkind =>
    apply ends_bind
    apply ends_unread
    exact leads_quoted hdatum hsize (h.unread_read htoken) htoken hkind
  next hkind =>
    apply ends_bind
    apply leads_peekBehind h htoken hkind
    intro second after hsecond hafter
    have hopens {kind : TokenKind} (hword : second.kind = kind) : Opens stream kind :=
      ⟨token, second, htoken, hkind, hsecond, hword⟩
    split
    next hword => exact leads_lambda hexpression hsize hafter (hopens hword)
    next hword => exact leads_conditional hexpression hsize hafter (hopens hword)
    next hword => exact leads_quoteForm hdatum hsize hafter (hopens hword)
    next hlambda hconditional hquote =>
      have hhead := place.startConstruct_of_ne hlambda hconditional hquote
        fun hplace hword => hdefinition hplace (hopens hword)
      exact leads_application hexpression hsize hafter htoken hkind hsecond hhead
  next hmark hopening =>
    exact leads_atom h htoken (place.startExpression_of_ne hopening hmark)
      (place.fill_ne_reject _) fun _ hdone => hdone

end Expressions

/-- The rule for expressions follows the reader, by induction on the depth it is unfolded to. -/
theorem readsExpressions_expression (origin : Origin) (fuel : Nat) :
    ReadsExpressions origin fuel (expression fuel) := by
  induction fuel with
  | zero => exact fun _ _ _ _ hsize => absurd hsize (Nat.not_lt_zero _)
  | succ fuel ih => exact readsExpressions_expressionWith ih (readsData_datum origin fuel)

/-! ## Forms -/

section Forms

variable {fuel : Nat} {stream : TokenStream} {state : State}

/-- The rule for definitions follows the reader. -/
theorem leads_definition (hsize : stream.size < fuel)
    (h : Follows origin result .start stream state) (hopens : Opens stream (.keyword .define)) :
    Leads origin result (definition fuel) state fun form after =>
      Completes origin result (.form form) stream after := by
  have hstep : ∀ token, token.kind = .keyword .define →
      Place.form.startConstruct token = .next .name := by
    intro token hword
    simp [Place.startConstruct, hword]
  apply leads_construct h hopens hstep
  intro after hafter hless
  apply ends_bind
  apply leads_expect hafter (fun _ _ => rfl) fun _ _ => nofun
  intro name after₁ hname hvalue hless₁
  apply Rule.Ends.bind ((readsExpressions_expression origin fuel).leads (by omega) hvalue nofun)
  rintro value after₂ ⟨rest₂, hless₂, hclose⟩
  exact leads_closing hclose (fun _ _ => rfl) (fun _ => nofun) fun _ => Completes.mono (by omega)

/-- A form is read if one starts. -/
theorem leads_nextForm (hsize : stream.size < fuel)
    (h : Follows origin result .start stream state) :
    Leads origin result (nextForm fuel) state
      (Found origin result .start Step.form TokenKind.startsExpression stream) := by
  have hexpression := readsExpressions_expression origin fuel
  apply ends_bind
  apply leads_next h
  intro token htoken
  split
  next hkind =>
    apply ends_bind
    apply leads_peekBehind h htoken hkind
    intro second after hsecond hafter
    split
    next hword =>
      have hopens : Opens stream (.keyword .define) :=
        ⟨token, second, htoken, hkind, hsecond, hword⟩
      exact Rule.Ends.bind (leads_definition hsize hafter hopens) fun _ _ hform => ends_pure hform
    next hword =>
      have hdefinition : ¬Opens stream (.keyword .define) := by
        rintro ⟨_, second', -, -, hsecond', hword'⟩
        obtain rfl := Except.ok.inj (hsecond.symm.trans hsecond')
        exact hword hword'
      exact Rule.Ends.bind
        (hexpression result .form stream after hsize (fun _ => hdefinition) hafter)
        fun _ _ hform => ends_pure hform
  next hkind =>
    have hdefinition : ¬Opens stream (.keyword .define) := by
      rintro ⟨opening, _, hopening, hopens, -⟩
      obtain rfl := Except.ok.inj (htoken.symm.trans hopening)
      exact hkind hopens
    apply ends_bind
    apply ends_unread
    apply Rule.Ends.bind (leads_nextExpression .form hexpression hsize (fun _ => hdefinition)
      (h.unread_read htoken) rfl fun _ _ => rfl)
    rintro (_ | value) after hfound
    · exact ends_pure hfound
    · exact ends_pure hfound

end Forms

end Descent

end MiniScheme

import MiniScheme.Form.Reader
import MiniScheme.Proofs.Machine
import MiniScheme.Proofs.SettledStream

/-!
# Reading a source in one pass

The reader takes tokens from a stream, hands one back now and then, and after a failure skips
what is left of a form.  The same forms and errors come out of the machine, which takes every
item once.

Main results:

- Theorem `readFrom_agrees`: reading one form and what is skipped after it is what the machine
  does.
- Theorem `readAll_eq_outcomes`: the reader and the machine agree on every stream that a
  reader can leave behind.
- Theorem `readSource_eq_outcomes`: they agree on every source.
-/

namespace MiniScheme

/-- The item that an error is about. -/
def SyntaxError.offender : SyntaxError → Item
  | unexpected found => .ok found
  | expected _ found => .ok found
  | lexical error => .error error

open TokenStream

/-- The machine in a phase before one stream has these outcomes and is then between two forms
before the other stream. -/
structure LeadsTo (phase : Phase) (stream : TokenStream) (made : List Outcome)
    (rest : TokenStream) : Prop where
  settled : rest.Settled
  finish_eq : rest.finish = stream.finish
  outcomes_eq : phase.outcomes stream.finish stream.pending =
    made ++ Phase.start.outcomes stream.finish rest.pending

namespace LeadsTo

/-- Where nothing is passed the machine is where it was. -/
theorem refl {stream : TokenStream} (h : stream.Settled) :
    LeadsTo .start stream [] stream :=
  ⟨h, rfl, rfl⟩

/-- An item that the machine takes comes before all else. -/
theorem of_next (phase : Phase) {stream following rest : TokenStream} {item : Item}
    {made : List Outcome} (hsettled : stream.Settled) (hnext : stream.next = (item, following))
    (hend : item.isEnd = false)
    (h : following.Settled → LeadsTo (phase.step item).2 following made rest) :
    LeadsTo phase stream ((phase.step item).1.toList ++ made) rest := by
  obtain ⟨hfollowing, hfinish⟩ := hsettled.of_next hnext
  obtain ⟨hrest, hrestFinish, houtcomes⟩ := h hfollowing
  refine ⟨hrest, hrestFinish.trans hfinish, ?_⟩
  rw [hfinish] at houtcomes
  rw [hsettled.pending_of_next hnext hend, Phase.outcomes_cons, houtcomes, List.append_assoc]

/-- At the end the machine has no more outcomes than the end itself makes. -/
theorem of_end {phase : Phase} {stream rest : TokenStream} (hpending : stream.pending = [])
    (hsettled : rest.Settled) (hrest : rest.pending = [])
    (hfinish : rest.finish = stream.finish) :
    LeadsTo phase stream (phase.atEnd stream.finish) rest := by
  refine ⟨hsettled, hfinish, ?_⟩
  rw [hpending, hrest, Phase.outcomes_nil, Phase.outcomes_nil, Phase.atEnd_start,
    List.append_nil]

end LeadsTo

/-- Skipping the rest of a group is what the machine does. -/
theorem skipGroup_leadsTo (inner : Nat) {stream : TokenStream} (h : stream.Settled) :
    LeadsTo (.skipping inner) stream [] (skipGroup inner stream) := by
  fun_induction skipGroup inner stream with
  | case1 inner stream error rest hnext _ ih =>
    exact .of_next _ h hnext rfl ih
  | case2 inner stream token rest hnext hend =>
    obtain ⟨-, hpending, hrest⟩ := h.of_end hnext hend
    obtain ⟨hsettled, hback⟩ := h.handBack hnext
    exact .of_end hpending hsettled (hback.trans hpending) (h.of_next hnext).2
  | case3 inner stream token rest hnext hend _ hopening ih =>
    apply LeadsTo.of_next _ h hnext (by simp [Item.isEnd, hend])
    intro hrest
    simpa [Phase.step, Item.depthAfter, hopening, Phase.leaving] using ih hrest
  | case4 stream token rest hnext hend _ _ hclose =>
    apply LeadsTo.of_next _ h hnext (by simp [Item.isEnd, hend])
    intro hrest
    simp only [Phase.step, Item.depthAfter_close hclose]
    exact .refl hrest
  | case5 stream token rest hnext hend _ _ hclose inner ih =>
    apply LeadsTo.of_next _ h hnext (by simp [Item.isEnd, hend])
    intro hrest
    simp only [Phase.step, Item.depthAfter_close hclose]
    exact ih hrest
  | case6 inner stream token rest hnext hend _ hopening hclose ih =>
    apply LeadsTo.of_next _ h hnext (by simp [Item.isEnd, hend])
    intro hrest
    simp only [Phase.step, Item.depthAfter_of_ne (by simpa using hopening) hclose]
    exact ih hrest

/-- Recovery from a token that was rejected and handed back does what the machine does after
the token. -/
theorem recover_handBack_leadsTo {error : SyntaxError} {stream rest : TokenStream}
    {token : Token} (h : stream.Settled) (hnext : stream.next = (.ok token, rest))
    (herror : error.offender = .ok token) (depth : Nat) :
    LeadsTo (.leaving (Item.depthAfter depth (.ok token))) rest []
      (recover error depth (rest.handBack token)) := by
  obtain ⟨hrest, -⟩ := h.of_next hnext
  cases depth with
  | succ inner =>
    obtain ⟨hsettled, -⟩ := h.handBack hnext
    obtain ⟨hfinal, hfinish, houtcomes⟩ := skipGroup_leadsTo inner hsettled
    by_cases hend : token.kind = .endOfSource
    · rw [pending_handBack_end rest hend] at houtcomes
      rw [Item.depthAfter_of_ne (by simp [hend, TokenKind.isOpening]) (by simp [hend])]
      exact ⟨hfinal, hfinish, houtcomes⟩
    · rw [pending_handBack rest hend] at houtcomes
      exact ⟨hfinal, hfinish, houtcomes⟩
  | zero =>
    have hrecover : recover error 0 (rest.handBack token) = skipToken (rest.handBack token) := by
      cases error with
      | lexical fault => cases herror
      | unexpected => rfl
      | expected => rfl
    rw [hrecover, skipToken, next_handBack]
    by_cases hopening : token.kind.isOpening = true
    · simp only [Item.depthAfter, hopening, if_true]
      exact skipGroup_leadsTo _ hrest
    · have hdepth : Item.depthAfter 0 (.ok token) = 0 := by
        simp [Item.depthAfter, hopening]
      simp only [hdepth, hopening]
      exact .refl hrest

/-- The machine makes of a stream what the reader makes of it, with what is skipped after a
failure. -/
def Agrees (expectation : Expectation) (stream : TokenStream) :
    FormReading × TokenStream → Prop
  | (.form form, rest) => LeadsTo (.reading expectation) stream [.ok form] rest
  | (.failure error depth, rest) =>
    LeadsTo (.reading expectation) stream [.error error] (recover error depth rest)
  | (.endOfSource, _) => False

/-- A token that leads on keeps what is read in agreement with the machine. -/
theorem Agrees.of_next {expectation following : Expectation} {stream rest : TokenStream}
    {token : Token} {result : FormReading × TokenStream} (h : stream.Settled)
    (hnext : stream.next = (.ok token, rest)) (hstep : expectation.step token = .next following)
    (hend : token.kind ≠ .endOfSource) (hresult : Agrees following rest result) :
    Agrees expectation stream result := by
  have htaken {made : List Outcome} {final : TokenStream}
      (hmade : LeadsTo (.reading following) rest made final) :
      LeadsTo (.reading expectation) stream made final := by
    have hphase := Phase.step_of_next hstep
    have := LeadsTo.of_next (.reading expectation) h hnext (by simp [Item.isEnd, hend])
      fun _ => by rw [hphase]; exact hmade
    rwa [hphase] at this
  obtain ⟨reading, final⟩ := result
  cases reading with
  | form form => exact htaken hresult
  | failure error depth => exact htaken hresult
  | endOfSource => exact hresult

/-- Reading a form that has begun, or that begins before the end, is what the machine does. -/
theorem readFrom_agrees {expectation : Expectation} {stream : TokenStream} (h : stream.Settled)
    (hbegun : expectation = .start → stream.next.1.isEnd = false) :
    Agrees expectation stream (readFrom expectation stream) := by
  fun_induction readFrom expectation stream with
  | case1 expectation stream error rest hnext =>
    apply LeadsTo.of_next _ h hnext rfl
    intro hrest
    simp only [Phase.step]
    cases expectation.depth with
    | zero => exact .refl hrest
    | succ inner => exact skipGroup_leadsTo _ hrest
  | case2 expectation stream token rest hnext following hstep _ ih =>
    have hleaves := expectation.step_leaves token
    rw [hstep] at hleaves
    cases hleaves with
    | next _ hstart =>
      have hend : token.kind ≠ .endOfSource := by
        intro hend
        obtain ⟨error, herror⟩ := expectation.step_end hend
        simp [hstep] at herror
      apply Agrees.of_next h hnext hstep hend
      exact ih (h.of_next hnext).1 fun hfollowing => absurd hfollowing hstart
  | case3 expectation stream token rest hnext form hstep =>
    have hend : token.kind ≠ .endOfSource := by
      intro hend
      obtain ⟨error, herror⟩ := expectation.step_end hend
      simp [hstep] at herror
    have hphase := Phase.step_of_form hstep
    have := LeadsTo.of_next (.reading expectation) h hnext (by simp [Item.isEnd, hend])
      fun hrest => by rw [hphase]; exact .refl hrest
    rwa [hphase] at this
  | case4 expectation stream token rest hnext error hstep =>
    have herror : error.offender = .ok token := by
      have hleaves := expectation.step_leaves token
      rw [hstep] at hleaves
      cases hleaves <;> rfl
    have hrecover := recover_handBack_leadsTo h hnext herror expectation.depth
    have hphase := Phase.step_of_reject hstep
    by_cases hend : token.kind = .endOfSource
    · obtain ⟨rfl, hpending, hrest⟩ := h.of_end hnext hend
      have hfinish := (h.of_next hnext).2
      have hstart : expectation ≠ .start := by
        intro hstart
        simpa [hnext, Item.isEnd, Token.endOfSource] using hbegun hstart
      have hfinal := hrecover.outcomes_eq
      rw [hrest, Phase.outcomes_nil, Phase.atEnd_leaving, hfinish] at hfinal
      refine ⟨hrecover.settled, hrecover.finish_eq.trans hfinish, ?_⟩
      rw [hpending, Phase.outcomes_nil, Phase.atEnd_reading hstart hstep, ← List.nil_append
        (Phase.start.outcomes _ _), ← hfinal, List.append_nil]
    · have := LeadsTo.of_next (.reading expectation) h hnext
        (by simp [Item.isEnd, hend]) fun _ => by rw [hphase]; exact hrecover
      rwa [hphase] at this

/-- Where a stream is at its end there is no form to read. -/
theorem isEnd_of_readForm {stream : TokenStream} (h : (readForm stream).1 ≠ .endOfSource) :
    stream.next.1.isEnd = false := by
  cases hend : stream.next.1.isEnd with
  | true => exact absurd (by rw [readForm, if_pos hend]) h
  | false => rfl

/-- A form is read in agreement with the machine. -/
theorem readForm_agrees {stream : TokenStream} (h : stream.Settled)
    (hend : stream.next.1.isEnd = false) : Agrees .start stream (readForm stream) := by
  rw [readForm, if_neg (by simp [hend])]
  exact readFrom_agrees h fun _ => hend

/-- The reader has the forms and the errors that the machine makes of what a stream holds. -/
theorem readAll_eq_outcomes {stream : TokenStream} (h : stream.Settled) :
    (readAll stream).forms =
        Outcome.forms (Phase.start.outcomes stream.finish stream.pending) ∧
      (readAll stream).errors =
        Outcome.errors (Phase.start.outcomes stream.finish stream.pending) := by
  fun_induction readAll stream with
  | case1 stream rest hform =>
    have hpending : stream.pending = [] := by
      rcases h.next_cases with ⟨hpending, -⟩ | ⟨hend, -⟩
      · exact hpending
      · have hagrees := readForm_agrees h hend
        rw [hform] at hagrees
        exact hagrees.elim
    rw [hpending]
    exact ⟨rfl, rfl⟩
  | case2 stream form rest hform _ following ih =>
    have hagrees := readForm_agrees h (isEnd_of_readForm (by simp [hform]))
    rw [hform] at hagrees
    obtain ⟨hrest, hfinish, houtcomes⟩ := hagrees
    obtain ⟨hforms, herrors⟩ := ih hrest
    rw [hfinish] at hforms herrors
    rw [Phase.start, houtcomes]
    exact ⟨congrArg (form :: ·) hforms, herrors⟩
  | case3 stream error depth rest hform _ following ih =>
    have hagrees := readForm_agrees h (isEnd_of_readForm (by simp [hform]))
    rw [hform] at hagrees
    obtain ⟨hrest, hfinish, houtcomes⟩ := hagrees
    obtain ⟨hforms, herrors⟩ := ih hrest
    rw [hfinish] at hforms herrors
    rw [Phase.start, houtcomes]
    exact ⟨hforms, congrArg (error :: ·) herrors⟩

namespace Cursor

/-- What comes of the items of a cursor and then of the end. -/
def outcomes (cursor : Cursor) : List Outcome :=
  Phase.start.outcomes cursor.finish cursor.items

end Cursor

/-- The forms and the errors of a source are those that the machine makes of its items. -/
theorem readSource_eq_outcomes (source : String) :
    readSource source =
      (Outcome.forms (Cursor.ofSource source).outcomes,
        Outcome.errors (Cursor.ofSource source).outcomes) := by
  obtain ⟨hforms, herrors⟩ := readAll_eq_outcomes (.fresh (.ofSource source))
  rw [pending_fresh] at hforms herrors
  exact Prod.ext hforms herrors

end MiniScheme

import MiniScheme.Form.Expectation
import MiniScheme.Token.Stream

/-!
# Reading forms from a token stream

A form is read by feeding tokens to an expectation.  A rejected token is handed back to the
stream, while a lexical error is used up.  When all forms of a source are read, a failed form
is recorded and the rest of it is skipped: up to the parenthesis that closes its first open
group, and only the offending token if no group is open.

Main results:

- Theorem `size_readFrom_le`: reading never leaves more than there was.
- Theorem `size_recover_readForm_lt`: every failed form uses up at least one item, so that
  reading a whole source comes to an end.
-/

namespace MiniScheme

/-! ## One form -/

/-- What comes of reading one form; a failure knows how many parentheses it leaves open. -/
inductive FormReading
  | form (form : Form)
  | endOfSource
  | failure (error : SyntaxError) (depth : Nat)

/-- A token that moves an expectation on is not the end, so less is left after it. -/
theorem size_lt_of_step_next {stream rest : TokenStream} {token : Token}
    {expectation following : Expectation} (hnext : stream.next = (.ok token, rest))
    (hstep : expectation.step token = .next following) : rest.size < stream.size := by
  have hend : token.kind ≠ .endOfSource := by
    intro h
    obtain ⟨error, herror⟩ := expectation.step_end h
    simp [herror] at hstep
  have := TokenStream.size_next_lt stream (by simp [hnext, Item.isEnd, hend])
  simpa [hnext] using this

/-- Read on until the form that is expected is complete or fails. -/
def readFrom (expectation : Expectation) (stream : TokenStream) : FormReading × TokenStream :=
  match hnext : stream.next with
  | (.error error, rest) => (.failure (.lexical error) expectation.depth, rest)
  | (.ok token, rest) =>
    match hstep : expectation.step token with
    | .next following =>
      have := size_lt_of_step_next hnext hstep
      readFrom following rest
    | .form form => (.form form, rest)
    | .reject error => (.failure error expectation.depth, rest.handBack token)
termination_by stream.size

/-- Read one form. -/
def readForm (stream : TokenStream) : FormReading × TokenStream :=
  if stream.next.1.isEnd then (.endOfSource, stream.next.2)
  else readFrom .start stream

/-! ## Recovery -/

/-- Less is left behind an item that is not the end. -/
theorem size_lt_of_next {stream rest : TokenStream} {item : Item}
    (hnext : stream.next = (item, rest)) (hend : item.isEnd = false) :
    rest.size < stream.size := by
  have := TokenStream.size_next_lt stream (by rw [hnext]; exact hend)
  simpa [hnext] using this

/-- No more is left behind an item. -/
theorem size_le_of_next {stream rest : TokenStream} {item : Item}
    (hnext : stream.next = (item, rest)) : rest.size ≤ stream.size := by
  simpa [hnext] using stream.size_next_le

/-- Skip the rest of a group, with the given number of groups open within it. -/
def skipGroup (inner : Nat) (stream : TokenStream) : TokenStream :=
  match hnext : stream.next with
  | (.error _, rest) =>
    have := size_lt_of_next hnext rfl
    skipGroup inner rest
  | (.ok token, rest) =>
    if hend : token.kind = .endOfSource then rest.handBack token
    else
      have := size_lt_of_next hnext (by simp [Item.isEnd, hend])
      if token.kind.isOpening then skipGroup (inner + 1) rest
      else if token.kind = .closeParen then
        match inner with
        | 0 => rest
        | inner + 1 => skipGroup inner rest
      else skipGroup inner rest
termination_by stream.size

/-- Skip the next token, with its group if it opens one. -/
def skipToken (stream : TokenStream) : TokenStream :=
  match stream.next with
  | (.ok token, rest) => if token.kind.isOpening then skipGroup 0 rest else rest
  | (.error _, rest) => rest

/-- Skip what is left of a form that failed with some parentheses open.  If none are, a lexical
error has been used up already and any other offending token is skipped. -/
def recover (error : SyntaxError) (depth : Nat) (stream : TokenStream) : TokenStream :=
  match depth, error with
  | inner + 1, _ => skipGroup inner stream
  | 0, .lexical _ => stream
  | 0, _ => skipToken stream

/-! ## Reading uses up its input -/

/-- Handing back a token that was just read leaves no more than there was before it. -/
theorem size_handBack_of_next {stream rest : TokenStream} {token : Token}
    (hnext : stream.next = (.ok token, rest)) : (rest.handBack token).size ≤ stream.size := by
  by_cases hend : token.kind = .endOfSource
  · rw [TokenStream.size_handBack_end hend]
    exact size_le_of_next hnext
  · have := size_lt_of_next hnext (by simp [Item.isEnd, hend])
    have := rest.size_handBack_le token
    omega

/-- Reading for an expectation leaves no more than there was. -/
theorem size_readFrom_le (expectation : Expectation) (stream : TokenStream) :
    (readFrom expectation stream).2.size ≤ stream.size := by
  fun_induction readFrom expectation stream with
  | case1 _ _ _ _ hnext => exact size_le_of_next hnext
  | case2 _ _ _ _ _ _ _ hlt ih => omega
  | case3 _ _ _ _ hnext => exact size_le_of_next hnext
  | case4 _ _ _ _ hnext => exact size_handBack_of_next hnext

/-- Skipping a group leaves no more than there was. -/
theorem size_skipGroup_le (inner : Nat) (stream : TokenStream) :
    (skipGroup inner stream).size ≤ stream.size := by
  fun_induction skipGroup inner stream with
  | case1 _ _ _ _ _ _ ih => omega
  | case2 _ _ _ _ hnext => exact size_handBack_of_next hnext
  | case3 _ _ _ _ _ _ _ _ ih => omega
  | case4 => omega
  | case5 => omega
  | case6 => omega

/-- Skipping a token leaves no more than there was. -/
theorem size_skipToken_le (stream : TokenStream) : (skipToken stream).size ≤ stream.size := by
  unfold skipToken
  split
  next rest hnext =>
    have := size_le_of_next hnext
    split
    · have := size_skipGroup_le 0 rest
      omega
    · exact this
  next hnext => exact size_le_of_next hnext

/-- Recovery leaves no more than there was. -/
theorem size_recover_le (error : SyntaxError) (depth : Nat) (stream : TokenStream) :
    (recover error depth stream).size ≤ stream.size := by
  unfold recover
  split
  · exact size_skipGroup_le _ _
  · exact Nat.le_refl _
  · exact size_skipToken_le _

/-- A token that is handed back and then skipped is gone. -/
theorem skipToken_handBack_lt {stream rest : TokenStream} {token : Token}
    (hnext : stream.next = (.ok token, rest)) (hend : token.kind ≠ .endOfSource) :
    (skipToken (rest.handBack token)).size < stream.size := by
  have hlt := size_lt_of_next hnext (by simp [Item.isEnd, hend])
  have := size_skipGroup_le 0 rest
  simp only [skipToken, TokenStream.next_handBack]
  split <;> omega

/-- A form that is read uses up at least one item. -/
theorem size_readForm_lt {stream rest : TokenStream} {form : Form}
    (h : readForm stream = (.form form, rest)) : rest.size < stream.size := by
  unfold readForm at h
  split at h
  next => simp at h
  next hend =>
    rw [readFrom] at h
    split at h
    next => simp at h
    next token _ hnext =>
      have hlt := size_lt_of_next hnext (by simpa [hnext] using hend)
      split at h
      next =>
        have := size_readFrom_le ‹_› ‹_›
        rw [h] at this
        exact Nat.lt_of_le_of_lt this hlt
      next =>
        simp only [Prod.mk.injEq] at h
        exact h.2 ▸ hlt
      next => simp at h

/-- A form that fails uses up at least one item, if not by itself then by what is skipped. -/
theorem size_recover_readForm_lt {stream rest : TokenStream} {error : SyntaxError} {depth : Nat}
    (h : readForm stream = (.failure error depth, rest)) :
    (recover error depth rest).size < stream.size := by
  unfold readForm at h
  split at h
  next => simp at h
  next hend =>
    rw [readFrom] at h
    split at h
    next hnext =>
      have hlt := size_lt_of_next hnext rfl
      simp only [Prod.mk.injEq, FormReading.failure.injEq] at h
      have := size_recover_le error depth rest
      rw [← h.2] at this ⊢
      omega
    next token following hnext =>
      have hend' : Item.isEnd (.ok token) = false := by simpa [hnext] using hend
      have hlt := size_lt_of_next hnext hend'
      split at h
      next =>
        have := size_readFrom_le ‹_› following
        rw [h] at this
        have := size_recover_le error depth rest
        simp only at *
        omega
      next => simp at h
      next cause hstep =>
        simp only [Prod.mk.injEq, FormReading.failure.injEq] at h
        obtain ⟨⟨rfl, rfl⟩, rfl⟩ := h
        have hcause : cause = .unexpected token := by
          simp only [Expectation.step, Expectation.start, Place.startExpression, Place.fill] at hstep
          split at hstep <;> simp_all
          split at hstep <;> simp_all
        subst hcause
        exact skipToken_handBack_lt hnext (by simpa [Item.isEnd] using hend')

/-! ## Whole sources -/

/-- What comes of reading all forms: those that are well formed, an error for each of the
others, and what is left of the stream. -/
structure SourceReading where
  forms : Program
  errors : List SyntaxError
  rest : TokenStream

/-- Read every form up to the end. -/
def readAll (stream : TokenStream) : SourceReading :=
  match hform : readForm stream with
  | (.endOfSource, rest) => ⟨[], [], rest⟩
  | (.form form, rest) =>
    have := size_readForm_lt hform
    let following := readAll rest
    { following with forms := form :: following.forms }
  | (.failure error depth, rest) =>
    have := size_recover_readForm_lt hform
    let following := readAll (recover error depth rest)
    { following with errors := error :: following.errors }
termination_by stream.size

/-- The forms of a source and the errors of those that are malformed. -/
def readSource (source : String) : Program × List SyntaxError :=
  let reading := readAll (.ofSource source)
  (reading.forms, reading.errors)

/-- The program that a source is, unless a form of it is malformed. -/
def parse (source : String) : Except (List SyntaxError) Program :=
  match readSource source with
  | (forms, []) => .ok forms
  | (_, errors) => .error errors

/-! ## Readers -/

/-- A source that is read form by form, with the errors recorded so far. -/
structure Reader where
  stream : TokenStream
  errors : List SyntaxError

namespace Reader

/-- The reader at the beginning of a source. -/
def ofSource (source : String) : Reader :=
  ⟨.ofSource source, []⟩

/-- Read one form; an error is returned and not recorded. -/
def readForm (reader : Reader) : FormReading × Reader :=
  let (reading, stream) := MiniScheme.readForm reader.stream
  (reading, { reader with stream })

/-- Read every form up to the end and record the errors of the others. -/
def readAll (reader : Reader) : Program × Reader :=
  let reading := MiniScheme.readAll reader.stream
  (reading.forms, ⟨reading.rest, reader.errors ++ reading.errors⟩)

/-- The errors recorded so far, which are then forgotten. -/
def takeErrors (reader : Reader) : List SyntaxError × Reader :=
  (reader.errors, { reader with errors := [] })

end Reader

end MiniScheme

import MiniScheme.Proofs.Completeness
import MiniScheme.Proofs.OnePass
import MiniScheme.Proofs.Spelling

/-!
# The token that a form fails at

A reader that rejects a token has read the beginning of some form up to it, and no form begins
with what it has read and the rejected token.  So a form fails at the first token that makes it
impossible, whatever follows.

The first half is about the places that are open: what has been read before a place goes on with
any derivation in this place, since the constructs around it can be ended one by one from the
inside out.  The second half is that of the grammar: a derivation of a form is followed token by
token, and the same tokens lead to the same expectation.

Main results:

- Theorem `Expectation.Spelled.viable`: what has been read of a form is the beginning of one.
- Theorem `Expectation.Reaches.not_viable`: no form begins with a token that is rejected
  after the tokens before it.
- Theorem `Reader.readForm_rejects`: a form that fails at a token fails at the first one that
  makes it impossible, and this token is read next.
-/

namespace MiniScheme

/-! ## Derivations of one token -/

instance {kind : TokenKind} : Inhabited (Terminal kind) :=
  ⟨⟨kind, "", none, .start⟩, rfl⟩

instance : Inhabited AtomToken :=
  ⟨⟨.identifier, "", none, .start⟩, rfl⟩

instance : Inhabited DatumTree :=
  ⟨.atom default⟩

instance : Inhabited ExpressionTree :=
  ⟨.atom default⟩

/-! ## What has been read can be completed -/

/-- Some form begins with the tokens. -/
def Viable (tokens : List Token) : Prop :=
  ∃ tree : FormTree, tokens <+: tree.tokens

/-- The beginning of a viable row is viable. -/
theorem Viable.of_isPrefix {tokens tokens' : List Token} (h : Viable tokens')
    (hle : tokens <+: tokens') : Viable tokens := by
  obtain ⟨tree, htree⟩ := h
  exact ⟨tree, hle.trans htree⟩

/-- What stands before a place goes on with any derivation in this place. -/
theorem Place.Spelled.viable {place : Place} {before : List Token} (h : place.Spelled before)
    (tree : ExpressionTree) : Viable (before ++ tree.tokens) := by
  induction h generalizing tree with
  | form => exact ⟨.expression tree, List.prefix_rfl⟩
  | value opening word name =>
    exact ⟨.definition opening word name tree default, by simp [FormTree.tokens]⟩
  | head h opening ih =>
    apply (ih (.application opening tree [] default)).of_isPrefix
    simp [ExpressionTree.tokens]
  | element h hrow ih =>
    obtain ⟨whole, htokens, -⟩ := (hrow.add tree).close default
    apply (ih whole).of_isPrefix
    simp [htokens]
  | predicate h opening word ih =>
    apply (ih (.conditional opening word tree default default default)).of_isPrefix
    simp [ExpressionTree.tokens]
  | consequent h opening word predicate ih =>
    apply (ih (.conditional opening word predicate tree default default)).of_isPrefix
    simp [ExpressionTree.tokens]
  | alternative h opening word predicate consequent ih =>
    apply (ih (.conditional opening word predicate consequent tree default)).of_isPrefix
    simp [ExpressionTree.tokens]

/-- What stands before a place for a datum goes on with any derivation in this place. -/
theorem DatumPlace.Spelled.viable {place : DatumPlace} {before : List Token}
    (h : place.Spelled before) (tree : DatumTree) : Viable (before ++ tree.tokens) := by
  induction h generalizing tree with
  | afterMark h mark =>
    apply (h.viable (.marked mark tree)).of_isPrefix
    simp [ExpressionTree.tokens]
  | afterWord h opening word =>
    apply (h.viable (.quoted opening word tree default)).of_isPrefix
    simp [ExpressionTree.tokens]
  | item h opening trees hread ih =>
    apply (ih (.list opening (trees ++ [tree]) default)).of_isPrefix
    simp [DatumTree.tokens, DatumTree.rowTokens]

namespace Expectation

/-- What has been read of a form is the beginning of one. -/
theorem Spelled.viable {expectation : Expectation} {tokens : List Token}
    (h : expectation.Spelled tokens) : Viable tokens := by
  cases h with
  | expression h => exact (h.viable default).of_isPrefix (List.prefix_append _ _)
  | opened h opening =>
    apply (h.viable (.application opening default [] default)).of_isPrefix
    simp [ExpressionTree.tokens]
  | name opening word =>
    exact ⟨.definition opening word default default default, by simp [FormTree.tokens]⟩
  | more h hrow =>
    obtain ⟨whole, htokens, -⟩ := hrow.close default
    apply (h.viable whole).of_isPrefix
    simp [htokens]
  | formalsOpen h opening word =>
    apply (h.viable (.lambda opening word default [] default default [] default)).of_isPrefix
    simp [ExpressionTree.tokens]
  | formals h opening word formalsOpening terminals hread =>
    apply (h.viable (.lambda opening word formalsOpening terminals default default []
      default)).of_isPrefix
    simp [ExpressionTree.tokens]
  | datum h => exact (h.viable default).of_isPrefix (List.prefix_append _ _)
  | items h opening trees hread =>
    apply (h.viable (.list opening trees default)).of_isPrefix
    simp [DatumTree.tokens]
  | close h hwhole =>
    obtain ⟨whole, htokens, -⟩ := hwhole default
    apply (h.viable whole).of_isPrefix
    simp [htokens]
  | closeDefinition opening word name value =>
    exact ⟨.definition opening word name value default, by simp [FormTree.tokens]⟩

/-! ## A rejected token is in no form -/

namespace Reaches

/-- The first token leads to the step itself, or moves on to an expectation from which the others
lead to it. -/
theorem cons_iff {expectation : Expectation} {token : Token} {tokens : List Token} {step : Step} :
    expectation.Reaches (token :: tokens) step ↔
      tokens = [] ∧ expectation.step token = step ∨
        ∃ following, expectation.step token = .next following ∧ following.Reaches tokens step := by
  constructor
  · intro h
    cases h with
    | last => exact .inl ⟨rfl, rfl⟩
    | more hstep h => exact .inr ⟨_, hstep, h⟩
  · rintro (⟨rfl, rfl⟩ | ⟨following, hstep, h⟩)
    · exact .last expectation token
    · exact .more hstep h

/-- No token leads to no step. -/
theorem ne_nil {expectation : Expectation} {tokens : List Token} {step : Step}
    (h : expectation.Reaches tokens step) : tokens ≠ [] := by
  cases h <;> simp

/-- Tokens that lead to a rejection lead nowhere else, whatever follows them. -/
theorem eq_reject {expectation : Expectation} {tokens rest : List Token} {error : SyntaxError}
    {step : Step} (h : expectation.Reaches tokens (.reject error))
    (h' : expectation.Reaches (tokens ++ rest) step) : step = .reject error := by
  induction tokens generalizing expectation with
  | nil => exact absurd rfl h.ne_nil
  | cons token tokens ih =>
    rw [List.cons_append, cons_iff] at h'
    rcases cons_iff.1 h with ⟨rfl, hreject⟩ | ⟨following, hnext, h⟩
    · rcases h' with ⟨-, hstep⟩ | ⟨following, hnext, -⟩
      · rw [← hstep, hreject]
      · simp [hreject] at hnext
    · rcases h' with ⟨hnil, -⟩ | ⟨following', hnext', h'⟩
      · exact absurd (List.append_eq_nil_iff.1 hnil).1 h.ne_nil
      · obtain rfl : following = following' := by simpa [hnext] using hnext'
        exact ih h h'

/-- No form begins with a token that is rejected after the tokens before it. -/
theorem not_viable {tokens : List Token} {error : SyntaxError}
    (h : start.Reaches tokens (.reject error)) : ¬Viable tokens := by
  rintro ⟨tree, rest, htokens⟩
  have hform := tree.reaches
  rw [← htokens] at hform
  cases h.eq_reject hform

/-- Before the last of the tokens that lead to a step a form can still be completed. -/
theorem viable_dropLast {expectation : Expectation} {before tokens : List Token} {last : Token}
    {step : Step} (hspelled : expectation.Spelled before)
    (h : expectation.Reaches (tokens ++ [last]) step) : Viable (before ++ tokens) := by
  induction tokens generalizing expectation before with
  | nil => exact hspelled.viable.of_isPrefix (by simp)
  | cons token tokens ih =>
    rw [List.cons_append, cons_iff] at h
    rcases h with ⟨hnil, -⟩ | ⟨following, hnext, h⟩
    · simp at hnil
    · have hfollowing := step_spelled hspelled token
      rw [hnext] at hfollowing
      obtain @⟨_, _, hfollowing⟩ := hfollowing
      have hviable := ih hfollowing h
      rwa [List.append_assoc, List.singleton_append] at hviable

end Reaches

end Expectation

/-! ## What the reader reads -/

/-- A stream yields some tokens one after another and then goes on as another stream. -/
inductive TokenStream.Yields : TokenStream → List Token → TokenStream → Prop
  | nil (stream : TokenStream) : Yields stream [] stream
  | cons {stream following rest : TokenStream} {token : Token} {tokens : List Token}
    (hnext : stream.next = (.ok token, following)) (h : Yields following tokens rest) :
    Yields stream (token :: tokens) rest

/-- The tokens that are read up to a rejected one lead to its rejection, and it is handed back. -/
theorem readFrom_reaches {expectation : Expectation} {stream after : TokenStream}
    {error : SyntaxError} {depth : Nat} {found : Token}
    (h : readFrom expectation stream = (.failure error depth, after))
    (herror : error.offender = .ok found) :
    ∃ tokens rest, stream.Yields tokens rest ∧ rest.next.1 = .ok found ∧
      after.next = rest.next ∧ expectation.Reaches (tokens ++ [found]) (.reject error) := by
  fun_induction readFrom expectation stream with
  | case1 expectation stream fault rest hnext =>
    simp only [Prod.mk.injEq, FormReading.failure.injEq] at h
    rw [← h.1.1] at herror
    cases herror
  | case2 expectation stream token rest hnext following hstep _ ih =>
    obtain ⟨tokens, final, hyields, hfound, hafter, hreaches⟩ := ih h
    exact ⟨token :: tokens, final, .cons hnext hyields, hfound, hafter, .more hstep hreaches⟩
  | case3 => simp at h
  | case4 expectation stream token rest hnext cause hstep =>
    simp only [Prod.mk.injEq, FormReading.failure.injEq] at h
    obtain ⟨⟨rfl, -⟩, rfl⟩ := h
    have hcause : cause.offender = .ok token := by
      have hleaves := expectation.step_leaves token
      rw [hstep] at hleaves
      cases hleaves <;> rfl
    obtain rfl : token = found := by simpa [hcause] using herror
    refine ⟨[], stream, .nil stream, by rw [hnext], ?_, ?_⟩
    · rw [TokenStream.next_handBack, hnext]
    · rw [List.nil_append, ← hstep]
      exact .last expectation token

/-- A form that fails at a token fails at the first one that makes it impossible: the tokens of
the form before it are the beginning of some form, and together with it they are the beginning of
none.  The end of a source is such a token too, where a form has begun.  Afterwards the reader
goes on with the token that it failed at. -/
theorem Reader.readForm_rejects {reader after : Reader} {error : SyntaxError} {depth : Nat}
    {found : Token} (h : reader.readForm = (.failure error depth, after))
    (herror : error = .unexpected found ∨ ∃ kind, error = .expected kind found) :
    ∃ tokens rest, reader.stream.Yields tokens rest ∧ rest.next.1 = .ok found ∧
      Viable tokens ∧ ¬Viable (tokens ++ [found]) ∧ after.stream.next = rest.next := by
  have hoffender : error.offender = .ok found := by
    rcases herror with rfl | ⟨kind, rfl⟩ <;> rfl
  simp only [Reader.readForm, Prod.mk.injEq] at h
  obtain ⟨hfailure, rfl⟩ := h
  unfold MiniScheme.readForm at hfailure ⊢
  split at hfailure
  next => cases hfailure
  next hend =>
    rw [if_neg hend]
    obtain ⟨tokens, rest, hyields, hfound, hafter, hreaches⟩ :=
      readFrom_reaches (Prod.ext hfailure rfl) hoffender
    have hviable := Expectation.Reaches.viable_dropLast (.expression .form) hreaches
    exact ⟨tokens, rest, hyields, hfound, hviable, hreaches.not_viable, hafter⟩

/-- A definition whose value has a number among its formals: the number is the eighth token, and
up to it the tokens are those of a definition. -/
theorem Reader.readForm_rejects_formal :
    let reader := Reader.ofSource "(define f (lambda (x 1) x))"
    let found : Token := ⟨.number, "1", some (.number 1), ⟨1, 22⟩⟩
    reader.readForm.1 = .failure (.expected .closeParen found) 3 ∧
      ∃ tokens rest, reader.stream.Yields tokens rest ∧ rest.next.1 = .ok found ∧
        Viable tokens ∧ ¬Viable (tokens ++ [found]) ∧
        reader.readForm.2.stream.next = rest.next := by
  intro reader found
  have herror : (match reader.readForm.1 with
      | .failure error depth => some (error, depth)
      | _ => none) = some (.expected .closeParen found, 3) := by decide +kernel
  have hfailure : reader.readForm.1 = .failure (.expected .closeParen found) 3 := by
    split at herror
    next error depth heq =>
      simp only [Option.some.injEq, Prod.mk.injEq] at herror
      rw [heq, herror.1, herror.2]
    next => cases herror
  exact ⟨hfailure, Reader.readForm_rejects (Prod.ext hfailure rfl) (.inr ⟨.closeParen, rfl⟩)⟩

end MiniScheme

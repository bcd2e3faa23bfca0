import MiniScheme.Form.Expectation
import MiniScheme.Proofs.Derivation

/-!
# What the tokens read so far spell

A form that is being read is spelled by the tokens read so far if these are the derivations of
its finished parts, with the parentheses and reserved words around them.  One token keeps an
expectation spelled, and a form that it completes is derived from all the tokens of the form.

Main results:

- Theorem `Place.Spelled.fill`: a derivation in its place spells what follows.
- Theorem `Expectation.step_spelled`: one token keeps what has been read spelled.
-/

namespace MiniScheme

/-! ## Rows -/

/-- The tokens of a row that may end: its construct has all that it must have. -/
inductive Row.Complete : Row → List Token → Prop
  | arguments (opening : Terminal .openParen) (head : ExpressionTree)
    (trees : List ExpressionTree) {read : List Expression}
    (hread : read.reverse = ExpressionTree.rowExpressions trees) :
    Complete (.arguments head.expression read)
      (opening.1 :: (head.tokens ++ ExpressionTree.rowTokens trees))
  | body (opening : Terminal .openParen) (word : Terminal (.keyword .lambda))
    (formalsOpening : Terminal .openParen) (formals : List (Terminal .identifier))
    (formalsClosing : Terminal .closeParen) (first : ExpressionTree)
    (further : List ExpressionTree) {read : List Expression}
    (hread : read.reverse = ExpressionTree.rowExpressions (first :: further)) :
    Complete (.body (Terminal.tokens formals) read)
      (opening.1 :: word.1 :: formalsOpening.1 :: (Terminal.tokens formals ++ formalsClosing.1 ::
        (first.tokens ++ ExpressionTree.rowTokens further)))

/-- The tokens of a row that is being read. -/
inductive Row.Spelled : Row → List Token → Prop
  | complete {row : Row} {tokens : List Token} (h : row.Complete tokens) : Spelled row tokens
  | noBody (opening : Terminal .openParen) (word : Terminal (.keyword .lambda))
    (formalsOpening : Terminal .openParen) (formals : List (Terminal .identifier))
    (formalsClosing : Terminal .closeParen) :
    Spelled (.body (Terminal.tokens formals) [])
      (opening.1 :: word.1 :: formalsOpening.1 ::
        (Terminal.tokens formals ++ [formalsClosing.1]))

/-- The tokens of an expression that only its closing parenthesis is missing from. -/
def SpellsUpToClose (whole : Expression) (tokens : List Token) : Prop :=
  ∀ closing : Terminal .closeParen, ∃ tree : ExpressionTree,
    tree.tokens = tokens ++ [closing.1] ∧ tree.expression = whole

namespace Row

/-- A row that may end makes an expression. -/
theorem Complete.close {row : Row} {tokens : List Token} (h : row.Complete tokens) :
    SpellsUpToClose row.close tokens := by
  intro closing
  cases h with
  | arguments opening head trees hread =>
    refine ⟨.application opening head trees closing, ?_, ?_⟩
    · simp [ExpressionTree.tokens]
    · simp [ExpressionTree.expression, Row.close, hread]
  | body opening word formalsOpening formals formalsClosing first further hread =>
    refine ⟨.lambda opening word formalsOpening formals formalsClosing first further closing,
      ?_, ?_⟩
    · simp [ExpressionTree.tokens]
    · simp [ExpressionTree.expression, Row.close, hread, ExpressionTree.rowExpressions]

/-- With one more expression a row may end. -/
theorem Spelled.add {row : Row} {tokens : List Token} (h : row.Spelled tokens)
    (tree : ExpressionTree) : (row.add tree.expression).Complete (tokens ++ tree.tokens) := by
  cases h with
  | complete h =>
    cases h with
    | arguments opening head trees hread =>
      have htokens : opening.1 :: (head.tokens ++ ExpressionTree.rowTokens trees) ++ tree.tokens =
          opening.1 :: (head.tokens ++ ExpressionTree.rowTokens (trees ++ [tree])) := by
        simp [ExpressionTree.rowTokens]
      rw [htokens]
      exact .arguments opening head (trees ++ [tree])
        (by simp [hread, ExpressionTree.rowExpressions])
    | body opening word formalsOpening formals formalsClosing first further hread =>
      have htokens : opening.1 :: word.1 :: formalsOpening.1 :: (Terminal.tokens formals ++
          formalsClosing.1 :: (first.tokens ++ ExpressionTree.rowTokens further)) ++ tree.tokens =
          opening.1 :: word.1 :: formalsOpening.1 :: (Terminal.tokens formals ++
            formalsClosing.1 ::
              (first.tokens ++ ExpressionTree.rowTokens (further ++ [tree]))) := by
        simp [ExpressionTree.rowTokens]
      rw [htokens]
      exact .body opening word formalsOpening formals formalsClosing first (further ++ [tree])
        (by simp [hread, ExpressionTree.rowExpressions])
  | noBody opening word formalsOpening formals formalsClosing =>
    have htokens : opening.1 :: word.1 :: formalsOpening.1 :: (Terminal.tokens formals ++
        [formalsClosing.1]) ++ tree.tokens =
        opening.1 :: word.1 :: formalsOpening.1 :: (Terminal.tokens formals ++
          formalsClosing.1 :: (tree.tokens ++ ExpressionTree.rowTokens [])) := by
      simp [ExpressionTree.rowTokens]
    rw [htokens]
    exact .body opening word formalsOpening formals formalsClosing tree []
      (by simp [ExpressionTree.rowExpressions])

end Row

/-! ## Places -/

/-- The tokens before a place for an expression. -/
inductive Place.Spelled : Place → List Token → Prop
  | form : Spelled .form []
  | value (opening : Terminal .openParen) (word : Terminal (.keyword .define))
    (name : Terminal .identifier) : Spelled (.value name.1) [opening.1, word.1, name.1]
  | head {outer : Place} {before : List Token} (h : Spelled outer before)
    (opening : Terminal .openParen) : Spelled (.head outer) (before ++ [opening.1])
  | element {outer : Place} {row : Row} {before tokens : List Token} (h : Spelled outer before)
    (hrow : row.Spelled tokens) : Spelled (.element row outer) (before ++ tokens)
  | predicate {outer : Place} {before : List Token} (h : Spelled outer before)
    (opening : Terminal .openParen) (word : Terminal (.keyword .conditional)) :
    Spelled (.predicate outer) (before ++ [opening.1, word.1])
  | consequent {outer : Place} {before : List Token} (h : Spelled outer before)
    (opening : Terminal .openParen) (word : Terminal (.keyword .conditional))
    (predicate : ExpressionTree) :
    Spelled (.consequent predicate.expression outer)
      (before ++ opening.1 :: word.1 :: predicate.tokens)
  | alternative {outer : Place} {before : List Token} (h : Spelled outer before)
    (opening : Terminal .openParen) (word : Terminal (.keyword .conditional))
    (predicate consequent : ExpressionTree) :
    Spelled (.alternative predicate.expression consequent.expression outer)
      (before ++ opening.1 :: word.1 :: (predicate.tokens ++ consequent.tokens))

/-- The tokens before a place for a datum. -/
inductive DatumPlace.Spelled : DatumPlace → List Token → Prop
  | afterMark {outer : Place} {before : List Token} (h : outer.Spelled before)
    (mark : Terminal .quoteMark) : Spelled (.afterMark outer) (before ++ [mark.1])
  | afterWord {outer : Place} {before : List Token} (h : outer.Spelled before)
    (opening : Terminal .openParen) (word : Terminal (.keyword .quote)) :
    Spelled (.afterWord outer) (before ++ [opening.1, word.1])
  | item {outer : DatumPlace} {before : List Token} (h : Spelled outer before)
    (opening : Terminal .openParen) (trees : List DatumTree) {read : List Datum}
    (hread : read.reverse = DatumTree.rowData trees) :
    Spelled (.item read outer) (before ++ opening.1 :: DatumTree.rowTokens trees)

/-! ## Expectations -/

/-- The tokens of a form that have been read where an expectation stands. -/
inductive Expectation.Spelled : Expectation → List Token → Prop
  | expression {place : Place} {before : List Token} (h : place.Spelled before) :
    Spelled (.expression place) before
  | opened {place : Place} {before : List Token} (h : place.Spelled before)
    (opening : Terminal .openParen) : Spelled (.opened place) (before ++ [opening.1])
  | name (opening : Terminal .openParen) (word : Terminal (.keyword .define)) :
    Spelled .name [opening.1, word.1]
  | more {outer : Place} {row : Row} {before tokens : List Token} (h : outer.Spelled before)
    (hrow : row.Complete tokens) : Spelled (.more row outer) (before ++ tokens)
  | formalsOpen {place : Place} {before : List Token} (h : place.Spelled before)
    (opening : Terminal .openParen) (word : Terminal (.keyword .lambda)) :
    Spelled (.formalsOpen place) (before ++ [opening.1, word.1])
  | formals {place : Place} {before : List Token} (h : place.Spelled before)
    (opening : Terminal .openParen) (word : Terminal (.keyword .lambda))
    (formalsOpening : Terminal .openParen) (terminals : List (Terminal .identifier))
    {read : List Token} (hread : read.reverse = Terminal.tokens terminals) :
    Spelled (.formals read place)
      (before ++ opening.1 :: word.1 :: formalsOpening.1 :: Terminal.tokens terminals)
  | datum {place : DatumPlace} {before : List Token} (h : place.Spelled before) :
    Spelled (.datum place) before
  | items {place : DatumPlace} {before : List Token} (h : place.Spelled before)
    (opening : Terminal .openParen) (trees : List DatumTree) {read : List Datum}
    (hread : read.reverse = DatumTree.rowData trees) :
    Spelled (.items read place) (before ++ opening.1 :: DatumTree.rowTokens trees)
  | close {place : Place} {before tokens : List Token} {whole : Expression}
    (h : place.Spelled before) (hwhole : SpellsUpToClose whole tokens) :
    Spelled (.close whole place) (before ++ tokens)
  | closeDefinition (opening : Terminal .openParen) (word : Terminal (.keyword .define))
    (name : Terminal .identifier) (value : ExpressionTree) :
    Spelled (.closeDefinition name.1 value.expression)
      (opening.1 :: word.1 :: name.1 :: value.tokens)

/-- The tokens that have led to a step. -/
inductive Step.Spelled : Step → List Token → Prop
  | next {expectation : Expectation} {tokens : List Token} (h : expectation.Spelled tokens) :
    Spelled (.next expectation) tokens
  | form (tree : FormTree) : Spelled (.form tree.form) tree.tokens
  | reject (error : SyntaxError) (tokens : List Token) : Spelled (.reject error) tokens

/-! ## One token -/

/-- What a step is spelled by does not depend on how its tokens are written down. -/
theorem Step.Spelled.of_eq {step : Step} {tokens tokens' : List Token} (h : step.Spelled tokens)
    (heq : tokens = tokens') : step.Spelled tokens' :=
  heq ▸ h

/-- A derivation in its place spells what follows. -/
theorem Place.Spelled.fill {place : Place} {before : List Token} (h : place.Spelled before)
    (tree : ExpressionTree) :
    (place.fill tree.expression).Spelled (before ++ tree.tokens) := by
  cases h with
  | form => exact .form (.expression tree)
  | value opening word name => exact .next (.closeDefinition opening word name tree)
  | head h opening =>
    have hrow : (Row.arguments tree.expression []).Complete _ := .arguments opening tree [] rfl
    exact Step.Spelled.of_eq (.next (.more h hrow)) (by simp [ExpressionTree.rowTokens])
  | element h hrow =>
    exact Step.Spelled.of_eq (.next (.more h (hrow.add tree))) (by simp)
  | predicate h opening word =>
    exact Step.Spelled.of_eq (.next (.expression (.consequent h opening word tree))) (by simp)
  | consequent h opening word predicate =>
    exact Step.Spelled.of_eq (.next (.expression (.alternative h opening word predicate tree)))
      (by simp)
  | alternative h opening word predicate consequent =>
    have hwhole : SpellsUpToClose
        (.conditional predicate.expression consequent.expression tree.expression)
        (opening.1 :: word.1 :: (predicate.tokens ++ (consequent.tokens ++ tree.tokens))) := by
      intro closing
      refine ⟨.conditional opening word predicate consequent tree closing, ?_, rfl⟩
      simp [ExpressionTree.tokens]
    exact Step.Spelled.of_eq (.next (.close h hwhole)) (by simp)

/-- A derivation of a datum in its place spells what follows. -/
theorem DatumPlace.Spelled.fill {place : DatumPlace} {before : List Token}
    (h : place.Spelled before) (tree : DatumTree) :
    (place.fill tree.datum).Spelled (before ++ tree.tokens) := by
  cases h with
  | afterMark h mark =>
    exact (h.fill (.marked mark tree)).of_eq (by simp [ExpressionTree.tokens])
  | afterWord h opening word =>
    have hwhole : SpellsUpToClose (.quoted tree.datum)
        (opening.1 :: word.1 :: tree.tokens) := by
      intro closing
      exact ⟨.quoted opening word tree closing, by simp [ExpressionTree.tokens], rfl⟩
    exact Step.Spelled.of_eq (.next (.close h hwhole)) (by simp)
  | item h opening trees hread =>
    exact Step.Spelled.of_eq
      (.next (.items h opening (trees ++ [tree]) (by simp [hread, DatumTree.rowData])))
      (by simp [DatumTree.rowTokens])

/-- The tokens of a place and the one that begins an expression there spell what comes of it. -/
theorem Place.Spelled.startExpression {place : Place} {before : List Token}
    (h : place.Spelled before) (token : Token) :
    (place.startExpression token).Spelled (before ++ [token]) := by
  unfold Place.startExpression
  split
  next hkind => exact .next (.opened h ⟨token, hkind⟩)
  next hkind => exact .next (.datum (.afterMark h ⟨token, hkind⟩))
  next =>
    split
    next hatom => exact h.fill (.atom ⟨token, hatom⟩)
    next => exact .reject _ _

/-- The tokens of a place and the one that begins a datum there spell what comes of it. -/
theorem DatumPlace.Spelled.startDatum {place : DatumPlace} {before : List Token}
    (h : place.Spelled before) (token : Token) :
    (place.startDatum token).Spelled (before ++ [token]) := by
  unfold DatumPlace.startDatum
  split
  next hkind => exact .next (.items h ⟨token, hkind⟩ [] rfl)
  next =>
    split
    next hatom => exact h.fill (.atom ⟨token, hatom⟩)
    next => exact .reject _ _

/-- The tokens of a place, an opening and the token behind it spell what comes of them. -/
theorem Place.Spelled.startConstruct {place : Place} {before : List Token}
    (h : place.Spelled before) (opening : Terminal .openParen) (token : Token) :
    (place.startConstruct token).Spelled (before ++ [opening.1] ++ [token]) := by
  unfold Place.startConstruct
  split
  next hkind =>
    exact Step.Spelled.of_eq (.next (.formalsOpen h opening ⟨token, hkind⟩)) (by simp)
  next hkind =>
    exact Step.Spelled.of_eq (.next (.expression (.predicate h opening ⟨token, hkind⟩)))
      (by simp)
  next hkind =>
    exact Step.Spelled.of_eq (.next (.datum (.afterWord h opening ⟨token, hkind⟩))) (by simp)
  next hkind =>
    cases h
    exact .next (.name opening ⟨token, hkind⟩)
  next => exact (h.head opening).startExpression token

namespace Expectation

/-- A token that must be of a kind is spelled when it is of it. -/
theorem require_spelled {kind : TokenKind} {token : Token} {step : Step} {tokens : List Token}
    (h : token.kind = kind → step.Spelled tokens) :
    (require kind token step).Spelled tokens := by
  unfold require
  split
  next hkind => exact h hkind
  next => exact .reject _ _

/-- An expression that only its closing parenthesis was missing from fills its place. -/
theorem fill_spelled_of_close {place : Place} {before tokens : List Token} {whole : Expression}
    (h : place.Spelled before) (hwhole : SpellsUpToClose whole tokens)
    (closing : Terminal .closeParen) :
    (place.fill whole).Spelled (before ++ tokens ++ [closing.1]) := by
  obtain ⟨tree, htokens, rfl⟩ := hwhole closing
  rw [List.append_assoc, ← htokens]
  exact h.fill tree

/-- One token keeps what has been read spelled. -/
theorem step_spelled {expectation : Expectation} {tokens : List Token}
    (h : expectation.Spelled tokens) (token : Token) :
    (expectation.step token).Spelled (tokens ++ [token]) := by
  cases h with
  | expression h => exact h.startExpression token
  | opened h opening => exact h.startConstruct opening token
  | name opening word =>
    apply require_spelled
    intro hkind
    exact .next (.expression (.value opening word ⟨token, hkind⟩))
  | more h hrow =>
    simp only [step]
    split
    next => exact (h.element (.complete hrow)).startExpression token
    next =>
      apply require_spelled
      intro hkind
      exact fill_spelled_of_close h hrow.close ⟨token, hkind⟩
  | formalsOpen h opening word =>
    apply require_spelled
    intro hkind
    exact Step.Spelled.of_eq (.next (.formals h opening word ⟨token, hkind⟩ [] rfl))
      (by simp [Terminal.tokens])
  | formals h opening word formalsOpening terminals hread =>
    simp only [step]
    split
    next hkind =>
      exact Step.Spelled.of_eq (.next (.formals h opening word formalsOpening
        (terminals ++ [⟨token, hkind⟩]) (by simp [hread, Terminal.tokens])))
        (by simp [Terminal.tokens])
    next =>
      apply require_spelled
      intro hkind
      rw [hread]
      exact Step.Spelled.of_eq (.next (.expression (.element h
        (.noBody opening word formalsOpening terminals ⟨token, hkind⟩)))) (by simp)
  | datum h => exact h.startDatum token
  | items h opening trees hread =>
    simp only [step]
    split
    next => exact (h.item opening trees hread).startDatum token
    next =>
      apply require_spelled
      intro hkind
      rw [hread]
      exact (h.fill (.list opening trees ⟨token, hkind⟩)).of_eq (by simp [DatumTree.tokens])
  | close h hwhole =>
    apply require_spelled
    intro hkind
    exact fill_spelled_of_close h hwhole ⟨token, hkind⟩
  | closeDefinition opening word name value =>
    apply require_spelled
    intro hkind
    exact .form (.definition opening word name value ⟨token, hkind⟩)

end Expectation

end MiniScheme

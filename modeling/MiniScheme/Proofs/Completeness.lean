import MiniScheme.Form.Expectation
import MiniScheme.Proofs.Derivation

/-!
# Derivations are read as what they derive

A derivation is followed token by token.  Wherever an expression may stand, the tokens of a
derivation of one lead to what follows the expression in that place, and so the tokens of a
derivation of a form lead to the form.

Main results:

- Theorem `DatumTree.reaches` and theorem `ExpressionTree.reaches`: a derivation fills the place
  that it is read in.
- Theorem `FormTree.reaches`: the tokens of a derivation of a form are read as the form.
-/

namespace MiniScheme

/-! ## Following a row of tokens -/

namespace Expectation

/-- A row of tokens leads to a step: every token but the last moves on within the form, and the
step is that of the last. -/
inductive Reaches : Expectation → List Token → Step → Prop
  | last (expectation : Expectation) (token : Token) :
    Reaches expectation [token] (expectation.step token)
  | more {expectation following : Expectation} {token : Token} {tokens : List Token} {step : Step}
    (hstep : expectation.step token = .next following) (h : Reaches following tokens step) :
    Reaches expectation (token :: tokens) step

namespace Reaches

/-- What is reached over some tokens and from there over others is reached over all of them. -/
theorem trans {expectation following : Expectation} {first second : List Token} {step : Step}
    (hfirst : expectation.Reaches first (.next following))
    (hsecond : following.Reaches second step) :
    expectation.Reaches (first ++ second) step := by
  generalize hmiddle : Step.next following = middle at hfirst
  induction hfirst with
  | last expectation token => exact .more hmiddle.symm hsecond
  | more hstep _ ih => exact .more hstep (ih hmiddle)

/-- Only the first token meets the expectation itself. -/
theorem of_step_eq {expectation expectation' : Expectation} {tokens : List Token} {step : Step}
    (h : expectation.Reaches tokens step)
    (hstep : ∀ token rest, tokens = token :: rest →
      expectation'.step token = expectation.step token) :
    expectation'.Reaches tokens step := by
  cases h with
  | last _ token => exact hstep token [] rfl ▸ .last expectation' token
  | more hnext h => exact .more ((hstep _ _ rfl).trans hnext) h

end Reaches

end Expectation

/-! ## Derivations are read as what they derive -/

namespace DatumTree

mutual

/-- The tokens of a datum fill the place that they are read in. -/
theorem reaches : ∀ (tree : DatumTree) (place : DatumPlace),
    (Expectation.datum place).Reaches tree.tokens (place.fill tree.datum)
  | .atom token, place => by
    have hstep : (Expectation.datum place).step token.1 = place.fill (.atom token.1) := by
      obtain ⟨token, htoken⟩ := token
      simp only [Expectation.step, DatumPlace.startDatum]
      cases hkind : token.kind <;> simp_all [TokenKind.isAtom]
    rw [tokens, datum, ← hstep]
    exact .last _ _
  | .list opening items closing, place => by
    have hstep : (Expectation.datum place).step opening.1 = .next (.items [] place) := by
      simp [Expectation.step, DatumPlace.startDatum, opening.2]
    rw [tokens, datum]
    exact .more hstep (rowReaches items [] closing place)

/-- The tokens of a row of data and the parenthesis that ends it fill a place with a list. -/
theorem rowReaches : ∀ (trees : List DatumTree) (read : List Datum)
    (closing : Terminal .closeParen) (place : DatumPlace),
    (Expectation.items read place).Reaches (rowTokens trees ++ [closing.1])
      (place.fill (.list (read.reverse ++ rowData trees)))
  | [], read, closing, place => by
    have hstep : (Expectation.items read place).step closing.1 =
        place.fill (.list (read.reverse ++ [])) := by
      simp [Expectation.step, Expectation.require, closing.2, TokenKind.startsDatum,
        TokenKind.isAtom]
    rw [rowTokens, rowData, ← hstep]
    exact .last _ _
  | tree :: trees, read, closing, place => by
    have hfirst : (Expectation.items read place).Reaches tree.tokens
        (.next (.items (tree.datum :: read) place)) := by
      apply (reaches tree (.item read place)).of_step_eq
      intro token rest htokens
      obtain ⟨token', tokens', htree, hstarts⟩ := tree.exists_tokens_eq_cons
      rw [htree, List.cons.injEq] at htokens
      rw [htokens.1] at hstarts
      simp [Expectation.step, hstarts]
    have hrest := rowReaches trees (tree.datum :: read) closing place
    rw [rowTokens, rowData, List.append_assoc]
    simpa using hfirst.trans hrest

end

end DatumTree

/-- The row with several more expressions. -/
def Row.addAll (row : Row) (expressions : List Expression) : Row :=
  expressions.foldl Row.add row

/-- Adding no expressions leaves a row as it is. -/
@[simp]
theorem Row.addAll_nil (row : Row) : row.addAll [] = row :=
  rfl

/-- Adding expressions to a row begins with the first of them. -/
@[simp]
theorem Row.addAll_cons (row : Row) (expression : Expression) (expressions : List Expression) :
    row.addAll (expression :: expressions) = (row.add expression).addAll expressions :=
  rfl

/-- A row of arguments is closed to an application of all of them. -/
theorem Row.close_addAll_arguments (head : Expression) (read expressions : List Expression) :
    ((Row.arguments head read).addAll expressions).close =
      .application head (read.reverse ++ expressions) := by
  induction expressions generalizing read with
  | nil => simp [close]
  | cons expression expressions ih =>
    rw [addAll_cons, add, ih, List.reverse_cons, List.append_assoc, List.singleton_append]

/-- A row of a body is closed to a function with all of it. -/
theorem Row.close_addAll_body (formals : List Token) (read expressions : List Expression) :
    ((Row.body formals read).addAll expressions).close =
      .lambda formals (read.reverse ++ expressions) := by
  induction expressions generalizing read with
  | nil => simp [close]
  | cons expression expressions ih =>
    rw [addAll_cons, add, ih, List.reverse_cons, List.append_assoc, List.singleton_append]

namespace Expectation

/-- An opening parenthesis opens an expression. -/
theorem step_expression_open (place : Place) (opening : Terminal .openParen) :
    (expression place).step opening.1 = .next (.opened place) := by
  simp [step, Place.startExpression, opening.2]

/-- A closing parenthesis completes what it closes. -/
theorem close_reaches (whole : Expression) (place : Place) (closing : Terminal .closeParen) :
    (close whole place).Reaches [closing.1] (place.fill whole) := by
  have hstep : (close whole place).step closing.1 = place.fill whole := by
    simp [step, require, closing.2]
  rw [← hstep]
  exact .last _ _

/-- The tokens of the formals and the parenthesis that ends them lead to the body. -/
theorem formals_reaches (terminals : List (Terminal .identifier)) (read : List Token)
    (closing : Terminal .closeParen) (place : Place) :
    (formals read place).Reaches (Terminal.tokens terminals ++ [closing.1])
      (.next (.expression
        (.element (.body (read.reverse ++ Terminal.tokens terminals) []) place))) := by
  induction terminals generalizing read with
  | nil =>
    have hstep : (formals read place).step closing.1 =
        .next (.expression (.element (.body (read.reverse ++ []) []) place)) := by
      simp [step, require, closing.2]
    rw [Terminal.tokens, List.map_nil, ← hstep]
    exact .last _ _
  | cons terminal terminals ih =>
    have hstep : (formals read place).step terminal.1 =
        .next (.formals (terminal.1 :: read) place) := by
      simp [step, terminal.2]
    have hrest := ih (terminal.1 :: read)
    rw [List.reverse_cons, List.append_assoc, List.singleton_append] at hrest
    exact .more hstep hrest

end Expectation

namespace ExpressionTree

open Expectation (step_expression_open close_reaches formals_reaches)

mutual

/-- The tokens of an expression fill the place that they are read in. -/
theorem reaches : ∀ (tree : ExpressionTree) (place : Place),
    (Expectation.expression place).Reaches tree.tokens (place.fill tree.expression)
  | .atom token, place => by
    have hstep : (Expectation.expression place).step token.1 = place.fill (.literal token.1) := by
      obtain ⟨token, htoken⟩ := token
      simp only [Expectation.step, Place.startExpression]
      cases hkind : token.kind <;> simp_all [TokenKind.isAtom]
    rw [tokens, expression, ← hstep]
    exact .last _ _
  | .marked mark datum, place => by
    have hstep : (Expectation.expression place).step mark.1 =
        .next (.datum (.afterMark place)) := by
      simp [Expectation.step, Place.startExpression, mark.2]
    exact .more hstep (datum.reaches (.afterMark place))
  | .quoted opening word datum closing, place => by
    have hstep : (Expectation.opened place).step word.1 = .next (.datum (.afterWord place)) := by
      simp [Expectation.step, Place.startConstruct, word.2]
    exact .more (step_expression_open place opening) (.more hstep
      ((datum.reaches (.afterWord place)).trans (close_reaches _ place closing)))
  | .conditional opening word predicate consequent alternative closing, place => by
    have hstep : (Expectation.opened place).step word.1 =
        .next (.expression (.predicate place)) := by
      simp [Expectation.step, Place.startConstruct, word.2]
    have hpredicate := reaches predicate (.predicate place)
    have hconsequent := reaches consequent (.consequent predicate.expression place)
    have halternative := reaches alternative
      (.alternative predicate.expression consequent.expression place)
    exact .more (step_expression_open place opening) (.more hstep (hpredicate.trans
      (hconsequent.trans (halternative.trans (close_reaches _ place closing)))))
  | .lambda opening word formalsOpening formals formalsClosing first further closing, place => by
    have hword : (Expectation.opened place).step word.1 = .next (.formalsOpen place) := by
      simp [Expectation.step, Place.startConstruct, word.2]
    have hopening : (Expectation.formalsOpen place).step formalsOpening.1 =
        .next (.formals [] place) := by
      simp [Expectation.step, Expectation.require, formalsOpening.2]
    have hformals := formals_reaches formals [] formalsClosing place
    have hfirst := reaches first (.element (.body (Terminal.tokens formals) []) place)
    have hfurther := rowReaches further (.body (Terminal.tokens formals) [first.expression])
      closing place
    rw [Row.close_addAll_body] at hfurther
    have hbody := hformals.trans (hfirst.trans hfurther)
    rw [List.append_assoc, List.singleton_append] at hbody
    exact .more (step_expression_open place opening) (.more hword (.more hopening hbody))
  | .application opening head arguments closing, place => by
    have hhead : (Expectation.opened place).Reaches head.tokens
        (.next (.more (.arguments head.expression []) place)) := by
      apply (reaches head (.head place)).of_step_eq
      intro token rest htokens
      obtain ⟨token', tokens', htree, hstarts⟩ := head.exists_tokens_eq_cons
      rw [htree, List.cons.injEq] at htokens
      rw [htokens.1] at hstarts
      simp only [Expectation.step, Place.startConstruct]
      split <;> simp_all [TokenKind.startsExpression, TokenKind.startsDatum, TokenKind.isAtom]
    have harguments := rowReaches arguments (.arguments head.expression []) closing place
    rw [Row.close_addAll_arguments] at harguments
    exact .more (step_expression_open place opening) (hhead.trans harguments)

/-- The tokens of a row of expressions and the parenthesis that ends it fill a place with what
the row makes. -/
theorem rowReaches : ∀ (trees : List ExpressionTree) (row : Row)
    (closing : Terminal .closeParen) (place : Place),
    (Expectation.more row place).Reaches (rowTokens trees ++ [closing.1])
      (place.fill (row.addAll (rowExpressions trees)).close)
  | [], row, closing, place => by
    have hstep : (Expectation.more row place).step closing.1 = place.fill row.close := by
      simp [Expectation.step, Expectation.require, closing.2, TokenKind.startsExpression,
        TokenKind.startsDatum, TokenKind.isAtom]
    rw [rowTokens, rowExpressions, Row.addAll_nil, ← hstep]
    exact .last _ _
  | tree :: trees, row, closing, place => by
    have hfirst : (Expectation.more row place).Reaches tree.tokens
        (.next (.more (row.add tree.expression) place)) := by
      apply (reaches tree (.element row place)).of_step_eq
      intro token rest htokens
      obtain ⟨token', tokens', htree, hstarts⟩ := tree.exists_tokens_eq_cons
      rw [htree, List.cons.injEq] at htokens
      rw [htokens.1] at hstarts
      simp [Expectation.step, hstarts]
    have hrest := rowReaches trees (row.add tree.expression) closing place
    rw [rowTokens, rowExpressions, Row.addAll_cons, List.append_assoc]
    exact hfirst.trans hrest

end

end ExpressionTree

/-- The tokens of a form are read as the form. -/
theorem FormTree.reaches (tree : FormTree) :
    Expectation.start.Reaches tree.tokens (.form tree.form) := by
  cases tree with
  | expression tree => exact tree.reaches .form
  | definition opening word name value closing =>
    have hword : (Expectation.opened .form).step word.1 = .next .name := by
      simp [Expectation.step, Place.startConstruct, word.2]
    have hname : Expectation.name.step name.1 = .next (.expression (.value name.1)) := by
      simp [Expectation.step, Expectation.require, name.2]
    have hclosing : (Expectation.closeDefinition name.1 value.expression).step closing.1 =
        .form (.definition name.1 value.expression) := by
      simp [Expectation.step, Expectation.require, closing.2]
    have hlast := Expectation.Reaches.last (.closeDefinition name.1 value.expression) closing.1
    rw [hclosing] at hlast
    exact .more (Expectation.step_expression_open .form opening) (.more hword (.more hname
      ((value.reaches (.value name.1)).trans hlast)))

end MiniScheme

import MiniScheme.Proofs.Completeness
import MiniScheme.Proofs.Recovery

/-!
# A source is accepted exactly if the grammar derives it

The forms of the grammar are what the reader accepts.  A derivation is read as its form and
makes no error.  A source without errors is divided into stretches that are the tokens of
derivations, since everything else is discarded for some error.

Main results:

- Theorem `FormTree.outcomes_eq`: what is derived is read without errors.
- Theorem `Stretch.exists_trees`: what is read without errors is derived.
- Theorem `parse_eq_ok_iff_derives`: a source is accepted as a program if and only if its items
  are the tokens of derivations of forms that make the program, and there is only one choice of
  these derivations.
-/

namespace MiniScheme

/-! ## What is derived is accepted -/

/-- A row of tokens that leads to a form makes the machine complete the form. -/
theorem Expectation.Reaches.outcomes_eq {expectation : Expectation} {tokens : List Token}
    {form : Form} (h : expectation.Reaches tokens (.form form)) (finish : Position)
    (items : List Item) :
    (Phase.reading expectation).outcomes finish (tokens.map .ok ++ items) =
      .ok form :: Phase.start.outcomes finish items := by
  generalize hlast : Step.form form = step at h
  induction h with
  | last expectation token =>
    rw [List.map_singleton, List.singleton_append, Phase.outcomes_cons,
      Phase.step_of_form hlast.symm]
    rfl
  | more hstep _ ih =>
    rw [List.map_cons, List.cons_append, Phase.outcomes_cons, Phase.step_of_next hstep]
    exact ih hlast

/-- The tokens of derivations are read as the forms that they derive, without errors. -/
theorem FormTree.outcomes_eq (trees : List FormTree) (finish : Position) :
    Phase.start.outcomes finish ((trees.flatMap tokens).map .ok) =
      trees.map fun tree => .ok tree.form := by
  induction trees with
  | nil => rfl
  | cons tree trees ih =>
    rw [List.flatMap_cons, List.map_append, Phase.start, tree.reaches.outcomes_eq, ih,
      List.map_cons]

/-- Outcomes that are forms have these forms. -/
theorem Outcome.forms_map_ok (forms : List Form) :
    Outcome.forms (forms.map .ok) = forms := by
  induction forms with
  | nil => rfl
  | cons form forms ih => rw [List.map_cons, forms_ok, ih]

/-- Outcomes that are forms have no errors. -/
theorem Outcome.errors_map_ok (forms : List Form) : Outcome.errors (forms.map .ok) = [] := by
  induction forms with
  | nil => rfl
  | cons form forms ih => rw [List.map_cons, errors_ok, ih]

/-! ## What is accepted is derived -/

/-- Stretches without errors are derivations of forms. -/
theorem Stretch.exists_trees {stretches : List Stretch}
    (h : Outcome.errors (stretches.map outcome) = []) :
    ∃ trees : List FormTree, stretches.flatMap items = (trees.flatMap FormTree.tokens).map .ok ∧
      Outcome.forms (stretches.map outcome) = trees.map FormTree.form := by
  induction stretches with
  | nil => exact ⟨[], rfl, rfl⟩
  | cons stretch stretches ih =>
    cases stretch with
    | discarded items error => simp [outcome] at h
    | form tree =>
      obtain ⟨trees, hitems, hforms⟩ := ih h
      refine ⟨tree :: trees, ?_, ?_⟩
      · rw [List.flatMap_cons, hitems, List.flatMap_cons, List.map_append, items]
      · rw [List.map_cons, outcome, Outcome.forms_ok, hforms, List.map_cons]

/-! ## Acceptance -/

/-- A source is a program if no error is found in it. -/
theorem parse_eq_ok_iff (source : String) (program : Program) :
    parse source = .ok program ↔ readSource source = (program, []) := by
  unfold parse
  split
  next forms heq => simp [heq]
  next forms errors hne heq =>
    rw [heq]
    simp only [reduceCtorEq, Prod.mk.injEq, false_iff, not_and]
    intro _ herrors
    exact hne herrors

/-- A source is derived by trees if its items are their tokens. -/
def Derives (source : String) (trees : List FormTree) : Prop :=
  (Cursor.ofSource source).items = (trees.flatMap FormTree.tokens).map .ok

/-- The grammar derives a source in at most one way. -/
theorem Derives.unique {source : String} {trees trees' : List FormTree}
    (h : Derives source trees) (h' : Derives source trees') : trees = trees' := by
  apply FormTree.eq_of_flatMap_tokens
  have htokens := h.symm.trans h'
  exact (List.map_inj_right fun _ _ heq => Except.ok.inj heq).1 htokens

/-- A source that is derived is read as what it is derived from, without errors. -/
theorem Derives.readSource_eq {source : String} {trees : List FormTree}
    (h : Derives source trees) : readSource source = (trees.map FormTree.form, []) := by
  have houtcomes : (Cursor.ofSource source).outcomes = (trees.map FormTree.form).map .ok := by
    rw [Cursor.outcomes, h, FormTree.outcomes_eq, List.map_map]
    rfl
  rw [readSource_eq_outcomes, houtcomes, Outcome.forms_map_ok, Outcome.errors_map_ok]

/-- A source is accepted as a program if and only if the grammar derives it: there are no
lexical errors in it, and its tokens are those of derivations of forms that make up the program.
There is only one choice of these derivations. -/
theorem parse_eq_ok_iff_derives (source : String) :
    (∀ program, parse source = .ok program ↔
      ∃ trees, Derives source trees ∧ program = trees.map FormTree.form) ∧
    ∀ trees trees', Derives source trees → Derives source trees' → trees = trees' := by
  refine ⟨fun program => ?_, fun _ _ => Derives.unique⟩
  rw [parse_eq_ok_iff]
  constructor
  · intro hread
    obtain ⟨stretches, -, hitems, houtcomes⟩ := (Cursor.ofSource source).exists_stretches
    rw [readSource_eq_outcomes, ← houtcomes, Prod.mk.injEq] at hread
    obtain ⟨trees, htrees, hforms⟩ := Stretch.exists_trees hread.2
    exact ⟨trees, hitems.symm.trans htrees, hread.1.symm.trans hforms⟩
  · rintro ⟨trees, hderives, rfl⟩
    have houtcomes : (Cursor.ofSource source).outcomes = (trees.map FormTree.form).map .ok := by
      rw [Cursor.outcomes, hderives, FormTree.outcomes_eq, List.map_map]
      rfl
    rw [readSource_eq_outcomes, houtcomes, Outcome.forms_map_ok, Outcome.errors_map_ok]

end MiniScheme

import MiniScheme.Proofs.Composition
import MiniScheme.Proofs.MovedCode
import MiniScheme.Session

/-!
# A malformed piece of a source

A piece of a source that holds no form, only errors, changes nothing about what the rest of the
source does: the same forms are evaluated, on the same store, and the first of them that fails ends
the evaluation.  What follows the piece stands further down than it would without it, which can be
seen in the code of closures only.  The errors of the piece are reported between those in front of
it and those behind it.

Main results:

- Theorem `readSource_between`: what is read from three pieces of a source.
- Theorem `evaluateProgram_withoutPlaces`: programs that differ in places only do the same.
- Theorem `run_malformed_between`: what a malformed piece changes about a run.
-/

namespace MiniScheme

/-! ## Without places -/

/-- The form with all tokens at one place. -/
def Form.withoutPlaces (form : Form) : Form :=
  form.relocate fun _ => .start

/-- The value with all tokens of code in it at one place. -/
def Value.withoutPlaces (value : Value) : Value :=
  value.relocate fun _ => .start

/-- The store with all tokens of code in it at one place. -/
def Store.withoutPlaces (store : Store) : Store :=
  store.relocate fun _ => .start

/-- Forms that have been moved are the same up to places. -/
theorem Form.map_withoutPlaces_relocate (move : Position → Position) (program : Program) :
    (program.map (relocate move)).map withoutPlaces = program.map withoutPlaces := by
  rw [List.map_map]
  exact List.map_congr_left fun form _ => form.relocate_relocate move fun _ => .start

/-- Stores that differ in places only have the same symbols and the same printed lines. -/
theorem Store.symbols_eq_of_withoutPlaces {store store' : Store}
    (h : store.withoutPlaces = store'.withoutPlaces) (id : EnvironmentId) :
    (store.environment id).symbols = (store'.environment id).symbols := by
  have hsymbols : ∀ store : Store, (store.withoutPlaces.environment id).symbols =
      (store.environment id).symbols := by
    intro store
    rw [withoutPlaces, environment_relocate]
    rfl
  rw [← hsymbols store, h, hsymbols]

/-- Stores that differ in places only have printed the same lines. -/
theorem Store.printed_eq_of_withoutPlaces {store store' : Store}
    (h : store.withoutPlaces = store'.withoutPlaces) : store.printed = store'.printed :=
  show store.withoutPlaces.printed = store'.withoutPlaces.printed from congrArg printed h

/-- Programs that differ in places only do the same on a store: they end with the same value or the
same error, and leave the same store, except for places. -/
theorem evaluateProgram_withoutPlaces {program program' : Program}
    (h : program.map Form.withoutPlaces = program'.map Form.withoutPlaces) (fuel : Nat)
    (id : EnvironmentId) (store : Store) :
    ((evaluateProgram fuel id program).runOn store).1.map Value.withoutPlaces =
        ((evaluateProgram fuel id program').runOn store).1.map Value.withoutPlaces ∧
      ((evaluateProgram fuel id program).runOn store).2.withoutPlaces =
        ((evaluateProgram fuel id program').runOn store).2.withoutPlaces := by
  have hrelocates : ∀ program : Program, Action.RelocatesValue (fun _ => .start)
      (evaluateProgram fuel id program) (evaluateProgram fuel id (program.map Form.withoutPlaces)) :=
    evaluateProgram_relocates fuel id
  have hprogram := hrelocates program store
  rw [h] at hprogram
  exact Prod.mk.inj (hprogram.symm.trans (hrelocates program' store))

/-! ## Three pieces -/

/-- An error that is moved twice is moved by both moves together. -/
theorem SyntaxError.relocate_relocate (move further : Position → Position) (error : SyntaxError) :
    (error.relocate move).relocate further = error.relocate (further ∘ move) := by
  cases error <;> rfl

/-- What is read from three pieces of a source with newlines between them. -/
theorem readSource_between {first second : String} (hfirst : Separable first)
    (hsecond : Separable second) (last : String) :
    let down := Position.down (first.toList.count '\n' + 1)
    let further := down ∘ Position.down (second.toList.count '\n' + 1)
    readSource (first ++ "\n" ++ second ++ "\n" ++ last) =
      ((readSource first).1 ++ (readSource second).1.map (Form.relocate down) ++
          (readSource last).1.map (Form.relocate further),
        (readSource first).2 ++ (readSource second).2.map (SyntaxError.relocate down) ++
          (readSource last).2.map (SyntaxError.relocate further)) := by
  intro down further
  have hassoc : first ++ "\n" ++ second ++ "\n" ++ last =
      first ++ "\n" ++ (second ++ "\n" ++ last) := by
    simp only [String.append_assoc]
  rw [hassoc, readSource_append hfirst, readSource_append hsecond]
  simp only [List.map_append, List.map_map, List.append_assoc]
  have hforms : Form.relocate down ∘ Form.relocate (Position.down (second.toList.count '\n' + 1)) =
      Form.relocate further :=
    funext fun form => form.relocate_relocate _ _
  have herrors : SyntaxError.relocate down ∘
      SyntaxError.relocate (Position.down (second.toList.count '\n' + 1)) =
        SyntaxError.relocate further :=
    funext fun error => error.relocate_relocate _ _
  rw [hforms, herrors]

/-! ## Runs -/

/-- How a run ends that ends like this, except that these are the errors of reading. -/
def reporting (errors : List SyntaxError) :
    Except (Stop RunError) Value → Except (Stop RunError) Value
  | .ok _ | .error (.failed (.malformed _)) => .error (.failed (.malformed errors))
  | .error (.failed (.failed error)) | .error (.failed (.malformedAndFailed _ error)) =>
    .error (.failed (.malformedAndFailed errors error))
  | .error .exhausted => .error .exhausted

/-- With errors of reading a run ends as it does with fewer of them, but for reporting these errors.
-/
theorem runResult_eq_reporting {errors : List SyntaxError} (h : errors ≠ [])
    (fewer : List SyntaxError) {result result' : Except (Stop EvalError) Value}
    (hresult : result.map Value.withoutPlaces = result'.map Value.withoutPlaces) :
    runResult errors result = reporting errors (runResult fewer result') := by
  obtain ⟨first, rest, rfl⟩ := List.exists_cons_of_ne_nil h
  cases result with
  | ok value =>
    cases result' with
    | ok value' => cases fewer <;> rfl
    | error stop => cases hresult
  | error stop =>
    cases result' with
    | ok value' => cases hresult
    | error stop' =>
      cases hresult
      cases stop with
      | failed error => cases fewer <;> rfl
      | exhausted => rfl

/-- A malformed piece of a source changes nothing about a run but the errors of reading: but for
places in the code of closures the run leaves the same bindings and the same symbols, prints the
same, and fails in evaluation where it fails without the piece.  The errors of the piece stand
between those in front of it and those behind it. -/
theorem run_malformed_between {first broken : String} (hfirst : Separable first)
    (hbroken : Separable broken) (hforms : (readSource broken).1 = [])
    (herrors : (readSource broken).2 ≠ []) (last : String) (fuel : Nat) (id : EnvironmentId)
    (store : Store) :
    let down := Position.down (first.toList.count '\n' + 1)
    let further := down ∘ Position.down (broken.toList.count '\n' + 1)
    let errors := (readSource first).2 ++ (readSource broken).2.map (SyntaxError.relocate down) ++
      (readSource last).2.map (SyntaxError.relocate further)
    let whole := (run fuel id (first ++ "\n" ++ broken ++ "\n" ++ last)).runOn store
    let without := (run fuel id (first ++ "\n" ++ last)).runOn store
    whole.1 = reporting errors without.1 ∧
      whole.2.withoutPlaces = without.2.withoutPlaces ∧
      whole.2.printed = without.2.printed ∧
      ∀ other, (whole.2.environment other).symbols = (without.2.environment other).symbols := by
  intro down further errors whole without
  have hread : readSource (first ++ "\n" ++ broken ++ "\n" ++ last) =
      ((readSource first).1 ++ (readSource last).1.map (Form.relocate further), errors) := by
    rw [readSource_between hfirst hbroken, hforms, List.map_nil, List.append_nil]
  have hsome : errors ≠ [] := by
    simp [errors, herrors]
  have hprogram : ((readSource first).1 ++
        (readSource last).1.map (Form.relocate further)).map Form.withoutPlaces =
      ((readSource first).1 ++ (readSource last).1.map (Form.relocate down)).map
        Form.withoutPlaces := by
    rw [List.map_append, List.map_append, Form.map_withoutPlaces_relocate,
      Form.map_withoutPlaces_relocate]
  obtain ⟨hvalue, hstore⟩ := evaluateProgram_withoutPlaces hprogram fuel id store
  simp only [whole, without, run_eq, hread, readSource_append hfirst]
  exact ⟨runResult_eq_reporting hsome _ hvalue, hstore, Store.printed_eq_of_withoutPlaces hstore,
    Store.symbols_eq_of_withoutPlaces hstore⟩

/-- Each of these pieces has errors, and evaluation fails in the last one, where the list that it
takes the first element of is no list. -/
theorem run_malformed_between_failed :
    let first := "(define x 1) ) (p 'a)"
    let broken := "(define 3) )"
    let last := "(p 'b) (car x) (p 'c) #("
    let store := (Store.allocateGlobal.run (.initial 0)).2
    let whole := (run 4 0 (first ++ "\n" ++ broken ++ "\n" ++ last)).runOn store
    let without := (run 4 0 (first ++ "\n" ++ last)).runOn store
    Separable first ∧ Separable broken ∧ (readSource broken).1 = [] ∧ (readSource broken).2 ≠ [] ∧
      whole.2.withoutPlaces = without.2.withoutPlaces ∧ whole.2.printed = #["a", "b"] ∧
      (match whole.1 with
        | .error (.failed (.malformedAndFailed errors error)) =>
          some (errors.map SyntaxError.position, error)
        | _ => none) =
        some ([⟨1, 14⟩, ⟨2, 9⟩, ⟨2, 12⟩, ⟨3, 23⟩], .typeMismatch (.argument 1) .list .number) := by
  intro first broken last store whole without
  have hfirst : Separable first := ⟨by decide +kernel, by decide +kernel, by decide +kernel⟩
  have hbroken : Separable broken := ⟨by decide +kernel, by decide +kernel, by decide +kernel⟩
  have hforms : (readSource broken).1 = [] := by decide +kernel
  have herrors : (readSource broken).2 ≠ [] := by decide +kernel
  obtain ⟨hending, hstore, hprinted, -⟩ :=
    run_malformed_between hfirst hbroken hforms herrors last 4 0 store
  refine ⟨hfirst, hbroken, hforms, herrors, hstore, ?_, ?_⟩
  · rw [show whole.2.printed = without.2.printed from hprinted]
    decide +kernel
  · rw [show whole.1 = _ from hending]
    decide +kernel

end MiniScheme

import MiniScheme.Proofs.ScriptDetermination

/-!
# What a failed compilation leaves behind

A compiler takes up the names that a program defines form by form, also those in front of a form
that has no script.  The script is lost then, but the names stay declared: a later definition of
one of them is written as an assignment.  So a failed compilation goes unnoticed by later ones
exactly if all names that are defined in front of the form without a script were declared before.

Main results:

- Theorem `Statement.ofProgram_eq_error`: a program fails at its first form without a script, and
  has declared what stands in front of that form.
- Theorem `Compiler.results_congr`: only which names are declared matters for what a compiler
  gives, not their order.
- Theorem `Compiler.failed_compile_results_iff`: when a failed compilation goes unnoticed.
-/

namespace MiniScheme

open Script

/-! ## The names that a program defines -/

/-- The script name that a form defines, if it is a definition. -/
def Form.definedName? : Form → Option String
  | definition name _ => some (Name.ofIdentifier name.text)
  | expression _ => none

/-- The script names that a program defines. -/
def Program.definedNames (program : Program) : List String :=
  program.filterMap Form.definedName?

namespace Script

/-- Lists with the same names, in any order and any number. -/
def SameNames (declared declared' : List String) : Prop :=
  ∀ name, name ∈ declared ↔ name ∈ declared'

namespace Statement

variable {declared declared' after : List String} {form : Form} {program : Program}
variable {statement : Statement} {statements : List Statement} {reason : Unsupported}

/-- A form with a statement declares the name that it defines. -/
theorem mem_of_ofForm (h : ofForm declared form = .ok (statement, after)) (name : String) :
    name ∈ after ↔ name ∈ declared ∨ form.definedName? = some name := by
  cases form with
  | definition token value =>
    obtain ⟨term, -, heq⟩ := ofForm_definition.1 h
    split at heq
    next hmem =>
      cases heq
      simp only [Form.definedName?, Option.some.injEq]
      exact ⟨.inl, fun hname => hname.elim id fun heq => heq ▸ hmem⟩
    next =>
      cases heq
      simp only [Form.definedName?, Option.some.injEq, List.mem_cons, eq_comm (a := name)]
      exact or_comm
  | expression whole =>
    obtain ⟨term, -, heq⟩ := ofForm_expression.1 h
    cases heq
    simp [Form.definedName?]

/-- Whether a form has a statement does not depend on the declared names. -/
theorem ofForm_eq_error_congr (h : ofForm declared form = .error reason) :
    ofForm declared' form = .error reason := by
  cases form with
  | definition name value =>
    rw [ofForm] at h ⊢
    cases hvalue : Term.ofExpression value with
    | error => rwa [hvalue] at h
    | ok term =>
      simp only [hvalue, bind, Except.bind] at h
      split at h <;> cases h
  | expression whole =>
    rw [ofForm] at h ⊢
    cases hwhole : Term.ofExpression whole with
    | error => rwa [hwhole] at h
    | ok term => rw [hwhole] at h; cases h

/-- Which statement a form has depends on the declared names only, not on their order. -/
theorem ofForm_congr (hnames : SameNames declared declared')
    (h : ofForm declared form = .ok (statement, after)) :
    ∃ after', ofForm declared' form = .ok (statement, after') ∧ SameNames after after' := by
  have hform : ∃ after', ofForm declared' form = .ok (statement, after') := by
    cases form with
    | definition name value =>
      obtain ⟨term, hterm, heq⟩ := ofForm_definition.1 h
      split at heq
      next hold =>
        cases heq
        exact ⟨_, ofForm_definition.2 ⟨term, hterm, if_pos ((hnames _).1 hold)⟩⟩
      next hnew =>
        cases heq
        exact ⟨_, ofForm_definition.2 ⟨term, hterm, if_neg fun hold => hnew ((hnames _).2 hold)⟩⟩
    | expression whole =>
      obtain ⟨term, hterm, heq⟩ := ofForm_expression.1 h
      cases heq
      exact ⟨declared', ofForm_expression.2 ⟨term, hterm, rfl⟩⟩
  obtain ⟨after', hform⟩ := hform
  refine ⟨after', hform, fun name => ?_⟩
  rw [mem_of_ofForm h, mem_of_ofForm hform, hnames]

/-- Behind a form with a statement the names that are known then are those for the others. -/
theorem ofProgram_cons_of_ok {forms : Program}
    (h : ofForm declared form = .ok (statement, after)) :
    ofProgram declared (form :: forms) =
      ((ofProgram after forms).1.map (statement :: ·), (ofProgram after forms).2) := by
  rw [ofProgram, h]

/-- The first form without a statement ends the program, and the names before it are known. -/
theorem ofProgram_cons_of_error {forms : Program} (h : ofForm declared form = .error reason) :
    ofProgram declared (form :: forms) = (.error reason, declared) := by
  rw [ofProgram, h]

/-- A program with statements declares the names that it defines. -/
theorem mem_of_ofProgram (h : (ofProgram declared program).1 = .ok statements) (name : String) :
    name ∈ (ofProgram declared program).2 ↔ name ∈ declared ∨ name ∈ program.definedNames := by
  induction program generalizing declared statements with
  | nil => simp [ofProgram, Program.definedNames]
  | cons form forms ih =>
    obtain ⟨statement, after, rest, hform, hrest, -⟩ := ofProgram_cons.1 h
    rw [ofProgram_cons_of_ok hform, ih hrest, mem_of_ofForm hform, or_assoc]
    simp only [Program.definedNames, List.filterMap_cons]
    grind

/-- A program fails at its first form without a script, and has then declared what stands in front
of that form. -/
theorem ofProgram_eq_error (h : (ofProgram declared program).1 = .error reason) :
    ∃ first form rest statements, program = first ++ form :: rest ∧
      (ofProgram declared first).1 = .ok statements ∧
      (∀ declared, ofForm declared form = .error reason) ∧
      (ofProgram declared program).2 = (ofProgram declared first).2 := by
  induction program generalizing declared with
  | nil => cases h
  | cons form forms ih =>
    cases hform : ofForm declared form with
    | error reason' =>
      rw [ofProgram_cons_of_error hform] at h ⊢
      cases h
      exact ⟨[], form, forms, [], rfl, rfl, fun _ => ofForm_eq_error_congr hform, rfl⟩
    | ok pair =>
      obtain ⟨statement, after⟩ := pair
      rw [ofProgram_cons_of_ok hform] at h ⊢
      have hforms : (ofProgram after forms).1 = .error reason := by
        cases hforms : (ofProgram after forms).1 with
        | error => rwa [hforms] at h
        | ok => rw [hforms] at h; cases h
      obtain ⟨first, last, rest, statements, rfl, hfirst, hlast, hafter⟩ := ih hforms
      refine ⟨form :: first, last, rest, statement :: statements, rfl, ?_, hlast, ?_⟩
      · rw [ofProgram_cons_of_ok hform, hfirst]
        rfl
      · rw [ofProgram_cons_of_ok hform, hafter]

/-- Which statements a program has depends on the declared names only, not on their order. -/
theorem ofProgram_congr (hnames : SameNames declared declared') (program : Program) :
    (ofProgram declared program).1 = (ofProgram declared' program).1 ∧
      SameNames (ofProgram declared program).2 (ofProgram declared' program).2 := by
  induction program generalizing declared declared' with
  | nil => exact ⟨rfl, hnames⟩
  | cons form forms ih =>
    cases hform : ofForm declared form with
    | error reason =>
      rw [ofProgram_cons_of_error hform, ofProgram_cons_of_error (ofForm_eq_error_congr hform)]
      exact ⟨rfl, hnames⟩
    | ok pair =>
      obtain ⟨statement, after⟩ := pair
      obtain ⟨after', hform', hafter⟩ := ofForm_congr hnames hform
      obtain ⟨hstatements, hlast⟩ := ih hafter
      rw [ofProgram_cons_of_ok hform, ofProgram_cons_of_ok hform', hstatements]
      exact ⟨rfl, hlast⟩

/-- A declaration and an assignment are never written alike. -/
theorem text_declare_ne_text_assign (name : String) (value value' : Term)
    (h : value.text = value'.text) : (declare name value).text ≠ (assign name value').text := by
  intro heq
  have hlength := congrArg String.length heq
  simp only [text, h, String.length_append] at hlength
  have : "let ".length = 4 := rfl
  omega

end Statement

/-! ## Compilers in use -/

namespace Compiler

variable {compiler compiler' : Compiler} {program : Program} {reason : Unsupported}

/-- A program has a script if it has statements. -/
theorem compile_eq_ok_iff {text : String} :
    (compiler.compile program).1 = .ok text ↔
      ∃ statements, (Statement.ofProgram compiler.openingNames program).1 = .ok statements ∧
        text = lines compiler.opening ++ lines (statements.map Statement.text) := by
  constructor
  · intro h
    cases hstatements : (Statement.ofProgram compiler.openingNames program).1 with
    | error => simp [compile, hstatements, Except.map] at h
    | ok statements =>
      rw [compile_eq hstatements] at h
      exact ⟨statements, rfl, (Except.ok.inj h).symm⟩
  · rintro ⟨statements, hstatements, rfl⟩
    exact compile_eq hstatements

/-- A program has no script for the reason for which it has no statements. -/
theorem compile_eq_error_iff :
    (compiler.compile program).1 = .error reason ↔
      (Statement.ofProgram compiler.openingNames program).1 = .error reason := by
  cases h : (Statement.ofProgram compiler.openingNames program).1 <;> simp [compile, h, Except.map]

/-- What a compiler gives for programs that are compiled one after another. -/
def results (compiler : Compiler) : List Program → List (Except Unsupported String)
  | [] => []
  | program :: programs =>
    (compiler.compile program).1 :: (compiler.compile program).2.results programs

/-- No call of a compiler changes whether it writes the prelude. -/
theorem compile_prelude (compiler : Compiler) (program : Program) :
    (compiler.compile program).2.prelude = compiler.prelude :=
  rfl

/-- At its opening a compiler knows the names of the prelude, if it writes it, and those declared.
-/
theorem mem_openingNames (compiler : Compiler) (name : String) :
    name ∈ compiler.openingNames ↔
      (compiler.prelude = true ∧ name ∈ preludeNames) ∨ name ∈ compiler.declared := by
  rw [openingNames]
  split <;> simp [*]

/-- Compilers that have declared the same names give the same, and so they do ever after. -/
theorem results_congr (hprelude : compiler.prelude = compiler'.prelude)
    (hnames : SameNames compiler.openingNames compiler'.openingNames) (programs : List Program) :
    compiler.results programs = compiler'.results programs := by
  induction programs generalizing compiler compiler' with
  | nil => rfl
  | cons program programs ih =>
    obtain ⟨hstatements, hafter⟩ := Statement.ofProgram_congr hnames program
    have hfirst : (compiler.compile program).1 = (compiler'.compile program).1 := by
      simp only [compile, opening, hstatements, hprelude]
    have hopening : SameNames (compiler.compile program).2.openingNames
        (compiler'.compile program).2.openingNames := by
      intro name
      simp only [mem_openingNames, compile, hprelude]
      rw [hafter]
    have hprelude' : (compiler.compile program).2.prelude =
        (compiler'.compile program).2.prelude := by
      rw [compile_prelude, compile_prelude, hprelude]
    rw [results, results, hfirst, ih hprelude' hopening]

/-- A compilation leaves the names that were declared, and those that the program defines. -/
theorem mem_openingNames_compile {text : String} (h : (compiler.compile program).1 = .ok text)
    (name : String) : name ∈ (compiler.compile program).2.openingNames ↔
      name ∈ compiler.openingNames ∨ name ∈ program.definedNames := by
  obtain ⟨statements, hstatements, -⟩ := compile_eq_ok_iff.1 h
  have hmem := Statement.mem_of_ofProgram hstatements name
  rw [mem_openingNames]
  simp only [compile, hmem]
  rw [mem_openingNames]
  grind

/-- The script of a definition shows whether its name was declared. -/
theorem results_definition_ne {name : Token} {value : Expression} {term : Term}
    (hvalue : Term.ofExpression value = .ok term) (hprelude : compiler.prelude = compiler'.prelude)
    (hnew : Name.ofIdentifier name.text ∉ compiler.openingNames)
    (hold : Name.ofIdentifier name.text ∈ compiler'.openingNames) :
    compiler.results [[.definition name value]] ≠ compiler'.results [[.definition name value]] := by
  have hdeclare : (Statement.ofProgram compiler.openingNames [.definition name value]).1 =
      .ok [.declare (Name.ofIdentifier name.text) term] := by
    rw [Statement.ofProgram_cons_of_ok
      (Statement.ofForm_definition.2 ⟨term, hvalue, if_neg hnew⟩)]
    rfl
  have hassign : (Statement.ofProgram compiler'.openingNames [.definition name value]).1 =
      .ok [.assign (Name.ofIdentifier name.text) term] := by
    rw [Statement.ofProgram_cons_of_ok
      (Statement.ofForm_definition.2 ⟨term, hvalue, if_pos hold⟩)]
    rfl
  have hopening : compiler.opening = compiler'.opening := by rw [opening, opening, hprelude]
  intro heq
  simp only [results, compile_eq hdeclare, compile_eq hassign, hopening, List.cons.injEq, Except.ok.injEq,
    String.append_right_inj, lines, List.map_cons, List.map_nil, String.join_cons,
    String.join_nil, String.append_empty, String.append_left_inj, and_true] at heq
  exact Statement.text_declare_ne_text_assign _ _ _ rfl heq

/-- A compilation fails at the first form without a script.  What stands in front of that form has
a script, which is lost, and defines names, which stay declared.  Later compilations give the same
as if the failed one had never been exactly if those names were declared before it. -/
theorem failed_compile_results_iff (h : (compiler.compile program).1 = .error reason) :
    ∃ first form rest lost, program = first ++ form :: rest ∧
      (compiler.compile first).1 = .ok lost ∧
      (∀ other : Compiler, (other.compile [form]).1 = .error reason) ∧
      (compiler.compile program).2 = (compiler.compile first).2 ∧
      (∀ name, name ∈ (compiler.compile program).2.openingNames ↔
        name ∈ compiler.openingNames ∨ name ∈ first.definedNames) ∧
      ((∀ later, (compiler.compile program).2.results later = compiler.results later) ↔
        ∀ name ∈ first.definedNames, name ∈ compiler.openingNames) := by
  have hstatements : (Statement.ofProgram compiler.openingNames program).1 = .error reason := by
    cases hstatements : (Statement.ofProgram compiler.openingNames program).1 with
    | error => simpa [compile, hstatements, Except.map] using h
    | ok => simp [compile, hstatements, Except.map] at h
  obtain ⟨first, form, rest, statements, heq, hfirst, hform, hafter⟩ :=
    Statement.ofProgram_eq_error hstatements
  have hscript := compile_eq hfirst
  have hcompiler : (compiler.compile program).2 = (compiler.compile first).2 := by
    simp only [compile, hafter]
  have hnames : ∀ name, name ∈ (compiler.compile program).2.openingNames ↔
      name ∈ compiler.openingNames ∨ name ∈ first.definedNames := by
    rw [hcompiler]
    exact mem_openingNames_compile hscript
  refine ⟨first, form, rest, _, heq, hscript, fun other => ?_, hcompiler, hnames, ?_, ?_⟩
  · simp only [compile, Statement.ofProgram_cons_of_error (hform other.openingNames)]
    rfl
  · intro hsame name hname
    by_contra hnew
    obtain ⟨definition, -, hdefined⟩ := List.mem_filterMap.1 hname
    cases definition with
    | expression whole => cases hdefined
    | definition token value =>
      cases hdefined
      have hold := (hnames _).2 (.inr hname)
      have hlater : Term.ofExpression (.literal token) = .ok (.ofToken token) := rfl
      exact results_definition_ne hlater (compiler.compile_prelude program).symm hnew hold
        (hsame _).symm
  · intro hdeclared later
    refine results_congr (compiler.compile_prelude program) (fun name => ?_) later
    rw [hnames]
    exact or_iff_left_of_imp (hdeclared name)

/-- In front of quoted data, `or` is a name of the prelude and `x` is not. -/
theorem failed_compile_results_iff_quoted :
    let program := (readSource "(define or 1) (define x 1) '(1) (define y 1)").1
    let compiler := Compiler.new true
    (compiler.compile program).1 = .error .quotedDatum ∧
      ∃ first form rest, program = first ++ form :: rest ∧
        (compiler.compile program).2 = (compiler.compile first).2 ∧
        ((∀ later, (compiler.compile program).2.results later = compiler.results later) ↔
          ∀ name ∈ first.definedNames, name ∈ compiler.openingNames) := by
  intro program compiler
  have hfailed : (compiler.compile program).1 = .error .quotedDatum := by decide +kernel
  obtain ⟨first, form, rest, _, heq, -, -, hcompiler, -, hresults⟩ :=
    failed_compile_results_iff hfailed
  exact ⟨hfailed, first, form, rest, heq, hcompiler, hresults⟩

/-- A definition whose script is lost turns a later definition into an assignment. -/
theorem failed_compile_changes_results :
    let failing := (readSource "(define x 1) '(1)").1
    let later := (readSource "(define x 2)").1
    let compiler := Compiler.new false
    (compiler.compile failing).1 = .error .quotedDatum ∧
      (compiler.compile failing).2.results [later] = [.ok "x = 2;\n"] ∧
      compiler.results [later] = [.ok "let x = 2;\n"] := by
  intro failing later compiler
  refine ⟨?_, ?_, ?_⟩ <;> decide +kernel

end Compiler

end Script

end MiniScheme
